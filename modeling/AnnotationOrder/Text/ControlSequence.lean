/-
  Control sequences of terminals.

  A sequence is an escape character and `[`, with parameters, intermediate
  characters and one final character behind them, each from a range of its own.
  Printed messages go without such sequences.

  * `sequenceTail?`: the length of what follows `[`;
  * `plain`: a text without its sequences.
-/
namespace AnnotationOrder.Text.ControlSequence

/-- A character in a range. -/
def isBetween (low high c : Char) : Bool := low ≤ c && c ≤ high

/-- The length of the parameters, the intermediate characters and the final character that a text
    begins with. -/
def sequenceTail? (cs : List Char) : Option Nat :=
  let parameters := (cs.takeWhile (isBetween '0' '?')).length
  let middle := ((cs.drop parameters).takeWhile (isBetween ' ' '/')).length
  match cs.drop (parameters + middle) with
  | c :: _ => if isBetween '@' '~' c then some (parameters + middle + 1) else none
  | [] => none

/-- Characters without their control sequences, of which some are still to be left out. -/
def plainFrom (skip : Nat) : List Char → List Char
  | [] => []
  | c :: cs =>
    match skip with
    | n + 1 => plainFrom n cs
    | 0 =>
      match if c == '\x1b' && cs.head? == some '[' then sequenceTail? cs.tail else none with
      | some n => plainFrom (n + 1) cs
      | none => c :: plainFrom 0 cs

/-- A text without its control sequences. -/
def plain (s : String) : String := String.ofList (plainFrom 0 s.toList)

/-- Characters without an escape character stay as they are. -/
theorem plainFrom_eq_self {cs : List Char} (h : '\x1b' ∉ cs) : plainFrom 0 cs = cs := by
  induction cs with
  | nil => rfl
  | cons c cs ih =>
    have hc : ¬ c = '\x1b' := fun hc => h (hc ▸ .head _)
    have hcs : '\x1b' ∉ cs := fun hm => h (.tail _ hm)
    simp [plainFrom, hc, ih hcs]

end AnnotationOrder.Text.ControlSequence
