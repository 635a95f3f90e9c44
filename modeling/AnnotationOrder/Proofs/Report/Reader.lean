/-
  A reader of JSON texts.

  A text is read character by character.  What has been read stands on a stack, the
  last on top; a closing bracket takes everything back to the bracket that it closes
  and leaves one value in its place.

  * `Value`: what a text says;
  * `word?`: the value of a number or of a name for a value;
  * `ofUnits?`: the characters that the code units of a text stand for;
  * `shift`: what a mark does to the stack;
  * `State.step`, `State.run`: one character, and several;
  * `read`: the value of a whole text.
-/
import AnnotationOrder.Text.Digit

namespace AnnotationOrder.Report.Json

open Text

/-- What a text says. -/
inductive Value
  | null
  | flag (b : Bool)
  /-- An integer times a power of ten, as far as digits are written. -/
  | number (mantissa exponent : Int)
  | text (s : String)
  | list (items : List Value)
  | object (entries : List (String × Value))
  deriving Repr, Inhabited

/-! ## Numbers and names -/

/-- The digits at the start of some characters, at least one, and what follows. -/
def digits? (cs : List Char) : Option (List Char × List Char) :=
  if cs.head?.any isAsciiDigit then some (cs.span isAsciiDigit) else none

/-- The whole part of a number: no further digit follows a zero in front. -/
def whole? : List Char → Option (List Char × List Char)
  | '0' :: cs => some (['0'], cs)
  | cs => digits? cs

/-- The digits behind a point, if there is one. -/
def fraction? : List Char → Option (List Char × List Char)
  | '.' :: cs => digits? cs
  | cs => some ([], cs)

/-- An integer by its sign. -/
def signed (minus : Bool) (n : Nat) : Int := if minus then -n else n

/-- A power of ten at the end of a number, if there is one. -/
def exponent? : List Char → Option Int
  | [] => some 0
  | e :: cs =>
    let (minus, cs) := match cs with
      | '-' :: cs => (true, cs)
      | '+' :: cs => (false, cs)
      | cs => (false, cs)
    match digits? cs with
    | some (ds, []) =>
      if e == 'e' || e == 'E' then some (signed minus (Nat.ofDigitChars 10 ds 0)) else none
    | _ => none

/-- The value of a number behind its sign. -/
def unsigned? (minus : Bool) (cs : List Char) : Option Value := do
  let (whole, cs) ← whole? cs
  let (fraction, cs) ← fraction? cs
  let e ← exponent? cs
  some (.number (signed minus (Nat.ofDigitChars 10 (whole ++ fraction) 0)) (e - fraction.length))

/-- The value of a number. -/
def number? : List Char → Option Value
  | '-' :: cs => unsigned? true cs
  | cs => unsigned? false cs

/-- The value of a word. -/
def word? (cs : List Char) : Option Value :=
  if cs = "null".toList then some .null
  else if cs = "true".toList then some (.flag true)
  else if cs = "false".toList then some (.flag false)
  else number? cs

/-! ## Texts -/

/-- The code units of a character: two of them beyond the first plane. -/
def units (c : Char) : List Nat :=
  let n := c.toNat
  if n < 0x10000 then [n] else [0xd800 + (n - 0x10000) / 0x400, 0xdc00 + (n - 0x10000) % 0x400]

/-- A code unit that begins a pair. -/
def isHigh (n : Nat) : Bool := 0xd800 ≤ n && n < 0xdc00

/-- A code unit that ends a pair. -/
def isLow (n : Nat) : Bool := 0xdc00 ≤ n && n < 0xe000

/-- The characters that code units stand for, if each unit of a pair has the other one. -/
def ofUnits? : List Nat → Option (List Char)
  | [] => some []
  | m :: n :: ns =>
    if isHigh m then
      if isLow n then
        (ofUnits? ns).map (Char.ofNat (0x10000 + (m - 0xd800) * 0x400 + (n - 0xdc00)) :: ·)
      else none
    else if isLow m then none
    else (ofUnits? (n :: ns)).map (Char.ofNat m :: ·)
  | [m] => if isHigh m || isLow m then none else some [Char.ofNat m]

/-- The code unit that a backslash and a character stand for. -/
def shortEscape? (c : Char) : Option Nat :=
  [('"', 0x22), ('\\', 0x5c), ('/', 0x2f), ('b', 0x08), ('f', 0x0c), ('n', 0x0a), ('r', 0x0d),
    ('t', 0x09)].lookup c

/-! ## Lists and objects -/

/-- What stands on the stack. -/
inductive Symbol
  | mark (c : Char)
  | value (v : Value)
  deriving Repr, Inhabited

/-- The symbol is the given mark. -/
def Symbol.isMark (c : Char) : Symbol → Bool
  | mark d => d == c
  | value _ => false

/-- The items between square brackets: values with commas between them. -/
def listItems? : List Symbol → Option (List Value)
  | [] => some []
  | [.value v] => some [v]
  | .value v :: .mark ',' :: x :: xs => (listItems? (x :: xs)).map (v :: ·)
  | _ => none

/-- The entries between curly brackets: names and values, with commas between the entries. -/
def objectEntries? : List Symbol → Option (List (String × Value))
  | [] => some []
  | [.value (.text k), .mark ':', .value v] => some [(k, v)]
  | .value (.text k) :: .mark ':' :: .value v :: .mark ',' :: x :: xs =>
    (objectEntries? (x :: xs)).map ((k, v) :: ·)
  | _ => none

/-- Puts together what stands on the stack above an opening bracket. -/
def reduce (opening : Char) (make : List Symbol → Option Value) (stack : List Symbol) :
    Option (List Symbol) :=
  match stack.dropWhile (!·.isMark opening) with
  | [] => none
  | _ :: below =>
    (make (stack.takeWhile (!·.isMark opening)).reverse).map fun v => .value v :: below

/-- The stack behind a mark. -/
def shift (c : Char) (stack : List Symbol) : Option (List Symbol) :=
  if c = ']' then reduce '[' (fun xs => (listItems? xs).map .list) stack
  else if c = '}' then reduce '{' (fun xs => (objectEntries? xs).map .object) stack
  else some (.mark c :: stack)

/-! ## Characters -/

/-- A character that only separates. -/
def isSpace (c : Char) : Bool := [' ', '\t', '\n', '\r'].contains c

/-- A character that is a symbol of its own. -/
def isMarkChar (c : Char) : Bool := ['[', ']', '{', '}', ',', ':'].contains c

/-- A character behind which a word is over. -/
def endsWord (c : Char) : Bool := isSpace c || isMarkChar c || c == '"'

/-- What a reader is in the middle of. -/
inductive Mode
  | between
  /-- A word, in reverse. -/
  | word (cs : List Char)
  /-- A text, by its code units in reverse. -/
  | text (us : List Nat)
  /-- A text, behind a backslash. -/
  | escape (us : List Nat)
  /-- A text, in a code unit given by its digits, with a number of them still to come. -/
  | digits (us : List Nat) (n : Nat) (left : Nat)
  deriving Repr, Inhabited

/-- Where reading stands. -/
structure State where
  stack : List Symbol := []
  mode : Mode := .between
  deriving Repr, Inhabited

namespace State

/-- Begins something with a character. -/
def begin (stack : List Symbol) (c : Char) : Option State :=
  if isSpace c then some ⟨stack, .between⟩
  else if isMarkChar c then (shift c stack).map fun stack => ⟨stack, .between⟩
  else if c = '"' then some ⟨stack, .text []⟩
  else some ⟨stack, .word [c]⟩

/-- The stack where a word, if there is one, is over.  A text has to be closed. -/
def settle (s : State) : Option (List Symbol) :=
  match s.mode with
  | .between => some s.stack
  | .word cs => (word? cs.reverse).map (.value · :: s.stack)
  | _ => none

/-- Reads a character of a text.  Controls have to be written as escapes. -/
def stepText (stack : List Symbol) (us : List Nat) (c : Char) : Option State :=
  if c = '"' then
    (ofUnits? us.reverse).map fun cs => ⟨.value (.text (String.ofList cs)) :: stack, .between⟩
  else if c = '\\' then some ⟨stack, .escape us⟩
  else if c < ' ' then none
  else some ⟨stack, .text ((units c).reverse ++ us)⟩

/-- Reads a character. -/
def step (s : State) (c : Char) : Option State :=
  match s.mode with
  | .text us => stepText s.stack us c
  | .escape us =>
    if c = 'u' then some ⟨s.stack, .digits us 0 4⟩
    else (shortEscape? c).map fun u => ⟨s.stack, .text (u :: us)⟩
  | .digits us n left =>
    (hexValue? c).map fun d =>
      if left = 1 then ⟨s.stack, .text ((n * 16 + d) :: us)⟩
      else ⟨s.stack, .digits us (n * 16 + d) (left - 1)⟩
  | .word cs =>
    if endsWord c then s.settle.bind (begin · c) else some ⟨s.stack, .word (c :: cs)⟩
  | .between => begin s.stack c

section

variable (stack : List Symbol) (us : List Nat) (n left : Nat) (cs : List Char) (c : Char)

theorem step_between : step ⟨stack, .between⟩ c = begin stack c := rfl

theorem step_text : step ⟨stack, .text us⟩ c = stepText stack us c := rfl

theorem step_word : step ⟨stack, .word cs⟩ c =
    if endsWord c then ((word? cs.reverse).map (.value · :: stack)).bind (begin · c)
    else some ⟨stack, .word (c :: cs)⟩ := rfl

theorem step_digits : step ⟨stack, .digits us n left⟩ c =
    (hexValue? c).map fun d =>
      if left = 1 then ⟨stack, .text ((n * 16 + d) :: us)⟩
      else ⟨stack, .digits us (n * 16 + d) (left - 1)⟩ := rfl

end

/-- Reads characters one after the other. -/
def run (s : State) : List Char → Option State
  | [] => some s
  | c :: cs => (s.step c).bind (·.run cs)

theorem run_append (s : State) (xs ys : List Char) :
    s.run (xs ++ ys) = (s.run xs).bind (·.run ys) := by
  induction xs generalizing s with
  | nil => rfl
  | cons x xs ih =>
    rw [List.cons_append, run, run]
    cases s.step x with
    | none => rfl
    | some t => exact ih t

theorem run_cons {s t : State} {c : Char} {cs : List Char} (h : s.step c = some t) :
    s.run (c :: cs) = t.run cs := by
  rw [run, h, Option.bind_some]

/-- The value that has been read, if it is all there is. -/
def value? (s : State) : Option Value :=
  match s.settle with
  | some [.value v] => some v
  | _ => none

end State

/-- The value of a text. -/
def read (s : String) : Option Value := (State.run {} s.toList).bind State.value?

end AnnotationOrder.Report.Json
