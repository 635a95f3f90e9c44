/-
  Wildcard patterns for paths.

  `*` stands for any characters, `?` for any one, and brackets for one out of a
  set; the path separator and line ends are characters like any other.  A `[`
  without its `]` stands for itself.  Inside brackets a leading `!` takes the
  complement, a `-` between two characters makes a range, and a range that runs
  backwards is taken out together with its ends.

  * `Pattern.parse`: the parts of a pattern;
  * `Pattern.matches`: a text matches when the parts cover it;
  * `Matches`: the same said as a relation.
-/
namespace AnnotationOrder.Text.Wildcard

/-- A part of a pattern. -/
inductive Part
  /-- Any characters, none included. -/
  | anyRun
  /-- Any one character. -/
  | anyOne
  | char (c : Char)
  /-- One character inside the ranges, or outside them. -/
  | oneOf (negated : Bool) (ranges : List (Char × Char))
  deriving DecidableEq, Repr

/-- A part that stands for one character accepts it. -/
def Part.accepts : Part → Char → Bool
  | anyRun, _ => false
  | anyOne, _ => true
  | char c, x => c == x
  | oneOf negated ranges, x => ranges.any (fun r => r.1 ≤ x && x ≤ r.2) != negated

/-! ## Brackets -/

/-- Splits the inside of brackets at the hyphens that make ranges.  A hyphen makes one when at least
    `skip` characters stand between it and the one before. -/
def splitRanges (current : List Char) : Nat → List Char → List (List Char)
  | _, [] => [current.reverse]
  | 0, c :: cs =>
    if c = '-' then current.reverse :: splitRanges [] 2 cs else splitRanges (c :: current) 0 cs
  | skip + 1, c :: cs => splitRanges (c :: current) skip cs

/-- A hyphen at the end stands for itself. -/
def keepLastHyphen : List (List Char) → List (List Char)
  | [a, []] => [a ++ ['-']]
  | a :: rest => a :: keepLastHyphen rest
  | [] => []

/-- Takes out the ranges that run backwards, the last one first. -/
def dropBackward : List (List Char) → List (List Char)
  | [] => []
  | a :: rest =>
    match dropBackward rest with
    | [] => [a]
    | b :: bs =>
      match a.getLast?, b.head? with
      | some x, some y => if y < x then (a.dropLast ++ b.drop 1) :: bs else a :: b :: bs
      | _, _ => a :: b :: bs

/-- The ranges of the pieces between hyphens: each character, and a range across each hyphen. -/
def rangesOf : List (List Char) → List (Char × Char)
  | [] => []
  | [a] => a.map fun c => (c, c)
  | a :: b :: rest =>
    let across := match a.getLast?, b.head? with
      | some x, some y => [(x, y)]
      | _, _ => [('-', '-')]
    a.map (fun c => (c, c)) ++ across ++ rangesOf (b :: rest)

/-- The part that brackets stand for, given what is inside them. -/
def bracketPart (inside : List Char) : Part :=
  let pieces :=
    if inside.contains '-' then
      let skip := if inside.head? = some '!' then 2 else 1
      dropBackward (keepLastHyphen (splitRanges [] skip inside))
    else [inside]
  match pieces with
  | [['!']] => .anyOne
  | ('!' :: first) :: rest => .oneOf true (rangesOf (first :: rest))
  | pieces => .oneOf false (rangesOf pieces)

/-- What is inside brackets and what follows them, if they are closed.  A `]` right at the start,
    or right after a `!` there, does not close them. -/
def bracket? (cs : List Char) : Option (List Char × List Char) :=
  let (lead, rest) := match cs with
    | '!' :: ']' :: r => (['!', ']'], r)
    | '!' :: r => (['!'], r)
    | ']' :: r => ([']'], r)
    | r => ([], r)
  match rest.dropWhile (· != ']') with
  | [] => none
  | _ :: after => some (lead ++ rest.takeWhile (· != ']'), after)

theorem bracket?_length {cs inside after : List Char} (h : bracket? cs = some (inside, after)) :
    after.length < cs.length := by
  have closed {r rest : List Char} {c : Char} (h : r.dropWhile (· != ']') = c :: rest) :
      rest.length < r.length := by
    have := (List.dropWhile_suffix (fun c => c != ']') (l := r)).length_le
    rw [h] at this
    exact this
  unfold bracket? at h
  split at h
  all_goals
    split at h
    · simp at h
    · rename_i heq
      simp only [Option.some.injEq, Prod.mk.injEq] at h
      obtain ⟨-, rfl⟩ := h
      have := closed heq
      grind

/-! ## Patterns -/

/-- The parts of a pattern. -/
def parse : List Char → List Part
  | [] => []
  | '*' :: cs => .anyRun :: parse cs
  | '?' :: cs => .anyOne :: parse cs
  | '[' :: cs =>
    match _h : bracket? cs with
    | some (inside, after) => bracketPart inside :: parse after
    | none => .char '[' :: parse cs
  | c :: cs => .char c :: parse cs
termination_by cs => cs.length
decreasing_by
  all_goals simp_wf
  have := bracket?_length ‹_›
  omega

/-- For each suffix of a list of truth values, whether one of them holds. -/
def anySuffix : List Bool → List Bool
  | [] => []
  | b :: bs =>
    let rest := anySuffix bs
    (b || rest.head?.getD false) :: rest

/-- For each suffix of the text, from the whole text to the empty one, whether the parts cover
    it. -/
def covers (text : List Char) : List Part → List Bool
  | [] => text.map (fun _ => false) ++ [true]
  | .anyRun :: ps => anySuffix (covers text ps)
  | p :: ps => List.zipWith (fun c b => p.accepts c && b) text ((covers text ps).drop 1) ++ [false]

/-- The text matches the pattern. -/
def «matches» (pattern text : String) : Bool :=
  (covers text.toList (parse pattern.toList)).head?.getD false

/-- Parts cover a text. -/
inductive Matches : List Part → List Char → Prop
  | nil : Matches [] []
  | anyRun {ps : List Part} (skipped rest : List Char) : Matches ps rest →
    Matches (.anyRun :: ps) (skipped ++ rest)
  | one {p : Part} {ps : List Part} {c : Char} {rest : List Char} : p.accepts c = true →
    Matches ps rest → Matches (p :: ps) (c :: rest)

end AnnotationOrder.Text.Wildcard
