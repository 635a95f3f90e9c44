/-
  Words that resemble a word.

  Two words are compared by their blocks: the longest run of characters that both
  have, and then the same to the left and to the right of it.  The more characters
  the blocks cover, the more alike the words are.

  * `matched`: the number of characters that the blocks cover;
  * `closeMatches`: the candidates that resemble a word.
-/
namespace AnnotationOrder.Text

/-- The number of characters that two words share at their start. -/
def sharedStart : List Char → List Char → Nat
  | a :: as, b :: bs => if a = b then sharedStart as bs + 1 else 0
  | _, _ => 0

/-- A run of characters that two words share: where it starts in each, and its length. -/
structure Block where
  left : Nat
  right : Nat
  size : Nat
  deriving DecidableEq, Repr

/-- The block at a pair of positions. -/
def blockAt (a b : List Char) (i j : Nat) : Block := ⟨i, j, sharedStart (a.drop i) (b.drop j)⟩

/-- The longest block; of several the one that starts first in the first word, then in the
    second. -/
def longestBlock (a b : List Char) : Block :=
  ((List.range a.length).flatMap fun i => (List.range b.length).map (blockAt a b i)).foldl
    (fun best x => if best.size < x.size then x else best) ⟨0, 0, 0⟩

/-- The number of characters that the blocks of two words cover.  Every block is shorter than what
    it was found in, so `fuel` characters suffice for a first word of less than `fuel`. -/
def matchedFrom : Nat → List Char → List Char → Nat
  | 0, _, _ => 0
  | fuel + 1, a, b =>
    let x := longestBlock a b
    if x.size = 0 then 0
    else matchedFrom fuel (a.take x.left) (b.take x.right) + x.size
      + matchedFrom fuel (a.drop (x.left + x.size)) (b.drop (x.right + x.size))

/-- The number of characters that the blocks of two words cover. -/
def matched (a b : String) : Nat := matchedFrom (a.length + 1) a.toList b.toList

/-- A candidate with the characters it shares with a word and those that both have. -/
structure Resemblance where
  candidate : String
  shared : Nat
  total : Nat

/-- How a candidate resembles a word. -/
def resemblance (word candidate : String) : Resemblance :=
  ⟨candidate, matched candidate word, candidate.length + word.length⟩

/-- Whether the shared characters are at least six in ten, counted in both words. -/
def Resemblance.isClose (r : Resemblance) : Bool := 3 * r.total ≤ 10 * r.shared

/-- The order of resemblances: closer ones first, and later names first among equals. -/
def Resemblance.le (r s : Resemblance) : Bool :=
  let left := r.shared * s.total
  let right := s.shared * r.total
  right < left || (left == right && decide (¬ r.candidate < s.candidate))

/-- The most that are suggested. -/
def suggestionLimit : Nat := 3

/-- The candidates closest to a word, in the order of their names. -/
def closeMatches (candidates : List String) (word : String) : List String :=
  let close := ((candidates.map (resemblance word)).filter (·.isClose)).mergeSort Resemblance.le
  ((close.take suggestionLimit).map (·.candidate)).mergeSort fun a b => decide (¬ b < a)

end AnnotationOrder.Text
