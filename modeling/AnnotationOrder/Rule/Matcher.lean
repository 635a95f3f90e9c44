/-
  Name matchers: which annotation names a side of a rule speaks about.

  A matcher asks for an exact name, a beginning and an ending, each optional,
  and refuses the names it excludes.  With none of the three set it is a
  wildcard and accepts every name that is not excluded.

  * `Matcher.accepts_iff`: acceptance is the conjunction of the four conditions;
  * `Matcher.describe`: the form in which matchers are shown, such as `@Json*`.
-/
import AnnotationOrder.Text.Affix

namespace AnnotationOrder.Rule

open Text

/-- A description of a set of annotation names. -/
structure Matcher where
  /-- The only name accepted. -/
  name : Option String := none
  /-- What an accepted name begins with. -/
  opening : Option String := none
  /-- What an accepted name ends with. -/
  ending : Option String := none
  /-- Names refused whatever else they satisfy. -/
  excluded : List String := []
  deriving DecidableEq, Repr, Inhabited

namespace Matcher

/-- Every criterion that is set holds of the name, and the name is not excluded. -/
def accepts (m : Matcher) (n : String) : Bool :=
  !m.excluded.contains n
    && m.name.all (· == n)
    && m.opening.all (begins · n)
    && m.ending.all (ends · n)

theorem accepts_iff {m : Matcher} {n : String} :
    m.accepts n = true ↔
      n ∉ m.excluded ∧ (∀ s ∈ m.name, s = n) ∧ (∀ s ∈ m.opening, begins s n = true) ∧
        (∀ s ∈ m.ending, ends s n = true) := by
  simp [accepts, Option.all_eq_true, and_assoc]

/-- A matcher is exact when the name is its only criterion; exclusions do not count. -/
def isExact (m : Matcher) : Bool := m.name.isSome && m.opening.isNone && m.ending.isNone

/-- A matcher without criteria. -/
def isWildcard (m : Matcher) : Bool := m.name.isNone && m.opening.isNone && m.ending.isNone

/-- The form in which a matcher is shown: `@Name` when exact, else the criteria around a `*`,
    followed by the exclusions. -/
def describe (m : Matcher) : String :=
  if m.isExact then "@" ++ m.name.getD ""
  else
    let shape :=
      if m.isWildcard then "@*"
      else "@" ++ m.name.getD "" ++ m.opening.getD "" ++ "*" ++ m.ending.getD ""
    if m.excluded.isEmpty then shape
    else shape ++ " (except " ++ ", ".intercalate (m.excluded.map ("@" ++ ·)) ++ ")"

end Matcher

end AnnotationOrder.Rule
