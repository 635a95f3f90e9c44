/-
  Ordering constraints and the table that holds them.

  A constraint says that a name accepted by its first matcher goes before a name
  accepted by its second.  A table is a list of constraints, the earlier ones
  taking precedence: `Table.between a b` is the answer of the first constraint
  that speaks about the two names in either orientation.

  * `Constraint.governs`: what one constraint says about two names;
  * `Table.between_eq_findSome`: the table's answer is that of its first
    constraint that gives one, and two equal names are never constrained;
  * `Table.between_override`: constraints put in front are asked first.
-/
import AnnotationOrder.Rule.Matcher

namespace AnnotationOrder.Rule

/-- Whatever `first` accepts goes before whatever `second` accepts. -/
structure Constraint where
  name : String
  description : String := ""
  first : Matcher
  second : Matcher
  deriving DecidableEq, Repr, Inhabited

/-- The required relative order of two names, and the constraint that requires it. -/
structure Ordered where
  first : String
  second : String
  constraint : Constraint
  deriving DecidableEq, Repr

/-- What a constraint requires of two names.  Where it accepts them in both orientations the
    order in which they are given decides. -/
def Constraint.governs (c : Constraint) (a b : String) : Option Ordered :=
  if c.first.accepts a && c.second.accepts b then some ⟨a, b, c⟩
  else if c.first.accepts b && c.second.accepts a then some ⟨b, a, c⟩
  else none

/-- Constraints in order of precedence. -/
structure Table where
  constraints : List Constraint := []
  deriving DecidableEq, Repr, Inhabited

namespace Table

/-- The first answer that a list of constraints gives about two names. -/
def lookup (a b : String) : List Constraint → Option Ordered
  | [] => none
  | c :: cs => (c.governs a b).or (lookup a b cs)

/-- The required order of two names: none when they are equal, else that of the first constraint
    that governs them. -/
def between (t : Table) (a b : String) : Option Ordered :=
  if a = b then none else lookup a b t.constraints

/-- The table with constraints put in front of its own. -/
def override (t : Table) (cs : List Constraint) : Table := ⟨cs ++ t.constraints⟩

/-- The number of constraints. -/
def size (t : Table) : Nat := t.constraints.length

theorem lookup_eq_findSome (a b : String) (cs : List Constraint) :
    lookup a b cs = cs.findSome? (·.governs a b) := by
  induction cs with
  | nil => rfl
  | cons c cs ih => cases h : c.governs a b <;> simp [lookup, List.findSome?, h, ih]

theorem lookup_append (a b : String) (cs ds : List Constraint) :
    lookup a b (cs ++ ds) = (lookup a b cs).or (lookup a b ds) := by
  simp [lookup_eq_findSome, List.findSome?_append]

theorem between_self (t : Table) (a : String) : t.between a a = none := by simp [between]

theorem between_eq_findSome {a b : String} (h : a ≠ b) (t : Table) :
    t.between a b = t.constraints.findSome? (·.governs a b) := by
  simp [between, h, lookup_eq_findSome]

/-- Constraints put in front are asked first. -/
theorem between_override (t : Table) (cs : List Constraint) (a b : String) :
    (t.override cs).between a b = (Table.between ⟨cs⟩ a b).or (t.between a b) := by
  by_cases h : a = b
  · simp [between, h]
  · simp [between, override, h, lookup_append]

/-- One line for each constraint: its name and its two matchers. -/
def describe (t : Table) : List String :=
  t.constraints.map fun c => c.name ++ ": " ++ c.first.describe ++ " -> " ++ c.second.describe

end Table

end AnnotationOrder.Rule
