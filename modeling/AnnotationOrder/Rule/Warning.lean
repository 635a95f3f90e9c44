/-
  Warnings about constraints that an earlier constraint makes pointless.

  Only constraints between two exact names are compared: one that asks for the
  same order as an earlier one repeats it, one that asks for the opposite order
  contradicts it.  Patterns are left alone, as their overlap depends on the
  names in use.

  * `Table.warnings`: one warning for each such constraint, in table order;
  * `Warning.message`: its text.
-/
import AnnotationOrder.Rule.Table

namespace AnnotationOrder.Rule

/-- The two names of a constraint between exact names. -/
def Constraint.exactPair (c : Constraint) : Option (String × String) :=
  match c.first.isExact && c.second.isExact, c.first.name, c.second.name with
  | true, some a, some b => some (a, b)
  | _, _, _ => none

/-- How a constraint relates to an earlier one. -/
inductive Warning.Kind
  | repeats
  | contradicts
  deriving DecidableEq, Repr

/-- A constraint that an earlier constraint makes pointless. -/
structure Warning where
  kind : Warning.Kind
  /-- The name of the constraint that is warned about. -/
  rule : String
  /-- The name of the earlier constraint. -/
  earlier : String
  /-- The order that the constraint asks for. -/
  first : String
  second : String
  deriving DecidableEq, Repr

/-- The text of a warning. -/
def Warning.message (w : Warning) : String :=
  let verb := match w.kind with
    | .repeats => "repeats"
    | .contradicts => "contradicts"
  "Rule '" ++ w.rule ++ "' " ++ verb ++ " rule '" ++ w.earlier ++ "' (@" ++ w.first
    ++ " before @" ++ w.second ++ ")"

namespace Table

/-- What is known of the exact pairs seen so far: each pair with the name of the first constraint
    that asked for it. -/
abbrev Seen := List ((String × String) × String)

/-- The warnings of a list of constraints, given the pairs seen before it.  A repetition adds no
    pair, a contradiction does. -/
def warningsFrom : Seen → List Constraint → List Warning
  | _, [] => []
  | seen, c :: cs =>
    match c.exactPair with
    | none => warningsFrom seen cs
    | some (a, b) =>
      match seen.lookup (a, b) with
      | some earlier => ⟨.repeats, c.name, earlier, a, b⟩ :: warningsFrom seen cs
      | none =>
        let rest := warningsFrom (seen ++ [((a, b), c.name)]) cs
        match seen.lookup (b, a) with
        | some earlier => ⟨.contradicts, c.name, earlier, a, b⟩ :: rest
        | none => rest

/-- The warnings about a table, in table order. -/
def warnings (t : Table) : List Warning := warningsFrom [] t.constraints

end Table

end AnnotationOrder.Rule
