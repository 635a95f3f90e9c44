/-
  The precedences among the names of one declaration.

  Names may repeat, so the graph is on positions: `precedences t names` has the
  edge `(i, j)` when the table requires the name at `i` before the name at `j`.

  * `mem_precedences`: the edges are the table's answers on pairs of positions;
  * `participants`: the positions that have an edge;
  * `successors`, `inDegree`: the edges from a position and those to it.
-/
import AnnotationOrder.Rule.Table

namespace AnnotationOrder.Order

open Rule

/-! ## Pairs of positions -/

/-- The pairs `(i, j)` of positions below `n` with `i < j`, row by row. -/
def pairs (n : Nat) : List (Nat × Nat) :=
  (List.range n).flatMap fun i => ((List.range n).filter (i < ·)).map (i, ·)

theorem mem_pairs {n i j : Nat} : (i, j) ∈ pairs n ↔ i < j ∧ j < n := by
  simp only [pairs, List.mem_flatMap, List.mem_map, List.mem_filter, List.mem_range, Prod.mk.injEq,
    decide_eq_true_eq]
  constructor
  · rintro ⟨a, -, b, ⟨hb, hab⟩, rfl, rfl⟩
    exact ⟨hab, hb⟩
  · intro ⟨h₁, h₂⟩
    exact ⟨i, by omega, j, ⟨h₂, h₁⟩, rfl, rfl⟩

/-! ## The graph -/

/-- The edge that the table puts between two positions: from the one that must come first. -/
def edge (t : Table) (names : List String) (i j : Nat) : Option (Nat × Nat) := do
  let a ← names[i]?
  let b ← names[j]?
  let o ← t.between a b
  if o.first = a then some (i, j) else some (j, i)

/-- The position graph: one edge for each pair of positions that the table constrains. -/
def precedences (t : Table) (names : List String) : List (Nat × Nat) :=
  (pairs names.length).filterMap fun p => edge t names p.1 p.2

theorem mem_precedences {t : Table} {names : List String} {e : Nat × Nat} :
    e ∈ precedences t names ↔
      ∃ i j, i < j ∧ j < names.length ∧ edge t names i j = some e := by
  simp only [precedences, List.mem_filterMap, Prod.exists, mem_pairs]
  exact ⟨fun ⟨i, j, ⟨h₁, h₂⟩, h⟩ => ⟨i, j, h₁, h₂, h⟩, fun ⟨i, j, h₁, h₂, h⟩ => ⟨i, j, ⟨h₁, h₂⟩, h⟩⟩

/-- A position takes part when it has an edge. -/
def participates (edges : List (Nat × Nat)) (i : Nat) : Bool :=
  edges.any fun e => e.1 == i || e.2 == i

/-- The positions that take part, in increasing order. -/
def participants (edges : List (Nat × Nat)) (n : Nat) : List Nat :=
  (List.range n).filter (participates edges)

/-- The positions that must come after a position. -/
def successors (edges : List (Nat × Nat)) (i : Nat) : List Nat :=
  (edges.filter (·.1 == i)).map (·.2)

/-- How many edges lead to a position. -/
def inDegree (edges : List (Nat × Nat)) (j : Nat) : Nat := edges.countP (·.2 == j)

end AnnotationOrder.Order
