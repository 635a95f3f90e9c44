/-
  Pairs of annotations on one declaration that break the table.

  The pairs of positions are read row by row; a pair breaks the table when the
  later annotation is required to come first.  Each violation carries the order
  proposed for the whole declaration.

  * `check`: the violations in the order of the pairs, all of them or the first, with
    `check_eq`: a scan that ends early, or keeps the order it has worked out, finds what
    `checkAll` says;
  * `mem_checkAll`: a violation is a pair whose required order is inverted;
  * `checkAll_eq_nil_of_length_lt`: one annotation alone is always in order.
-/
import AnnotationOrder.Order.Queue

namespace AnnotationOrder.Order

open Rule

variable {L : Type}

/-- An annotation on a declaration, with the place where it stands. -/
structure Annot (L : Type) where
  name : String
  location : L
  deriving DecidableEq, Repr

/-- The same annotation with another kind of place. -/
def Annot.map {M : Type} (f : L → M) (a : Annot L) : Annot M := ⟨a.name, f a.location⟩

/-- An annotation found after one that it is required to precede. -/
structure Violation (L : Type) where
  /-- The annotation that should have come first. -/
  misplaced : Annot L
  index : Nat
  /-- The annotation found before it. -/
  conflictsWith : Annot L
  conflictsWithIndex : Nat
  /-- The constraint that is broken. -/
  constraint : Constraint
  /-- The order proposed for the declaration. -/
  expectedOrder : List String
  deriving Repr

/-- The text that proposes an order. -/
def orderMessage (names : List String) : String :=
  "Annotations are in wrong order. Should be " ++ " ".intercalate (names.map ("@" ++ ·))

/-- The text of a violation. -/
def Violation.message (v : Violation L) : String := orderMessage v.expectedOrder

/-- What is wrong at a pair of positions: the annotations there, and the constraint that asks for the
    later one first. -/
def inversionAt (t : Table) (as : List (Annot L)) (i j : Nat) :
    Option (Annot L × Annot L × Constraint) := do
  let earlier ← as[i]?
  let later ← as[j]?
  let o ← t.between earlier.name later.name
  if o.first = later.name then some (earlier, later, o.constraint) else none

/-- The violations at pairs of positions.  The order proposed is worked out for the first of them and
    kept for the others; unless all are asked for, the scan ends with the first one. -/
def scanPairs (t : Table) (reportAll : Bool) (as : List (Annot L)) :
    Option (List String) → List (Nat × Nat) → List (Violation L)
  | _, [] => []
  | proposed, (i, j) :: ps =>
    match inversionAt t as i j with
    | none => scanPairs t reportAll as proposed ps
    | some (earlier, later, c) =>
      let expected := proposed.getD (expectedOrder t (as.map (·.name)))
      ⟨later, j, earlier, i, c, expected⟩ ::
        if reportAll then scanPairs t reportAll as (some expected) ps else []

/-- The violations of a declaration, row by row: all of them, or only the first. -/
def check (t : Table) (reportAll : Bool) (as : List (Annot L)) : List (Violation L) :=
  scanPairs t reportAll as none (pairs as.length)

/-- Names without places, each located at its position. -/
def atPositions (names : List String) : List (Annot Nat) :=
  names.zipIdx.map fun p => ⟨p.1, p.2⟩

/-! ## All violations -/

/-- The violation at a pair of positions, if the later annotation must come first. -/
def violationAt (t : Table) (as : List (Annot L)) (expected : List String) (i j : Nat) :
    Option (Violation L) :=
  (inversionAt t as i j).map fun (earlier, later, c) => ⟨later, j, earlier, i, c, expected⟩

/-- All violations, row by row. -/
def checkAll (t : Table) (as : List (Annot L)) : List (Violation L) :=
  let expected := expectedOrder t (as.map (·.name))
  (pairs as.length).filterMap fun p => violationAt t as expected p.1 p.2

/-- A scan that has no order yet, or the right one, finds the violation at each pair, up to where it
    ends. -/
theorem scanPairs_eq (t : Table) (reportAll : Bool) (as : List (Annot L))
    {proposed : Option (List String)} (ps : List (Nat × Nat))
    (h : proposed.getD (expectedOrder t (as.map (·.name))) = expectedOrder t (as.map (·.name))) :
    scanPairs t reportAll as proposed ps =
      let vs := ps.filterMap fun p => violationAt t as (expectedOrder t (as.map (·.name))) p.1 p.2
      if reportAll then vs else vs.take 1 := by
  induction ps generalizing proposed with
  | nil => cases reportAll <;> rfl
  | cons p ps ih =>
    obtain ⟨i, j⟩ := p
    simp only [scanPairs, violationAt, List.filterMap_cons]
    cases inversionAt t as i j with
    | none => exact ih h
    | some x =>
      obtain ⟨earlier, later, c⟩ := x
      cases reportAll with
      | false => simp [h]
      | true =>
        have hrest := @ih (some (expectedOrder t (as.map (·.name)))) rfl
        simp only [if_true] at hrest ⊢
        rw [h, hrest]
        rfl

/-- A check finds all violations, or the first of them. -/
theorem check_eq (t : Table) (reportAll : Bool) (as : List (Annot L)) :
    check t reportAll as = if reportAll then checkAll t as else (checkAll t as).take 1 :=
  scanPairs_eq t reportAll as (pairs as.length) rfl

@[simp] theorem check_true (t : Table) (as : List (Annot L)) : check t true as = checkAll t as :=
  check_eq t true as

theorem mem_checkAll {t : Table} {as : List (Annot L)} {v : Violation L} :
    v ∈ checkAll t as ↔
      ∃ i j, i < j ∧ j < as.length ∧
        violationAt t as (expectedOrder t (as.map (·.name))) i j = some v := by
  simp only [checkAll, List.mem_filterMap, Prod.exists, mem_pairs]
  exact ⟨fun ⟨i, j, ⟨h₁, h₂⟩, h⟩ => ⟨i, j, h₁, h₂, h⟩, fun ⟨i, j, h₁, h₂, h⟩ => ⟨i, j, ⟨h₁, h₂⟩, h⟩⟩

theorem checkAll_eq_nil_of_length_lt {t : Table} {as : List (Annot L)} (h : as.length < 2) :
    checkAll t as = [] := by
  apply List.eq_nil_iff_forall_not_mem.2
  intro v hv
  obtain ⟨i, j, h₁, h₂, -⟩ := mem_checkAll.1 hv
  omega

end AnnotationOrder.Order
