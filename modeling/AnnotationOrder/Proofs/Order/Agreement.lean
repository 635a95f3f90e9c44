/-
  Tables that agree about the names of a declaration.

  All that is said about a declaration comes from asking the table about the pairs of
  its names, each pair in the order in which it stands.

  * `AgreeOn`: two tables give the same answers to these questions;
  * `AgreeOn.expectedOrder_eq`, `AgreeOn.check_eq`: then they come to the same results;
  * `between_foldl_override`: constraints put in front in several steps are asked last step
    first;
  * `AgreeOn.of_untouched`: steps that say nothing about the names of a declaration change
    nothing about it.
-/
import Mathlib.Data.List.Basic
import AnnotationOrder.Order.Violation

namespace AnnotationOrder.Order

open Rule

variable {L : Type} {t u : Table} {names : List String}

/-! ## Agreement -/

/-- Two tables give the same answer about each pair of names, asked as the names stand. -/
def AgreeOn (t u : Table) (names : List String) : Prop :=
  names.Pairwise fun a b => t.between a b = u.between a b

namespace AgreeOn

theorem edge_eq (h : AgreeOn t u names) {i j : Nat} (hij : i < j) :
    edge t names i j = edge u names i j := by
  unfold edge
  cases hi : names[i]? with
  | none => rfl
  | some a =>
    cases hj : names[j]? with
    | none => rfl
    | some b =>
      obtain ⟨_, rfl⟩ := List.getElem?_eq_some_iff.1 hi
      obtain ⟨_, rfl⟩ := List.getElem?_eq_some_iff.1 hj
      have hab := List.pairwise_iff_getElem.1 h i j ‹_› ‹_› hij
      simp only [bind, Option.bind, hab]

theorem precedences_eq (h : AgreeOn t u names) : precedences t names = precedences u names := by
  refine List.filterMap_congr fun p hp => ?_
  obtain ⟨i, j⟩ := p
  exact h.edge_eq (mem_pairs.1 hp).1

theorem expectedOrder_eq (h : AgreeOn t u names) : expectedOrder t names = expectedOrder u names := by
  rw [expectedOrder, expectedOrder, settledPositions, settledPositions, h.precedences_eq]

variable {as : List (Annot L)}

theorem inversionAt_eq (h : AgreeOn t u (as.map (·.name))) {i j : Nat} (hij : i < j) :
    inversionAt t as i j = inversionAt u as i j := by
  unfold inversionAt
  cases hi : as[i]? with
  | none => rfl
  | some x =>
    cases hj : as[j]? with
    | none => rfl
    | some y =>
      obtain ⟨_, rfl⟩ := List.getElem?_eq_some_iff.1 hi
      obtain ⟨_, rfl⟩ := List.getElem?_eq_some_iff.1 hj
      rw [AgreeOn, List.pairwise_map] at h
      have hxy := List.pairwise_iff_getElem.1 h i j ‹_› ‹_› hij
      simp only [bind, Option.bind, hxy]

theorem checkAll_eq (h : AgreeOn t u (as.map (·.name))) : checkAll t as = checkAll u as := by
  rw [checkAll, checkAll, h.expectedOrder_eq]
  refine List.filterMap_congr fun p hp => ?_
  obtain ⟨i, j⟩ := p
  rw [violationAt, violationAt, h.inversionAt_eq (mem_pairs.1 hp).1]

theorem check_eq (h : AgreeOn t u (as.map (·.name))) (reportAll : Bool) :
    check t reportAll as = check u reportAll as := by
  rw [Order.check_eq, Order.check_eq, h.checkAll_eq]

end AgreeOn

/-! ## Overrides -/

/-- **Steps of overriding.**  The last constraints put in front are asked first, and the table that
    was there before is asked last. -/
theorem between_foldl_override (t : Table) (css : List (List Constraint)) (a b : String) :
    (css.foldl Table.override t).between a b =
      (css.reverse.map Table.mk ++ [t]).findSome? (·.between a b) := by
  induction css generalizing t with
  | nil => simp
  | cons cs css ih =>
    rw [List.foldl_cons, ih, List.reverse_cons, List.map_append, List.append_assoc,
      List.findSome?_append, List.findSome?_append]
    -- the step that comes first is asked right in front of the table it started from
    have hfirst : ([Table.mk cs] ++ [t]).findSome? (·.between a b) = (t.override cs).between a b := by
      rw [Table.between_override]
      cases h : Table.between ⟨cs⟩ a b <;> simp [h]
    rw [List.map_singleton, hfirst]
    simp

/-- Lists of constraints that say nothing about the names of a declaration. -/
def Untouched (css : List (List Constraint)) (names : List String) : Prop :=
  names.Pairwise fun a b => ∀ cs ∈ css, Table.between ⟨cs⟩ a b = none

theorem AgreeOn.of_untouched {css : List (List Constraint)} (h : Untouched css names) (t : Table) :
    AgreeOn (css.foldl Table.override t) t names := by
  refine h.imp fun {a b} hab => ?_
  have hnone : (css.reverse.map Table.mk).findSome? (·.between a b) = none := by
    rw [List.findSome?_eq_none_iff]
    intro u hu
    obtain ⟨cs, hcs, rfl⟩ := List.mem_map.1 hu
    exact hab cs (List.mem_reverse.1 hcs)
  rw [between_foldl_override, List.findSome?_append, hnone, Option.none_or]
  simp

end AnnotationOrder.Order
