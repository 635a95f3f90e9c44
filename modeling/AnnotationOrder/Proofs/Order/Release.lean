/-
  What removing free positions comes to.

  The least position that waits for no other is removed as long as there is one.
  What is removed is released; what is left is stuck: each stuck position waits for
  another one.

  * `Settles r remaining released stuck`: what a run of the removal guarantees, with
    `Settles.stop` and `Settles.take` for its two cases;
  * `Settles.mem_stuck_iff`: the stuck positions are the tangled ones;
  * `Settles.isLeastOrder`: the released ones stand in the least order that respects
    the relation.
-/
import Mathlib.Data.Set.Finite.Basic
import AnnotationOrder.Proofs.Order.Precedence

namespace AnnotationOrder.Order

open Rule Relation

variable {r : Nat → Nat → Prop} {remaining released stuck l : List Nat}

/-! ## Orders that respect a relation -/

/-- No position stands in front of one that has to come before it. -/
def Respects (r : Nat → Nat → Prop) (l : List Nat) : Prop := l.Pairwise fun i j => ¬ r j i

/-- A list of the positions with a property, in the lexicographically least order that respects a
    relation. -/
structure IsLeastOrder (r : Nat → Nat → Prop) (p : Nat → Prop) (l : List Nat) : Prop where
  nodup : l.Nodup
  mem_iff : ∀ i, i ∈ l ↔ p i
  respects : Respects r l
  least : ∀ l' : List Nat, l'.Nodup → (∀ i, i ∈ l' ↔ p i) → Respects r l' →
    l' = l ∨ List.Lex (· < ·) l l'

theorem Respects.idxOf_lt (hl : Respects r l) (hirr : ∀ i, ¬ r i i) {i j : Nat} (hi : i ∈ l)
    (hj : j ∈ l) (h : r i j) : l.idxOf i < l.idxOf j := by
  have hi' := List.idxOf_lt_length_of_mem hi
  have hj' := List.idxOf_lt_length_of_mem hj
  rcases Nat.lt_trichotomy (l.idxOf i) (l.idxOf j) with hlt | heq | hgt
  · exact hlt
  · obtain rfl := (List.idxOf_inj hi).1 heq
    exact absurd h (hirr i)
  · have := List.pairwise_iff_getElem.1 hl _ _ hj' hi' hgt
    simp only [List.getElem_idxOf] at this
    exact absurd h this

/-- Nothing is tangled in a list that respects the relation and lacks no predecessor. -/
theorem Respects.not_tangled (hl : Respects r l) (hirr : ∀ i, ¬ r i i)
    (hclosed : ∀ i j, r i j → j ∈ l → i ∈ l) {i : Nat} (hi : i ∈ l) : ¬ Tangled r i := by
  rintro ⟨c, hcc, hci⟩
  have hback : ∀ {a b}, ReflTransGen r a b → b ∈ l → a ∈ l := by
    intro a b hab hb
    induction hab using ReflTransGen.head_induction_on with
    | refl => exact hb
    | head h _ ih => exact hclosed _ _ h ih
  have hup : ∀ {a b}, TransGen r a b → b ∈ l → l.idxOf a < l.idxOf b := by
    intro a b hab hb
    induction hab with
    | single h => exact hl.idxOf_lt hirr (hclosed _ _ h hb) hb h
    | tail _ h ih =>
      have hm := hclosed _ _ h hb
      exact (ih hm).trans (hl.idxOf_lt hirr hm hb h)
  exact Nat.lt_irrefl _ (hup hcc (hback hci hi))

/-- Where every position waits for another one, every position is tangled. -/
theorem tangled_of_waiting (hw : ∀ j ∈ l, ∃ i ∈ l, r i j) {j : Nat} (hj : j ∈ l) : Tangled r j := by
  by_contra hnot
  -- among the positions that are not tangled there would be a first one
  let S := {j : Nat // j ∈ l ∧ ¬ Tangled r j}
  let before : S → S → Prop := fun a b => TransGen r a.1 b.1
  have : Finite S := Set.Finite.subset (List.finite_toSet l) fun _ h => h.1
  have : IsTrans S before := ⟨fun _ _ _ hab hbc => hab.trans hbc⟩
  have : Std.Irrefl before := ⟨fun a ha => a.2.2 (.of_cycle ha)⟩
  have hwf : WellFounded before := Finite.wellFounded_of_trans_of_irrefl before
  have hnone : ∀ _ : S, False := by
    intro a
    induction a using hwf.induction with
    | _ a ih =>
      obtain ⟨i, hi, hia⟩ := hw a.1 a.2.1
      exact ih ⟨i, hi, fun ht => a.2.2 (ht.step hia)⟩ (.single hia)
  exact hnone ⟨j, hj, hnot⟩

/-! ## Removing free positions -/

/-- What the removal of free positions guarantees of the positions it removes, in the order of their
    removal, and of those that are left. -/
structure Settles (r : Nat → Nat → Prop) (remaining released stuck : List Nat) : Prop where
  perm : (released ++ stuck).Perm remaining
  sublist : stuck.Sublist remaining
  waits : ∀ j ∈ stuck, ∃ i ∈ stuck, r i j
  respects : Respects r released
  clear : ∀ i ∈ stuck, ∀ j ∈ released, ¬ r i j
  least : ∀ l : List Nat, l.Perm released → Respects r l →
    l = released ∨ List.Lex (· < ·) released l

namespace Settles

/-- The removal stops where every position waits for another one. -/
theorem stop (h : ∀ j ∈ remaining, ∃ i ∈ remaining, r i j) : Settles r remaining [] remaining where
  perm := .refl _
  sublist := .refl _
  waits := h
  respects := .nil
  clear _ _ _ hj := absurd hj List.not_mem_nil
  least _ hl _ := Or.inl hl.eq_nil

/-- A position that waits for none and is the least such one is removed first. -/
theorem take {i : Nat} (hirr : ∀ i, ¬ r i i) (hi : i ∈ remaining) (hfree : ∀ a ∈ remaining, ¬ r a i)
    (hleast : ∀ j ∈ remaining, (∀ a ∈ remaining, ¬ r a j) → i ≤ j)
    (h : Settles r (remaining.erase i) released stuck) :
    Settles r remaining (i :: released) stuck := by
  have hperm : (i :: released ++ stuck).Perm remaining :=
    (h.perm.cons i).trans (List.perm_cons_erase hi).symm
  have hsub : ∀ j ∈ i :: released ++ stuck, j ∈ remaining := fun j hj => hperm.mem_iff.1 hj
  refine ⟨hperm, h.sublist.trans List.erase_sublist, h.waits, ?_, ?_, ?_⟩
  · refine List.pairwise_cons.2 ⟨fun j hj => hfree j (hsub j ?_), h.respects⟩
    simp [hj]
  · intro a ha j hj
    rcases List.mem_cons.1 hj with rfl | hj
    · exact hfree a (h.sublist.trans List.erase_sublist |>.subset ha)
    · exact h.clear a ha j hj
  · intro l hl hr
    cases l with
    | nil => exact absurd hl.symm.eq_nil (List.cons_ne_nil _ _)
    | cons k l =>
      obtain ⟨hk, hr'⟩ := List.pairwise_cons.1 hr
      by_cases hki : k = i
      · subst hki
        rcases h.least l hl.cons_inv hr' with rfl | hlt
        · exact Or.inl rfl
        · exact Or.inr (.cons hlt)
      · -- the first position of another order is free as well, so it is not the least
        have hkm : k ∈ i :: released := hl.mem_iff.1 List.mem_cons_self
        have hkr : k ∈ released := (List.mem_cons.1 hkm).resolve_left hki
        have hkf : ∀ a ∈ remaining, ¬ r a k := by
          intro a ha
          rcases List.mem_append.1 (hperm.mem_iff.2 ha) with ha | ha
          · rcases List.mem_cons.1 (hl.mem_iff.2 ha) with rfl | ha
            · exact hirr a
            · exact hk a ha
          · exact h.clear a ha k hkr
        have hik : i ≤ k := hleast k (hsub k (List.mem_append_left _ hkm)) hkf
        exact Or.inr (.rel (by omega))

/-- The stuck positions are the tangled ones, if no predecessor is missing. -/
theorem mem_stuck_iff (h : Settles r remaining released stuck) (hirr : ∀ i, ¬ r i i)
    (hclosed : ∀ i j, r i j → i ∈ remaining) {i : Nat} :
    i ∈ stuck ↔ i ∈ remaining ∧ Tangled r i := by
  constructor
  · intro hi
    exact ⟨h.sublist.subset hi, tangled_of_waiting h.waits hi⟩
  · rintro ⟨hi, ht⟩
    rcases List.mem_append.1 (h.perm.mem_iff.2 hi) with hi | hi
    · refine absurd ht (h.respects.not_tangled hirr (fun a b hab hb => ?_) hi)
      rcases List.mem_append.1 (h.perm.mem_iff.2 (hclosed a b hab)) with ha | ha
      · exact ha
      · exact absurd hab (h.clear a ha b hb)
    · exact hi

theorem mem_released_iff (h : Settles r remaining released stuck) (hirr : ∀ i, ¬ r i i)
    (hclosed : ∀ i j, r i j → i ∈ remaining) (hnd : remaining.Nodup) {i : Nat} :
    i ∈ released ↔ i ∈ remaining ∧ ¬ Tangled r i := by
  have hdisj := (List.nodup_append.1 (h.perm.nodup_iff.2 hnd)).2.2
  constructor
  · intro hi
    have hm := h.perm.mem_iff.1 (List.mem_append_left stuck hi)
    refine ⟨hm, fun ht => ?_⟩
    exact hdisj i hi i ((h.mem_stuck_iff hirr hclosed).2 ⟨hm, ht⟩) rfl
  · rintro ⟨hi, hn⟩
    rcases List.mem_append.1 (h.perm.mem_iff.2 hi) with hi | hi
    · exact hi
    · exact absurd ((h.mem_stuck_iff hirr hclosed).1 hi).2 hn

/-- The released positions stand in the least order that respects the relation. -/
theorem isLeastOrder (h : Settles r remaining released stuck) (hirr : ∀ i, ¬ r i i)
    (hclosed : ∀ i j, r i j → i ∈ remaining) (hnd : remaining.Nodup) :
    IsLeastOrder r (fun i => i ∈ remaining ∧ ¬ Tangled r i) released := by
  have hmem := fun i => h.mem_released_iff hirr hclosed hnd (i := i)
  have hnd' := (List.nodup_append.1 (h.perm.nodup_iff.2 hnd)).1
  refine ⟨hnd', hmem, h.respects, fun l hl hlm hr => h.least l ?_ hr⟩
  exact (List.perm_ext_iff_of_nodup hl hnd').2 fun i => (hlm i).trans (hmem i).symm

end Settles

end AnnotationOrder.Order
