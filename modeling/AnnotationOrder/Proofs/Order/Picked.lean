/-
  Names picked from a declaration.

  Names at some positions of a declaration, in the same order or in another one, are a
  declaration of their own.  The table is asked about them once more, about some of them the
  other way round.  The precedences stay the same as long as no name comes to stand in front of
  one that has to precede it; and when all settled positions are picked, so does the order
  proposed.

  * `settledPositions_eq`: what is settled is told by what `Settles` says about it;
  * `Picks t names f picked`: the names at the positions that `f` gives, with
    `Picks.precedes_iff` and `Picks.settledPositions_eq`;
  * `picks_expectedOrder`: the proposed order picks its names in this way;
  * `settledPositions_expectedOrder`: so it is proposed again.
-/
import Mathlib.Data.List.GetD
import Mathlib.Data.List.Sort
import Mathlib.Data.Set.List
import AnnotationOrder.Proofs.Order.Recheck
import AnnotationOrder.Proofs.Rule.Orientation

namespace AnnotationOrder.Order

open Rule

variable {t : Table} {names picked : List String} {r : Nat → Nat → Prop} {f : Nat → Nat}
  {released stuck : List Nat} {i j k l : Nat}

/-! ## What is settled -/

theorem IsLeastOrder.eq {p : Nat → Prop} {l l' : List Nat} (h : IsLeastOrder r p l)
    (h' : IsLeastOrder r p l') : l = l' := by
  rcases h.least l' h'.nodup h'.mem_iff h'.respects with rfl | hlt
  · rfl
  · rcases h'.least l h.nodup h.mem_iff h.respects with rfl | hgt
    · rfl
    · exact absurd hgt (List.lt_asymm hlt)

/-- Positions in increasing order are the least of all orders of these positions. -/
theorem eq_or_lex_of_perm {s l : List Nat} (hs : s.Pairwise (· < ·)) (hl : l.Perm s) :
    l = s ∨ List.Lex (· < ·) s l := by
  induction s generalizing l with
  | nil => exact Or.inl hl.eq_nil
  | cons i s ih =>
    cases l with
    | nil => exact absurd hl.symm.eq_nil (List.cons_ne_nil _ _)
    | cons j l =>
      obtain ⟨hi, hs'⟩ := List.pairwise_cons.1 hs
      rcases List.mem_cons.1 (hl.mem_iff.1 List.mem_cons_self) with rfl | hj
      · rcases ih hs' hl.cons_inv with rfl | hlt
        · exact Or.inl rfl
        · exact Or.inr (.cons hlt)
      · exact Or.inr (.rel (hi j hj))

theorem settledPositions_eq
    (h : Settles (Precedes t names) (participants (precedences t names) names.length) released
      stuck) : settledPositions t names = released ++ stuck := by
  obtain ⟨released', stuck', heq, hset⟩ := exists_settles t names
  have hirr : ∀ i, ¬ Precedes t names i i := fun i hi => hi.ne rfl
  have hclosed := mem_participants_of_precedes t names
  have hlt := pairwise_lt_participants (precedences t names) names.length
  have hnd := nodup_participants (precedences t names) names.length
  have hreleased : released' = released :=
    (hset.isLeastOrder hirr hclosed hnd).eq (h.isLeastOrder hirr hclosed hnd)
  have hstuck : stuck' = stuck := by
    refine (hlt.sublist hset.sublist).eq_of_mem_iff (hlt.sublist h.sublist) fun i => ?_
    rw [hset.mem_stuck_iff hirr hclosed, h.mem_stuck_iff hirr hclosed]
  rw [heq, hreleased, hstuck]

/-- A later one of the settled positions need not come before an earlier one, unless it stands behind
    it anyway. -/
theorem pairwise_settledPositions (t : Table) (names : List String) :
    (settledPositions t names).Pairwise fun i j => i ≠ j ∧ (i < j ∨ ¬ Precedes t names j i) := by
  have hnd : (settledPositions t names).Nodup :=
    (settledPositions_perm t names).nodup_iff.2 (nodup_participants _ _)
  refine List.Pairwise.and hnd ?_
  obtain ⟨released, stuck, heq, hset⟩ := exists_settles t names
  rw [heq, List.pairwise_append]
  refine ⟨hset.respects.imp Or.inr, ?_, fun i hi j hj => Or.inr (hset.clear j hj i hi)⟩
  exact ((pairwise_lt_participants _ _).sublist hset.sublist).imp Or.inl

/-! ## Picked names -/

theorem precedes_iff_keeps (hij : i < j) : Precedes t names i j ↔
    ∃ a b, names[i]? = some a ∧ names[j]? = some b ∧ t.Keeps a b := by
  constructor
  · exact Precedes.keeps
  · rintro ⟨a, b, ha, hb, o, ho, hf⟩
    exact .forward hij ha hb ho hf

theorem precedes_iff_inverts (hij : i < j) : Precedes t names j i ↔
    ∃ a b, names[i]? = some a ∧ names[j]? = some b ∧ t.Inverts a b := by
  constructor
  · exact inverts_of_precedes hij
  · rintro ⟨a, b, ha, hb, h⟩
    exact precedes_of_inverts ha hb h

/-- The names in a list stand at positions of another one.  Two of them that stand the other way round
    there are not asked for in the order in which they stand there. -/
structure Picks (t : Table) (names : List String) (f : Nat → Nat) (picked : List String) : Prop where
  name : ∀ k < picked.length, picked[k]? = names[f k]?
  order : ∀ k l, k < l → l < picked.length →
    f k < f l ∨ f l < f k ∧ ¬ Precedes t names (f l) (f k)

namespace Picks

variable (h : Picks t names f picked)
include h

theorem injective (hk : k < picked.length) (hl : l < picked.length) (hf : f k = f l) : k = l := by
  rcases Nat.lt_trichotomy k l with hkl | hkl | hlk
  · have := h.order k l hkl hl
    omega
  · exact hkl
  · have := h.order l k hlk hk
    omega

/-- The precedences among picked names are those among the positions where they are picked. -/
theorem precedes_iff (hk : k < picked.length) (hl : l < picked.length) :
    Precedes t picked k l ↔ Precedes t names (f k) (f l) := by
  rcases Nat.lt_trichotomy k l with hkl | rfl | hlk
  · rcases h.order k l hkl hl with hf | ⟨hf, hn⟩
    · rw [precedes_iff_keeps hkl, precedes_iff_keeps hf, h.name k hk, h.name l hl]
    · -- asked the other way round, the table keeps the names, and it does not keep them both ways
      rw [precedes_iff_keeps hkl, precedes_iff_inverts hf, h.name k hk, h.name l hl]
      rw [precedes_iff_keeps hf] at hn
      constructor
      · rintro ⟨a, b, ha, hb, hab⟩
        exact ⟨b, a, hb, ha, hab.inverts fun hba => hn ⟨b, a, hb, ha, hba⟩⟩
      · rintro ⟨b, a, hb, ha, hba⟩
        exact ⟨a, b, ha, hb, hba.keeps⟩
  · exact ⟨fun hp => absurd rfl hp.ne, fun hp => absurd rfl hp.ne⟩
  · rcases h.order l k hlk hk with hf | ⟨hf, hn⟩
    · rw [precedes_iff_inverts hlk, precedes_iff_inverts hf, h.name k hk, h.name l hl]
    · refine ⟨fun hp => absurd ?_ hn, fun hp => absurd hp hn⟩
      rw [precedes_iff_inverts hlk, h.name k hk, h.name l hl] at hp
      obtain ⟨b, a, hb, ha, hba⟩ := hp
      exact (precedes_iff_keeps hf).2 ⟨a, b, ha, hb, hba.keeps⟩

/-- When a list picks all positions that take part, just its members take part again. -/
theorem mem_iff_takesPart {l : List Nat} (hlen : ∀ k ∈ l, k < picked.length)
    (hl : ∀ i, i ∈ l.map f ↔ TakesPart (Precedes t names) i) :
    k ∈ l ↔ TakesPart (Precedes t picked) k := by
  constructor
  · intro hk
    obtain ⟨j, hj⟩ := (hl _).1 (List.mem_map_of_mem hk)
    obtain ⟨m, hm, rfl⟩ := List.mem_map.1 ((hl j).2 ⟨f k, hj.symm⟩)
    refine ⟨m, ?_⟩
    rwa [h.precedes_iff (hlen k hk) (hlen m hm), h.precedes_iff (hlen m hm) (hlen k hk)]
  · rintro ⟨m, hkm⟩
    have hlens : k < picked.length ∧ m < picked.length := by
      rcases hkm with hkm | hkm
      · exact hkm.lt_length
      · exact hkm.lt_length.symm
    rw [h.precedes_iff hlens.1 hlens.2, h.precedes_iff hlens.2 hlens.1] at hkm
    obtain ⟨k', hk', hf⟩ := List.mem_map.1 ((hl (f k)).2 ⟨f m, hkm⟩)
    rwa [← h.injective (hlen k' hk') hlens.1 hf]

/-- When all that is settled is picked, and in the least order, it is settled in the same way again. -/
theorem settles
    (hset : Settles (Precedes t names) (participants (precedences t names) names.length)
      (released.map f) (stuck.map f))
    (hlen : ∀ k ∈ released ++ stuck, k < picked.length) (hlt : stuck.Pairwise (· < ·))
    (hleast : ∀ l : List Nat, l.Perm released → Respects (Precedes t picked) l →
      l = released ∨ List.Lex (· < ·) released l) :
    Settles (Precedes t picked) (participants (precedences t picked) picked.length) released
      stuck := by
  have hmap : (released ++ stuck).map f = released.map f ++ stuck.map f := List.map_append
  have hnd : (released ++ stuck).Nodup := by
    refine List.Nodup.of_map f ?_
    rw [hmap, hset.perm.nodup_iff]
    exact nodup_participants _ _
  have hmem : ∀ k, k ∈ released ++ stuck ↔
      k ∈ participants (precedences t picked) picked.length := by
    intro k
    rw [mem_participants_iff]
    refine h.mem_iff_takesPart hlen fun i => ?_
    rw [hmap, hset.perm.mem_iff, mem_participants_iff]
  have hiff : ∀ k ∈ released ++ stuck, ∀ l ∈ released ++ stuck,
      (Precedes t picked k l ↔ Precedes t names (f k) (f l)) :=
    fun k hk l hl => h.precedes_iff (hlen k hk) (hlen l hl)
  have hsub : stuck ⊆ participants (precedences t picked) picked.length :=
    fun k hk => (hmem k).1 (List.mem_append_right _ hk)
  refine ⟨(List.perm_ext_iff_of_nodup hnd (nodup_participants _ _)).2 hmem, ?_, ?_, ?_, ?_, hleast⟩
  · exact List.sublist_of_subperm_of_pairwise
      (List.subperm_of_subset (List.nodup_append.1 hnd).2.1 hsub) hlt (pairwise_lt_participants _ _)
  · intro k hk
    obtain ⟨_, hi, hik⟩ := hset.waits (f k) (List.mem_map_of_mem hk)
    obtain ⟨l, hl, rfl⟩ := List.mem_map.1 hi
    exact ⟨l, hl, (hiff l (List.mem_append_right _ hl) k (List.mem_append_right _ hk)).2 hik⟩
  · refine (List.pairwise_map.1 hset.respects).imp_of_mem fun {k l} hk hl hn hlk => hn ?_
    exact (hiff l (List.mem_append_left _ hl) k (List.mem_append_left _ hk)).1 hlk
  · intro k hk l hl hkl
    refine hset.clear _ (List.mem_map_of_mem hk) _ (List.mem_map_of_mem hl) ?_
    exact (hiff k (List.mem_append_right _ hk) l (List.mem_append_left _ hl)).1 hkl

/-- Where the same is settled, the same order is proposed. -/
theorem expectedOrder_eq
    (hmap : settledPositions t names = (settledPositions t picked).map f) :
    expectedOrder t picked = expectedOrder t names := by
  rw [expectedOrder, expectedOrder, hmap, List.filterMap_map]
  exact List.filterMap_congr fun k hk => h.name k (lt_length_of_mem_settledPositions t picked hk)

/-- Picked as they stand, the names are settled as they were. -/
theorem settledPositions_eq_map (hf : StrictMono f)
    (hall : ∀ i, TakesPart (Precedes t names) i → ∃ k < picked.length, f k = i) :
    settledPositions t names = (settledPositions t picked).map f := by
  obtain ⟨released, stuck, heq, hset⟩ := exists_settles t names
  have hpicked : ∀ i ∈ released ++ stuck, ∃ k < picked.length, f k = i :=
    fun i hi => hall i ((mem_settledPositions_iff t names).1 (heq ▸ hi))
  have hrange : ∀ l ⊆ released ++ stuck, ∃ l' : List Nat, l'.map f = l := by
    intro l hl
    have hl' : l ∈ Set.range (List.map f) := by
      rw [Set.range_list_map]
      intro i hi
      obtain ⟨k, -, hk⟩ := hpicked i (hl hi)
      exact ⟨k, hk⟩
    exact hl'
  obtain ⟨released, rfl⟩ := hrange released (List.subset_append_left _ _)
  obtain ⟨stuck, rfl⟩ := hrange stuck (List.subset_append_right _ _)
  rw [← List.map_append] at heq hpicked
  have hlen : ∀ k ∈ released ++ stuck, k < picked.length := by
    intro k hk
    obtain ⟨l, hl, hlk⟩ := hpicked (f k) (List.mem_map_of_mem hk)
    rwa [← hf.injective hlk]
  have hlt : stuck.Pairwise (· < ·) :=
    (List.pairwise_map.1 ((pairwise_lt_participants _ _).sublist hset.sublist)).imp hf.lt_iff_lt.1
  have hleast : ∀ l : List Nat, l.Perm released → Respects (Precedes t picked) l →
      l = released ∨ List.Lex (· < ·) released l := by
    intro l hl hr
    have hrespects : Respects (Precedes t names) (l.map f) := by
      refine List.pairwise_map.2 (hr.imp_of_mem fun {i j} hi hj hn hji => hn ?_)
      have hlens := fun k hk => hlen k (List.mem_append_left _ (hl.mem_iff.1 hk))
      exact (h.precedes_iff (hlens j hj) (hlens i hi)).2 hji
    rcases hset.least (l.map f) (hl.map f) hrespects with heq | hlex
    · exact Or.inl (List.map_injective_iff.2 hf.injective heq)
    · by_cases hlt : released < l
      · exact Or.inr hlt
      · -- otherwise `l` comes first, and so it does when `f` is applied
        refine Or.inl (List.le_antisymm hlt fun hgt => ?_)
        exact List.lt_asymm (List.map_lt (fun _ _ hij => hf hij) hgt) hlex
  rw [heq, settledPositions_eq (h.settles hset hlen hlt hleast)]

end Picks

/-! ## The proposed order -/

theorem length_expectedOrder (t : Table) (names : List String) :
    (expectedOrder t names).length = (settledPositions t names).length := by
  simpa using congrArg List.length (map_some_expectedOrder t names)

theorem getElem?_expectedOrder (hk : k < (expectedOrder t names).length) :
    (expectedOrder t names)[k]? = names[(settledPositions t names).getD k 0]? := by
  have hk' : k < (settledPositions t names).length := by rwa [← length_expectedOrder]
  have hget := congrArg (·[k]?) (map_some_expectedOrder t names)
  simp only [List.getElem?_map, List.getElem?_eq_getElem hk, List.getElem?_eq_getElem hk',
    Option.map_some, Option.some.injEq] at hget
  rw [List.getElem?_eq_getElem hk, List.getD_eq_getElem _ _ hk', hget]

/-- The proposed order picks its names at the settled positions. -/
theorem picks_expectedOrder (t : Table) (names : List String) :
    Picks t names ((settledPositions t names).getD · 0) (expectedOrder t names) := by
  refine ⟨fun k hk => getElem?_expectedOrder hk, fun k l hkl hl => ?_⟩
  rw [length_expectedOrder] at hl
  obtain ⟨hne, hor⟩ :=
    List.pairwise_iff_getElem.1 (pairwise_settledPositions t names) k l (hkl.trans hl) hl hkl
  simp only [List.getD_eq_getElem _ _ hl, List.getD_eq_getElem _ _ (hkl.trans hl)]
  rcases hor with hlt | hn
  · exact Or.inl hlt
  · by_cases hlt : (settledPositions t names)[k] < (settledPositions t names)[l]
    · exact Or.inl hlt
    · exact Or.inr ⟨by omega, hn⟩

/-- **The proposed order is proposed again.**  All of its names take part in it and stay where they
    are, also when the rules in play contradict each other. -/
theorem settledPositions_expectedOrder (t : Table) (names : List String) :
    settledPositions t (expectedOrder t names) = List.range (expectedOrder t names).length ∧
      expectedOrder t (expectedOrder t names) = expectedOrder t names := by
  obtain ⟨released, stuck, heq, hset⟩ := exists_settles t names
  have hpicks := picks_expectedOrder t names
  have hmap : (List.range (expectedOrder t names).length).map
      ((settledPositions t names).getD · 0) = settledPositions t names := by
    rw [length_expectedOrder]
    refine List.ext_getElem (by simp) fun k hk hk' => ?_
    rw [List.getElem_map, List.getElem_range]
    exact List.getD_eq_getElem _ _ hk'
  -- the positions of what is released, and of what is stuck
  obtain ⟨free, rest, hrange, hfree, hrest⟩ := List.map_eq_append_iff.1 (hmap.trans heq)
  have hlt : (free ++ rest).Pairwise (· < ·) := hrange ▸ List.pairwise_lt_range
  have hlen : ∀ k ∈ free ++ rest, k < (expectedOrder t names).length :=
    fun k hk => List.mem_range.1 (hrange ▸ hk)
  rw [← hfree, ← hrest] at hset
  have hsettles := hpicks.settles hset hlen (List.pairwise_append.1 hlt).2.1 fun l hl _ =>
    eq_or_lex_of_perm (List.pairwise_append.1 hlt).1 hl
  have hsettled : settledPositions t (expectedOrder t names) =
      List.range (expectedOrder t names).length := by
    rw [settledPositions_eq hsettles, hrange]
  exact ⟨hsettled, hpicks.expectedOrder_eq (by rw [hsettled, hmap])⟩

end AnnotationOrder.Order
