/-
  Checking the proposed order again.

  A declaration is clean when no two of its names are inverted in the order in
  which they stand.  In the proposed order the names stand at other places, and
  the table is asked about some of them the other way round.

  * `checkAll_eq_nil_iff`: a check finds nothing when no pair of names is inverted;
  * `clean_iff_pairwise`: the same for names picked from a list by their positions;
  * `check_expectedOrder_of_acyclic`: without contradictions the proposed order is
    clean;
  * `check_expectedOrder_eq_nil_iff_acyclic`: and only then.
-/
import AnnotationOrder.Order.Violation
import AnnotationOrder.Proofs.Order.Queue

namespace AnnotationOrder.Order

open Rule Relation

variable {L : Type}

/-! ## Clean declarations -/

theorem violationAt_eq_some_iff {t : Table} {as : List (Annot L)} {expected : List String}
    {i j : Nat} {v : Violation L} :
    violationAt t as expected i j = some v ↔ ∃ x y o, as[i]? = some x ∧ as[j]? = some y ∧
      t.between x.name y.name = some o ∧ o.first = y.name ∧
      v = ⟨y, j, x, i, o.constraint, expected⟩ := by
  simp only [violationAt, inversionAt, bind, Option.map_eq_some_iff, Option.bind_eq_some_iff]
  constructor
  · rintro ⟨p, ⟨x, hx, y, hy, o, ho, h⟩, rfl⟩
    split_ifs at h with hf
    obtain rfl := Option.some.inj h
    exact ⟨x, y, o, hx, hy, ho, hf, rfl⟩
  · rintro ⟨x, y, o, hx, hy, ho, hf, rfl⟩
    exact ⟨(x, y, o.constraint), ⟨x, hx, y, hy, o, ho, by simp [hf]⟩, rfl⟩

/-- A check finds nothing when no two names are inverted. -/
theorem checkAll_eq_nil_iff {t : Table} {as : List (Annot L)} :
    checkAll t as = [] ↔ (as.map (·.name)).Pairwise fun a b => ¬ t.Inverts a b := by
  rw [List.pairwise_map, List.pairwise_iff_getElem, List.eq_nil_iff_forall_not_mem]
  constructor
  · rintro h i j hi hj hij ⟨o, ho, hf⟩
    let v : Violation L := ⟨as[j], j, as[i], i, o.constraint, expectedOrder t (as.map (·.name))⟩
    have hv : violationAt t as (expectedOrder t (as.map (·.name))) i j = some v :=
      violationAt_eq_some_iff.2
        ⟨as[i], as[j], o, List.getElem?_eq_getElem hi, List.getElem?_eq_getElem hj, ho, hf, rfl⟩
    exact h v (mem_checkAll.2 ⟨i, j, hij, hj, hv⟩)
  · intro h v hv
    obtain ⟨i, j, hij, hj, hv⟩ := mem_checkAll.1 hv
    obtain ⟨x, y, o, hx, hy, ho, hf, -⟩ := violationAt_eq_some_iff.1 hv
    obtain ⟨hi, rfl⟩ := List.getElem?_eq_some_iff.1 hx
    obtain ⟨_, rfl⟩ := List.getElem?_eq_some_iff.1 hy
    exact h i j hi hj hij ⟨o, ho, hf⟩

theorem map_name_atPositions (names : List String) :
    (atPositions names).map (·.name) = names := by
  simp [atPositions, Function.comp_def]

variable {t : Table} {names : List String}

/-- Two positions whose names are not inverted. -/
def Clean (t : Table) (names : List String) (i j : Nat) : Prop :=
  ∀ a ∈ names[i]?, ∀ b ∈ names[j]?, ¬ t.Inverts a b

/-- Names picked by their positions are clean when their positions are. -/
theorem clean_iff_pairwise {l : List Nat} :
    check t true (atPositions (l.filterMap (names[·]?))) = [] ↔ l.Pairwise (Clean t names) := by
  rw [check_true, checkAll_eq_nil_iff, map_name_atPositions, List.pairwise_filterMap]
  rfl

/-- Positions are clean unless the later one precedes the earlier one. -/
theorem clean_of_not_precedes {i j : Nat} (h : ¬ Precedes t names j i) : Clean t names i j :=
  fun _ ha _ hb hi => h (precedes_of_inverts ha hb hi)

/-- For positions in increasing order this is all there is to be clean. -/
theorem Clean.not_precedes {i j : Nat} (hij : i < j) (h : Clean t names i j) :
    ¬ Precedes t names j i := by
  intro hp
  obtain ⟨a, b, ha, hb, hi⟩ := inverts_of_precedes hij hp
  exact h a ha b hb hi

/-! ## The proposed order -/

/-- Without contradictions the proposed order is clean. -/
theorem check_expectedOrder_of_acyclic (h : ∀ i, ¬ TransGen (Precedes t names) i i) :
    check t true (atPositions (expectedOrder t names)) = [] := by
  obtain ⟨released, stuck, heq, hset⟩ := exists_settles t names
  have hstuck : stuck = [] := by
    refine List.eq_nil_iff_forall_not_mem.2 fun i hi => not_tangled_of_acyclic h i ?_
    exact tangled_of_waiting hset.waits hi
  rw [expectedOrder, clean_iff_pairwise, heq, hstuck, List.append_nil]
  exact hset.respects.imp clean_of_not_precedes

/-- In a list in increasing order, what holds of each pair as it stands holds of each pair in
    increasing order. -/
theorem rel_of_lt {R : Nat → Nat → Prop} {l : List Nat} {i j : Nat} (hs : l.Pairwise (· < ·))
    (hR : l.Pairwise R) (hi : i ∈ l) (hj : j ∈ l) (hij : i < j) : R i j := by
  obtain ⟨a, ha, rfl⟩ := List.getElem_of_mem hi
  obtain ⟨b, hb, rfl⟩ := List.getElem_of_mem hj
  rcases Nat.lt_trichotomy a b with hab | rfl | hba
  · exact List.pairwise_iff_getElem.1 hR a b ha hb hab
  · exact absurd hij (Nat.lt_irrefl _)
  · have := List.pairwise_iff_getElem.1 hs b a hb ha hba
    omega

/-- Where the stuck positions are clean, precedences among them go with their order, so that they
    make no cycle. -/
theorem acyclic_of_clean {released stuck : List Nat}
    (hset : Settles (Precedes t names) (participants (precedences t names) names.length) released
      stuck)
    (hclean : stuck.Pairwise (Clean t names)) (i : Nat) : ¬ TransGen (Precedes t names) i i := by
  have hlt := (pairwise_lt_participants (precedences t names) names.length).sublist hset.sublist
  have hup : ∀ {a b}, Precedes t names a b → a ∈ stuck → b ∈ stuck → a < b := by
    intro a b hab ha hb
    by_contra hle
    have hba : b < a := Nat.lt_of_le_of_ne (Nat.le_of_not_lt hle) hab.ne.symm
    exact (rel_of_lt hlt hclean hb ha hba).not_precedes hba hab
  have hmem : ∀ {a}, TakesPart (Precedes t names) a → Tangled (Precedes t names) a → a ∈ stuck :=
    fun ha ht => (hset.mem_stuck_iff (fun _ h => h.ne rfl) (mem_participants_of_precedes t names)).2
      ⟨mem_participants_iff.2 ha, ht⟩
  intro hcycle
  -- along the cycle the positions are stuck and increase
  have hrise : ∀ {b}, TransGen (Precedes t names) i b → b ∈ stuck ∧ i < b := by
    have hi : i ∈ stuck := by
      obtain ⟨j, hij, -⟩ := TransGen.head'_iff.1 hcycle
      exact hmem ⟨j, Or.inl hij⟩ (.of_cycle hcycle)
    intro b hb
    induction hb with
    | @single b hib =>
      have hb := hmem ⟨i, Or.inr hib⟩ ((Tangled.of_cycle hcycle).step hib)
      exact ⟨hb, hup hib hi hb⟩
    | @tail a b hia hab ih =>
      have ht : Tangled (Precedes t names) b := ⟨i, hcycle, (hia.tail hab).to_reflTransGen⟩
      have hb := hmem ⟨a, Or.inr hab⟩ ht
      exact ⟨hb, ih.2.trans (hup hab ih.1 hb)⟩
  exact Nat.lt_irrefl i (hrise hcycle).2

/-- **The proposed order passes the check exactly when the rules in play do not contradict each
    other.** -/
theorem check_expectedOrder_eq_nil_iff_acyclic (t : Table) (as : List (Annot L)) :
    check t true (atPositions (expectedOrder t (as.map (·.name)))) = [] ↔
      ∀ i, ¬ TransGen (Precedes t (as.map (·.name))) i i := by
  constructor
  · intro h
    obtain ⟨released, stuck, heq, hset⟩ := exists_settles t (as.map (·.name))
    rw [expectedOrder, clean_iff_pairwise, heq] at h
    exact acyclic_of_clean hset (List.pairwise_append.1 h).2.1
  · exact check_expectedOrder_of_acyclic

end AnnotationOrder.Order
