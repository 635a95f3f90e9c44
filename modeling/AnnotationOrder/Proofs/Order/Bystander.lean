/-
  Annotations that the table says nothing about.

  An annotation that is unconstrained against all others of its declaration takes no part in
  the order, wherever it stands.  Without it the positions behind it are one less, and that is
  all the difference it makes.

  * `moved p i`: where the position `i` is once something stands at `p`;
  * `not_takesPart_of_unconstrained`: a name without constraints takes no part;
  * `insert_unconstrained`: with an unconstrained annotation put in anywhere, the same order is
    proposed and the same violations are found at the positions moved.
-/
import AnnotationOrder.Proofs.Order.Picked
import AnnotationOrder.Proofs.Order.Scan

namespace AnnotationOrder.Order

open Rule

variable {L : Type} {t : Table} {a : String} {x : Annot L} {i p : Nat}

/-! ## Positions -/

/-- Where a position is once something stands at `p`: those from `p` on are one further. -/
def moved (p i : Nat) : Nat := if i < p then i else i + 1

theorem moved_strictMono (p : Nat) : StrictMono (moved p) := by
  intro i j hij
  unfold moved
  split_ifs <;> omega

theorem exists_moved_iff : (∃ k, moved p k = i) ↔ i ≠ p := by
  unfold moved
  constructor
  · rintro ⟨k, rfl⟩
    split_ifs <;> omega
  · intro h
    rcases Nat.lt_or_gt_of_ne h with h | h
    · exact ⟨i, if_pos h⟩
    · exact ⟨i - 1, by rw [if_neg (by omega)]; omega⟩

theorem getElem?_moved {α : Type} (before after : List α) (x : α) (k : Nat) :
    (before ++ x :: after)[moved before.length k]? = (before ++ after)[k]? := by
  unfold moved
  split_ifs with h
  · rw [List.getElem?_append_left h, List.getElem?_append_left h]
  · rw [List.getElem?_append_right (by omega), List.getElem?_append_right (by omega),
      Nat.sub_add_comm (by omega), List.getElem?_cons_succ]

/-! ## The order proposed -/

section
variable {before after : List String}

/-- Names without the one put in are picked as they stand. -/
theorem picks_insert :
    Picks t (before ++ a :: after) (moved before.length) (before ++ after) where
  name k _ := (getElem?_moved before after a k).symm
  order _ _ hkl _ := Or.inl (moved_strictMono _ hkl)

variable (h : ∀ b ∈ before ++ after, t.between a b = none)
include h

theorem not_takesPart_of_unconstrained :
    ¬ TakesPart (Precedes t (before ++ a :: after)) before.length := by
  have hself : (before ++ a :: after)[before.length]? = some a := by simp
  have hnone : ∀ j b, j ≠ before.length → (before ++ a :: after)[j]? = some b →
      ¬ t.Keeps a b ∧ ¬ t.Keeps b a := by
    intro j b hj hb
    obtain ⟨k, rfl⟩ := exists_moved_iff.2 hj
    rw [getElem?_moved] at hb
    have hab := h b (List.mem_of_getElem? hb)
    constructor
    · rintro ⟨o, ho, -⟩
      rw [hab] at ho
      cases ho
    · rintro ⟨o, ho, -⟩
      have hsome := t.isSome_between_comm a b
      rw [hab, ho] at hsome
      cases hsome
  rintro ⟨j, hj | hj⟩
  · obtain ⟨_, b, ha, hb, hk⟩ := hj.keeps
    cases hself.symm.trans ha
    exact (hnone j b hj.ne.symm hb).1 hk
  · obtain ⟨b, _, hb, ha, hk⟩ := hj.keeps
    cases hself.symm.trans ha
    exact (hnone j b hj.ne hb).2 hk

theorem exists_moved_of_takesPart (hi : TakesPart (Precedes t (before ++ a :: after)) i) :
    ∃ k < (before ++ after).length, moved before.length k = i := by
  have hne : i ≠ before.length := by
    rintro rfl
    exact not_takesPart_of_unconstrained h hi
  have hlt : i < (before ++ a :: after).length := by
    obtain ⟨j, hij | hji⟩ := hi
    · exact hij.lt_length.1
    · exact hji.lt_length.2
  obtain ⟨k, rfl⟩ := exists_moved_iff.2 hne
  have hget := List.getElem?_eq_getElem hlt
  rw [getElem?_moved] at hget
  exact ⟨k, (List.getElem?_eq_some_iff.1 hget).1, rfl⟩

theorem expectedOrder_insert :
    expectedOrder t (before ++ a :: after) = expectedOrder t (before ++ after) := by
  have hmap := picks_insert.settledPositions_eq_map (moved_strictMono _)
    fun i hi => exists_moved_of_takesPart h hi
  exact (picks_insert.expectedOrder_eq hmap).symm

end

/-! ## Violations -/

/-- A violation at its positions once something stands at `p`. -/
def Violation.moved (p : Nat) (v : Violation L) : Violation L :=
  { v with index := Order.moved p v.index, conflictsWithIndex := Order.moved p v.conflictsWithIndex }

/-- Violations are listed in an order without ties. -/
instance : Std.Asymm fun v w : Violation L => Prod.Lex (· < ·) (· < ·) v.place w.place where
  asymm v w h h' := by
    rw [Prod.lex_def] at h h'
    omega

section
variable {before after : List (Annot L)} {v w : Violation L}
  (h : ∀ y ∈ before ++ after, t.between x.name y.name = none)
include h

theorem unconstrained_names : ∀ b ∈ before.map (·.name) ++ after.map (·.name),
    t.between x.name b = none := by
  intro b hb
  rw [← List.map_append] at hb
  obtain ⟨y, hy, rfl⟩ := List.mem_map.1 hb
  exact h y hy

theorem expectedOrder_insert_annot :
    expectedOrder t ((before ++ x :: after).map (·.name)) =
      expectedOrder t ((before ++ after).map (·.name)) := by
  rw [List.map_append, List.map_cons, expectedOrder_insert (unconstrained_names h),
    List.map_append]

theorem reports_moved_iff :
    Reports t (before ++ x :: after) (v.moved before.length) ↔ Reports t (before ++ after) v := by
  have hlt := (moved_strictMono before.length).lt_iff_lt (a := v.conflictsWithIndex) (b := v.index)
  have hexpected := expectedOrder_insert_annot h
  constructor
  · rintro ⟨h₁, h₂, h₃, h₄, h₅, h₆⟩
    simp only [Violation.moved, getElem?_moved] at h₁ h₂ h₃
    exact ⟨hlt.1 h₁, h₂, h₃, h₄, h₅, h₆.trans hexpected⟩
  · rintro ⟨h₁, h₂, h₃, h₄, h₅, h₆⟩
    refine ⟨hlt.2 h₁, ?_, ?_, h₄, h₅, h₆.trans hexpected.symm⟩
    · simpa only [Violation.moved, getElem?_moved] using h₂
    · simpa only [Violation.moved, getElem?_moved] using h₃

/-- The annotation put in is not part of any violation. -/
theorem exists_moved_of_reports (hw : Reports t (before ++ x :: after) w) :
    ∃ v : Violation L, v.moved before.length = w := by
  have hname : ∀ {i : Nat} {y : Annot L}, (before ++ x :: after)[i]? = some y →
      (before.map (·.name) ++ x.name :: after.map (·.name))[i]? = some y.name := by
    intro i y hy
    rw [← List.map_cons, ← List.map_append, List.getElem?_map, hy]
    rfl
  have hp := precedes_of_inverts (hname hw.conflictsWith) (hname hw.misplaced) hw.inverted
  have hmoved := fun i hi => exists_moved_of_takesPart (i := i) (unconstrained_names h) hi
  rw [List.length_map] at hmoved
  obtain ⟨k, -, hk⟩ := hmoved w.index ⟨_, Or.inl hp⟩
  obtain ⟨l, -, hl⟩ := hmoved w.conflictsWithIndex ⟨_, Or.inr hp⟩
  refine ⟨{ w with index := k, conflictsWithIndex := l }, ?_⟩
  simp only [Violation.moved, hk, hl]

theorem checkAll_insert : checkAll t (before ++ x :: after) =
    (checkAll t (before ++ after)).map (Violation.moved before.length) := by
  have hmono := moved_strictMono before.length
  have hsorted : ((checkAll t (before ++ after)).map (Violation.moved before.length)).Pairwise
      fun v w => Prod.Lex (· < ·) (· < ·) v.place w.place := by
    refine List.pairwise_map.2 ((pairwise_checkAll t _).imp fun {v w} hvw => ?_)
    rw [Prod.lex_def] at hvw ⊢
    exact hvw.imp (fun hlt => hmono hlt) fun ⟨heq, hlt⟩ =>
      ⟨congrArg (Order.moved before.length) heq, hmono hlt⟩
  refine (pairwise_checkAll t _).eq_of_mem_iff hsorted fun w => ?_
  rw [mem_checkAll_iff, List.mem_map]
  constructor
  · intro hw
    obtain ⟨v, rfl⟩ := exists_moved_of_reports h hw
    exact ⟨v, mem_checkAll_iff.2 ((reports_moved_iff h).1 hw), rfl⟩
  · rintro ⟨v, hv, rfl⟩
    exact (reports_moved_iff h).2 (mem_checkAll_iff.1 hv)

end

/-- **An annotation that the table says nothing about makes no difference.**  Put in anywhere, it
    leaves the order proposed as it is, and the violations too, but for the positions from there on,
    which are one further. -/
theorem insert_unconstrained (t : Table) (before after : List (Annot L)) (x : Annot L)
    (h : ∀ y ∈ before ++ after, t.between x.name y.name = none) :
    expectedOrder t ((before ++ x :: after).map (·.name)) =
      expectedOrder t ((before ++ after).map (·.name)) ∧
    ∀ reportAll, check t reportAll (before ++ x :: after) =
      (check t reportAll (before ++ after)).map (Violation.moved before.length) := by
  refine ⟨expectedOrder_insert_annot h, fun reportAll => ?_⟩
  rw [check_eq, check_eq, checkAll_insert h]
  cases reportAll with
  | true => rfl
  | false => exact List.map_take.symm

theorem insert_unconstrained_between :
    (∀ y ∈ [Annot.mk "Test" ()] ++ [Annot.mk "Override" ()],
      Table.builtin.between "Entity" y.name = none) ∧
    expectedOrder .builtin ["Test", "Entity", "Override"] = ["Override", "Test"] ∧
    (check .builtin true [Annot.mk "Test" (), Annot.mk "Entity" (), Annot.mk "Override" ()]).map
      Violation.place = [(0, 2)] := by
  have hnone : ∀ y ∈ [Annot.mk "Test" ()] ++ [Annot.mk "Override" ()],
      Table.builtin.between "Entity" y.name = none := by decide +kernel
  have hinsert := insert_unconstrained .builtin [Annot.mk "Test" ()] [Annot.mk "Override" ()]
    (Annot.mk "Entity" ()) hnone
  refine ⟨hnone, hinsert.1.trans (by decide +kernel), ?_⟩
  have hcheck := congrArg (List.map Violation.place) (hinsert.2 true)
  exact hcheck.trans (by decide +kernel)

end AnnotationOrder.Order
