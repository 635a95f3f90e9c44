/-
  What a check reports.

  A check goes over the pairs of positions row by row, stops early or not, and works
  out the order proposed at most once.  What comes of it is the list of the inverted
  pairs in their order, each with the order proposed.

  * `pairwise_lex_pairs`: the order of the pairs;
  * `Reports t as v`: the violation `v` says what is wrong with an inverted pair;
  * `check_lists_inversions`: a check lists the inverted pairs in their order, each once;
  * `check_pair_ne_nil_iff`: a check of two names;
  * `between_comm_iff_not_isTwoWay`: two names are in order one way round only, unless
    one constraint asks for both orders.
-/
import AnnotationOrder.Proofs.Order.Recheck
import AnnotationOrder.Proofs.Rule.Orientation
import AnnotationOrder.Rule.Builtin

namespace AnnotationOrder.Order

open Rule

variable {L : Type} {t : Table} {as : List (Annot L)} {v w : Violation L}

/-! ## The order of pairs -/

/-- Pairs stand row by row. -/
theorem pairwise_lex_pairs (n : Nat) : (pairs n).Pairwise (Prod.Lex (· < ·) (· < ·)) := by
  rw [pairs, List.pairwise_flatMap]
  -- within a row the second position grows, from row to row the first
  constructor
  · intro i _
    rw [List.pairwise_map]
    exact (List.pairwise_lt_range.filter _).imp fun h => Prod.Lex.right _ h
  · refine List.pairwise_lt_range.imp fun {i j} hij p hp q hq => ?_
    obtain ⟨_, -, rfl⟩ := List.mem_map.1 hp
    obtain ⟨_, -, rfl⟩ := List.mem_map.1 hq
    exact Prod.Lex.left _ _ hij

/-! ## Reports -/

/-- The positions of a violation, the earlier one first. -/
def Violation.place (v : Violation L) : Nat × Nat := (v.conflictsWithIndex, v.index)

/-- A violation that says of an inverted pair what there is to say: the annotations as they stand, the
    first constraint that speaks about them in either order, and the order proposed. -/
structure Reports (t : Table) (as : List (Annot L)) (v : Violation L) : Prop where
  lt : v.conflictsWithIndex < v.index
  misplaced : as[v.index]? = some v.misplaced
  conflictsWith : as[v.conflictsWithIndex]? = some v.conflictsWith
  inverted : t.Inverts v.conflictsWith.name v.misplaced.name
  governing : t.governing? v.conflictsWith.name v.misplaced.name = some v.constraint
  expected : v.expectedOrder = expectedOrder t (as.map (·.name))

/-- The constraint of an answer is the one that decides about the names. -/
theorem governing?_of_between {a b : String} {o : Ordered} (h : t.between a b = some o) :
    t.governing? a b = some o.constraint := by
  have hc := Table.map_constraint_between t a b
  rw [h, if_neg (Table.ne_of_between h)] at hc
  exact hc.symm

theorem mem_checkAll_iff : v ∈ checkAll t as ↔ Reports t as v := by
  rw [mem_checkAll]
  constructor
  · rintro ⟨i, j, hij, -, hv⟩
    obtain ⟨x, y, o, hx, hy, ho, hf, rfl⟩ := violationAt_eq_some_iff.1 hv
    exact ⟨hij, hy, hx, ⟨o, ho, hf⟩, governing?_of_between ho, rfl⟩
  · intro h
    obtain ⟨o, ho, hf⟩ := h.inverted
    have hc : o.constraint = v.constraint :=
      Option.some.inj ((governing?_of_between ho).symm.trans h.governing)
    refine ⟨v.conflictsWithIndex, v.index, h.lt, (List.getElem?_eq_some_iff.1 h.misplaced).1, ?_⟩
    refine violationAt_eq_some_iff.2
      ⟨v.conflictsWith, v.misplaced, o, h.conflictsWith, h.misplaced, ho, hf, ?_⟩
    rw [hc, ← h.expected]

theorem pairwise_checkAll (t : Table) (as : List (Annot L)) :
    (checkAll t as).Pairwise fun v w => Prod.Lex (· < ·) (· < ·) v.place w.place := by
  rw [checkAll, List.pairwise_filterMap]
  refine (pairwise_lex_pairs as.length).imp fun {p q} hpq v hv w hw => ?_
  obtain ⟨_, _, _, -, -, -, -, rfl⟩ := violationAt_eq_some_iff.1 hv
  obtain ⟨_, _, _, -, -, -, -, rfl⟩ := violationAt_eq_some_iff.1 hw
  exact hpq

/-- An inverted pair is reported. -/
theorem exists_mem_checkAll_iff {i j : Nat} (hij : i < j) (hj : j < as.length) :
    (∃ v ∈ checkAll t as, v.place = (i, j)) ↔ t.Inverts as[i].name as[j].name := by
  constructor
  · rintro ⟨v, hv, hp⟩
    obtain ⟨rfl, rfl⟩ := Prod.mk.inj hp
    have h := mem_checkAll_iff.1 hv
    obtain ⟨_, hx⟩ := List.getElem?_eq_some_iff.1 h.conflictsWith
    obtain ⟨_, hy⟩ := List.getElem?_eq_some_iff.1 h.misplaced
    rw [hx, hy]
    exact h.inverted
  · rintro ⟨o, ho, hf⟩
    let v : Violation L :=
      ⟨as[j], j, as[i], i, o.constraint, expectedOrder t (as.map (·.name))⟩
    refine ⟨v, mem_checkAll_iff.2 ?_, rfl⟩
    exact ⟨hij, List.getElem?_eq_getElem hj, List.getElem?_eq_getElem (hij.trans hj),
      ⟨o, ho, hf⟩, governing?_of_between ho, rfl⟩

/-- **A check lists the inverted pairs.**  A pair of positions is reported when the table asks for the
    name at the later one first; what is reported is right in all its parts; the reports stand in the
    order of the pairs, so that no pair has two; and a check that ends early finds the first of them. -/
theorem check_lists_inversions (t : Table) (as : List (Annot L)) :
    (∀ i j (hij : i < j) (hj : j < as.length),
      (∃ v ∈ check t true as, v.place = (i, j)) ↔ t.Inverts as[i].name as[j].name) ∧
    (∀ v, v ∈ check t true as ↔ Reports t as v) ∧
    ((check t true as).Pairwise fun v w => Prod.Lex (· < ·) (· < ·) v.place w.place) ∧
    check t false as = (check t true as).head?.toList := by
  rw [check_true]
  refine ⟨fun i j hij hj => exists_mem_checkAll_iff hij hj, fun v => mem_checkAll_iff,
    pairwise_checkAll t as, ?_⟩
  rw [check_eq]
  cases checkAll t as <;> rfl

theorem check_lists_inversions_repeated :
    0 < 1 ∧ 1 < (atPositions ["Test", "Override", "Test"]).length ∧
      ∃ v ∈ check .builtin true (atPositions ["Test", "Override", "Test"]), v.place = (0, 1) := by
  refine ⟨by decide, by decide, ?_⟩
  refine ((check_lists_inversions .builtin (atPositions ["Test", "Override", "Test"])).1 0 1
    (by decide) (by decide)).2 ?_
  exact ⟨⟨"Override", "Test", Builtin.constraints[0]⟩, by decide +kernel, rfl⟩

/-! ## Two names -/

variable {a b : String}

theorem check_eq_nil_iff {r : Bool} : check t r as = [] ↔ checkAll t as = [] := by
  rw [check_eq]
  cases r with
  | false => simp
  | true => rfl

theorem check_pair_ne_nil_iff {r : Bool} :
    check t r (atPositions [a, b]) ≠ [] ↔ t.Inverts a b := by
  rw [ne_eq, check_eq_nil_iff, checkAll_eq_nil_iff, map_name_atPositions]
  simp

/-- Names that a table orders one way round are inverted one way round. -/
theorem xor_inverts_iff :
    Xor (t.Inverts a b) (t.Inverts b a) ↔ (t.between a b).isSome = true ∧ ¬ t.IsTwoWay a b := by
  rw [Table.isSome_between_iff, Table.isTwoWay_iff_keeps]
  constructor
  · rintro (⟨hab, hba⟩ | ⟨hba, hab⟩)
    · exact ⟨Or.inr hab, fun h => h.1.not_inverts hab⟩
    · exact ⟨Or.inl hba.keeps, fun h => h.2.not_inverts hba⟩
  · rintro ⟨hab | hab, hw⟩
    · refine Or.inr ⟨?_, hab.not_inverts⟩
      obtain ⟨o, ho, hf⟩ := hab
      rw [(Table.between_comm_iff t a b).2 (Table.isTwoWay_iff_keeps.not.2 hw)] at ho
      exact ⟨o, ho, hf⟩
    · exact Or.inl ⟨hab, hab.keeps.not_inverts⟩

/-- **Two names are in order one way round.**  The same constraint decides about them whichever is given
    first.  Unless it asks for both orders, the answer is the same, too, and just one of the two ways to
    write them is reported.  If it asks for both orders, neither is. -/
theorem between_comm_iff_not_isTwoWay (t : Table) (a b : String) :
    (t.between a b).map (·.constraint) = (if a = b then none else t.governing? a b) ∧
    (t.between a b).map (·.constraint) = (t.between b a).map (·.constraint) ∧
    (t.between a b = t.between b a ↔ ¬ t.IsTwoWay a b) ∧
    (t.IsTwoWay a b ↔ ∃ c, t.between a b = some ⟨a, b, c⟩ ∧ t.between b a = some ⟨b, a, c⟩) ∧
    (∀ r, Xor (check t r (atPositions [a, b]) ≠ []) (check t r (atPositions [b, a]) ≠ []) ↔
      (t.between a b).isSome = true ∧ ¬ t.IsTwoWay a b) ∧
    (t.IsTwoWay a b ↔ (t.between a b).isSome = true ∧
      ∀ r, check t r (atPositions [a, b]) = [] ∧ check t r (atPositions [b, a]) = []) := by
  refine ⟨Table.map_constraint_between t a b, Table.map_constraint_between_comm t a b,
    Table.between_comm_iff t a b, Table.isTwoWay_iff_between, fun r => ?_, ?_⟩
  · rw [check_pair_ne_nil_iff, check_pair_ne_nil_iff]
    exact xor_inverts_iff
  · constructor
    · intro h
      obtain ⟨hab, hba⟩ := Table.isTwoWay_iff_keeps.1 h
      refine ⟨Table.isSome_between_iff.2 (Or.inl hab), fun r => ⟨?_, ?_⟩⟩
      · exact not_ne_iff.1 (check_pair_ne_nil_iff.not.2 hab.not_inverts)
      · exact not_ne_iff.1 (check_pair_ne_nil_iff.not.2 hba.not_inverts)
    · rintro ⟨hsome, hnil⟩
      by_contra hw
      rcases xor_inverts_iff.2 ⟨hsome, hw⟩ with ⟨h, -⟩ | ⟨h, -⟩
      · exact check_pair_ne_nil_iff.2 h (hnil true).1
      · exact check_pair_ne_nil_iff.2 h (hnil true).2

/-- A constraint between any two names asks for both orders. -/
def anyBeforeAny : Table := ⟨[{ name := "any-before-any", first := {}, second := {} }]⟩

/-- Where both orders are asked for, the answer depends on the question, and no order is reported. -/
theorem between_anyBeforeAny :
    ¬ (∀ (t : Table) (a b : String), t.between a b = t.between b a) ∧
      ¬ ∀ (t : Table) (a b : String), a ≠ b → (t.between a b).isSome = true →
        Xor (check t false (atPositions [a, b]) ≠ []) (check t false (atPositions [b, a]) ≠ []) := by
  have hab : anyBeforeAny.Keeps "A" "B" := ⟨_, rfl, rfl⟩
  have hba : anyBeforeAny.Keeps "B" "A" := ⟨_, rfl, rfl⟩
  refine ⟨fun h => ?_, fun h => ?_⟩
  · obtain ⟨o, ho, hf⟩ := hab
    rw [h] at ho
    exact hba.not_inverts ⟨o, ho, hf⟩
  · have hsome := Table.isSome_between_iff.2 (Or.inl hab)
    rcases h anyBeforeAny "A" "B" (by decide) hsome with ⟨h, -⟩ | ⟨h, -⟩
    · exact hab.not_inverts (check_pair_ne_nil_iff.1 h)
    · exact hba.not_inverts (check_pair_ne_nil_iff.1 h)

end AnnotationOrder.Order
