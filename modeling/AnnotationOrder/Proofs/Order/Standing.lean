/-
  Declarations that stand in order.

  Where no two names are inverted, every precedence goes with the order of the positions, so
  that nothing has to be moved.  Conversely, an order that is proposed without contradictions is
  clean.  If it is how the names that take part stand, no two of these are inverted, and no other
  names are.

  * `lt_of_precedes`: in a clean declaration a precedence leads to a later position;
  * `settledPositions_of_clean`: so the positions that take part are settled as they stand;
  * `pairwise_filter_engaged_iff`: names that do not take part are in no inversion;
  * `check_eq_nil_iff_expectedOrder_stands`: a declaration is clean when nothing contradicts
    itself and the order proposed is how its names stand.
-/
import AnnotationOrder.Proofs.Order.Chain

namespace AnnotationOrder.Order

open Rule Relation

variable {L : Type} {t : Table} {names : List String} {i j : Nat}

/-! ## Clean declarations -/

section
variable (hclean : names.Pairwise fun a b => ¬ t.Inverts a b)
include hclean

/-- In a clean declaration, what has to come first stands first. -/
theorem lt_of_precedes (h : Precedes t names i j) : i < j := by
  by_contra hle
  have hji : j < i := Nat.lt_of_le_of_ne (Nat.le_of_not_lt hle) h.ne.symm
  obtain ⟨a, b, ha, hb, hab⟩ := inverts_of_precedes hji h
  obtain ⟨hj, rfl⟩ := List.getElem?_eq_some_iff.1 ha
  obtain ⟨hi, rfl⟩ := List.getElem?_eq_some_iff.1 hb
  exact List.pairwise_iff_getElem.1 hclean j i hj hi hji hab

theorem acyclic_of_pairwise (i : Nat) : ¬ TransGen (Precedes t names) i i :=
  acyclic_of_rank id (fun _ _ h => lt_of_precedes hclean h) i

/-- The positions that take part are settled as they stand. -/
theorem settledPositions_of_clean :
    settledPositions t names = participants (precedences t names) names.length := by
  have hlt := pairwise_lt_participants (precedences t names) names.length
  have hsettles : Settles (Precedes t names) (participants (precedences t names) names.length)
      (participants (precedences t names) names.length) [] :=
    { perm := by rw [List.append_nil]
      sublist := List.nil_sublist _
      waits := fun j hj => absurd hj List.not_mem_nil
      respects := hlt.imp fun hij hji => Nat.lt_asymm hij (lt_of_precedes hclean hji)
      clear := fun i hi => absurd hi List.not_mem_nil
      least := fun l hl _ => eq_or_lex_of_perm hlt hl }
  rw [settledPositions_eq hsettles, List.append_nil]

theorem expectedOrder_of_clean : expectedOrder t names = names.filter (engaged t names) := by
  rw [expectedOrder, settledPositions_of_clean hclean, filterMap_participants]

end

/-! ## Names that take part -/

/-- Inverted names take part. -/
theorem engaged_of_inverts {a b : String} (ha : a ∈ names) (hb : b ∈ names) (h : t.Inverts a b) :
    engaged t names a = true ∧ engaged t names b = true :=
  (Link.engaged ⟨hb, ha, h.keeps⟩).symm

/-- Names that do not take part are in no inversion. -/
theorem pairwise_filter_engaged_iff :
    ((names.filter (engaged t names)).Pairwise fun a b => ¬ t.Inverts a b) ↔
      names.Pairwise fun a b => ¬ t.Inverts a b := by
  constructor
  · intro h
    refine (List.pairwise_filter.1 h).imp_of_mem fun {a b} ha hb hab hi => ?_
    obtain ⟨hea, heb⟩ := engaged_of_inverts ha hb hi
    exact hab hea heb hi
  · exact fun h => h.filter _

/-! ## The order proposed -/

/-- **What stands in order is left alone, and what does not is told to change.**  A check of a
    declaration finds nothing just when the precedences among its names do not contradict each other
    and the order proposed is that in which the names that take part stand.  So without
    contradictions, the order proposed for a declaration that is reported is another list of names. -/
theorem check_eq_nil_iff_expectedOrder_stands (t : Table) (as : List (Annot L)) (reportAll : Bool) :
    check t reportAll as = [] ↔
      (∀ i, ¬ TransGen (Precedes t (as.map (·.name))) i i) ∧
        expectedOrder t (as.map (·.name)) =
          (as.map (·.name)).filter (engaged t (as.map (·.name))) := by
  rw [check_eq_nil_iff, checkAll_eq_nil_iff]
  constructor
  · exact fun hclean => ⟨acyclic_of_pairwise hclean, expectedOrder_of_clean hclean⟩
  · rintro ⟨hacyclic, hstands⟩
    -- names may be moved and still spell the same list, but this list has been checked again
    have hclean := check_expectedOrder_of_acyclic hacyclic
    rw [check_true, checkAll_eq_nil_iff, map_name_atPositions, hstands] at hclean
    exact pairwise_filter_engaged_iff.1 hclean

end AnnotationOrder.Order
