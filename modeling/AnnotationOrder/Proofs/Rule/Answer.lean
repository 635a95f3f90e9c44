/-
  What the answers of a table say.

  An answer puts one of the two names asked about first, and it comes from a
  constraint whose matchers accept them in that order.

  * `Table.between_eq_some_iff`: the answer is that of the first constraint that
    governs the names, and the constraints before it govern them in no order;
  * `Table.Keeps`, `Table.Inverts`: the name given first, or the other one, has to
    come first;
  * `Table.Inverts.keeps`: what is inverted one way round is kept the other way
    round.  The converse fails for constraints that accept both orders.
-/
import Mathlib.Tactic.SplitIfs
import AnnotationOrder.Rule.Table

namespace AnnotationOrder.Rule

namespace Constraint
variable {c : Constraint} {a b : String}

/-- An answer names the two names in the order in which the constraint accepts them. -/
theorem governs_eq_some {o : Ordered} (h : c.governs a b = some o) :
    (o = ⟨a, b, c⟩ ∧ c.first.accepts a = true ∧ c.second.accepts b = true) ∨
      (o = ⟨b, a, c⟩ ∧ c.first.accepts b = true ∧ c.second.accepts a = true) := by
  unfold governs at h
  split_ifs at h with h₁ h₂
  · simp only [Option.some.injEq] at h
    exact Or.inl ⟨h.symm, by simpa using h₁⟩
  · simp only [Option.some.injEq] at h
    exact Or.inr ⟨h.symm, by simpa using h₂⟩

theorem governs_eq_none_iff :
    c.governs a b = none ↔ (c.first.accepts a && c.second.accepts b) = false ∧
      (c.first.accepts b && c.second.accepts a) = false := by
  unfold governs
  split_ifs with h₁ h₂
  · simp [h₁]
  · simp [h₂]
  · simp_all

/-- Whether a constraint governs two names does not depend on their order. -/
theorem governs_eq_none_comm : c.governs a b = none ↔ c.governs b a = none := by
  rw [governs_eq_none_iff, governs_eq_none_iff, and_comm]

/-- An answer that puts the second name first is given the other way round, too. -/
theorem governs_swap {o : Ordered} (hne : a ≠ b) (h : c.governs a b = some o) (ho : o.first = b) :
    c.governs b a = some o := by
  rcases governs_eq_some h with ⟨rfl, -⟩ | ⟨rfl, hb, ha⟩
  · exact absurd ho hne
  · simp [governs, hb, ha]

end Constraint

namespace Table
variable {t : Table} {a b : String}

theorem between_eq_some_iff {o : Ordered} :
    t.between a b = some o ↔ a ≠ b ∧ ∃ cs c ds, t.constraints = cs ++ c :: ds ∧
      c.governs a b = some o ∧ ∀ d ∈ cs, d.governs a b = none := by
  by_cases h : a = b
  · simp [between, h]
  · rw [between_eq_findSome h, List.findSome?_eq_some_iff]
    simp [h]

theorem ne_of_between {o : Ordered} (h : t.between a b = some o) : a ≠ b :=
  (between_eq_some_iff.1 h).1

/-- An answer comes from a constraint of the table. -/
theorem governs_of_between {o : Ordered} (h : t.between a b = some o) :
    ∃ c ∈ t.constraints, c.governs a b = some o := by
  obtain ⟨-, cs, c, ds, ht, hc, -⟩ := between_eq_some_iff.1 h
  exact ⟨c, by simp [ht], hc⟩

/-- An answer puts one of the two names first. -/
theorem first_of_between {o : Ordered} (h : t.between a b = some o) : o.first = a ∨ o.first = b := by
  obtain ⟨c, -, hc⟩ := governs_of_between h
  rcases Constraint.governs_eq_some hc with ⟨rfl, -⟩ | ⟨rfl, -⟩
  · exact Or.inl rfl
  · exact Or.inr rfl

/-- Asked about two names, the table puts the first one first. -/
def Keeps (t : Table) (a b : String) : Prop := ∃ o, t.between a b = some o ∧ o.first = a

/-- Asked about two names, the table puts the second one first. -/
def Inverts (t : Table) (a b : String) : Prop := ∃ o, t.between a b = some o ∧ o.first = b

/-- What is inverted one way round is kept the other way round. -/
theorem Inverts.keeps (h : t.Inverts a b) : t.Keeps b a := by
  obtain ⟨o, ho, hf⟩ := h
  obtain ⟨hne, cs, c, ds, ht, hc, hcs⟩ := between_eq_some_iff.1 ho
  refine ⟨o, between_eq_some_iff.2 ⟨hne.symm, cs, c, ds, ht, Constraint.governs_swap hne hc hf, ?_⟩, hf⟩
  exact fun d hd => Constraint.governs_eq_none_comm.1 (hcs d hd)

/-- A name that is kept first is accepted by the first matcher of a constraint whose second matcher
    accepts the other name. -/
theorem Keeps.accepts (h : t.Keeps a b) :
    a ≠ b ∧ ∃ c ∈ t.constraints, c.first.accepts a = true ∧ c.second.accepts b = true := by
  obtain ⟨o, ho, hf⟩ := h
  have hne := ne_of_between ho
  obtain ⟨c, hc, hg⟩ := governs_of_between ho
  rcases Constraint.governs_eq_some hg with ⟨-, ha, hb⟩ | ⟨rfl, -⟩
  · exact ⟨hne, c, hc, ha, hb⟩
  · exact absurd hf.symm hne

end Table

end AnnotationOrder.Rule
