/-
  Asking a table about two names one way round or the other.

  The first constraint that accepts two names in one order or the other decides about
  them, and it is the same one whichever name is given first.  A constraint that accepts
  them in one order only gives the same answer to both questions.  One that accepts both
  orders leaves the names as they are given.

  * `Table.governing?`: the constraint that decides about two names, with
    `Table.governing?_comm`;
  * `Table.between_eq_map_governing?`: the answer of a table by this constraint;
  * `Table.IsTwoWay`: the constraint accepts the names in both orders;
  * `Table.between_comm_iff`: the answers to both questions are the same unless it does.
-/
import AnnotationOrder.Proofs.Rule.Answer
import Mathlib.Tactic.ByContra

namespace AnnotationOrder.Rule

variable {t : Table} {c : Constraint} {a b : String}

/-! ## Constraints -/

namespace Constraint

/-- The constraint asks for one name before the other. -/
def puts (c : Constraint) (a b : String) : Bool := c.first.accepts a && c.second.accepts b

/-- The constraint speaks about two names, in one order or the other. -/
def concerns (c : Constraint) (a b : String) : Bool := c.puts a b || c.puts b a

/-- What a constraint that speaks about two names says of them: the order given comes first. -/
def answer (c : Constraint) (a b : String) : Ordered :=
  if c.puts a b then ⟨a, b, c⟩ else ⟨b, a, c⟩

theorem concerns_comm (c : Constraint) (a b : String) : c.concerns a b = c.concerns b a :=
  Bool.or_comm _ _

theorem governs_eq_guard (c : Constraint) (a b : String) :
    c.governs a b = if c.concerns a b then some (c.answer a b) else none := by
  have h : c.governs a b =
      if c.puts a b then some ⟨a, b, c⟩ else if c.puts b a then some ⟨b, a, c⟩ else none := rfl
  rw [h, concerns, answer]
  cases c.puts a b <;> simp

theorem answer_constraint (c : Constraint) (a b : String) : (c.answer a b).constraint = c := by
  unfold answer
  split <;> rfl

/-- A constraint that asks for an order asks for it whichever name is given first, unless it asks for
    both orders. -/
theorem answer_comm_iff (hne : a ≠ b) (h : c.concerns a b = true) :
    c.answer a b = c.answer b a ↔ ¬ (c.puts a b = true ∧ c.puts b a = true) := by
  have hba : b ≠ a := hne.symm
  unfold concerns at h
  unfold answer
  cases hab : c.puts a b <;> cases hba : c.puts b a <;> simp_all

end Constraint

/-! ## Tables -/

namespace Table

/-- The first constraint that speaks about two names, in one order or the other. -/
def governing? (t : Table) (a b : String) : Option Constraint :=
  t.constraints.find? (·.concerns a b)

theorem governing?_comm (t : Table) (a b : String) : t.governing? a b = t.governing? b a := by
  simp only [governing?, Constraint.concerns_comm _ a b]

theorem concerns_of_governing? (h : t.governing? a b = some c) : c.concerns a b = true := by
  have hc := List.find?_some h
  exact hc

/-- The first of all results is the result on the first item that has one. -/
theorem findSome?_guard {α β : Type} (p : α → Bool) (f : α → β) (l : List α) :
    l.findSome? (fun x => if p x then some (f x) else none) = (l.find? p).map f := by
  induction l with
  | nil => rfl
  | cons x l ih =>
    rw [List.findSome?_cons, List.find?_cons]
    cases p x with
    | false => exact ih
    | true => rfl

/-- **The answer of a table** is that of the constraint that decides about the names. -/
theorem between_eq_map_governing? (hne : a ≠ b) (t : Table) :
    t.between a b = (t.governing? a b).map (·.answer a b) := by
  rw [between_eq_findSome hne]
  simp only [Constraint.governs_eq_guard]
  exact findSome?_guard _ _ _

/-- The constraint that decides about two names asks for both orders. -/
def IsTwoWay (t : Table) (a b : String) : Prop :=
  a ≠ b ∧ ∃ c, t.governing? a b = some c ∧ c.puts a b = true ∧ c.puts b a = true

/-- An answer comes from the constraint that decides. -/
theorem map_constraint_between (t : Table) (a b : String) :
    (t.between a b).map (·.constraint) = if a = b then none else t.governing? a b := by
  split_ifs with hab
  · rw [hab, between_self]
    rfl
  · rw [between_eq_map_governing? hab, Option.map_map]
    cases t.governing? a b with
    | none => rfl
    | some c => exact congrArg some (c.answer_constraint a b)

/-- The same constraint answers both questions. -/
theorem map_constraint_between_comm (t : Table) (a b : String) :
    (t.between a b).map (·.constraint) = (t.between b a).map (·.constraint) := by
  simp only [map_constraint_between, governing?_comm t b a, eq_comm (a := b)]

theorem between_comm_iff (t : Table) (a b : String) :
    t.between a b = t.between b a ↔ ¬ t.IsTwoWay a b := by
  by_cases hne : a = b
  · subst hne
    simp [IsTwoWay]
  · rw [between_eq_map_governing? hne, between_eq_map_governing? (Ne.symm hne),
      governing?_comm t b a]
    cases hc : t.governing? a b with
    | none => simp [IsTwoWay, hc]
    | some c =>
      simpa [IsTwoWay, hne, hc] using
        Constraint.answer_comm_iff hne (concerns_of_governing? hc)

/-! ### Names that are kept and names that are inverted -/

/-- A table is asked in vain, or the name that it puts first is one of the two. -/
theorem isSome_between_iff : (t.between a b).isSome = true ↔ t.Keeps a b ∨ t.Inverts a b := by
  rw [Option.isSome_iff_exists]
  constructor
  · rintro ⟨o, ho⟩
    rcases first_of_between ho with h | h
    · exact Or.inl ⟨o, ho, h⟩
    · exact Or.inr ⟨o, ho, h⟩
  · rintro (⟨o, ho, -⟩ | ⟨o, ho, -⟩) <;> exact ⟨o, ho⟩

/-- Whether a table is asked in vain does not depend on the order of the names. -/
theorem isSome_between_comm (t : Table) (a b : String) :
    (t.between a b).isSome = (t.between b a).isSome := by
  simpa only [Option.isSome_map] using congrArg Option.isSome (map_constraint_between_comm t a b)

theorem Keeps.not_inverts (h : t.Keeps a b) : ¬ t.Inverts a b := by
  rintro ⟨o, ho, hb⟩
  obtain ⟨o', ho', ha⟩ := h
  obtain rfl : o = o' := Option.some.inj (ho.symm.trans ho')
  exact ne_of_between ho (ha.symm.trans hb)

/-- What is kept one way round only is inverted the other way round. -/
theorem Keeps.inverts (h : t.Keeps a b) (hn : ¬ t.Keeps b a) : t.Inverts b a := by
  have hsome : (t.between b a).isSome = true := by
    rw [isSome_between_comm]
    exact isSome_between_iff.2 (Or.inl h)
  exact (isSome_between_iff.1 hsome).resolve_left hn

/-- Both orders are asked for when each question is answered by the order in which it is asked. -/
theorem isTwoWay_iff_between : t.IsTwoWay a b ↔
    ∃ c, t.between a b = some ⟨a, b, c⟩ ∧ t.between b a = some ⟨b, a, c⟩ := by
  constructor
  · rintro ⟨hne, c, hc, hab, hba⟩
    refine ⟨c, ?_, ?_⟩
    · simp [between_eq_map_governing? hne, hc, Constraint.answer, hab]
    · simp [between_eq_map_governing? hne.symm, governing?_comm t b a, hc, Constraint.answer, hba]
  · rintro ⟨c, hab, hba⟩
    by_contra hw
    rw [(between_comm_iff t a b).2 hw, hba] at hab
    exact ne_of_between hba (congrArg Ordered.first (Option.some.inj hab))

theorem isTwoWay_iff_keeps : t.IsTwoWay a b ↔ t.Keeps a b ∧ t.Keeps b a := by
  constructor
  · intro h
    obtain ⟨c, hab, hba⟩ := isTwoWay_iff_between.1 h
    exact ⟨⟨_, hab, rfl⟩, ⟨_, hba, rfl⟩⟩
  · rintro ⟨⟨o, ho, ha⟩, h⟩
    by_contra hw
    rw [(between_comm_iff t a b).2 hw] at ho
    exact h.not_inverts ⟨o, ho, ha⟩

end Table

end AnnotationOrder.Rule
