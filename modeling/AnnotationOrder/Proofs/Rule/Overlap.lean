/-
  Constraints that never speak about the same names.

  A table asks its constraints one after the other.  Where at most one of them speaks
  about two names, it does not matter in which order they are asked.

  * `Table.between_perm`: tables with the same constraints in another order answer alike
    about two names that concern one constraint at most;
  * `Constraint.Apart`: two constraints that each put a single name first, told apart by
    these two names and one more.  No two names concern both, out of all names there are;
  * `builtin_undisputed`: the built-in constraints are of this kind.
-/
import AnnotationOrder.Proofs.Rule.Orientation
import AnnotationOrder.Rule.Builtin

namespace AnnotationOrder.Rule

variable {cs ds : List Constraint} {c d : Constraint} {a b m : String}

/-! ## Constraints in another order -/

/-- Where at most one item is looked for, another order of the items gives the same one. -/
theorem find?_perm {α : Type} {p : α → Bool} {l l' : List α} (h : l.Perm l')
    (hp : l'.countP p ≤ 1) : l.find? p = l'.find? p := by
  rw [← List.head?_filter, ← List.head?_filter]
  rw [List.countP_eq_length_filter] at hp
  have hf : (l.filter p).Perm (l'.filter p) := h.filter p
  cases hl : l'.filter p with
  | nil =>
    rw [hl, List.perm_nil] at hf
    rw [hf]
  | cons x xs =>
    obtain rfl : xs = [] := by
      rw [hl, List.length_cons] at hp
      exact List.eq_nil_of_length_eq_zero (by omega)
    rw [hl, List.perm_singleton] at hf
    rw [hf]

theorem Table.between_perm (h : cs.Perm ds) (hd : a ≠ b → ds.countP (·.concerns a b) ≤ 1) :
    Table.between ⟨cs⟩ a b = Table.between ⟨ds⟩ a b := by
  by_cases hne : a = b
  · rw [hne, between_self, between_self]
  · rw [between_eq_map_governing? hne, between_eq_map_governing? hne, governing?, governing?,
      find?_perm h (hd hne)]

/-! ## Constraints apart -/

namespace Constraint

/-- Two constraints that each put a single name first.  If it is the same name, the earlier one puts
    it in front of a single name that the other does not accept there; if not, one of the two does
    not accept behind its name the one that the other puts first. -/
def Apart (c d : Constraint) : Prop :=
  ∃ m ∈ c.first.name, ∃ n ∈ d.first.name,
    (m = n → ∃ k ∈ c.second.name, d.second.accepts k = false) ∧
    (m ≠ n → c.second.accepts n = false ∨ d.second.accepts m = false)

theorem puts_iff : c.puts a b = true ↔ c.first.accepts a = true ∧ c.second.accepts b = true :=
  Bool.and_eq_true_iff

/-- A constraint that puts a single name first speaks of this name and of one that it accepts
    second. -/
theorem eq_of_puts (hm : m ∈ c.first.name) (h : c.puts a b = true) :
    m = a ∧ c.second.accepts b = true := by
  obtain ⟨ha, hb⟩ := puts_iff.1 h
  exact ⟨(Matcher.accepts_iff.1 ha).2.1 m hm, hb⟩

theorem not_puts_of_puts (hm : m ∈ c.first.name) (hne : a ≠ b) (h : c.puts a b = true) :
    ¬ c.puts b a = true := by
  intro hba
  obtain ⟨rfl, -⟩ := eq_of_puts hm h
  obtain ⟨rfl, -⟩ := eq_of_puts hm hba
  exact hne rfl

/-- Two names in one order concern at most one of two constraints that put the same name first. -/
theorem Apart.not_puts (h : c.Apart d) (hc : c.puts a b = true) : ¬ d.puts a b = true := by
  obtain ⟨m, hm, n, hn, heq, -⟩ := h
  intro hd
  obtain ⟨rfl, hcb⟩ := eq_of_puts hm hc
  obtain ⟨rfl, hdb⟩ := eq_of_puts hn hd
  obtain ⟨k, hk, hdk⟩ := heq rfl
  obtain rfl : k = b := (Matcher.accepts_iff.1 hcb).2.1 k hk
  rw [hdb] at hdk
  exact absurd hdk (by decide)

/-- Two names concern at most one of two constraints that put different names first. -/
theorem Apart.not_puts_swap (h : c.Apart d) (hne : a ≠ b) (hc : c.puts a b = true) :
    ¬ d.puts b a = true := by
  obtain ⟨m, hm, n, hn, -, hdiff⟩ := h
  intro hd
  obtain ⟨rfl, hcb⟩ := eq_of_puts hm hc
  obtain ⟨rfl, hda⟩ := eq_of_puts hn hd
  rcases hdiff hne with h | h
  · rw [hcb] at h
    exact absurd h (by decide)
  · rw [hda] at h
    exact absurd h (by decide)

/-- **No two names concern both of two constraints that are apart.** -/
theorem Apart.not_concerns (h : c.Apart d) (hne : a ≠ b) (hc : c.concerns a b = true) :
    ¬ d.concerns a b = true := by
  simp only [concerns, Bool.or_eq_true] at hc ⊢
  rintro (hd | hd)
  · rcases hc with hc | hc
    · exact h.not_puts hc hd
    · exact h.not_puts_swap hne.symm hc hd
  · rcases hc with hc | hc
    · exact h.not_puts_swap hne hc hd
    · exact h.not_puts hc hd

theorem countP_concerns_le_one (h : cs.Pairwise Apart) (hne : a ≠ b) :
    cs.countP (·.concerns a b) ≤ 1 := by
  induction h with
  | nil => simp
  | @cons c cs hc _ ih =>
    by_cases hab : c.concerns a b = true
    · have hcs : cs.countP (·.concerns a b) = 0 :=
        List.countP_eq_zero.2 fun d hd => (hc d hd).not_concerns hne hab
      simp [hab, hcs]
    · simpa [List.countP_cons, hab] using ih

end Constraint

/-! ## The built-in constraints -/

theorem builtin_pairwise_apart : Builtin.constraints.Pairwise Constraint.Apart := by
  unfold Constraint.Apart
  decide +kernel

/-- **No two built-in constraints compete.**  Out of all names, no two concern more than one of
    them, and none of them asks for two names both ways round; so the order in which they are asked
    does not matter. -/
theorem builtin_undisputed :
    (∀ a b, a ≠ b → Builtin.constraints.countP (·.concerns a b) ≤ 1 ∧
      ∀ c ∈ Builtin.constraints, ¬ (c.puts a b = true ∧ c.puts b a = true)) ∧
    ∀ cs, cs.Perm Builtin.constraints → ∀ a b,
      Table.between ⟨cs⟩ a b = Table.builtin.between a b := by
  have hcount : ∀ a b, a ≠ b → Builtin.constraints.countP (·.concerns a b) ≤ 1 :=
    fun a b hne => Constraint.countP_concerns_le_one builtin_pairwise_apart hne
  have hone : ∀ c ∈ Builtin.constraints, c.first.name.isSome = true := by decide
  refine ⟨fun a b hne => ⟨hcount a b hne, ?_⟩, fun cs h a b => Table.between_perm h (hcount a b)⟩
  rintro c hc ⟨hab, hba⟩
  obtain ⟨m, hm⟩ := Option.isSome_iff_exists.1 (hone c hc)
  exact Constraint.not_puts_of_puts hm hne hab hba

/-- Two names of two families each, asked about in a table that is turned around. -/
theorem builtin_undisputed_reversed :
    "Nullable" ≠ "JsonRes" ∧ Builtin.constraints.reverse.Perm Builtin.constraints ∧
      Builtin.constraints.countP (·.concerns "Nullable" "JsonRes") ≤ 1 ∧
      Table.between ⟨Builtin.constraints.reverse⟩ "Nullable" "JsonRes" =
        Table.builtin.between "Nullable" "JsonRes" :=
  ⟨by decide, List.reverse_perm _, (builtin_undisputed.1 _ _ (by decide)).1,
    builtin_undisputed.2 _ (List.reverse_perm _) _ _⟩

end AnnotationOrder.Rule
