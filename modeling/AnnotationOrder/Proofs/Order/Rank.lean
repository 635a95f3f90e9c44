/-
  Names in tiers: tables that cannot contradict themselves.

  The names that constraints put first are listed in tiers, and all other names
  are one last tier behind them.  A constraint is tiered when it puts a single
  listed name in front of names of later tiers only.  Which names its second
  matcher accepts among the listed ones can be computed; the others are in the
  last tier, however many there are.

  * `tier`: the tier of a name;
  * `IsTiered`: a constraint that leads from a tier to later ones;
  * `acyclic_keeps_of_isTiered`: a table of tiered constraints has no cycle of names;
  * `check_expectedOrder_of_isTiered`: so its proposed orders are always clean;
  * `builtin_isTiered`: the built-in constraints are tiered by `builtinTiers`.
-/
import AnnotationOrder.Proofs.Order.Recheck
import AnnotationOrder.Rule.Builtin

namespace AnnotationOrder.Order

open Rule Relation

/-! ## Tiers -/

/-- The tier of a name: the first one that lists it, or else the last. -/
def tier (tiers : List (List String)) (n : String) : Nat := tiers.findIdx (·.contains n)

/-- A constraint that puts one listed name in front of names of later tiers only. -/
def IsTiered (tiers : List (List String)) (c : Constraint) : Prop :=
  ∃ n, c.first.name = some n ∧ tier tiers n < tiers.length ∧
    ∀ m ∈ tiers.flatten, m ≠ n → c.second.accepts m = true → tier tiers n < tier tiers m

variable {tiers : List (List String)} {t : Table}

theorem tier_of_not_mem {n : String} (h : n ∉ tiers.flatten) : tier tiers n = tiers.length := by
  rw [tier, List.findIdx_eq_length]
  intro ns hns
  simp only [List.contains_eq_mem, decide_eq_false_iff_not]
  exact fun hn => h (List.mem_flatten.2 ⟨ns, hns, hn⟩)

/-- A tiered constraint raises the tier, whatever name comes second. -/
theorem IsTiered.tier_lt {c : Constraint} (h : IsTiered tiers c) {a b : String}
    (ha : c.first.accepts a = true) (hb : c.second.accepts b = true) (hne : a ≠ b) :
    tier tiers a < tier tiers b := by
  obtain ⟨n, hn, hlt, hlater⟩ := h
  obtain rfl : n = a := (Matcher.accepts_iff.1 ha).2.1 n (by simp [hn])
  by_cases hm : b ∈ tiers.flatten
  · exact hlater b hm hne.symm hb
  · rwa [tier_of_not_mem hm]

theorem tier_lt_of_keeps (h : ∀ c ∈ t.constraints, IsTiered tiers c) {a b : String}
    (hab : t.Keeps a b) : tier tiers a < tier tiers b := by
  obtain ⟨hne, c, hc, ha, hb⟩ := hab.accepts
  exact (h c hc).tier_lt ha hb hne

/-! ## No cycles -/

/-- A relation that raises a rank has no cycle. -/
theorem acyclic_of_rank {α : Type} {r : α → α → Prop} (f : α → Nat)
    (h : ∀ a b, r a b → f a < f b) (a : α) : ¬ TransGen r a a := by
  have hup : ∀ {b}, TransGen r a b → f a < f b := by
    intro b hab
    induction hab with
    | single hr => exact h _ _ hr
    | tail _ hr ih => exact ih.trans (h _ _ hr)
  exact fun hc => Nat.lt_irrefl _ (hup hc)

theorem acyclic_keeps_of_isTiered (h : ∀ c ∈ t.constraints, IsTiered tiers c) (a : String) :
    ¬ TransGen t.Keeps a a :=
  acyclic_of_rank (tier tiers) (fun _ _ hab => tier_lt_of_keeps h hab) a

/-- Cycles of positions would be cycles of names. -/
theorem check_expectedOrder_of_isTiered (h : ∀ c ∈ t.constraints, IsTiered tiers c)
    (names : List String) : check t true (atPositions (expectedOrder t names)) = [] := by
  refine check_expectedOrder_of_acyclic (acyclic_of_rank (fun i => tier tiers (names.getD i "")) ?_)
  intro i j hij
  obtain ⟨a, b, ha, hb, hk⟩ := hij.keeps
  simpa [List.getD_eq_getElem?_getD, ha, hb] using tier_lt_of_keeps h hk

/-! ## The built-in table -/

/-- The names that built-in constraints put first. -/
def builtinTiers : List (List String) :=
  [["Inject"],
    ["Override", "Nullable", "CheckResult", "Json", "Documented", "Suppress", "Keep"],
    ["NonNull", "Retention", "SuppressLint", "RestrictTo"]]

theorem builtin_isTiered : ∀ c ∈ Table.builtin.constraints, IsTiered builtinTiers c := by
  have h : ∀ c ∈ Builtin.constraints, ∃ n ∈ builtinTiers.flatten, c.first.name = some n ∧
      tier builtinTiers n < builtinTiers.length ∧ ∀ m ∈ builtinTiers.flatten, m ≠ n →
        c.second.accepts m = true → tier builtinTiers n < tier builtinTiers m := by
    decide +kernel
  intro c hc
  obtain ⟨n, -, hn⟩ := h c hc
  exact ⟨n, hn⟩

/-- **The built-in table is consistent over all names.**  No names lead around in a cycle, and no
    proposed order breaks the table. -/
theorem builtin_acyclic_and_clean :
    (∀ a, ¬ TransGen Table.builtin.Keeps a a) ∧
      ∀ names, check .builtin true (atPositions (expectedOrder .builtin names)) = [] :=
  ⟨acyclic_keeps_of_isTiered builtin_isTiered, check_expectedOrder_of_isTiered builtin_isTiered⟩

end AnnotationOrder.Order
