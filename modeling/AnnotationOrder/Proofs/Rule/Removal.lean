/-
  Taking a constraint out of a table.

  A constraint is asked about two names only when the ones in front of it say nothing about
  them.  One that is warned about asks for two names that an earlier one asks for as well, so
  that it is never asked, unless all these earlier ones are silent: an exact name may be
  excluded at the same time, and then the constraint speaks about no names at all.

  * `Table.between_removed_eq_iff`: when the answer about two names stays the same without a
    constraint;
  * `Constraint.Asks.concerns_iff`: a constraint between exact names speaks about these, unless it
    excludes one of them (`Constraint.ExcludesOwn`);
  * `between_removed_of_warned`: when all answers stay the same without a constraint that is
    warned about;
  * `between_removed_behind_mute`: they do not always.
-/
import AnnotationOrder.Proofs.Rule.Orientation
import AnnotationOrder.Proofs.Rule.Warned

namespace AnnotationOrder.Rule

variable {earlier later : List Constraint} {c d : Constraint} {a b x y : String}

/-! ## Any constraint -/

namespace Table

theorem governing?_append (cs ds : List Constraint) (x y : String) :
    governing? ⟨cs ++ ds⟩ x y = (governing? ⟨cs⟩ x y).or (governing? ⟨ds⟩ x y) :=
  List.find?_append

theorem governing?_eq_none_iff {t : Table} :
    t.governing? x y = none ↔ ∀ d ∈ t.constraints, ¬ d.concerns x y = true := by
  simp [governing?]

/-- Without a constraint the answer about two names stays the same, if it says nothing about them, if
    an earlier one does, or if the next one that does is the same constraint. -/
theorem between_removed_eq_iff (hne : x ≠ y) :
    between ⟨earlier ++ later⟩ x y = between ⟨earlier ++ c :: later⟩ x y ↔
      (c.concerns x y = true → (∃ d ∈ earlier, d.concerns x y = true) ∨
        governing? ⟨later⟩ x y = some c) := by
  rw [between_eq_map_governing? hne, between_eq_map_governing? hne, governing?_append,
    governing?_append]
  cases hearlier : governing? ⟨earlier⟩ x y with
  | some d =>
    have hd : ∃ d ∈ earlier, d.concerns x y = true :=
      ⟨d, List.mem_of_find?_eq_some hearlier, concerns_of_governing? hearlier⟩
    simp [hd]
  | none =>
    have hnone : ¬ ∃ d ∈ earlier, d.concerns x y = true := by
      rintro ⟨d, hd, h⟩
      exact governing?_eq_none_iff.1 hearlier d hd h
    have hcons : governing? ⟨c :: later⟩ x y =
        if c.concerns x y then some c else governing? ⟨later⟩ x y := by
      rw [governing?, List.find?_cons]
      cases c.concerns x y <;> rfl
    rw [Option.none_or, Option.none_or, hcons]
    cases hc : c.concerns x y with
    | false => simp
    | true =>
      simp only [if_true, Option.map_some, hnone, false_or, forall_const]
      constructor
      · intro h
        -- an answer tells which constraint it comes from
        obtain ⟨d, hd, hdc⟩ := Option.map_eq_some_iff.1 h
        have heq := congrArg Ordered.constraint hdc
        rw [Constraint.answer_constraint, Constraint.answer_constraint] at heq
        rw [hd, heq]
      · intro h
        rw [h, Option.map_some]

end Table

/-! ## Constraints between exact names -/

theorem Matcher.accepts_iff_of_isExact {m : Matcher} {n k : String} (hm : m.isExact = true)
    (hn : m.name = some n) : m.accepts k = true ↔ k = n ∧ n ∉ m.excluded := by
  simp only [isExact, Bool.and_eq_true, Option.isNone_iff_eq_none] at hm
  obtain ⟨⟨-, hopening⟩, hending⟩ := hm
  simp only [accepts_iff, hn, hopening, hending, Option.mem_def, Option.some.injEq, forall_eq',
    reduceCtorEq, false_imp_iff, implies_true, and_true]
  constructor
  · rintro ⟨hk, rfl⟩
    exact ⟨rfl, hk⟩
  · rintro ⟨rfl, hk⟩
    exact ⟨hk, rfl⟩

namespace Constraint

/-- The constraint excludes one of the two names that it asks for. -/
def ExcludesOwn (c : Constraint) : Prop :=
  ∃ a b, c.Asks a b ∧ (a ∈ c.first.excluded ∨ b ∈ c.second.excluded)

theorem Asks.excludesOwn_iff (h : c.Asks a b) :
    c.ExcludesOwn ↔ a ∈ c.first.excluded ∨ b ∈ c.second.excluded := by
  constructor
  · rintro ⟨a', b', h', hex⟩
    obtain rfl := Option.some.inj (h.first.symm.trans h'.first)
    obtain rfl := Option.some.inj (h.second.symm.trans h'.second)
    exact hex
  · exact fun hex => ⟨a, b, h, hex⟩

theorem Asks.puts_iff (h : c.Asks a b) : c.puts x y = true ↔ (x = a ∧ y = b) ∧ ¬ c.ExcludesOwn := by
  rw [Constraint.puts, Bool.and_eq_true, Matcher.accepts_iff_of_isExact h.exact_first h.first,
    Matcher.accepts_iff_of_isExact h.exact_second h.second, h.excludesOwn_iff, not_or,
    and_and_and_comm]

/-- A constraint between exact names speaks about these, unless it excludes one of them. -/
theorem Asks.concerns_iff (h : c.Asks a b) :
    c.concerns x y = true ↔ (x = a ∧ y = b ∨ y = a ∧ x = b) ∧ ¬ c.ExcludesOwn := by
  rw [concerns, Bool.or_eq_true, h.puts_iff, h.puts_iff, or_and_right]

/-- One that excludes none of its own names speaks about them. -/
theorem concerns_of_asks (h : c.Asks a b ∨ c.Asks b a) (hc : ¬ c.ExcludesOwn) :
    c.concerns a b = true := by
  rcases h with h | h
  · exact h.concerns_iff.2 ⟨Or.inl ⟨rfl, rfl⟩, hc⟩
  · exact h.concerns_iff.2 ⟨Or.inr ⟨rfl, rfl⟩, hc⟩

end Constraint

namespace Table

/-- Without a constraint between exact names all answers stay the same, if the answer about its names
    does. -/
theorem between_removed_asks_iff (earlier later : List Constraint) (h : c.Asks a b) :
    (∀ x y, between ⟨earlier ++ later⟩ x y = between ⟨earlier ++ c :: later⟩ x y) ↔
      a = b ∨ c.ExcludesOwn ∨ (∃ d ∈ earlier, d.concerns a b = true) ∨
        governing? ⟨later⟩ a b = some c := by
  constructor
  · intro hall
    by_cases hab : a = b
    · exact Or.inl hab
    · by_cases hc : c.ExcludesOwn
      · exact Or.inr (Or.inl hc)
      · have hown := Constraint.concerns_of_asks (Or.inl h) hc
        exact Or.inr (Or.inr ((between_removed_eq_iff hab).1 (hall a b) hown))
  · intro hcond x y
    by_cases hxy : x = y
    · rw [hxy, between_self, between_self]
    · refine (between_removed_eq_iff hxy).2 fun hc => ?_
      obtain ⟨hnames, hown⟩ := h.concerns_iff.1 hc
      -- the names asked about are those of the constraint, in one order or the other
      rcases hnames with ⟨rfl, rfl⟩ | ⟨rfl, rfl⟩
      · exact (hcond.resolve_left hxy).resolve_left hown
      · have h' := (hcond.resolve_left (Ne.symm hxy)).resolve_left hown
        simpa only [Constraint.concerns_comm _ x y, governing?_comm _ x y] using h'

/-! ## Constraints that are warned about -/

/-- A constraint that makes one warning more asks for the names of an earlier one. -/
theorem isWarned_of_warnings_ne
    (h : (Table.mk (earlier ++ [c])).warnings ≠ (Table.mk earlier).warnings) :
    IsWarned earlier c := by
  rw [← isSome_warningOf?_iff, Option.isSome_iff_ne_none]
  intro hnone
  rw [warnings_concat, hnone, Option.toList_none, List.append_nil] at h
  exact h rfl

/-- **Constraints that are warned about can be taken out**, and all answers about all names stay as they
    are, where one of the earlier constraints between the same two exact names does not exclude
    either of them.  In general the answers stay as they are just when the constraint has nothing to
    say itself, an earlier one speaks about its names, or the next one to do so is the same again.

    Warnings are given in table order, so a constraint is warned about when there are more of them
    with it than in front of it. -/
theorem between_removed_of_warned (earlier later : List Constraint) (c : Constraint)
    (h : (Table.mk (earlier ++ [c])).warnings ≠ (Table.mk earlier).warnings) :
    ∃ a b, c.Asks a b ∧
      ((∃ d ∈ earlier, (d.Asks a b ∨ d.Asks b a) ∧ ¬ d.ExcludesOwn) →
        ∀ x y, between ⟨earlier ++ later⟩ x y = between ⟨earlier ++ c :: later⟩ x y) ∧
      ((∀ x y, between ⟨earlier ++ later⟩ x y = between ⟨earlier ++ c :: later⟩ x y) ↔
        a = b ∨ c.ExcludesOwn ∨ (∃ d ∈ earlier, d.concerns a b = true) ∨
          governing? ⟨later⟩ a b = some c) := by
  obtain ⟨a, b, hc, -⟩ := isWarned_of_warnings_ne h
  have hiff := between_removed_asks_iff earlier later hc
  refine ⟨a, b, hc, fun ⟨d, hd, hasks, hown⟩ => ?_, hiff⟩
  exact hiff.2 (Or.inr (Or.inr (Or.inl ⟨d, hd, Constraint.concerns_of_asks hasks hown⟩)))

end Table

/-- A constraint between exact names that speaks about none. -/
def mute : Constraint where
  name := "mute"
  first := { name := some "A", excluded := ["A"] }
  second := { name := some "B" }

/-- The same order, asked for by a constraint that speaks about its names. -/
def loud : Constraint := .pair "loud" "A" "B" ""

/-- A constraint that speaks about these names, too. -/
def allBeforeB : Constraint where
  name := "all-before-b"
  first := {}
  second := { name := some "B" }

/-- The warning names the mute constraint, but another one speaks about the names. -/
theorem between_removed_of_warned_covered :
    (Table.mk ([mute, allBeforeB] ++ [loud])).warnings ≠ (Table.mk [mute, allBeforeB]).warnings ∧
      ∀ x y, Table.between ⟨[mute, allBeforeB] ++ [.pair "back" "B" "A" ""]⟩ x y =
        Table.between ⟨[mute, allBeforeB] ++ loud :: [.pair "back" "B" "A" ""]⟩ x y := by
  have hwarned : (Table.mk ([mute, allBeforeB] ++ [loud])).warnings ≠
      (Table.mk [mute, allBeforeB]).warnings := by decide +kernel
  obtain ⟨a, b, hasks, -, hiff⟩ := Table.between_removed_of_warned [mute, allBeforeB]
    [.pair "back" "B" "A" ""] loud hwarned
  obtain rfl : "A" = a := Option.some.inj hasks.first
  obtain rfl : "B" = b := Option.some.inj hasks.second
  exact ⟨hwarned, hiff.2 (Or.inr (Or.inr (Or.inl ⟨allBeforeB, by decide, by decide +kernel⟩)))⟩

/-- Behind a mute constraint only, one that is warned about is the one that is asked. -/
theorem between_removed_behind_mute :
    ¬ ∀ (earlier later : List Constraint) (c : Constraint),
      (Table.mk (earlier ++ [c])).warnings ≠ (Table.mk earlier).warnings →
        ∀ x y, Table.between ⟨earlier ++ later⟩ x y = Table.between ⟨earlier ++ c :: later⟩ x y := by
  intro h
  have hsame := h [mute] [] loud (by decide +kernel) "A" "B"
  exact absurd hsame (by decide +kernel)

end AnnotationOrder.Rule
