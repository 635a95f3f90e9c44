/-
  Names carried by the rules of a list.

  A rule adds its name to those seen as soon as the name is read, before most of it is looked
  at, so that a rule with a fault can still take a name away from a later one.  After any rules,
  good or bad, the names seen are the ones seen at first and the ones carried so far.

  * `Carries d v n`: the value is a mapping with the name `n`, which is not blank;
  * `mem_seenAfter_iff`, `mem_foldl_seenAfter_iff`: the names seen after a value, and after
    several;
  * `ofValue_eq_duplicateName_iff`: a name is refused when it has been seen, and for no other
    reason;
  * `getElem?_ofValues`: the outcome for a value among others;
  * `ofValues_keeps_names_apart`: what a list of values comes to.
-/
import AnnotationOrder.Proofs.Rule.Grammar

namespace AnnotationOrder.Rule

open Document Text

namespace Constraint

variable {d : Document} {es : Entries} {index : Nat} {seen : List String} {v : Value}
  {vs ws : List Value} {n name : String}

/-! ## Names -/

/-- The value is a mapping that has a name, a text that is not blank. -/
def Carries (d : Document) (v : Value) (n : String) : Prop :=
  ∃ es, d.entries? v = some es ∧ es.get? "name" = some (.atom (.text n)) ∧ blank n = false

theorem nameOf?_eq_some_iff : nameOf? d v = some n ↔ Carries d v n := by
  rw [nameOf?, Option.bind_eq_some_iff]
  simp only [nameIn?_eq_some_iff, textAt?_eq_some_iff, Carries]

/-- A rule carries its name. -/
theorem carries_of_isRule {c : Constraint} (h : IsRule d v c) : Carries d v c.name :=
  nameOf?_eq_some_iff.1 (nameOf?_of_isRule h)

theorem mem_seenAfter_iff : n ∈ seenAfter d seen v ↔ n ∈ seen ∨ Carries d v n := by
  rw [← nameOf?_eq_some_iff, seenAfter]
  cases nameOf? d v with
  | none => simp
  | some name =>
    simp only [List.contains_eq_mem, decide_eq_true_eq, Option.some.injEq]
    split_ifs with hseen
    · -- the name is there already
      refine ⟨Or.inl, ?_⟩
      rintro (h | rfl)
      · exact h
      · exact hseen
    · rw [List.mem_append, List.mem_singleton, eq_comm]

theorem mem_foldl_seenAfter_iff :
    n ∈ vs.foldl (seenAfter d) seen ↔ n ∈ seen ∨ ∃ v ∈ vs, Carries d v n := by
  induction vs generalizing seen with
  | nil => simp
  | cons v vs ih =>
    rw [List.foldl_cons, ih, mem_seenAfter_iff, or_assoc, List.exists_mem_cons_iff]

/-! ## One value -/

theorem descriptionIn_ne_duplicateName : descriptionIn d es ≠ .error (.duplicateName n) := by
  unfold descriptionIn
  split <;> simp [textOr, mapError_eq_error_iff]

/-- A rule with a name that is new fails for other reasons. -/
theorem ofEntries_ne_duplicateName : ofEntries d name es ≠ .error (.duplicateName n) := by
  have hside : ∀ s, side d name es s ≠ .error (.duplicateName n) := by
    intro s
    unfold side
    split <;> simp
  unfold ofEntries sideMatcher
  simp only [ne_eq, guard_eq_error_iff, bind_eq_error_iff, mapError_eq_error_iff, hside,
    descriptionIn_ne_duplicateName]
  simp [pure, Except.pure]

theorem ofValue_eq_duplicateName_iff :
    ofValue d index seen v = .error (.duplicateName n) ↔ Carries d v n ∧ n ∈ seen := by
  rw [← nameOf?_eq_some_iff, nameOf?, ofValue]
  cases d.entries? v with
  | none => simp
  | some es =>
    rw [Option.bind_some]
    dsimp only
    cases nameIn? es with
    | none => simp
    | some name =>
      simp only [List.contains_eq_mem, decide_eq_true_eq, Option.some.injEq]
      split_ifs with hseen
      · simp only [Except.error.injEq, RuleError.duplicateName.injEq]
        constructor
        · rintro rfl
          exact ⟨rfl, hseen⟩
        · exact And.left
      · -- the name has been checked by the time the rest of the rule is looked at
        refine iff_of_false ofEntries_ne_duplicateName ?_
        rintro ⟨rfl, h⟩
        exact hseen h

/-! ## Several values -/

theorem ofValues_append : ofValues d index seen (vs ++ ws) =
    ofValues d index seen vs ++
      ofValues d (index + vs.length) (vs.foldl (seenAfter d) seen) ws := by
  induction vs generalizing index seen with
  | nil => rfl
  | cons v vs ih =>
    have hindex : index + (v :: vs).length = index + 1 + vs.length := by
      rw [List.length_cons]
      omega
    rw [List.cons_append, ofValues_cons, ofValues_cons, ih, hindex]
    rfl

theorem length_ofValues (d : Document) (index : Nat) (seen : List String) (vs : List Value) :
    (ofValues d index seen vs).length = vs.length := by
  induction vs generalizing index seen with
  | nil => rfl
  | cons v vs ih => rw [ofValues_cons, List.length_cons, List.length_cons, ih]

/-- The outcome for a value behind others, and the names seen after it. -/
theorem getElem?_ofValues : (ofValues d index seen (vs ++ v :: ws))[vs.length]? =
    some (ofValue d (index + vs.length) (vs.foldl (seenAfter d) seen) v,
      (vs ++ [v]).foldl (seenAfter d) seen) := by
  have hlength := Nat.le_of_eq (length_ofValues d index seen vs)
  rw [ofValues_append, List.getElem?_append_right hlength, length_ofValues, Nat.sub_self,
    ofValues_cons, List.getElem?_cons_zero, List.foldl_append]
  rfl

/-- The names of the rules that are read. -/
def namesRead (d : Document) (index : Nat) (seen : List String) (vs : List Value) : List String :=
  (ofValues d index seen vs).filterMap fun r => r.1.toOption.map (·.name)

theorem namesRead_cons : namesRead d index seen (v :: vs) =
    ((ofValue d index seen v).toOption.map (·.name)).toList ++
      namesRead d (index + 1) (seenAfter d seen v) vs := by
  rw [namesRead, ofValues_cons, List.filterMap_cons, namesRead]
  cases (ofValue d index seen v).toOption <;> rfl

/-- A rule that is read has a name that is new, and that will have been seen. -/
theorem not_mem_seen_of_mem_namesRead (h : n ∈ namesRead d index seen vs) : n ∉ seen := by
  induction vs generalizing index seen with
  | nil => exact absurd h List.not_mem_nil
  | cons v vs ih =>
    rw [namesRead_cons, List.mem_append] at h
    rcases h with h | h
    · cases hv : ofValue d index seen v with
      | error e => simp [hv, Except.toOption] at h
      | ok c =>
        obtain rfl : n = c.name := by simpa [hv, Except.toOption] using h
        exact (ofValue_eq_ok_iff.1 hv).2
    · exact fun hn => ih h (mem_seenAfter_iff.2 (Or.inl hn))

theorem nodup_namesRead : (namesRead d index seen vs).Nodup := by
  induction vs generalizing index seen with
  | nil => exact List.nodup_nil
  | cons v vs ih =>
    rw [namesRead_cons]
    cases hv : ofValue d index seen v with
    | error e => exact ih
    | ok c =>
      refine List.nodup_cons.2 ⟨fun h => ?_, ih⟩
      refine not_mem_seen_of_mem_namesRead h (mem_seenAfter_iff.2 (Or.inr ?_))
      exact carries_of_isRule (ofValue_eq_ok_iff.1 hv).1

/-- **The names of rules are kept apart.**  After each value of a list the names seen are those seen at
    first and those that the values so far carry, whether they are rules or not.  A value is refused
    for its name when it carries one that was seen at first or that an earlier value carries.  So the
    rules that are read have names of their own, none of which was seen at first. -/
theorem ofValues_keeps_names_apart (d : Document) (index : Nat) (seen : List String) :
    (∀ (earlier : List Value) (v : Value) (later : List Value), ∃ result names,
      (ofValues d index seen (earlier ++ v :: later))[earlier.length]? = some (result, names) ∧
      (∀ n, n ∈ names ↔ n ∈ seen ∨ ∃ w ∈ earlier ++ [v], Carries d w n) ∧
      ∀ n, result = .error (.duplicateName n) ↔
        Carries d v n ∧ (n ∈ seen ∨ ∃ w ∈ earlier, Carries d w n)) ∧
    ∀ vs, (ofValues d index seen vs).length = vs.length ∧
      (namesRead d index seen vs).Nodup ∧ (namesRead d index seen vs).Disjoint seen := by
  refine ⟨fun earlier v later => ⟨_, _, getElem?_ofValues, fun n => ?_, fun n => ?_⟩, fun vs => ?_⟩
  · exact mem_foldl_seenAfter_iff
  · rw [ofValue_eq_duplicateName_iff, mem_foldl_seenAfter_iff]
  · exact ⟨length_ofValues d index seen vs, nodup_namesRead, fun _ h => not_mem_seen_of_mem_namesRead h⟩

end Constraint

end AnnotationOrder.Rule
