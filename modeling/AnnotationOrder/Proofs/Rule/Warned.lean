/-
  Which constraints are warned about.

  The warnings are worked out in one pass, which notes for each pair of exact names the first
  constraint that asks for it.  What it says about a constraint can be told from the ones in
  front of it: the constraint repeats the first of them that asks for the same order, and if
  there is none, it contradicts the first of them that asks for the opposite order.

  * `Constraint.Asks c a b`: both matchers are exact, and these are their names;
  * `lookup_foldl_noted`: what is noted is the first constraint for each pair;
  * `warningOf?`: what one constraint adds, with `warnings_concat`, and `warningAt?`: what the one
    at a place adds, with `warnings_eq_filterMap`;
  * `Warrants earlier c s`: the text that a constraint warrants behind others;
  * `warnings_tell_first_earlier`: the warnings are just these, in table order.
-/
import AnnotationOrder.Rule.Builtin
import AnnotationOrder.Rule.Warning
import Mathlib.Data.List.Forall2
import Mathlib.Tactic.SplitIfs

namespace AnnotationOrder.Rule

variable {c d : Constraint} {cs ds earlier : List Constraint} {a b : String}

/-! ## Constraints between exact names -/

/-- Both matchers are exact: the constraint asks for one name before another. -/
structure Constraint.Asks (c : Constraint) (a b : String) : Prop where
  exact_first : c.first.isExact = true
  exact_second : c.second.isExact = true
  first : c.first.name = some a
  second : c.second.name = some b

theorem Constraint.exactPair_eq_some_iff : c.exactPair = some (a, b) ↔ c.Asks a b := by
  have hasks : c.Asks a b ↔ (c.first.isExact && c.second.isExact) = true ∧
      c.first.name = some a ∧ c.second.name = some b := by
    rw [Bool.and_eq_true]
    exact ⟨fun h => ⟨⟨h.1, h.2⟩, h.3, h.4⟩, fun h => ⟨h.1.1, h.1.2, h.2.1, h.2.2⟩⟩
  rw [hasks, exactPair]
  split <;> simp_all

/-- Other constraints have a pattern on one side. -/
theorem Constraint.isSome_exactPair (c : Constraint) :
    c.exactPair.isSome = (c.first.isExact && c.second.isExact) := by
  have hname : ∀ m : Matcher, m.isExact = true → ∃ n, m.name = some n := by
    intro m hm
    simp only [Matcher.isExact, Bool.and_eq_true] at hm
    exact Option.isSome_iff_exists.1 hm.1.1
  cases h : c.first.isExact && c.second.isExact with
  | false => simp [exactPair, h]
  | true =>
    obtain ⟨h₁, h₂⟩ := Bool.and_eq_true_iff.1 h
    obtain ⟨a, ha⟩ := hname _ h₁
    obtain ⟨b, hb⟩ := hname _ h₂
    rw [exactPair_eq_some_iff.2 ⟨h₁, h₂, ha, hb⟩, Option.isSome_some]

/-- The first of some constraints that asks for an order. -/
structure IsFirstAsking (cs : List Constraint) (a b : String) (d : Constraint) : Prop where
  asks : d.Asks a b
  first : ∃ before after, cs = before ++ d :: after ∧ ∀ e ∈ before, ¬ e.Asks a b

theorem IsFirstAsking.mem (h : IsFirstAsking cs a b d) : d ∈ cs := by
  obtain ⟨before, after, rfl, -⟩ := h.first
  exact List.mem_append_right _ List.mem_cons_self

namespace Table

/-! ## Pairs that are noted -/

/-- The pairs noted after one more constraint. -/
def noted (seen : Seen) (c : Constraint) : Seen :=
  match c.exactPair with
  | none => seen
  | some p => if (seen.lookup p).isSome then seen else seen ++ [(p, c.name)]

/-- The first of some constraints for a pair. -/
def firstAsking? (cs : List Constraint) (p : String × String) : Option Constraint :=
  cs.find? (·.exactPair == some p)

theorem firstAsking?_eq_some_iff : firstAsking? cs (a, b) = some d ↔ IsFirstAsking cs a b d := by
  simp only [firstAsking?, List.find?_eq_some_iff_append, beq_iff_eq, Bool.not_eq_true',
    beq_eq_false_iff_ne, ne_eq, Constraint.exactPair_eq_some_iff]
  constructor
  · rintro ⟨hd, before, after, rfl, hbefore⟩
    exact ⟨hd, before, after, rfl, hbefore⟩
  · rintro ⟨hd, before, after, rfl, hbefore⟩
    exact ⟨hd, before, after, rfl, hbefore⟩

theorem firstAsking?_eq_none_iff : firstAsking? cs (a, b) = none ↔ ∀ e ∈ cs, ¬ e.Asks a b := by
  simp [firstAsking?, Constraint.exactPair_eq_some_iff]

/-- A pair that is noted stays with the constraint that it is noted for. -/
theorem lookup_noted (seen : Seen) (c : Constraint) (p : String × String) :
    (noted seen c).lookup p =
      (seen.lookup p).or (if c.exactPair = some p then some c.name else none) := by
  unfold noted
  cases hc : c.exactPair with
  | none => simp
  | some q =>
    simp only [Option.some.injEq]
    split_ifs with hq hp hp
    · -- the pair is there already
      subst hp
      obtain ⟨n, hn⟩ := Option.isSome_iff_exists.1 hq
      rw [hn, Option.some_or]
    · rw [Option.or_none]
    · subst hp
      simp [List.lookup_append]
    · have hne : (p == q) = false := beq_eq_false_iff_ne.2 (Ne.symm hp)
      simp [List.lookup_append, List.lookup_cons, hne]

/-- What is noted after some constraints: for each pair the first one that asks for it. -/
theorem lookup_foldl_noted (seen : Seen) (cs : List Constraint) (p : String × String) :
    (cs.foldl noted seen).lookup p =
      (seen.lookup p).or ((firstAsking? cs p).map (·.name)) := by
  induction cs generalizing seen with
  | nil => exact (Option.or_none).symm
  | cons c cs ih =>
    rw [List.foldl_cons, ih, lookup_noted, Option.or_assoc]
    congr 1
    by_cases hc : c.exactPair = some p
    · simp [firstAsking?, hc]
    · simp [firstAsking?, hc]

/-! ## What a constraint adds -/

/-- The warning that a constraint gets, given the pairs noted before it. -/
def warningOf? (seen : Seen) (c : Constraint) : Option Warning :=
  c.exactPair.bind fun (a, b) =>
    match seen.lookup (a, b), seen.lookup (b, a) with
    | some earlier, _ => some ⟨.repeats, c.name, earlier, a, b⟩
    | none, some earlier => some ⟨.contradicts, c.name, earlier, a, b⟩
    | none, none => none

theorem warningsFrom_cons (seen : Seen) (c : Constraint) (cs : List Constraint) :
    warningsFrom seen (c :: cs) =
      (warningOf? seen c).toList ++ warningsFrom (noted seen c) cs := by
  rw [warningsFrom, warningOf?, noted]
  cases c.exactPair with
  | none => rfl
  | some p =>
    obtain ⟨a, b⟩ := p
    cases hab : seen.lookup (a, b) <;> cases hba : seen.lookup (b, a) <;> simp [hab, hba]

theorem warningsFrom_append (seen : Seen) (cs ds : List Constraint) :
    warningsFrom seen (cs ++ ds) = warningsFrom seen cs ++ warningsFrom (cs.foldl noted seen) ds := by
  induction cs generalizing seen with
  | nil => rfl
  | cons c cs ih =>
    rw [List.cons_append, warningsFrom_cons, warningsFrom_cons, ih, List.append_assoc]
    rfl

/-- A constraint at the end adds its warning. -/
theorem warnings_concat (cs : List Constraint) (c : Constraint) :
    (Table.mk (cs ++ [c])).warnings =
      (Table.mk cs).warnings ++ (warningOf? (cs.foldl noted []) c).toList := by
  rw [warnings, warnings, warningsFrom_append, warningsFrom_cons, warningsFrom, List.append_nil]

theorem warningsFrom_eq_filterMap (seen : Seen) (cs : List Constraint) :
    warningsFrom seen cs = (List.range cs.length).filterMap fun k =>
      cs[k]?.bind (warningOf? ((cs.take k).foldl noted seen)) := by
  induction cs generalizing seen with
  | nil => rfl
  | cons c cs ih =>
    rw [warningsFrom_cons, ih, List.length_cons, List.range_succ_eq_map, List.filterMap_cons,
      List.filterMap_map]
    simp only [List.getElem?_cons_zero, Option.bind_some, List.take_zero, List.foldl_nil]
    cases warningOf? seen c <;> rfl

/-- The warning that the constraint at a place gets. -/
def warningAt? (t : Table) (k : Nat) : Option Warning :=
  t.constraints[k]?.bind (warningOf? ((t.constraints.take k).foldl noted []))

theorem warnings_eq_filterMap (t : Table) :
    t.warnings = (List.range t.size).filterMap t.warningAt? :=
  warningsFrom_eq_filterMap [] t.constraints

/-- Constraints with a pattern neither get a warning nor are noted. -/
theorem warningsFrom_filter (seen : Seen) (cs : List Constraint) :
    warningsFrom seen (cs.filter (·.exactPair.isSome)) = warningsFrom seen cs := by
  induction cs generalizing seen with
  | nil => rfl
  | cons c cs ih =>
    rw [List.filter_cons, warningsFrom_cons]
    cases hc : c.exactPair with
    | none => simp [warningOf?, noted, hc, ih]
    | some p =>
      rw [Option.isSome_some, if_pos rfl, warningsFrom_cons, ih]

end Table

/-! ## What a constraint warrants -/

/-- The text of a warning: what a constraint does to an earlier one, and the order that it asks for. -/
def warningText (verb : String) (c d : Constraint) (a b : String) : String :=
  "Rule '" ++ c.name ++ "' " ++ verb ++ " rule '" ++ d.name ++ "' (@" ++ a ++ " before @" ++ b ++ ")"

/-- What there is to say about a constraint behind others.  One that asks for the same order as an
    earlier one repeats the first such one.  One that asks for an order that only has been asked for
    the other way round contradicts the first such one; its names are not the same. -/
inductive Warrants (earlier : List Constraint) (c : Constraint) : String → Prop
  | repeats {a b : String} {d : Constraint} : c.Asks a b → IsFirstAsking earlier a b d →
      Warrants earlier c (warningText "repeats" c d a b)
  | contradicts {a b : String} {d : Constraint} : c.Asks a b → a ≠ b →
      (∀ e ∈ earlier, ¬ e.Asks a b) → IsFirstAsking earlier b a d →
      Warrants earlier c (warningText "contradicts" c d a b)

/-- An earlier constraint asks for the same names, in one order or the other. -/
def IsWarned (earlier : List Constraint) (c : Constraint) : Prop :=
  ∃ a b, c.Asks a b ∧ ∃ d ∈ earlier, d.Asks a b ∨ d.Asks b a

theorem Warrants.isWarned {s : String} (h : Warrants earlier c s) : IsWarned earlier c := by
  cases h with
  | repeats hc hd => exact ⟨_, _, hc, _, hd.mem, Or.inl hd.asks⟩
  | contradicts hc _ _ hd => exact ⟨_, _, hc, _, hd.mem, Or.inr hd.asks⟩

namespace Table

theorem warningOf?_foldl_noted (h : c.Asks a b) :
    warningOf? (earlier.foldl noted []) c =
      match firstAsking? earlier (a, b), firstAsking? earlier (b, a) with
      | some d, _ => some ⟨.repeats, c.name, d.name, a, b⟩
      | none, some d => some ⟨.contradicts, c.name, d.name, a, b⟩
      | none, none => none := by
  rw [warningOf?, Constraint.exactPair_eq_some_iff.2 h, Option.bind_some]
  simp only [lookup_foldl_noted, List.lookup_nil, Option.none_or]
  cases firstAsking? earlier (a, b) <;> cases firstAsking? earlier (b, a) <;> rfl

/-- The text of a warning is what the constraint warrants. -/
theorem warrants_message {w : Warning} (h : warningOf? (earlier.foldl noted []) c = some w) :
    Warrants earlier c w.message := by
  obtain ⟨⟨a, b⟩, hab, -⟩ := Option.bind_eq_some_iff.1 h
  have hasks := Constraint.exactPair_eq_some_iff.1 hab
  rw [warningOf?_foldl_noted hasks] at h
  split at h
  · rename_i d _ hd
    obtain rfl := Option.some.inj h
    exact .repeats hasks (firstAsking?_eq_some_iff.1 hd)
  · rename_i d hnone hd
    obtain rfl := Option.some.inj h
    have hne : a ≠ b := by
      rintro rfl
      rw [hnone] at hd
      cases hd
    exact .contradicts hasks hne (firstAsking?_eq_none_iff.1 hnone) (firstAsking?_eq_some_iff.1 hd)
  · cases h

/-- A constraint gets a warning when an earlier one asks for the same names. -/
theorem isSome_warningOf?_iff :
    (warningOf? (earlier.foldl noted []) c).isSome = true ↔ IsWarned earlier c := by
  constructor
  · intro h
    obtain ⟨w, hw⟩ := Option.isSome_iff_exists.1 h
    exact (warrants_message hw).isWarned
  · rintro ⟨a, b, hc, d, hd, hasks⟩
    rw [warningOf?_foldl_noted hc]
    cases hab : firstAsking? earlier (a, b) with
    | some e => rfl
    | none =>
      cases hba : firstAsking? earlier (b, a) with
      | some e => rfl
      | none =>
        rcases hasks with h | h
        · exact absurd h (firstAsking?_eq_none_iff.1 hab d hd)
        · exact absurd h (firstAsking?_eq_none_iff.1 hba d hd)

/-- What is kept of a list, next to the items that it comes from. -/
theorem forall₂_filter_filterMap {α β : Type} (f : α → Option β) (l : List α) :
    List.Forall₂ (fun x y => f x = some y) (l.filter fun x => (f x).isSome) (l.filterMap f) := by
  induction l with
  | nil => exact .nil
  | cons x l ih =>
    cases hx : f x with
    | none => simpa [hx] using ih
    | some y => simpa [hx] using ih

/-- The places of the constraints that get a warning. -/
def warnedPlaces (t : Table) : List Nat := (List.range t.size).filter fun k => (t.warningAt? k).isSome

theorem mem_warnedPlaces_iff {t : Table} {k : Nat} : k ∈ t.warnedPlaces ↔
    ∃ c, t.constraints[k]? = some c ∧ IsWarned (t.constraints.take k) c := by
  rw [warnedPlaces, List.mem_filter, List.mem_range, warningAt?, size]
  constructor
  · rintro ⟨hk, h⟩
    rw [List.getElem?_eq_getElem hk, Option.bind_some, isSome_warningOf?_iff] at h
    exact ⟨_, List.getElem?_eq_getElem hk, h⟩
  · rintro ⟨c, hc, h⟩
    rw [hc, Option.bind_some, isSome_warningOf?_iff]
    exact ⟨(List.getElem?_eq_some_iff.1 hc).1, h⟩

/-- At each of these places the text is one that the constraint warrants. -/
theorem forall₂_warrants (t : Table) :
    List.Forall₂ (fun k s => ∃ c, t.constraints[k]? = some c ∧ Warrants (t.constraints.take k) c s)
      t.warnedPlaces (t.warnings.map (·.message)) := by
  rw [warnings_eq_filterMap, List.forall₂_map_right_iff]
  refine (forall₂_filter_filterMap t.warningAt? (List.range t.size)).imp fun k w hw => ?_
  obtain ⟨c, hc, hw⟩ := Option.bind_eq_some_iff.1 hw
  exact ⟨c, hc, warrants_message hw⟩

/-- **The warnings are just those that are warranted.**  There is one for each constraint between exact
    names such that an earlier one asks for these names in one order or the other, in table order.
    It names the first one that asks for the same order, or if there is none, the first one that
    asks for the opposite order.  Constraints with a pattern neither get warnings nor cause any. -/
theorem warnings_tell_first_earlier (t : Table) :
    (∃ ks : List Nat, ks.Pairwise (· < ·) ∧
      (∀ k, k ∈ ks ↔ ∃ c, t.constraints[k]? = some c ∧ IsWarned (t.constraints.take k) c) ∧
      List.Forall₂ (fun k s => ∃ c, t.constraints[k]? = some c ∧ Warrants (t.constraints.take k) c s)
        ks (t.warnings.map (·.message))) ∧
    (Table.mk (t.constraints.filter fun c => c.first.isExact && c.second.isExact)).warnings =
      t.warnings := by
  constructor
  · refine ⟨t.warnedPlaces, ?_, fun k => mem_warnedPlaces_iff, forall₂_warrants t⟩
    exact List.pairwise_lt_range.filter _
  · simp only [← Constraint.isSome_exactPair]
    exact warningsFrom_filter [] t.constraints

/-- A contradiction asks for an order of its own, which can be repeated. -/
example : (Table.mk [.pair "one" "A" "B" "", .pair "two" "B" "A" "",
      .pair "three" "B" "A" ""]).warnings.map (·.message) =
    ["Rule 'two' contradicts rule 'one' (@B before @A)",
      "Rule 'three' repeats rule 'two' (@B before @A)"] := by
  decide +kernel

end Table

end AnnotationOrder.Rule
