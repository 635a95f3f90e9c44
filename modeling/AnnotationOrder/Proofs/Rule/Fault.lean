/-
  Faults that are not told.

  Nearly all faults of a configuration document have a text.  Three have none, and they
  arise where a value is used before its kind is known: a version is looked up, unknown
  keys are put in order, a value is written out.  A document derails if reading it ends
  with such a fault; the parts in front of the one at fault are in order then.

  * `Untold`: a step ends without a text, with one lemma for each way of putting steps
    together;
  * `Clash`: keys without a common order; `Sinks`: values of which the first that has no
    text is nested too deeply; `IsUnsearchable`: no value to look for among versions;
  * `Matcher.Derails`, `Constraint.Derails`, `Config.Derails`: where reading ends without
    a text;
  * `Config.untold_ofDocument_iff`: reading ends so just on the documents that derail, and
    `Config.told_iff_not_derails`: on all others it ends with a configuration or a text.
-/
import AnnotationOrder.Proofs.Rule.Grammar

namespace AnnotationOrder.Rule

open Document Text

/-! ## Steps that end without a text -/

/-- A step ends with a fault that has no text. -/
def Untold {ε α : Type} (message : ε → Option String) (x : Except ε α) : Prop :=
  ∃ e, x = .error e ∧ message e = none

section
variable {ε φ α β : Type} {message : ε → Option String} {x : Except ε α} {f : α → Except ε β}

theorem untold_error_iff {e : ε} : Untold message (.error e : Except ε α) ↔ message e = none := by
  simp [Untold]

theorem not_untold_ok {a : α} : ¬ Untold message (.ok a) := by
  simp [Untold]

theorem not_untold_pure {a : α} : ¬ Untold message (pure a : Except ε α) := not_untold_ok

theorem untold_bind_iff :
    Untold message (x >>= f) ↔ Untold message x ∨ ∃ a, x = .ok a ∧ Untold message (f a) := by
  cases x <;> simp [Untold, bind, Except.bind]

theorem untold_guard_iff {p : Prop} [Decidable p] {e : ε} {k : β → Except ε α} :
    Untold message (if p then throw e >>= k else x) ↔
      p ∧ message e = none ∨ ¬ p ∧ Untold message x := by
  split_ifs with h <;> simp [Untold, h, bind, Except.bind, throw, throwThe, MonadExceptOf.throw]

theorem untold_mapError_iff {message : φ → Option String} {g : ε → φ} :
    Untold message (x.mapError g) ↔ Untold (fun e => message (g e)) x := by
  cases x <;> simp [Untold, Except.mapError]

/-- Of several steps, the first that fails is untold. -/
theorem untold_mapM_iff {l : List α} : Untold message (l.mapM f) ↔
    ∃ before a behind, l = before ++ a :: behind ∧ (∀ b ∈ before, ∃ c, f b = .ok c) ∧
      Untold message (f a) := by
  induction l with
  | nil => simp [Untold, pure, Except.pure]
  | cons a l ih =>
    rw [List.mapM_cons]
    simp only [untold_bind_iff, ih]
    constructor
    · rintro (h | ⟨c, hc, ⟨before, b, behind, rfl, hok, hb⟩ | ⟨_, -, h⟩⟩)
      · exact ⟨[], a, l, rfl, by simp, h⟩
      · exact ⟨a :: before, b, behind, rfl, List.forall_mem_cons.2 ⟨⟨c, hc⟩, hok⟩, hb⟩
      · exact absurd h not_untold_ok
    · rintro ⟨before, b, behind, h, hok, hb⟩
      cases before with
      | nil =>
        obtain ⟨rfl, -⟩ := List.cons.inj h
        exact Or.inl hb
      | cons a' before =>
        obtain ⟨rfl, rfl⟩ := List.cons.inj h
        obtain ⟨⟨c, hc⟩, hok⟩ := List.forall_mem_cons.1 hok
        exact Or.inr ⟨c, hc, Or.inl ⟨before, b, behind, rfl, hok, hb⟩⟩

end

variable {d : Document} {es : Entries} {key file : String} {v : Value}

/-! ## Keys without an order -/

/-- Two of several keys have no common order. -/
def Clash (ks : List Atom) : Prop := 2 ≤ ks.length ∧ ∃ a ∈ ks, ∃ b ∈ ks, a.lt? b = none

theorem sort?_eq_none_iff {ks : List Atom} : Atom.sort? ks = none ↔ Clash ks := by
  unfold Atom.sort? Clash
  split_ifs with h
  · simp only [Bool.or_eq_true, decide_eq_true_eq, List.all_eq_true, Option.isSome_iff_ne_none] at h
    simp only [false_iff, not_and, not_exists]
    intro hlen a ha b hb hab
    rcases h with h | h
    · omega
    · exact h a ha b hb hab
  · simp only [Bool.or_eq_true, decide_eq_true_eq, List.all_eq_true, not_or, Nat.not_lt, not_forall,
      Bool.not_eq_true, Option.isSome_eq_false_iff, Option.isNone_iff_eq_none] at h
    obtain ⟨hlen, a, ha, b, hb, hab⟩ := h
    exact iff_of_true rfl ⟨hlen, a, ha, b, hb, hab⟩

theorem unknownKeysText_eq_none_iff {words : String} {ks : List Atom} :
    unknownKeysText words ks = none ↔ Clash ks := by
  rw [unknownKeysText, Option.map_eq_none_iff, sort?_eq_none_iff]

/-- A check for unknown keys in front of a step. -/
theorem clash_or_iff {known : List String} {p : Prop} :
    ((unknownKeys known es ≠ [] ∧ Clash (unknownKeys known es)) ∨ (unknownKeys known es = [] ∧ p)) ↔
      Clash (unknownKeys known es) ∨ HasKeys known es ∧ p := by
  have hne : Clash (unknownKeys known es) → unknownKeys known es ≠ [] := by
    rintro h hnil
    simp [hnil, Clash] at h
  rw [← unknownKeys_eq_nil_iff, and_iff_right_of_imp hne]

/-! ## Values nested too deeply -/

theorem message_textError_eq_none_iff {e : TextError} : e.message = none ↔ e = .tooDeep := by
  cases e <;> simp [TextError.message]

theorem untold_text_iff : Untold TextError.message (d.text v) ↔ d.text v = .error .tooDeep := by
  simp [Untold, message_textError_eq_none_iff]

/-- The first of the values that has no text is nested too deeply. -/
def Sinks (d : Document) (vs : List Value) : Prop :=
  ∃ before v behind, vs = before ++ v :: behind ∧ (∀ u ∈ before, HasText d u) ∧
    d.text v = .error .tooDeep

/-- Values are written out one after another. -/
theorem untold_mapM_textOr_iff {ε : Type} (fault : TextError → ε) (message : ε → Option String)
    (hmessage : ∀ e, message (fault e) = e.message) {vs : List Value} :
    Untold message (vs.mapM (textOr fault d)) ↔ Sinks d vs := by
  simp only [untold_mapM_iff, textOr, mapError_eq_ok_iff, untold_mapError_iff, hmessage,
    untold_text_iff, Sinks, HasText]

/-! ## Truth values -/

theorem not_untold_flagAt {ε : Type} {message : ε → Option String} {absent : Bool} {fault : ε}
    (hfault : message fault ≠ none) : ¬ Untold message (flagAt es key absent fault) := by
  unfold flagAt
  split
  · exact not_untold_ok
  · exact not_untold_ok
  · rwa [untold_error_iff]

/-! ## Matchers -/

namespace Matcher

variable {context : String}

theorem not_untold_criterion : ¬ Untold (MatcherError.message context) (criterion es key) := by
  unfold criterion
  split
  · exact not_untold_ok
  · exact not_untold_ok
  · split_ifs
    · simp [untold_error_iff, MatcherError.message]
    · exact not_untold_ok
  · simp [untold_error_iff, MatcherError.message]

theorem not_untold_anyFlag : ¬ Untold (MatcherError.message context) (anyFlag es) :=
  not_untold_flagAt (by simp [MatcherError.message])

theorem untold_exclusions_iff : Untold (MatcherError.message context) (exclusions d es) ↔
    IsExclusion d (es.get? "exclude") ∧ Sinks d (exclusionItems d es) := by
  by_cases h : IsExclusion d (es.get? "exclude")
  · rw [exclusions_of_isExclusion h, and_iff_right h]
    exact untold_mapM_textOr_iff .unwritable (MatcherError.message context) fun _ => rfl
  · rw [exclusions_of_not_isExclusion h, untold_error_iff]
    simp [MatcherError.message, h]

/-- The entries of a matcher that derails: unknown keys clash, or there is a matcher but for excluded
    names that are nested too deeply. -/
inductive Derails (d : Document) (es : Entries) : Prop
  | keys : Clash (unknownKeys keys es) → Derails d es
  | exclude : InGrammar d es → Sinks d (exclusionItems d es) → Derails d es

theorem untold_ofEntries_iff :
    Untold (MatcherError.message context) (ofEntries d es) ↔ Derails d es := by
  unfold ofEntries
  simp only [untold_guard_iff, untold_bind_iff, not_untold_pure, not_untold_criterion,
    not_untold_anyFlag, untold_exclusions_iff, criterion_eq_ok_iff, anyFlag_eq_ok_iff,
    MatcherError.message, unknownKeysText_eq_none_iff, clash_or_iff, Bool.not_eq_true',
    List.isEmpty_eq_false_iff, not_not, ne_eq, reduceCtorEq, and_false, false_or, or_false,
    exists_false]
  constructor
  · rintro (hclash | ⟨hkeys, _, ⟨hname, rfl⟩, _, ⟨hopening, rfl⟩, _, ⟨hending, rfl⟩, any, ⟨hany, hflag⟩,
      hsome, hone, hex, hsinks⟩)
    · exact .keys hclash
    · have hxor := (checks_iff hflag).1 ⟨hsome, hone⟩
      exact .exclude ⟨hkeys, hname, hopening, hending, hany, hxor, hex⟩ hsinks
  · rintro (hclash | ⟨⟨hkeys, hname, hopening, hending, hany, hxor, hex⟩, hsinks⟩)
    · exact Or.inl hclash
    · have hflag : decide (AsksForAny es) = true ↔ AsksForAny es := decide_eq_true_iff
      obtain ⟨hsome, hone⟩ := (checks_iff hflag).2 hxor
      exact Or.inr ⟨hkeys, _, ⟨hname, rfl⟩, _, ⟨hopening, rfl⟩, _, ⟨hending, rfl⟩, _, ⟨hany, hflag⟩,
        hsome, hone, hex, hsinks⟩

end Matcher

/-! ## Rules -/

namespace Constraint

variable {name : String} {side : Side}

theorem not_untold_side : ¬ Untold RuleError.message (Constraint.side d name es side) := by
  unfold Constraint.side
  split
  · exact not_untold_ok
  · simp [untold_error_iff, RuleError.message]

theorem untold_descriptionIn_iff : Untold RuleError.message (descriptionIn d es) ↔
    ∃ v, es.get? "description" = some v ∧ d.text v = .error .tooDeep := by
  unfold descriptionIn
  cases es.get? "description" with
  | none => simp [not_untold_ok]
  | some v =>
    simp only [textOr, untold_mapError_iff, Option.some.injEq, exists_eq_left']
    exact untold_text_iff

theorem untold_sideMatcher_iff {ms : Entries} :
    Untold RuleError.message (sideMatcher d name side ms) ↔ Matcher.Derails d ms := by
  rw [sideMatcher, untold_mapError_iff]
  exact Matcher.untold_ofEntries_iff

/-- The description, if there is one, can be written out. -/
def HasDescription (d : Document) (es : Entries) : Prop :=
  ∀ v, es.get? "description" = some v → HasText d v

theorem exists_descriptionIn_iff : (∃ s, descriptionIn d es = .ok s) ↔ HasDescription d es := by
  simp only [descriptionIn_eq_ok_iff, HasDescription, HasText]
  cases es.get? "description" <;> simp

theorem exists_sideMatcher_iff {ms : Entries} : (∃ m, sideMatcher d name side ms = .ok m) ↔
    Matcher.InGrammar d ms ∧ ∀ v ∈ exclusionItems d ms, HasText d v := by
  simp only [sideMatcher, mapError_eq_ok_iff, Matcher.ofEntries_eq_ok_iff, exists_and_left]
  exact and_congr_right fun h => Matcher.exists_reads_iff h

/-- The keys of a rule are known, and there are entries for both sides. -/
structure Frames (d : Document) (es before after : Entries) : Prop where
  keys : HasKeys Constraint.keys es
  before : entriesAt? d es "before" = some before
  after : entriesAt? d es "after" = some after

/-- The entries of a rule that derails: unknown keys clash, the description is nested too deeply, or one
    of the matchers derails. -/
inductive Derails (d : Document) (es : Entries) : Prop
  | keys : Clash (unknownKeys keys es) → Derails d es
  | description {before after : Entries} {v : Value} : Frames d es before after →
      es.get? "description" = some v → d.text v = .error .tooDeep → Derails d es
  | before {before after : Entries} : Frames d es before after → HasDescription d es →
      Matcher.Derails d before → Derails d es
  | after {before after : Entries} : Frames d es before after → HasDescription d es →
      Matcher.InGrammar d before → (∀ v ∈ exclusionItems d before, HasText d v) →
      Matcher.Derails d after → Derails d es

theorem untold_ofEntries_iff : Untold RuleError.message (ofEntries d name es) ↔ Derails d es := by
  unfold ofEntries
  simp only [untold_guard_iff, untold_bind_iff, not_untold_pure, not_untold_side,
    untold_descriptionIn_iff, untold_sideMatcher_iff, side_eq_ok_iff, exists_and_right,
    exists_descriptionIn_iff, exists_sideMatcher_iff, RuleError.message, unknownKeysText_eq_none_iff,
    clash_or_iff, Bool.not_eq_true', List.isEmpty_eq_false_iff, not_not, ne_eq, false_or, and_false,
    or_false, exists_false]
  constructor
  · rintro (hclash | ⟨hkeys, before, hbefore, after, hafter, ⟨v, hv, hdeep⟩ | ⟨hdescription, h⟩⟩)
    · exact .keys hclash
    · exact .description ⟨hkeys, hbefore, hafter⟩ hv hdeep
    · rcases h with h | ⟨⟨hg, hw⟩, h⟩
      · exact .before ⟨hkeys, hbefore, hafter⟩ hdescription h
      · exact .after ⟨hkeys, hbefore, hafter⟩ hdescription hg hw h
  · rintro (hclash | ⟨⟨hkeys, hbefore, hafter⟩, hv, hdeep⟩ | ⟨⟨hkeys, hbefore, hafter⟩, hdescription, h⟩ |
      ⟨⟨hkeys, hbefore, hafter⟩, hdescription, hg, hw, h⟩)
    · exact Or.inl hclash
    · exact Or.inr ⟨hkeys, _, hbefore, _, hafter, Or.inl ⟨_, hv, hdeep⟩⟩
    · exact Or.inr ⟨hkeys, _, hbefore, _, hafter, Or.inr ⟨hdescription, Or.inl h⟩⟩
    · exact Or.inr ⟨hkeys, _, hbefore, _, hafter, Or.inr ⟨hdescription, Or.inr ⟨⟨hg, hw⟩, h⟩⟩⟩

/-- A value derails as a rule if its entries do, and its name is new. -/
def IsDerailed (d : Document) (seen : List String) (v : Value) : Prop :=
  ∃ es name, d.entries? v = some es ∧ nameIn? es = some name ∧ name ∉ seen ∧ Derails d es

theorem untold_ofValue_iff {index : Nat} {seen : List String} :
    Untold RuleError.message (ofValue d index seen v) ↔ IsDerailed d seen v := by
  unfold ofValue IsDerailed
  cases d.entries? v with
  | none => simp [untold_error_iff, RuleError.message]
  | some es =>
    cases hname : nameIn? es with
    | none => simp [untold_error_iff, RuleError.message, hname]
    | some name =>
      by_cases hseen : name ∈ seen
      · simp [untold_error_iff, RuleError.message, hname, hseen]
      · simp [untold_ofEntries_iff, hname, hseen]

end Constraint

/-! ## Configurations -/

namespace Config

theorem written_ne_tooDeep (s : Option String) : written s ≠ .error .tooDeep := by
  cases s <;> simp [written]

theorem text_atom_ne_tooDeep (d : Document) (a : Atom) : d.text (.atom a) ≠ .error .tooDeep :=
  written_ne_tooDeep _

/-- Nothing is nested in a set. -/
theorem text_set_ne_tooDeep {members : List Atom} (h : d.collection? v = some (.set members)) :
    d.text v ≠ .error .tooDeep := by
  cases v with
  | atom a => cases h
  | collection place =>
    have hc : d.collections[place]? = some (.set members) := h
    rw [ne_eq, ← untold_text_iff]
    simp only [text, shownInside, Array.getD_eq_getD_getElem?, hc, Option.getD_some,
      List.contains_nil, Bool.false_eq_true, if_false]
    cases members with
    | nil => exact not_untold_ok
    | cons a as =>
      -- the members are atoms, and there is room for one level more
      simp only [Collection.shownBy, untold_bind_iff, untold_mapM_iff, not_untold_pure, and_false,
        exists_false, or_false, not_exists, not_and]
      rintro before b behind - - ⟨e, he, hnone⟩
      rw [message_textError_eq_none_iff] at hnone
      exact written_ne_tooDeep _ (hnone ▸ he)

/-- A collection that is no set cannot be looked up among the versions. -/
def IsUnsearchable (d : Document) (v : Value) : Prop :=
  (∃ place, v = .collection place) ∧ ∀ members, d.collection? v ≠ some (.set members)

/-- The text of a version that is refused. -/
theorem message_unsupportedVersion_eq_none_iff :
    (ConfigError.unsupportedVersion (d.text v)).message file = none ↔ d.text v = .error .tooDeep := by
  cases d.text v with
  | ok s => simp [ConfigError.message]
  | error e => simp [ConfigError.message, message_textError_eq_none_iff]

theorem untold_checkVersion_iff : Untold (ConfigError.message file) (checkVersion d es) ↔
    ∃ v, es.get? "version" = some v ∧ IsUnsearchable d v := by
  unfold checkVersion
  generalize es.get? "version" = o
  split
  · simp [untold_error_iff, ConfigError.message]
  · simp [untold_error_iff, ConfigError.message, IsUnsearchable]
  · rename_i a hnull
    split_ifs
    · simp [not_untold_ok, IsUnsearchable]
    · simp [untold_error_iff, message_unsupportedVersion_eq_none_iff, text_atom_ne_tooDeep,
        IsUnsearchable]
  · rename_i v hnull hatom
    obtain ⟨place, rfl⟩ : ∃ place, v = .collection place := by
      cases v with
      | atom a => exact absurd rfl (hatom a)
      | collection place => exact ⟨place, rfl⟩
    split
    · rename_i members hset
      simp [untold_error_iff, message_unsupportedVersion_eq_none_iff, text_set_ne_tooDeep hset,
        IsUnsearchable, hset]
    · rename_i hset
      simp only [untold_error_iff, ConfigError.message, true_iff]
      exact ⟨_, rfl, ⟨place, rfl⟩, hset⟩

theorem not_untold_listAt {e : ConfigError} (he : e.message file ≠ none) :
    ¬ Untold (ConfigError.message file) (listAt d es key e) := by
  unfold listAt
  split
  · exact not_untold_ok
  · exact not_untold_ok
  · split
    · exact not_untold_ok
    · rwa [untold_error_iff]

theorem not_untold_defaultsFlag : ¬ Untold (ConfigError.message file) (defaultsFlag es) :=
  not_untold_flagAt (by simp [ConfigError.message])

/-- The first of the rules that cannot be read derails. -/
theorem untold_rulesOf_iff {index : Nat} {seen : List String} {vs : List Value} :
    Untold (ConfigError.message file) (rulesOf d index seen vs) ↔
      ∃ before r behind cs, vs = before ++ r :: behind ∧ AreRules d seen before cs ∧
        Constraint.IsDerailed d (seen ++ cs.map (·.name)) r := by
  -- each rule that is read adds its name to those seen, so the statement is for all of them
  induction vs generalizing index seen with
  | nil => simp [rulesOf, not_untold_ok]
  | cons v vs ih =>
    have hrule : Untold (ConfigError.message file)
        ((Constraint.ofValue d index seen v).mapError .rule) ↔ Constraint.IsDerailed d seen v :=
      untold_mapError_iff.trans Constraint.untold_ofValue_iff
    simp only [rulesOf, untold_bind_iff, hrule, mapError_eq_ok_iff, Constraint.ofValue_eq_ok_iff, ih,
      not_untold_pure, and_false, exists_false, or_false]
    constructor
    · rintro (h | ⟨c, ⟨hc, hnew⟩, before, r, behind, cs, rfl, hcs, hr⟩)
      · exact ⟨[], v, vs, [], rfl, areRules_nil_iff.2 rfl, by simpa using h⟩
      · rw [Constraint.seenAfter_of_isRule hc hnew] at hcs hr
        exact ⟨v :: before, r, behind, c :: cs, rfl, areRules_cons_iff.2 ⟨c, cs, hc, hnew, hcs, rfl⟩,
          by simpa using hr⟩
    · rintro ⟨before, r, behind, cs, h, hcs, hr⟩
      cases before with
      | nil =>
        obtain rfl := areRules_nil_iff.1 hcs
        obtain ⟨rfl, -⟩ := List.cons.inj h
        exact Or.inl (by simpa using hr)
      | cons v' before =>
        obtain ⟨rfl, rfl⟩ := List.cons.inj h
        obtain ⟨c, cs, hc, hnew, hbefore, rfl⟩ := areRules_cons_iff.1 hcs
        refine Or.inr ⟨c, ⟨hc, hnew⟩, before, r, behind, cs, rfl, ?_⟩
        rw [Constraint.seenAfter_of_isRule hc hnew]
        exact ⟨hbefore, by simpa using hr⟩

/-- The version is supported; rules, patterns and flag have their forms. -/
structure IsFramed (d : Document) (es : Entries) : Prop where
  version : ∃ v, es.get? "version" = some v ∧ EqualsOne v
  rules : IsListOrNull d (es.get? "rules")
  exclude : IsListOrNull d (es.get? "exclude")
  defaults : IsFlag (es.get? "defaults")

/-- A document that derails: its version cannot be looked up, a rule behind rules that can be read
    derails, or a pattern is nested too deeply. -/
inductive Derails (d : Document) : Prop
  | version {es : Entries} {v : Value} : d.entries? d.root = some es →
      es.get? "version" = some v → IsUnsearchable d v → Derails d
  | rule {es : Entries} {before behind : List Value} {r : Value} {cs : List Constraint} :
      d.entries? d.root = some es → IsFramed d es → itemsAt d es "rules" = before ++ r :: behind →
      AreRules d (Builtin.constraints.map (·.name)) before cs →
      Constraint.IsDerailed d (Builtin.constraints.map (·.name) ++ cs.map (·.name)) r → Derails d
  | exclude {es : Entries} {cs : List Constraint} : d.entries? d.root = some es → IsFramed d es →
      AreRules d (Builtin.constraints.map (·.name)) (itemsAt d es "rules") cs →
      Sinks d (itemsAt d es "exclude") → Derails d

theorem untold_ofDocument_iff :
    Untold (ConfigError.message file) (ofDocument d) ↔ Derails d := by
  unfold ofDocument
  cases hes : d.entries? d.root with
  | none =>
    simp only [untold_error_iff, ConfigError.message, reduceCtorEq, false_iff]
    rintro (⟨h, -, -⟩ | ⟨h, -, -, -, -⟩ | ⟨h, -, -, -⟩) <;> simp [hes] at h
  | some es =>
    have hwritten {vs : List Value} : Untold (ConfigError.message file) (vs.mapM (textOr .unwritable d)) ↔
        Sinks d vs := untold_mapM_textOr_iff .unwritable (ConfigError.message file) fun _ => rfl
    have hrules : ¬ Untold (ConfigError.message file) (listAt d es "rules" .rulesNotList) :=
      not_untold_listAt (by simp [ConfigError.message])
    have hpatterns : ¬ Untold (ConfigError.message file) (listAt d es "exclude" .excludeNotList) :=
      not_untold_listAt (by simp [ConfigError.message])
    -- the flag has no part in what follows it: only that it can be read counts
    have hflag : (∃ b, defaultsFlag es = .ok b) ↔ IsFlag (es.get? "defaults") := by
      simp only [defaultsFlag_eq_ok_iff, exists_and_left]
      exact and_iff_left ⟨!decide (es.get? "defaults" = some (.atom (.bool false))), by simp⟩
    simp only [untold_bind_iff, untold_checkVersion_iff, hrules, hpatterns, not_untold_defaultsFlag,
      untold_rulesOf_iff, hwritten, not_untold_pure, checkVersion_eq_ok_iff, listAt_eq_ok_iff,
      exists_and_right, hflag, rulesOf_eq_ok_iff, and_false, false_or, or_false, exists_false]
    constructor
    · rintro (⟨v, hv, hno⟩ | ⟨⟨-, hversion⟩, _, ⟨hrules, rfl⟩, _, ⟨hexclude, rfl⟩, hdefaults, h⟩)
      · exact .version hes hv hno
      · have hframed : IsFramed d es := ⟨hversion, hrules, hexclude, hdefaults⟩
        rcases h with ⟨before, r, behind, cs, hsplit, hcs, hr⟩ | ⟨⟨cs, hcs⟩, hsinks⟩
        · exact .rule hes hframed hsplit hcs hr
        · exact .exclude hes hframed hcs hsinks
    · rintro (⟨hes', hv, hno⟩ | ⟨hes', ⟨hversion, hrules, hexclude, hdefaults⟩, hsplit, hcs, hr⟩ |
        ⟨hes', ⟨hversion, hrules, hexclude, hdefaults⟩, hcs, hsinks⟩) <;>
        obtain rfl := Option.some.inj (hes.symm.trans hes')
      · exact Or.inl ⟨_, hv, hno⟩
      · exact Or.inr ⟨⟨(), hversion⟩, _, ⟨hrules, rfl⟩, _, ⟨hexclude, rfl⟩, hdefaults,
          Or.inl ⟨_, _, _, _, hsplit, hcs, hr⟩⟩
      · exact Or.inr ⟨⟨(), hversion⟩, _, ⟨hrules, rfl⟩, _, ⟨hexclude, rfl⟩, hdefaults,
          Or.inr ⟨⟨_, hcs⟩, hsinks⟩⟩

/-- Reading a document ends with a configuration or with a fault that is told, unless the document
    derails. -/
theorem told_iff_not_derails (file : String) : ((∃ c, ofDocument d = .ok c) ∨
    ∃ e m, ofDocument d = .error e ∧ e.message file = some m) ↔ ¬ Derails d := by
  have huntold : Untold (ConfigError.message file) (ofDocument d) ↔ Derails d := untold_ofDocument_iff
  rw [← huntold]
  cases h : ofDocument d with
  | ok c => simp [not_untold_ok]
  | error e => simp [untold_error_iff, ← Option.ne_none_iff_exists']

end Config

end AnnotationOrder.Rule
