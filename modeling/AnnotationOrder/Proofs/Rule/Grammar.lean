/-
  The grammar of configuration documents.

  A document is in the grammar when every part has its form, no rule has the name of
  another or of a built-in one, and every matcher either sets a criterion or asks to be a
  wildcard.  Such a document is a configuration, as long as the values that are taken as
  text can be written out: an integer can be too long for this, and a list nested too
  deeply.

  * `Matcher.InGrammar`, `Constraint.InGrammar`, `Config.InGrammar`: the grammar;
  * `Matcher.Reads`, `Constraint.Reads`, `Config.Reads`: what is read of each part;
  * `Matcher.ofEntries_eq_ok_iff`, `Constraint.ofEntries_eq_ok_iff`, `rulesOf_eq_ok_iff`,
    `ofDocument_eq_ok_iff`: reading succeeds on the grammar and gives this;
  * `Config.WritesOut`: the values that are taken as text;
  * `ofDocument_accepts_grammar`: the documents that are configurations.
-/
import AnnotationOrder.Proofs.Rule.Reading
import Mathlib.Algebra.Group.Int.Defs

namespace AnnotationOrder.Rule

open Document Text

variable {d : Document} {es : Entries}

/-! ## Matchers -/

namespace Matcher

/-- Some criterion is set. -/
def HasCriterion (es : Entries) : Prop :=
  (textAt? es "name").isSome = true ∨ (textAt? es "prefix").isSome = true ∨
    (textAt? es "suffix").isSome = true

/-- The matcher asks to be a wildcard. -/
def AsksForAny (es : Entries) : Prop := es.get? "any" = some (.atom (.bool true))

instance (es : Entries) : Decidable (AsksForAny es) := inferInstanceAs (Decidable (_ = _))

/-- The entries of a matcher. -/
structure InGrammar (d : Document) (es : Entries) : Prop where
  keys : HasKeys Matcher.keys es
  name : IsCriterion (es.get? "name")
  opening : IsCriterion (es.get? "prefix")
  ending : IsCriterion (es.get? "suffix")
  any : IsFlag (es.get? "any")
  criterion_xor_any : Xor (HasCriterion es) (AsksForAny es)
  exclude : IsExclusion d (es.get? "exclude")

/-- What a matcher takes from its entries: the criteria as they stand, and the texts of the excluded
    names.  It is a wildcard only if it asks to be one. -/
structure Reads (d : Document) (es : Entries) (m : Matcher) : Prop where
  name : textAt? es "name" = m.name
  opening : textAt? es "prefix" = m.opening
  ending : textAt? es "suffix" = m.ending
  wildcard : m.isWildcard = true ↔ AsksForAny es
  excluded : List.Forall₂ (fun v s => d.text v = .ok s) (exclusionItems d es) m.excluded

variable {m : Matcher}

/-- The two checks together ask for a criterion or for a wildcard. -/
theorem checks_iff {any : Bool} (hany : any = true ↔ AsksForAny es) :
    (¬ (!((textAt? es "name").isSome || (textAt? es "prefix").isSome ||
        (textAt? es "suffix").isSome) && !any) = true ∧
      ¬ (((textAt? es "name").isSome || (textAt? es "prefix").isSome ||
        (textAt? es "suffix").isSome) && any) = true) ↔ Xor (HasCriterion es) (AsksForAny es) := by
  have hsome : ((textAt? es "name").isSome || (textAt? es "prefix").isSome ||
      (textAt? es "suffix").isSome) = true ↔ HasCriterion es := by
    simp [HasCriterion, or_assoc]
  rw [← hsome, ← hany]
  generalize ((textAt? es "name").isSome || (textAt? es "prefix").isSome ||
    (textAt? es "suffix").isSome) = criterion
  cases criterion <;> cases any <;> simp [Xor]

/-- A matcher without criteria is a wildcard. -/
theorem isWildcard_iff_asksForAny (hxor : Xor (HasCriterion es) (AsksForAny es))
    (hname : textAt? es "name" = m.name) (hopening : textAt? es "prefix" = m.opening)
    (hending : textAt? es "suffix" = m.ending) : m.isWildcard = true ↔ AsksForAny es := by
  have hnot : m.isWildcard = true ↔ ¬ HasCriterion es := by
    simp [isWildcard, HasCriterion, hname, hopening, hending, and_assoc]
  rw [hnot]
  rcases hxor with ⟨hc, ha⟩ | ⟨ha, hc⟩
  · exact iff_of_false (not_not.2 hc) ha
  · exact iff_of_true hc ha

theorem ofEntries_eq_ok_iff : ofEntries d es = .ok m ↔ InGrammar d es ∧ Reads d es m := by
  unfold ofEntries
  simp only [guard_eq_ok_iff, bind_eq_ok_iff, criterion_eq_ok_iff, anyFlag_eq_ok_iff,
    exclusions_eq_ok_iff, Bool.not_eq_true', Bool.not_eq_false, List.isEmpty_iff,
    unknownKeys_eq_nil_iff]
  constructor
  · rintro ⟨hkeys, _, ⟨hname, rfl⟩, _, ⟨hopening, rfl⟩, _, ⟨hending, rfl⟩, any, ⟨hany, hflag⟩, hsome,
      hone, excluded, ⟨hex, htexts⟩, h⟩
    obtain rfl := Except.ok.inj h
    have hxor := (checks_iff hflag).1 ⟨hsome, hone⟩
    refine ⟨⟨hkeys, hname, hopening, hending, hany, hxor, hex⟩, ⟨rfl, rfl, rfl, ?_, htexts⟩⟩
    exact isWildcard_iff_asksForAny hxor rfl rfl rfl
  · rintro ⟨⟨hkeys, hname, hopening, hending, hany, hxor, hex⟩, hreads⟩
    obtain ⟨name, opening, ending, excluded⟩ := m
    obtain ⟨rfl, rfl, rfl, -, htexts⟩ := hreads
    have hflag : decide (AsksForAny es) = true ↔ AsksForAny es := decide_eq_true_iff
    obtain ⟨hsome, hone⟩ := (checks_iff hflag).2 hxor
    exact ⟨hkeys, _, ⟨hname, rfl⟩, _, ⟨hopening, rfl⟩, _, ⟨hending, rfl⟩, _, ⟨hany, hflag⟩, hsome,
      hone, _, ⟨hex, htexts⟩, rfl⟩

/-- A matcher of the grammar is read if its excluded names can be written out. -/
theorem exists_reads_iff (h : InGrammar d es) :
    (∃ m, Reads d es m) ↔ ∀ v ∈ exclusionItems d es, HasText d v := by
  rw [show (∀ v ∈ exclusionItems d es, HasText d v) ↔ _ from exists_forall₂_iff.symm]
  constructor
  · rintro ⟨m, hm⟩
    exact ⟨m.excluded, hm.excluded⟩
  · rintro ⟨ss, hss⟩
    refine ⟨⟨textAt? es "name", textAt? es "prefix", textAt? es "suffix", ss⟩, rfl, rfl, rfl, ?_, hss⟩
    exact isWildcard_iff_asksForAny h.criterion_xor_any rfl rfl rfl

end Matcher

/-! ## Rules -/

namespace Constraint

/-- The entries of a rule. -/
structure InGrammar (d : Document) (es : Entries) : Prop where
  name : ∃ s, textAt? es "name" = some s ∧ blank s = false
  keys : HasKeys Constraint.keys es
  side : ∀ s : Side, ∃ ms, entriesAt? d es s.key = some ms ∧ Matcher.InGrammar d ms

/-- The matcher of a side. -/
def matcher (c : Constraint) : Side → Matcher
  | .before => c.first
  | .after => c.second

/-- What a rule takes from its entries. -/
structure Reads (d : Document) (es : Entries) (c : Constraint) : Prop where
  name : textAt? es "name" = some c.name
  description : es.get? "description" = none ∧ c.description = "" ∨
    ∃ v, es.get? "description" = some v ∧ d.text v = .ok c.description
  side : ∀ s : Side, ∃ ms, entriesAt? d es s.key = some ms ∧ Matcher.Reads d ms (c.matcher s)

/-- The values of a rule that are taken as text. -/
inductive WritesOut (d : Document) (es : Entries) : Value → Prop
  | description {v} : es.get? "description" = some v → WritesOut d es v
  | excluded (s : Side) {ms v} : entriesAt? d es s.key = some ms → v ∈ exclusionItems d ms →
      WritesOut d es v

variable {c : Constraint} {name : String}

theorem ofEntries_eq_ok_iff (hname : nameIn? es = some name) :
    ofEntries d name es = .ok c ↔ InGrammar d es ∧ Reads d es c := by
  obtain ⟨hname, hblank⟩ := nameIn?_eq_some_iff.1 hname
  unfold ofEntries sideMatcher
  simp only [guard_eq_ok_iff, bind_eq_ok_iff, side_eq_ok_iff, descriptionIn_eq_ok_iff,
    mapError_eq_ok_iff, Matcher.ofEntries_eq_ok_iff, Bool.not_eq_true', Bool.not_eq_false,
    List.isEmpty_iff, unknownKeys_eq_nil_iff]
  constructor
  · rintro ⟨hkeys, before, hbefore, after, hafter, s, hs, first, ⟨hfirst, hrf⟩, second,
      ⟨hsecond, hrs⟩, h⟩
    obtain rfl := Except.ok.inj h
    refine ⟨⟨⟨name, hname, hblank⟩, hkeys, fun side => ?_⟩, ⟨hname, hs, fun side => ?_⟩⟩
    · cases side with
      | before => exact ⟨before, hbefore, hfirst⟩
      | after => exact ⟨after, hafter, hsecond⟩
    · cases side with
      | before => exact ⟨before, hbefore, hrf⟩
      | after => exact ⟨after, hafter, hrs⟩
  · rintro ⟨⟨-, hkeys, hside⟩, hreads⟩
    obtain ⟨before, hbefore, hfirst⟩ := hside .before
    obtain ⟨after, hafter, hsecond⟩ := hside .after
    obtain ⟨name', description, first, second⟩ := c
    obtain ⟨hname', hs, hreads⟩ := hreads
    obtain ⟨before', hbefore', hrf⟩ := hreads .before
    obtain ⟨after', hafter', hrs⟩ := hreads .after
    obtain rfl := Option.some.inj (hbefore.symm.trans hbefore')
    obtain rfl := Option.some.inj (hafter.symm.trans hafter')
    obtain rfl := Option.some.inj (hname.symm.trans hname')
    exact ⟨hkeys, before, hbefore, after, hafter, description, hs, first, ⟨hfirst, hrf⟩, second,
      ⟨hsecond, hrs⟩, rfl⟩

/-- A value that is a rule. -/
def IsRule (d : Document) (v : Value) (c : Constraint) : Prop :=
  ∃ es, d.entries? v = some es ∧ InGrammar d es ∧ Reads d es c

theorem ofValue_eq_ok_iff {index : Nat} {seen : List String} {v : Value} :
    ofValue d index seen v = .ok c ↔ IsRule d v c ∧ c.name ∉ seen := by
  unfold ofValue IsRule
  cases d.entries? v with
  | none => simp
  | some es =>
    simp only [Option.some.injEq, exists_eq_left']
    cases hname : nameIn? es with
    | none =>
      simp only [reduceCtorEq, false_iff, not_and]
      rintro ⟨hg, -⟩
      obtain ⟨s, hs⟩ := hg.name
      rw [nameIn?_eq_some_iff.2 hs] at hname
      cases hname
    | some name =>
      have hc : Reads d es c → c.name = name := fun h =>
        Option.some.inj (h.name.symm.trans (nameIn?_eq_some_iff.1 hname).1)
      simp only [List.contains_eq_mem, decide_eq_true_eq]
      split_ifs with hseen
      · simp only [false_iff, not_and, not_not]
        exact fun h => hc h.2 ▸ hseen
      · rw [ofEntries_eq_ok_iff hname]
        exact ⟨fun h => ⟨h, hc h.2 ▸ hseen⟩, And.left⟩

theorem nameOf?_of_isRule {v : Value} (h : IsRule d v c) : nameOf? d v = some c.name := by
  obtain ⟨es, hes, hg, hr⟩ := h
  obtain ⟨s, hs, hb⟩ := hg.name
  rw [nameOf?, hes, Option.bind_some, nameIn?_eq_some_iff]
  exact ⟨hr.name, by rwa [Option.some.inj (hr.name.symm.trans hs)]⟩

theorem seenAfter_of_isRule {v : Value} {seen : List String} (h : IsRule d v c)
    (hnew : c.name ∉ seen) : seenAfter d seen v = seen ++ [c.name] := by
  rw [seenAfter, nameOf?_of_isRule h]
  simp [hnew]

end Constraint

/-! ## Configurations -/

namespace Config

variable {c : Config} {cs : List Constraint} {vs : List Value}

/-- Values that are rules with distinct names, none of which was seen before. -/
structure AreRules (d : Document) (seen : List String) (vs : List Value) (cs : List Constraint) :
    Prop where
  rules : List.Forall₂ (Constraint.IsRule d) vs cs
  names_nodup : (cs.map (·.name)).Nodup
  names_new : ∀ c ∈ cs, c.name ∉ seen

theorem areRules_nil_iff {seen : List String} : AreRules d seen [] cs ↔ cs = [] := by
  constructor
  · rintro ⟨⟨⟩, -, -⟩
    rfl
  · rintro rfl
    exact ⟨.nil, List.nodup_nil, fun _ h => absurd h List.not_mem_nil⟩

/-- The name of a rule is seen by those behind it. -/
theorem areRules_cons_iff {seen : List String} {v : Value} : AreRules d seen (v :: vs) cs ↔
    ∃ c cs', Constraint.IsRule d v c ∧ c.name ∉ seen ∧ AreRules d (seen ++ [c.name]) vs cs' ∧
      cs = c :: cs' := by
  constructor
  · rintro ⟨hall, hnodup, hseen⟩
    obtain ⟨c, cs', hc, hcs, rfl⟩ := List.forall₂_cons_left_iff.1 hall
    rw [List.map_cons, List.nodup_cons, List.mem_map] at hnodup
    refine ⟨c, cs', hc, hseen c List.mem_cons_self, ⟨hcs, hnodup.2, fun c' hc' h => ?_⟩, rfl⟩
    rcases List.mem_append.1 h with h | h
    · exact hseen c' (List.mem_cons_of_mem _ hc') h
    · exact hnodup.1 ⟨c', hc', List.mem_singleton.1 h⟩
  · rintro ⟨c, cs', hc, hnew, ⟨hcs, hnodup, hseen⟩, rfl⟩
    refine ⟨.cons hc hcs, ?_, ?_⟩
    · rw [List.map_cons, List.nodup_cons, List.mem_map]
      refine ⟨?_, hnodup⟩
      rintro ⟨c', hc', heq⟩
      exact hseen c' hc' (by simp [heq])
    · rintro c' (_ | ⟨_, hc'⟩)
      · exact hnew
      · exact fun h => hseen c' hc' (List.mem_append_left _ h)

/-- Rules are read one after another. -/
theorem rulesOf_eq_ok_iff {index : Nat} {seen : List String} :
    rulesOf d index seen vs = .ok cs ↔ AreRules d seen vs cs := by
  induction vs generalizing index seen cs with
  | nil =>
    rw [areRules_nil_iff]
    exact ⟨fun h => (Except.ok.inj h).symm, fun h => by rw [h]; rfl⟩
  | cons v vs ih =>
    simp only [rulesOf, bind_eq_ok_iff, mapError_eq_ok_iff, Constraint.ofValue_eq_ok_iff, ih,
      areRules_cons_iff]
    constructor
    · rintro ⟨c, ⟨hc, hnew⟩, cs', hcs, h⟩
      rw [Constraint.seenAfter_of_isRule hc hnew] at hcs
      exact ⟨c, cs', hc, hnew, hcs, (Except.ok.inj h).symm⟩
    · rintro ⟨c, cs', hc, hnew, hcs, rfl⟩
      rw [← Constraint.seenAfter_of_isRule hc hnew] at hcs
      exact ⟨c, ⟨hc, hnew⟩, cs', hcs, rfl⟩

/-- The names of the rules of a document. -/
def ruleNames (d : Document) (es : Entries) : List String :=
  (itemsAt d es "rules").filterMap fun v => (d.entries? v).bind (textAt? · "name")

/-- The entries of a configuration. -/
structure InGrammar (d : Document) (es : Entries) : Prop where
  version : ∃ v, es.get? "version" = some v ∧ EqualsOne v
  rules : IsListOrNull d (es.get? "rules")
  exclude : IsListOrNull d (es.get? "exclude")
  defaults : IsFlag (es.get? "defaults")
  rule : ∀ v ∈ itemsAt d es "rules", ∃ res, d.entries? v = some res ∧ Constraint.InGrammar d res
  names_nodup : (ruleNames d es).Nodup
  names_new : ∀ n ∈ ruleNames d es, n ∉ Builtin.constraints.map (·.name)

/-- What a configuration takes from its entries. -/
structure Reads (d : Document) (es : Entries) (c : Config) : Prop where
  constraints : List.Forall₂ (fun v k => ∃ res, d.entries? v = some res ∧ Constraint.Reads d res k)
    (itemsAt d es "rules") c.constraints
  useDefaults : c.useDefaults = false ↔ es.get? "defaults" = some (.atom (.bool false))
  exclude : List.Forall₂ (fun v s => d.text v = .ok s) (itemsAt d es "exclude") c.exclude

/-- The values of a configuration that are taken as text. -/
inductive WritesOut (d : Document) (es : Entries) : Value → Prop
  | pattern {v} : v ∈ itemsAt d es "exclude" → WritesOut d es v
  | rule {r res v} : r ∈ itemsAt d es "rules" → d.entries? r = some res →
      Constraint.WritesOut d res v → WritesOut d es v

theorem ruleNames_eq (h : List.Forall₂ (Constraint.IsRule d) (itemsAt d es "rules") cs) :
    ruleNames d es = cs.map (·.name) := by
  unfold ruleNames
  generalize itemsAt d es "rules" = vs at h
  induction h with
  | nil => rfl
  | cons hc _ ih =>
    obtain ⟨res, hres, -, hr⟩ := hc
    rw [List.filterMap_cons, hres, Option.bind_some, hr.name, ih, List.map_cons]

/-- The rules are in the grammar, and this is what is read of them. -/
theorem forall₂_isRule_iff : List.Forall₂ (Constraint.IsRule d) vs cs ↔
    (∀ v ∈ vs, ∃ res, d.entries? v = some res ∧ Constraint.InGrammar d res) ∧
      List.Forall₂ (fun v k => ∃ res, d.entries? v = some res ∧ Constraint.Reads d res k) vs cs := by
  rw [← List.forall₂_and_left]
  constructor
  · intro h
    exact h.imp fun v k ⟨res, hres, hg, hr⟩ => ⟨⟨res, hres, hg⟩, res, hres, hr⟩
  · intro h
    refine h.imp fun v k ⟨⟨res, hres, hg⟩, res', hres', hr⟩ => ?_
    obtain rfl := Option.some.inj (hres.symm.trans hres')
    exact ⟨res, hres, hg, hr⟩

theorem ofDocument_eq_ok_iff :
    ofDocument d = .ok c ↔ ∃ es, d.entries? d.root = some es ∧ InGrammar d es ∧ Reads d es c := by
  unfold ofDocument
  cases d.entries? d.root with
  | none => simp
  | some es =>
    simp only [bind_eq_ok_iff, checkVersion_eq_ok_iff, listAt_eq_ok_iff, defaultsFlag_eq_ok_iff,
      rulesOf_eq_ok_iff, mapM_eq_ok_iff, textOr_eq_ok_iff, Option.some.injEq, exists_eq_left']
    constructor
    · rintro ⟨-, hversion, _, ⟨hrules, rfl⟩, _, ⟨hexclude, rfl⟩, useDefaults, ⟨hdefaults, hflag⟩,
        cs, ⟨hcs, hnodup, hnew⟩, exclude, htexts, h⟩
      obtain rfl := Except.ok.inj h
      obtain ⟨hrule, hreads⟩ := forall₂_isRule_iff.1 hcs
      rw [← ruleNames_eq hcs] at hnodup
      refine ⟨⟨hversion, hrules, hexclude, hdefaults, hrule, hnodup, ?_⟩, hreads, hflag, htexts⟩
      rw [ruleNames_eq hcs, List.forall_mem_map]
      exact hnew
    · rintro ⟨⟨hversion, hrules, hexclude, hdefaults, hrule, hnodup, hnew⟩, hreads, hflag, htexts⟩
      have hcs := forall₂_isRule_iff.2 ⟨hrule, hreads⟩
      rw [ruleNames_eq hcs] at hnodup hnew
      rw [List.forall_mem_map] at hnew
      exact ⟨(), hversion, _, ⟨hrules, rfl⟩, _, ⟨hexclude, rfl⟩, c.useDefaults, ⟨hdefaults, hflag⟩,
        c.constraints, ⟨hcs, hnodup, hnew⟩, c.exclude, htexts, rfl⟩

end Config

/-! ## What can be read -/

/-- A rule of the grammar is read if its description and its excluded names can be written out. -/
theorem Constraint.exists_reads_iff (h : Constraint.InGrammar d es) :
    (∃ c, Constraint.Reads d es c) ↔ ∀ v, Constraint.WritesOut d es v → HasText d v := by
  constructor
  · rintro ⟨c, hc⟩ v hv
    cases hv with
    | description hv =>
      rcases hc.description with ⟨hnone, -⟩ | ⟨w, hw, ht⟩
      · rw [hnone] at hv
        cases hv
      · obtain rfl := Option.some.inj (hw.symm.trans hv)
        exact ⟨_, ht⟩
    | excluded s hms hv =>
      obtain ⟨ms', hms', hr⟩ := hc.side s
      obtain rfl := Option.some.inj (hms'.symm.trans hms)
      exact exists_forall₂_iff.1 ⟨_, hr.excluded⟩ _ hv
  · intro hw
    obtain ⟨name, hname, -⟩ := h.name
    have hside : ∀ s : Side, ∃ m, ∃ ms, entriesAt? d es s.key = some ms ∧ Matcher.Reads d ms m := by
      intro s
      obtain ⟨ms, hms, hg⟩ := h.side s
      obtain ⟨m, hm⟩ := (Matcher.exists_reads_iff hg).2 fun v hv => hw v (.excluded s hms hv)
      exact ⟨m, ms, hms, hm⟩
    have hdescription : ∃ text, es.get? "description" = none ∧ text = "" ∨
        ∃ v, es.get? "description" = some v ∧ d.text v = .ok text := by
      cases hv : es.get? "description" with
      | none => exact ⟨"", Or.inl ⟨rfl, rfl⟩⟩
      | some v =>
        obtain ⟨text, ht⟩ := hw v (.description hv)
        exact ⟨text, Or.inr ⟨v, rfl, ht⟩⟩
    obtain ⟨first, hfirst⟩ := hside .before
    obtain ⟨second, hsecond⟩ := hside .after
    obtain ⟨text, htext⟩ := hdescription
    refine ⟨⟨name, text, first, second⟩, hname, htext, fun s => ?_⟩
    cases s with
    | before => exact hfirst
    | after => exact hsecond

/-- A document of the grammar is read if all values that are taken as text can be written out. -/
theorem Config.exists_reads_iff (h : Config.InGrammar d es) :
    (∃ c, Config.Reads d es c) ↔ ∀ v, Config.WritesOut d es v → HasText d v := by
  constructor
  · rintro ⟨c, hc⟩ v hv
    cases hv with
    | pattern hv => exact exists_forall₂_iff.1 ⟨_, hc.exclude⟩ _ hv
    | rule hr hres hv =>
      obtain ⟨k, res', hres', hk⟩ := exists_forall₂_iff.1 ⟨_, hc.constraints⟩ _ hr
      obtain rfl := Option.some.inj (hres'.symm.trans hres)
      obtain ⟨res', hres', hg⟩ := h.rule _ hr
      obtain rfl := Option.some.inj (hres'.symm.trans hres)
      exact (Constraint.exists_reads_iff hg).1 ⟨k, hk⟩ _ hv
  · intro hw
    have hrules : ∃ cs, List.Forall₂ (fun v k => ∃ res, d.entries? v = some res ∧
        Constraint.Reads d res k) (itemsAt d es "rules") cs := by
      refine exists_forall₂_iff.2 fun v hv => ?_
      obtain ⟨res, hres, hg⟩ := h.rule v hv
      obtain ⟨k, hk⟩ := (Constraint.exists_reads_iff hg).2 fun w hw' => hw w (.rule hv hres hw')
      exact ⟨k, res, hres, hk⟩
    obtain ⟨cs, hcs⟩ := hrules
    obtain ⟨ss, hss⟩ := exists_forall₂_iff.2 fun v hv => hw v (.pattern hv)
    refine ⟨⟨cs, !decide (es.get? "defaults" = some (.atom (.bool false))), ss⟩, hcs, ?_, hss⟩
    simp

/-! ## Configurations and the grammar -/

/-- The names of a table with custom rules are distinct. -/
theorem Config.nodup_names_table {c : Config} (h : Config.ofDocument d = .ok c) :
    (c.table.constraints.map (·.name)).Nodup := by
  obtain ⟨es, -, hg, hr⟩ := Config.ofDocument_eq_ok_iff.1 h
  have hcs := Config.forall₂_isRule_iff.2 ⟨hg.rule, hr.constraints⟩
  have hnames := Config.ruleNames_eq hcs
  have hnew := hg.names_new
  have hnodup := hg.names_nodup
  rw [hnames] at hnew hnodup
  have hbuiltin : (Builtin.constraints.map (·.name)).Nodup := by decide +kernel
  rw [Config.table, Table.override, List.map_append]
  split_ifs with hd
  · exact List.nodup_append.2 ⟨hnodup, hbuiltin, fun n hn m hm h => hnew n hn (h ▸ hm)⟩
  · simpa using hnodup

/-- **The documents that are configurations** are those of the grammar with values that can be written
    out where they are taken as text.  The configuration has the rules in their order, each with its
    criteria as they stand, and no two rules of its table have the same name. -/
theorem ofDocument_accepts_grammar (d : Document) :
    ((∃ c, Config.ofDocument d = .ok c) ↔ ∃ es, d.entries? d.root = some es ∧
      Config.InGrammar d es ∧ ∀ v, Config.WritesOut d es v → HasText d v) ∧
    ∀ c, Config.ofDocument d = .ok c → (∃ es, d.entries? d.root = some es ∧ Config.Reads d es c) ∧
      (c.table.constraints.map (·.name)).Nodup := by
  constructor
  · simp only [Config.ofDocument_eq_ok_iff]
    constructor
    · rintro ⟨c, es, hes, hg, hr⟩
      exact ⟨es, hes, hg, (Config.exists_reads_iff hg).1 ⟨c, hr⟩⟩
    · rintro ⟨es, hes, hg, hw⟩
      obtain ⟨c, hr⟩ := (Config.exists_reads_iff hg).2 hw
      exact ⟨c, es, hes, hg, hr⟩
  · intro c hc
    obtain ⟨es, hes, -, hr⟩ := Config.ofDocument_eq_ok_iff.1 hc
    exact ⟨⟨es, hes, hr⟩, Config.nodup_names_table hc⟩

/-- A configuration with one rule: all names but `Res` stand before those that end in it. -/
def anyBeforeResources : Document where
  root := .collection 0
  collections := #[
    .mapping [(.text "version", .atom (.bool true)), (.text "rules", .collection 1)],
    .list [.collection 2],
    .mapping [(.text "name", .atom (.text "any-res")), (.text "before", .collection 3),
      (.text "after", .collection 4)],
    .mapping [(.text "any", .atom (.bool true)), (.text "exclude", .atom (.text "Res"))],
    .mapping [(.text "suffix", .atom (.text "Res")), (.text "prefix", .atom .null)]]

theorem ofDocument_accepts_anyBeforeResources : ∃ c : Config,
    Config.ofDocument anyBeforeResources = .ok c ∧
    c.constraints = [⟨"any-res", "", ⟨none, none, none, ["Res"]⟩, ⟨none, none, some "Res", []⟩⟩] ∧
    (∃ es, anyBeforeResources.entries? anyBeforeResources.root = some es ∧
      Config.Reads anyBeforeResources es c) ∧ (c.table.constraints.map (·.name)).Nodup := by
  have hc : Config.ofDocument anyBeforeResources = .ok { constraints :=
      [⟨"any-res", "", ⟨none, none, none, ["Res"]⟩, ⟨none, none, some "Res", []⟩⟩] } := rfl
  exact ⟨_, hc, rfl, (ofDocument_accepts_grammar anyBeforeResources).2 _ hc⟩

/-- A configuration that excludes an integer with too many digits to be written out. -/
def oversizedExclusion : Document where
  root := .collection 0
  collections := #[
    .mapping [(.text "version", .atom (.int 1)), (.text "exclude", .collection 1)],
    .list [.atom (.int (16 ^ 3600))]]

/-- The grammar alone does not say which documents are configurations. -/
theorem ofDocument_oversizedExclusion :
    ¬ ((∃ c, Config.ofDocument oversizedExclusion = .ok c) ↔
      ∃ es, oversizedExclusion.entries? oversizedExclusion.root = some es ∧
        Config.InGrammar oversizedExclusion es) := by
  intro h
  -- the grammar only asks for a list; what its items are written as shows when they are read
  have hgrammar : Config.InGrammar oversizedExclusion
      [(.text "version", .atom (.int 1)), (.text "exclude", .collection 1)] :=
    { version := ⟨_, rfl, .int⟩
      rules := .absent
      exclude := .list rfl
      defaults := .absent
      rule := fun v hv => absurd hv List.not_mem_nil
      names_nodup := List.nodup_nil
      names_new := fun n hn => absurd hn List.not_mem_nil }
  obtain ⟨c, hc⟩ := h.2 ⟨_, rfl, hgrammar⟩
  have hfault : (Config.ofDocument oversizedExclusion).isOk = false := by decide +kernel
  rw [hc] at hfault
  cases hfault

end AnnotationOrder.Rule
