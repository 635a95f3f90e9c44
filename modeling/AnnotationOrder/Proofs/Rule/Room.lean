/-
  Rules, with more room or less.

  The text of a value is asked for where rules are read, and it may be nested more deeply than
  there is room for.  With other room, a document is read in the same way, or its reading breaks
  off for that reason.

  * `Document.alike_text`: the text of a value;
  * `Config.alike_ofDocument`: the configuration of a document;
  * `Lint.Rules.alike_ofFile`: the rules of a file, in two settings.
-/
import AnnotationOrder.Lint.Rules
import AnnotationOrder.Proofs.Yaml.Room

namespace AnnotationOrder

variable (d : Document) (room : Nat)

/-! ## Texts -/

namespace Document

/-- The fault of a value without enough room for its text. -/
def TextError.IsDeep (e : TextError) : Prop := e = .tooDeep

theorem alike_shownBy {f g : Value → Except TextError String}
    (h : ∀ v, Alike TextError.IsDeep (f v) (g v)) (c : Collection) :
    Alike TextError.IsDeep (c.shownBy f) (c.shownBy g) := by
  cases c with
  | list items => exact (Alike.mapM h items).bind fun _ => .refl _
  | pair a b => exact (h a).bind fun _ => (h b).bind fun _ => .refl _
  | mapping entries =>
    refine (Alike.mapM (fun e => ?_) entries).bind fun _ => .refl _
    exact (h _).bind fun _ => (h _).bind fun _ => .refl _
  | set members =>
    cases members with
    | nil => exact .refl _
    | cons a as => exact (Alike.mapM (fun a => h _) (a :: as)).bind fun _ => .refl _

theorem alike_shownInside (m n : Nat) (around : List Nat) (v : Value) :
    Alike TextError.IsDeep (d.shownInside m around v)
      ({ d with room := room }.shownInside n around v) := by
  induction m generalizing n around v with
  | zero => exact .inl ⟨_, by rw [shownInside], rfl⟩
  | succ m ih =>
    cases n with
    | zero => exact .inr (.inl ⟨_, by rw [shownInside], rfl⟩)
    | succ n =>
      cases v with
      | atom a =>
        rw [shownInside, shownInside]
        exact .refl _
      | collection place =>
        rw [shownInside, shownInside]
        simp only
        split_ifs
        · exact .refl _
        · exact alike_shownBy (fun v => ih n _ v) _

/-- A value has the same text with other room, or there is not enough of it. -/
theorem alike_text (v : Value) :
    Alike TextError.IsDeep (d.text v) ({ d with room := room }.text v) := by
  cases v with
  | atom a => exact .refl _
  | collection place => exact alike_shownInside d room _ _ _ _

end Document

namespace Rule

open Document

/-! ## Matchers -/

theorem alike_textOr {ε : Type} {P : ε → Prop} (fault : TextError → ε)
    (h : ∀ e, e.IsDeep → P (fault e)) (v : Value) :
    Alike P (textOr fault d v) (textOr fault { d with room := room } v) :=
  (alike_text d room v).mapError fault h

/-- The fault of a matcher without enough room for a text in it. -/
def MatcherError.IsDeep : MatcherError → Prop
  | unwritable e => e.IsDeep
  | _ => False

theorem Matcher.alike_exclusions (es : Entries) : Alike MatcherError.IsDeep (exclusions d es)
    (exclusions { d with room := room } es) := by
  unfold exclusions
  split
  · exact .refl _
  · exact .refl _
  · rename_i v _ _
    have hitems : items? { d with room := room } v = d.items? v := rfl
    rw [hitems]
    cases d.items? v with
    | none => exact .refl _
    | some items => exact .mapM (alike_textOr d room MatcherError.unwritable fun _ he => he) items

theorem Matcher.alike_ofEntries (es : Entries) : Alike MatcherError.IsDeep (ofEntries d es)
    (ofEntries { d with room := room } es) := by
  unfold ofEntries
  refine .ite (.of_eq rfl) (.bind (.refl _) fun _ => .bind (.refl _) fun _ => .bind (.refl _) fun _ =>
    .bind (.refl _) fun _ => .ite (.of_eq rfl) (.ite (.of_eq rfl) ?_))
  exact (alike_exclusions d room es).bind fun _ => .refl _

/-! ## Rules -/

theorem MatcherError.message_of_isDeep {context : String} {e : MatcherError} (h : e.IsDeep) :
    e.message context = none := by
  cases e with
  | unwritable e =>
    obtain rfl : e = .tooDeep := h
    rfl
  | _ => cases h

/-- The fault of a rule without enough room for a text in it. -/
def RuleError.IsDeep : RuleError → Prop
  | matcher _ _ e => e.IsDeep
  | unwritable e => e.IsDeep
  | _ => False

theorem RuleError.message_of_isDeep {e : RuleError} (h : e.IsDeep) : e.message = none := by
  cases e with
  | matcher rule side e => exact MatcherError.message_of_isDeep h
  | unwritable e =>
    obtain rfl : e = .tooDeep := h
    rfl
  | _ => cases h

namespace Constraint

theorem alike_descriptionIn (es : Entries) : Alike RuleError.IsDeep (descriptionIn d es)
    (descriptionIn { d with room := room } es) := by
  unfold descriptionIn
  split
  · exact .refl _
  · exact alike_textOr d room RuleError.unwritable (fun _ he => he) _

theorem alike_sideMatcher (rule : String) (s : Side) (es : Entries) :
    Alike RuleError.IsDeep (sideMatcher d rule s es)
      (sideMatcher { d with room := room } rule s es) :=
  (Matcher.alike_ofEntries d room es).mapError (RuleError.matcher rule s) fun _ he => he

theorem alike_ofEntries (name : String) (es : Entries) : Alike RuleError.IsDeep (ofEntries d name es)
    (ofEntries { d with room := room } name es) := by
  unfold ofEntries
  refine .ite (.of_eq rfl) (.bind (.refl _) fun before => .bind (.refl _) fun after => ?_)
  refine (alike_descriptionIn d room es).bind fun _ => ?_
  refine (alike_sideMatcher d room name .before before).bind fun _ => ?_
  exact (alike_sideMatcher d room name .after after).bind fun _ => .refl _

theorem alike_ofValue (index : Nat) (seen : List String) (v : Value) :
    Alike RuleError.IsDeep (ofValue d index seen v)
      (ofValue { d with room := room } index seen v) := by
  have hentries : entries? { d with room := room } v = d.entries? v := rfl
  unfold ofValue
  rw [hentries]
  cases d.entries? v with
  | none => exact .refl _
  | some es =>
    simp only
    cases nameIn? es with
    | none => exact .refl _
    | some name => exact .ite (.refl _) (alike_ofEntries d room name es)

end Constraint

/-! ## Configurations -/

/-- The fault of a configuration without enough room for a text in it. -/
def ConfigError.IsDeep : ConfigError → Prop
  | unsupportedVersion (.error e) => e.IsDeep
  | rule e => e.IsDeep
  | unwritable e => e.IsDeep
  | _ => False

theorem ConfigError.message_of_isDeep {file : String} {e : ConfigError} (h : e.IsDeep) :
    e.message file = none := by
  cases e with
  | unsupportedVersion text =>
    cases text with
    | ok text => cases h
    | error e =>
      obtain rfl : e = .tooDeep := h
      rfl
  | rule e => exact RuleError.message_of_isDeep h
  | unwritable e =>
    obtain rfl : e = .tooDeep := h
    rfl
  | _ => cases h

namespace Config

/-- The text of the version is asked for only to tell that it is not supported. -/
theorem alike_unsupported (v : Value) : Alike (α := Unit) ConfigError.IsDeep
    (.error (.unsupportedVersion (d.text v)))
    (.error (.unsupportedVersion ({ d with room := room }.text v))) := by
  obtain ⟨e, he, hdeep⟩ | ⟨e, he, hdeep⟩ | heq := alike_text d room v
  · exact .inl ⟨_, rfl, by rw [he]; exact hdeep⟩
  · exact .inr (.inl ⟨_, rfl, by rw [he]; exact hdeep⟩)
  · rw [heq]
    exact .refl _

theorem alike_checkVersion (es : Entries) : Alike ConfigError.IsDeep (checkVersion d es)
    (checkVersion { d with room := room } es) := by
  unfold checkVersion
  split
  · exact .refl _
  · exact .refl _
  · exact .ite (.refl _) (alike_unsupported d room _)
  · rename_i v _ _ _
    have hcollection : collection? { d with room := room } v = d.collection? v := rfl
    rw [hcollection]
    split
    · exact alike_unsupported d room v
    · exact .refl _

theorem alike_rulesOf (index : Nat) (seen : List String) (vs : List Value) :
    Alike ConfigError.IsDeep (rulesOf d index seen vs)
      (rulesOf { d with room := room } index seen vs) := by
  induction vs generalizing index seen with
  | nil => exact .refl _
  | cons v vs ih =>
    rw [rulesOf, rulesOf]
    have hrule : Alike ConfigError.IsDeep _ _ :=
      (Constraint.alike_ofValue d room index seen v).mapError ConfigError.rule fun _ he => he
    exact hrule.bind fun _ => (ih _ _).bind fun _ => .refl _

/-- A document is read in the same way with other room, or there is not enough of it. -/
theorem alike_ofDocument :
    Alike ConfigError.IsDeep (ofDocument d) (ofDocument { d with room := room }) := by
  have hentries : entries? { d with room := room } d.root = d.entries? d.root := rfl
  unfold ofDocument
  rw [hentries]
  cases d.entries? d.root with
  | none => exact .refl _
  | some es =>
    refine (alike_checkVersion d room es).bind fun _ => .bind (.refl _) fun rules => ?_
    refine .bind (.refl _) fun patterns => .bind (.refl _) fun _ => ?_
    refine (alike_rulesOf d room _ _ rules).bind fun _ => ?_
    have hpatterns : Alike ConfigError.IsDeep _ _ :=
      .mapM (alike_textOr d room ConfigError.unwritable fun _ he => he) patterns
    exact hpatterns.bind fun _ => .refl _

end Config

end Rule

namespace Lint

open Project Rule

/-! ## Files -/

/-- The fault of a file that is nested more deeply than there is room for. -/
def RulesFault.IsDeep : RulesFault → Prop
  | load e => Yaml.Graph.IsDeep e
  | config e => e.IsDeep

/-- A fault for want of room has no text. -/
theorem message_of_isDeep {file : String} {e : RulesFault} (h : e.IsDeep) :
    e.message file = none := by
  cases e with
  | load e =>
    obtain rfl : e = .tooDeep := h
    rfl
  | config e => exact ConfigError.message_of_isDeep h

theorem mapError_map {ε ε' α β : Type} (x : Except ε α) (f : ε → ε') (g : α → β) :
    (x.map g).mapError f = (x.mapError f).map g := by
  cases x <;> rfl

theorem alike_configOfBytes {s t : Yaml.Setting} (h : s.setOrder = t.setOrder) (bytes : List UInt8) :
    Alike RulesFault.IsDeep (configOfBytes s bytes) (configOfBytes t bytes) := by
  have hload : Alike RulesFault.IsDeep _ _ :=
    (Yaml.alike_loadBytes h bytes).mapError RulesFault.load fun _ he => he
  rw [mapError_map] at hload
  refine hload.bind_of_map fun d => ?_
  exact (Config.alike_ofDocument d t.showing).mapError RulesFault.config fun _ he => he

/-- The rules of a file are the same in two settings, unless there is not enough room in one of
    them. -/
theorem Rules.alike_ofFile (w : Workspace) {s t : Yaml.Setting} (h : s.setOrder = t.setOrder)
    (path : Path) : Alike RulesFault.IsDeep (Rules.ofFile { w with setting := s } path)
      (Rules.ofFile { w with setting := t } path) := by
  have hfile : Workspace.file? { w with setting := s } path =
      Workspace.file? { w with setting := t } path := rfl
  unfold ofFile
  rw [hfile]
  split
  · exact .refl _
  · exact (alike_configOfBytes h _).map _

end Lint

end AnnotationOrder
