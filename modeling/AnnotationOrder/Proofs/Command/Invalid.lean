/-
  Calls with invalid rules.

  A file with rules that follows the format holds a document.  If the document is no
  configuration, then a run ends with its fault.  Both subcommands tell it in one way and
  end with exit code 2, unless the fault has no text; then they break off.

  * `run_of_ok`, `run_of_error`: a run with the rules of a document;
  * `invalid`: the outcome of a subcommand whose rules are no configuration;
  * `Reaches`: the calls that come to a subcommand, with `call_of_reaches`;
  * `ends_told_iff_not_derails`: reading, runs and calls end with what they are for or with
    a text, unless the document derails.
-/
import AnnotationOrder.Command.Run
import AnnotationOrder.Proofs.Rule.Fault

namespace AnnotationOrder.Command

open Project Lint
open Rule (Config ConfigError)

variable {w : Workspace} {bytes : List UInt8} {d : Document} {c : Config} {e : ConfigError}

/-! ## Runs -/

section
variable {path : Path} {q : Request}

theorem ofFile_of_ok (hd : Yaml.loadBytes w.setting bytes = .ok d) (hw : w.file? path = some bytes)
    (hc : Config.ofDocument d = .ok c) : Rules.ofFile w path = .ok (.ofConfig path c) := by
  simp only [Rules.ofFile, hw, configOfBytes, hd]
  simp [Except.mapError, bind, Except.bind, hc, Except.map]

theorem ofFile_of_error (hd : Yaml.loadBytes w.setting bytes = .ok d) (hw : w.file? path = some bytes)
    (he : Config.ofDocument d = .error e) : Rules.ofFile w path = .error (.config e) := by
  simp only [Rules.ofFile, hw, configOfBytes, hd]
  simp [Except.mapError, bind, Except.bind, he, Except.map]

theorem run_of_ok (hd : Yaml.loadBytes w.setting bytes = .ok d)
    (hw : w.file? (Rules.pathFor q.project q.rules) = some bytes)
    (hc : Config.ofDocument d = .ok c) :
    run w q = .ok (runBy w q (.ofConfig (Rules.pathFor q.project q.rules) c)) := by
  simp [run, Request.loadRules, Workspace.isFile, hw, ofFile_of_ok hd hw hc, Except.map,
    Except.mapError]

theorem run_of_error (hd : Yaml.loadBytes w.setting bytes = .ok d)
    (hw : w.file? (Rules.pathFor q.project q.rules) = some bytes)
    (he : Config.ofDocument d = .error e) :
    run w q = .error (.rules (Rules.pathFor q.project q.rules) (.config e)) := by
  simp [run, Request.loadRules, Workspace.isFile, hw, ofFile_of_error hd hw he, Except.map,
    Except.mapError]

theorem message_rules_config : (Failure.rules path (.config e)).message =
    (e.message path.name).map ("Invalid rules configuration: " ++ ·) := by
  simp [Failure.message, RulesFault.message, RulesFault.isMalformed]

/-- A run ends with a report or with a text, unless the document derails. -/
theorem run_told_iff (hd : Yaml.loadBytes w.setting bytes = .ok d)
    (hw : w.file? (Rules.pathFor q.project q.rules) = some bytes) :
    ((∃ r, run w q = .ok r) ∨ ∃ f m, run w q = .error f ∧ f.message = some m) ↔
      ¬ Config.Derails d := by
  rw [← Config.told_iff_not_derails (Rules.pathFor q.project q.rules).name]
  cases h : Config.ofDocument d with
  | ok c => simp [run_of_ok hd hw h]
  | error e => simp [run_of_error hd hw h, message_rules_config]

end

/-! ## Subcommands -/

section
variable {verbose : Bool} {p : Parsed}

/-- The outcome of a subcommand whose rules, at a path, are no configuration. -/
def invalid (path : Path) (e : ConfigError) : Outcome :=
  match e.message path.name with
  | some m => .failed ("Invalid rules configuration: " ++ m)
  | none => .broken (.rules (.config e))

theorem exitCode_invalid_iff {path : Path} :
    (invalid path e).exitCode = 2 ↔ e.message path.name ≠ none := by
  unfold invalid
  cases e.message path.name <;> simp [Outcome.failed, Outcome.broken]

theorem fault_invalid_iff {path : Path} :
    (invalid path e).fault = none ↔ e.message path.name ≠ none := by
  unfold invalid
  cases e.message path.name <;> simp [Outcome.failed, Outcome.broken]

theorem runLint_of_error (hd : Yaml.loadBytes w.setting bytes = .ok d)
    (hw : w.file? (Rules.pathFor (projectOf w p) (rulesOf p)) = some bytes)
    (he : Config.ofDocument d = .error e) :
    runLint w verbose p = invalid (Rules.pathFor (projectOf w p) (rulesOf p)) e := by
  have hrun := run_of_error (q := requestOf w p) hd hw he
  rw [runLint, hrun]
  simp only [message_rules_config, invalid]
  generalize hpath : Rules.pathFor (projectOf w p) (rulesOf p) = path
  have hpath' : Rules.pathFor (requestOf w p).project (requestOf w p).rules = path := hpath
  rw [hpath']
  cases e.message path.name <;> rfl

theorem runRules_of_error (hd : Yaml.loadBytes w.setting bytes = .ok d)
    (hw : w.file? (Rules.pathFor (projectOf w p) (rulesOf p)) = some bytes)
    (he : Config.ofDocument d = .error e) :
    runRules w verbose p = invalid (Rules.pathFor (projectOf w p) (rulesOf p)) e := by
  simp only [runRules, ofFile_of_error hd hw he, invalid]
  rfl

theorem fault_runLint_of_ok (hd : Yaml.loadBytes w.setting bytes = .ok d)
    (hw : w.file? (Rules.pathFor (projectOf w p) (rulesOf p)) = some bytes)
    (hc : Config.ofDocument d = .ok c) : (runLint w verbose p).fault = none := by
  rw [runLint, run_of_ok (q := requestOf w p) hd hw hc]
  rfl

theorem fault_runRules_of_ok (hd : Yaml.loadBytes w.setting bytes = .ok d)
    (hw : w.file? (Rules.pathFor (projectOf w p) (rulesOf p)) = some bytes)
    (hc : Config.ofDocument d = .ok c) : (runRules w verbose p).fault = none := by
  rw [runRules, ofFile_of_ok hd hw hc]

/-! ## Calls -/

/-- The words of a call that comes to a subcommand: nothing is answered before it, and all that is
    given to it is accepted. -/
structure Reaches (w : Workspace) (words : List String) (verbose : Bool) (c : Command) (p : Parsed) :
    Prop where
  subcommand : ∃ t name rest, top.parse words = .ok t ∧ t.eager? = none ∧
    t.arguments = name :: rest ∧ subcommands.lookup name = some c ∧ t.has .verbose = verbose ∧
    c.parse rest = .ok p
  not_eager : p.eager? = none
  accepted : firstRefusal? w c p = none

variable {words : List String} {c : Command}

theorem call_of_reaches (h : Reaches w words verbose c p) :
    call w words = if c = lint then runLint w verbose p else runRules w verbose p := by
  obtain ⟨⟨t, name, rest, ht, heager, hargs, hlookup, rfl, hp⟩, hpe, haccepted⟩ := h
  have hwords : words ≠ [] := by
    rintro rfl
    cases ht
    cases hargs
  simp [call, hwords, withParsed, ht, heager, hargs, hlookup, callSubcommand, hp, hpe, haccepted]

theorem fault_call_of_ok (h : Reaches w words verbose c p) (hd : Yaml.loadBytes w.setting bytes = .ok d)
    (hw : w.file? (Rules.pathFor (projectOf w p) (rulesOf p)) = some bytes)
    {config : Config} (hc : Config.ofDocument d = .ok config) : (call w words).fault = none := by
  rw [call_of_reaches h]
  split_ifs
  · exact fault_runLint_of_ok hd hw hc
  · exact fault_runRules_of_ok hd hw hc

theorem call_of_error (h : Reaches w words verbose c p) (hd : Yaml.loadBytes w.setting bytes = .ok d)
    (hw : w.file? (Rules.pathFor (projectOf w p) (rulesOf p)) = some bytes)
    (he : Config.ofDocument d = .error e) :
    call w words = invalid (Rules.pathFor (projectOf w p) (rulesOf p)) e := by
  rw [call_of_reaches h]
  split_ifs
  · exact runLint_of_error hd hw he
  · exact runRules_of_error hd hw he

end

/-! ## Where all ends with a text -/

/-- **What becomes of a document as rules.** Reading it ends with a configuration or a fault with a text, a
    run ends with a report or a failure with a text, and a call of a subcommand does not break off and
    ends with exit code 2 if the rules are invalid: all this, unless the document derails. -/
theorem ends_told_iff_not_derails (d : Document) :
    (∀ file, ((∃ c, Config.ofDocument d = .ok c) ∨
      ∃ e m, Config.ofDocument d = .error e ∧ e.message file = some m) ↔ ¬ Config.Derails d) ∧
    ∀ (w : Workspace) (bytes : List UInt8), Yaml.loadBytes w.setting bytes = .ok d →
      (∀ q : Request, w.file? (Rules.pathFor q.project q.rules) = some bytes →
        (((∃ r, run w q = .ok r) ∨ ∃ f m, run w q = .error f ∧ f.message = some m) ↔
          ¬ Config.Derails d)) ∧
      ∀ words verbose c p, Reaches w words verbose c p →
        w.file? (Rules.pathFor (projectOf w p) (rulesOf p)) = some bytes →
        ((call w words).fault = none ↔ ¬ Config.Derails d) ∧
        ((∃ e, Config.ofDocument d = .error e) →
          ((call w words).exitCode = 2 ↔ ¬ Config.Derails d)) := by
  refine ⟨Config.told_iff_not_derails, fun w bytes hd => ⟨fun q hw => run_told_iff hd hw, ?_⟩⟩
  intro words verbose c p hreaches hw
  rw [← Config.told_iff_not_derails (Rules.pathFor (projectOf w p) (rulesOf p)).name]
  cases h : Config.ofDocument d with
  | ok config =>
    have hfault := fault_call_of_ok hreaches hd hw h
    simp [hfault]
  | error e =>
    have hcall := call_of_error hreaches hd hw h
    simp [hcall, fault_invalid_iff, exitCode_invalid_iff, Option.ne_none_iff_exists']

/-- The bytes of a text in ASCII. -/
def bytesOf (text : String) : List UInt8 := text.toList.map fun c => c.toNat.toUInt8

/-- A project with nothing but its rules, seen from its directory. -/
def soleRules (text : String) : Workspace :=
  (Workspace.emptyAt []).write (.ofText Rules.fileName) (bytesOf text)

theorem reaches_soleRules (text : String) : Reaches (soleRules text) ["lint"] false lint {} :=
  ⟨⟨⟨[], ["lint"]⟩, "lint", [], rfl, rfl, rfl, rfl, rfl, rfl⟩, rfl, rfl⟩

/-- The document of rules that are not accepted. -/
theorem exists_invalid (text : String) (hload : (Yaml.loadBytes {} (bytesOf text)).isOk = true)
    (hbad : (configOfBytes {} (bytesOf text)).isOk = false) :
    ∃ d e, Yaml.loadBytes {} (bytesOf text) = .ok d ∧ Config.ofDocument d = .error e := by
  cases hd : Yaml.loadBytes {} (bytesOf text) with
  | error e => simp [hd, Except.isOk, Except.toBool] at hload
  | ok d =>
    cases he : Config.ofDocument d with
    | error e => exact ⟨d, e, rfl, he⟩
    | ok c =>
      simp [configOfBytes, hd, he, Except.isOk, Except.toBool, Except.mapError, bind,
        Except.bind] at hbad

theorem ends_told_unsupportedVersion : ∃ d, Yaml.loadBytes {} (bytesOf "version: 2\n") = .ok d ∧
    (∃ e, Config.ofDocument d = .error e) ∧ ¬ Config.Derails d ∧
    (call (soleRules "version: 2\n") ["lint"]).exitCode = 2 := by
  obtain ⟨d, e, hd, he⟩ :=
    exists_invalid "version: 2\n" (by decide +kernel) (by decide +kernel)
  have hcode : (call (soleRules "version: 2\n") ["lint"]).exitCode = 2 := by decide +kernel
  have hends := ((ends_told_iff_not_derails d).2 (soleRules "version: 2\n") _ hd).2 _ _ _ _
    (reaches_soleRules "version: 2\n") rfl
  exact ⟨d, hd, ⟨e, he⟩, (hends.2 ⟨e, he⟩).1 hcode, hcode⟩

/-- A version that is a list cannot be looked up: nothing is told of it. -/
theorem call_listVersion : ∃ d e, Yaml.loadBytes {} (bytesOf "version: [1]\n") = .ok d ∧
    Config.ofDocument d = .error e ∧ e.message Rules.fileName = none ∧
    (∃ f, run (soleRules "version: [1]\n") { project := .ofText "." } = .error f ∧ f.message = none) ∧
    (call (soleRules "version: [1]\n") ["lint"]).exitCode = 1 ∧
    (call (soleRules "version: [1]\n") ["rules"]).exitCode = 1 := by
  obtain ⟨d, e, hd, he⟩ :=
    exists_invalid "version: [1]\n" (by decide +kernel) (by decide +kernel)
  have hcode : (call (soleRules "version: [1]\n") ["lint"]).exitCode = 1 := by decide +kernel
  -- a fault with a text would have ended the call with exit code 2
  have hmessage : e.message Rules.fileName = none := by
    have hcall := call_of_error (reaches_soleRules _) hd rfl he
    by_contra hne
    have htwo := (congrArg Outcome.exitCode hcall).trans (exitCode_invalid_iff.2 hne)
    rw [hcode] at htwo
    cases htwo
  have hrun := run_of_error (w := soleRules "version: [1]\n") (q := { project := .ofText "." })
    hd rfl he
  refine ⟨d, e, hd, he, hmessage, ⟨_, hrun, ?_⟩, hcode, by decide +kernel⟩
  rw [message_rules_config]
  exact congrArg _ hmessage

end AnnotationOrder.Command
