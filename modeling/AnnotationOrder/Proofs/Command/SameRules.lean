/-
  The rules of both subcommands.

  Given the same project and the same file with rules, `lint` and `rules` read the same rules.
  They do not look for the file in the same way: `rules` follows the text as it is given, and
  `lint` the path that the text stands for, in which a slash at the end says nothing.  And they
  do not leave the same room on the stack for reading it.

  * `entry?_of_entryAtText?`: where a text leads somewhere, its path leads there, too;
  * `parse_lint_of_parse_rules`: what is given to `rules` can be given to `lint`;
  * `Misspelt w s`: the text leads nowhere, but its path leads to a file;
  * `Outcome.IsTooDeep`: the rules are nested more deeply than there is room for;
  * `GoBy w verbose p r lints lists`: both outcomes go by the rules `r`;
  * `rules_ends_as_lint`: `rules` ends with exit code 2 just if `lint` does, unless the path of the
    rules is misspelt or a call is too deep, and where neither fails they go by the same rules.
-/
import AnnotationOrder.Proofs.Command.AllPairs
import AnnotationOrder.Proofs.Rule.Room

namespace AnnotationOrder.Project

variable {w : Workspace} {t : Tree} {l m : Location} {names : List String} {s : String}
  {bytes : List UInt8}

/-! ## Texts of paths -/

/-- Names that say nothing can be left out on the way. -/
theorem Tree.reach?_filter (h : t.reach? l names = some m) :
    t.reach? l (names.filter (!isIdle ·)) = some m := by
  induction names generalizing l with
  | nil => exact h
  | cons name names ih =>
    rw [reach?] at h
    split_ifs at h with hstep
    by_cases hidle : isIdle name = true
    · rw [List.filter_cons_of_neg (by simp [hidle])]
      rw [Location.step, if_pos hidle] at h
      exact ih h
    · rw [List.filter_cons_of_pos (by simp [hidle]), reach?, if_pos hstep]
      exact ih h

theorem Workspace.entry?_of_entryAtText? {e : Entry} (h : w.entryAtText? s = some e) :
    w.entry? (.ofText s) = some e := by
  rw [entryAtText?] at h
  split_ifs at h
  obtain ⟨m, hm, he⟩ := Option.bind_eq_some_iff.1 h
  have hplace : w.place? (.ofText s) = some m := Tree.reach?_filter hm
  rw [Workspace.entry?, hplace]
  exact he

theorem Workspace.isFile_of_entryAtText? (h : w.entryAtText? s = some (.file bytes)) :
    w.isFile (.ofText s) = true := by
  obtain ⟨m, hm, he⟩ := Option.bind_eq_some_iff.1 (entry?_of_entryAtText? h)
  rw [isFile, file?, hm, Option.bind_some, Tree.file?, he]
  rfl

/-- A text that can be looked up and leads nowhere, while the path that it stands for leads to a file,
    as with a slash behind the name of a file. -/
structure Misspelt (w : Workspace) (s : String) : Prop where
  lookedUp : '\x00' ∉ s.toList
  nowhere : w.entryAtText? s = none
  file : w.isFile (.ofText s) = true

/-- The same files, read with other room on the stack. -/
def Workspace.withRoom (w : Workspace) (nesting showing : Nat) : Workspace :=
  { w with setting := { w.setting with nesting, showing } }

end AnnotationOrder.Project

namespace AnnotationOrder.Command

open Project Lint

open Text.ControlSequence (plain)

variable {w : Workspace} {nesting showing : Nat} {c : Command} {p t : Parsed} {s : Switch}
  {before xs : List String} {verbose : Bool} {v : String}

/-! ## Words -/

/-- The options that a word gives. -/
def Word.switches : Word → List Switch
  | options given => given.map (·.1)
  | awaiting s => [s]

/-- No option of `rules` has a letter. -/
theorem letters_rules {ls : List Char} {given : List (Switch × String)}
    (h : rules.letters ls = .ok given) : ls = [] := by
  cases ls with
  | nil => rfl
  | cons l ls =>
    rw [letters] at h
    have hnone : rules.lettered? l = none := rfl
    rw [hnone] at h
    cases h

theorem drop_one_ne_nil_of_isOption {word : String} (h : isOption word = true) :
    word.toList.drop 1 ≠ [] := by
  simp only [isOption, Bool.and_eq_true, bne_iff_ne] at h
  obtain ⟨r, hr⟩ := Text.begins_iff.1 h.1
  intro hdrop
  rw [← hr] at hdrop
  refine h.2 (String.toList_injective ?_)
  obtain rfl : r = [] := hdrop
  exact hr.symm

/-- An option of `rules` is an option of `lint`. -/
theorem readWord_rules {word : String} {x : Word} (hword : isOption word = true)
    (h : rules.readWord word = .ok x) :
    lint.readWord word = .ok x ∧ ∀ s ∈ x.switches, s ∈ rules.switches := by
  rw [readWord] at h ⊢
  cases hs : rules.named? (nameAndValue word).1 with
  | none =>
    simp only [hs] at h
    split_ifs at h
    obtain ⟨given, hgiven, -⟩ := exists_of_map_eq_ok h
    exact absurd (letters_rules hgiven) (drop_one_ne_nil_of_isOption hword)
  | some s =>
    have hmem : s ∈ rules.switches := List.mem_of_find?_eq_some hs
    have hlong : (s.long == (nameAndValue word).1) = true := by
      have hfound := List.find?_some hs
      exact hfound
    have hlint : lint.named? (nameAndValue word).1 = some s := by
      rw [← eq_of_beq hlong]
      simp only [switches, List.mem_cons, List.not_mem_nil, or_false] at hmem
      rcases hmem with rfl | rfl | rfl <;> decide +kernel
    simp only [hs] at h
    simp only [hlint]
    refine ⟨h, ?_⟩
    split at h
    · obtain rfl := Except.ok.inj h
      exact List.forall_mem_singleton.2 hmem
    · obtain rfl := Except.ok.inj h
      exact List.forall_mem_singleton.2 hmem
    · obtain rfl := Except.ok.inj h
      exact List.forall_mem_singleton.2 hmem
    · cases h

theorem parse_lint_of_parse_rules (h : rules.parse xs = .ok p) :
    lint.parse xs = .ok p ∧ ∀ o ∈ p.options, o.1 ∈ rules.switches := by
  fun_induction Command.parse rules xs generalizing p with
  | case1 =>
    obtain rfl := Except.ok.inj h
    exact ⟨rfl, fun o ho => absurd ho List.not_mem_nil⟩
  | case2 word rest hends =>
    obtain rfl := Except.ok.inj h
    rw [parse, if_pos hends]
    exact ⟨rfl, fun o ho => absurd ho List.not_mem_nil⟩
  | case3 | case5 => cases h
  | case4 word rest hends hoption given hword ih =>
    obtain ⟨p, hp, rfl⟩ := exists_of_map_eq_ok h
    obtain ⟨hlint, hgiven⟩ := readWord_rules hoption hword
    obtain ⟨hrest, hoptions⟩ := ih hp
    rw [parse, if_neg hends, if_pos hoption, hlint]
    simp only [hrest]
    refine ⟨rfl, fun o ho => ?_⟩
    rcases List.mem_append.1 ho with ho | ho
    · exact hgiven _ (List.mem_map_of_mem ho)
    · exact hoptions o ho
  | case6 word hends hoption s hword value rest ih =>
    obtain ⟨p, hp, rfl⟩ := exists_of_map_eq_ok h
    obtain ⟨hlint, hgiven⟩ := readWord_rules hoption hword
    obtain ⟨hrest, hoptions⟩ := ih hp
    rw [parse, if_neg hends, if_pos hoption, hlint]
    simp only [hrest]
    refine ⟨rfl, fun o ho => ?_⟩
    rcases List.mem_cons.1 ho with rfl | ho
    · exact hgiven _ List.mem_cons_self
    · exact hoptions o ho
  | case7 word rest hends hoption hinter ih =>
    obtain ⟨p, hp, rfl⟩ := exists_of_map_eq_ok h
    obtain ⟨hrest, hoptions⟩ := ih hp
    rw [parse, if_neg hends, if_neg hoption, if_pos (by rfl), hrest]
    exact ⟨rfl, hoptions⟩
  | case8 word rest hends hoption hinter => exact absurd rfl hinter

/-! ## What is accepted -/

/-- The path of the rules is the only value that is not looked at in the same way. -/
theorem optionRefusal?_eq (hs : s ≠ .rules) :
    optionRefusal? w lint p s = optionRefusal? w rules p s := by
  cases s with
  | rules => exact absurd rfl hs
  | _ => rfl

theorem optionRefusal?_rules (hv : p.value? .rules = some v) :
    optionRefusal? w c p .rules = (pathFault? w v (rulesFault? c)).map (refusal "--rules" v) := by
  simp only [optionRefusal?, hv, valueFault?, bind, Option.bind_some]
  cases pathFault? w v (rulesFault? c) <;> rfl

theorem firstRefusal?_of_no_arguments (h : p.arguments = []) (c : Command) :
    firstRefusal? w c p = (p.options.map (·.1)).findSome? (optionRefusal? w c p) := by
  rw [firstRefusal?, Parsed.distinct, findSome?_eraseDups]
  cases c <;> simp [argumentRefusal?, h]

theorem mem_options_of_value? (hv : p.value? s = some v) : s ∈ p.options.map (·.1) := by
  have hmem : (s, v) ∈ p.options.reverse := Tree.mem_entries_of_lookup hv
  exact List.mem_map.2 ⟨_, List.mem_reverse.1 hmem, rfl⟩

/-- Where the text leads somewhere, or cannot be looked up, both subcommands accept it or neither. -/
theorem optionRefusal?_rules_eq (h : ∀ v, p.value? .rules = some v → '\x00' ∉ v.toList →
    w.entryAtText? v ≠ none) : optionRefusal? w lint p .rules = optionRefusal? w rules p .rules := by
  cases hv : p.value? .rules with
  | none => simp only [optionRefusal?, hv]; rfl
  | some v =>
    rw [optionRefusal?_rules hv, optionRefusal?_rules hv, pathFault?, pathFault?]
    split_ifs with hnull
    · rfl
    · cases he : w.entryAtText? v with
      | none => exact absurd he (h v hv hnull)
      | some e => cases e <;> rfl

/-- No value is refused without a message, unless it holds a null character. -/
theorem optionRefusal?_ne_fault {e : Fault}
    (hvalues : ∀ s v, p.value? s = some v → s = .rules ∨ s = .project → '\x00' ∉ v.toList) :
    optionRefusal? w c p s ≠ some (.fault e) := by
  cases hv : p.value? s with
  | none => simp [optionRefusal?, hv]
  | some v =>
    simp only [optionRefusal?, hv, bind, Option.bind_some]
    cases s with
    | rules =>
      rw [valueFault?, pathFault?, if_neg (hvalues .rules v hv (.inl rfl))]
      cases rulesFault? c (w.entryAtText? v) <;> simp [refusal]
    | project =>
      rw [valueFault?, pathFault?, if_neg (hvalues .project v hv (.inr rfl))]
      cases projectFault? (w.entryAtText? v) <;> simp [refusal]
    | format =>
      rw [valueFault?]
      cases formatFault? v <;> simp [refusal]
    | _ => simp [valueFault?]

/-- What `rules` accepts leads to a file. -/
theorem isFile_of_accepted (hv : p.value? .rules = some v)
    (h : optionRefusal? w rules p .rules = none) : w.isFile (.ofText v) = true := by
  rw [optionRefusal?_rules hv, Option.map_eq_none_iff, pathFault?] at h
  split_ifs at h
  rw [Option.map_eq_none_iff] at h
  cases he : w.entryAtText? v with
  | none =>
    rw [he] at h
    cases h
  | some e =>
    rw [he] at h
    cases e with
    | directory => cases h
    | file bytes => exact Workspace.isFile_of_entryAtText? he

/-- The end of a call that is refused. -/
def refused (c : Command) : Refusal → Outcome
  | .misuse e => .misused c e
  | .fault e => .broken e

/-- How a subcommand ends whose words are read. -/
theorem callSubcommand_eq (hp : c.parse xs = .ok p) (heager : p.eager? = none) :
    callSubcommand w verbose c xs = (firstRefusal? w c p).elim
      (if c = lint then runLint w verbose p else runRules w verbose p) (refused c) := by
  simp only [callSubcommand, withParsed, hp, heager]
  cases firstRefusal? w c p with
  | none => rfl
  | some e => cases e <;> rfl

/-! ## Rules that are found -/

/-- The path of the rules that is given, or else that of the project. -/
def rulesPath (w : Workspace) (p : Parsed) : Path := Rules.pathFor (projectOf w p) (rulesOf p)

/-- A file that is asked for is read if it is there. -/
theorem loadRules_requestOf
    (hfile : ∀ v, p.value? .rules = some v → w.isFile (.ofText v) = true) :
    (requestOf w p).loadRules w =
      (Rules.ofFile w (rulesPath w p)).mapError (.rules (rulesPath w p)) := by
  have hasked : ((rulesOf p).isSome && !w.isFile (rulesPath w p)) = false := by
    rw [rulesPath, rulesOf]
    cases hv : p.value? .rules with
    | none => rfl
    | some v => simp [Rules.pathFor, hfile v hv]
  have hload : (requestOf w p).loadRules w =
      if (rulesOf p).isSome && !w.isFile (rulesPath w p) then
        .error (.rulesNotFound (rulesPath w p))
      else (Rules.ofFile w (rulesPath w p)).mapError (.rules (rulesPath w p)) := rfl
  rw [hload, hasked]
  rfl

/-- A call that breaks off because its rules are nested more deeply than it has room for. -/
def Outcome.IsTooDeep (o : Outcome) : Prop := ∃ e, o = .broken (.rules e) ∧ RulesFault.IsDeep e

theorem exitCode_of_isTooDeep {o : Outcome} (h : o.IsTooDeep) : o.exitCode = 1 := by
  obtain ⟨e, rfl, -⟩ := h
  rfl

theorem exitCode_runLint_of_missing (hv : p.value? .rules = some v)
    (hfile : w.isFile (.ofText v) = false) : (runLint w verbose p).exitCode = 2 := by
  have hload : (requestOf w p).loadRules w = .error (.rulesNotFound (.ofText v)) := by
    simp [Request.loadRules, requestOf, rulesOf, hv, Rules.pathFor, hfile]
  rw [runLint, run_of_fault hload]
  rfl

/-- Outcomes of `lint` and of `rules` that go by the same rules: `lint` checks with the table, `rules`
    lists it, and both print the warnings about it behind what they log. -/
structure GoBy (w : Workspace) (verbose : Bool) (p : Parsed) (r : Rules) (lints lists : Outcome) :
    Prop where
  run : Lint.run w (requestOf w p) = .ok (runBy w (requestOf w p) r)
  request : requestOf w p = { project := projectOf w p, rules := rulesOf p }
  lint : lints = lintOutcome verbose p (runBy w (requestOf w p) r)
  findings : (runBy w (requestOf w p) r).report.findings =
    ((requestOf w p).checked w r).flatMap (Checked.findings r.table false)
  rulesLoaded : (runBy w (requestOf w p) r).report.rulesLoaded = r.table.constraints.length
  exitCodes : lints.exitCode = 0 ∧ lists.exitCode = 0
  listed : lists.output = printed (r.table.describe.map plain)
  lintErrors : lints.errors = printed (logLines verbose (runBy w (requestOf w p) r).log ++
    warningLines r.table.warnings)
  listErrors : lists.errors = printed (logLines verbose r.log ++ warningLines r.table.warnings)

/-- How `lint` and `rules` end that are given the same. -/
inductive EndTogether (w : Workspace) (verbose : Bool) (p : Parsed) (lints lists : Outcome) : Prop
  /-- There is not enough room for one of them. -/
  | deep (h : lints.IsTooDeep ∨ lists.IsTooDeep)
  /-- Both fail with the same exit code. -/
  | fail (code : Nat) (hcode : code ≠ 0) (hlint : lints.exitCode = code)
    (hlist : lists.exitCode = code)
  | goBy (r : Rules) (h : GoBy w verbose p r lints lists)

namespace EndTogether

variable {lints lists : Outcome} (h : EndTogether w verbose p lints lists)
include h

theorem exitCode_eq_two_iff (hlint : ¬ lints.IsTooDeep) (hlist : ¬ lists.IsTooDeep) :
    lists.exitCode = 2 ↔ lints.exitCode = 2 := by
  cases h with
  | deep h => exact absurd h (not_or_intro hlint hlist)
  | fail code _ hlint hlist => rw [hlint, hlist]
  | goBy r h => rw [h.exitCodes.1, h.exitCodes.2]

theorem exists_goBy (hlint : lints.exitCode = 0) (hlist : lists.exitCode = 0) :
    ∃ r, GoBy w verbose p r lints lists := by
  cases h with
  | deep h =>
    rcases h with h | h
    · exact absurd (hlint.symm.trans (exitCode_of_isTooDeep h)) Nat.zero_ne_one
    · exact absurd (hlist.symm.trans (exitCode_of_isTooDeep h)) Nat.zero_ne_one
  | fail code hcode hcodeLint _ => exact absurd (hcodeLint.symm.trans hlint) hcode
  | goBy r h => exact ⟨r, h⟩

end EndTogether

theorem runRules_of_ok {r : Rules} (h : Rules.ofFile w (rulesPath w p) = .ok r) :
    runRules w verbose p =
      { output := printed (r.table.describe.map plain)
        errors := printed (logLines verbose r.log ++ warningLines r.table.warnings) } := by
  rw [rulesPath] at h
  simp only [runRules, h]

section
variable (hfile : ∀ v, p.value? .rules = some v → w.isFile (.ofText v) = true)
include hfile

theorem goBy_of_ok (hargs : p.arguments = []) (hoptions : ∀ o ∈ p.options, o.1 ∈ rules.switches)
    {r : Rules} (h : Rules.ofFile w (rulesPath w p) = .ok r)
    (hlists : Rules.ofFile (w.withRoom nesting showing) (rulesPath w p) = .ok r) :
    GoBy w verbose p r (runLint w verbose p) (runRules (w.withRoom nesting showing) verbose p) := by
  have hhas : ∀ s, s ∉ rules.switches → p.has s = false := by
    intro s hs
    rw [Parsed.has, ← Bool.not_eq_true, List.contains_iff_mem, List.mem_map]
    rintro ⟨o, ho, rfl⟩
    exact hs (hoptions o ho)
  have hload : (requestOf w p).loadRules w = .ok r := by
    rw [loadRules_requestOf hfile, h]
    rfl
  have hrequest : requestOf w p = { project := projectOf w p, rules := rulesOf p } := by
    rw [requestOf, hargs, hhas .allPairs (by decide)]
    rfl
  have hlint : runLint w verbose p = lintOutcome verbose p (runBy w (requestOf w p) r) := by
    rw [runLint, run_of_loadRules hload]
  have hfindings : (runBy w (requestOf w p) r).report.findings =
      ((requestOf w p).checked w r).flatMap (Checked.findings r.table false) := by
    rw [findings_runBy, hrequest]
  have hcode : (lintOutcome verbose p (runBy w (requestOf w p) r)).exitCode = 0 := by
    rw [lintOutcome, hhas .strict (by decide)]
    rfl
  rw [hlint, runRules_of_ok hlists]
  exact ⟨run_of_loadRules hload, hrequest, rfl, hfindings, rfl, ⟨hcode, rfl⟩, rfl, rfl, rfl⟩

theorem runLint_of_rulesFault {e : RulesFault} (h : Rules.ofFile w (rulesPath w p) = .error e) :
    runLint w verbose p =
      (Failure.rules (rulesPath w p) e).message.elim (.broken (.rules e)) .failed := by
  have hload : (requestOf w p).loadRules w = .error (.rules (rulesPath w p) e) := by
    rw [loadRules_requestOf hfile, h]
    rfl
  rw [runLint, run_of_fault hload]
  simp only
  cases (Failure.rules (rulesPath w p) e).message <;> rfl

end

theorem runRules_of_rulesFault {e : RulesFault} (h : Rules.ofFile w (rulesPath w p) = .error e) :
    runRules w verbose p = (e.message (rulesPath w p).name).elim (.broken (.rules e))
      fun m => .failed ("Invalid rules configuration: " ++ m) := by
  rw [rulesPath] at h ⊢
  simp only [runRules, h]
  cases e.message (Rules.pathFor (projectOf w p) (rulesOf p)).name <;> rfl

/-- Rules that are found end both in one of the ways, whatever room each of them has. -/
theorem endTogether_of_isFile
    (hfile : ∀ v, p.value? .rules = some v → w.isFile (.ofText v) = true) (hargs : p.arguments = [])
    (hoptions : ∀ o ∈ p.options, o.1 ∈ rules.switches) :
    EndTogether w verbose p (runLint w verbose p)
      (runRules (w.withRoom nesting showing) verbose p) := by
  have hread : Alike RulesFault.IsDeep (Rules.ofFile w (rulesPath w p))
      (Rules.ofFile (w.withRoom nesting showing) (rulesPath w p)) :=
    Rules.alike_ofFile w (s := w.setting)
      (t := { w.setting with nesting, showing }) rfl _
  rcases hread with ⟨e, he, hdeep⟩ | ⟨e, he, hdeep⟩ | hsame
  · refine .deep (.inl ⟨e, ?_, hdeep⟩)
    rw [runLint_of_rulesFault hfile he, Failure.message, message_of_isDeep hdeep]
    rfl
  · refine .deep (.inr ⟨e, ?_, hdeep⟩)
    rw [runRules_of_rulesFault he, message_of_isDeep hdeep]
    rfl
  · cases h : Rules.ofFile w (rulesPath w p) with
    | ok r => exact .goBy r (goBy_of_ok hfile hargs hoptions h (hsame.symm.trans h))
    | error e =>
      rw [runLint_of_rulesFault hfile h, runRules_of_rulesFault (hsame.symm.trans h), Failure.message]
      have hname : rulesPath (w.withRoom nesting showing) p = rulesPath w p := rfl
      rw [hname]
      cases e.message (rulesPath w p).name with
      | none => exact .fail 1 (by decide) rfl rfl
      | some m => exact .fail 2 (by decide) rfl rfl

/-! ## How calls end -/

section
variable (w verbose) (hlint : lint.parse xs = .ok p) (hrules : rules.parse xs = .ok p)
  (heager : p.eager? = none) (hargs : p.arguments = [])
include hlint hrules heager hargs

/-- Where the text for the rules leads nowhere, `rules` is not accepted, and `lint` goes on only if the
    path leads to a file. -/
theorem ends_of_nowhere (hproject : ∀ v, p.value? .project = some v → '\x00' ∉ v.toList)
    (hv : p.value? .rules = some v) (hnull : '\x00' ∉ v.toList)
    (hnowhere : w.entryAtText? v = none) :
    (callSubcommand w verbose rules xs).exitCode = 2 ∧
      ((callSubcommand w verbose lint xs).exitCode = 2 ∨ Misspelt w v) := by
  -- a value with a null character would break the call off before `--rules` is looked at
  have hmisuse : ∀ c r, firstRefusal? w c p = some r → ∃ e, r = .misuse e := by
    intro c r hr
    rw [firstRefusal?_of_no_arguments hargs] at hr
    obtain ⟨s, -, hs⟩ := List.exists_of_findSome?_eq_some hr
    cases r with
    | misuse e => exact ⟨e, rfl⟩
    | fault e =>
      refine absurd hs (optionRefusal?_ne_fault ?_)
      rintro _ u hu (rfl | rfl)
      · obtain rfl := Option.some.inj (hv.symm.trans hu)
        exact hnull
      · exact hproject u hu
  rw [callSubcommand_eq hrules heager, callSubcommand_eq hlint heager]
  constructor
  · cases hr : firstRefusal? w rules p with
    | some r =>
      obtain ⟨e, rfl⟩ := hmisuse _ _ hr
      rfl
    | none =>
      rw [firstRefusal?_of_no_arguments hargs, List.findSome?_eq_none_iff] at hr
      have hrefused := hr _ (mem_options_of_value? hv)
      rw [optionRefusal?_rules hv, pathFault?, if_neg hnull, hnowhere] at hrefused
      cases hrefused
  · cases hr : firstRefusal? w lint p with
    | some r =>
      obtain ⟨e, rfl⟩ := hmisuse _ _ hr
      exact .inl rfl
    | none =>
      by_cases hfile : w.isFile (.ofText v) = true
      · exact .inr ⟨hnull, hnowhere, hfile⟩
      · exact .inl (exitCode_runLint_of_missing hv (Bool.eq_false_iff.2 hfile))

/-- Where it leads somewhere, both end in one of the ways. -/
theorem endTogether_of_found (nesting showing : Nat)
    (hoptions : ∀ o ∈ p.options, o.1 ∈ rules.switches)
    (hfound : ∀ v, p.value? .rules = some v → '\x00' ∉ v.toList →
      w.entryAtText? v ≠ none) :
    EndTogether w verbose p (callSubcommand w verbose lint xs)
      (callSubcommand (w.withRoom nesting showing) verbose rules xs) := by
  have hsame : optionRefusal? w lint p = optionRefusal? w rules p := by
    funext s
    by_cases hs : s = .rules
    · rw [hs, optionRefusal?_rules_eq hfound]
    · exact optionRefusal?_eq hs
  have hrefusal : firstRefusal? w lint p = firstRefusal? w rules p := by
    rw [firstRefusal?_of_no_arguments hargs, firstRefusal?_of_no_arguments hargs, hsame]
  have hroom : firstRefusal? (w.withRoom nesting showing) rules p = firstRefusal? w rules p := rfl
  rw [callSubcommand_eq hrules heager, callSubcommand_eq hlint heager, hrefusal, hroom]
  cases hr : firstRefusal? w rules p with
  | some r =>
    cases r with
    | misuse e => exact .fail 2 (by decide) rfl rfl
    | fault e => exact .fail 1 (by decide) rfl rfl
  | none =>
    rw [firstRefusal?_of_no_arguments hargs, List.findSome?_eq_none_iff] at hr
    have hfile : ∀ v, p.value? .rules = some v → w.isFile (.ofText v) = true :=
      fun v hv => isFile_of_accepted hv (hr _ (mem_options_of_value? hv))
    exact endTogether_of_isFile hfile hargs hoptions

end

/-- A project whose rules, one of them against a built-in rule, stand in a file with its own name. -/
def ownRules : Workspace :=
  .ofTexts [("own.yml", "version: 1\nrules:\n" ++
    "- \x7bname: late, before: \x7bname: RestrictTo\x7d, after: \x7bname: Keep\x7d\x7d\n")]

/-- A project whose file with rules holds no mapping, but a list in a list. -/
def nestedRules : Workspace := .ofTexts [(Rules.fileName, "[[]]")]

end AnnotationOrder.Command
