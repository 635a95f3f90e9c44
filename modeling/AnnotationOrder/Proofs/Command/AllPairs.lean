/-
  Calls with and without `--all-pairs`.

  The option says how many violations of a declaration are reported.  It does not change what
  is checked, nor whether anything is found, and so it does not change how a call ends.

  * `parse_append`: words are read one after the other;
  * `SameButAllPairs`: what is given is the same but for this option;
  * `exitCode_callSubcommand_eq`: how a call of `lint` ends then;
  * `call_subcommand`: the calls that come to a subcommand;
  * `keeps_first_findings`: runs with the option and without it, and calls with it and without.
-/
import AnnotationOrder.Command.Run
import AnnotationOrder.Proofs.Lint.Checked

namespace AnnotationOrder.Command

open Project Lint

variable {w : Workspace} {c : Command} {p p' : Parsed} {s : Switch} {xs ys : List String}
  {verbose : Bool}

/-! ## Reading words -/

theorem exists_of_map_eq_ok {ε α β : Type} {x : Except ε α} {f : α → β} {b : β}
    (h : x.map f = .ok b) : ∃ a, x = .ok a ∧ f a = b := by
  cases x with
  | error e => cases h
  | ok a => exact ⟨a, rfl, Except.ok.inj h⟩

/-- What is given by words and then by more words. -/
def Parsed.append (p p' : Parsed) : Parsed :=
  ⟨p.options ++ p'.options, p.arguments ++ p'.arguments⟩

/-- Behind words that are complete and do not end the options, more words are read as if they stood
    alone. -/
theorem parse_append (hc : c.isInterspersed = true) (hx : "--" ∉ xs) (h : c.parse xs = .ok p)
    (ys : List String) : c.parse (xs ++ ys) = (c.parse ys).map p.append := by
  -- along the reading of `xs`; that it gives `p` leaves no option there without its value
  fun_induction Command.parse c xs generalizing p with
  | case1 =>
    obtain rfl := Except.ok.inj h
    rw [List.nil_append]
    cases c.parse ys with
    | error e => rfl
    | ok p' => rfl
  | case2 word rest hends => exact absurd (eq_of_beq hends ▸ List.mem_cons_self) hx
  | case3 | case5 => cases h
  | case4 word rest hends hoption given hword ih =>
    obtain ⟨p, hp, rfl⟩ := exists_of_map_eq_ok h
    rw [List.cons_append, parse, if_neg hends, if_pos hoption, hword]
    simp only [ih (fun hmem => hx (List.mem_cons_of_mem _ hmem)) hp]
    cases c.parse ys with
    | error e => rfl
    | ok p' => simp [Except.map, Parsed.append]
  | case6 word hends hoption s hword value rest ih =>
    obtain ⟨p, hp, rfl⟩ := exists_of_map_eq_ok h
    have hrest : "--" ∉ rest :=
      fun hmem => hx (List.mem_cons_of_mem _ (List.mem_cons_of_mem _ hmem))
    rw [List.cons_append, parse, if_neg hends, if_pos hoption, hword]
    simp only [List.cons_append, ih hrest hp]
    cases c.parse ys with
    | error e => rfl
    | ok p' => rfl
  | case7 word rest hends hoption hinter ih =>
    obtain ⟨p, hp, rfl⟩ := exists_of_map_eq_ok h
    rw [List.cons_append, parse, if_neg hends, if_neg hoption, if_pos hinter,
      ih (fun hmem => hx (List.mem_cons_of_mem _ hmem)) hp]
    cases c.parse ys with
    | error e => rfl
    | ok p' => rfl
  | case8 word rest hends hoption hinter => exact absurd hc hinter

/-- No option of the main command takes a value. -/
theorem readWord_top_ne_awaiting (word : String) (s : Switch) :
    top.readWord word ≠ .ok (.awaiting s) := by
  intro h
  rw [readWord] at h
  cases hs : top.named? (nameAndValue word).1 with
  | some s' =>
    have hvalue : s'.takesValue = false := by
      have hmem : s' ∈ top.switches := List.mem_of_find?_eq_some hs
      simp only [switches, List.mem_cons, List.not_mem_nil, or_false] at hmem
      rcases hmem with rfl | rfl | rfl <;> rfl
    simp only [hs, hvalue] at h
    cases hv : (nameAndValue word).2 with
    | none => simp [hv] at h
    | some v => simp [hv] at h
  | none =>
    simp only [hs] at h
    split_ifs at h
    obtain ⟨given, -, hgiven⟩ := exists_of_map_eq_ok h
    cases hgiven

/-- The main command reads its options up to the name of a subcommand. -/
theorem parse_top_append {name : String} (hname : isOption name = false)
    (h : top.parse xs = .ok p) (hp : p.arguments = []) :
    top.parse (xs ++ name :: ys) = .ok { p with arguments := name :: ys } := by
  have hends : ¬(name == "--") = true := by
    intro heq
    rw [eq_of_beq heq] at hname
    cases hname
  have hoption : ¬isOption name = true := by simp [hname]
  -- along the reading of `xs`, which stops at its end or at `--`, since no argument is in it
  fun_induction Command.parse top xs generalizing p with
  | case1 =>
    obtain rfl := Except.ok.inj h
    rw [List.nil_append, parse, if_neg hends, if_neg hoption]
    rfl
  | case2 word rest hword =>
    obtain rfl := Except.ok.inj h
    obtain rfl : rest = [] := hp
    rw [List.cons_append, parse, if_pos hword]
    rfl
  | case3 | case5 => cases h
  | case4 word rest hword hisOption given hread ih =>
    obtain ⟨p, hp', rfl⟩ := exists_of_map_eq_ok h
    rw [List.cons_append, parse, if_neg hword, if_pos hisOption, hread]
    simp only [ih hp' hp]
    rfl
  | case6 word _ _ s hread => exact absurd hread (readWord_top_ne_awaiting word s)
  | case7 word rest _ _ hinter => cases hinter
  | case8 word rest =>
    obtain rfl := Except.ok.inj h
    cases hp

/-! ## What is given but for `--all-pairs` -/

/-- The same is given, but for `--all-pairs`. -/
structure SameButAllPairs (p p' : Parsed) : Prop where
  arguments : p.arguments = p'.arguments
  options : p.options.filter (fun o => o.1 != .allPairs) =
    p'.options.filter fun o => o.1 != .allPairs

theorem findSome?_filter_of_eq_none {α β : Type} {keep : α → Bool} {f : α → Option β} {l : List α}
    (h : ∀ x ∈ l, keep x = false → f x = none) : (l.filter keep).findSome? f = l.findSome? f := by
  induction l with
  | nil => rfl
  | cons x l ih =>
    rw [List.forall_mem_cons] at h
    by_cases hk : keep x = true
    · rw [List.filter_cons_of_pos hk, List.findSome?_cons, List.findSome?_cons, ih h.2]
    · rw [List.filter_cons_of_neg hk, List.findSome?_cons, h.1 (Bool.eq_false_iff.2 hk), ih h.2]

/-- What is found first among different things is found first among all. -/
theorem findSome?_eraseDups {α β : Type} [BEq α] [LawfulBEq α] (f : α → Option β) (l : List α) :
    l.eraseDups.findSome? f = l.findSome? f := by
  match l with
  | [] => rfl
  | x :: l =>
    rw [List.eraseDups_cons, List.findSome?_cons, List.findSome?_cons,
      findSome?_eraseDups f (l.filter fun y => !y == x)]
    cases hx : f x with
    | some b => rfl
    | none =>
      refine findSome?_filter_of_eq_none fun y _ hy => ?_
      have hyx : y = x := by simpa using hy
      rw [hyx, hx]
termination_by l.length
decreasing_by exact Nat.lt_succ_of_le (List.length_filter_le _ _)

namespace SameButAllPairs

variable (h : SameButAllPairs p p')
include h

theorem value?_eq (hs : s ≠ .allPairs) : p.value? s = p'.value? s := by
  have hkept : ∀ p : Parsed, p.value? s =
      (p.options.filter fun o => o.1 != .allPairs).reverse.lookup s := by
    intro p
    have hlookup := lookup_filter_fst (fun s => s != Switch.allPairs) s p.options.reverse
    rw [← List.filter_reverse, hlookup, if_pos (bne_iff_ne.2 hs)]
    rfl
  rw [hkept, hkept, h.options]

theorem has_eq (hs : s ≠ .allPairs) : p.has s = p'.has s := by
  have hkept : ∀ p : Parsed, p.has s = true ↔
      ∃ o ∈ p.options.filter fun o => o.1 != .allPairs, o.1 = s := by
    intro p
    simp only [Parsed.has, List.contains_iff_mem, List.mem_map, List.mem_filter, bne_iff_ne]
    constructor
    · rintro ⟨o, ho, rfl⟩
      exact ⟨o, ⟨ho, hs⟩, rfl⟩
    · rintro ⟨o, ⟨ho, -⟩, rfl⟩
      exact ⟨o, ho, rfl⟩
  rw [Bool.eq_iff_iff, hkept, hkept, h.options]

theorem eager?_eq : p.eager? = p'.eager? := by
  have hkept : ∀ p : Parsed, p.eager? =
      ((p.options.filter fun o => o.1 != .allPairs).find? (·.1.isEager)).map (·.1) := by
    intro p
    rw [Parsed.eager?, List.find?_map, List.find?_filter]
    congr 2
    funext ⟨s, value⟩
    cases s <;> rfl
  rw [hkept, hkept, h.options]

/-- The option is accepted in any case, and so it does not matter for what is accepted. -/
theorem firstRefusal?_eq (w : Workspace) : firstRefusal? w lint p = firstRefusal? w lint p' := by
  have hone : ∀ s, optionRefusal? w lint p s = optionRefusal? w lint p' s := by
    intro s
    by_cases hs : s = .allPairs
    · subst hs
      simp [optionRefusal?, valueFault?]
    · rw [optionRefusal?, optionRefusal?, h.value?_eq hs]
  have hkept : ∀ p : Parsed, p.distinct.findSome? (optionRefusal? w lint p') =
      (p.options.filter fun o => o.1 != .allPairs).findSome? (optionRefusal? w lint p' ·.1) := by
    intro p
    -- that an option is looked at once only does not matter for the first refusal
    rw [Parsed.distinct, findSome?_eraseDups, List.findSome?_map]
    refine (findSome?_filter_of_eq_none fun o _ ho => ?_).symm
    have hs : o.1 = .allPairs := by simpa using ho
    simp [hs, optionRefusal?, valueFault?]
  rw [firstRefusal?, firstRefusal?, funext hone, hkept, hkept, h.options, argumentRefusal?,
    argumentRefusal?, h.arguments]

end SameButAllPairs

/-! ## How calls end -/

/-- How a call of `lint` ends depends on whether something is found, and not on how much. -/
theorem exitCode_runLint_eq (h : SameButAllPairs p p') :
    (runLint w verbose p).exitCode = (runLint w verbose p').exitCode := by
  have hrequest : requestOf w p' = { requestOf w p with reportAll := p'.has .allPairs } := by
    rw [requestOf, requestOf, projectOf, projectOf, rulesOf, rulesOf, h.value?_eq (by decide),
      h.value?_eq (by decide), h.arguments]
  cases hr : (requestOf w p).loadRules w with
  | error e =>
    have hr' : (requestOf w p').loadRules w = .error e := by rw [hrequest]; exact hr
    rw [runLint, runLint, run_of_fault hr, run_of_fault hr']
  | ok r =>
    have hr' : (requestOf w p').loadRules w = .ok r := by rw [hrequest]; exact hr
    have hempty : ∀ reportAll, (runBy w { requestOf w p with reportAll } r).report.findings = [] ↔
        (runBy w { requestOf w p with reportAll := true } r).report.findings = [] := by
      intro reportAll
      cases reportAll with
      | true => rfl
      | false => exact (keepsFirst_runBy w (requestOf w p) r).findings_eq_nil_iff
    -- so both calls can be compared with the one that asks for all findings
    have hsame : (runBy w (requestOf w p) r).report.findings.isEmpty =
        (runBy w (requestOf w p') r).report.findings.isEmpty := by
      rw [Bool.eq_iff_iff, List.isEmpty_iff, List.isEmpty_iff, hrequest, hempty (p'.has .allPairs)]
      exact hempty (p.has .allPairs)
    rw [runLint, runLint, run_of_loadRules hr, run_of_loadRules hr']
    simp only [lintOutcome, hsame, h.has_eq (show Switch.strict ≠ .allPairs by decide)]

/-- So does a call with these words for `lint`. -/
theorem exitCode_callSubcommand_eq (h : SameButAllPairs p p') (hp : lint.parse xs = .ok p)
    (hp' : lint.parse ys = .ok p') : (callSubcommand w verbose lint xs).exitCode =
      (callSubcommand w verbose lint ys).exitCode := by
  simp only [callSubcommand, withParsed, hp, hp', h.eager?_eq, h.firstRefusal?_eq w, if_true]
  cases p'.eager? with
  | some s => rfl
  | none =>
    cases firstRefusal? w lint p' with
    | none => exact exitCode_runLint_eq h
    | some e =>
      cases e with
      | misuse e => rfl
      | fault e => rfl

/-- `--all-pairs` among the words of `lint` does not change how the call ends. -/
theorem exitCode_callSubcommand_insert (hx : "--" ∉ xs) (h : lint.parse xs = .ok p) :
    (callSubcommand w verbose lint (xs ++ "--all-pairs" :: ys)).exitCode =
      (callSubcommand w verbose lint (xs ++ ys)).exitCode := by
  have hword : lint.parse ("--all-pairs" :: ys) =
      (lint.parse ys).map fun p => { p with options := [(.allPairs, "")] ++ p.options } := by
    rw [parse, if_neg (by decide), if_pos (by decide +kernel)]
    rfl
  have hall := parse_append rfl hx h ("--all-pairs" :: ys)
  have hparse := parse_append rfl hx h ys
  rw [hword] at hall
  cases hy : lint.parse ys with
  | error e =>
    rw [hy] at hall hparse
    simp only [callSubcommand, withParsed, hall, hparse]
    rfl
  | ok p' =>
    rw [hy] at hall hparse
    have hsame : SameButAllPairs
        (p.append { p' with options := [(.allPairs, "")] ++ p'.options }) (p.append p') :=
      ⟨rfl, by simp [Parsed.append]⟩
    exact exitCode_callSubcommand_eq hsame hall hparse

/-- A call comes to the subcommand that it names, unless an option in front of it is answered
    before. -/
theorem call_subcommand {before : List String} {t : Parsed} {name : String}
    (hc : subcommands.lookup name = some c) (hname : isOption name = false)
    (h : top.parse before = .ok t) (ht : t.arguments = []) (words : List String) :
    call w (before ++ name :: words) =
      t.eager?.elim (callSubcommand w (t.has .verbose) c words) (eagerOutcome top) := by
  have heager : { t with arguments := name :: words }.eager? = t.eager? := rfl
  rw [call, if_neg (by simp), withParsed, parse_top_append hname h ht]
  simp only [heager, hc]
  cases t.eager? with
  | some s => rfl
  | none => rfl

theorem call_lint {before : List String} {t : Parsed} (h : top.parse before = .ok t)
    (ht : t.arguments = []) (words : List String) : call w (before ++ "lint" :: words) =
      t.eager?.elim (callSubcommand w (t.has .verbose) lint words) (eagerOutcome top) :=
  call_subcommand rfl (by decide +kernel) h ht words

/-- **One finding for each declaration.**  A run with all findings and one with the first finding on
    each declaration check the same sources and declarations by the same rules, and in the second
    just the first of the findings on each declaration is left; both find nothing, or neither.  And
    a call of `lint` ends in the same way with `--all-pairs` among its words and without it. -/
theorem keeps_first_findings :
    (∀ (w : Workspace) (q : Request),
      (∃ e, run w { q with reportAll := false } = .error e ∧
        run w { q with reportAll := true } = .error e) ∨
      ∃ r first all, q.loadRules w = .ok r ∧ run w { q with reportAll := false } = .ok first ∧
        run w { q with reportAll := true } = .ok all ∧
        KeepsFirst r.table (q.checked w r) first.report all.report ∧
        first.warnings = all.warnings ∧
        (first.report.findings = [] ↔ all.report.findings = [])) ∧
    ∀ (w : Workspace) (before xs ys : List String) (t p : Parsed),
      top.parse before = .ok t → t.arguments = [] → lint.parse xs = .ok p → "--" ∉ xs →
      (call w (before ++ "lint" :: (xs ++ "--all-pairs" :: ys))).exitCode =
        (call w (before ++ "lint" :: (xs ++ ys))).exitCode := by
  constructor
  · intro w q
    cases hr : q.loadRules w with
    | error e => exact .inl ⟨e, run_of_fault hr, run_of_fault hr⟩
    | ok r =>
      have hkeeps := keepsFirst_runBy w q r
      exact .inr ⟨r, _, _, rfl, run_of_loadRules hr, run_of_loadRules hr, hkeeps, rfl,
        hkeeps.findings_eq_nil_iff⟩
  · intro w before xs ys t p ht hargs hp hx
    rw [call_lint ht hargs, call_lint ht hargs]
    cases t.eager? with
    | some s => rfl
    | none => exact exitCode_callSubcommand_insert hx hp

/-- A class with three annotations in reverse order, and so with two findings. -/
def reversed : Workspace :=
  .ofTexts [("A.java", "@SuppressWarnings @SuppressLint @Suppress class A \x7b \x7d")]

/-- A request to look at the class. -/
def lookAtClass : Request where
  project := .ofText "."

theorem keeps_first_findings_reversed :
    (∃ r first all, lookAtClass.loadRules reversed = .ok r ∧
      run reversed { lookAtClass with reportAll := false } = .ok first ∧
      run reversed { lookAtClass with reportAll := true } = .ok all ∧
      KeepsFirst r.table (lookAtClass.checked reversed r) first.report all.report ∧
      first.report.findings.length = 1 ∧ all.report.findings.length = 2) ∧
    (call reversed ["-v", "lint", "--strict", "--all-pairs", "--format", "json"]).exitCode = 1 ∧
    (call reversed ["-v", "lint", "--strict", "--format", "json"]).exitCode = 1 := by
  have hcall := keeps_first_findings.2 reversed ["-v"] ["--strict"] ["--format", "json"] _ _
    rfl rfl rfl (by decide)
  have hone : (call reversed ["-v", "lint", "--strict", "--format", "json"]).exitCode = 1 := by
    decide +kernel
  refine ⟨?_, hcall.trans hone, hone⟩
  have hread : lookAtClass.loadRules reversed = .ok .builtin := rfl
  rcases keeps_first_findings.1 reversed lookAtClass with
    ⟨e, he, -⟩ | ⟨r, first, all, hr, hfirst, hall, hkeeps, -⟩
  · cases (run_of_loadRules (q := { lookAtClass with reportAll := false }) hread).symm.trans he
  · refine ⟨r, first, all, hr, hfirst, hall, hkeeps, ?_, ?_⟩
    · obtain rfl := Except.ok.inj (hfirst.symm.trans (run_of_loadRules hread))
      decide +kernel
    · obtain rfl := Except.ok.inj (hall.symm.trans (run_of_loadRules hread))
      decide +kernel

end AnnotationOrder.Command
