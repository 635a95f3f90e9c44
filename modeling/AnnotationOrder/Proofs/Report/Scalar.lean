/-
  Numbers and texts are read back.

  * `word?_integer`: the digits of an integer have its value;
  * `run_word`: in front of something else, a word is read as its value;
  * `ofUnits?_flatMap_units`: characters come back from their code units;
  * `run_escapedChar`: a character of a text leaves its code units, however it is written;
  * `run_escaped`: so a text is read as itself.
-/
import AnnotationOrder.Proofs.Report.Reader
import AnnotationOrder.Report.Json
import Mathlib.Data.List.TakeDrop
import Mathlib.Tactic.SplitIfs

namespace AnnotationOrder.Report.Json

open Text

variable {stack : List Symbol} {us : List Nat} {c : Char} {cs w ds rest : List Char} {v : Value}

/-! ## Numbers -/

theorem isAsciiDigit_of_isDigit (h : c.isDigit = true) : isAsciiDigit c = true := by
  simpa [Char.isDigit, isAsciiDigit, Char.le_def] using h

theorem isAsciiDigit_of_mem_toDigits {n : Nat} (h : c ∈ Nat.toDigits 10 n) :
    isAsciiDigit c = true :=
  isAsciiDigit_of_isDigit (Nat.isDigit_of_mem_toDigits (by decide) (by decide) h)

theorem head?_toDigits_append (n : Nat) (cs : List Char) :
    (Nat.toDigits 10 n ++ cs).head? = (Nat.toDigits 10 n).head? := by
  obtain ⟨d, ds, hd⟩ := List.exists_cons_of_ne_nil (Nat.toDigits_ne_nil : Nat.toDigits 10 n ≠ [])
  rw [hd]
  rfl

/-- No number but zero begins with a zero. -/
theorem eq_zero_of_head?_toDigits {n : Nat} (h : (Nat.toDigits 10 n).head? = some '0') : n = 0 := by
  induction n using Nat.strongRecOn with
  | ind n ih =>
    rcases Nat.lt_or_ge n 10 with hn | hn
    · rw [Nat.toDigits_of_lt_base hn] at h
      exact Nat.digitChar_eq_zero.1 (Option.some.inj h)
    · have hhead : (Nat.toDigits 10 (n / 10)).head? = some '0' := by
        rwa [Nat.toDigits_of_base_le (by decide) hn, head?_toDigits_append] at h
      have := ih (n / 10) (by omega) hhead
      omega

theorem digits?_append (hne : ds ≠ []) (hds : ∀ d ∈ ds, isAsciiDigit d = true)
    (hrest : rest.head?.any isAsciiDigit = false) : digits? (ds ++ rest) = some (ds, rest) := by
  have hhead : (ds ++ rest).head?.any isAsciiDigit = true := by
    obtain ⟨d, ds, rfl⟩ := List.exists_cons_of_ne_nil hne
    exact hds d List.mem_cons_self
  have hstop : rest.takeWhile isAsciiDigit = [] ∧ rest.dropWhile isAsciiDigit = rest := by
    cases rest with
    | nil => exact ⟨rfl, rfl⟩
    | cons c rest =>
      have hc : isAsciiDigit c = false := hrest
      simp [hc]
  rw [digits?, if_pos hhead, List.span_eq_takeWhile_dropWhile, List.takeWhile_append_of_pos hds,
    List.dropWhile_append_of_pos hds, hstop.1, hstop.2, List.append_nil]

theorem digits?_toDigits (n : Nat) (hrest : rest.head?.any isAsciiDigit = false) :
    digits? (Nat.toDigits 10 n ++ rest) = some (Nat.toDigits 10 n, rest) :=
  digits?_append Nat.toDigits_ne_nil (fun _ => isAsciiDigit_of_mem_toDigits) hrest

theorem whole?_toDigits (n : Nat) (hrest : rest.head?.any isAsciiDigit = false) :
    whole? (Nat.toDigits 10 n ++ rest) = some (Nat.toDigits 10 n, rest) := by
  unfold whole?
  split
  · rename_i cs heq
    have hhead := congrArg List.head? heq
    rw [head?_toDigits_append, List.head?_cons] at hhead
    obtain rfl := eq_zero_of_head?_toDigits hhead
    rw [Nat.toDigits_zero] at heq ⊢
    have hcs : rest = cs := (List.cons.inj heq).2
    rw [hcs]
  · exact digits?_toDigits n hrest

/-- The digits of an integer behind its sign. -/
theorem unsigned?_toDigits (minus : Bool) (n : Nat) :
    unsigned? minus (Nat.toDigits 10 n) = some (.number (signed minus n) 0) := by
  have hwhole : whole? (Nat.toDigits 10 n ++ []) = some (Nat.toDigits 10 n, []) :=
    whole?_toDigits n rfl
  rw [List.append_nil] at hwhole
  simp [unsigned?, hwhole, fraction?, exponent?]

theorem number?_of_head?_ne (h : cs.head? ≠ some '-') : number? cs = unsigned? false cs := by
  unfold number?
  split
  · exact absurd rfl h
  · rfl

theorem word?_of_digit (h : cs.head?.any (fun c => isAsciiDigit c || c == '-') = true) :
    word? cs = number? cs := by
  have hne (name : String) (hname : name.toList.head?.any (fun c => isAsciiDigit c || c == '-') =
      false) : cs ≠ name.toList := by
    rintro rfl
    rw [h] at hname
    cases hname
  rw [word?, if_neg (hne "null" (by decide)), if_neg (hne "true" (by decide)),
    if_neg (hne "false" (by decide))]

theorem head?_toDigits (n : Nat) : ∃ d, (Nat.toDigits 10 n).head? = some d ∧ isAsciiDigit d := by
  obtain ⟨d, ds, hd⟩ := List.exists_cons_of_ne_nil (Nat.toDigits_ne_nil : Nat.toDigits 10 n ≠ [])
  refine ⟨d, by rw [hd]; rfl, isAsciiDigit_of_mem_toDigits (n := n) ?_⟩
  rw [hd]
  exact List.mem_cons_self

/-- Digits in front, of some number, begin a number that is not negative. -/
theorem word?_toDigits_append (n : Nat) (cs : List Char) :
    word? (Nat.toDigits 10 n ++ cs) = unsigned? false (Nat.toDigits 10 n ++ cs) := by
  obtain ⟨d, hd, hdigit⟩ := head?_toDigits n
  rw [word?_of_digit, number?_of_head?_ne]
  · rw [head?_toDigits_append, hd]
    rintro ⟨⟩
    cases hdigit
  · rw [head?_toDigits_append, hd, Option.any_some, hdigit, Bool.true_or]

/-- An integer is read as itself. -/
theorem word?_integer (n : Int) : word? (toString n).toList = some (.number n 0) := by
  rw [Int.toString_eq_repr, Int.repr_eq_if]
  split_ifs with hn
  · rw [Nat.toList_repr, ← List.append_nil (Nat.toDigits 10 n.toNat), word?_toDigits_append,
      List.append_nil, unsigned?_toDigits]
    simp [signed, Int.toNat_of_nonneg hn]
  · rw [String.toList_append, Nat.toList_repr, word?_of_digit rfl]
    change unsigned? true (Nat.toDigits 10 (-n).toNat) = _
    rw [unsigned?_toDigits]
    simp only [signed, if_pos, Option.some.injEq, Value.number.injEq, and_true]
    omega

/-! ## Words -/

/-- A character that numbers are written with. -/
def isNumberChar (c : Char) : Bool := isAsciiDigit c || ['-', '.', 'e', '+'].contains c

theorem isNumberChar_of_isAsciiDigit (h : isAsciiDigit c = true) : isNumberChar c = true := by
  rw [isNumberChar, h, Bool.true_or]

theorem isNumberChar_of_mem_toDigits {n : Nat} (h : c ∈ Nat.toDigits 10 n) :
    isNumberChar c = true :=
  isNumberChar_of_isAsciiDigit (isAsciiDigit_of_mem_toDigits h)

theorem isNumberChar_of_mem_integer {n : Int} (h : c ∈ (toString n).toList) :
    isNumberChar c = true := by
  rw [Int.toString_eq_repr, Int.repr_eq_if] at h
  split_ifs at h
  · rw [Nat.toList_repr] at h
    exact isNumberChar_of_mem_toDigits h
  · rw [String.toList_append, Nat.toList_repr] at h
    rcases List.mem_append.1 h with h | h
    · rw [List.mem_singleton.1 h]
      rfl
    · exact isNumberChar_of_mem_toDigits h

theorem endsWord_of_isNumberChar (h : isNumberChar c = true) : endsWord c = false := by
  rw [Bool.eq_false_iff]
  intro hends
  simp only [endsWord, isSpace, isMarkChar, Bool.or_eq_true, beq_iff_eq, List.contains_iff_mem,
    List.mem_cons, List.not_mem_nil, or_false] at hends
  rcases hends with ((rfl | rfl | rfl | rfl) | rfl | rfl | rfl | rfl | rfl | rfl) | rfl <;> cases h

theorem endsWord_of_mem_null (h : c ∈ "null".toList) : endsWord c = false := by
  simp only [String.reduceToList, List.mem_cons, List.not_mem_nil, or_false] at h
  rcases h with rfl | rfl | rfl | rfl <;> rfl

namespace State

theorem run_wordChars (acc : List Char) (hw : ∀ c ∈ w, endsWord c = false) :
    run ⟨stack, .word acc⟩ w = some ⟨stack, .word (w.reverse ++ acc)⟩ := by
  induction w generalizing acc with
  | nil => rfl
  | cons c w ih =>
    have hstep : step ⟨stack, .word acc⟩ c = some ⟨stack, .word (c :: acc)⟩ := by
      rw [step_word, hw c (by simp), if_neg Bool.false_ne_true]
    rw [run_cons hstep, ih _ fun d hd => hw d (by simp [hd])]
    simp

theorem run_wholeWord (hne : w ≠ []) (hw : ∀ c ∈ w, endsWord c = false) :
    run ⟨stack, .between⟩ w = some ⟨stack, .word w.reverse⟩ := by
  obtain ⟨c, w, rfl⟩ := List.exists_cons_of_ne_nil hne
  have hc : endsWord c = false := hw c (by simp)
  simp only [endsWord, Bool.or_eq_false_iff, beq_eq_false_iff_ne] at hc
  have hstep : step ⟨stack, .between⟩ c = some ⟨stack, .word [c]⟩ := by
    rw [step_between, begin, hc.1.1, hc.1.2, if_neg Bool.false_ne_true, if_neg Bool.false_ne_true,
      if_neg hc.2]
  rw [run_cons hstep, run_wordChars _ fun d hd => hw d (by simp [hd])]
  simp

/-- In front of something else, a word puts its value on the stack. -/
theorem run_word (hw : ∀ c ∈ w, endsWord c = false) (hv : word? w = some v)
    (hc : endsWord c = true) :
    run ⟨stack, .between⟩ (w ++ c :: cs) = run ⟨.value v :: stack, .between⟩ (c :: cs) := by
  have hne : w ≠ [] := by
    rintro rfl
    cases hv
  rw [run_append, run_wholeWord hne hw, Option.bind_some, run, run, step_word, if_pos hc,
    List.reverse_reverse, hv]
  rfl

end State

/-! ## Code units -/

theorem ofUnits?_units_append (c : Char) (ns : List Nat) :
    ofUnits? (units c ++ ns) = (ofUnits? ns).map (c :: ·) := by
  have hvalid : c.toNat < 0xd800 ∨ 0xdfff < c.toNat ∧ c.toNat < 0x110000 := c.valid
  unfold units
  simp only
  split_ifs with hc
  · -- no character has the number of a unit of a pair
    have hhigh : isHigh c.toNat = false := by simp [isHigh]; omega
    have hlow : isLow c.toNat = false := by simp [isLow]; omega
    cases ns with
    | nil => simp [ofUnits?, hhigh, hlow]
    | cons n ns => simp [ofUnits?, hhigh, hlow]
  · have hhigh : isHigh (0xd800 + (c.toNat - 0x10000) / 0x400) = true := by
      simp [isHigh]
      omega
    have hlow : isLow (0xdc00 + (c.toNat - 0x10000) % 0x400) = true := by
      simp [isLow]
      omega
    have hvalue : 0x10000 + (0xd800 + (c.toNat - 0x10000) / 0x400 - 0xd800) * 0x400 +
        (0xdc00 + (c.toNat - 0x10000) % 0x400 - 0xdc00) = c.toNat := by omega
    rw [List.cons_append, List.singleton_append, ofUnits?, if_pos hhigh, if_pos hlow, hvalue,
      Char.ofNat_toNat]

theorem ofUnits?_flatMap_units (cs : List Char) : ofUnits? (cs.flatMap units) = some cs := by
  induction cs with
  | nil => rfl
  | cons c cs ih => rw [List.flatMap_cons, ofUnits?_units_append, ih, Option.map_some]

/-! ## Texts -/

theorem hexDigits_succ {width : Nat} (hwidth : 0 < width) (n : Nat) :
    (hexDigits (width + 1) n).toList =
      (hexDigits width (n / 16)).toList ++ [Nat.digitChar (n % 16)] := by
  rcases Nat.lt_or_ge n 16 with hn | hn
  · obtain ⟨k, rfl⟩ := Nat.exists_eq_succ_of_ne_zero (Nat.ne_of_gt hwidth)
    have hzeros : List.replicate k '0' ++ ['0'] = List.replicate (k + 1) '0' :=
      List.replicate_succ'.symm
    simp [hexDigits, Nat.toDigits_of_lt_base hn, Nat.div_eq_of_lt hn, Nat.mod_eq_of_lt hn, hzeros]
  · simp [hexDigits, Nat.toDigits_of_base_le (by decide : 1 < 16) hn]

theorem hexDigits_four {n : Nat} (hn : n < 0x10000) : (hexDigits 4 n).toList =
    [n / 4096, n / 256 % 16, n / 16 % 16, n % 16].map Nat.digitChar := by
  have hone : (hexDigits 1 (n / 4096)).toList = [Nat.digitChar (n / 4096)] := by
    rw [hexDigits, Nat.toDigits_of_lt_base (by omega : n / 4096 < 16)]
    simp
  have hdiv : n / 16 / 16 / 16 = n / 4096 ∧ n / 16 / 16 = n / 256 := by omega
  rw [hexDigits_succ (by decide), hexDigits_succ (by decide), hexDigits_succ (by decide), hdiv.1,
    hdiv.2, hone]
  rfl

theorem hexValue?_digitChar : ∀ n < 16, hexValue? (Nat.digitChar n) = some n := by decide

namespace State

theorem step_digit {d : Nat} (hd : d < 16) (m left : Nat) :
    step ⟨stack, .digits us m (left + 2)⟩ (Nat.digitChar d) =
      some ⟨stack, .digits us (m * 16 + d) (left + 1)⟩ := by
  rw [step_digits, hexValue?_digitChar d hd]
  rfl

theorem step_lastDigit {d : Nat} (hd : d < 16) (m : Nat) :
    step ⟨stack, .digits us m 1⟩ (Nat.digitChar d) = some ⟨stack, .text ((m * 16 + d) :: us)⟩ := by
  rw [step_digits, hexValue?_digitChar d hd]
  rfl

/-- An escape by digits stands for its code unit. -/
theorem run_unitEscape {n : Nat} (hn : n < 0x10000) :
    run ⟨stack, .text us⟩ (unitEscape n) = some ⟨stack, .text (n :: us)⟩ := by
  have hmod (k : Nat) : k % 16 < 16 := Nat.mod_lt _ (by decide)
  have hvalue : (((0 * 16 + n / 4096) * 16 + n / 256 % 16) * 16 + n / 16 % 16) * 16 + n % 16 = n := by
    omega
  have hbackslash : step ⟨stack, .text us⟩ '\\' = some ⟨stack, .escape us⟩ := rfl
  have hu : step ⟨stack, .escape us⟩ 'u' = some ⟨stack, .digits us 0 4⟩ := rfl
  rw [unitEscape, hexDigits_four hn, run_cons hbackslash, run_cons hu, List.map_cons, List.map_cons,
    List.map_cons, List.map_cons, List.map_nil, run_cons (step_digit (by omega) _ _),
    run_cons (step_digit (hmod _) _ _), run_cons (step_digit (hmod _) _ _),
    run_cons (step_lastDigit (hmod _) _), hvalue, run]

/-- However a character is written, it leaves its code units. -/
theorem run_escapedChar (c : Char) :
    run ⟨stack, .text us⟩ (escapedChar c) = some ⟨stack, .text ((units c).reverse ++ us)⟩ := by
  unfold escapedChar
  split_ifs with hquote hn hr ht hb hf hplain hplane
  · simp only [Bool.or_eq_true, beq_iff_eq] at hquote
    rcases hquote with rfl | rfl <;> rfl
  · rw [eq_of_beq hn]; rfl
  · rw [eq_of_beq hr]; rfl
  · rw [eq_of_beq ht]; rfl
  · rw [eq_of_beq hb]; rfl
  · rw [eq_of_beq hf]; rfl
  · simp only [Bool.or_eq_true, beq_iff_eq, not_or] at hquote
    simp only [Bool.and_eq_true, decide_eq_true_eq] at hplain
    have hstep : step ⟨stack, .text us⟩ c = some ⟨stack, .text ((units c).reverse ++ us)⟩ := by
      rw [step_text, stepText, if_neg hquote.1, if_neg hquote.2, if_neg (Char.not_lt.2 hplain.1)]
    rw [run_cons hstep, run]
  · have hunits : units c = [c.toNat] := by rw [units, if_pos hplane]
    rw [run_unitEscape hplane, hunits]
    rfl
  · have hvalid : c.toNat < 0xd800 ∨ 0xdfff < c.toNat ∧ c.toNat < 0x110000 := c.valid
    have hunits : units c = [(surrogates c.toNat).1, (surrogates c.toNat).2] := by
      rw [units, if_neg hplane]
      rfl
    have hhigh : (surrogates c.toNat).1 < 0x10000 := by
      simp only [surrogates]
      omega
    have hlow : (surrogates c.toNat).2 < 0x10000 := by
      simp only [surrogates]
      omega
    rw [run_append, run_unitEscape hhigh, Option.bind_some, run_unitEscape hlow, hunits]
    rfl

theorem run_flatMap_escapedChar (cs : List Char) :
    run ⟨stack, .text us⟩ (cs.flatMap escapedChar) =
      some ⟨stack, .text ((cs.flatMap units).reverse ++ us)⟩ := by
  induction cs generalizing us with
  | nil => rfl
  | cons c cs ih =>
    rw [List.flatMap_cons, run_append, run_escapedChar, Option.bind_some, ih]
    simp

/-- A text is read as itself. -/
theorem run_escaped (s : String) :
    run ⟨stack, .between⟩ (escaped s) = some ⟨.value (.text s) :: stack, .between⟩ := by
  have hopen : step ⟨stack, .between⟩ '"' = some ⟨stack, .text []⟩ := rfl
  have hclose : run ⟨stack, .text (s.toList.flatMap units).reverse⟩ ['"'] =
      some ⟨.value (.text s) :: stack, .between⟩ := by
    rw [run, step_text, stepText, if_pos rfl, List.reverse_reverse, ofUnits?_flatMap_units,
      Option.map_some, String.ofList_toList]
    rfl
  rw [escaped, List.cons_append, run_cons hopen, run_append, run_flatMap_escapedChar,
    List.append_nil, Option.bind_some, hclose]

end State

end AnnotationOrder.Report.Json
