/-
  JSON texts are read back.

  * `Json.isFinite`: a value without infinities, for which there are no JSON texts;
  * `Json.value`: what a value that is written says;
  * `reduce_append`: what stands above an opening bracket is put together;
  * `run_write`: a finite value, written anywhere, puts what it says on the stack, by one case for
    each kind of value;
  * `read_toText`: so what has been written is read back;
  * `isPlain_write`: only visible characters of ASCII and line ends are written.
-/
import AnnotationOrder.Proofs.Report.Float

namespace AnnotationOrder.Report.Json

open Text Number

variable {stack : List Symbol} {c : Char} {cs : List Char} {depth : Nat} {v : Value}

mutual

/-- A value without infinities. -/
def isFinite : Json → Bool
  | float x => x.isFinite
  | list items => areFinite items
  | object entries => areFiniteEntries entries
  | _ => true

/-- Items without infinities. -/
def areFinite : List Json → Bool
  | [] => true
  | x :: xs => x.isFinite && areFinite xs

/-- Entries without infinities. -/
def areFiniteEntries : List (String × Json) → Bool
  | [] => true
  | (_, x) :: xs => x.isFinite && areFiniteEntries xs

end

/-- What a floating-point number says. -/
def floatValue (x : Binary64) : Value := (word? (floatChars x)).getD .null

theorem word?_float {x : Binary64} (hx : x.isFinite = true) :
    word? (floatChars x) = some (floatValue x) := by
  obtain ⟨n, k, hread, -⟩ := word?_floatChars hx
  rw [floatValue, hread, Option.getD_some]

mutual

/-- What a value that is written says. -/
def value : Json → Value
  | null => .null
  | integer n => .number n 0
  | float x => floatValue x
  | text s => .text s
  | list items => .list (values items)
  | object entries => .object (entryValues entries)

/-- What items say. -/
def values : List Json → List Value
  | [] => []
  | x :: xs => x.value :: values xs

/-- What entries say. -/
def entryValues : List (String × Json) → List (String × Value)
  | [] => []
  | (k, x) :: xs => (k, x.value) :: entryValues xs

end

theorem values_eq_map (xs : List Json) : values xs = xs.map value := by
  induction xs with
  | nil => rfl
  | cons x xs ih => rw [values, ih, List.map_cons]

/-! ## Lists and objects -/

/-- What further items leave on the stack. -/
def itemSymbols (vs : List Value) : List Symbol := vs.flatMap fun v => [.mark ',', .value v]

/-- What an entry leaves on the stack. -/
def entrySymbols (entry : String × Value) : List Symbol :=
  [.value (.text entry.1), .mark ':', .value entry.2]

/-- What further entries leave on the stack. -/
def furtherSymbols (entries : List (String × Value)) : List Symbol :=
  entries.flatMap fun entry => .mark ',' :: entrySymbols entry

theorem listItems?_itemSymbols (v : Value) (vs : List Value) :
    listItems? (.value v :: itemSymbols vs) = some (v :: vs) := by
  induction vs generalizing v with
  | nil => rfl
  | cons w vs ih =>
    change (listItems? (.value w :: itemSymbols vs)).map (v :: ·) = _
    rw [ih, Option.map_some]

theorem objectEntries?_furtherSymbols (entry : String × Value) (entries : List (String × Value)) :
    objectEntries? (entrySymbols entry ++ furtherSymbols entries) = some (entry :: entries) := by
  induction entries generalizing entry with
  | nil => rfl
  | cons next entries ih =>
    change (objectEntries? (entrySymbols next ++ furtherSymbols entries)).map (entry :: ·) = _
    rw [ih, Option.map_some]

/-- What stands above an opening bracket is put together, and takes its place. -/
theorem reduce_append {opening : Char} {xs : List Symbol} (make : List Symbol → Option Value)
    (stack : List Symbol) (hxs : ∀ x ∈ xs, x.isMark opening = false) (hv : make xs = some v) :
    reduce opening make (xs.reverse ++ .mark opening :: stack) = some (.value v :: stack) := by
  have habove : ∀ x ∈ xs.reverse, (!x.isMark opening) = true := fun x hx => by
    rw [hxs x (List.mem_reverse.1 hx), Bool.not_false]
  have hbracket : (!(Symbol.mark opening).isMark opening) = false := by simp [Symbol.isMark]
  rw [reduce, List.dropWhile_append_of_pos habove, List.takeWhile_append_of_pos habove,
    List.dropWhile_cons_of_neg (Bool.not_eq_true _ ▸ hbracket),
    List.takeWhile_cons_of_neg (Bool.not_eq_true _ ▸ hbracket), List.append_nil,
    List.reverse_reverse, hv]
  rfl

theorem shift_list (v : Value) (vs : List Value) :
    shift ']' ((itemSymbols vs).reverse ++ .value v :: .mark '[' :: stack) =
      some (.value (.list (v :: vs)) :: stack) := by
  have hmarks : ∀ x ∈ Symbol.value v :: itemSymbols vs, x.isMark '[' = false := by
    simp only [itemSymbols, List.mem_cons, List.mem_flatMap, List.not_mem_nil, or_false]
    rintro x (rfl | ⟨w, -, rfl | rfl⟩) <;> rfl
  have h := reduce_append (fun xs => (listItems? xs).map .list) stack hmarks
    (by rw [listItems?_itemSymbols, Option.map_some])
  rw [List.reverse_cons, List.append_assoc] at h
  exact h

theorem shift_object (entry : String × Value) (entries : List (String × Value)) :
    shift '}' ((furtherSymbols entries).reverse ++ ((entrySymbols entry).reverse ++
      .mark '{' :: stack)) = some (.value (.object (entry :: entries)) :: stack) := by
  have hmarks : ∀ x ∈ entrySymbols entry ++ furtherSymbols entries, x.isMark '{' = false := by
    simp only [entrySymbols, furtherSymbols, List.mem_append, List.mem_cons, List.mem_flatMap,
      List.not_mem_nil, or_false]
    rintro x ((rfl | rfl | rfl) | ⟨next, -, rfl | rfl | rfl | rfl⟩) <;> rfl
  have h := reduce_append (fun xs => (objectEntries? xs).map .object) stack hmarks
    (by rw [objectEntries?_furtherSymbols, Option.map_some])
  rw [List.reverse_append, List.append_assoc] at h
  exact h

/-! ## Values -/

/-- A word is over in front of these characters. -/
def Apart (cs : List Char) : Prop := ∃ c ds, cs = c :: ds ∧ endsWord c = true

theorem apart_cons (hc : endsWord c = true) : Apart (c :: cs) := ⟨c, cs, rfl, hc⟩

theorem apart_newline : Apart (newline depth ++ cs) := apart_cons (by decide)

theorem apart_writeItems (xs : List Json) (h : Apart cs) : Apart (writeItems depth xs ++ cs) := by
  cases xs with
  | nil => exact h
  | cons x xs =>
    rw [writeItems]
    exact apart_cons (by decide)

theorem apart_writeEntries (xs : List (String × Json)) (h : Apart cs) :
    Apart (writeEntries depth xs ++ cs) := by
  cases xs with
  | nil => exact h
  | cons x xs =>
    rw [writeEntries]
    exact apart_cons (by decide)

namespace State

/-- A mark, between other things. -/
theorem run_mark {stack' : List Symbol} (c : Char) (hc : isMarkChar c = true)
    (hshift : shift c stack = some stack') :
    run ⟨stack, .between⟩ (c :: cs) = run ⟨stack', .between⟩ cs := by
  have hspace : isSpace c = false := by
    simp only [isMarkChar, List.contains_iff_mem, List.mem_cons, List.not_mem_nil, or_false] at hc
    rcases hc with rfl | rfl | rfl | rfl | rfl | rfl <;> decide
  apply run_cons
  rw [step_between, begin, hspace, hc, if_neg Bool.false_ne_true, if_pos rfl, hshift,
    Option.map_some]

theorem run_space (c : Char) (hc : isSpace c = true) :
    run ⟨stack, .between⟩ (c :: cs) = run ⟨stack, .between⟩ cs := by
  apply run_cons
  rw [step_between, begin, if_pos hc]

theorem run_newline (depth : Nat) :
    run ⟨stack, .between⟩ (newline depth ++ cs) = run ⟨stack, .between⟩ cs := by
  rw [newline, List.cons_append, run_space '\n' rfl]
  induction 2 * depth with
  | zero => rfl
  | succ n ih => rw [List.replicate_succ, List.cons_append, run_space ' ' rfl, ih]

theorem run_word_apart {w : List Char} (hw : ∀ c ∈ w, endsWord c = false)
    (hv : word? w = some v) (h : Apart cs) :
    run ⟨stack, .between⟩ (w ++ cs) = run ⟨.value v :: stack, .between⟩ cs := by
  obtain ⟨c, ds, rfl, hc⟩ := h
  exact run_word hw hv hc

theorem run_text (s : String) :
    run ⟨stack, .between⟩ (escaped s ++ cs) = run ⟨.value (.text s) :: stack, .between⟩ cs := by
  rw [run_append, run_escaped, Option.bind_some]

/-- A name with the mark behind it. -/
theorem run_key (k : String) :
    run ⟨stack, .between⟩ (escaped k ++ ':' :: ' ' :: cs) =
      run ⟨.mark ':' :: .value (.text k) :: stack, .between⟩ cs := by
  rw [run_text, run_mark ':' rfl rfl, run_space ' ' rfl]

mutual

/-- A finite value, written in front of something else, puts what it says on the stack. -/
theorem run_write : ∀ (j : Json) (depth : Nat) (stack : List Symbol) {cs : List Char},
    j.isFinite = true → Apart cs →
    run ⟨stack, .between⟩ (write depth j ++ cs) = run ⟨.value j.value :: stack, .between⟩ cs
  | .null, _, stack, cs, _, h => by
    rw [write, value]
    exact run_word_apart (fun _ => endsWord_of_mem_null) rfl h
  | .integer n, _, stack, cs, _, h => by
    rw [write, value]
    exact run_word_apart (fun _ hc => endsWord_of_isNumberChar (isNumberChar_of_mem_integer hc))
      (word?_integer n) h
  | .float x, _, stack, cs, hj, h => by
    rw [isFinite] at hj
    rw [write, value]
    exact run_word_apart
      (fun _ hc => endsWord_of_isNumberChar (isNumberChar_of_mem_floatChars hj hc))
      (word?_float hj) h
  | .text s, _, stack, cs, _, _ => by
    rw [write, value, run_text]
  | .list [], _, stack, cs, _, _ => by
    rw [write, value]
    rfl
  | .list (x :: xs), depth, stack, cs, hj, _ => by
    rw [isFinite, areFinite, Bool.and_eq_true] at hj
    simp only [write, value, values, List.append_assoc, List.cons_append, List.nil_append]
    rw [run_mark '[' rfl rfl, run_newline,
      run_write x (depth + 1) _ hj.1 (apart_writeItems xs apart_newline),
      run_writeItems xs (depth + 1) _ hj.2 apart_newline, run_newline,
      run_mark ']' rfl (shift_list _ _)]
  | .object [], _, stack, cs, _, _ => by
    rw [write, value]
    rfl
  | .object ((k, x) :: xs), depth, stack, cs, hj, _ => by
    rw [isFinite, areFiniteEntries, Bool.and_eq_true] at hj
    simp only [write, value, entryValues, List.append_assoc, List.cons_append, List.nil_append]
    rw [run_mark '{' rfl rfl, run_newline, run_key,
      run_write x (depth + 1) _ hj.1 (apart_writeEntries xs apart_newline),
      run_writeEntries xs (depth + 1) _ hj.2 apart_newline, run_newline]
    exact run_mark '}' rfl (shift_object (k, x.value) (entryValues xs))

/-- Further items, written in front of something else. -/
theorem run_writeItems : ∀ (xs : List Json) (depth : Nat) (stack : List Symbol) {cs : List Char},
    areFinite xs = true → Apart cs → run ⟨stack, .between⟩ (writeItems depth xs ++ cs) =
      run ⟨(itemSymbols (values xs)).reverse ++ stack, .between⟩ cs
  | [], _, stack, cs, _, _ => by
    rw [writeItems, values]
    rfl
  | x :: xs, depth, stack, cs, hxs, h => by
    rw [areFinite, Bool.and_eq_true] at hxs
    simp only [writeItems, values, List.append_assoc, List.cons_append]
    rw [run_mark ',' rfl rfl, run_newline, run_write x depth _ hxs.1 (apart_writeItems xs h),
      run_writeItems xs depth _ hxs.2 h]
    simp [itemSymbols]

/-- Further entries, written in front of something else. -/
theorem run_writeEntries : ∀ (xs : List (String × Json)) (depth : Nat) (stack : List Symbol)
    {cs : List Char}, areFiniteEntries xs = true → Apart cs →
    run ⟨stack, .between⟩ (writeEntries depth xs ++ cs) =
      run ⟨(furtherSymbols (entryValues xs)).reverse ++ stack, .between⟩ cs
  | [], _, stack, cs, _, _ => by
    rw [writeEntries, entryValues]
    rfl
  | (k, x) :: xs, depth, stack, cs, hxs, h => by
    rw [areFiniteEntries, Bool.and_eq_true] at hxs
    simp only [writeEntries, entryValues, List.append_assoc, List.cons_append]
    rw [run_mark ',' rfl rfl, run_newline, run_key,
      run_write x depth _ hxs.1 (apart_writeEntries xs h), run_writeEntries xs depth _ hxs.2 h]
    simp [furtherSymbols, entrySymbols]

end

/-- Where a line end leaves nothing begun, nothing but a word was. -/
theorem settle_of_run_newline {s : State} (h : s.run ['\n'] = some ⟨stack, .between⟩) :
    s.settle = some stack := by
  obtain ⟨below, mode⟩ := s
  cases mode with
  | between => exact congrArg (Option.map State.stack) h
  | word cs =>
    have hends : endsWord '\n' = true := rfl
    rw [run, step_word, if_pos hends] at h
    change (word? cs.reverse).map (.value · :: below) = some stack
    cases hv : word? cs.reverse with
    | none =>
      rw [hv] at h
      cases h
    | some v =>
      rw [hv] at h
      exact congrArg (Option.map State.stack) h
  | text us => cases h
  | escape us => cases h
  | digits us n left => cases h

end State

/-- What has been written is read back. -/
theorem read_toText {j : Json} (hj : j.isFinite = true) : read j.toText = some j.value := by
  have hline : State.run {} (write 0 j ++ ['\n']) = some ⟨[.value j.value], .between⟩ :=
    State.run_write j 0 [] hj (apart_cons rfl)
  rw [State.run_append] at hline
  obtain ⟨s, hs, hend⟩ := Option.bind_eq_some_iff.1 hline
  rw [read, toText, String.toList_ofList, hs, Option.bind_some, State.value?,
    State.settle_of_run_newline hend]

-- other layouts, numbers and escapes than those that are written are read, too
example : read "[-3, [ ],\n2.50e+3,\"\\ud83d\\ude00\\/\"]" =
    some (.list [.number (-3) 0, .list [], .number 250 1, .text "😀/"]) := by rfl

/-! ## Visible characters -/

/-- A line end or a visible character of ASCII. -/
def isPlain (c : Char) : Bool := c == '\n' || (' ' ≤ c && c ≤ '~')

theorem isPlain_of_isNumberChar (h : isNumberChar c = true) : isPlain c = true := by
  simp only [isNumberChar, isAsciiDigit, isPlain, Bool.and_eq_true, Bool.or_eq_true,
    decide_eq_true_eq, List.contains_iff_mem, List.mem_cons, List.not_mem_nil, or_false] at h ⊢
  rcases h with h | rfl | rfl | rfl | rfl
  · exact .inr ⟨Char.le_trans (by decide) h.1, Char.le_trans h.2 (by decide)⟩
  all_goals exact .inr ⟨by decide, by decide⟩

theorem isPlain_floatChars (x : Binary64) : (floatChars x).all isPlain = true := by
  cases x with
  | finite negative m e =>
    exact List.all_eq_true.2 fun _ hc =>
      isPlain_of_isNumberChar (isNumberChar_of_mem_floatChars rfl hc)
  | infinite negative => cases negative <;> decide
  | nan => decide

theorem isPlain_newline : (newline depth).all isPlain = true := by
  rw [newline, List.all_cons, List.all_replicate]
  simp [isPlain]

theorem isPlain_unitEscape {n : Nat} (hn : n < 0x10000) : (unitEscape n).all isPlain = true := by
  have hdigit : ∀ d < 16, isPlain (Nat.digitChar d) = true := by decide
  rw [unitEscape, hexDigits_four hn]
  simp only [List.map_cons, List.map_nil, List.all_cons, List.all_nil]
  rw [hdigit _ (by omega), hdigit _ (by omega), hdigit _ (by omega), hdigit _ (by omega)]
  rfl

theorem isPlain_escapedChar (c : Char) : (escapedChar c).all isPlain = true := by
  unfold escapedChar
  split_ifs with hquote hn hr ht hb hf hplain hplane
  · simp only [Bool.or_eq_true, beq_iff_eq] at hquote
    rcases hquote with rfl | rfl <;> rfl
  · rfl
  · rfl
  · rfl
  · rfl
  · rfl
  · rw [List.all_cons, isPlain, hplain, Bool.or_true]
    rfl
  · exact isPlain_unitEscape hplane
  · have hvalid : c.toNat < 0xd800 ∨ 0xdfff < c.toNat ∧ c.toNat < 0x110000 := c.valid
    rw [List.all_append, isPlain_unitEscape, isPlain_unitEscape]
    · rfl
    · simp only [surrogates]
      omega
    · simp only [surrogates]
      omega

theorem isPlain_escaped (s : String) : (escaped s).all isPlain = true := by
  have hchars : (s.toList.flatMap escapedChar).all isPlain = true := by
    rw [List.all_flatMap, List.all_eq_true]
    exact fun c _ => isPlain_escapedChar c
  rw [escaped, List.cons_append, List.all_cons, List.all_append, hchars]
  rfl

mutual

/-- Only visible characters of ASCII and line ends are written. -/
theorem isPlain_write : ∀ (j : Json) (depth : Nat), (write depth j).all isPlain = true
  | .null, _ => by
    rw [write]
    rfl
  | .integer n, _ => by
    rw [write]
    exact List.all_eq_true.2 fun _ hc => isPlain_of_isNumberChar (isNumberChar_of_mem_integer hc)
  | .float x, _ => by
    rw [write]
    exact isPlain_floatChars x
  | .text s, _ => by
    rw [write]
    exact isPlain_escaped s
  | .list [], _ => by
    rw [write]
    rfl
  | .list (x :: xs), depth => by
    simp only [write, List.all_append, List.all_cons, isPlain_newline,
      isPlain_write x (depth + 1), isPlain_writeItems xs (depth + 1)]
    rfl
  | .object [], _ => by
    rw [write]
    rfl
  | .object ((k, x) :: xs), depth => by
    simp only [write, List.all_append, List.all_cons, isPlain_newline, isPlain_escaped,
      isPlain_write x (depth + 1), isPlain_writeEntries xs (depth + 1)]
    rfl

theorem isPlain_writeItems : ∀ (xs : List Json) (depth : Nat),
    (writeItems depth xs).all isPlain = true
  | [], _ => by
    rw [writeItems]
    rfl
  | x :: xs, depth => by
    simp only [writeItems, List.all_append, List.all_cons, isPlain_newline, isPlain_write x depth,
      isPlain_writeItems xs depth]
    rfl

theorem isPlain_writeEntries : ∀ (xs : List (String × Json)) (depth : Nat),
    (writeEntries depth xs).all isPlain = true
  | [], _ => by
    rw [writeEntries]
    rfl
  | (k, x) :: xs, depth => by
    simp only [writeEntries, List.all_append, List.all_cons, isPlain_newline, isPlain_escaped,
      isPlain_write x depth, isPlain_writeEntries xs depth]
    rfl

end

end AnnotationOrder.Report.Json
