/-
  The tokens of a source stand where their positions say.

  * `exists_of_mem_tokens`: a token is a stretch of the source, and its position is the
    place behind what stands in front of it;
  * `pairwise_tokens`: tokens stand one behind the other;
  * `chars_of_mem_tokens`: a word has characters of names only, so no line ends in it.
-/
import AnnotationOrder.Java.Token
import AnnotationOrder.Proofs.Java.Place

namespace AnnotationOrder.Java

open Text

theorem exists_of_mem_tokensFrom {t : Token} {p : Position} {xs : List Lexeme}
    (h : t ∈ tokensFrom p xs) : ∃ ys zs, xs = ys ++ ⟨t.shape, t.chars⟩ :: zs ∧
      t.position = p.after (ys.map (·.chars)).flatten := by
  induction xs generalizing p with
  | nil => simp [tokensFrom] at h
  | cons x xs ih =>
    have hrest (h : t ∈ tokensFrom (p.after x.chars) xs) :
        ∃ ys zs, x :: xs = ys ++ ⟨t.shape, t.chars⟩ :: zs ∧
          t.position = p.after (ys.map (·.chars)).flatten := by
      obtain ⟨ys, zs, rfl, hp⟩ := ih h
      exact ⟨x :: ys, zs, rfl, by rw [hp, List.map_cons, List.flatten_cons, after_append]⟩
    simp only [tokensFrom] at h
    split_ifs at h with hg
    · exact hrest h
    · rcases List.mem_cons.1 h with rfl | h
      · exact ⟨[], xs, rfl, rfl⟩
      · exact hrest h

/-- A token is a stretch of the source, with its place. -/
theorem exists_of_mem_tokens {source : String} {t : Token} (h : t ∈ tokens source) :
    ∃ before behind, source.toList = before ++ (t.chars ++ behind) ∧
      t.position = Position.after {} before := by
  obtain ⟨ys, zs, hxs, hp⟩ := exists_of_mem_tokensFrom h
  refine ⟨(ys.map (·.chars)).flatten, (zs.map (·.chars)).flatten, ?_, hp⟩
  rw [← lexemes_flatten source.toList, hxs]
  simp

/-! ### Their order -/

/-- A token ends where another one begins, or in front of it. -/
def Token.Precedes (t u : Token) : Prop := t.stop.offset ≤ u.position.offset

theorem offset_le_after (p : Position) (cs : List Char) : p.offset ≤ (p.after cs).offset := by
  induction cs generalizing p with
  | nil => exact Nat.le_refl _
  | cons c cs ih =>
    have hnext : p.offset ≤ (p.next c).offset := by
      rw [Position.next]
      split_ifs <;> exact Nat.le_add_right _ _
    exact hnext.trans (ih _)

theorem pairwise_tokensFrom (p : Position) (xs : List Lexeme) :
    (tokensFrom p xs).Pairwise Token.Precedes := by
  induction xs generalizing p with
  | nil => exact .nil
  | cons x xs ih =>
    rw [tokensFrom]
    split_ifs with hg
    · exact ih _
    · refine List.pairwise_cons.2 ⟨fun u hu => ?_, ih _⟩
      obtain ⟨ys, -, -, hp⟩ := exists_of_mem_tokensFrom hu
      rw [Token.Precedes, hp]
      exact offset_le_after _ _

/-- The tokens of a source stand one behind the other. -/
theorem pairwise_tokens (source : String) : (tokens source).Pairwise Token.Precedes :=
  pairwise_tokensFrom _ _

/-! ## Words -/

/-- A character of a word: of a name or of the word with a dash. -/
def isNameChar (c : Char) : Bool := isWordChar c || c == '-'

theorem isBlank_of_isLineEnd {c : Char} (h : isLineEnd c = true) : isBlank c = true := by
  simp only [isLineEnd, isBlank, Bool.or_eq_true, Bool.and_eq_true, decide_eq_true_eq,
    beq_iff_eq] at h ⊢
  omega

theorem toNat_lt_of_isAlpha {c : Char} (h : c.isAlpha = true) : c.toNat < 0x80 := by
  have hval : c.val.toNat = c.toNat := rfl
  have hZ : 'Z'.val.toNat = 90 := rfl
  have hz : 'z'.val.toNat = 122 := rfl
  change (decide (c.val ≥ 'A'.val ∧ c.val ≤ 'Z'.val) || (c.val ≥ 'a'.val && c.val ≤ 'z'.val)) =
    true at h
  simp only [Bool.or_eq_true, Bool.and_eq_true, decide_eq_true_eq, UInt32.le_iff_toNat_le] at h
  omega

/-- Beyond ASCII, only what does not separate belongs to a word. -/
theorem isGapChar_of_isNameChar {c : Char} (h : isNameChar c = true) (ha : 0x80 ≤ c.toNat) :
    isGapChar c = false := by
  simp only [isNameChar, isWordChar, isWordStart, isAsciiDigit, Bool.or_eq_true, Bool.and_eq_true,
    decide_eq_true_eq, beq_iff_eq, Bool.not_eq_true'] at h
  rcases h with ((((h | rfl) | rfl) | h) | h) | rfl
  · have := toNat_lt_of_isAlpha h
    omega
  · exact absurd ha (by decide)
  · exact absurd ha (by decide)
  · exact h.2
  · have : c.toNat ≤ 57 := h.2
    omega
  · exact absurd ha (by decide)

/-- Characters of words are no blanks, and they are none of the marks of an annotation. -/
theorem isBlank_of_isNameChar {c : Char} (h : isNameChar c = true) :
    isBlank c = false ∧ c ≠ '.' ∧ c ≠ '@' := by
  by_cases ha : 0x80 ≤ c.toNat
  · have hgap := isGapChar_of_isNameChar h ha
    simp only [isGapChar, Bool.or_eq_false_iff] at hgap
    refine ⟨hgap.1.1, ?_, ?_⟩
    · rintro rfl; exact absurd ha (by decide)
    · rintro rfl; exact absurd ha (by decide)
  · have hascii : ∀ n < 0x80, isNameChar (Char.ofNat n) = true →
        isBlank (Char.ofNat n) = false ∧ Char.ofNat n ≠ '.' ∧ Char.ofNat n ≠ '@' := by
      decide +kernel
    have := hascii c.toNat (by omega)
    rw [Char.ofNat_toNat] at this
    exact this h

theorem isLineEnd_of_isNameChar {c : Char} (h : isNameChar c = true) : isLineEnd c = false := by
  by_contra hc
  rw [Bool.not_eq_false] at hc
  have := (isBlank_of_isNameChar h).1
  rw [isBlank_of_isLineEnd hc] at this
  exact absurd this (by decide)

/-! ### The characters of a word -/

theorem shapeAt_word {c : Char} {cs : List Char} {n : Nat} (h : shapeAt (c :: cs) = (.word, n)) :
    isWordStart c = true ∧ n = wordLength (c :: cs) := by
  unfold shapeAt at h
  split at h
  · simp at h
  · simp at h
  · simp at h
  · rename_i d ds _ _ heq
    obtain ⟨rfl, rfl⟩ := List.cons.inj heq
    split_ifs at h with hg hw
    · simp at h
    · exact ⟨hw, (Prod.mk.inj h).2.symm⟩
    all_goals simp at h

theorem lexemeAt_word {mode next : Mode} {c : Char} {cs : List Char} {n : Nat}
    (h : lexemeAt mode (c :: cs) = (.word, n, next)) :
    isWordStart c = true ∧ n = wordLength (c :: cs) := by
  unfold lexemeAt at h
  split at h
  · -- pieces of strings and the marks of holes are no words
    split_ifs at h <;> simp [pieceAt] at h
  · split at h
    · simp [pieceAt] at h
    · obtain ⟨hs, hn⟩ := Prod.mk.inj h
      exact shapeAt_word (Prod.ext hs (Prod.mk.inj hn).1)

/-- A word is as long as a stretch at the start of the text that has characters of words only. -/
theorem exists_isPrefix_wordLength {c : Char} (cs : List Char) (h : isWordStart c = true) :
    ∃ w, w <+: c :: cs ∧ w.length = wordLength (c :: cs) ∧ w ≠ [] ∧
      ∀ d ∈ w, isNameChar d = true := by
  unfold wordLength
  split_ifs with hd
  · simp only [Bool.and_eq_true] at hd
    have hall : dashedWord.all isNameChar = true := by decide +kernel
    exact ⟨dashedWord, List.isPrefixOf_iff_prefix.1 hd.1, rfl, by decide, List.all_eq_true.1 hall⟩
  · refine ⟨(c :: cs).takeWhile isWordChar, List.takeWhile_prefix _, rfl, ?_, ?_⟩
    · simp [isWordChar, h]
    · intro d hd
      simp [isNameChar, List.mem_takeWhile_imp hd]

theorem chars_of_word {mode : Mode} {cs : List Char} {x : Lexeme} (hx : x ∈ lexemesFrom mode cs)
    (hw : x.shape = .word) : x.chars ≠ [] ∧ ∀ c ∈ x.chars, isNameChar c = true := by
  induction mode, cs using lexemesFrom.induct with
  | case1 => simp [lexemesFrom] at hx
  | case2 mode c cs shape n next heq ih =>
    rw [lexemesFrom, heq] at hx
    rcases List.mem_cons.1 hx with rfl | hx
    · obtain rfl : shape = .word := hw
      obtain ⟨hc, rfl⟩ := lexemeAt_word heq
      obtain ⟨w, hpre, hlen, hne, hall⟩ := exists_isPrefix_wordLength cs hc
      have hchars : c :: cs.take (wordLength (c :: cs) - 1) = w := by
        rw [← hlen]
        obtain ⟨d, w, rfl⟩ := List.exists_cons_of_ne_nil hne
        obtain ⟨rfl, hpre⟩ := List.cons_prefix_cons.1 hpre
        simpa using (List.prefix_iff_eq_take.1 hpre).symm
      rw [hchars]
      exact ⟨hne, hall⟩
    · exact ih hx

/-- A word of a source has characters of words only, at least one. -/
theorem chars_of_mem_tokens {source : String} {t : Token} (h : t ∈ tokens source)
    (hw : t.shape = .word) : t.chars ≠ [] ∧ ∀ c ∈ t.chars, isNameChar c = true := by
  obtain ⟨ys, zs, hxs, -⟩ := exists_of_mem_tokensFrom h
  have hm : (⟨t.shape, t.chars⟩ : Lexeme) ∈ lexemes source.toList := by
    rw [hxs]
    simp
  exact chars_of_word hm hw

end AnnotationOrder.Java
