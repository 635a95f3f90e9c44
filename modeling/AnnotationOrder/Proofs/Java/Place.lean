/-
  Places in a source.

  * `row_after`, `column_after`, `offset_after`: the place behind some characters counts
    their rows, the bytes of the last one and all their bytes;
  * `charColumn_after`: from these, the characters of the last row are found again;
  * `IsPoint`: a place in a source agrees with what is in front of it;
  * `exists_stretch`: between two places of a source is a stretch of it;
  * `Span.Before`: spans by their lines, and by their columns in one line.
-/
import Mathlib.Data.List.DropRight
import AnnotationOrder.Java.Declaration
import AnnotationOrder.Java.Position
import AnnotationOrder.Proofs.Text.Lines
import AnnotationOrder.Proofs.Text.Utf8

namespace AnnotationOrder.Java

open Text

/-! ## Places -/

theorem after_append (p : Position) (xs ys : List Char) :
    p.after (xs ++ ys) = (p.after xs).after ys := by
  simp [Position.after, List.foldl_append]

theorem row_after (cs : List Char) : (Position.after {} cs).row = cs.count '\n' := by
  induction cs using List.reverseRecOn with
  | nil => rfl
  | append_singleton cs c ih =>
    simp only [Position.after, List.foldl_append, List.foldl_cons, List.foldl_nil] at ih ⊢
    by_cases hc : c = '\n'
    · simp [Position.next, hc, ih]
    · simp [Position.next, hc, ih]

theorem length_encode_concat (cs : List Char) (c : Char) :
    (Utf8.encode (cs ++ [c])).length = (Utf8.encode cs).length + c.utf8Size := by
  rw [Utf8.encode_append, List.length_append, Nat.add_left_cancel_iff, Utf8.encode,
    List.flatMap_singleton, String.length_utf8EncodeChar]

theorem column_after (cs : List Char) :
    (Position.after {} cs).column = (Utf8.encode (lastRow cs)).length := by
  induction cs using List.reverseRecOn with
  | nil => rfl
  | append_singleton cs c ih =>
    simp only [Position.after, List.foldl_append, List.foldl_cons, List.foldl_nil] at ih ⊢
    by_cases hc : c = '\n'
    · rw [lastRow, List.rtakeWhile_concat_neg _ _ _ (by simp [hc])]
      simp [Position.next, hc, Utf8.encode]
    · rw [lastRow, List.rtakeWhile_concat_pos _ _ _ (by simp [hc]), length_encode_concat]
      simp [Position.next, hc, ih, lastRow]

theorem offset_after (cs : List Char) :
    (Position.after {} cs).offset = (Utf8.encode cs).length := by
  induction cs using List.reverseRecOn with
  | nil => rfl
  | append_singleton cs c ih =>
    simp only [Position.after, List.foldl_append, List.foldl_cons, List.foldl_nil] at ih ⊢
    rw [length_encode_concat, ← ih, Position.next]
    split_ifs <;> rfl

/-- **Columns in characters.**  The bytes of the row in front of a place are those of its
    characters, so these are found again. -/
theorem charColumn_after (before rest : List Char) :
    charColumn (Utf8.encode (before ++ rest)) (Position.after {} before) =
      (lastRow before).length := by
  obtain ⟨rows, hrows⟩ : lastRow before <:+ before := List.rtakeWhile_suffix _ _
  have hfront : (Utf8.encode (before ++ rest)).take (Utf8.encode before).length =
      Utf8.encode rows ++ Utf8.encode (lastRow before) := by
    rw [Utf8.encode_append, List.take_left, ← Utf8.encode_append, hrows]
  have hstart : (Utf8.encode before).length - (Utf8.encode (lastRow before)).length =
      (Utf8.encode rows).length := by
    conv_lhs => rw [← hrows, Utf8.encode_append, List.length_append, hrows]
    omega
  simp only [charColumn, offset_after, column_after, hstart, hfront, List.drop_left,
    Utf8.decodeReplacing_encode]

theorem lastRow_append {cs name : List Char} (h : ∀ c ∈ name, c ≠ '\n') :
    lastRow (cs ++ name) = lastRow cs ++ name := by
  induction name using List.reverseRecOn with
  | nil => simp
  | append_singleton name c ih =>
    have hc : c ≠ '\n' := h c (by simp)
    have hname := ih fun d hd => h d (by simp [hd])
    rw [lastRow] at hname ⊢
    rw [← List.append_assoc, List.rtakeWhile_concat_pos _ _ _ (by simp [hc]), hname,
      List.append_assoc]

/-- Behind some characters, a place is on a later line or further on in the same one. -/
theorem before_append (before : List Char) {cs : List Char} (hne : cs ≠ []) :
    before.count '\n' < (before ++ cs).count '\n' ∨
      before.count '\n' = (before ++ cs).count '\n' ∧
        (lastRow before).length < (lastRow (before ++ cs)).length := by
  rw [List.count_append]
  by_cases hrow : '\n' ∈ cs
  · exact .inl (Nat.lt_add_of_pos_right (List.count_pos_iff.2 hrow))
  · have hlast : lastRow (before ++ cs) = lastRow before ++ cs :=
      lastRow_append fun c hc heq => hrow (heq ▸ hc)
    have hpos : 0 < cs.length := List.length_pos_iff.2 hne
    rw [List.count_eq_zero.2 hrow, hlast, List.length_append]
    exact .inr ⟨rfl, Nat.lt_add_of_pos_right hpos⟩

theorem length_encode_pos {cs : List Char} (h : cs ≠ []) : 0 < (Utf8.encode cs).length := by
  obtain ⟨cs, c, rfl⟩ := (List.eq_nil_or_concat' cs).resolve_left h
  rw [length_encode_concat]
  exact Nat.add_pos_right _ c.utf8Size_pos

/-! ## Places of a source -/

variable {source : String} {p q : Position}

/-- A place of a source: it is behind some characters at the start of the source. -/
def IsPoint (source : String) (p : Position) : Prop :=
  ∃ before, before <+: source.toList ∧ p = Position.after {} before

/-- What is in front of a place of a source is in front of those behind it. -/
theorem prefix_of_offset_le {xs ys : List Char} (hxs : xs <+: source.toList)
    (hys : ys <+: source.toList)
    (h : (Position.after {} xs).offset ≤ (Position.after {} ys).offset) : xs <+: ys := by
  refine (List.prefix_or_prefix_of_prefix hxs hys).elim id fun hyx => ?_
  obtain ⟨cs, rfl⟩ := hyx
  obtain rfl : cs = [] := by
    by_contra hne
    have hpos := length_encode_pos hne
    rw [offset_after, offset_after, Utf8.encode_append, List.length_append] at h
    omega
  simp

/-- Places of a source are told apart by their offsets. -/
theorem eq_of_offset_eq {xs ys : List Char} (hxs : xs <+: source.toList)
    (hys : ys <+: source.toList)
    (h : (Position.after {} xs).offset = (Position.after {} ys).offset) : xs = ys :=
  (prefix_of_offset_le hxs hys h.le).eq_of_length_le (prefix_of_offset_le hys hxs h.ge).length_le

/-- Between two places of a source is a stretch of it. -/
theorem exists_stretch (hp : IsPoint source p) (hq : IsPoint source q) (h : p.offset ≤ q.offset) :
    ∃ before cs behind, source.toList = before ++ (cs ++ behind) ∧
      p = Position.after {} before ∧ q = Position.after {} (before ++ cs) := by
  obtain ⟨xs, hxs, rfl⟩ := hp
  obtain ⟨ys, hys, rfl⟩ := hq
  obtain ⟨cs, rfl⟩ := prefix_of_offset_le hxs hys h
  obtain ⟨behind, hs⟩ := hys
  exact ⟨xs, cs, behind, by rw [← hs, List.append_assoc], rfl, rfl⟩

/-- Further on in a source, the rows are not fewer. -/
theorem row_le_of_offset_le (hp : IsPoint source p) (hq : IsPoint source q)
    (h : p.offset ≤ q.offset) : p.row ≤ q.row := by
  obtain ⟨before, cs, behind, -, rfl, rfl⟩ := exists_stretch hp hq h
  rw [row_after, row_after, List.count_append]
  exact Nat.le_add_right _ _

/-- Further on in a source, a place is in a later row or behind in the same one. -/
theorem row_lt_or_charColumn_lt (hp : IsPoint source p) (hq : IsPoint source q)
    (h : p.offset < q.offset) :
    p.row < q.row ∨ p.row = q.row ∧ charColumn (Utf8.encode source.toList) p <
      charColumn (Utf8.encode source.toList) q := by
  obtain ⟨before, cs, behind, hs, rfl, rfl⟩ := exists_stretch hp hq h.le
  have hne : cs ≠ [] := by
    rintro rfl
    rw [List.append_nil] at h
    exact Nat.lt_irrefl _ h
  rw [row_after, row_after]
  rw [hs, charColumn_after, ← List.append_assoc, charColumn_after]
  exact before_append before hne

/-! ## Spans in their order -/

/-- A span begins in front of another one. -/
def Span.Before (s t : Span) : Prop :=
  s.line < t.line ∨ s.line = t.line ∧ s.column < t.column

theorem Span.Before.ne {s t : Span} (h : s.Before t) : s ≠ t := by
  rintro rfl
  rcases h with h | ⟨-, h⟩
  · exact Int.lt_irrefl _ h
  · exact Int.lt_irrefl _ h

end AnnotationOrder.Java
