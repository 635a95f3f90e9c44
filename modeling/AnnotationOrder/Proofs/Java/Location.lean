/-
  Where the annotations of a source stand.

  A parser of the language is given, with what it makes sure of in the tree of a
  source: its places agree with the source, children are in order, and names are
  made of identifiers.

  * `exists_scanSource_eq_ok`: a scan of such a tree gives a result;
  * `exists_of_mem_scanSource`: the annotations of declarations are nodes of the tree;
  * `Span.Covers`: a span covers a name in one of the rows of a text;
  * `IsLastPart`: an annotation has the last part of the name that it is written with;
  * `located_of_scanSource`: the locations of the annotations that a scan finds.
-/
import AnnotationOrder.Proofs.Java.Grammar

namespace AnnotationOrder.Java

open AnnotationOrder.Order Text

variable {parse : String → Node} {source : String} {ds : List Declaration} {d : Declaration}
  {a : Annot Span}

/-! ## Scans give results -/

theorem exists_annotationsOf_eq_ok {bytes : List UInt8} {ns : List Node}
    (h : ∀ n ∈ ns, ∃ a, annotationAt bytes n = .ok a) : ∃ as, annotationsOf bytes ns = .ok as := by
  induction ns with
  | nil => exact ⟨[], rfl⟩
  | cons n ns ih =>
    obtain ⟨a, ha⟩ := h n List.mem_cons_self
    obtain ⟨as, has⟩ := ih fun n hn => h n (List.mem_cons_of_mem _ hn)
    exact ⟨_, annotationsOf_cons_eq_ok_iff.2 ⟨a, as, ha, has, rfl⟩⟩

section

variable {root : Node} {bytes : List UInt8}
  (ht : ∀ n, root.Has n → ∃ text, n.text? bytes = .ok text)
include ht

theorem exists_annotationAt_eq_ok {n : Node} (h : root.Has n) :
    ∃ a, annotationAt bytes n = .ok a := by
  unfold annotationAt
  split_ifs
  · exact ⟨none, rfl⟩
  · split
    · exact ⟨none, rfl⟩
    · rename_i m hm
      obtain ⟨text, htext⟩ := ht m (h.trans (has_of_annotationName? hm))
      exact ⟨_, by rw [htext]; rfl⟩

theorem exists_declarationName_eq_ok {owner : Node} (h : root.Has owner) :
    ∃ name, declarationName bytes owner = .ok name := by
  have htextOf {n : Node} (hn : root.Has n) (field : String) :
      ∃ text, textOf bytes (n.child? field) = .ok text := by
    cases hc : n.child? field with
    | none => exact ⟨none, rfl⟩
    | some c => exact ht c (hn.trans (Node.has_child (Node.mem_of_child? hc)))
  obtain ⟨text, htext⟩ := htextOf h "name"
  rw [declarationName, htext]
  cases text with
  | some name => exact ⟨_, rfl⟩
  | none =>
    cases hc : owner.child? "declarator" with
    | none => exact ⟨_, rfl⟩
    | some declarator =>
      exact htextOf (h.trans (Node.has_child (Node.mem_of_child? hc))) "name"

theorem exists_declarationAt_eq_ok {owner? : Option Node} {n : Node} (h : root.Has n)
    (howner : ∀ owner, owner? = some owner → root.Has owner) :
    ∃ d, declarationAt bytes owner? n = .ok d := by
  cases owner? with
  | none => exact ⟨none, rfl⟩
  | some owner =>
    obtain ⟨as, has⟩ := exists_annotationsOf_eq_ok fun c hc =>
      exists_annotationAt_eq_ok ht (h.trans (Node.has_child hc))
    obtain ⟨name, hname⟩ := exists_declarationName_eq_ok ht (howner owner rfl)
    simp only [declarationAt, has, hname, bind, Except.bind]
    split_ifs <;> exact ⟨_, rfl⟩

/-- The visits to a node of a tree give a result. -/
theorem exists_visits_eq_ok {n : Node} (h : root.Has n) :
    ∃ ds, declarationsAmong bytes (n.visits none) = .ok ds := by
  refine exists_declarationsAmong_eq_ok fun v hv => ?_
  obtain ⟨hhas, hown⟩ := has_of_mem_visits _ hv
  refine exists_declarationAt_eq_ok ht (h.trans hhas) fun owner ho => ?_
  rcases hown with rfl | ⟨owner', ho', hin, -⟩
  · cases ho
  · exact Option.some.inj (ho'.symm.trans ho) ▸ h.trans hin

end

/-- **Scans give results**, as long as the places of the tree agree with the source. -/
theorem exists_scanSource_eq_ok (points : (parse source).PointsAgree source)
    (order : ∀ n, (parse source).Has n → n.IsOrdered) : ∃ ds, scanSource parse source = .ok ds := by
  obtain ⟨ds, hds⟩ :=
    exists_visits_eq_ok (fun n hn => exists_text_eq_ok points order hn) (.refl (parse source))
  by_cases hb : blank source = true
  · exact ⟨[], scanSource_eq_ok_iff.2 (by rw [if_pos hb])⟩
  · exact ⟨ds, scanSource_eq_ok_iff.2 (by rw [if_neg hb]; exact hds)⟩

/-- The declarations of a scan are found at modifiers of the tree. -/
theorem exists_modifiers_of_mem_scanSource (h : scanSource parse source = .ok ds) (hd : d ∈ ds) :
    ∃ owner n, (parse source).Has owner ∧ n ∈ owner.children ∧ n.type = "modifiers" ∧
      annotationsOf (Utf8.encode source.toList) n.children = .ok d.annotations ∧
      d.annotations ≠ [] ∧ d.line = owner.start.row + 1 := by
  rw [scanSource_eq_ok_iff] at h
  split_ifs at h
  · rw [h] at hd
    cases hd
  · obtain ⟨v, hv, hat⟩ := exists_of_mem_declarationsAmong h hd
    obtain ⟨htype, has, hne, owner, ho, hline⟩ := declarationAt_eq_ok_some hat
    rcases (has_of_mem_visits _ hv).2 with rfl | ⟨owner', ho', hin, hmem⟩
    · cases ho
    · obtain rfl := Option.some.inj (ho'.symm.trans ho)
      exact ⟨owner', v.2, hin, hmem, htype, has, hne, hline⟩

/-- The annotations of a scan are nodes of the tree, below the ones where their declarations
    begin. -/
theorem exists_of_mem_scanSource (h : scanSource parse source = .ok ds) (hd : d ∈ ds)
    (ha : a ∈ d.annotations) :
    ∃ owner n m, (parse source).Has owner ∧ owner.Has n ∧ n.isAnnotationNode = true ∧
      n.annotationName? = some m ∧
      m.text? (Utf8.encode source.toList) = .ok (some a.name) ∧
      a.location = m.span (Utf8.encode source.toList) ∧ d.line = owner.start.row + 1 := by
  obtain ⟨owner, n, howner, hn, -, has, -, hline⟩ := exists_modifiers_of_mem_scanSource h hd
  obtain ⟨c, hc, hat⟩ := exists_of_mem_annotationsOf has ha
  obtain ⟨hannot, m, hm, htext, hloc⟩ := annotationAt_eq_ok_some_iff.1 hat
  exact ⟨owner, c, m, howner, .step hn (Node.has_child hc), hannot, hm, htext, hloc, hline⟩

/-! ## Spans -/

/-- A span covers a name in a text: its line is one of the rows, and in this row the name is what
    stands between its columns. -/
structure Span.Covers (s : Span) (source : String) (name : String) : Prop where
  one_le_line : 1 ≤ s.line
  line_le : s.line ≤ (rows source).length
  column_nonneg : 0 ≤ s.column
  column_lt : s.column < s.endColumn
  row : ∃ row, (rows source)[(s.line - 1).toNat]? = some row ∧ s.endColumn ≤ row.length ∧
    (row.take s.endColumn.toNat).drop s.column.toNat = name.toList

/-- A name in a text is covered by the span that counts the rows in front of it, and what is in
    front of it in its row. -/
theorem covers_of_eq_append {before behind : List Char} {name : String}
    (hs : source.toList = before ++ (name.toList ++ behind)) (hne : name.toList ≠ [])
    (hrow : ∀ c ∈ name.toList, c ≠ '\n') :
    Span.Covers ⟨(before.count '\n' + 1 : Nat), (lastRow before).length,
      ((lastRow before).length + name.toList.length : Nat)⟩ source name := by
  have hpos : 0 < name.toList.length := List.length_pos_iff.2 hne
  have hat := getElem?_rows hs
  rw [List.takeWhile_append_of_pos fun c hc => bne_iff_ne.2 (hrow c hc)] at hat
  have hlt := (List.getElem?_eq_some_iff.1 hat).1
  have hindex : (((before.count '\n' + 1 : Nat) : Int) - 1).toNat = before.count '\n' := by omega
  refine ⟨?_, ?_, ?_, ?_, _, by rw [hindex, hat], ?_, ?_⟩
  · exact Int.ofNat_le.2 (Nat.succ_le_succ (Nat.zero_le _))
  · exact Int.ofNat_le.2 hlt
  · exact Int.natCast_nonneg _
  · simp only [Int.ofNat_lt]
    omega
  · simp only [List.length_append, Int.ofNat_le]
    omega
  · rw [Int.toNat_natCast, Int.toNat_natCast, ← List.length_append, ← List.append_assoc,
      List.take_left, List.drop_left]

/-! ## Names -/

/-- An annotation of a tree has the last part of the name that it is written with: its location is
    the span of this part, and in the source the part stands at the end of the name, behind a dot
    if there is anything in front of it. -/
def IsLastPart (source : String) (root : Node) (a : Annot Span) : Prop :=
  ∃ n written m, root.Has n ∧ n.isAnnotationNode = true ∧ n.child? "name" = some written ∧
    written.lastName? = some m ∧ a.location = m.span (Utf8.encode source.toList) ∧
    ∃ before front behind, source.toList = before ++ (front ++ (a.name.toList ++ behind)) ∧
      written.start = Position.after {} before ∧ m.start = Position.after {} (before ++ front) ∧
      written.stop = Position.after {} (before ++ (front ++ a.name.toList)) ∧
      (front = [] ∨ '.' ∈ front)

/-- A node whose text is a dot has one between its places. -/
theorem dot_mem_of_text {n : Node} (hp : IsPoint source n.start ∧ IsPoint source n.stop)
    (hle : n.start.offset ≤ n.stop.offset)
    (ht : n.text? (Utf8.encode source.toList) = .ok (some ".")) {before front : List Char}
    (hpre : before ++ front <+: source.toList)
    (hstart : (Position.after {} before).offset ≤ n.start.offset)
    (hstop : n.stop.offset ≤ (Position.after {} (before ++ front)).offset) : '.' ∈ front := by
  obtain ⟨xs, ys, hs, hx, hxs, -, -⟩ := span_of_text hp hle ht (by simp)
  rw [hx] at hstart
  rw [hxs] at hstop
  have hxpre : xs ++ ".".toList <+: source.toList := ⟨ys, by rw [hs, List.append_assoc]⟩
  obtain ⟨zs, rfl⟩ := prefix_of_offset_le ((List.prefix_append _ _).trans hpre)
    ((List.prefix_append _ _).trans hxpre) hstart
  have hdot := prefix_of_offset_le hxpre hpre hstop
  rw [List.append_assoc, List.prefix_append_right_inj] at hdot
  exact hdot.subset (by simp)

section

variable (points : (parse source).PointsAgree source)
  (order : ∀ n, (parse source).Has n → n.IsOrdered)
  (names : ∀ n, (parse source).Has n → n.NamesParts source)
include points order names

/-- **The annotations of a source.**  The name of an annotation is a stretch of the source with
    characters of names only, and its location says where this stretch stands in its row. -/
theorem exists_stretch_of_mem_scanSource (h : scanSource parse source = .ok ds) (hd : d ∈ ds)
    (ha : a ∈ d.annotations) :
    ∃ before behind, source.toList = before ++ (a.name.toList ++ behind) ∧
      a.name.toList ≠ [] ∧ (∀ c ∈ a.name.toList, isNameChar c = true) ∧
      a.location = ⟨(before.count '\n' + 1 : Nat), (lastRow before).length,
        ((lastRow before).length + a.name.toList.length : Nat)⟩ := by
  obtain ⟨owner, n, m, howner, hn, hannot, hm, htext, hloc, -⟩ := exists_of_mem_scanSource h hd ha
  obtain ⟨-, -, -, hmn, hident, -, -⟩ :=
    annotationName?_eq_some order names (howner.trans hn) hannot hm
  have hroot : (parse source).Has m := howner.trans (hn.trans hmn)
  have hchars := (names m hroot).identifier hident _ htext
  have hrow : ∀ c ∈ a.name.toList, c ≠ '\n' := by
    rintro c hc rfl
    cases isLineEnd_of_isNameChar (hchars _ hc)
  obtain ⟨before, behind, hs, -, -, hne, hspan⟩ :=
    span_of_text (points m hroot) (order m hroot).start_le_stop htext hrow
  exact ⟨before, behind, hs, hne, hchars, hloc.trans hspan⟩

theorem isLastPart_of_mem_scanSource (h : scanSource parse source = .ok ds) (hd : d ∈ ds)
    (ha : a ∈ d.annotations) : IsLastPart source (parse source) a := by
  obtain ⟨owner, n, m, howner, hn, hannot, hm, htext, hloc, -⟩ := exists_of_mem_scanSource h hd ha
  have hroot := howner.trans hn
  obtain ⟨written, hw, hlast, -, hident, hstop, hdot⟩ :=
    annotationName?_eq_some order names hroot hannot hm
  have hwroot : (parse source).Has written := hroot.trans (Node.has_child (Node.mem_of_child? hw))
  have hwm : written.Has m := has_of_lastName? written hlast
  have hmroot := hwroot.trans hwm
  have hinside := hwm.inside fun k hk => order k (hwroot.trans hk)
  obtain ⟨before, front, rest, hs, hwstart, hmstart⟩ :=
    exists_stretch (points written hwroot).1 (points m hmroot).1 hinside.1
  obtain ⟨xs, name, behind, hs', hmstart', hmstop, htext'⟩ :=
    exists_text (points m hmroot) (order m hmroot).start_le_stop
  -- both ways of looking at the name begin it at the same place
  have hpre : before ++ front <+: source.toList := ⟨rest, by rw [hs, List.append_assoc]⟩
  have hpre' : xs <+: source.toList := ⟨_, hs'.symm⟩
  obtain rfl : xs = before ++ front := eq_of_offset_eq hpre' hpre (by rw [← hmstart', hmstart])
  have hname : name = a.name.toList := by
    rw [htext] at htext'
    split_ifs at htext'
    · cases Except.ok.inj htext'
    · rw [Option.some.inj (Except.ok.inj htext'), String.toList_ofList]
  subst hname
  refine ⟨n, written, m, hroot, hannot, hw, hlast, hloc, before, front, behind, ?_, hwstart,
    hmstart, ?_, ?_⟩
  · rw [hs', List.append_assoc]
  · rw [← hstop, hmstop, List.append_assoc]
  · rcases hdot with rfl | ⟨dot, hdotin, hdottext, hle⟩
    · -- the name has one part
      have hbefore : before ++ front = before :=
        eq_of_offset_eq hpre ((List.prefix_append _ _).trans hpre) (by rw [← hmstart, ← hwstart])
      exact .inl (List.append_right_eq_self.1 hbefore)
    · have hdotroot := hwroot.trans hdotin
      have hbegin := (hdotin.inside fun k hk => order k (hwroot.trans hk)).1
      rw [hwstart] at hbegin
      rw [hmstart] at hle
      exact .inr (dot_mem_of_text (points dot hdotroot) (order dot hdotroot).start_le_stop hdottext
        hpre hbegin hle)

omit names in
/-- A declaration does not begin behind the lines of its annotations. -/
theorem line_le_of_mem_scanSource (h : scanSource parse source = .ok ds) (hd : d ∈ ds)
    (ha : a ∈ d.annotations) : (d.line : Int) ≤ a.location.line := by
  obtain ⟨owner, n, m, howner, hn, -, hm, -, hloc, hline⟩ := exists_of_mem_scanSource h hd ha
  have hmowner : owner.Has m := hn.trans (has_of_annotationName? hm)
  have hle := (hmowner.inside fun k hk => order k (howner.trans hk)).1
  have hrow := row_le_of_offset_le (points owner howner).1 (points m (howner.trans hmowner)).1 hle
  rw [hloc, hline]
  exact Int.ofNat_le.2 (Nat.succ_le_succ hrow)

end

/-- **The annotations of declarations are located.**  For a parser whose trees agree with the
    source, a scan gives declarations.  The location of an annotation covers its name in a row of
    the source.  The name, with no dot, mark or blank in it, is the last part of the name that is
    written there.  The declaration does not begin behind the line of the annotation. -/
theorem located_of_scanSource (parse : String → Node) (source : String)
    (points : (parse source).PointsAgree source)
    (order : ∀ n, (parse source).Has n → n.IsOrdered)
    (names : ∀ n, (parse source).Has n → n.NamesParts source) :
    ∃ ds, scanSource parse source = .ok ds ∧ ∀ d ∈ ds, ∀ a ∈ d.annotations,
      a.location.Covers source a.name ∧
        (∀ c ∈ a.name.toList, c ≠ '.' ∧ c ≠ '@' ∧ isBlank c = false) ∧
        IsLastPart source (parse source) a ∧ (d.line : Int) ≤ a.location.line := by
  obtain ⟨ds, h⟩ := exists_scanSource_eq_ok points order
  refine ⟨ds, h, fun d hd a ha => ?_⟩
  obtain ⟨before, behind, hs, hne, hchars, hloc⟩ :=
    exists_stretch_of_mem_scanSource points order names h hd ha
  refine ⟨?_, fun c hc => ?_, isLastPart_of_mem_scanSource points order names h hd ha,
    line_le_of_mem_scanSource points order h hd ha⟩
  · rw [hloc]
    refine covers_of_eq_append hs hne ?_
    rintro c hc rfl
    cases isLineEnd_of_isNameChar (hchars _ hc)
  · obtain ⟨hblank, hdot, hmark⟩ := isBlank_of_isNameChar (hchars c hc)
    exact ⟨hdot, hmark, hblank⟩

/-- The sources that are scanned here have such trees. -/
theorem scanSource_parse (source : String) :
    scanSource Java.parse source = .ok (declarations source) := by
  obtain ⟨ds, hds⟩ := exists_scanSource_eq_ok (pointsAgree_parse source) (isOrdered_parse source)
  rw [declarations, hds]
  rfl

/-- The name of an annotation is a stretch of its source, where its location says. -/
theorem exists_of_mem_declarations (hd : d ∈ declarations source) (ha : a ∈ d.annotations) :
    ∃ before behind, source.toList = before ++ (a.name.toList ++ behind) ∧
      a.name.toList ≠ [] ∧ (∀ c ∈ a.name.toList, isNameChar c = true) ∧
      a.location = ⟨(before.count '\n' + 1 : Nat), (lastRow before).length,
        ((lastRow before).length + a.name.toList.length : Nat)⟩ :=
  exists_stretch_of_mem_scanSource (pointsAgree_parse source) (isOrdered_parse source)
    (fun n hn => (allSound_parse source n hn).names) (scanSource_parse source) hd ha

/-- A byte order mark, a qualified name that goes over two rows, and a loop whose head is on the row
    behind its first word. -/
def brokenRows : String :=
  "\uFEFFclass A \x7b\n /* é𝄞 @No */ @a.\n b\t.Null(\"@c\") int x;\n" ++
    " void f() \x7b for\n /* é */ (@Fin T s : t) \x7b \x7d \x7d\n\x7d"

theorem located_of_scanSource_brokenRows :
    (∃ d ∈ declarations brokenRows, ∃ a ∈ d.annotations, a.name = "Null" ∧ d.line = 2 ∧
      a.location = ⟨3, 4, 8⟩ ∧ a.location.Covers brokenRows a.name) ∧
    ∃ d ∈ declarations brokenRows, ∃ a ∈ d.annotations, a.name = "Fin" ∧ d.line = 4 ∧
      a.location = ⟨5, 11, 14⟩ ∧ a.location.Covers brokenRows a.name := by
  obtain ⟨ds, hds, hlocated⟩ := located_of_scanSource parse brokenRows
    (pointsAgree_parse brokenRows) (isOrdered_parse brokenRows)
    fun n hn => (allSound_parse brokenRows n hn).names
  obtain rfl := Except.ok.inj (hds.symm.trans (scanSource_parse brokenRows))
  have hcovers (name : String) (line : Nat) (s : Span)
      (h : (declarations brokenRows).any (fun d => d.annotations.any fun a =>
        a.name == name && d.line == line && a.location == s) = true) :
      ∃ d ∈ declarations brokenRows, ∃ a ∈ d.annotations, a.name = name ∧ d.line = line ∧
        a.location = s ∧ a.location.Covers brokenRows a.name := by
    simp only [List.any_eq_true, Bool.and_eq_true, beq_iff_eq] at h
    obtain ⟨d, hd, a, ha, ⟨hname, hline⟩, hs⟩ := h
    exact ⟨d, hd, a, ha, hname, hline, hs, (hlocated d hd a ha).1⟩
  exact ⟨hcovers "Null" 2 ⟨3, 4, 8⟩ (by decide +kernel),
    hcovers "Fin" 4 ⟨5, 11, 14⟩ (by decide +kernel)⟩

end AnnotationOrder.Java
