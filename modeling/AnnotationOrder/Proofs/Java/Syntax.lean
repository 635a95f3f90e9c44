/-
  What a parser makes sure of in the syntax trees of a language.

  The walk over a tree relies on the places of its nodes, on the order of their
  children, and on how the grammar writes names, annotations and modifiers.

  * `Node.PointsAgree`: the places of all nodes agree with the source;
  * `Node.IsOrdered`: the children of a node are in the order of the source;
  * `Node.NamesParts`: names are made of identifiers, with dots between them;
  * `Node.IsGrammatical`: what is below names, annotations and modifiers, where these are
    written as the grammar has them;
  * `text?_eq`: the text of a node is what stands between its places.
-/
import AnnotationOrder.Proofs.Java.Token
import AnnotationOrder.Proofs.Java.Walk

namespace AnnotationOrder.Java

open AnnotationOrder.Order Text

variable {source : String}

/-! ## Places -/

/-- The places of the nodes of a tree are those of the source. -/
def Node.PointsAgree (source : String) (root : Node) : Prop :=
  ∀ n, root.Has n → IsPoint source n.start ∧ IsPoint source n.stop

/-- The children of a node are inside of it, one behind the other. -/
structure Node.IsOrdered (n : Node) : Prop where
  start_le_stop : n.start.offset ≤ n.stop.offset
  inside : ∀ c ∈ n.children, n.start.offset ≤ c.start.offset ∧ c.stop.offset ≤ n.stop.offset
  apart : n.children.Pairwise fun c d => c.stop.offset ≤ d.start.offset

theorem Node.Has.inside {n m : Node} (h : n.Has m) (ho : ∀ k, n.Has k → k.IsOrdered) :
    n.start.offset ≤ m.start.offset ∧ m.stop.offset ≤ n.stop.offset := by
  induction h with
  | refl n => exact ⟨Nat.le_refl _, Nat.le_refl _⟩
  | step hc _ ih =>
    obtain ⟨hstart, hstop⟩ := (ho _ (.refl _)).inside _ hc
    obtain ⟨hstart', hstop'⟩ := ih fun k hk => ho k (.step hc hk)
    exact ⟨hstart.trans hstart', hstop'.trans hstop⟩

/-! ## Texts -/

/-- The text of a node is what stands between its places. -/
theorem text?_eq {n : Node} {before cs behind : List Char}
    (hs : source.toList = before ++ (cs ++ behind)) (hstart : n.start = Position.after {} before)
    (hstop : n.stop = Position.after {} (before ++ cs)) :
    n.text? (Utf8.encode source.toList) =
      .ok (if cs = [] then none else some (String.ofList cs)) := by
  have hbytes : n.bytes (Utf8.encode source.toList) = Utf8.encode cs := by
    rw [Node.bytes, hstart, hstop, hs, offset_after, offset_after, ← List.append_assoc,
      Utf8.encode_append (before ++ cs), List.take_left, Utf8.encode_append, List.drop_left]
  rw [Node.text?, hbytes]
  by_cases hne : cs = []
  · simp [hne, Utf8.encode]
  · have hpos := length_encode_pos hne
    have hdecode := Utf8.decode_encode (String.ofList cs)
    rw [String.toList_ofList] at hdecode
    simp [hne, List.ne_nil_of_length_pos hpos, hdecode, Except.map]

/-- Between the places of a node is a stretch of the source. -/
theorem exists_text {n : Node} (hp : IsPoint source n.start ∧ IsPoint source n.stop)
    (hle : n.start.offset ≤ n.stop.offset) :
    ∃ before cs behind, source.toList = before ++ (cs ++ behind) ∧
      n.start = Position.after {} before ∧ n.stop = Position.after {} (before ++ cs) ∧
      n.text? (Utf8.encode source.toList) =
        .ok (if cs = [] then none else some (String.ofList cs)) := by
  obtain ⟨before, cs, behind, hs, hstart, hstop⟩ := exists_stretch hp.1 hp.2 hle
  exact ⟨before, cs, behind, hs, hstart, hstop, text?_eq hs hstart hstop⟩

/-- In a tree whose places agree with the source, texts can be read. -/
theorem exists_text_eq_ok {root n : Node} (hp : root.PointsAgree source)
    (ho : ∀ n, root.Has n → n.IsOrdered) (h : root.Has n) :
    ∃ text, n.text? (Utf8.encode source.toList) = .ok text := by
  obtain ⟨_, _, _, -, -, -, htext⟩ := exists_text (hp n h) (ho n h).start_le_stop
  exact ⟨_, htext⟩

/-- The span of a node with a text: its row, and where it stands in this row. -/
theorem span_of_text {n : Node} (hp : IsPoint source n.start ∧ IsPoint source n.stop)
    (hle : n.start.offset ≤ n.stop.offset) {name : String}
    (ht : n.text? (Utf8.encode source.toList) = .ok (some name))
    (hrow : ∀ c ∈ name.toList, c ≠ '\n') :
    ∃ before behind, source.toList = before ++ (name.toList ++ behind) ∧
      n.start = Position.after {} before ∧ n.stop = Position.after {} (before ++ name.toList) ∧
      name.toList ≠ [] ∧
      n.span (Utf8.encode source.toList) = ⟨(before.count '\n' + 1 : Nat),
        (lastRow before).length, ((lastRow before).length + name.toList.length : Nat)⟩ := by
  obtain ⟨before, cs, behind, hs, hstart, hstop, htext⟩ := exists_text hp hle
  rw [ht] at htext
  split_ifs at htext with hne
  · cases Except.ok.inj htext
  · obtain rfl := Option.some.inj (Except.ok.inj htext)
    rw [String.toList_ofList] at hrow ⊢
    refine ⟨before, behind, hs, hstart, hstop, hne, ?_⟩
    have hcolumn : charColumn (Utf8.encode source.toList) n.start = (lastRow before).length := by
      rw [hs, hstart, charColumn_after]
    have hend : charColumn (Utf8.encode source.toList) n.stop =
        (lastRow before).length + cs.length := by
      rw [hs, hstop, ← List.append_assoc, charColumn_after, lastRow_append hrow,
        List.length_append]
    rw [Node.span, hcolumn, hend, hstart, row_after]

/-! ## Names -/

/-- What the nodes of names are. -/
def Node.IsNameNode (n : Node) : Prop := n.type = "identifier" ∨ n.type = "scoped_identifier"

/-- Names are made of identifiers: the text of one has characters of names only, and a name of
    several parts has the last one at its end, behind a dot. -/
structure Node.NamesParts (source : String) (n : Node) : Prop where
  identifier : n.type = "identifier" → ∀ name,
    n.text? (Utf8.encode source.toList) = .ok (some name) → ∀ c ∈ name.toList, isNameChar c = true
  name : n.isAnnotationNode = true ∨ n.type = "scoped_identifier" → ∀ m,
    n.child? "name" = some m → m.IsNameNode
  qualified : n.type = "scoped_identifier" → ∀ m, n.child? "name" = some m → m.stop = n.stop ∧
    ∃ dot ∈ n.children, dot.text? (Utf8.encode source.toList) = .ok (some ".") ∧
      dot.stop.offset ≤ m.start.offset

theorem has_of_lastName? (w : Node) {m : Node} (h : w.lastName? = some m) : w.Has m := by
  induction w using Node.induction with
  | h w ih =>
    rw [Node.lastName?] at h
    split_ifs at h
    · obtain rfl := Option.some.inj h
      exact .refl w
    · split at h
      · cases h
      · rename_i k hk
        have hmem := Node.mem_of_child? hk
        exact .step hmem (ih k hmem h)

/-- The last part of a name is an identifier. -/
theorem type_of_lastName? (w : Node) (hn : ∀ k, w.Has k → k.NamesParts source)
    (hw : w.IsNameNode) {m : Node} (h : w.lastName? = some m) : m.type = "identifier" := by
  induction w using Node.induction with
  | h w ih =>
    rw [Node.lastName?] at h
    split_ifs at h with ht
    · obtain rfl := Option.some.inj h
      exact hw.resolve_right (bne_iff_ne.1 ht)
    · have hscoped : w.type = "scoped_identifier" := by simpa using ht
      split at h
      · cases h
      · rename_i k hk
        have hmem := Node.mem_of_child? hk
        exact ih k hmem (fun l hl => hn l (.step hmem hl))
          ((hn w (.refl w)).name (.inr hscoped) k hk) h

/-- The last part of a name is at its end, behind a dot if it is not the only one. -/
theorem lastName?_eq_some (w : Node) (ho : ∀ k, w.Has k → k.IsOrdered)
    (hn : ∀ k, w.Has k → k.NamesParts source)
    (hw : w.IsNameNode) {m : Node} (h : w.lastName? = some m) :
    m.stop = w.stop ∧
      (m = w ∨ ∃ dot, w.Has dot ∧ dot.text? (Utf8.encode source.toList) = .ok (some ".") ∧
        dot.stop.offset ≤ m.start.offset) := by
  induction w using Node.induction with
  | h w ih =>
    rw [Node.lastName?] at h
    split_ifs at h with ht
    · obtain rfl := Option.some.inj h
      exact ⟨rfl, .inl rfl⟩
    · have hscoped : w.type = "scoped_identifier" := by simpa using ht
      split at h
      · cases h
      · rename_i k hk
        have hmem := Node.mem_of_child? hk
        obtain ⟨hstop, dot, hdot, htext, hle⟩ := (hn w (.refl w)).qualified hscoped k hk
        have hok : ∀ l, k.Has l → l.IsOrdered := fun l hl => ho l (.step hmem hl)
        obtain ⟨hend, -⟩ := ih k hmem hok (fun l hl => hn l (.step hmem hl))
          ((hn w (.refl w)).name (.inr hscoped) k hk) h
        exact ⟨hend.trans hstop,
          .inr ⟨dot, Node.has_child hdot, htext, hle.trans ((has_of_lastName? k h).inside hok).1⟩⟩

theorem has_of_annotationName? {n m : Node} (h : n.annotationName? = some m) : n.Has m := by
  obtain ⟨written, hw, hlast⟩ := Option.bind_eq_some_iff.1 h
  exact .step (Node.mem_of_child? hw) (has_of_lastName? written hlast)

/-- An annotation is named by an identifier in it. -/
theorem annotationName?_eq_some {root n m : Node} (ho : ∀ k, root.Has k → k.IsOrdered)
    (hn : ∀ k, root.Has k → k.NamesParts source) (h : root.Has n) (ha : n.isAnnotationNode = true)
    (hm : n.annotationName? = some m) :
    ∃ written, n.child? "name" = some written ∧ written.lastName? = some m ∧ n.Has m ∧
      m.type = "identifier" ∧ m.stop = written.stop ∧
      (m = written ∨ ∃ dot, written.Has dot ∧
        dot.text? (Utf8.encode source.toList) = .ok (some ".") ∧
        dot.stop.offset ≤ m.start.offset) := by
  obtain ⟨written, hw, hlast⟩ := Option.bind_eq_some_iff.1 hm
  have hmem := Node.mem_of_child? hw
  have hin : ∀ k, written.Has k → root.Has k := fun k hk => h.trans (.step hmem hk)
  have hnames : ∀ k, written.Has k → k.NamesParts source := fun k hk => hn k (hin k hk)
  have hname := (hn n h).name (.inl ha) written hw
  obtain ⟨hstop, hdot⟩ :=
    lastName?_eq_some written (fun k hk => ho k (hin k hk)) hnames hname hlast
  exact ⟨written, hw, hlast, .step hmem (has_of_lastName? written hlast),
    type_of_lastName? written hnames hname hlast, hstop, hdot⟩

/-! ## Grammar -/

/-- What is below names, annotations and modifiers: there is nothing below an identifier, an
    annotation begins with its mark and its name, which is not left out, and modifiers are words and
    annotations.  Nothing is said of other parts of a source: there may be syntax errors in them. -/
structure Node.IsGrammatical (n : Node) : Prop where
  identifier : n.type = "identifier" → n.children = []
  qualified : n.type = "scoped_identifier" →
    (∃ m, n.child? "name" = some m ∧ m.IsNameNode) ∧
      ∀ c ∈ n.children, c.children = [] ∨ c.type = "scoped_identifier"
  annotationParts : n.isAnnotationNode = true → ∃ front written rest,
    n.children = front ++ written :: rest ∧ (∀ c ∈ front, c.children = []) ∧
      n.child? "name" = some written ∧ written.IsNameNode
  named : n.isAnnotationNode = true → ∀ m, n.annotationName? = some m →
    m.start.offset < m.stop.offset
  modifiers : n.type = "modifiers" → ∀ c ∈ n.children, c.isAnnotationNode = true ∨ c.children = []

end AnnotationOrder.Java
