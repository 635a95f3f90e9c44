/-
  The trees that sources have here follow the grammar.

  * `Node.IsSound`: what is asked of each node, by its type;
  * `isSound_of_isPlain`: nothing is asked of the nodes of most types;
  * `isSound_nameFrom`, `isSound_declarationNodes`: names, and modifiers;
  * `isSound_node`: so the nodes of items are sound, and with them those of sources.
-/
import AnnotationOrder.Proofs.Java.Tree

namespace AnnotationOrder.Java

open Text

variable {source : String} {t : Token} {ns : List Node} {type field : String}

/-! ## Sound nodes -/

/-- What is asked of a node of a tree. -/
structure Node.IsSound (source : String) (n : Node) : Prop where
  names : n.NamesParts source
  grammar : n.IsGrammatical
  solid : n.type = "identifier" → n.start.offset < n.stop.offset

/-- All nodes of a tree are sound. -/
def Node.AllSound (source : String) (n : Node) : Prop := ∀ m, n.Has m → m.IsSound source

theorem allSound_iff {n : Node} :
    n.AllSound source ↔ n.IsSound source ∧ ∀ c ∈ n.children, c.AllSound source := by
  constructor
  · exact fun h => ⟨h n (.refl n), fun c hc m hm => h m (.step hc hm)⟩
  · rintro ⟨h, hcs⟩ m hm
    rcases has_iff.1 hm with rfl | ⟨c, hc, hm⟩
    · exact h
    · exact hcs c hc m hm

/-- The types of nodes of which something is asked. -/
def specialTypes : List String :=
  ["identifier", "scoped_identifier", "modifiers", "marker_annotation", "annotation"]

/-- Nothing is asked of nodes of other types. -/
theorem isSound_of_isPlain {n : Node} (h : n.type ∉ specialTypes) : n.IsSound source := by
  simp only [specialTypes, List.mem_cons, List.not_mem_nil, or_false, not_or] at h
  obtain ⟨hi, hs, hm, hmarker, hannot⟩ := h
  have ha : ¬ n.isAnnotationNode = true := by simp [Node.isAnnotationNode, hmarker, hannot]
  refine ⟨⟨?_, ?_, ?_⟩, ⟨?_, ?_, ?_, ?_, ?_⟩, fun h => absurd h hi⟩
  · exact fun h => absurd h hi
  · exact fun h => absurd h (not_or_intro ha hs)
  · exact fun h => absurd h hs
  · exact fun h => absurd h hi
  · exact fun h => absurd h hs
  · exact fun h => absurd h ha
  · exact fun h => absurd h ha
  · exact fun h => absurd h hm

/-- The field of a node is not among what is asked. -/
theorem allSound_inField {n : Node} (h : n.AllSound source) (field : String) :
    (n.inField field).AllSound source := by
  obtain ⟨⟨hnames, hgrammar, hsolid⟩, hcs⟩ := allSound_iff.1 h
  exact allSound_iff.2 ⟨⟨⟨hnames.1, hnames.2, hnames.3⟩,
    ⟨hgrammar.1, hgrammar.2, hgrammar.3, hgrammar.4, hgrammar.5⟩, hsolid⟩, hcs⟩

theorem allSound_around (h : (around type ns).IsSound source) (hns : ∀ n ∈ ns, n.AllSound source) :
    (around type ns).AllSound source :=
  allSound_iff.2 ⟨h, hns⟩

theorem allSound_around_of_isPlain (h : type ∉ specialTypes) (hns : ∀ n ∈ ns, n.AllSound source) :
    (around type ns).AllSound source :=
  allSound_around (isSound_of_isPlain h) hns

theorem allSound_aroundSome (h : (around type ns).IsSound source)
    (hns : ∀ n ∈ ns, n.AllSound source) : ∀ n ∈ aroundSome type ns, n.AllSound source := by
  intro n hn
  unfold aroundSome at hn
  split_ifs at hn
  · cases hn
  · obtain rfl := List.mem_singleton.1 hn
    exact allSound_around h hns

theorem allSound_aroundSome_of_isPlain (h : type ∉ specialTypes)
    (hns : ∀ n ∈ ns, n.AllSound source) : ∀ n ∈ aroundSome type ns, n.AllSound source :=
  allSound_aroundSome (isSound_of_isPlain h) hns

/-! ## Tokens -/

/-- The text of the node of a token is what the token has. -/
theorem text?_leaf (ht : t ∈ tokens source) (hne : t.chars ≠ []) (type : String) :
    (leaf type t).text? (Utf8.encode source.toList) = .ok (some t.text) := by
  obtain ⟨before, behind, hs, hp⟩ := exists_of_mem_tokens ht
  have hstop : (leaf type t).stop = Position.after {} (before ++ t.chars) := by
    rw [after_append, ← hp]
    rfl
  rw [text?_eq hs hp hstop, if_neg hne, Token.text]

theorem offset_lt_of_word (ht : t ∈ tokens source) (hw : t.shape = .word) :
    t.position.offset < t.stop.offset := by
  obtain ⟨before, behind, hs, hp⟩ := exists_of_mem_tokens ht
  have hpos := length_encode_pos (chars_of_mem_tokens ht hw).1
  rw [Token.stop, hp, ← after_append, offset_after, offset_after, Utf8.encode_append,
    List.length_append]
  exact Nat.lt_add_of_pos_right hpos

/-- A word of the source is an identifier. -/
theorem allSound_identifier (ht : t ∈ tokens source) (hw : t.shape = .word) :
    (leaf "identifier" t).AllSound source := by
  obtain ⟨hne, hchars⟩ := chars_of_mem_tokens ht hw
  have hplain : ¬((leaf "identifier" t).isAnnotationNode = true) := by
    simp [Node.isAnnotationNode, leaf]
  refine allSound_iff.2 ⟨⟨⟨fun _ name hname => ?_, ?_, ?_⟩, ⟨fun _ => rfl, ?_, ?_, ?_, ?_⟩,
    fun _ => offset_lt_of_word ht hw⟩, ?_⟩
  · rw [text?_leaf ht hne] at hname
    obtain rfl := Option.some.inj (Except.ok.inj hname)
    simpa [Token.text] using hchars
  · rintro (h | h)
    · exact absurd h hplain
    · simp [leaf] at h
  · simp [leaf]
  · simp [leaf]
  · exact fun h => absurd h hplain
  · exact fun h => absurd h hplain
  · simp [leaf]
  · simp [leaf]

theorem modifierWords_plain : ∀ w ∈ modifierWords, w ∉ specialTypes := by decide

theorem allSound_token (ht : t ∈ tokens source) : t.node.AllSound source := by
  have hplain (h : t.nodeType ∉ specialTypes) : t.node.AllSound source :=
    allSound_iff.2 ⟨isSound_of_isPlain h, fun c hc => absurd hc List.not_mem_nil⟩
  cases hs : t.shape with
  | word =>
    by_cases hm : modifierWords.contains t.text = true
    · refine hplain ?_
      rw [Token.nodeType, hs]
      simp only [hm, if_true]
      exact modifierWords_plain _ (List.contains_iff_mem.1 hm)
    · have hnode : t.node = leaf "identifier" t := by
        rw [Token.node, Token.nodeType, hs]
        simp only [hm, if_false, Bool.false_eq_true]
      rw [hnode]
      exact allSound_identifier ht hs
  | _ => exact hplain (by simp [Token.nodeType, hs, specialTypes])

/-! ## Names -/

theorem chars_of_isSymbol {symbol : String} (h : t.isSymbol symbol = true) :
    t.chars = symbol.toList := by
  simp only [Token.isSymbol, Bool.and_eq_true, beq_iff_eq] at h
  exact h.2

theorem child?_qualified (scope : Node) (dot word : Token) :
    (qualified scope dot word).child? "name" = some ((leaf "identifier" word).inField "name") := by
  simp [Node.child?, qualified, around, Node.inField, Token.node, leaf]

/-- A name in front of a dot and a further word. -/
theorem isSound_qualified {scope : Node} {dot word : Token} (hscope : scope.IsGrammatical)
    (hname : scope.IsNameNode) (hd : dot ∈ tokens source) (hdot : dot.isSymbol "." = true)
    (hlt : dot.Precedes word) : (qualified scope dot word).IsSound source := by
  have hother (type : String) (h : "scoped_identifier" ≠ type) :
      (qualified scope dot word).type ≠ type := h
  have hannot : ¬((qualified scope dot word).isAnnotationNode = true) := by
    simp [Node.isAnnotationNode, qualified, around]
  refine ⟨⟨?_, ?_, ?_⟩, ⟨?_, ?_, ?_, ?_, ?_⟩, fun h => absurd h (hother _ (by decide))⟩
  · exact fun h => absurd h (hother _ (by decide))
  · intro _ m hm
    obtain rfl := Option.some.inj ((child?_qualified scope dot word).symm.trans hm)
    exact .inl rfl
  · intro _ m hm
    obtain rfl := Option.some.inj ((child?_qualified scope dot word).symm.trans hm)
    have hchars := chars_of_isSymbol hdot
    have hne : dot.chars ≠ [] := by
      rw [hchars]
      decide
    refine ⟨by simp [qualified, around, Node.inField], dot.node, by simp [qualified, around], ?_,
      hlt⟩
    rw [Token.node, text?_leaf hd hne, Token.text, hchars]
    rfl
  · exact fun h => absurd h (hother _ (by decide))
  · refine fun _ => ⟨⟨_, child?_qualified scope dot word, .inl rfl⟩, ?_⟩
    simp only [qualified, around, List.forall_mem_cons, List.not_mem_nil, IsEmpty.forall_iff,
      implies_true, and_true]
    exact ⟨hname.imp hscope.identifier id, .inl rfl, .inl rfl⟩
  · exact fun h => absurd h hannot
  · exact fun h => absurd h hannot
  · exact fun h => absurd h (hother _ (by decide))

theorem shape_of_isName {word : Token} {path : List Token} (h : isName (word :: path) = true) :
    word.shape = .word := by
  rcases path with _ | ⟨dot, _ | ⟨next, path⟩⟩
  · simpa [isName] using h
  · simp [isName] at h
  · simp only [isName, Bool.and_eq_true, beq_iff_eq] at h
    exact h.1.1

/-- A name that goes on with dots and words is sound if it was before. -/
theorem allSound_nameFrom {scope : Node} (hscope : scope.AllSound source)
    (hname : scope.IsNameNode) : ∀ {word : Token} {path : List Token},
    isName (word :: path) = true → path.Pairwise Token.Precedes → (∀ t ∈ path, t ∈ tokens source) →
      (nameFrom scope path).AllSound source ∧ (nameFrom scope path).IsNameNode
  | _, [], _, _, _ => by simpa [nameFrom] using ⟨hscope, hname⟩
  | _, [dot], h, _, _ => by simp [isName] at h
  | _, dot :: word :: path, h, hs, hm => by
    simp only [isName, Bool.and_eq_true, beq_iff_eq] at h
    obtain ⟨⟨-, hdot⟩, hpath⟩ := h
    obtain ⟨hdm, hwm, hpm⟩ : dot ∈ tokens source ∧ word ∈ tokens source ∧
        ∀ t ∈ path, t ∈ tokens source := by
      simpa using hm
    have hlt : dot.Precedes word := List.rel_of_pairwise_cons hs List.mem_cons_self
    rw [nameFrom]
    refine allSound_nameFrom ?_ (.inr rfl) hpath (List.Pairwise.of_cons (List.Pairwise.of_cons hs)) hpm
    refine allSound_around (isSound_qualified (hscope _ (.refl _)).grammar hname hdm hdot hlt) ?_
    simp only [List.forall_mem_cons, List.not_mem_nil, IsEmpty.forall_iff, implies_true, and_true]
    exact ⟨allSound_inField hscope _, allSound_token hdm,
      allSound_inField (allSound_identifier hwm (shape_of_isName hpath)) _⟩

/-- The name of an annotation as it is written. -/
theorem nameNodes_of_isName {path : List Token} (h : isName path = true)
    (hs : path.Pairwise Token.Precedes) (hm : ∀ t ∈ path, t ∈ tokens source) :
    ∃ written : Node, nameNodes path = [written.inField "name"] ∧ written.IsNameNode ∧
      written.AllSound source := by
  cases path with
  | nil => cases h
  | cons word path =>
    obtain ⟨hword, hpath⟩ := List.forall_mem_cons.1 hm
    have hidentifier := allSound_identifier hword (shape_of_isName h)
    obtain ⟨hsound, hname⟩ :=
      allSound_nameFrom hidentifier (.inl rfl) h (List.Pairwise.of_cons hs) hpath
    exact ⟨_, by rw [nameNodes, if_pos h], hname, hsound⟩

theorem allSound_nameNodes {path : List Token} (hs : path.Pairwise Token.Precedes)
    (hm : ∀ t ∈ path, t ∈ tokens source) : ∀ n ∈ nameNodes path, n.AllSound source := by
  by_cases h : isName path = true
  · obtain ⟨written, hnodes, -, hsound⟩ := nameNodes_of_isName h hs hm
    rw [hnodes]
    exact List.forall_mem_singleton.2 (allSound_inField hsound _)
  · cases path with
    | nil => simp [nameNodes]
    | cons word path =>
      rw [nameNodes, if_neg h]
      intro n hn
      obtain ⟨t, ht, rfl⟩ := List.mem_map.1 hn
      exact allSound_token (hm t ht)

/-! ## Annotations -/

/-- An annotation begins with its mark and its name. -/
theorem isSound_annotationNode {path : List Token} (h : isName path = true)
    (hs : path.Pairwise Token.Precedes) (hm : ∀ t ∈ path, t ∈ tokens source) (mark : Token)
    (applied : Bool) (ns : List Node) :
    (around (annotationType path applied) (mark.node :: (nameNodes path ++ ns))).IsSound source := by
  obtain ⟨written, hnodes, hname, hsound⟩ := nameNodes_of_isName h hs hm
  have htype : annotationType path applied = "annotation" ∨
      annotationType path applied = "marker_annotation" := by
    cases applied <;> simp [annotationType, h]
  have hother (type : String) (hne : "annotation" ≠ type) (hne' : "marker_annotation" ≠ type) :
      (around (annotationType path applied) (mark.node :: (nameNodes path ++ ns))).type ≠ type := by
    rcases htype with ht | ht
    · exact ht ▸ hne
    · exact ht ▸ hne'
  have hchild : (around (annotationType path applied)
      (mark.node :: (nameNodes path ++ ns))).child? "name" = some (written.inField "name") := by
    simp [Node.child?, around, hnodes, Node.inField, Token.node, leaf]
  refine ⟨⟨?_, ?_, ?_⟩, ⟨?_, ?_, ?_, ?_, ?_⟩,
    fun h => absurd h (hother _ (by decide) (by decide))⟩
  · exact fun h => absurd h (hother _ (by decide) (by decide))
  · intro _ m hm
    obtain rfl := Option.some.inj (hchild.symm.trans hm)
    exact hname
  · exact fun h => absurd h (hother _ (by decide) (by decide))
  · exact fun h => absurd h (hother _ (by decide) (by decide))
  · exact fun h => absurd h (hother _ (by decide) (by decide))
  · refine fun _ => ⟨[mark.node], written.inField "name", ns, ?_, ?_, hchild, hname⟩
    · simp [around, hnodes]
    · exact List.forall_mem_singleton.2 rfl
  · intro _ m hm
    rw [Node.annotationName?, hchild, Option.bind_some] at hm
    have hfield := allSound_inField hsound "name"
    exact (hfield m (has_of_lastName? _ hm)).solid
      (type_of_lastName? _ (fun k hk => (hfield k hk).names) hname hm)
  · exact fun h => absurd h (hother _ (by decide) (by decide))

/-! ## Declarations -/

theorem allSound_markName (kind : Kind) (name : Option Token) {n : Node}
    (h : n.AllSound source) : (markName kind name n).AllSound source := by
  unfold markName
  split_ifs
  · refine allSound_inField (allSound_around_of_isPlain (by decide) ?_) _
    exact List.forall_mem_singleton.2 (allSound_inField h _)
  · exact allSound_inField h _
  · exact h

/-- A node that stands for a modifier. -/
def Node.IsModifierNode (n : Node) : Prop := n.isAnnotationNode = true ∨ n.children = []

theorem isModifierNode_node {x : Item} (h : isModifier x = true) : x.node.IsModifierNode := by
  cases x with
  | token t => exact .inr (by rw [Item.node]; rfl)
  | annot mark path applied arguments =>
    have hname : isName path = true := h
    refine .inl ?_
    rw [Item.node]
    cases applied <;> simp [Node.isAnnotationNode, around, annotationType, hname]
  | group bracket opening inner => simp [isModifier, Item.word?] at h
  | declaration kind name front first rest => simp [isModifier, Item.word?] at h

theorem isSound_modifiers (h : ∀ n ∈ ns, n.IsModifierNode) :
    (around "modifiers" ns).IsSound source := by
  have hother (type : String) (h : "modifiers" ≠ type) : (around "modifiers" ns).type ≠ type := h
  have hannot : ¬((around "modifiers" ns).isAnnotationNode = true) := by
    simp [Node.isAnnotationNode, around]
  refine ⟨⟨?_, ?_, ?_⟩, ⟨?_, ?_, fun h => absurd h hannot, fun h => absurd h hannot, fun _ => h⟩,
    fun h => absurd h (hother _ (by decide))⟩
  · exact fun h => absurd h (hother _ (by decide))
  · rintro (h | h)
    · exact absurd h hannot
    · exact absurd h (hother _ (by decide))
  · exact fun h => absurd h (hother _ (by decide))
  · exact fun h => absurd h (hother _ (by decide))
  · exact fun h => absurd h (hother _ (by decide))

/-- The modifiers in front of items become one node. -/
theorem allSound_declarationNodes (kind : Kind) (name : Option Token) {xs : List Item}
    (h : ∀ n ∈ nodesOf xs, n.AllSound source) :
    ∀ n ∈ declarationNodes kind name (xs.takeWhile isModifier).length (nodesOf xs),
      n.AllSound source := by
  intro n hn
  rcases List.mem_append.1 hn with hn | hn
  · refine allSound_aroundSome (isSound_modifiers fun m hm => ?_)
      (fun m hm => h m (List.mem_of_mem_take hm)) n hn
    rw [nodesOf_eq_map, ← List.map_take,
      ← List.prefix_iff_eq_take.1 (List.takeWhile_prefix _)] at hm
    obtain ⟨x, hx, rfl⟩ := List.mem_map.1 hm
    exact isModifierNode_node (List.mem_takeWhile_imp hx)
  · obtain ⟨m, hm, rfl⟩ := List.mem_map.1 hn
    exact allSound_markName kind name (h m (List.mem_of_mem_drop hm))

theorem kindText_plain (kind : Kind) : kind.text ∉ specialTypes := by
  cases kind <;> decide

/-! ## Items -/

mutual

/-- The nodes of items are sound, for tokens of the source in their order. -/
theorem allSound_node (x : Item) (hs : x.tokens.Pairwise Token.Precedes)
    (hm : ∀ t ∈ x.tokens, t ∈ tokens source) : x.node.AllSound source := by
  cases x with
  | token t =>
    rw [Item.node]
    exact allSound_token (hm t (by simp [Item.tokens]))
  | annot mark path applied arguments =>
    simp only [Item.tokens, List.pairwise_cons, List.pairwise_append] at hs
    simp only [Item.tokens, List.forall_mem_cons, List.forall_mem_append] at hm
    obtain ⟨-, hpath, harguments, -⟩ := hs
    obtain ⟨hmark, hpathm, hargumentsm⟩ := hm
    have hns := allSound_nodesOf arguments harguments hargumentsm
    have hlist : ∀ n ∈ aroundSome "annotation_argument_list" (nodesOf arguments),
        n.AllSound source :=
      allSound_aroundSome_of_isPlain (by decide) hns
    have hchildren : ∀ n ∈ mark.node :: (nameNodes path ++
        aroundSome "annotation_argument_list" (nodesOf arguments)), n.AllSound source :=
      List.forall_mem_cons.2 ⟨allSound_token hmark,
        List.forall_mem_append.2 ⟨allSound_nameNodes hpath hpathm, hlist⟩⟩
    rw [Item.node]
    by_cases h : isName path = true
    · exact allSound_around (isSound_annotationNode h hpath hpathm _ _ _) hchildren
    · have hplain : annotationType path applied ∉ specialTypes := by
        simp [annotationType, h, specialTypes]
      exact allSound_around_of_isPlain hplain hchildren
  | group bracket opening inner =>
    simp only [Item.tokens, List.pairwise_cons] at hs
    simp only [Item.tokens, List.forall_mem_cons] at hm
    rw [Item.node]
    refine allSound_around_of_isPlain (by cases bracket <;> decide) ?_
    exact List.forall_mem_cons.2 ⟨allSound_token hm.1, allSound_nodesOf inner hs.2 hm.2⟩
  | declaration kind name front first rest =>
    simp only [Item.tokens, List.pairwise_append] at hs
    simp only [Item.tokens, List.forall_mem_append] at hm
    obtain ⟨hfront, ⟨hfirst, hrest, -⟩, -⟩ := hs
    have hbody : ∀ n ∈ nodesOf (first :: rest), n.AllSound source := by
      rw [nodesOf]
      exact List.forall_mem_cons.2
        ⟨allSound_node first hfirst hm.2.1, allSound_nodesOf rest hrest hm.2.2⟩
    rw [Item.node]
    refine allSound_around_of_isPlain (kindText_plain kind) ?_
    refine List.forall_mem_append.2 ⟨allSound_nodesOf front hfront hm.1, ?_⟩
    have hnodes : first.node :: nodesOf rest = nodesOf (first :: rest) := by rw [nodesOf]
    rw [hnodes]
    exact allSound_declarationNodes kind name hbody

theorem allSound_nodesOf (xs : List Item) (hs : (tokensOf xs).Pairwise Token.Precedes)
    (hm : ∀ t ∈ tokensOf xs, t ∈ tokens source) : ∀ n ∈ nodesOf xs, n.AllSound source := by
  cases xs with
  | nil => simp [nodesOf]
  | cons x xs =>
    simp only [tokensOf, List.pairwise_append] at hs
    simp only [tokensOf, List.forall_mem_append] at hm
    rw [nodesOf]
    exact List.forall_mem_cons.2
      ⟨allSound_node x hs.1 hm.1, allSound_nodesOf xs hs.2.1 hm.2⟩

end

/-- **The trees of sources.**  All nodes of the tree of a source are sound. -/
theorem allSound_parse (source : String) : (parse source).AllSound source := by
  have hsub := tokensOf_outlined (tokens source)
  refine allSound_around_of_isPlain (by decide) ?_
  exact allSound_nodesOf _ ((pairwise_tokens source).sublist hsub) fun t ht => hsub.subset ht

end AnnotationOrder.Java
