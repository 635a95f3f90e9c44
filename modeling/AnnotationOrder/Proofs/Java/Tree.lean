/-
  The trees that sources have here are ordered, and their places agree with the source.

  A node that reaches from the first to the last node below it is told by the ends of
  the leaves below it, which are those of the tokens.

  * `Node.ends`: where the leaves of a tree begin and stop, in their order;
  * `Node.IsTight`: nodes reach from the first to the last node below them;
  * `isOrdered_of_isTight`: a tight tree is ordered if its leaves are;
  * `ends_node`: the leaves of an item are its tokens;
  * `pointsAgree_parse`, `isOrdered_parse`: what holds of the trees of sources.
-/
import AnnotationOrder.Java.Tree
import AnnotationOrder.Proofs.Java.Item
import AnnotationOrder.Proofs.Java.Syntax

namespace AnnotationOrder.Java

open Text

/-! ## Nodes below each other -/

theorem has_iff {n m : Node} : n.Has m ↔ m = n ∨ ∃ c ∈ n.children, c.Has m := by
  constructor
  · rintro (_ | ⟨hc, h⟩)
    · exact .inl rfl
    · exact .inr ⟨_, hc, h⟩
  · rintro (rfl | ⟨c, hc, h⟩)
    · exact .refl _
    · exact .step hc h

/-! ## Leaves -/

mutual

/-- The ends of the leaves of a tree. -/
def Node.ends : Node → List (Position × Position)
  | ⟨_, _, start, stop, children⟩ =>
    if children.isEmpty then [(start, stop)] else endsOf children

/-- The ends of the leaves of some trees. -/
def endsOf : List Node → List (Position × Position)
  | [] => []
  | n :: ns => n.ends ++ endsOf ns

end

@[simp] theorem endsOf_nil : endsOf [] = [] := by rw [endsOf]

@[simp] theorem endsOf_cons (n : Node) (ns : List Node) :
    endsOf (n :: ns) = n.ends ++ endsOf ns := by
  rw [endsOf]

theorem endsOf_eq_flatMap (ns : List Node) : endsOf ns = ns.flatMap Node.ends := by
  induction ns with
  | nil => simp
  | cons n ns ih => simp [ih]

@[simp] theorem endsOf_append (ns ms : List Node) : endsOf (ns ++ ms) = endsOf ns ++ endsOf ms := by
  simp [endsOf_eq_flatMap]

theorem ends_of_children_eq_nil {n : Node} (h : n.children = []) : n.ends = [(n.start, n.stop)] := by
  obtain ⟨_, _, _, _, children⟩ := n
  obtain rfl : children = [] := h
  rw [Node.ends]
  rfl

theorem ends_of_children_ne_nil {n : Node} (h : n.children ≠ []) : n.ends = endsOf n.children := by
  obtain ⟨_, _, _, _, children⟩ := n
  rw [Node.ends, if_neg (by simpa using h)]

@[simp] theorem ends_leaf (type : String) (t : Token) :
    (leaf type t).ends = [(t.position, t.stop)] :=
  ends_of_children_eq_nil rfl

@[simp] theorem ends_around {type : String} {ns : List Node} (h : ns ≠ []) :
    (around type ns).ends = endsOf ns :=
  ends_of_children_ne_nil h

@[simp] theorem endsOf_aroundSome (type : String) (ns : List Node) :
    endsOf (aroundSome type ns) = endsOf ns := by
  cases ns with
  | nil => rfl
  | cons n ns => simp [aroundSome]

@[simp] theorem ends_inField (field : String) (n : Node) : (n.inField field).ends = n.ends := by
  cases n
  rw [Node.inField, Node.ends, Node.ends]

/-! ## Tight trees -/

/-- The nodes of a tree reach from the first to the last node below them. -/
def Node.IsTight (n : Node) : Prop := ∀ m, n.Has m → m.children ≠ [] →
  m.children.head?.map (·.start) = some m.start ∧ m.children.getLast?.map (·.stop) = some m.stop

theorem Node.IsTight.of_has {n m : Node} (h : n.IsTight) (hm : n.Has m) : m.IsTight :=
  fun k hk => h k (hm.trans hk)

theorem isTight_leaf (type : String) (t : Token) : (leaf type t).IsTight := by
  intro m hm hne
  rcases has_iff.1 hm with rfl | ⟨c, hc, -⟩
  · exact absurd rfl hne
  · cases hc

theorem isTight_around {type : String} {ns : List Node} (h : ∀ n ∈ ns, n.IsTight) :
    (around type ns).IsTight := by
  intro m hm hne
  rcases has_iff.1 hm with rfl | ⟨c, hc, hm⟩
  · have hns : ns ≠ [] := hne
    simp [around, List.head?_eq_some_head hns, List.getLast?_eq_some_getLast hns]
  · exact h c hc m hm hne

theorem isTight_aroundSome {type : String} {ns : List Node} (h : ∀ n ∈ ns, n.IsTight) :
    ∀ n ∈ aroundSome type ns, n.IsTight := by
  intro n hn
  unfold aroundSome at hn
  split_ifs at hn
  · cases hn
  · obtain rfl := List.mem_singleton.1 hn
    exact isTight_around h

theorem Node.IsTight.inField {n : Node} (h : n.IsTight) (field : String) :
    (n.inField field).IsTight := by
  intro m hm hne
  rcases has_iff.1 hm with rfl | ⟨c, hc, hm⟩
  · exact h n (.refl n) hne
  · exact h m (.step hc hm) hne

/-- A tight tree begins with its first leaf and stops with its last one. -/
theorem Node.IsTight.head?_ends (n : Node) (h : n.IsTight) :
    n.ends.head?.map (·.1) = some n.start ∧ n.ends.getLast?.map (·.2) = some n.stop := by
  induction n using Node.induction with
  | h n ih =>
    by_cases hne : n.children = []
    · simp [ends_of_children_eq_nil hne]
    · have hchild (c : Node) (hc : c ∈ n.children) := ih c hc (h.of_has (has_child hc))
      obtain ⟨hstart, hstop⟩ := h n (.refl n) hne
      rw [ends_of_children_ne_nil hne, ← hstart, ← hstop]
      constructor
      · obtain ⟨c, cs, hcs⟩ := List.exists_cons_of_ne_nil hne
        have hc := (hchild c (by simp [hcs])).1
        obtain ⟨e, he, -⟩ := Option.map_eq_some_iff.1 hc
        simpa [hcs, he] using hc
      · obtain ⟨cs, c, hcs⟩ := (List.eq_nil_or_concat' n.children).resolve_left hne
        have hc := (hchild c (by simp [hcs])).2
        obtain ⟨e, he, -⟩ := Option.map_eq_some_iff.1 hc
        simpa [hcs, he] using hc

/-- Leaves that are ordered: each begins in front of its end, and stops in front of the next. -/
def AreOrdered (es : List (Position × Position)) : Prop :=
  (∀ e ∈ es, e.1.offset ≤ e.2.offset) ∧ es.Pairwise fun e f => e.2.offset ≤ f.1.offset

theorem AreOrdered.sublist {es fs : List (Position × Position)} (h : AreOrdered fs)
    (hsub : es.Sublist fs) : AreOrdered es :=
  ⟨fun e he => h.1 e (hsub.subset he), h.2.sublist hsub⟩

/-- The leaves of a tight tree are inside of it. -/
theorem Node.IsTight.inside {n : Node} (h : n.IsTight) (ho : AreOrdered n.ends)
    {e : Position × Position} (he : e ∈ n.ends) :
    n.start.offset ≤ e.1.offset ∧ e.2.offset ≤ n.stop.offset := by
  obtain ⟨hhead, hlast⟩ := h.head?_ends
  obtain ⟨first, hfirst, hstart⟩ := Option.map_eq_some_iff.1 hhead
  obtain ⟨last, hlast, hstop⟩ := Option.map_eq_some_iff.1 hlast
  rw [← hstart, ← hstop]
  constructor
  · obtain ⟨es, hes⟩ := List.head?_eq_some_iff.1 hfirst
    rw [hes] at he ho
    rcases List.mem_cons.1 he with rfl | he
    · exact Nat.le_refl _
    · exact (ho.1 first List.mem_cons_self).trans (List.rel_of_pairwise_cons ho.2 he)
  · obtain ⟨es, hes⟩ := List.getLast?_eq_some_iff.1 hlast
    rw [hes] at he ho
    rcases List.mem_append.1 he with he | he
    · have hle := (List.pairwise_append.1 ho.2).2.2 e he last (List.mem_singleton_self _)
      exact hle.trans (ho.1 last (by simp))
    · rw [List.mem_singleton.1 he]

theorem Node.IsTight.exists_first {n : Node} (h : n.IsTight) : ∃ e ∈ n.ends, e.1 = n.start := by
  obtain ⟨e, he, hstart⟩ := Option.map_eq_some_iff.1 h.head?_ends.1
  exact ⟨e, List.mem_of_head? he, hstart⟩

theorem Node.IsTight.exists_last {n : Node} (h : n.IsTight) : ∃ e ∈ n.ends, e.2 = n.stop := by
  obtain ⟨e, he, hstop⟩ := Option.map_eq_some_iff.1 h.head?_ends.2
  exact ⟨e, List.mem_of_getLast? he, hstop⟩

theorem ends_sublist_of_mem {n c : Node} (hc : c ∈ n.children) : c.ends.Sublist n.ends := by
  rw [ends_of_children_ne_nil (List.ne_nil_of_mem hc), endsOf_eq_flatMap]
  obtain ⟨cs, ds, hcs⟩ := List.append_of_mem hc
  rw [hcs, List.flatMap_append, List.flatMap_cons]
  exact (List.sublist_append_left _ _).trans (List.sublist_append_right _ _)

theorem ends_sublist {n m : Node} (h : n.Has m) : m.ends.Sublist n.ends := by
  induction h with
  | refl n => exact .refl _
  | step hc _ ih => exact ih.trans (ends_sublist_of_mem hc)

/-- **Ordered trees.**  A tight tree is ordered if its leaves are. -/
theorem isOrdered_of_isTight {n : Node} (h : n.IsTight) (ho : AreOrdered n.ends) :
    ∀ m, n.Has m → m.IsOrdered := by
  intro m hm
  have htight := h.of_has hm
  have hordered := ho.sublist (ends_sublist hm)
  have hchild (c : Node) (hc : c ∈ m.children) : c.IsTight := htight.of_has (Node.has_child hc)
  obtain ⟨e, he, hstart⟩ := htight.exists_first
  refine ⟨?_, fun c hc => ⟨?_, ?_⟩, ?_⟩
  · rw [← hstart]
    exact (hordered.1 e he).trans (htight.inside hordered he).2
  · obtain ⟨f, hf, hc'⟩ := (hchild c hc).exists_first
    rw [← hc']
    exact (htight.inside hordered ((ends_sublist_of_mem hc).subset hf)).1
  · obtain ⟨f, hf, hc'⟩ := (hchild c hc).exists_last
    rw [← hc']
    exact (htight.inside hordered ((ends_sublist_of_mem hc).subset hf)).2
  · by_cases hne : m.children = []
    · rw [hne]
      exact .nil
    · have hpairs := hordered.2
      rw [ends_of_children_ne_nil hne, endsOf_eq_flatMap, List.pairwise_flatMap] at hpairs
      refine hpairs.2.imp_of_mem fun {c d} hc hd hcd => ?_
      obtain ⟨f, hf, hc'⟩ := (hchild c hc).exists_last
      obtain ⟨g, hg, hd'⟩ := (hchild d hd).exists_first
      rw [← hc', ← hd']
      exact hcd f hf g hg

/-! ## The leaves of items -/

/-- The ends of a token. -/
def Token.ends (t : Token) : Position × Position := (t.position, t.stop)

@[simp] theorem ends_token_node (t : Token) : t.node.ends = [t.ends] := ends_leaf _ _

theorem endsOf_map_node (ts : List Token) :
    endsOf (ts.map Token.node) = ts.map Token.ends := by
  induction ts with
  | nil => rfl
  | cons t ts ih => simp [ih]

theorem ends_nameFrom {scope : Node} : ∀ {word : Token} {path : List Token},
    isName (word :: path) = true →
      (nameFrom scope path).ends = scope.ends ++ path.map Token.ends
  | _, [], _ => by simp [nameFrom]
  | _, [dot], h => by simp [isName] at h
  | _, dot :: word :: path, h => by
    rw [isName, Bool.and_eq_true] at h
    rw [nameFrom, ends_nameFrom h.2]
    simp [qualified, Token.ends]

theorem endsOf_nameNodes (path : List Token) : endsOf (nameNodes path) = path.map Token.ends := by
  cases path with
  | nil => rfl
  | cons word path =>
    rw [nameNodes]
    split_ifs with h
    · simp [ends_nameFrom h, Token.ends]
    · exact endsOf_map_node _

@[simp] theorem ends_markName (kind : Kind) (name : Option Token) (n : Node) :
    (markName kind name n).ends = n.ends := by
  unfold markName
  split_ifs <;> simp

theorem endsOf_declarationNodes (kind : Kind) (name : Option Token) (modifiers : Nat)
    (ns : List Node) : endsOf (declarationNodes kind name modifiers ns) = endsOf ns := by
  have hmark (ns : List Node) : endsOf (ns.map (markName kind name)) = endsOf ns := by
    induction ns with
    | nil => rfl
    | cons n ns ih => simp [ih]
  rw [declarationNodes, endsOf_append, endsOf_aroundSome, hmark, ← endsOf_append,
    List.take_append_drop]

theorem nodesOf_eq_map (xs : List Item) : nodesOf xs = xs.map Item.node := by
  induction xs with
  | nil => rw [nodesOf, List.map_nil]
  | cons x xs ih => rw [nodesOf, ih, List.map_cons]

theorem declarationNodes_ne_nil {kind : Kind} {name : Option Token} {modifiers : Nat}
    {ns : List Node} (h : ns ≠ []) : declarationNodes kind name modifiers ns ≠ [] := by
  intro hnil
  rw [declarationNodes, List.append_eq_nil_iff, List.map_eq_nil_iff] at hnil
  obtain ⟨htake, hdrop⟩ := hnil
  have hempty : ns.take modifiers = [] := by
    unfold aroundSome at htake
    split_ifs at htake with he
    simpa using he
  rw [← List.take_append_drop modifiers ns, hempty, hdrop] at h
  exact h rfl

mutual

/-- The leaves of the node of an item are its tokens. -/
theorem ends_node (x : Item) : x.node.ends = x.tokens.map Token.ends := by
  cases x with
  | token t => rw [Item.node, Item.tokens, ends_token_node, List.map_singleton]
  | annot mark path applied arguments =>
    rw [Item.node, ends_around (by simp), endsOf_cons, endsOf_append, endsOf_nameNodes,
      endsOf_aroundSome, endsOf_nodesOf arguments]
    simp [Item.tokens]
  | group bracket opening inner =>
    rw [Item.node, ends_around (by simp), endsOf_cons, endsOf_nodesOf inner]
    simp [Item.tokens]
  | declaration kind name front first rest =>
    have hne : nodesOf front ++ declarationNodes kind name
        ((first :: rest).takeWhile isModifier).length (first.node :: nodesOf rest) ≠ [] :=
      List.append_ne_nil_of_right_ne_nil _ (declarationNodes_ne_nil (List.cons_ne_nil _ _))
    rw [Item.node, ends_around hne, endsOf_append, endsOf_declarationNodes, endsOf_cons,
      endsOf_nodesOf front, ends_node first, endsOf_nodesOf rest]
    simp [Item.tokens]

/-- The leaves of the nodes of items are their tokens. -/
theorem endsOf_nodesOf (xs : List Item) :
    endsOf (nodesOf xs) = (tokensOf xs).map Token.ends := by
  cases xs with
  | nil => simp [nodesOf, tokensOf]
  | cons x xs => rw [nodesOf, endsOf_cons, ends_node x, endsOf_nodesOf xs, tokensOf, List.map_append]

end

/-! ### The nodes of items are tight -/

theorem isTight_nameFrom {scope : Node} (h : scope.IsTight) (path : List Token) :
    (nameFrom scope path).IsTight := by
  induction scope, path using nameFrom.induct with
  | case1 scope dot word path ih =>
    rw [nameFrom]
    refine ih (isTight_around ?_)
    simp only [List.forall_mem_cons, List.not_mem_nil, IsEmpty.forall_iff, implies_true, and_true]
    exact ⟨h.inField _, isTight_leaf _ _, (isTight_leaf _ _).inField _⟩
  | case2 scope path hpath =>
    rw [nameFrom]
    · exact h
    · exact hpath

theorem isTight_nameNodes (path : List Token) : ∀ n ∈ nameNodes path, n.IsTight := by
  cases path with
  | nil => simp [nameNodes]
  | cons word path =>
    rw [nameNodes]
    split_ifs
    · intro n hn
      obtain rfl := List.mem_singleton.1 hn
      exact (isTight_nameFrom (isTight_leaf _ _) path).inField _
    · intro n hn
      obtain ⟨t, -, rfl⟩ := List.mem_map.1 hn
      exact isTight_leaf _ _

theorem isTight_markName (kind : Kind) (name : Option Token) {n : Node} (h : n.IsTight) :
    (markName kind name n).IsTight := by
  unfold markName
  split_ifs
  · refine (isTight_around fun m hm => ?_).inField _
    obtain rfl := List.mem_singleton.1 hm
    exact h.inField _
  · exact h.inField _
  · exact h

theorem isTight_declarationNodes (kind : Kind) (name : Option Token) (modifiers : Nat)
    {ns : List Node} (h : ∀ n ∈ ns, n.IsTight) :
    ∀ n ∈ declarationNodes kind name modifiers ns, n.IsTight := by
  intro n hn
  rcases List.mem_append.1 hn with hn | hn
  · exact isTight_aroundSome (fun m hm => h m (List.mem_of_mem_take hm)) n hn
  · obtain ⟨m, hm, rfl⟩ := List.mem_map.1 hn
    exact isTight_markName kind name (h m (List.mem_of_mem_drop hm))

mutual

theorem isTight_node (x : Item) : x.node.IsTight := by
  cases x with
  | token t => exact isTight_leaf _ _
  | annot mark path applied arguments =>
    rw [Item.node]
    refine isTight_around (List.forall_mem_cons.2 ⟨isTight_leaf _ _, ?_⟩)
    refine List.forall_mem_append.2 ⟨isTight_nameNodes path, ?_⟩
    exact isTight_aroundSome (isTight_nodesOf arguments)
  | group bracket opening inner =>
    rw [Item.node]
    exact isTight_around (List.forall_mem_cons.2 ⟨isTight_leaf _ _, isTight_nodesOf inner⟩)
  | declaration kind name front first rest =>
    rw [Item.node]
    refine isTight_around (List.forall_mem_append.2 ⟨isTight_nodesOf front, ?_⟩)
    refine isTight_declarationNodes _ _ _ ?_
    exact List.forall_mem_cons.2 ⟨isTight_node first, isTight_nodesOf rest⟩

theorem isTight_nodesOf (xs : List Item) : ∀ n ∈ nodesOf xs, n.IsTight := by
  cases xs with
  | nil => simp [nodesOf]
  | cons x xs =>
    rw [nodesOf]
    exact List.forall_mem_cons.2 ⟨isTight_node x, isTight_nodesOf xs⟩

end

/-! ## The trees of sources -/

variable {source : String}

theorem isTight_parse (source : String) : (parse source).IsTight :=
  isTight_around (isTight_nodesOf _)

/-- The leaves of the tree of a source are tokens of it; where there are none, the tree is one
    leaf. -/
theorem ends_parse (source : String) : (parse source).ends = [({}, {})] ∨
    (parse source).ends.Sublist ((tokens source).map Token.ends) := by
  by_cases hne : nodesOf (outlined (tokens source)) = []
  · rw [parse, hne]
    exact .inl (ends_of_children_eq_nil rfl)
  · rw [parse, ends_around hne, endsOf_nodesOf]
    exact .inr ((tokensOf_outlined _).map _)

theorem areOrdered_tokens (source : String) : AreOrdered ((tokens source).map Token.ends) := by
  refine ⟨fun e he => ?_, List.pairwise_map.2 (pairwise_tokens source)⟩
  obtain ⟨t, -, rfl⟩ := List.mem_map.1 he
  exact offset_le_after _ _

/-- A token stands between places of the source. -/
theorem isPoint_of_mem_tokens {t : Token} (ht : t ∈ tokens source) :
    IsPoint source t.position ∧ IsPoint source t.stop := by
  obtain ⟨before, behind, hs, hp⟩ := exists_of_mem_tokens ht
  refine ⟨⟨before, ⟨_, hs.symm⟩, hp⟩, before ++ t.chars, ⟨behind, ?_⟩, ?_⟩
  · rw [hs, List.append_assoc]
  · rw [Token.stop, hp, after_append]

theorem isOrdered_parse (source : String) : ∀ n, (parse source).Has n → n.IsOrdered := by
  refine isOrdered_of_isTight (isTight_parse source) ?_
  rcases ends_parse source with h | h
  · rw [h]
    exact ⟨by simp, List.pairwise_singleton _ _⟩
  · exact (areOrdered_tokens source).sublist h

theorem pointsAgree_parse (source : String) : (parse source).PointsAgree source := by
  have hpoints : ∀ e ∈ (parse source).ends, IsPoint source e.1 ∧ IsPoint source e.2 := by
    intro e he
    rcases ends_parse source with h | h
    · rw [h] at he
      obtain rfl := List.mem_singleton.1 he
      exact ⟨⟨[], List.nil_prefix, rfl⟩, [], List.nil_prefix, rfl⟩
    · obtain ⟨t, ht, rfl⟩ := List.mem_map.1 (h.subset he)
      exact isPoint_of_mem_tokens ht
  intro n hn
  have htight := (isTight_parse source).of_has hn
  have hsub := ends_sublist hn
  obtain ⟨e, he, hstart⟩ := htight.exists_first
  obtain ⟨f, hf, hstop⟩ := htight.exists_last
  rw [← hstart, ← hstop]
  exact ⟨(hpoints e (hsub.subset he)).1, (hpoints f (hsub.subset hf)).2⟩

end AnnotationOrder.Java
