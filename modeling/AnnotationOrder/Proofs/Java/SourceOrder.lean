/-
  The declarations of a source stand in the order of the source.

  A declaration is listed in front of those inside its own annotations, and its further
  annotations may stand behind these.  So the annotations of two declarations may
  interleave, but the first ones follow each other, and no annotation is taken twice.

  * `Node.leaves`: the leaves of a tree, in order if its children are;
  * `Draws`: which leaves declarations take their annotations from, with one lemma for each
    way of putting declarations together;
  * `exists_draws_modifiers`: the annotations among modifiers, and what is inside of them;
  * `draws_visits`: what the visits to a tree find, by induction on the tree;
  * `declarations_in_source_order`: the declarations of a source.
-/
import Mathlib.Data.List.Perm.Subperm
import AnnotationOrder.Proofs.Java.Location

namespace AnnotationOrder.Java

open AnnotationOrder.Order Text

/-! ## Leaves -/

mutual

/-- The leaves of a tree that are not empty. -/
def Node.leaves : Node → List Node
  | ⟨type, field, start, stop, children⟩ =>
    if children.isEmpty then
      if start.offset < stop.offset then [⟨type, field, start, stop, children⟩] else []
    else leavesOf children

/-- The leaves of some trees that are not empty. -/
def leavesOf : List Node → List Node
  | [] => []
  | n :: ns => n.leaves ++ leavesOf ns

end

variable {n m : Node} {ns ms : List Node}

theorem leavesOf_eq_flatMap (ns : List Node) : leavesOf ns = ns.flatMap Node.leaves := by
  induction ns with
  | nil => rw [leavesOf, List.flatMap_nil]
  | cons n ns ih => rw [leavesOf, ih, List.flatMap_cons]

theorem leavesOf_append (ns ms : List Node) :
    leavesOf (ns ++ ms) = leavesOf ns ++ leavesOf ms := by
  simp [leavesOf_eq_flatMap]

theorem leaves_of_children_eq_nil (h : n.children = []) :
    n.leaves = if n.start.offset < n.stop.offset then [n] else [] := by
  obtain ⟨_, _, _, _, children⟩ := n
  obtain rfl : children = [] := h
  rw [Node.leaves]
  rfl

theorem leaves_of_children_ne_nil (h : n.children ≠ []) : n.leaves = leavesOf n.children := by
  obtain ⟨_, _, _, _, children⟩ := n
  rw [Node.leaves, if_neg (by simpa using h)]

/-- A node with nothing below it has no leaves but itself. -/
theorem leavesOf_children_sublist (n : Node) : (leavesOf n.children).Sublist n.leaves := by
  by_cases hne : n.children = []
  · rw [hne, leavesOf]
    exact List.nil_sublist _
  · rw [leaves_of_children_ne_nil hne]

theorem leaves_sublist_leavesOf (h : n ∈ ns) : n.leaves.Sublist (leavesOf ns) := by
  obtain ⟨xs, ys, rfl⟩ := List.append_of_mem h
  rw [leavesOf_append, leavesOf]
  exact (List.sublist_append_left _ _).trans (List.sublist_append_right _ _)

theorem leaves_sublist (h : n.Has m) : m.leaves.Sublist n.leaves := by
  induction h with
  | refl n => exact .refl _
  | step hc _ ih => exact ih.trans ((leaves_sublist_leavesOf hc).trans (leavesOf_children_sublist _))

theorem has_of_mem_leaves (n : Node) (h : m ∈ n.leaves) :
    n.Has m ∧ m.start.offset < m.stop.offset := by
  induction n using Node.induction with
  | h n ih =>
    by_cases hne : n.children = []
    · rw [leaves_of_children_eq_nil hne] at h
      split_ifs at h with hlt
      · obtain rfl := List.mem_singleton.1 h
        exact ⟨.refl m, hlt⟩
      · cases h
    · rw [leaves_of_children_ne_nil hne, leavesOf_eq_flatMap, List.mem_flatMap] at h
      obtain ⟨c, hc, h⟩ := h
      exact ⟨.step hc (ih c hc h).1, (ih c hc h).2⟩

/-- The leaves of an ordered tree begin one behind the other. -/
theorem pairwise_leaves (n : Node) (ho : ∀ k, n.Has k → k.IsOrdered) :
    n.leaves.Pairwise fun v w => v.start.offset < w.start.offset := by
  induction n using Node.induction with
  | h n ih =>
    by_cases hne : n.children = []
    · rw [leaves_of_children_eq_nil hne]
      split_ifs
      · exact List.pairwise_singleton _ _
      · exact .nil
    · rw [leaves_of_children_ne_nil hne, leavesOf_eq_flatMap, List.pairwise_flatMap]
      have hchild (c : Node) (hc : c ∈ n.children) : ∀ k, c.Has k → k.IsOrdered :=
        fun k hk => ho k (.step hc hk)
      refine ⟨fun c hc => ih c hc (hchild c hc), ?_⟩
      refine (ho n (.refl n)).apart.imp_of_mem fun {c d} hc hd hcd v hv w hw => ?_
      obtain ⟨hcv, hlt⟩ := has_of_mem_leaves c hv
      have hstop := (hcv.inside (hchild c hc)).2
      have hstart := ((has_of_mem_leaves d hw).1.inside (hchild d hd)).1
      omega

/-- The spans of nodes, for the bytes of the source. -/
def spansOf (source : List UInt8) (ns : List Node) : List Span := ns.map (Node.span source)

/-- The spans of the leaves of a tree follow each other. -/
theorem pairwise_before_spans {source : String} {root : Node} (points : root.PointsAgree source)
    (order : ∀ n, root.Has n → n.IsOrdered) :
    (spansOf (Utf8.encode source.toList) root.leaves).Pairwise Span.Before := by
  refine List.pairwise_map.2 ((pairwise_leaves root order).imp_of_mem fun {v w} hv hw hlt => ?_)
  have hv := (points v (has_of_mem_leaves root hv).1).1
  have hw := (points w (has_of_mem_leaves root hw).1).1
  rcases row_lt_or_charColumn_lt hv hw hlt with hrow | ⟨hrow, hcol⟩
  · exact .inl (Int.ofNat_lt.2 (Nat.succ_lt_succ hrow))
  · exact .inr ⟨congrArg (fun r : Nat => ((r + 1 : Nat) : Int)) hrow, Int.ofNat_lt.2 hcol⟩

/-! ## The leaves that declarations take -/

variable {bytes : List UInt8} {ds es : List Declaration} {d : Declaration}

/-- The spans of the annotations of a declaration. -/
def Declaration.spans (d : Declaration) : List Span := d.annotations.map (·.location)

/-- The span of the first annotation of a declaration. -/
def Declaration.start? (d : Declaration) : Option Span := d.spans.head?

/-- Declarations take their annotations from leaves: none twice, and the first ones in the order of
    the leaves. -/
structure Draws (bytes : List UInt8) (ns : List Node) (ds : List Declaration) : Prop where
  spans : (ds.flatMap Declaration.spans).Subperm (spansOf bytes ns)
  starts : (ds.filterMap Declaration.start?).Sublist (spansOf bytes ns)

namespace Draws

theorem nil : Draws bytes ns [] := ⟨List.nil_subperm, List.nil_sublist _⟩

theorem append (h : Draws bytes ns ds) (h' : Draws bytes ms es) :
    Draws bytes (ns ++ ms) (ds ++ es) := by
  constructor
  · rw [List.flatMap_append, spansOf, List.map_append]
    exact h.spans.append h'.spans
  · rw [List.filterMap_append, spansOf, List.map_append]
    exact h.starts.append h'.starts

theorem mono (h : Draws bytes ns ds) (hsub : ns.Sublist ms) : Draws bytes ms ds :=
  ⟨h.spans.trans (hsub.map _).subperm, h.starts.trans (hsub.map _)⟩

/-- A declaration takes the names of its annotations; the others draw on the rest. -/
theorem cons {names rest : List Node} (hd : d.spans = spansOf bytes names)
    (h : Draws bytes rest ds) (hperm : (names ++ rest).Subperm ns)
    (hfirst : (names.head?.toList ++ rest).Sublist ns) : Draws bytes ns (d :: ds) := by
  constructor
  · obtain ⟨us, hus, hsub⟩ := hperm
    have hall := hus.map (Node.span bytes)
    rw [List.map_append] at hall
    rw [List.flatMap_cons, hd]
    exact ((List.subperm_append_left _).2 h.spans).trans ⟨_, hall, hsub.map _⟩
  · have hall := hfirst.map (Node.span bytes)
    have hstart : d.start?.toList = names.head?.toList.map (Node.span bytes) := by
      rw [Declaration.start?, hd, spansOf, List.head?_map]
      cases names.head? <;> rfl
    rw [List.map_append, ← hstart] at hall
    have hcons : (d :: ds).filterMap Declaration.start? =
        d.start?.toList ++ ds.filterMap Declaration.start? := by
      cases hs : d.start? <;> simp [hs]
    rw [hcons]
    exact (h.starts.append_left _).trans hall

end Draws

/-! ## Visits -/

/-- What the visits to a node that has nothing below it find. -/
theorem eq_nil_of_leaf {owner? : Option Node} (hn : n.children = [])
    (h : declarationsAmong bytes (n.visits owner?) = .ok ds) : ds = [] := by
  rw [Node.visits_eq, hn, visitsOf] at h
  obtain ⟨d, es, hd, hes, rfl⟩ := declarationsAmong_cons_eq_ok_iff.1 h
  obtain rfl := Except.ok.inj hes
  cases d with
  | none => rfl
  | some d =>
    obtain ⟨-, has, hne, -⟩ := declarationAt_eq_ok_some hd
    rw [hn] at has
    exact absurd (Except.ok.inj has).symm hne

theorem eq_nil_of_visitsOf {owner : Node}
    (hns : ∀ n ∈ ns, ∀ ds, declarationsAmong bytes (n.visits (some owner)) = .ok ds → ds = [])
    (h : declarationsAmong bytes (visitsOf owner ns) = .ok ds) : ds = [] := by
  induction ns generalizing ds with
  | nil => exact (Except.ok.inj h).symm
  | cons n ns ih =>
    rw [visitsOf] at h
    obtain ⟨ds₁, ds₂, h₁, h₂, rfl⟩ := declarationsAmong_append_eq_ok_iff.1 h
    obtain ⟨hn, hns⟩ := List.forall_mem_cons.1 hns
    rw [hn ds₁ h₁, ih hns h₂]
    rfl

/-- At a node that is no `modifiers`, the declarations are those below it. -/
theorem declarationsAmong_visitsOf {owner? : Option Node} (hn : n.type ≠ "modifiers")
    (h : declarationsAmong bytes (n.visits owner?) = .ok ds) :
    declarationsAmong bytes (visitsOf n n.children) = .ok ds := by
  rw [Node.visits_eq] at h
  obtain ⟨d, es, hd, hes, rfl⟩ := declarationsAmong_cons_eq_ok_iff.1 h
  cases d with
  | none => exact hes
  | some d => exact absurd (declarationAt_eq_ok_some hd).1 hn

/-! ### Names -/

/-- The name of an annotation ends with a leaf. -/
theorem exists_lastName (w : Node) (hg : ∀ k, w.Has k → k.IsGrammatical) (hw : w.IsNameNode) :
    ∃ m, w.lastName? = some m ∧ m.children = [] := by
  induction w using Node.induction with
  | h w ih =>
    rw [Node.lastName?]
    rcases hw with hw | hw
    · refine ⟨w, ?_, (hg w (.refl w)).identifier hw⟩
      rw [hw]
      rfl
    · obtain ⟨⟨m, hm, hmname⟩, -⟩ := (hg w (.refl w)).qualified hw
      have hmem := Node.mem_of_child? hm
      obtain ⟨k, hk, hleaf⟩ := ih m hmem (fun l hl => hg l (.step hmem hl)) hmname
      refine ⟨k, ?_, hleaf⟩
      simp only [hw, bne_self_eq_false, Bool.false_eq_true, if_false]
      split
      · rename_i hnone
        rw [hm] at hnone
        cases hnone
      · rename_i l hl
        rw [hm] at hl
        rwa [← Option.some.inj hl]

/-- Nothing is declared in the name of an annotation. -/
theorem eq_nil_of_name (w : Node) (hg : ∀ k, w.Has k → k.IsGrammatical) (hw : w.IsNameNode) :
    ∀ owner? ds, declarationsAmong bytes (w.visits owner?) = .ok ds → ds = [] := by
  induction w using Node.induction with
  | h w ih =>
    intro owner? ds h
    rcases hw with hw | hw
    · exact eq_nil_of_leaf ((hg w (.refl w)).identifier hw) h
    · have hw' : w.type ≠ "modifiers" := by
        rw [hw]
        decide
      refine eq_nil_of_visitsOf (fun c hc ds hds => ?_) (declarationsAmong_visitsOf hw' h)
      rcases ((hg w (.refl w)).qualified hw).2 c hc with hleaf | hqualified
      · exact eq_nil_of_leaf hleaf hds
      · exact ih c hc (fun l hl => hg l (.step hc hl)) (.inr hqualified) _ ds hds

/-! ### Modifiers -/

/-- What the visits to a node find is drawn from its leaves. -/
def Node.IsDrawn (bytes : List UInt8) (n : Node) : Prop :=
  ∀ owner? ds, declarationsAmong bytes (n.visits owner?) = .ok ds → Draws bytes n.leaves ds

theorem draws_visitsOf {owner : Node} (hns : ∀ n ∈ ns, n.IsDrawn bytes)
    (h : declarationsAmong bytes (visitsOf owner ns) = .ok ds) : Draws bytes (leavesOf ns) ds := by
  induction ns generalizing ds with
  | nil =>
    obtain rfl := Except.ok.inj h
    exact .nil
  | cons n ns ih =>
    rw [visitsOf] at h
    obtain ⟨ds₁, ds₂, h₁, h₂, rfl⟩ := declarationsAmong_append_eq_ok_iff.1 h
    obtain ⟨hn, hns⟩ := List.forall_mem_cons.1 hns
    rw [leavesOf]
    exact (hn _ ds₁ h₁).append (ih hns h₂)

section

variable {source : String} {root : Node} (points : root.PointsAgree source)
  (order : ∀ n, root.Has n → n.IsOrdered) (grammar : ∀ n, root.Has n → n.IsGrammatical)
include points order grammar

omit grammar in
/-- An annotation whose name is not empty is read, and stands where its name does. -/
theorem location_of_annotationAt {c m : Node} {a : Option (Annot Span)}
    (hannot : c.isAnnotationNode = true) (hm : c.annotationName? = some m) (hroot : root.Has m)
    (hlt : m.start.offset < m.stop.offset)
    (ha : annotationAt (Utf8.encode source.toList) c = .ok a) :
    a.toList.map (·.location) = [m.span (Utf8.encode source.toList)] := by
  obtain ⟨before, cs, behind, -, hstart, hstop, htext⟩ :=
    exists_text (points m hroot) (order m hroot).start_le_stop
  have hne : cs ≠ [] := by
    rintro rfl
    rw [hstart, hstop, List.append_nil] at hlt
    exact Nat.lt_irrefl _ hlt
  rw [if_neg hne] at htext
  have hat : annotationAt (Utf8.encode source.toList) c =
      .ok (some ⟨String.ofList cs, m.span (Utf8.encode source.toList)⟩) :=
    annotationAt_eq_ok_some_iff.2 ⟨hannot, m, hm, htext, rfl⟩
  obtain rfl := Except.ok.inj (ha.symm.trans hat)
  rfl

/-- An annotation has its name in front of all that is declared inside of it. -/
theorem exists_draws_annotation {c : Node} {a : Option (Annot Span)} {owner? : Option Node}
    (hc : root.Has c) (hannot : c.isAnnotationNode = true)
    (hbelow : ∀ k ∈ c.children, k.IsDrawn (Utf8.encode source.toList))
    (ha : annotationAt (Utf8.encode source.toList) c = .ok a)
    (h : declarationsAmong (Utf8.encode source.toList) (c.visits owner?) = .ok ds) :
    ∃ name rest, a.toList.map (·.location) = [name.span (Utf8.encode source.toList)] ∧
      Draws (Utf8.encode source.toList) rest ds ∧ (name :: rest).Sublist c.leaves := by
  obtain ⟨front, written, rest, hchildren, hfront, hw, hname⟩ := (grammar c hc).annotationParts hannot
  have hmem : written ∈ c.children := Node.mem_of_child? hw
  have hwroot : root.Has written := hc.trans (Node.has_child hmem)
  have hwgrammar : ∀ k, written.Has k → k.IsGrammatical := fun k hk => grammar k (hwroot.trans hk)
  obtain ⟨m, hlast, hleaf⟩ := exists_lastName written hwgrammar hname
  have hwm := has_of_lastName? written hlast
  have hmroot := hwroot.trans hwm
  have hm : c.annotationName? = some m := by
    rw [Node.annotationName?, hw, Option.bind_some, hlast]
  have hlt := (grammar c hc).named hannot m hm
  refine ⟨m, leavesOf rest, ?_, ?_, ?_⟩
  · exact location_of_annotationAt points order hannot hm hmroot hlt ha
  · -- nothing is declared in front of the arguments
    have htype : c.type ≠ "modifiers" := by
      intro htype
      simp [Node.isAnnotationNode, htype] at hannot
    have hvisits := declarationsAmong_visitsOf htype h
    rw [hchildren, visitsOf_append, visitsOf] at hvisits
    obtain ⟨ds₁, es, h₁, hes, rfl⟩ := declarationsAmong_append_eq_ok_iff.1 hvisits
    obtain ⟨ds₂, ds₃, h₂, h₃, rfl⟩ := declarationsAmong_append_eq_ok_iff.1 hes
    obtain rfl := eq_nil_of_visitsOf (fun k hk ds => eq_nil_of_leaf (hfront k hk)) h₁
    obtain rfl := eq_nil_of_name written hwgrammar hname _ _ h₂
    exact draws_visitsOf (fun k hk => hbelow k (by rw [hchildren]; simp [hk])) h₃
  · have hchild : (written.leaves ++ leavesOf rest).Sublist (leavesOf c.children) := by
      rw [hchildren, leavesOf_append, leavesOf]
      exact List.sublist_append_right _ _
    have hm := leaves_sublist hwm
    rw [leaves_of_children_eq_nil hleaf, if_pos hlt] at hm
    exact (hm.append (.refl _)).trans (hchild.trans (leavesOf_children_sublist c))

/-- **Modifiers.**  The names of the annotations among modifiers and the leaves that declarations
    inside of them draw on are different ones; the first name is in front of the others. -/
theorem exists_draws_modifiers {owner : Node} {as : List (Annot Span)}
    (hns : ∀ n ∈ ns, root.Has n ∧ n.IsModifierNode)
    (hbelow : ∀ n ∈ ns, ∀ k ∈ n.children, k.IsDrawn (Utf8.encode source.toList))
    (has : annotationsOf (Utf8.encode source.toList) ns = .ok as)
    (h : declarationsAmong (Utf8.encode source.toList) (visitsOf owner ns) = .ok ds) :
    ∃ names rest, as.map (·.location) = spansOf (Utf8.encode source.toList) names ∧
      Draws (Utf8.encode source.toList) rest ds ∧ (names ++ rest).Subperm (leavesOf ns) ∧
      (names.head?.toList ++ rest).Sublist (leavesOf ns) ∧ names.Sublist (leavesOf ns) := by
  induction ns generalizing as ds with
  | nil =>
    obtain rfl := Except.ok.inj has
    obtain rfl := Except.ok.inj h
    exact ⟨[], [], rfl, .nil, List.nil_subperm, List.nil_sublist _, List.nil_sublist _⟩
  | cons c cs ih =>
    obtain ⟨a, bs, ha, hbs, rfl⟩ := annotationsOf_cons_eq_ok_iff.1 has
    rw [visitsOf] at h
    obtain ⟨ds₁, ds₂, h₁, h₂, rfl⟩ := declarationsAmong_append_eq_ok_iff.1 h
    obtain ⟨⟨hroot, hmodifier⟩, hns⟩ := List.forall_mem_cons.1 hns
    obtain ⟨hc, hcs⟩ := List.forall_mem_cons.1 hbelow
    obtain ⟨names, rest, hspans, hdraws, hperm, hfirst, hnames⟩ := ih hns hcs hbs h₂
    rw [leavesOf, List.map_append, hspans]
    by_cases hannot : c.isAnnotationNode = true
    · obtain ⟨name, inside, hname, hinside, hsub⟩ :=
        exists_draws_annotation points order grammar hroot hannot hc ha h₁
      have hrest : rest.Sublist (leavesOf cs) := (List.sublist_append_right _ _).trans hfirst
      refine ⟨name :: names, inside ++ rest, by rw [hname]; rfl, hinside.append hdraws, ?_, ?_, ?_⟩
      · have hswap : (name :: names ++ (inside ++ rest)).Perm
            (name :: inside ++ (names ++ rest)) := by
          rw [List.cons_append, List.cons_append]
          exact (List.perm_append_comm_assoc names inside rest).cons name
        exact hswap.subperm.trans (hsub.subperm.append hperm)
      · exact hsub.append hrest
      · exact ((List.singleton_sublist.2 List.mem_cons_self).trans hsub).append hnames
    · have hleaf : c.children = [] := hmodifier.resolve_left hannot
      obtain rfl := eq_nil_of_leaf hleaf h₁
      have hnone : a = none := by
        have hat : annotationAt (Utf8.encode source.toList) c = .ok none := by
          simp [annotationAt, hannot]
        exact Except.ok.inj (ha.symm.trans hat)
      subst hnone
      have hskip := List.sublist_append_right c.leaves (leavesOf cs)
      exact ⟨names, rest, rfl, hdraws, hperm.trans hskip.subperm, hfirst.trans hskip,
        hnames.trans hskip⟩

/-! ### Trees -/

/-- **What the visits to a tree find** is drawn from its leaves. -/
theorem draws_visits (n : Node) (hroot : root.Has n) :
    ∀ m, n.Has m → m.IsDrawn (Utf8.encode source.toList) := by
  -- by induction on the tree; at modifiers, what is two nodes further down is needed
  induction n using Node.induction with
  | h n ih =>
    have hchild : ∀ c ∈ n.children, ∀ m, c.Has m → m.IsDrawn (Utf8.encode source.toList) :=
      fun c hc => ih c hc (hroot.trans (Node.has_child hc))
    have hdrawn : ∀ c ∈ n.children, c.IsDrawn (Utf8.encode source.toList) :=
      fun c hc => hchild c hc c (.refl c)
    intro m hm
    rcases has_iff.1 hm with rfl | ⟨c, hc, hm⟩
    · intro owner? ds h
      by_cases htype : m.type = "modifiers"
      · rw [Node.visits_eq] at h
        obtain ⟨d, es, hd, hes, rfl⟩ := declarationsAmong_cons_eq_ok_iff.1 h
        cases d with
        | none => exact (draws_visitsOf hdrawn hes).mono (leavesOf_children_sublist m)
        | some d =>
          obtain ⟨-, has, -, -⟩ := declarationAt_eq_ok_some hd
          have hmodifiers := (grammar m hroot).modifiers htype
          obtain ⟨names, rest, hspans, hdraws, hperm, hfirst, -⟩ :=
            exists_draws_modifiers points order grammar
              (fun c hc => ⟨hroot.trans (Node.has_child hc), hmodifiers c hc⟩)
              (fun c hc k hk => hchild c hc k (Node.has_child hk)) has hes
          have hleaves := leavesOf_children_sublist m
          exact .cons hspans hdraws (hperm.trans hleaves.subperm) (hfirst.trans hleaves)
      · have hbelow := declarationsAmong_visitsOf htype h
        exact (draws_visitsOf hdrawn hbelow).mono (leavesOf_children_sublist m)
    · exact hchild c hc m hm

/-- The spans of a declaration that a scan finds follow each other. -/
theorem pairwise_spans_of_mem_scanSource {parse : String → Node} (hparse : parse source = root)
    (h : scanSource parse source = .ok ds) (hd : d ∈ ds) :
    d.spans ≠ [] ∧ d.spans.Pairwise Span.Before := by
  subst hparse
  obtain ⟨owner, n, howner, hn, htype, has, hne, -⟩ := exists_modifiers_of_mem_scanSource h hd
  refine ⟨fun hnil => hne (List.map_eq_nil_iff.1 hnil), ?_⟩
  have hroot := howner.trans (Node.has_child hn)
  -- something may be declared below the modifiers, too
  obtain ⟨es, hes⟩ := exists_visits_eq_ok (fun k hk => exists_text_eq_ok points order hk) hroot
  rw [Node.visits_eq] at hes
  obtain ⟨_, below, _, hbelow, _⟩ := declarationsAmong_cons_eq_ok_iff.1 hes
  have hmodifiers := (grammar n hroot).modifiers htype
  obtain ⟨names, rest, hspans, -, -, -, hnames⟩ :=
    exists_draws_modifiers points order grammar
      (fun c hc => ⟨hroot.trans (Node.has_child hc), hmodifiers c hc⟩)
      (fun c hc k hk => draws_visits points order grammar n hroot k (.step hc (Node.has_child hk)))
      has hbelow
  have hsub := hnames.trans ((leavesOf_children_sublist n).trans (leaves_sublist hroot))
  rw [Declaration.spans, hspans]
  exact (pairwise_before_spans points order).sublist (hsub.map _)

end

/-- Annotations with a class in their arguments, in front of further ones of the same declaration,
    and parameters, a lambda and a local class inside a method. -/
def tangledSource : String :=
  "@A(new B() \x7b @C() void f(@D int g) \x7b \x7d \x7d) @H\nclass I \x7b\n" ++
    " @J @K(@L) void m() \x7b F<T> r = (@N T p) -> \x7b @O class Q \x7b @R int s; \x7d \x7d; \x7d\n\x7d"

end AnnotationOrder.Java
