/-
  The walk over a syntax tree with a stack comes to its nodes in pre-order.

  * `Node.Has`: a node is in a tree, with `Node.induction`;
  * `Node.visits`: the nodes of a tree with the ones they belong to, each in front of
    those below it;
  * `declarationsAmong`: the declarations at visited nodes;
  * `scanFrom_eq`: what each step of the walk keeps, and so what a walk finds.
-/
import Mathlib.Tactic.SplitIfs
import AnnotationOrder.Java.Scan

namespace AnnotationOrder.Java

open AnnotationOrder.Order Text

/-! ## Trees -/

namespace Node

/-- A node is the root of a tree or below it. -/
inductive Has : Node → Node → Prop
  | refl (n : Node) : Has n n
  | step {n c m : Node} : c ∈ n.children → Has c m → Has n m

variable {n c m k : Node}

theorem has_child (h : c ∈ n.children) : n.Has c := .step h (.refl c)

theorem Has.trans (h : n.Has m) (h' : m.Has k) : n.Has k := by
  induction h with
  | refl n => exact h'
  | step hc _ ih => exact .step hc (ih h')

/-- What holds of a node if it holds of its children holds of all nodes. -/
theorem induction {P : Node → Prop} (h : ∀ n, (∀ c ∈ n.children, P c) → P n) (n : Node) : P n :=
  h n fun c _ => induction h c
termination_by n.size
decreasing_by exact size_lt_of_mem ‹_›

end Node

/-! ## Visits -/

mutual

/-- The nodes of a tree with the ones they belong to, in pre-order. -/
def Node.visits (owner? : Option Node) : Node → List (Option Node × Node)
  | ⟨type, field, start, stop, children⟩ =>
    (owner?, ⟨type, field, start, stop, children⟩) ::
      visitsOf ⟨type, field, start, stop, children⟩ children

/-- The nodes of trees that belong to one node, in pre-order. -/
def visitsOf (owner : Node) : List Node → List (Option Node × Node)
  | [] => []
  | n :: ns => n.visits (some owner) ++ visitsOf owner ns

end

theorem Node.visits_eq (owner? : Option Node) (n : Node) :
    n.visits owner? = (owner?, n) :: visitsOf n n.children := by
  cases n
  rw [Node.visits]

theorem visitsOf_append (owner : Node) (ns ms : List Node) :
    visitsOf owner (ns ++ ms) = visitsOf owner ns ++ visitsOf owner ms := by
  induction ns with
  | nil => simp [visitsOf]
  | cons n ns ih => simp [visitsOf, ih]

theorem visitsOf_eq_flatMap (owner : Node) (ns : List Node) :
    visitsOf owner ns = (ns.map (some owner, ·)).flatMap fun v => v.2.visits v.1 := by
  induction ns with
  | nil => simp [visitsOf]
  | cons n ns ih => simp [visitsOf, ih]

theorem mem_visitsOf {owner : Node} {ns : List Node} {v : Option Node × Node} :
    v ∈ visitsOf owner ns ↔ ∃ n ∈ ns, v ∈ n.visits (some owner) := by
  induction ns with
  | nil => simp [visitsOf]
  | cons n ns ih => simp [visitsOf, ih]

/-- A visited node is in the tree, and so is the one that it belongs to, below which it is. -/
theorem has_of_mem_visits (root : Node) : ∀ {owner? : Option Node} {v : Option Node × Node},
    v ∈ root.visits owner? →
      root.Has v.2 ∧ (v = (owner?, root) ∨ ∃ owner, v.1 = some owner ∧ root.Has owner ∧
        v.2 ∈ owner.children) := by
  induction root using Node.induction with
  | h n ih =>
    intro owner? v hv
    rw [Node.visits_eq] at hv
    rcases List.mem_cons.1 hv with rfl | hv
    · exact ⟨.refl n, .inl rfl⟩
    · obtain ⟨c, hc, hv⟩ := mem_visitsOf.1 hv
      obtain ⟨hhas, hown⟩ := ih c hc hv
      refine ⟨.step hc hhas, .inr ?_⟩
      rcases hown with rfl | ⟨owner, ho, hin, hmem⟩
      · exact ⟨n, rfl, .refl n, hc⟩
      · exact ⟨owner, ho, .step hc hin, hmem⟩

/-! ## Declarations at visited nodes -/

variable {source : List UInt8} {vs ws : List (Option Node × Node)} {ds es : List Declaration}

/-- The declarations at visited nodes. -/
def declarationsAmong (source : List UInt8) :
    List (Option Node × Node) → Except Utf8.DecodeError (List Declaration)
  | [] => .ok []
  | (owner?, n) :: vs => do
    let d ← declarationAt source owner? n
    let ds ← declarationsAmong source vs
    return d.toList ++ ds

/-- **The walk.**  With a stack of nodes, the declarations are those at the visits to the trees on
    the stack, one tree after the other. -/
theorem scanFrom_eq (source : List UInt8) (found : List Declaration)
    (stack : List (Option Node × Node)) :
    scanFrom source found stack =
      (declarationsAmong source (stack.flatMap fun v => v.2.visits v.1)).map (found ++ ·) := by
  induction found, stack using scanFrom.induct with
  | case1 found => simp [scanFrom, declarationsAmong, Except.map]
  | case2 found owner? n stack ih =>
    -- the children of the node that is taken off the stack are visited next, the first one first
    have hnext : (pushChildren n stack).flatMap (fun v => v.2.visits v.1) =
        visitsOf n n.children ++ stack.flatMap fun v => v.2.visits v.1 := by
      rw [pushChildren_eq, List.flatMap_append, visitsOf_eq_flatMap]
    rw [scanFrom, List.flatMap_cons, Node.visits_eq, List.cons_append, declarationsAmong, ← hnext]
    cases declarationAt source owner? n with
    | error e => rfl
    | ok d =>
      change scanFrom source (found ++ d.toList) (pushChildren n stack) = _
      rw [ih d]
      cases declarationsAmong source ((pushChildren n stack).flatMap fun v => v.2.visits v.1) with
      | error e => rfl
      | ok ds => simp [Except.map, bind, Except.bind, pure, Except.pure]

/-- The declarations of a source are those at the visits to its tree. -/
theorem scanSource_eq_ok_iff {parse : String → Node} {text : String} :
    scanSource parse text = .ok ds ↔ if blank text then ds = [] else
      declarationsAmong (Utf8.encode text.toList) ((parse text).visits none) = .ok ds := by
  unfold scanSource
  split_ifs
  · exact ⟨fun h => (Except.ok.inj h).symm, fun h => h ▸ rfl⟩
  · simp only [scanFrom_eq, List.flatMap_cons, List.flatMap_nil, List.append_nil, List.nil_append]
    cases declarationsAmong (Utf8.encode text.toList) ((parse text).visits none) <;> rfl

theorem declarationsAmong_cons_eq_ok_iff {owner? : Option Node} {n : Node} :
    declarationsAmong source ((owner?, n) :: vs) = .ok ds ↔
      ∃ d es, declarationAt source owner? n = .ok d ∧ declarationsAmong source vs = .ok es ∧
        ds = d.toList ++ es := by
  rw [declarationsAmong]
  cases declarationAt source owner? n with
  | error e => simp [bind, Except.bind]
  | ok d =>
    cases declarationsAmong source vs with
    | error e => simp [bind, Except.bind]
    | ok es => simp [bind, Except.bind, pure, Except.pure, eq_comm]

theorem declarationsAmong_append_eq_ok_iff :
    declarationsAmong source (vs ++ ws) = .ok ds ↔
      ∃ ds₁ ds₂, declarationsAmong source vs = .ok ds₁ ∧ declarationsAmong source ws = .ok ds₂ ∧
        ds = ds₁ ++ ds₂ := by
  induction vs generalizing ds with
  | nil => simp [declarationsAmong]
  | cons v vs ih =>
    obtain ⟨owner?, n⟩ := v
    simp only [List.cons_append, declarationsAmong_cons_eq_ok_iff, ih]
    constructor
    · rintro ⟨d, _, hd, ⟨ds₁, ds₂, h₁, h₂, rfl⟩, rfl⟩
      exact ⟨_, ds₂, ⟨d, ds₁, hd, h₁, rfl⟩, h₂, by simp⟩
    · rintro ⟨_, ds₂, ⟨d, ds₁, hd, h₁, rfl⟩, h₂, rfl⟩
      exact ⟨d, _, hd, ⟨ds₁, ds₂, h₁, h₂, rfl⟩, by simp⟩

theorem exists_of_mem_declarationsAmong (h : declarationsAmong source vs = .ok ds)
    {d : Declaration} (hd : d ∈ ds) :
    ∃ v ∈ vs, declarationAt source v.1 v.2 = .ok (some d) := by
  induction vs generalizing ds with
  | nil =>
    obtain rfl := Except.ok.inj h
    cases hd
  | cons v vs ih =>
    obtain ⟨owner?, n⟩ := v
    obtain ⟨d', es, hd', hes, rfl⟩ := declarationsAmong_cons_eq_ok_iff.1 h
    rcases List.mem_append.1 hd with hd | hd
    · rw [Option.mem_toList.1 hd] at hd'
      exact ⟨_, List.mem_cons_self, hd'⟩
    · obtain ⟨v, hv, hat⟩ := ih hes hd
      exact ⟨v, List.mem_cons_of_mem _ hv, hat⟩

theorem exists_declarationsAmong_eq_ok
    (h : ∀ v ∈ vs, ∃ d, declarationAt source v.1 v.2 = .ok d) :
    ∃ ds, declarationsAmong source vs = .ok ds := by
  induction vs with
  | nil => exact ⟨[], rfl⟩
  | cons v vs ih =>
    obtain ⟨d, hd⟩ := h v List.mem_cons_self
    obtain ⟨ds, hds⟩ := ih fun v hv => h v (List.mem_cons_of_mem _ hv)
    exact ⟨_, declarationsAmong_cons_eq_ok_iff.2 ⟨d, ds, hd, hds, rfl⟩⟩

/-! ## What is read at a node -/

/-- A declaration has the annotations among the modifiers at a node, and begins with the node that
    these belong to. -/
theorem declarationAt_eq_ok_some {owner? : Option Node} {n : Node} {d : Declaration}
    (h : declarationAt source owner? n = .ok (some d)) :
    n.type = "modifiers" ∧ annotationsOf source n.children = .ok d.annotations ∧
      d.annotations ≠ [] ∧ ∃ owner, owner? = some owner ∧ d.line = owner.start.row + 1 := by
  cases owner? with
  | none => simp [declarationAt] at h
  | some owner =>
    unfold declarationAt at h
    by_cases hn : n.type = "modifiers"
    · simp only [hn, bne_self_eq_false, Bool.false_eq_true, if_false] at h
      cases has : annotationsOf source n.children with
      | error e =>
        rw [has] at h
        cases h
      | ok as =>
        rw [has] at h
        simp only [bind, Except.bind] at h
        split_ifs at h with hne
        · cases h
        · cases hname : declarationName source owner with
          | error e =>
            rw [hname] at h
            cases h
          | ok name =>
            rw [hname] at h
            obtain rfl := Option.some.inj (Except.ok.inj h)
            exact ⟨hn, rfl, by simpa using hne, owner, rfl, rfl⟩
    · rw [bne_iff_ne.2 hn] at h
      cases h

theorem annotationsOf_cons_eq_ok_iff {n : Node} {ns : List Node} {as : List (Annot Span)} :
    annotationsOf source (n :: ns) = .ok as ↔
      ∃ a bs, annotationAt source n = .ok a ∧ annotationsOf source ns = .ok bs ∧
        as = a.toList ++ bs := by
  rw [annotationsOf]
  cases annotationAt source n with
  | error e => simp [bind, Except.bind]
  | ok a =>
    cases annotationsOf source ns with
    | error e => simp [bind, Except.bind]
    | ok bs => simp [bind, Except.bind, pure, Except.pure, eq_comm]

theorem exists_of_mem_annotationsOf {ns : List Node} {as : List (Annot Span)}
    (h : annotationsOf source ns = .ok as) {a : Annot Span} (ha : a ∈ as) :
    ∃ n ∈ ns, annotationAt source n = .ok (some a) := by
  induction ns generalizing as with
  | nil =>
    obtain rfl := Except.ok.inj h
    cases ha
  | cons n ns ih =>
    obtain ⟨b, bs, hb, hbs, rfl⟩ := annotationsOf_cons_eq_ok_iff.1 h
    rcases List.mem_append.1 ha with ha | ha
    · rw [Option.mem_toList.1 ha] at hb
      exact ⟨n, List.mem_cons_self, hb⟩
    · obtain ⟨m, hm, hat⟩ := ih hbs ha
      exact ⟨m, List.mem_cons_of_mem _ hm, hat⟩

/-- An annotation is a node that is named by the last part of a name, which has a text. -/
theorem annotationAt_eq_ok_some_iff {n : Node} {a : Annot Span} :
    annotationAt source n = .ok (some a) ↔ n.isAnnotationNode = true ∧
      ∃ m, n.annotationName? = some m ∧ m.text? source = .ok (some a.name) ∧
        a.location = m.span source := by
  unfold annotationAt
  by_cases hn : n.isAnnotationNode = true
  · simp only [hn, Bool.not_true, Bool.false_eq_true, if_false, true_and]
    cases n.annotationName? with
    | none => simp
    | some m =>
      obtain ⟨name, location⟩ := a
      cases ht : m.text? source with
      | error e => simp [ht, Except.map]
      | ok text => cases text <;> simp [ht, Except.map, eq_comm]
  · simp [hn]

end AnnotationOrder.Java
