/-
  Names in one line.

  Links between names, each asking for one name before another, can put all the names that take
  part into one line, also where the table says nothing about the ends of the line.  Then this
  line is the order proposed, however the names are shuffled and whatever stands among them.

  * `engaged t names a`: the table constrains the name `a` against one of the names;
  * `expectedOrder_perm`: the order proposed has just the names that are engaged, each as often as
    it stands there;
  * `IsChain t names`: the links between the names put those that are engaged into one line;
  * `IsChain.pairwise_of_clean`, `IsChain.clean_of_pairwise`: names are clean when they stand in
    this line;
  * `expectedOrder_eq_iff_of_isChain`: so the order proposed is the line, for every shuffle.
-/
import AnnotationOrder.Proofs.Order.Picked
import AnnotationOrder.Proofs.Order.Rank
import AnnotationOrder.Proofs.Order.Scan

namespace AnnotationOrder.Order

open Rule Relation

variable {t : Table} {names ps qs : List String} {a b : String} {i j k : Nat}

/-! ## Names that take part -/

/-- The table constrains a name against one of a list. -/
def engaged (t : Table) (names : List String) (a : String) : Bool :=
  names.any fun b => (t.between a b).isSome

theorem engaged_iff :
    engaged t names a = true ↔ ∃ b ∈ names, (t.between a b).isSome = true := List.any_eq_true

/-- Where the table answers, one position precedes the other. -/
theorem precedes_or_of_isSome (hij : i < j) (ha : names[i]? = some a) (hb : names[j]? = some b)
    (h : (t.between a b).isSome = true) : Precedes t names i j ∨ Precedes t names j i := by
  rcases Table.isSome_between_iff.1 h with hk | hi
  · exact Or.inl ((precedes_iff_keeps hij).2 ⟨a, b, ha, hb, hk⟩)
  · exact Or.inr ((precedes_iff_inverts hij).2 ⟨a, b, ha, hb, hi⟩)

/-- Positions take part by their names. -/
theorem takesPart_iff_engaged (hk : names[k]? = some a) :
    TakesPart (Precedes t names) k ↔ engaged t names a = true := by
  rw [engaged_iff]
  constructor
  · rintro ⟨j, hj | hj⟩
    · obtain ⟨_, b, ha, hb, hab⟩ := hj.keeps
      cases hk.symm.trans ha
      exact ⟨b, List.mem_of_getElem? hb, Table.isSome_between_iff.2 (Or.inl hab)⟩
    · obtain ⟨b, _, hb, ha, hba⟩ := hj.keeps
      cases hk.symm.trans ha
      refine ⟨b, List.mem_of_getElem? hb, ?_⟩
      rw [Table.isSome_between_comm]
      exact Table.isSome_between_iff.2 (Or.inl hba)
  · rintro ⟨b, hb, h⟩
    obtain ⟨j, hj⟩ := List.getElem?_of_mem hb
    rcases Nat.lt_trichotomy k j with hkj | rfl | hjk
    · exact ⟨j, precedes_or_of_isSome hkj hk hj h⟩
    · cases hk.symm.trans hj
      rw [Table.between_self] at h
      cases h
    · rw [Table.isSome_between_comm] at h
      exact ⟨j, (precedes_or_of_isSome hjk hj hk h).symm⟩

theorem filterMap_getElem?_range {α : Type} (l : List α) :
    (List.range l.length).filterMap (l[·]?) = l := by
  induction l with
  | nil => rfl
  | cons a l ih =>
    rw [List.length_cons, List.range_succ_eq_map, List.filterMap_cons, List.filterMap_map]
    exact congrArg (a :: ·) ih

/-- The names at the positions that take part. -/
theorem filterMap_participants (t : Table) (names : List String) :
    (participants (precedences t names) names.length).filterMap (names[·]?) =
      names.filter (engaged t names) := by
  have hone : ∀ k (hk : k < names.length),
      participates (precedences t names) k = engaged t names names[k] := by
    intro k hk
    rw [Bool.eq_iff_iff, ← takesPart_iff_engaged (List.getElem?_eq_getElem hk),
      ← mem_participants_iff, participants, List.mem_filter, List.mem_range, and_iff_right hk]
  have hnames := congrArg (List.filter (engaged t names)) (filterMap_getElem?_range names)
  rw [participants, List.filterMap_filter, ← hnames, List.filter_filterMap]
  refine List.filterMap_congr fun k hk => ?_
  have hlt := List.mem_range.1 hk
  rw [hone k hlt, List.getElem?_eq_getElem hlt, Option.filter_some]

/-- The order proposed has the names that are engaged, each as often as it stands there. -/
theorem expectedOrder_perm (t : Table) (names : List String) :
    (expectedOrder t names).Perm (names.filter (engaged t names)) := by
  rw [← filterMap_participants]
  exact (settledPositions_perm t names).filterMap _

/-! ## Links -/

/-- The table asks for one name before another, and both are in a list. -/
structure Link (t : Table) (names : List String) (a b : String) : Prop where
  left : a ∈ names
  right : b ∈ names
  keeps : t.Keeps a b

/-- The links between names put those that are engaged into one line.  No name comes before itself, and
    of two different ones, one comes before the other. -/
structure IsChain (t : Table) (names : List String) : Prop where
  irrefl : ∀ a, ¬ TransGen (Link t names) a a
  total : ∀ a ∈ names, ∀ b ∈ names, engaged t names a = true → engaged t names b = true →
    a = b ∨ TransGen (Link t names) a b ∨ TransGen (Link t names) b a

theorem Link.engaged (h : Link t names a b) :
    Order.engaged t names a = true ∧ Order.engaged t names b = true := by
  have hab : (t.between a b).isSome = true := Table.isSome_between_iff.2 (Or.inl h.keeps)
  have hba := hab
  rw [Table.isSome_between_comm] at hba
  exact ⟨engaged_iff.2 ⟨b, h.right, hab⟩, engaged_iff.2 ⟨a, h.left, hba⟩⟩

/-- Shuffled names have the same links. -/
theorem link_eq_of_perm (hp : ps.Perm names) : Link t ps = Link t names := by
  funext a b
  refine propext ⟨fun h => ?_, fun h => ?_⟩
  · exact ⟨hp.mem_iff.1 h.left, hp.mem_iff.1 h.right, h.keeps⟩
  · exact ⟨hp.mem_iff.2 h.left, hp.mem_iff.2 h.right, h.keeps⟩

theorem engaged_eq_of_perm (hp : ps.Perm names) : engaged t ps = engaged t names := by
  funext a
  exact hp.any_eq

/-- Precedences among positions are links between their names. -/
theorem Precedes.link (h : Precedes t names i j) :
    Link t names (names.getD i "") (names.getD j "") := by
  obtain ⟨a, b, ha, hb, hk⟩ := h.keeps
  rw [List.getD_eq_getElem?_getD, List.getD_eq_getElem?_getD, ha, hb]
  exact ⟨List.mem_of_getElem? ha, List.mem_of_getElem? hb, hk⟩

/-- Links from each name of a line to the next one are enough. -/
theorem isChain_of_line {line : List String} (hirrefl : ∀ a, ¬ TransGen (Link t names) a a)
    (hline : line.IsChain (Link t names))
    (hall : ∀ a ∈ names, engaged t names a = true → a ∈ line) : IsChain t names where
  irrefl := hirrefl
  total a ha b hb hea heb := by
    have hpair : line.Pairwise (TransGen (Link t names)) :=
      (hline.imp fun _ _ => TransGen.single).pairwise
    obtain ⟨i, hi, rfl⟩ := List.getElem_of_mem (hall a ha hea)
    obtain ⟨j, hj, rfl⟩ := List.getElem_of_mem (hall b hb heb)
    rcases Nat.lt_trichotomy i j with hij | rfl | hji
    · exact Or.inr (Or.inl (List.pairwise_iff_getElem.1 hpair i j hi hj hij))
    · exact Or.inl rfl
    · exact Or.inr (Or.inr (List.pairwise_iff_getElem.1 hpair j i hj hi hji))

namespace IsChain

variable (h : IsChain t names)
include h

theorem acyclic (hp : ps.Perm names) (i : Nat) : ¬ TransGen (Precedes t ps) i i := by
  intro hi
  refine h.irrefl _ (hi.lift (ps.getD · "") fun j k hjk => ?_)
  rw [← link_eq_of_perm hp]
  exact hjk.link

theorem antisymm (hab : ReflTransGen (Link t names) a b) (hba : ReflTransGen (Link t names) b a) :
    a = b := by
  rcases reflTransGen_iff_eq_or_transGen.1 hab with rfl | hab
  · rfl
  · exact absurd (hab.trans_left hba) (h.irrefl a)

/-- In a chain the table answers in the same way whichever name is given first. -/
theorem inverts (hab : Link t names a b) : t.Inverts b a := by
  refine hab.keeps.inverts fun hba => h.irrefl a ?_
  exact .head hab (.single ⟨hab.right, hab.left, hba⟩)

/-- Where no names are inverted, each name stands behind all those that come before it. -/
theorem lt_of_transGen (hall : ∀ a ∈ names, engaged t names a = true → a ∈ qs)
    (hclean : qs.Pairwise fun a b => ¬ t.Inverts a b) (hab : TransGen (Link t names) a b)
    (hi : qs[i]? = some a) (hj : qs[j]? = some b) : i < j := by
  have hlink : ∀ {a b} {i j : Nat}, Link t names a b → qs[i]? = some a → qs[j]? = some b → i < j := by
    intro a b i j hab hi hj
    obtain ⟨hi', rfl⟩ := List.getElem?_eq_some_iff.1 hi
    obtain ⟨hj', rfl⟩ := List.getElem?_eq_some_iff.1 hj
    rcases Nat.lt_trichotomy i j with hij | rfl | hji
    · exact hij
    · exact absurd (.single hab) (h.irrefl _)
    · exact absurd (h.inverts hab) (List.pairwise_iff_getElem.1 hclean j i hj' hi' hji)
  induction hab generalizing j with
  | single hab => exact hlink hab hi hj
  | tail _ hbc ih =>
    obtain ⟨m, hm⟩ := List.getElem?_of_mem (hall _ hbc.left hbc.engaged.1)
    exact (ih hm).trans (hlink hbc hm hj)

theorem pairwise_of_clean (hall : ∀ a ∈ names, engaged t names a = true → a ∈ qs)
    (hmem : ∀ a ∈ qs, a ∈ names) (hclean : qs.Pairwise fun a b => ¬ t.Inverts a b) :
    (qs.filter (engaged t names)).Pairwise (ReflTransGen (Link t names)) := by
  rw [List.pairwise_filter, List.pairwise_iff_getElem]
  intro i j hi hj hij hei hej
  rcases h.total _ (hmem _ (List.getElem_mem hi)) _ (hmem _ (List.getElem_mem hj)) hei hej with
    heq | hab | hba
  · rw [heq]
  · exact hab.to_reflTransGen
  · have := h.lt_of_transGen hall hclean hba (List.getElem?_eq_getElem hj)
      (List.getElem?_eq_getElem hi)
    omega

theorem clean_of_pairwise (hmem : ∀ a ∈ qs, a ∈ names)
    (hs : (qs.filter (engaged t names)).Pairwise (ReflTransGen (Link t names))) :
    qs.Pairwise fun a b => ¬ t.Inverts a b := by
  rw [List.pairwise_filter] at hs
  refine hs.imp_of_mem fun {a b} ha hb hab hi => ?_
  have hba : Link t names b a := ⟨hmem b hb, hmem a ha, hi.keeps⟩
  exact h.irrefl b (.head' hba (hab hba.engaged.2 hba.engaged.1))

end IsChain

/-! ## The order proposed -/

/-- **A chain is proposed as it is.**  When the links put the names that take part into one line, the
    order proposed is these names in this line, each as often as it is there, for every shuffle of
    the names; and a shuffle is clean when these names stand in this line. -/
theorem expectedOrder_eq_iff_of_isChain (h : IsChain t names) (hp : ps.Perm names) :
    (∀ l, expectedOrder t ps = l ↔
      l.Perm (names.filter (engaged t names)) ∧ l.Pairwise (ReflTransGen (Link t names))) ∧
    ∀ reportAll, check t reportAll (atPositions ps) = [] ↔
      (ps.filter (engaged t names)).Pairwise (ReflTransGen (Link t names)) := by
  have hperm : (expectedOrder t ps).Perm (names.filter (engaged t names)) := by
    refine (expectedOrder_perm t ps).trans ?_
    rw [engaged_eq_of_perm hp]
    exact hp.filter _
  have hmem : ∀ a ∈ expectedOrder t ps, a ∈ names ∧ engaged t names a = true :=
    fun a ha => List.mem_filter.1 (hperm.mem_iff.1 ha)
  have hsorted : (expectedOrder t ps).Pairwise (ReflTransGen (Link t names)) := by
    have hclean := check_expectedOrder_of_acyclic (h.acyclic hp)
    rw [check_true, checkAll_eq_nil_iff, map_name_atPositions] at hclean
    have hfilter : (expectedOrder t ps).filter (engaged t names) = expectedOrder t ps :=
      List.filter_eq_self.2 fun a ha => (hmem a ha).2
    rw [← hfilter]
    refine h.pairwise_of_clean (fun a ha he => ?_) (fun a ha => (hmem a ha).1) hclean
    exact hperm.mem_iff.2 (List.mem_filter.2 ⟨ha, he⟩)
  refine ⟨fun l => ⟨?_, fun ⟨hl, hs⟩ => ?_⟩, fun reportAll => ?_⟩
  · rintro rfl
    exact ⟨hperm, hsorted⟩
  · exact List.Perm.eq_of_pairwise (fun _ _ _ _ => h.antisymm) hsorted hs (hperm.trans hl.symm)
  · rw [check_eq_nil_iff, checkAll_eq_nil_iff, map_name_atPositions]
    exact ⟨h.pairwise_of_clean (fun a ha _ => hp.mem_iff.2 ha) fun a ha => hp.mem_iff.1 ha,
      h.clean_of_pairwise fun a ha => hp.mem_iff.1 ha⟩

/-- The names of a line of built-in rules, with one name twice and another one among them. -/
def suppressed : List String :=
  ["Suppress", "Entity", "SuppressLint", "SuppressWarnings", "SuppressLint"]

theorem link_suppress : Link .builtin suppressed "Suppress" "SuppressLint" := by
  refine ⟨by decide, by decide, ⟨"Suppress", "SuppressLint", Builtin.constraints[9]⟩, ?_, rfl⟩
  decide +kernel

theorem link_suppressLint : Link .builtin suppressed "SuppressLint" "SuppressWarnings" := by
  refine ⟨by decide, by decide, ⟨"SuppressLint", "SuppressWarnings", Builtin.constraints[10]⟩,
    ?_, rfl⟩
  decide +kernel

theorem isChain_suppressed : IsChain .builtin suppressed := by
  have hall : ∀ a ∈ suppressed, engaged .builtin suppressed a = true →
      a ∈ ["Suppress", "SuppressLint", "SuppressWarnings"] := by decide +kernel
  refine isChain_of_line (fun a ha => ?_) ?_ hall
  · exact acyclic_keeps_of_isTiered builtin_isTiered a (ha.lift id fun _ _ h => h.keeps)
  · exact .cons_cons link_suppress (.cons_cons link_suppressLint (.singleton _))

theorem expectedOrder_eq_iff_of_isChain_suppressed :
    IsChain .builtin suppressed ∧ suppressed.reverse.Perm suppressed ∧
      Table.builtin.between "Suppress" "SuppressWarnings" = none ∧
      expectedOrder .builtin suppressed.reverse =
        ["Suppress", "SuppressLint", "SuppressLint", "SuppressWarnings"] ∧
      ¬ (suppressed.reverse.filter (engaged .builtin suppressed)).Pairwise
        (ReflTransGen (Link .builtin suppressed)) := by
  have hperm := suppressed.reverse_perm
  have h := expectedOrder_eq_iff_of_isChain isChain_suppressed hperm
  have hline : List.IsChain (ReflTransGen (Link .builtin suppressed))
      ["Suppress", "SuppressLint", "SuppressLint", "SuppressWarnings"] :=
    .cons_cons (.single link_suppress)
      (.cons_cons .refl (.cons_cons (.single link_suppressLint) (.singleton _)))
  refine ⟨isChain_suppressed, hperm, by decide +kernel, ?_, ?_⟩
  · exact (h.1 _).2 ⟨by decide +kernel, hline.pairwise⟩
  · rw [← h.2 false, ← List.isEmpty_iff]
    decide +kernel

end AnnotationOrder.Order
