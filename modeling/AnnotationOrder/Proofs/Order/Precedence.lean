/-
  The precedences among positions, as a relation.

  `precedences` lists the edges of the position graph.  Here the graph is a
  relation, and a position can be caught in a contradiction: it is on a cycle, or
  it has to come after one.

  * `Precedes t names i j`: the table asks for the name at `i` before the name at `j`,
    with `mem_precedences_iff`;
  * `precedes_of_inverts`, `inverts_of_precedes`: precedences against the order of the
    positions are the inversions that the table reports;
  * `mem_participants_iff`: the positions that take part are those with a precedence;
  * `Tangled r i`: the position `i` is on a cycle of `r` or is reached from one.
-/
import Mathlib.Logic.Relation
import AnnotationOrder.Order.Graph
import AnnotationOrder.Proofs.Rule.Answer

namespace AnnotationOrder.Order

open Rule Relation

variable {t : Table} {names : List String}

/-! ## The relation -/

/-- The name at one position must come before the name at another: the table is asked about the two
    in the order of their positions, and the position whose name it puts first comes first. -/
inductive Precedes (t : Table) (names : List String) : Nat → Nat → Prop
  | forward {i j a b o} : i < j → names[i]? = some a → names[j]? = some b →
      t.between a b = some o → o.first = a → Precedes t names i j
  | backward {i j a b o} : i < j → names[i]? = some a → names[j]? = some b →
      t.between a b = some o → o.first ≠ a → Precedes t names j i

theorem edge_eq_some_iff {i j : Nat} {e : Nat × Nat} :
    edge t names i j = some e ↔ ∃ a b o, names[i]? = some a ∧ names[j]? = some b ∧
      t.between a b = some o ∧ e = if o.first = a then (i, j) else (j, i) := by
  simp only [edge, bind, Option.bind_eq_some_iff]
  constructor
  · rintro ⟨a, ha, b, hb, o, ho, h⟩
    refine ⟨a, b, o, ha, hb, ho, ?_⟩
    split_ifs at h ⊢ <;> simpa using h.symm
  · rintro ⟨a, b, o, ha, hb, ho, rfl⟩
    refine ⟨a, ha, b, hb, o, ho, ?_⟩
    split_ifs <;> rfl

/-- The edges of the position graph are the precedences. -/
theorem mem_precedences_iff {i j : Nat} : (i, j) ∈ precedences t names ↔ Precedes t names i j := by
  rw [mem_precedences]
  constructor
  · rintro ⟨k, l, hkl, -, h⟩
    obtain ⟨a, b, o, ha, hb, ho, he⟩ := edge_eq_some_iff.1 h
    split_ifs at he with hf
    · obtain ⟨rfl, rfl⟩ := Prod.mk.inj he
      exact .forward hkl ha hb ho hf
    · obtain ⟨rfl, rfl⟩ := Prod.mk.inj he
      exact .backward hkl ha hb ho hf
  · intro h
    cases h with
    | @forward _ _ a b o hij ha hb ho hf =>
      have hj := (List.getElem?_eq_some_iff.1 hb).1
      exact ⟨i, j, hij, hj, edge_eq_some_iff.2 ⟨a, b, o, ha, hb, ho, by simp [hf]⟩⟩
    | @backward _ _ a b o hji ha hb ho hf =>
      have hi := (List.getElem?_eq_some_iff.1 hb).1
      exact ⟨j, i, hji, hi, edge_eq_some_iff.2 ⟨a, b, o, ha, hb, ho, by simp [hf]⟩⟩

theorem Precedes.ne {i j : Nat} (h : Precedes t names i j) : i ≠ j := by
  cases h with
  | forward hij => exact Nat.ne_of_lt hij
  | backward hij => exact Nat.ne_of_gt hij

theorem Precedes.lt_length {i j : Nat} (h : Precedes t names i j) :
    i < names.length ∧ j < names.length := by
  cases h with
  | forward _ ha hb => exact ⟨(List.getElem?_eq_some_iff.1 ha).1, (List.getElem?_eq_some_iff.1 hb).1⟩
  | backward _ ha hb => exact ⟨(List.getElem?_eq_some_iff.1 hb).1, (List.getElem?_eq_some_iff.1 ha).1⟩

/-! ## Precedences and inversions -/

/-- Whichever way round the table is asked: where it inverts two names, the second position
    precedes the first. -/
theorem precedes_of_inverts {i j : Nat} {a b : String} (ha : names[i]? = some a)
    (hb : names[j]? = some b) (h : t.Inverts a b) : Precedes t names j i := by
  obtain ⟨o, ho, hf⟩ := h
  have hne := Table.ne_of_between ho
  rcases Nat.lt_trichotomy i j with hij | rfl | hij
  · exact .backward hij ha hb ho (by rw [hf]; exact hne.symm)
  · rw [ha] at hb
    exact absurd (Option.some.inj hb) hne
  · obtain ⟨o', ho', hf'⟩ := Table.Inverts.keeps ⟨o, ho, hf⟩
    exact .forward hij hb ha ho' hf'

/-- A precedence against the order of the positions is an inversion. -/
theorem inverts_of_precedes {i j : Nat} (hij : i < j) (h : Precedes t names j i) :
    ∃ a b, names[i]? = some a ∧ names[j]? = some b ∧ t.Inverts a b := by
  cases h with
  | forward hji => omega
  | @backward _ _ a b o _ ha hb ho hf =>
    exact ⟨a, b, ha, hb, o, ho, (Table.first_of_between ho).resolve_left hf⟩

/-- The name at a position that precedes another is kept in front of the other's name. -/
theorem Precedes.keeps {i j : Nat} (h : Precedes t names i j) :
    ∃ a b, names[i]? = some a ∧ names[j]? = some b ∧ t.Keeps a b := by
  cases h with
  | @forward _ _ a b o _ ha hb ho hf => exact ⟨a, b, ha, hb, o, ho, hf⟩
  | @backward _ _ a b o _ ha hb ho hf =>
    have hi : t.Inverts a b := ⟨o, ho, (Table.first_of_between ho).resolve_left hf⟩
    exact ⟨b, a, hb, ha, hi.keeps⟩

/-! ## Positions that take part -/

/-- A position takes part in a relation when it has a predecessor or a successor. -/
def TakesPart (r : Nat → Nat → Prop) (i : Nat) : Prop := ∃ j, r i j ∨ r j i

theorem mem_participants_iff {i : Nat} :
    i ∈ participants (precedences t names) names.length ↔ TakesPart (Precedes t names) i := by
  simp only [participants, participates, List.mem_filter, List.mem_range, List.any_eq_true,
    Bool.or_eq_true, beq_iff_eq, Prod.exists, TakesPart]
  constructor
  · rintro ⟨-, j, k, h, rfl | rfl⟩
    · exact ⟨k, Or.inl (mem_precedences_iff.1 h)⟩
    · exact ⟨j, Or.inr (mem_precedences_iff.1 h)⟩
  · rintro ⟨j, h | h⟩
    · exact ⟨h.lt_length.1, i, j, mem_precedences_iff.2 h, Or.inl rfl⟩
    · exact ⟨h.lt_length.2, j, i, mem_precedences_iff.2 h, Or.inr rfl⟩

theorem pairwise_lt_participants (edges : List (Nat × Nat)) (n : Nat) :
    (participants edges n).Pairwise (· < ·) :=
  List.Pairwise.sublist List.filter_sublist List.pairwise_lt_range

theorem nodup_participants (edges : List (Nat × Nat)) (n : Nat) : (participants edges n).Nodup :=
  (pairwise_lt_participants edges n).imp Nat.ne_of_lt

/-! ## Contradictions -/

/-- A position that is on a cycle, or that has to come after one. -/
def Tangled (r : Nat → Nat → Prop) (i : Nat) : Prop := ∃ c, TransGen r c c ∧ ReflTransGen r c i

variable {r : Nat → Nat → Prop}

theorem Tangled.step {i j : Nat} (h : Tangled r i) (hij : r i j) : Tangled r j := by
  obtain ⟨c, hc, hci⟩ := h
  exact ⟨c, hc, hci.tail hij⟩

theorem Tangled.of_cycle {i : Nat} (h : TransGen r i i) : Tangled r i := ⟨i, h, .refl⟩

theorem not_tangled_of_acyclic (h : ∀ i, ¬ TransGen r i i) (i : Nat) : ¬ Tangled r i :=
  fun ⟨c, hc, _⟩ => h c hc

end AnnotationOrder.Order
