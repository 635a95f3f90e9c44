/-
  The queue and the proposed order.

  The counters of a queue say how many of the positions that remain each of them
  waits for.  While a position is being placed, some of its successors are still
  to be released, and their counters are ahead by as much.

  * `Tracks edges remaining pending q`: the queue `q` keeps track of the positions that
    remain, with `Tracks.release` for one release and `Tracks.place` for a placed position;
  * `settles_drain`: running the queue empty settles the positions that remain;
  * `settledPositions_eq_least_append_tangled`: so the proposed order is the least order
    of what no contradiction reaches, with the rest behind it.
-/
import AnnotationOrder.Order.Queue
import AnnotationOrder.Proofs.Order.Release

namespace AnnotationOrder.Order

open Rule Relation

variable {edges : List (Nat × Nat)} {remaining pending : List Nat} {q : Queue} {i j : Nat}

/-! ## Counters -/

/-- How many edges lead to a position from positions that remain. -/
def waitsFor (edges : List (Nat × Nat)) (remaining : List Nat) (j : Nat) : Nat :=
  edges.countP fun e => e.2 == j && remaining.contains e.1

theorem waitsFor_eq_zero_iff : waitsFor edges remaining j = 0 ↔ ∀ a ∈ remaining, (a, j) ∉ edges := by
  simp only [waitsFor, List.countP_eq_zero, Bool.and_eq_true, beq_iff_eq, List.contains_eq_mem,
    decide_eq_true_eq, not_and, Prod.forall]
  constructor
  · intro h a ha he
    exact h a j he rfl ha
  · rintro h a b he rfl ha
    exact h a ha he

/-- Without a position, its successors have less to wait for. -/
theorem waitsFor_eq_erase_add_count (hnd : remaining.Nodup) (hi : i ∈ remaining) :
    waitsFor edges remaining j =
      waitsFor edges (remaining.erase i) j + (successors edges i).count j := by
  have hself : i ∉ remaining.erase i := hnd.not_mem_erase
  have hother : ∀ a, a ≠ i → (a ∈ remaining.erase i ↔ a ∈ remaining) :=
    fun a ha => List.mem_erase_of_ne ha
  simp only [waitsFor, successors, List.contains_eq_mem]
  induction edges with
  | nil => rfl
  | cons e edges ih =>
    obtain ⟨a, b⟩ := e
    simp only [List.countP_cons, List.filter_cons]
    by_cases ha : a = i
    · subst ha
      simp only [hi, hself, decide_true, decide_false, Bool.and_true, Bool.and_false, beq_self_eq_true,
        if_true, List.map_cons, List.count_cons, Bool.false_eq_true, if_false]
      omega
    · simp only [hother a ha, beq_eq_false_iff_ne.2 ha, Bool.false_eq_true, if_false]
      omega

/-! ## Queues -/

/-- A queue keeps track of the positions that remain, but for positions that are still to be
    released.  What comes after a position that remains still remains. -/
structure Tracks (edges : List (Nat × Nat)) (remaining pending : List Nat) (q : Queue) : Prop where
  nodup : remaining.Nodup
  closed : ∀ a b, (a, b) ∈ edges → a ∈ remaining → b ∈ remaining
  waiting : ∀ j ∈ remaining,
    q.waiting[j]? = some ((waitsFor edges remaining j + pending.count j : Nat) : Int)
  mem_ready : ∀ j, j ∈ q.ready ↔ j ∈ remaining ∧ q.waiting[j]? = some 0
  nodup_ready : q.ready.Nodup

namespace Tracks

theorem release (h : Tracks edges remaining (j :: pending) q) (hj : j ∈ remaining) :
    Tracks edges remaining pending (q.release j) := by
  have hself : (q.waiting.modify j (· - 1))[j]? =
      some ((waitsFor edges remaining j + pending.count j : Nat) : Int) := by
    rw [List.getElem?_modify_eq, h.waiting j hj, List.count_cons_self]
    simp only [Option.map_eq_map, Option.map_some, Option.some.injEq]
    omega
  have hother : ∀ k, k ≠ j → (q.waiting.modify j (· - 1))[k]? = q.waiting[k]? :=
    fun k hk => List.getElem?_modify_ne _ _ hk.symm
  have hnew : j ∉ q.ready := by
    intro hr
    have hzero := ((h.mem_ready j).1 hr).2
    rw [h.waiting j hj, List.count_cons_self, Option.some.injEq] at hzero
    omega
  refine ⟨h.nodup, h.closed, ?_, ?_, ?_⟩
  · intro k hk
    by_cases hkj : k = j
    · subst hkj
      exact hself
    · rw [Queue.release, hother k hkj, h.waiting k hk, List.count_cons_of_ne (Ne.symm hkj)]
  · intro k
    by_cases hkj : k = j
    · subst hkj
      simp only [Queue.release]
      split <;> simp_all
    · rw [Queue.release, hother k hkj, ← h.mem_ready k]
      simp only
      split <;> simp [hkj]
  · simp only [Queue.release]
    split
    · exact List.nodup_cons.2 ⟨hnew, h.nodup_ready⟩
    · exact h.nodup_ready

theorem foldl_release (h : Tracks edges remaining pending q) (hp : ∀ j ∈ pending, j ∈ remaining) :
    Tracks edges remaining [] (pending.foldl Queue.release q) := by
  induction pending generalizing q with
  | nil => exact h
  | cons j pending ih =>
    exact ih (h.release (hp j List.mem_cons_self)) fun k hk => hp k (List.mem_cons_of_mem j hk)

/-- A position that is ready waits for none of those that remain. -/
theorem mem_ready_iff (h : Tracks edges remaining [] q) :
    i ∈ q.ready ↔ i ∈ remaining ∧ ∀ a ∈ remaining, (a, i) ∉ edges := by
  rw [h.mem_ready, ← waitsFor_eq_zero_iff]
  refine and_congr_right fun hi => ?_
  rw [h.waiting i hi, List.count_nil, Nat.add_zero, Option.some.injEq, Int.natCast_eq_zero]

/-- Once a position is placed, the queue keeps track of the others. -/
theorem place (h : Tracks edges remaining [] q) (hi : i ∈ q.ready) :
    Tracks edges (remaining.erase i) [] (q.place edges i) := by
  obtain ⟨him, hfree⟩ := h.mem_ready_iff.1 hi
  have hclosed : ∀ a b, (a, b) ∈ edges → a ∈ remaining → b ∈ remaining.erase i := by
    intro a b he ha
    rw [h.nodup.mem_erase_iff]
    refine ⟨?_, h.closed a b he ha⟩
    rintro rfl
    exact hfree a ha he
  refine foldl_release ⟨h.nodup.erase i, ?_, ?_, ?_, h.nodup_ready.erase i⟩ ?_
  · exact fun a b he ha => hclosed a b he (List.mem_of_mem_erase ha)
  · intro j hj
    rw [h.waiting j (List.mem_of_mem_erase hj), waitsFor_eq_erase_add_count h.nodup him]
    rfl
  · intro j
    rw [h.nodup_ready.mem_erase_iff, h.nodup.mem_erase_iff, h.mem_ready j, and_assoc]
  · intro j hj
    simp only [successors, List.mem_map, List.mem_filter, beq_iff_eq, Prod.exists] at hj
    obtain ⟨a, b, ⟨he, rfl⟩, rfl⟩ := hj
    exact hclosed a b he him

end Tracks

/-! ## Running the queue empty -/

/-- What is placed comes in the order of the removal of free positions. -/
theorem settles_drain (hirr : ∀ i, (i, i) ∉ edges) (h : Tracks edges remaining [] q) :
    Settles (fun i j => (i, j) ∈ edges) remaining (drain edges q)
      (remaining.filter (!(drain edges q).contains ·)) := by
  fun_induction drain edges q generalizing remaining with
  | case1 q hmin =>
    have hready : q.ready = [] := List.min?_eq_none_iff.1 hmin
    have hall : remaining.filter (!([] : List Nat).contains ·) = remaining := by simp
    rw [hall]
    refine .stop fun j hj => ?_
    by_contra hnone
    have hj' : j ∈ q.ready := h.mem_ready_iff.2 ⟨hj, fun a ha he => hnone ⟨a, ha, he⟩⟩
    rw [hready] at hj'
    exact absurd hj' List.not_mem_nil
  | case2 q i hmin ih =>
    obtain ⟨hi, hle⟩ := List.min?_eq_some_iff.1 hmin
    obtain ⟨him, hfree⟩ := h.mem_ready_iff.1 hi
    have hrest : remaining.filter (!(i :: drain edges (q.place edges i)).contains ·) =
        (remaining.erase i).filter (!(drain edges (q.place edges i)).contains ·) := by
      rw [h.nodup.erase_eq_filter, List.filter_filter]
      refine List.filter_congr fun a _ => ?_
      rw [List.contains_cons, Bool.not_or, Bool.and_comm]
      rfl
    rw [hrest]
    refine .take hirr him hfree ?_ (ih (h.place hi))
    exact fun j hj hf => hle j (h.mem_ready_iff.2 ⟨hj, hf⟩)

section
variable {n : Nat} (hlt : ∀ a b, (a, b) ∈ edges → a < n ∧ b < n)
include hlt

theorem mem_participants_of_mem {a b : Nat} (h : (a, b) ∈ edges) :
    a ∈ participants edges n ∧ b ∈ participants edges n := by
  simp only [participants, participates, List.mem_filter, List.mem_range, List.any_eq_true,
    Bool.or_eq_true, beq_iff_eq]
  exact ⟨⟨(hlt a b h).1, (a, b), h, Or.inl rfl⟩, ⟨(hlt a b h).2, (a, b), h, Or.inr rfl⟩⟩

/-- At the start all positions that take part remain. -/
theorem tracks_start : Tracks edges (participants edges n) [] (.start edges n) := by
  have hdegree : ∀ j, waitsFor edges (participants edges n) j = inDegree edges j := by
    intro j
    rw [waitsFor, inDegree]
    refine List.countP_congr fun e he => ?_
    simp [(mem_participants_of_mem hlt he).1]
  have hwaiting : ∀ j ∈ participants edges n, (Queue.start edges n).waiting[j]? =
      some ((inDegree edges j : Nat) : Int) := by
    intro j hj
    have hjn := List.mem_range.1 (List.mem_of_mem_filter hj)
    simp [Queue.start, hjn]
  refine ⟨nodup_participants edges n, fun a b he _ => (mem_participants_of_mem hlt he).2,
    fun j hj => ?_, fun j => ?_, (nodup_participants edges n).filter _⟩
  · rw [hwaiting j hj, hdegree, List.count_nil, Nat.add_zero]
  · rw [Queue.start, List.mem_filter]
    refine and_congr_right fun hj => ?_
    have := hwaiting j hj
    rw [Queue.start] at this
    rw [this]
    simp

end

/-! ## The proposed order -/

section
variable (t : Table) (names : List String)

/-- The proposed order settles the positions that take part, by their precedences. -/
theorem exists_settles : ∃ released stuck, settledPositions t names = released ++ stuck ∧
    Settles (Precedes t names) (participants (precedences t names) names.length) released stuck := by
  have hlt : ∀ a b, (a, b) ∈ precedences t names → a < names.length ∧ b < names.length :=
    fun a b h => (mem_precedences_iff.1 h).lt_length
  have h := settles_drain (fun i hi => (mem_precedences_iff.1 hi).ne rfl) (tracks_start hlt)
  simp only [mem_precedences_iff] at h
  exact ⟨_, _, rfl, h⟩

theorem mem_participants_of_precedes (i j : Nat) (h : Precedes t names i j) :
    i ∈ participants (precedences t names) names.length :=
  mem_participants_iff.2 ⟨j, Or.inl h⟩

theorem settledPositions_perm :
    (settledPositions t names).Perm (participants (precedences t names) names.length) := by
  obtain ⟨released, stuck, heq, hset⟩ := exists_settles t names
  rw [heq]
  exact hset.perm

theorem mem_settledPositions_iff {i : Nat} :
    i ∈ settledPositions t names ↔ TakesPart (Precedes t names) i := by
  rw [(settledPositions_perm t names).mem_iff, mem_participants_iff]

theorem lt_length_of_mem_settledPositions {i : Nat} (h : i ∈ settledPositions t names) :
    i < names.length := by
  obtain ⟨j, h | h⟩ := (mem_settledPositions_iff t names).1 h
  · exact h.lt_length.1
  · exact h.lt_length.2

/-- Every settled position has a name in the proposed order. -/
theorem map_some_expectedOrder :
    (expectedOrder t names).map some = (settledPositions t names).map (names[·]?) := by
  have hlt : ∀ i ∈ settledPositions t names, i < names.length :=
    fun i hi => lt_length_of_mem_settledPositions t names hi
  rw [expectedOrder]
  generalize settledPositions t names = l at hlt
  induction l with
  | nil => rfl
  | cons i l ih =>
    have hi := hlt i List.mem_cons_self
    simp only [List.getElem?_eq_getElem hi, List.filterMap_cons, List.map_cons]
    rw [ih fun j hj => hlt j (List.mem_cons_of_mem _ hj)]

/-- **The proposed order.**  Exactly the positions that take part are in it, each once.  First come
    those that no contradiction reaches, in the least order that respects every precedence, then
    the others as they stand. -/
theorem settledPositions_eq_least_append_tangled :
    (settledPositions t names).Nodup ∧
      (∀ i, i ∈ settledPositions t names ↔ TakesPart (Precedes t names) i) ∧
      (expectedOrder t names).map some = (settledPositions t names).map (names[·]?) ∧
      ∃ released tangled, settledPositions t names = released ++ tangled ∧
        IsLeastOrder (Precedes t names)
          (fun i => TakesPart (Precedes t names) i ∧ ¬ Tangled (Precedes t names) i) released ∧
        tangled.Pairwise (· < ·) ∧
        ∀ i, i ∈ tangled ↔ TakesPart (Precedes t names) i ∧ Tangled (Precedes t names) i := by
  obtain ⟨released, stuck, heq, hset⟩ := exists_settles t names
  have hirr : ∀ i, ¬ Precedes t names i i := fun i h => h.ne rfl
  have hclosed := mem_participants_of_precedes t names
  have hnd := nodup_participants (precedences t names) names.length
  refine ⟨(settledPositions_perm t names).nodup_iff.2 hnd, fun i => mem_settledPositions_iff t names,
    map_some_expectedOrder t names, released, stuck, heq, ?_, ?_, fun i => ?_⟩
  · simpa only [mem_participants_iff] using hset.isLeastOrder hirr hclosed hnd
  · exact (pairwise_lt_participants _ _).sublist hset.sublist
  · rw [hset.mem_stuck_iff hirr hclosed, mem_participants_iff]

end

end AnnotationOrder.Order
