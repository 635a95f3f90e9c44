/-
  The order that the precedences among the names of one declaration ask for.

  A queue counts for each position the predecessors that are still to be placed,
  and holds the positions that wait for none.  The least of these is placed next,
  which may make others ready.  When the precedences contradict each other, the
  queue runs empty before all positions are placed, and the others are kept as
  they stand.

  * `drain`: the positions in the order in which they are placed;
  * `Queue.size_release_le`: taking a position off the queue makes it smaller, whatever
    becomes ready;
  * `expectedOrder`: the names at the settled positions.
-/
import AnnotationOrder.Order.Graph

namespace AnnotationOrder.Order

open Rule

/-! ## Queues -/

/-- What is left to place. -/
structure Queue where
  /-- For each position the number of predecessors that it waits for. -/
  waiting : List Int
  /-- The positions that wait for none. -/
  ready : List Nat

namespace Queue

/-- The queue before anything is placed. -/
def start (edges : List (Nat × Nat)) (n : Nat) : Queue where
  waiting := (List.range n).map fun j => (inDegree edges j : Int)
  ready := (participants edges n).filter (inDegree edges · == 0)

/-- A position waits for one predecessor less.  Once it waits for none, it is ready. -/
def release (q : Queue) (j : Nat) : Queue :=
  let waiting := q.waiting.modify j (· - 1)
  { waiting, ready := if waiting[j]? = some 0 then j :: q.ready else q.ready }

/-- A ready position is placed: its successors are released. -/
def place (edges : List (Nat × Nat)) (q : Queue) (i : Nat) : Queue :=
  (successors edges i).foldl release { q with ready := q.ready.erase i }

/-- All that positions wait for. -/
def total (ns : List Int) : Nat := ns.foldr (fun n k => n.toNat + k) 0

/-- How often positions can be placed at most. -/
def size (q : Queue) : Nat := total q.waiting + q.ready.length

theorem total_cons (n : Int) (ns : List Int) : total (n :: ns) = n.toNat + total ns := rfl

theorem total_modify_le (ns : List Int) (j : Nat) : total (ns.modify j (· - 1)) ≤ total ns := by
  induction ns generalizing j with
  | nil => simp only [List.modify_nil, Nat.le_refl]
  | cons n ns ih =>
    cases j with
    | zero =>
      rw [List.modify_zero_cons, total_cons, total_cons]
      omega
    | succ j =>
      rw [List.modify_succ_cons, total_cons, total_cons]
      exact Nat.add_le_add_left (ih j) _

/-- A counter that comes down to zero makes up for the position that becomes ready. -/
theorem total_modify_lt {ns : List Int} {j : Nat} (h : (ns.modify j (· - 1))[j]? = some 0) :
    total (ns.modify j (· - 1)) < total ns := by
  induction ns generalizing j with
  | nil => simp at h
  | cons n ns ih =>
    cases j with
    | zero =>
      rw [List.modify_zero_cons, List.getElem?_cons_zero, Option.some.injEq] at h
      rw [List.modify_zero_cons, total_cons, total_cons]
      omega
    | succ j =>
      rw [List.modify_succ_cons, List.getElem?_cons_succ] at h
      rw [List.modify_succ_cons, total_cons, total_cons]
      exact Nat.add_lt_add_left (ih h) _

theorem size_release_le (q : Queue) (j : Nat) : (q.release j).size ≤ q.size := by
  simp only [size, release]
  split
  · have := total_modify_lt ‹_›
    rw [List.length_cons]
    omega
  · have := total_modify_le q.waiting j
    omega

theorem size_foldl_release_le (js : List Nat) (q : Queue) : (js.foldl release q).size ≤ q.size := by
  induction js generalizing q with
  | nil => exact Nat.le_refl _
  | cons j js ih => exact Nat.le_trans (ih _) (size_release_le q j)

theorem size_place_lt (edges : List (Nat × Nat)) {q : Queue} {i : Nat} (h : i ∈ q.ready) :
    (q.place edges i).size < q.size := by
  refine Nat.lt_of_le_of_lt (size_foldl_release_le _ _) ?_
  have := List.length_pos_of_mem h
  simp only [size, List.length_erase_of_mem h]
  omega

end Queue

/-- The positions in the order in which they are placed: the least one that is ready comes next. -/
def drain (edges : List (Nat × Nat)) (q : Queue) : List Nat :=
  match _h : q.ready.min? with
  | none => []
  | some i => i :: drain edges (q.place edges i)
termination_by q.size
decreasing_by exact Queue.size_place_lt edges (List.min?_mem ‹_›)

/-! ## The order -/

/-- The positions of the proposed order: those that are placed, and then the others that take part
    as they stand. -/
def settledPositions (t : Table) (names : List String) : List Nat :=
  let edges := precedences t names
  let placed := drain edges (.start edges names.length)
  placed ++ (participants edges names.length).filter (!placed.contains ·)

/-- The proposed order of the names that the table constrains. -/
def expectedOrder (t : Table) (names : List String) : List String :=
  (settledPositions t names).filterMap (names[·]?)

end AnnotationOrder.Order
