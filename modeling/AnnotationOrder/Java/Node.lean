/-
  Syntax trees of Java sources.

  A node has a type, and may have a name in the node that it belongs to, its field.
  It stands between two places of the source; its text is what is between them.

  * `Node.child?`: the first child in a field;
  * `Node.text?`: the text of a node, if it has any;
  * `Node.size`: the number of nodes.
-/
import AnnotationOrder.Java.Position

namespace AnnotationOrder.Java

open Text

/-- A node of a syntax tree, with the nodes below it. -/
structure Node where
  type : String
  field : Option String := none
  start : Position
  stop : Position
  children : List Node
  deriving Repr, Inhabited

namespace Node

/-- The first child in a field. -/
def child? (n : Node) (field : String) : Option Node := n.children.find? (·.field == some field)

/-- The bytes of a node, among those of the source. -/
def bytes (source : List UInt8) (n : Node) : List UInt8 :=
  (source.take n.stop.offset).drop n.start.offset

/-- The text of a node; one without bytes has none. -/
def text? (source : List UInt8) (n : Node) : Except Utf8.DecodeError (Option String) :=
  let bytes := n.bytes source
  if bytes.isEmpty then .ok none else (Utf8.decode bytes).map some

mutual

/-- The number of nodes of a tree. -/
def size : Node → Nat
  | ⟨_, _, _, _, children⟩ => sizes children + 1

/-- The number of nodes of some trees. -/
def sizes : List Node → Nat
  | [] => 0
  | n :: ns => n.size + sizes ns

end

theorem size_eq (n : Node) : n.size = sizes n.children + 1 := by
  cases n
  rw [size]

theorem size_le_sizes {n : Node} {ns : List Node} (h : n ∈ ns) : n.size ≤ sizes ns := by
  induction ns with
  | nil => cases h
  | cons m ns ih =>
    rw [sizes]
    rcases List.mem_cons.1 h with rfl | h
    · exact Nat.le_add_right _ _
    · exact Nat.le_trans (ih h) (Nat.le_add_left _ _)

/-- A child has fewer nodes. -/
theorem size_lt_of_mem {n c : Node} (h : c ∈ n.children) : c.size < n.size := by
  rw [size_eq n]
  exact Nat.lt_succ_of_le (size_le_sizes h)

theorem mem_of_child? {n c : Node} {field : String} (h : n.child? field = some c) :
    c ∈ n.children :=
  List.mem_of_find?_eq_some h

end Node

end AnnotationOrder.Java
