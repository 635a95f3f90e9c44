/-
  The annotated declarations of a syntax tree.

  The nodes of a tree are gone through with a stack.  The annotations among the
  modifiers of a node make it a declaration; each is named by the last part of the
  name that it is written with.

  * `Node.annotationName?`: the node that names an annotation;
  * `annotationsOf`, `declarationName`: what is read off modifiers and off their owner;
  * `declarationAt`: the declaration whose modifiers are at a node;
  * `scanFrom`: the declarations that are found with a stack of nodes;
  * `scanSource`: the declarations of a source, for a parser of the language.
-/
import AnnotationOrder.Java.Declaration
import AnnotationOrder.Java.Node
import AnnotationOrder.Text.Blank

namespace AnnotationOrder.Java

open AnnotationOrder.Order Text

/-! ## Names -/

/-- The node is an annotation, with arguments or without. -/
def Node.isAnnotationNode (n : Node) : Bool := ["marker_annotation", "annotation"].contains n.type

/-- The last part of a name that may have several. -/
def Node.lastName? (n : Node) : Option Node :=
  if n.type != "scoped_identifier" then some n
  else match _h : n.child? "name" with
    | none => none
    | some m => m.lastName?
termination_by n.size
decreasing_by exact size_lt_of_mem (mem_of_child? ‹_›)

/-- The node that names an annotation. -/
def Node.annotationName? (n : Node) : Option Node := (n.child? "name").bind Node.lastName?

/-- The stretch of its line that a node takes, for the bytes of the source. -/
def Node.span (source : List UInt8) (n : Node) : Span :=
  ⟨(n.start.row + 1 : Nat), charColumn source n.start, charColumn source n.stop⟩

/-- The text of a node that need not be there. -/
def textOf (source : List UInt8) (n : Option Node) : Except Utf8.DecodeError (Option String) :=
  match n with
  | none => .ok none
  | some n => n.text? source

/-! ## Modifiers -/

variable (source : List UInt8)

/-- The annotation at a node, for the bytes of the source; it needs a name. -/
def annotationAt (n : Node) : Except Utf8.DecodeError (Option (Annot Span)) :=
  if !n.isAnnotationNode then .ok none
  else match n.annotationName? with
    | none => .ok none
    | some m => (m.text? source).map (·.map fun name => ⟨name, m.span source⟩)

/-- The annotations among modifiers. -/
def annotationsOf : List Node → Except Utf8.DecodeError (List (Annot Span))
  | [] => .ok []
  | n :: ns => do
    let a ← annotationAt source n
    let as ← annotationsOf ns
    return a.toList ++ as

/-- The name that a node declares.  Fields and local variables have it inside of a declarator. -/
def declarationName (owner : Node) : Except Utf8.DecodeError (Option String) := do
  match ← textOf source (owner.child? "name") with
  | some name => return some name
  | none =>
    match owner.child? "declarator" with
    | none => return none
    | some declarator => textOf source (declarator.child? "name")

/-- The declaration whose modifiers are at a node, given the node that it belongs to.  One without
    annotations does not count. -/
def declarationAt (owner? : Option Node) (n : Node) :
    Except Utf8.DecodeError (Option Declaration) :=
  match owner? with
  | none => .ok none
  | some owner =>
    if n.type != "modifiers" then .ok none
    else do
      let as ← annotationsOf source n.children
      if as.isEmpty then return none
      let name ← declarationName source owner
      return some ⟨owner.type, name, owner.start.row + 1, as⟩

/-! ## The walk -/

/-- Puts the children of a node on a stack, the first one on top; each goes with its parent. -/
def pushChildren (n : Node) (stack : List (Option Node × Node)) : List (Option Node × Node) :=
  n.children.reverse.foldl (fun stack child => (some n, child) :: stack) stack

/-- The number of nodes of the trees on a stack. -/
def stackSize (stack : List (Option Node × Node)) : Nat := Node.sizes (stack.map (·.2))

theorem pushChildren_eq (n : Node) (stack : List (Option Node × Node)) :
    pushChildren n stack = n.children.map (some n, ·) ++ stack := by
  rw [pushChildren, List.foldl_reverse]
  induction n.children with
  | nil => rfl
  | cons c cs ih => rw [List.foldr_cons, ih, List.map_cons, List.cons_append]

theorem sizes_append (ns ms : List Node) :
    Node.sizes (ns ++ ms) = Node.sizes ns + Node.sizes ms := by
  induction ns with
  | nil => simp [Node.sizes]
  | cons n ns ih => simp only [List.cons_append, Node.sizes, ih, Nat.add_assoc]

/-- A node that is taken off the stack has more nodes than its children have together. -/
theorem stackSize_pushChildren (owner? : Option Node) (n : Node)
    (stack : List (Option Node × Node)) :
    stackSize (pushChildren n stack) < stackSize ((owner?, n) :: stack) := by
  simp only [stackSize, pushChildren_eq, List.map_append, List.map_map, sizes_append,
    List.map_cons, Node.sizes, Node.size_eq n]
  simp only [Function.comp_def, List.map_id']
  omega

/-- The declarations that are found with a stack of nodes, behind those found so far. -/
def scanFrom (found : List Declaration) :
    List (Option Node × Node) → Except Utf8.DecodeError (List Declaration)
  | [] => .ok found
  | (owner?, n) :: stack => do
    let d ← declarationAt source owner? n
    scanFrom (found ++ d.toList) (pushChildren n stack)
termination_by stack => stackSize stack
decreasing_by exact stackSize_pushChildren _ _ _

/-- The annotated declarations of a source, for a parser of the language.  The root of its tree
    belongs to no node. -/
def scanSource (parse : String → Node) (source : String) :
    Except Utf8.DecodeError (List Declaration) :=
  if blank source then .ok []
  else scanFrom (Utf8.encode source.toList) [] [(none, parse source)]

end AnnotationOrder.Java
