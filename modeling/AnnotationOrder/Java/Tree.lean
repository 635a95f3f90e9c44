/-
  Syntax trees for Java sources.

  The nodes of a tree reach from the first of their tokens to the last one.  The
  trees have the nodes that declarations are read off from; other constructs are told
  apart only as far as their brackets go.

  * `around`: a node for what is below it;
  * `Item.node`: the node of an item;
  * `parse`: the tree of a source;
  * `declarations`: the annotated declarations of a source, in this tree.
-/
import AnnotationOrder.Java.Outline
import AnnotationOrder.Java.Scan

namespace AnnotationOrder.Java

/-! ## Nodes -/

/-- A node without others below it. -/
def leaf (type : String) (t : Token) : Node := ⟨type, none, t.position, t.stop, []⟩

/-- A node that reaches from the first to the last node below it. -/
def around (type : String) (children : List Node) : Node :=
  ⟨type, none, (children.head?.map (·.start)).getD {}, (children.getLast?.map (·.stop)).getD {},
    children⟩

/-- A node around others, if there are any. -/
def aroundSome (type : String) (children : List Node) : List Node :=
  if children.isEmpty then [] else [around type children]

/-- A node in a field of the one that it belongs to. -/
def Node.inField (field : String) (n : Node) : Node := { n with field := some field }

/-- The type of the node of a token.  Words that are no modifiers are not told apart, and neither are
    symbols. -/
def Token.nodeType (t : Token) : String :=
  match t.shape with
  | .word => if modifierWords.contains t.text then t.text else "identifier"
  | .literal => "literal"
  | .symbol | .gap => "symbol"

/-- The node of a token. -/
def Token.node (t : Token) : Node := leaf t.nodeType t

/-! ## Annotations -/

/-- A name with a dot and a further word behind it. -/
def qualified (scope : Node) (dot word : Token) : Node :=
  around "scoped_identifier"
    [scope.inField "scope", dot.node, (leaf "identifier" word).inField "name"]

/-- A name that goes on with dots and words. -/
def nameFrom (scope : Node) : List Token → Node
  | dot :: word :: path => nameFrom (qualified scope dot word) path
  | _ => scope

/-- The name of an annotation, or what stands in its place. -/
def nameNodes : List Token → List Node
  | [] => []
  | word :: path =>
    if isName (word :: path) then [(nameFrom (leaf "identifier" word) path).inField "name"]
    else (word :: path).map Token.node

/-- The type of an annotation. -/
def annotationType (path : List Token) (applied : Bool) : String :=
  if !isName path then "ERROR" else if applied then "annotation" else "marker_annotation"

/-! ## Declarations -/

/-- Variables have their names inside of declarators. -/
def Kind.hasDeclarator : Kind → Bool
  | .field | .constant | .localVariable => true
  | _ => false

/-- Marks the declared name among the nodes of a declaration. -/
def markName (kind : Kind) (name : Option Token) (n : Node) : Node :=
  if n.children.isEmpty && name.any (·.position == n.start) then
    if kind.hasDeclarator then
      (around "variable_declarator" [n.inField "name"]).inField "declarator"
    else n.inField "name"
  else n

/-- The nodes of a declaration, given the number of its modifiers. -/
def declarationNodes (kind : Kind) (name : Option Token) (modifiers : Nat) (ns : List Node) :
    List Node :=
  aroundSome "modifiers" (ns.take modifiers) ++ (ns.drop modifiers).map (markName kind name)

/-! ## Trees -/

/-- The type of a group. -/
def Bracket.nodeType : Bracket → String
  | round => "parenthesized_expression"
  | square => "dimensions"
  | curly => "block"
  | hole => "string_interpolation"

mutual

/-- The node of an item. -/
def Item.node : Item → Node
  | .token t => t.node
  | .annot mark path applied arguments =>
    around (annotationType path applied)
      (mark.node :: (nameNodes path ++ aroundSome "annotation_argument_list" (nodesOf arguments)))
  | .group bracket opening inner => around bracket.nodeType (opening.node :: nodesOf inner)
  | .declaration kind name front first rest =>
    around kind.text (nodesOf front ++
      declarationNodes kind name ((first :: rest).takeWhile isModifier).length
        (first.node :: nodesOf rest))

/-- The nodes of items. -/
def nodesOf : List Item → List Node
  | [] => []
  | x :: xs => x.node :: nodesOf xs

end

/-- The tree of a source. -/
def parse (source : String) : Node := around "program" (nodesOf (outlined (tokens source)))

/-- The annotated declarations of a source, in the tree that it has here. -/
def declarations (source : String) : List Declaration :=
  ((scanSource parse source).toOption).getD []

end AnnotationOrder.Java
