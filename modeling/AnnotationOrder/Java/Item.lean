/-
  The structure that brackets and annotations give to a Java source.

  An annotation is a mark, a name of one or more words with dots between them, and
  possibly arguments.  A bracket that is never closed reaches to the end, and one
  that closes nothing is passed over.

  * `Kind`: the kinds of declarations;
  * `Item`: a token, an annotation, what stands between brackets, or a declaration;
  * `items`: the items of a list of tokens, before declarations are looked for.
-/
import AnnotationOrder.Java.Token

namespace AnnotationOrder.Java

/-- The kinds of declarations. -/
inductive Kind
  | classType
  | interfaceType
  | enumType
  | recordType
  | annotationType
  /-- An element of an annotation type. -/
  | element
  /-- A field of an interface or an annotation type. -/
  | constant
  | field
  | method
  | constructor
  /-- The constructor of a record, without parameters of its own. -/
  | compactConstructor
  | enumConstant
  | parameter
  /-- A parameter that takes any number of arguments. -/
  | spreadParameter
  | localVariable
  /-- The variable of a loop over a collection. -/
  | loopVariable
  | resource
  | catchParameter
  deriving DecidableEq, Repr, Inhabited

/-- The type of the nodes of a kind. -/
def Kind.text : Kind → String
  | classType => "class_declaration"
  | interfaceType => "interface_declaration"
  | enumType => "enum_declaration"
  | recordType => "record_declaration"
  | annotationType => "annotation_type_declaration"
  | element => "annotation_type_element_declaration"
  | constant => "constant_declaration"
  | field => "field_declaration"
  | method => "method_declaration"
  | constructor => "constructor_declaration"
  | compactConstructor => "compact_constructor_declaration"
  | enumConstant => "enum_constant"
  | parameter => "formal_parameter"
  | spreadParameter => "spread_parameter"
  | localVariable => "local_variable_declaration"
  | loopVariable => "enhanced_for_statement"
  | resource => "resource"
  | catchParameter => "catch_formal_parameter"

/-- The kinds of brackets. -/
inductive Bracket
  | round
  | square
  | curly
  /-- The brackets around a hole of a string. -/
  | hole
  deriving DecidableEq, Repr, Inhabited

/-- The bracket that a symbol opens. -/
def Bracket.opened? (t : Token) : Option Bracket :=
  if t.shape != .symbol then none
  else match t.chars with
    | ['('] => some round
    | ['['] => some square
    | ['{'] => some curly
    | cs => if cs == holeMark then some hole else none

/-- The character that closes a bracket. -/
def Bracket.closing : Bracket → Char
  | round => ')'
  | square => ']'
  | curly | hole => '}'

/-- The token closes brackets. -/
def closesBracket (t : Token) : Bool :=
  t.shape == .symbol && [[')'], [']'], ['}']].contains t.chars

/-- A part of a source. -/
inductive Item
  | token (t : Token)
  /-- An annotation: its mark, the words and dots of its name, and its arguments, if it is
      applied to any. -/
  | annot (mark : Token) (path : List Token) (applied : Bool) (arguments : List Item)
  | group (bracket : Bracket) (opening : Token) (inner : List Item)
  /-- A declaration: its name, what stands in front of its modifiers, the first of these, and what
      follows. -/
  | declaration (kind : Kind) (name : Option Token) (front : List Item) (first : Item)
      (rest : List Item)
  deriving Repr, Inhabited

/-- Words with dots between them. -/
def isName : List Token → Bool
  | [] => false
  | [word] => word.shape == .word
  | word :: dot :: path => word.shape == .word && dot.isSymbol "." && isName path

/-- Whether the name of an annotation, so far, goes on with a token. -/
def extendsPath (path : List Token) (t : Token) : Bool :=
  match path.getLast? with
  | none => t.shape == .word
  | some last => if last.shape == .word then t.isSymbol "." else t.shape == .word

/-- Adds an item to the items so far, which are in reverse.  It may belong to the annotation
    before it. -/
def addItem (before : List Item) (x : Item) : List Item :=
  match before with
  | .annot mark path false [] :: before' =>
    match x with
    | .token t =>
      if extendsPath path t then .annot mark (path ++ [t]) false [] :: before'
      else x :: before
    | .group .round _ inner => .annot mark path true inner :: before'
    | _ => x :: before
  | _ => x :: before

/-- The item that a token starts. -/
def startItem (t : Token) : Item := if t.isSymbol "@" then .annot t [] false [] else .token t

/-- A bracket that is open: its kind and symbol, and the items in front of it, in reverse. -/
structure Opened where
  bracket : Bracket
  opening : Token
  before : List Item
  deriving Repr, Inhabited

/-- The items after the innermost open bracket is closed; all are in reverse. -/
def Opened.close (o : Opened) (inner : List Item) : List Item :=
  addItem o.before (.group o.bracket o.opening inner.reverse)

/-- The items of tokens, given the open brackets, innermost first, and the items since the
    innermost one, in reverse. -/
def itemsFrom (opened : List Opened) (current : List Item) : List Token → List Item
  | [] => (opened.foldl (fun inner o => o.close inner) current).reverse
  | t :: ts =>
    match Bracket.opened? t, opened with
    | some b, _ => itemsFrom (⟨b, t, current⟩ :: opened) [] ts
    | none, [] =>
      if closesBracket t then itemsFrom [] current ts
      else itemsFrom [] (addItem current (startItem t)) ts
    | none, o :: opened' =>
      if !closesBracket t then itemsFrom opened (addItem current (startItem t)) ts
      else if t.chars == [o.bracket.closing] then itemsFrom opened' (o.close current) ts
      else itemsFrom opened current ts

/-- The items of a list of tokens. -/
def items (ts : List Token) : List Item := itemsFrom [] [] ts

namespace Item

/-- The item is the given word. -/
def isWord (word : String) : Item → Bool
  | token t => t.isWord word
  | _ => false

/-- The item is the given symbol. -/
def isSymbol (symbol : String) : Item → Bool
  | token t => t.isSymbol symbol
  | _ => false

/-- The item is a group between brackets of a kind. -/
def isGroup (bracket : Bracket) : Item → Bool
  | group b _ _ => b == bracket
  | _ => false

/-- The item is an annotation. -/
def isAnnotationItem : Item → Bool
  | annot .. => true
  | _ => false

/-- The word that the item is. -/
def word? : Item → Option Token
  | token t => if t.shape == .word then some t else none
  | _ => none

end Item

end AnnotationOrder.Java
