/-
  What a declaration looks like in each part of a Java source.

  A declaration is recognised where one may begin: modifiers first, then what the
  part of the source expects.  Only annotations among the modifiers belong to the
  declaration; those on types and behind type parameters do not.

  * `Region`: the parts of a source, by what may be declared there;
  * `TypeForm.at?`: the start of a type declaration;
  * `header`: what stands in front of a body, a value or the end, outside of type
    arguments;
  * `declaration?`: the annotated declaration that begins at some items.
-/
import AnnotationOrder.Java.Item

namespace AnnotationOrder.Java

/-- The bodies that have members. -/
inductive Container
  /-- The body of a class, an enumeration or a record. -/
  | classBody
  | interfaceBody
  | annotationBody
  deriving DecidableEq, Repr, Inhabited

/-- The parts of a source, by what may be declared there. -/
inductive Region
  | file
  | block
  | members (c : Container)
  /-- The constants of an enumeration, up to the first semicolon. -/
  | constants
  | parameters
  | resources
  | catchParameter
  /-- The head of a loop over a collection. -/
  | loopVariable
  /-- Expressions: nothing is declared here, other than inside brackets. -/
  | values
  deriving DecidableEq, Repr, Inhabited

/-! ## Modifiers -/

/-- The keywords among the modifiers. -/
def modifierWords : List String :=
  ["public", "protected", "private", "abstract", "static", "final", "strictfp", "default",
    "synchronized", "native", "transient", "volatile", "sealed", "non-sealed"]

/-- The item is a modifier. -/
def isModifier : Item → Bool
  | .annot _ path _ _ => isName path
  | x => x.word?.any fun t => modifierWords.contains t.text

/-! ## Headers -/

/-- The item ends a header: a group, the start of a value, or the end of the declaration. -/
def endsHeader (x : Item) : Bool :=
  x.isGroup .round || x.isGroup .curly || ["=", ";", ",", ":"].any x.isSymbol

/-- The items of a header outside of type arguments, given how many are open, and what follows. -/
def headerFrom (depth : Nat) : List Item → List Item × List Item
  | [] => ([], [])
  | x :: xs =>
    if x.isSymbol "<" then headerFrom (depth + 1) xs
    else if x.isSymbol ">" then headerFrom (depth - 1) xs
    else if depth != 0 then headerFrom depth xs
    else if endsHeader x then ([], x :: xs)
    else
      let (hs, rest) := headerFrom depth xs
      (x :: hs, rest)

/-- The header in front of a body, a value or the end, and what follows. -/
def header (xs : List Item) : List Item × List Item := headerFrom 0 xs

/-- The words of a header. -/
def headerWords (xs : List Item) : List Token := (header xs).1.filterMap Item.word?

/-- What follows a header. -/
def afterHeader (xs : List Item) : Option Item := (header xs).2.head?

/-- The name in a header that has a type and a name.  A word behind a dot is part of a longer
    name. -/
def variableName? (xs : List Item) : Option Token :=
  match ((header xs).1.filter fun x => x.word?.isSome || x.isSymbol ".").reverse with
  | name :: before :: _ => if before.isSymbol "." then none else name.word?
  | _ => none

/-! ## Types -/

/-- The forms of type declarations. -/
inductive TypeForm
  | classForm
  | interfaceForm
  | enumForm
  | recordForm
  | annotationForm
  deriving DecidableEq, Repr, Inhabited

namespace TypeForm

/-- The kind of a type declaration. -/
def kind : TypeForm → Kind
  | classForm => .classType
  | interfaceForm => .interfaceType
  | enumForm => .enumType
  | recordForm => .recordType
  | annotationForm => .annotationType

/-- What the body of a type holds. -/
def body : TypeForm → Region
  | classForm | recordForm => .members .classBody
  | interfaceForm => .members .interfaceBody
  | enumForm => .constants
  | annotationForm => .members .annotationBody

/-- The form that a keyword starts. -/
def ofKeyword? (x : Item) : Option TypeForm :=
  if x.isWord "class" then some classForm
  else if x.isWord "interface" then some interfaceForm
  else if x.isWord "enum" then some enumForm
  else if x.isSymbol "@interface" then some annotationForm
  else none

/-- The type declaration that starts at items behind its modifiers: its form and its name.  The
    word for a record is no keyword, so more of its declaration has to be there. -/
def at? : List Item → Option (TypeForm × Token)
  | x :: name :: rest =>
    match ofKeyword? x, name.word? with
    | some form, some n => if rest.any (·.isGroup .curly) then some (form, n) else none
    | none, some n =>
      if x.isWord "record" && rest.head?.any (fun y => y.isGroup .round || y.isSymbol "<")
          && rest.any (·.isGroup .curly) then some (recordForm, n)
      else none
    | _, none => none
  | _ => none

end TypeForm

/-! ## Methods -/

/-- The words of statements that can stand in front of a name and brackets. -/
def statementWords : List String :=
  ["new", "return", "throw", "assert", "yield", "else", "case", "do", "package", "import"]

/-- The items can be a type and a name: words, dots, dimensions and annotations. -/
def areTypeAndName (hs : List Item) : Bool :=
  hs.all fun x => x.word?.isSome || x.isSymbol "." || x.isGroup .square || x.isAnnotationItem

/-- A method among statements: a type and a name, with parameters, in front of a body or the
    end. -/
def methodName? (xs : List Item) : Option Token :=
  let (hs, after) := header xs
  if !areTypeAndName hs || !after.head?.any (·.isGroup .round) then none
  else if (after[1]?).any fun y =>
      y.isGroup .curly || y.isGroup .square || y.isSymbol ";" || y.isWord "throws" then
    variableName? xs
  else none

/-- A variable: a type and a name, in front of a value, a further name or the end.  The name of a
    package has annotations, too, but is none. -/
def statementVariable? (xs : List Item) : Option Token :=
  if xs.head?.any (·.isWord "package") then none
  else if (afterHeader xs).any fun y => ["=", ";", ","].any y.isSymbol then variableName? xs
  else none

/-- A member of a body: its kind and name. -/
def member? (c : Container) (xs : List Item) : Option (Kind × Option Token) :=
  match afterHeader xs with
  | none => none
  | some y =>
    if y.isGroup .round then
      match c, headerWords xs with
      | .annotationBody, _ :: _ => (variableName? xs).map fun n => (.element, some n)
      | _, [n] => some (.constructor, some n)
      | _, _ => (variableName? xs).map fun n => (.method, some n)
    else if y.isGroup .curly then
      match headerWords xs with
      | [n] => some (.compactConstructor, some n)
      | _ => none
    else if ["=", ";", ","].any y.isSymbol then
      (variableName? xs).map fun n => (if c == .classBody then .field else .constant, some n)
    else none

/-- A parameter: its kind and name.  The receiver of a method with modifiers is one by the name of
    `this`. -/
def parameter? (xs : List Item) : Option (Kind × Option Token) :=
  if (header xs).1.any (·.isSymbol "...") then some (.spreadParameter, none)
  else (variableName? xs).map fun n => (.parameter, some n)

/-! ## Declarations -/

/-- What is declared by items behind modifiers, in a region: the kind and the name.  Behind
    modifiers, the words of statements are names like others. -/
def Region.declared? (r : Region) (xs : List Item) : Option (Kind × Option Token) :=
  let named (k : Kind) (n : Option Token) := n.map fun n => (k, some n)
  let type := (TypeForm.at? xs).map fun (form, n) => (form.kind, some n)
  match r with
  | file =>
    type <|> named .method (methodName? xs) <|> named .localVariable (statementVariable? xs)
  | block => type <|> named .localVariable (statementVariable? xs)
  | members c => type <|> member? c xs
  | constants => named .enumConstant (xs.head?.bind Item.word?)
  | parameters => parameter? xs
  | resources =>
    if (afterHeader xs).any (·.isSymbol "=") then named .resource (variableName? xs) else none
  | catchParameter => named .catchParameter (variableName? xs)
  | loopVariable =>
    if (afterHeader xs).any (·.isSymbol ":") then named .loopVariable (variableName? xs) else none
  | values => none

/-- The annotated declaration that begins at some items: its kind and its name. -/
def declaration? (r : Region) (xs : List Item) : Option (Kind × Option Token) :=
  if (xs.takeWhile isModifier).any Item.isAnnotationItem then
    r.declared? (xs.dropWhile isModifier)
  else none

end AnnotationOrder.Java
