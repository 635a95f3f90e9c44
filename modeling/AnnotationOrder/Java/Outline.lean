/-
  The declarations among the items of a Java source.

  The items of a source are gone through once, with a note of the part of the
  source they belong to, of whether a declaration may begin, and of what the next
  brackets will hold.

  * `Place`: these notes, with `Place.start` and `Place.next`;
  * `outline`: the items with the declarations among them and inside of them.
-/
import AnnotationOrder.Java.Region

namespace AnnotationOrder.Java

/-- What has just been seen, as far as it says what the next brackets hold. -/
inductive Before
  | nothing
  /-- The name of a class that is instantiated, with a number of type arguments open. -/
  | newType (depth : Nat)
  /-- The arguments of a constructor. -/
  | newArguments
  | arrow
  | switchWord
  | switchValue
  | forWord
  | tryWord
  | catchWord
  | typeHead (form : TypeForm)
  /-- The head of a method, a constructor or an initializer. -/
  | methodHead
  /-- What follows the parameters of a method. -/
  | methodTail
  deriving DecidableEq, Repr, Inhabited

/-- The head of a type or a method. -/
def Before.isHead : Before → Bool
  | typeHead _ | methodHead | methodTail => true
  | _ => false

/-- Where going through the items stands. -/
structure Place where
  region : Region
  /-- A declaration or a statement may begin here. -/
  ready : Bool := true
  before : Before := .nothing
  /-- How many type arguments are open. -/
  depth : Nat := 0
  deriving DecidableEq, Repr, Inhabited

namespace Place

/-- The head of a method that begins at items among statements. -/
def methodHead? (xs : List Item) : Option Before :=
  if xs.head?.any isModifier || !(headerWords xs).any (statementWords.contains ·.text) then
    (methodName? (xs.dropWhile isModifier)).map fun _ => .methodHead
  else none

/-- The head that begins at items. -/
def headAt? (r : Region) (xs : List Item) : Option Before :=
  let rest := xs.dropWhile isModifier
  let type := (TypeForm.at? rest).map fun (form, _) => Before.typeHead form
  match r with
  | .file => type <|> methodHead? xs
  | .block => type
  | .members _ =>
    type <|> if (afterHeader rest).any fun y => y.isGroup .round || y.isGroup .curly then
      some .methodHead
    else none
  | _ => none

/-- The place once a declaration or a statement has begun at items. -/
def start (p : Place) (xs : List Item) : Place :=
  if !p.ready then p
  else match headAt? p.region xs with
    | some head => { p with ready := false, before := head }
    | none => { p with ready := false }

/-- What a word leads to. -/
def afterWord (b : Before) (t : Token) : Before :=
  match b with
  | .typeHead _ | .methodHead => b
  | .methodTail => if t.isWord "default" then .nothing else b
  | _ =>
    if t.isWord "new" then .newType 0
    else if t.isWord "switch" then .switchWord
    else if t.isWord "for" then .forWord
    else if t.isWord "try" then .tryWord
    else if t.isWord "catch" then .catchWord
    else match b with
      | .newType _ => b
      | _ => .nothing

/-- What a symbol leads to. -/
def afterSymbol (b : Before) (t : Token) : Before :=
  if b.isHead then b
  else if t.isSymbol "->" then .arrow
  else match b with
    | .newType depth =>
      if t.isSymbol "<" then .newType (depth + 1)
      else if t.isSymbol ">" then .newType (depth - 1)
      else if [".", ",", "?", "&"].any t.isSymbol then b
      else .nothing
    | _ => .nothing

/-- What a group leads to. -/
def afterGroup (b : Before) (bracket : Bracket) : Before :=
  match bracket, b with
  | .curly, _ => .nothing
  | .round, .methodHead => .methodTail
  | _, .typeHead _ | _, .methodHead | _, .methodTail => b
  | .round, .newType _ => .newArguments
  | .square, .newType depth => if depth == 0 then .nothing else b
  | .round, .switchWord => .switchValue
  | _, _ => .nothing

/-- What an item leads to. -/
def beforeAfter (b : Before) : Item → Before
  | .token t => if t.shape == .word then afterWord b t else afterSymbol b t
  | .annot .. | .declaration .. => b
  | .group bracket _ _ => afterGroup b bracket

/-- The item ends a statement, or stands in front of one. -/
def endsStatement (x : Item) : Bool :=
  x.isGroup .curly || x.isGroup .round || [";", ":", "->"].any x.isSymbol
    || ["else", "do"].any x.isWord

/-- A declaration or a statement may begin behind an item. -/
def readyAfter (p : Place) (x : Item) : Bool :=
  match p.region with
  | .file | .block =>
    if p.before.isHead then x.isGroup .curly || x.isSymbol ";" else endsStatement x
  | .members _ => x.isSymbol ";" || (p.before.isHead && x.isGroup .curly)
  | .constants => x.isSymbol ","
  | .parameters => x.isSymbol "," && p.depth == 0
  | .resources => x.isSymbol ";"
  | .catchParameter | .loopVariable | .values => false

/-- The region behind an item: a semicolon ends the constants of an enumeration. -/
def regionAfter (r : Region) (x : Item) : Region :=
  if r == .constants && x.isSymbol ";" then .members .classBody else r

/-- The place behind an item. -/
def next (p : Place) (x : Item) : Place where
  region := regionAfter p.region x
  ready := p.readyAfter x || (p.region == .constants && x.isSymbol ";")
  before := if x.isSymbol ";" then .nothing else beforeAfter p.before x
  depth :=
    if x.isSymbol "<" then p.depth + 1 else if x.isSymbol ">" then p.depth - 1 else p.depth

/-- What round brackets hold, given what they hold and what comes behind them. -/
def roundRegion (p : Place) (inner : List Item) (behind : Option Item) : Region :=
  if behind.any (·.isSymbol "->") then .parameters
  else match p.before with
    | .forWord => if inner.any (·.isSymbol ";") then .block else .loopVariable
    | .tryWord => .resources
    | .catchWord => .catchParameter
    | .typeHead .recordForm | .methodHead => .parameters
    | _ => .values

/-- What curly brackets hold. -/
def curlyRegion (p : Place) : Region :=
  match p.before with
  | .typeHead form => form.body
  | .newArguments => .members .classBody
  | .arrow | .switchValue | .methodHead | .methodTail => .block
  | _ =>
    match p.region with
    | .file | .block => .block
    | .constants => .members .classBody
    | _ => .values

/-- What brackets hold. -/
def groupRegion (p : Place) (bracket : Bracket) (inner : List Item) (behind : Option Item) :
    Region :=
  match bracket with
  | .round => p.roundRegion inner behind
  | .square | .hole => .values
  | .curly => p.curlyRegion

end Place

/-! ## Declarations -/

/-- Items as the declaration that is recognised at the first of them, if any. -/
def asDeclared (found : Option (Kind × Option Token)) (xs : List Item) : List Item :=
  match found, xs with
  | some (kind, name), x :: xs => [.declaration kind name [] x xs]
  | _, xs => xs

/-- Puts an item in front of others.  A loop over a collection begins with its first word, while its
    variable is recognised between the brackets behind. -/
def consLoop (x : Item) (xs : List Item) : List Item :=
  match x, xs with
  | .token t, .group _ opening [.declaration .loopVariable name [] first rest] :: ys =>
    if t.isWord "for" then
      .declaration .loopVariable name [.token t, .token opening] first rest :: ys
    else x :: xs
  | _, _ => x :: xs

mutual

/-- The items with the declarations among them and inside of them: up to the next place where one
    may begin, and from there on. -/
def outline (p : Place) : List Item → List Item × List Item
  | [] => ([], [])
  | x :: xs =>
    let found := if p.ready then declaration? p.region (x :: xs) else none
    let begun := p.start (x :: xs)
    let inner := outlineInside begun xs.head? x
    let (segment, later) := outline (begun.next x) xs
    let segment := consLoop inner segment
    if p.ready then ([], asDeclared found segment ++ later) else (segment, later)

/-- An item with the declarations inside of it, given what comes behind it. -/
def outlineInside (p : Place) (behind : Option Item) : Item → Item
  | .token t => .token t
  | .annot mark path applied arguments =>
    let (segment, later) := outline { region := .values } arguments
    .annot mark path applied (segment ++ later)
  | .group bracket opening inner =>
    let (segment, later) := outline { region := p.groupRegion bracket inner behind } inner
    .group bracket opening (segment ++ later)
  | .declaration kind name front first rest => .declaration kind name front first rest

end

/-- The items of a source with all declarations. -/
def outlined (ts : List Token) : List Item :=
  let (segment, later) := outline { region := .file } (items ts)
  segment ++ later

end AnnotationOrder.Java
