/-
  Nodes of a YAML document.

  A node may stand at several places, by its name, and also inside itself, so the
  nodes are numbered, in the order in which they begin, and the parts of a
  collection are given by their numbers.

  * `Node`, `Nodes`: the nodes, and tables of them;
  * `Graph.ofTokens`: the nodes of the only document, if there is one.  Where a node
    is left out there is an empty plain scalar.
-/
import AnnotationOrder.Yaml.Tag
import AnnotationOrder.Yaml.Token.Lexer

namespace AnnotationOrder.Yaml

/-- A node, the parts of which are given by their numbers. -/
inductive Node
  | scalar (tag : Tag) (text : String)
  | sequence (tag : Tag) (items : List Nat)
  | mapping (tag : Tag) (entries : List (Nat × Nat))
  deriving Repr, Inhabited

namespace Node

def tag : Node → Tag
  | scalar t _ | sequence t _ | mapping t _ => t

/-- The node with another tag. -/
def withTag (t : Tag) : Node → Node
  | scalar _ s => scalar t s
  | sequence _ items => sequence t items
  | mapping _ entries => mapping t entries

/-- The node that is left out. -/
def empty : Node := scalar .null ""

end Node

/-- The nodes of a document, by their numbers. -/
abbrev Nodes := Array Node

/-- A document as nodes: its first node, and all of them. -/
structure Graph where
  root : Nat
  nodes : Nodes
  deriving Repr, Inhabited

namespace Graph

/-! ## Reading tokens -/

/-- Where reading stands. -/
structure Reading where
  rest : List Token
  /-- The fault that comes behind the tokens, if it is not the end of the text. -/
  fault : Option Error
  /-- What the handles of tags stand for. -/
  handles : List (String × String) := []
  nodes : Nodes := #[]
  /-- The nodes that have a name. -/
  named : List (String × Nat) := []
  /-- How many collections are around the next node. -/
  depth : Nat := 0

/-- Steps over tokens. -/
abbrev Read := StateT Reading (Except Error)

/-- The text does not follow the format. -/
def fail {α : Type} : Read α := throw .malformed

/-- The next token. -/
def next : Read (Option Token) := do
  let r ← get
  match r.rest, r.fault with
  | t :: _, _ => return some t
  | [], some e => throw e
  | [], none => return none

/-- Passes over a token. -/
def drop : Read Unit := modify fun r => { r with rest := r.rest.drop 1 }

/-- The next token is this one, which is passed over. -/
def take? (t : Token) : Read Bool := do
  if (← next) == some t then
    drop
    return true
  else return false

/-- Passes over this token, which has to come. -/
def take (t : Token) : Read Unit := do
  if !(← take? t) then fail

/-- The next token is among these, or there is none. -/
def at? (ts : List Token) : Read Bool := do
  match ← next with
  | none => return true
  | some t => return ts.contains t

/-! ## Names and tags -/

/-- The name and the tag in front of a node, in either order. -/
structure Properties where
  anchor : Option String := none
  tag : Option String := none

/-- The text that a tag is short for. -/
def expand (handle : Option String) (suffix : String) : Read String := do
  match handle with
  | none => return suffix
  | some h =>
    match (← get).handles.lookup h with
    | some expansion => return expansion ++ suffix
    | none => fail

/-- A tag in front of a node. -/
def tag? : Read (Option (Option String × String)) := do
  match ← next with
  | some (.tag handle suffix) => drop; return some (handle, suffix)
  | _ => return none

/-- A name in front of a node. -/
def anchor? : Read (Option String) := do
  match ← next with
  | some (.anchor name) => drop; return some name
  | _ => return none

/-- The name and the tag in front of a node. -/
def properties : Read Properties := do
  let before ← anchor?
  let tag ← tag?
  let anchor ← if before.isSome || tag.isNone then pure before else anchor?
  match tag with
  | none => return { anchor }
  | some (handle, suffix) => return { anchor, tag := some (← expand handle suffix) }

/-- A new node. -/
def add (n : Node) : Read Nat :=
  modifyGet fun r => (r.nodes.size, { r with nodes := r.nodes.push n })

/-- A new node with its name, which no other node has. -/
def begin (p : Properties) (n : Node) : Read Nat := do
  let i ← add n
  if let some name := p.anchor then
    if ((← get).named.lookup name).isSome then fail
    modify fun r => { r with named := (name, i) :: r.named }
  return i

/-- The node with a number is known completely. -/
def complete (i : Nat) (n : Node) : Read Nat := do
  modify fun r => { r with nodes := r.nodes.setIfInBounds i n }
  return i

/-- The tag of a collection: without one of its own, the given one. -/
def Properties.collectionTag (p : Properties) (tag : Tag) : Tag :=
  match p.tag with
  | none | some "!" => tag
  | some uri => .ofUri uri

/-- The tag of a scalar: without one of its own, what its text says if it is plain.  The lone mark
    makes a scalar count as plain. -/
def Properties.scalarTag (p : Properties) (plain : Bool) (text : String) : Tag :=
  match p.tag with
  | none => if plain then .ofPlain text else .text
  | some "!" => .ofPlain text
  | some uri => .ofUri uri

/-- What may stand where a node is read. -/
inductive Place
  /-- Inside brackets. -/
  | flow
  | block
  /-- The part of a mapping, where a sequence need not be indented. -/
  | mappingPart
  deriving DecidableEq, Repr

/-! ## Nodes -/

/-- Reads the parts of a collection. -/
def inside {α : Type} (parts : Read α) : Read α := do
  modify fun r => { r with depth := r.depth + 1 }
  let a ← parts
  modify fun r => { r with depth := r.depth - 1 }
  return a

/-- A sequence, given how its items are read. -/
def sequence (p : Properties) (items : Read (List Nat)) : Read Nat := do
  let tag := p.collectionTag .sequence
  let i ← begin p (.sequence tag [])
  complete i (.sequence tag (← inside items))

/-- A mapping, given how its entries are read. -/
def mapping (p : Properties) (entries : Read (List (Nat × Nat))) : Read Nat := do
  let tag := p.collectionTag .mapping
  let i ← begin p (.mapping tag [])
  complete i (.mapping tag (← inside entries))

/-- The node that the name stands for that comes, if one does. -/
def alias? : Read (Option Nat) := do
  match ← next with
  | some (.alias name) =>
    drop
    match (← get).named.lookup name with
    | some i => return some i
    | none => fail
  | _ => return none

/-- Passes over the mark in front of a part between brackets, unless it is the first one. -/
def passMark (first : Bool) : Read Unit := if first then return else take .flowEntry

section
variable (limit : Nat)

/-- There may be only so many collections around a node. -/
def checkRoom : Read Unit := do if limit < (← get).depth then throw .tooDeep

mutual

/-- A node. -/
def read (place : Place) : Nat → Read Nat
  | 0 => fail
  | fuel + 1 => do
    checkRoom limit
    match ← alias? with
    | some i => return i
    | none => readParts place (← properties) fuel

/-- A node behind its properties. -/
def readParts (place : Place) (p : Properties) : Nat → Read Nat
  | 0 => fail
  | fuel + 1 => do
    match ← next with
    | some (.scalar plain text) =>
      drop
      begin p (.scalar (p.scalarTag plain text) text)
    | some .flowSequenceStart => sequence p do drop; flowItems true fuel
    | some .flowMappingStart => mapping p do drop; flowEntries true fuel
    | t =>
      if t == some .blockEntry && place == .mappingPart then
        sequence p (looseItems fuel)
      else if t == some .blockSequenceStart && place != .flow then
        sequence p do drop; blockItems fuel
      else if t == some .blockMappingStart && place != .flow then
        mapping p do drop; blockEntries fuel
      else if p.anchor.isSome || p.tag.isSome then begin p (.scalar (p.scalarTag true "") "")
      else fail

/-- A node, or the empty one if a token that cannot start one comes. -/
def readUnless (place : Place) (ends : List Token) : Nat → Read Nat
  | 0 => fail
  | fuel + 1 => do if ← at? ends then add .empty else read place fuel

/-- The items of a sequence with an indentation of its own. -/
def blockItems : Nat → Read (List Nat)
  | 0 => fail
  | fuel + 1 => do
    if ← take? .blockEntry then
      let item ← readUnless .block [.blockEntry, .blockEnd] fuel
      return item :: (← blockItems fuel)
    else
      take .blockEnd
      return []

/-- The items of a sequence without an indentation of its own. -/
def looseItems : Nat → Read (List Nat)
  | 0 => fail
  | fuel + 1 => do
    if ← take? .blockEntry then
      let item ← readUnless .block [.blockEntry, .key, .value, .blockEnd] fuel
      return item :: (← looseItems fuel)
    else return []

/-- The entries of a mapping by indentation. -/
def blockEntries : Nat → Read (List (Nat × Nat))
  | 0 => fail
  | fuel + 1 => do
    if ← take? .key then
      let key ← readUnless .mappingPart [.key, .value, .blockEnd] fuel
      let value ←
        if ← take? .value then readUnless .mappingPart [.key, .value, .blockEnd] fuel
        else add .empty
      return (key, value) :: (← blockEntries fuel)
    else
      take .blockEnd
      return []

/-- An entry between brackets, after the mark of its key, given the token that ends the
    collection. -/
def flowEntry (close : Token) : Nat → Read (Nat × Nat)
  | 0 => fail
  | fuel + 1 => do
    let key ← readUnless .flow [.value, .flowEntry, close] fuel
    let value ←
      if ← take? .value then readUnless .flow [.flowEntry, close] fuel
      else add .empty
    return (key, value)

/-- The items of a sequence between brackets.  An entry is a mapping of its own. -/
def flowItems (first : Bool) : Nat → Read (List Nat)
  | 0 => fail
  | fuel + 1 => do
    if ← take? .flowSequenceEnd then return []
    passMark first
    if ← take? .key then
      let i ← add (.mapping .mapping [])
      let entry ← inside (flowEntry .flowSequenceEnd fuel)
      let item ← complete i (.mapping .mapping [entry])
      return item :: (← flowItems false fuel)
    else if ← take? .flowSequenceEnd then return []
    else
      let item ← read .flow fuel
      return item :: (← flowItems false fuel)

/-- The entries of a mapping between brackets.  A key may stand alone. -/
def flowEntries (first : Bool) : Nat → Read (List (Nat × Nat))
  | 0 => fail
  | fuel + 1 => do
    if ← take? .flowMappingEnd then return []
    passMark first
    if ← take? .key then
      let entry ← flowEntry .flowMappingEnd fuel
      return entry :: (← flowEntries false fuel)
    else if ← take? .flowMappingEnd then return []
    else
      let key ← read .flow fuel
      let value ← add .empty
      return (key, value) :: (← flowEntries false fuel)

end

end

/-! ## Documents -/

/-- The handles that need no directive. -/
def commonHandles : List (String × String) := [("!", "!"), ("!!", Tag.commonUri)]

/-- The directives in front of a document, given whether there was one of the version and the
    handles of those before. -/
def directives (version : Bool) (handles : List (String × String)) :
    Nat → Read (List (String × String))
  | 0 => fail
  | fuel + 1 => do
    match ← next with
    | some (.versionDirective major) =>
      if version || major != 1 then fail
      drop
      directives true handles fuel
    | some (.tagDirective handle expansion) =>
      if handles.any (·.1 == handle) then fail
      drop
      directives version ((handle, expansion) :: handles) fuel
    | some .otherDirective =>
      drop
      directives version handles fuel
    | _ => return handles

/-- A directive. -/
def isDirective : Token → Bool
  | .versionDirective _ | .tagDirective _ _ | .otherDirective => true
  | _ => false

/-- A token that belongs to no document. -/
def isOutside (t : Token) : Bool := isDirective t || [.documentStart, .documentEnd].contains t

/-- Nothing but the ends of documents is left.  What is in front of a further document is looked at,
    since it may be a fault. -/
def finish : Nat → Read Unit
  | 0 => fail
  | fuel + 1 => do
    match ← next with
    | none => return
    | some .documentEnd =>
      drop
      finish fuel
    | some _ =>
      let _ ← directives false [] (fuel + 1)
      let _ ← next
      fail

/-- What is in front of the first node of a document, given whether a marker begins it. -/
def opening (marked : Bool) (fuel : Nat) : Read Unit := do
  if marked then
    let handles ← directives false [] fuel
    take .documentStart
    modify ({ · with handles := handles ++ commonHandles })
  else modify ({ · with handles := commonHandles })

/-- The first node of the only document.  A document that begins with a marker may be empty. -/
def document (limit fuel : Nat) : Read (Option Nat) := do
  match ← next with
  | none => return none
  | some t =>
    let marked := isDirective t || t == .documentStart
    opening marked fuel
    let root ←
      if marked && (← next).all isOutside then add .empty
      else read limit .block fuel
    finish fuel
    return some root

/-- The nodes of the only document among tokens, around each only so many collections. -/
def ofTokens (limit : Nat) (ts : Tokens) : Except Error (Option Graph) := do
  let start : Reading := { rest := ts.list, fault := ts.fault }
  let (root, r) ← (document limit (4 * ts.list.length + 8)).run start
  return root.map fun i => ⟨i, r.nodes⟩

end Graph

end AnnotationOrder.Yaml
