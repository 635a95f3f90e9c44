/-
  The document that a YAML text holds.

  A value is made of each node once, so a node that stands at several places is one
  collection.  The parts of a collection are made when all collections around it,
  and those in front of it that are as near to the root, have theirs; so of several
  faults the one nearest to the root counts, and of those the first.

  * `documentOf`: the document of nodes;
  * `load`, `loadBytes`: the document of a text.
-/
import AnnotationOrder.Document.Value
import AnnotationOrder.Yaml.Merge
import AnnotationOrder.Yaml.Scalar
import AnnotationOrder.Yaml.Setting

namespace AnnotationOrder.Yaml

open Document

/-! ## Mappings -/

/-- Sets the value of a key: a new key comes last, a known one stays where and what it is. -/
def setEntry (entries : Entries) (k : Atom) (v : Value) : Entries :=
  if entries.any (·.1.same k) then
    entries.map fun (k', v') => if k'.same k then (k', v) else (k', v')
  else entries ++ [(k, v)]

/-- The mapping that entries make; of those with the same key the last counts. -/
def entriesOf (entries : Entries) : Entries :=
  entries.foldl (fun es (k, v) => setEntry es k v) []

/-! ## Making values -/

/-- How far making values has come. -/
structure Making where
  nodes : Nodes
  /-- A bound on the entries that are to be merged. -/
  mergeCount : Nat
  /-- The values of the nodes, where they are made. -/
  made : Array (Option Value)
  /-- The collections, by the numbers of their nodes; behind them stand the pairs. -/
  collections : Array Collection
  /-- The nodes of the collections that have no parts yet. -/
  waiting : List Nat := []
  /-- Those that come after them, last first. -/
  later : List Nat := []

/-- Steps of making values. -/
abbrev Make := StateT Making (Except Error)

namespace Making

/-- Nothing is made of the nodes. -/
def start (nodes : Nodes) : Making where
  nodes
  mergeCount := nodes.mergeCount
  made := nodes.map fun _ => none
  collections := nodes.map fun _ => .list []

end Making

/-- The text of a node where a scalar is asked for: in a mapping, the value that stands for it. -/
def scalarText (nodes : Nodes) : Nat → Nat → Except Error String
  | 0, _ => .error .tooDeep
  | fuel + 1, i =>
    match nodes.at? i with
    | some (.scalar _ s) => .ok s
    | some (.mapping _ entries) =>
      match entries.find? fun (k, _) => nodes.tagAt k == .value with
      | some (_, v) => scalarText nodes fuel v
      | none => .error .malformed
    | _ => .error .malformed

/-- The tag asks for a collection. -/
def Tag.isCollection : Tag → Bool
  | .sequence | .mapping | .set | .orderedMap | .pairs => true
  | _ => false

/-- The tag asks for nothing that a document can hold. -/
def Tag.isUnknown : Tag → Bool
  | .merge | .value | .other => true
  | _ => false

/-- The value of a node where a scalar is asked for.  A mapping is never taken for a timestamp, even
    with a text. -/
def scalarValue (nodes : Nodes) (tag : Tag) (i : Nat) : Except Error Value := do
  if tag.isUnknown then throw .malformed
  let s ← scalarText nodes (nodes.size + 1) i
  match tag, nodes.at? i with
  | .timestamp, some (.mapping _ _) => throw (.scalar .timestampMapping)
  | _, _ => return .atom (← tag.read i s)

/-- The value of a node.  A collection waits for its parts. -/
def make (i : Nat) : Make Value := do
  let m ← get
  if let some (some v) := m.made[i]? then return v
  let tag := m.nodes.tagAt i
  let v ← if tag.isCollection then pure (.collection i) else scalarValue m.nodes tag i
  modify fun m => { m with
    made := m.made.setIfInBounds i (some v)
    later := if tag.isCollection then i :: m.later else m.later }
  return v

/-- The key that a node is: only atoms can be keys. -/
def makeKey (i : Nat) : Make Atom := do
  match ← make i with
  | .atom a => return a
  | .collection _ => throw .malformed

/-- The entries of a mapping, after those that it takes over. -/
def makeEntries (i : Nat) : Make Entries := do
  let m ← get
  let nodes ← m.nodes.merge m.mergeCount i
  set { m with nodes }
  let entries ← (nodes.entriesAt i).mapM fun (k, v) => do return (← makeKey k, ← make v)
  return entriesOf entries

/-- The pair that a mapping with one entry is. -/
def makePair (i : Nat) : Make Value := do
  match (← get).nodes.at? i with
  | some (.mapping _ [(k, v)]) =>
    let first ← make k
    let second ← make v
    modifyGet fun m => (.collection m.collections.size,
      { m with collections := m.collections.push (.pair first second) })
  | _ => throw .malformed

/-- The collection of a node, with its parts. -/
def makeCollection (s : Setting) (i : Nat) : Make Collection := do
  match (← get).nodes.at? i with
  | some (.sequence .sequence items) => return .list (← items.mapM make)
  | some (.sequence .orderedMap items) | some (.sequence .pairs items) =>
    return .list (← items.mapM makePair)
  | some (.mapping .mapping _) => return .mapping (← makeEntries i)
  | some (.mapping .set _) => return .set (s.setOrder ((← makeEntries i).map (·.1)))
  | _ => throw .malformed

/-- Gives the waiting collections their parts, and those that begin to wait by this. -/
def makeAll (s : Setting) : Nat → Make Unit
  | 0 => return
  | fuel + 1 => do
    let m ← get
    match m.waiting, m.later with
    | i :: waiting, _ =>
      set { m with waiting }
      let c ← makeCollection s i
      modify fun m => { m with collections := m.collections.setIfInBounds i c }
      makeAll s fuel
    | [], [] => return
    | [], later =>
      set { m with waiting := later.reverse, later := [] }
      makeAll s fuel

/-- The document of nodes. -/
def documentOf (s : Setting) (g : Graph) : Except Error Document := do
  let steps : Make Value := do
    let root ← make g.root
    makeAll s (2 * g.nodes.size + 2)
    return root
  let (root, m) ← steps.run (.start g.nodes)
  return { root, collections := m.collections, room := s.showing }

/-! ## Texts -/

/-- The document of a text.  A text without one holds null. -/
def load (s : Setting) (source : Source) : Except Error Document := do
  match ← Graph.ofTokens s.nesting (.ofSource source) with
  | none => return { root := .atom .null, room := s.showing }
  | some g => documentOf s g

/-- The document of encoded text. -/
def loadBytes (s : Setting) (bytes : List UInt8) : Except Error Document := load s (.ofBytes bytes)

end AnnotationOrder.Yaml
