/-
  Entries that mappings take over from other mappings.

  An entry with the merge key names a mapping, or a sequence of mappings, the
  entries of which come in front of the mapping's own.  Sources are merged
  themselves first; a mapping that is its own source has no such entries left by
  then.  As a key of a merged mapping, the mark for a value is a text.

  * `Nodes.merge`: the nodes once the entries of a mapping are merged.
-/
import AnnotationOrder.Yaml.Node

namespace AnnotationOrder.Yaml

namespace Nodes

/-- The node with a number. -/
def at? (nodes : Nodes) (i : Nat) : Option Node := nodes[i]?

/-- The tag of a node. -/
def tagAt (nodes : Nodes) (i : Nat) : Tag := ((nodes.at? i).map Node.tag).getD .other

/-- The entries of a mapping. -/
def entriesAt (nodes : Nodes) (i : Nat) : List (Nat × Nat) :=
  match nodes.at? i with
  | some (.mapping _ entries) => entries
  | _ => []

/-- A mapping with other entries. -/
def setEntries (nodes : Nodes) (i : Nat) (entries : List (Nat × Nat)) : Nodes :=
  nodes.modify i fun
    | .mapping tag _ => .mapping tag entries
    | n => n

/-- Keys that are the mark for a value are texts from now on. -/
def markTexts (nodes : Nodes) (entries : List (Nat × Nat)) : Nodes :=
  entries.foldl (fun nodes (k, _) =>
    if nodes.tagAt k == .value then nodes.modify k (Node.withTag .text) else nodes) nodes

/-- How many entries with the merge key there are. -/
def mergeCount (nodes : Nodes) : Nat :=
  ((List.range nodes.size).flatMap nodes.entriesAt).countP fun (k, _) => nodes.tagAt k == .merge

/-- The first entry with the merge key, without it, and the entries that are left. -/
def firstMerge? (nodes : Nodes) (entries : List (Nat × Nat)) : Option (Nat × List (Nat × Nat)) :=
  match entries.span fun (k, _) => nodes.tagAt k != .merge with
  | (before, (_, source) :: behind) => some (source, before ++ behind)
  | (_, []) => none

/-- Steps that change nodes. -/
abbrev Change := StateT Nodes (Except Error)

/-- The mappings that a source is made of, last first: of several mappings the first counts most. -/
def sources (nodes : Nodes) (source : Nat) : Except Error (List Nat) :=
  match nodes.at? source with
  | some (.mapping _ _) => .ok [source]
  | some (.sequence _ items) => .ok items.reverse
  | _ => .error .malformed

/-- Something that entries are taken from has to be a mapping. -/
def requireMapping (nodes : Nodes) (i : Nat) : Except Error Unit :=
  match nodes.at? i with
  | some (.mapping _ _) => .ok ()
  | _ => .error .malformed

/-- Merges the entries of a mapping, given a bound on the entries with the merge key. -/
def mergeFrom : Nat → Nat → Change Unit
  | 0, _ => return
  | count + 1, i => do
    let nodes ← get
    match nodes.firstMerge? (nodes.entriesAt i) with
    | none => modify fun nodes => nodes.markTexts (nodes.entriesAt i)
    | some (source, left) =>
      set (nodes.setEntries i left)
      let from? ← nodes.sources source
      from?.reverse.forM fun j => do
        requireMapping (← get) j
        mergeFrom count j
      let taken := from?.flatMap (← get).entriesAt
      mergeFrom count i
      modify fun nodes => nodes.setEntries i (taken ++ nodes.entriesAt i)

/-- The nodes once the entries of a mapping are merged, given a bound on the entries with the merge
    key. -/
def merge (nodes : Nodes) (count i : Nat) : Except Error Nodes := do
  let (_, nodes) ← (mergeFrom (count + 1) i).run nodes
  return nodes

end Nodes

end AnnotationOrder.Yaml
