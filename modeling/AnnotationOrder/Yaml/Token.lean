/-
  Tokens of a YAML text.

  The list of tokens ends where the text does.  Mappings and sequences written by
  indentation are bracketed by tokens of their own.
-/
namespace AnnotationOrder.Yaml

/-- A token. -/
inductive Token
  /-- The version directive, with its major number. -/
  | versionDirective (major : Nat)
  /-- A tag directive: a handle and the text it stands for. -/
  | tagDirective (handle expansion : String)
  | otherDirective
  | documentStart
  | documentEnd
  | blockSequenceStart
  | blockMappingStart
  | blockEnd
  | flowSequenceStart
  | flowSequenceEnd
  | flowMappingStart
  | flowMappingEnd
  | blockEntry
  | flowEntry
  | key
  | value
  | alias (name : String)
  | anchor (name : String)
  /-- A tag: its handle, unless it is written out, and the rest. -/
  | tag (handle : Option String) (suffix : String)
  /-- A scalar, and whether it is written without quotes or indicator. -/
  | scalar (plain : Bool) (text : String)
  deriving DecidableEq, Repr, Inhabited

end AnnotationOrder.Yaml
