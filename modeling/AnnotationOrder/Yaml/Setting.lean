/-
  The setting in which a YAML text is read.

  What is read may depend on more than the text.  Collections are read, and shown, by
  calls inside each other, and the room for these is what the calls around them leave: it
  is not the same for all callers.  And a set is shown in an order of its own, which
  need not be that of its text.
-/
import AnnotationOrder.Document.Atom

namespace AnnotationOrder.Yaml

/-- The setting in which a text is read. -/
structure Setting where
  /-- How many collections there may be around a node. -/
  nesting : Nat := 487
  /-- How many values more than two may be shown one inside the other. -/
  showing : Nat := 983
  /-- The order in which a set is shown, of the one in which its members were written. -/
  setOrder : List Document.Atom → List Document.Atom := id

instance : Inhabited Setting := ⟨{}⟩

end AnnotationOrder.Yaml
