/-
  Configuration documents.

  A collection may be a part of several others, and even of itself, so a document
  is a table of collections, and their parts are atoms or places in this table.
  Mappings keep the order in which keys were first written.

  * `Document.items?`, `Document.entries?`: the parts of a value that is a list or
    a mapping;
  * `Document.text`: a value as text, where it has one; `Document.shownInside`: as it is
    shown inside collections, where one that is being shown is left out.
-/
import AnnotationOrder.Document.Atom

namespace AnnotationOrder

namespace Document

/-- A value: an atom, or the collection at a place. -/
inductive Value
  | atom (a : Atom)
  | collection (place : Nat)
  deriving DecidableEq, Repr, Inhabited

/-- The entries of a mapping. -/
abbrev Entries := List (Atom × Value)

/-- A collection of values. -/
inductive Collection
  | list (items : List Value)
  | pair (first second : Value)
  | mapping (entries : Entries)
  /-- The members in the order in which they are shown. -/
  | set (members : List Atom)
  deriving Repr, Inhabited

end Document

/-- A document: its value, and the collections that it is made of. -/
structure Document where
  root : Document.Value
  collections : Array Document.Collection := #[]
  /-- How many values more than two may be shown one inside the other.  It depends on the room that is
      left where a text is asked for. -/
  room : Nat := 983
  deriving Repr, Inhabited

namespace Document

/-- The value that a mapping has at a text key. -/
def Entries.get? (entries : Entries) (key : String) : Option Value :=
  (entries.find? fun e => e.1 == .text key).map (·.2)

/-! ## Parts -/

/-- The collection that a value is. -/
def collection? (d : Document) : Value → Option Collection
  | .atom _ => none
  | .collection place => d.collections[place]?

/-- The items of a value that is a list. -/
def items? (d : Document) (v : Value) : Option (List Value) :=
  match d.collection? v with
  | some (.list items) => some items
  | _ => none

/-- The entries of a value that is a mapping. -/
def entries? (d : Document) (v : Value) : Option Entries :=
  match d.collection? v with
  | some (.mapping entries) => some entries
  | _ => none

/-- The value is a list with just these items. -/
theorem items?_eq_some {d : Document} {v : Value} {items : List Value} :
    d.items? v = some items ↔ d.collection? v = some (.list items) := by
  unfold items?
  split <;> simp_all

/-- The value is a mapping with just these entries. -/
theorem entries?_eq_some {d : Document} {v : Value} {entries : Entries} :
    d.entries? v = some entries ↔ d.collection? v = some (.mapping entries) := by
  unfold entries?
  split <;> simp_all

/-! ## Text -/

/-- Why a value has no text. -/
inductive TextError
  /-- An integer in it has too many digits to be written out. -/
  | tooLong
  /-- It is nested too deeply. -/
  | tooDeep
  deriving DecidableEq, Repr

/-- What is said of a value with an integer that is too long to be written out. -/
def tooLongText : String :=
  "Exceeds the limit (" ++ toString Number.digitLimit ++ " digits) for integer string conversion; "
    ++ "use sys.set_int_max_str_digits() to increase the limit"

/-- The text of a text error, where it has one. -/
def TextError.message : TextError → Option String
  | tooLong => some tooLongText
  | tooDeep => none

/-- What an atom is written as, unless it is too long. -/
def written : Option String → Except TextError String
  | some s => .ok s
  | none => .error .tooLong

/-- A collection in curly brackets, given how its parts are shown. -/
def braced (shown : List String) : String := "\x7b" ++ ", ".intercalate shown ++ "\x7d"

/-- What stands for a collection inside itself. -/
def Collection.ellipsis : Collection → String
  | list _ => "[...]"
  | pair _ _ => "(...)"
  | mapping _ => "\x7b...\x7d"
  | set _ => "set(...)"

/-- A collection as it is shown, given how values are shown inside it. -/
def Collection.shownBy (shown : Value → Except TextError String) :
    Collection → Except TextError String
  | list items => do return listed (← items.mapM shown)
  | pair a b => do return "(" ++ (← shown a) ++ ", " ++ (← shown b) ++ ")"
  | mapping entries => do
    return braced (← entries.mapM fun e => do return (← shown (.atom e.1)) ++ ": " ++ (← shown e.2))
  | set [] => .ok "set()"
  | set members => do return braced (← members.mapM fun a => shown (.atom a))

/-- A value as it is shown inside the collections at some places, given how many more values there may
    be one inside the other. -/
def shownInside (d : Document) : Nat → List Nat → Value → Except TextError String
  | 0, _, _ => .error .tooDeep
  | _ + 1, _, .atom a => written a.shown?
  | depth + 1, around, .collection place =>
    let c := d.collections.getD place default
    if around.contains place then .ok c.ellipsis
    else c.shownBy fun v => d.shownInside depth (place :: around) v

/-- A value as text. -/
def text (d : Document) : Value → Except TextError String
  | .atom a => written a.text?
  | v => d.shownInside (d.room + 2) [] v

end Document

end AnnotationOrder
