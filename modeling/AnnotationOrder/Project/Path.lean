/-
  Paths and the places they name.

  A path is a list of names, from the root or from the current directory.  Empty
  names and `.` say nothing and are dropped; `..` stays, as it can only be
  followed in a tree.  Two slashes in front stay two in the text of a path, and
  are the root like one.  A location is the list of names that leads from the root
  to an entry.

  A path is resolved by its text: as trees have no symbolic links, `..` takes back
  the name before it, and resolving cannot fail.

  * `Path.ofText`, `Path.text`: paths and their texts;
  * `Path.location`: where a path leads, going up at every `..`;
  * `Path.shown`: a path relative to a project, as reports show it.
-/
import AnnotationOrder.Text.Affix

namespace AnnotationOrder.Project

open Text

/-! ## Locations -/

/-- The names from the root to an entry. -/
abbrev Location := List String

/-- A name that says nothing. -/
def isIdle (name : String) : Bool := name.isEmpty || name == "."

/-- A name that an entry can have: it leads on, and down. -/
def isProper (name : String) : Bool := !isIdle name && name != ".."

namespace Location

/-- The text of a location relative to another one. -/
def relativeText (l : Location) : String := if l.isEmpty then "." else "/".intercalate l

/-- What leads from a base to a location below it. -/
def below? (base l : Location) : Option Location :=
  if base.isPrefixOf l then some (l.drop base.length) else none

/-- Where a name leads: `..` leads up, and stays at the root. -/
def step (l : Location) (name : String) : Location :=
  if isIdle name then l else if name = ".." then l.dropLast else l ++ [name]

theorem below?_eq_some {base l r : Location} : below? base l = some r ↔ l = base ++ r := by
  unfold below?
  split
  · rename_i h
    obtain ⟨t, rfl⟩ := List.isPrefixOf_iff_prefix.1 h
    simp [eq_comm]
  · rename_i h
    constructor
    · intro h'; cases h'
    · rintro rfl
      exact absurd (List.isPrefixOf_iff_prefix.2 (List.prefix_append base r)) h

end Location

/-! ## Paths -/

/-- Where a path starts. -/
inductive Anchor
  | current
  | root
  /-- The root, written as two slashes. -/
  | doubleRoot
  deriving DecidableEq, Repr, Inhabited

namespace Anchor

/-- The anchor of a text, by the slashes that it begins with: more than two are like one. -/
def ofText (s : String) : Anchor :=
  match (s.toList.takeWhile (· == '/')).length with
  | 0 => current
  | 2 => doubleRoot
  | _ => root

/-- The text of an anchor. -/
def text : Anchor → String
  | current => ""
  | root => "/"
  | doubleRoot => "//"

end Anchor

/-- A path. -/
structure Path where
  anchor : Anchor
  names : List String
  deriving DecidableEq, Repr, Inhabited

namespace Path

/-- What stands between the slashes of a text, given the current name in reverse. -/
def piecesFrom (current : List Char) : List Char → List String
  | [] => [String.ofList current.reverse]
  | c :: cs =>
    if c = '/' then String.ofList current.reverse :: piecesFrom [] cs
    else piecesFrom (c :: current) cs

/-- What stands between the slashes of a text. -/
def pieces (s : String) : List String := piecesFrom [] s.toList

/-- The path that a text describes. -/
def ofText (s : String) : Path := ⟨.ofText s, (pieces s).filter (!isIdle ·)⟩

/-- The text of a path. -/
def text (p : Path) : String :=
  if p.anchor = .current then Location.relativeText p.names
  else p.anchor.text ++ "/".intercalate p.names

/-- The last name of a path, empty if there is none. -/
def name (p : Path) : String := p.names.getLastD ""

/-- The path that leads on along names. -/
def append (p : Path) (names : List String) : Path := ⟨p.anchor, p.names ++ names⟩

/-- The path to a location. -/
def ofLocation (l : Location) : Path := ⟨.root, l⟩

/-- The location that a path starts from. -/
def start (current : Location) (p : Path) : Location :=
  if p.anchor = .current then current else []

/-- Where a path leads from the current directory, whatever there is on the way. -/
def location (current : Location) (p : Path) : Location :=
  p.names.foldl Location.step (p.start current)

/-- A path as reports show it: relative to the project, if it leads into it. -/
def shown (current : Location) (project p : Path) : String :=
  match Location.below? (project.location current) (p.location current) with
  | some l => l.relativeText
  | none => p.text

end Path

/-! ## Java sources -/

/-- The ending of the names of sources. -/
def sourceEnding : String := ".java"

/-- Whether a name has the ending of sources. -/
def endsAsSource (name : String) : Bool := ends sourceEnding name

/-- Whether a path is named as a source: something has to stand in front of the ending. -/
def Path.isSource (p : Path) : Bool := endsAsSource p.name && p.name != sourceEnding

end AnnotationOrder.Project
