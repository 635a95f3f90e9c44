/-
  Strings of a Java source, and the holes in them.

  A string between marks may have holes, `\{ … }`, that hold expressions, with
  strings of their own.  A reader of the source keeps a note of the string it is
  in, or of the holes it is inside of.

  * `Marks`: the marks around a string;
  * `pieceLength`: the stretch of a string up to its end or to its next hole;
  * `Mode`: the note, with `Mode.brace` for what a brace of an expression does to it.
-/
namespace AnnotationOrder.Java

/-- The marks around a string. -/
inductive Marks
  | single
  /-- The marks of a text block. -/
  | triple
  deriving DecidableEq, Repr, Inhabited

/-- The characters of the marks at either end. -/
def Marks.chars : Marks → List Char
  | single => ['"']
  | triple => ['"', '"', '"']

/-- The marks that a text begins with. -/
def Marks.at? (cs : List Char) : Option Marks :=
  [triple, single].find? fun m => m.chars.isPrefixOf cs

/-- What opens a hole. -/
def holeMark : List Char := ['\\', '\x7b']

/-- How far a string reaches, up to its end or to a hole, and whether a hole follows.  A backslash
    takes the character behind it along. -/
def pieceLength (m : Marks) : List Char → Nat × Bool
  | [] => (0, false)
  | '\\' :: c :: cs =>
    if c == '\x7b' then (0, true)
    else
      let (n, hole) := pieceLength m cs
      (n + 2, hole)
  | c :: cs =>
    if m.chars.isPrefixOf (c :: cs) then (m.chars.length, false)
    else
      let (n, hole) := pieceLength m cs
      (n + 1, hole)

/-- A hole that is open. -/
structure Hole where
  marks : Marks
  /-- How many braces are open inside it. -/
  braces : Nat := 0
  deriving DecidableEq, Repr, Inhabited

/-- Where a reader of a source is: the string that it is in, if any, and the holes that are open
    around it, innermost first. -/
structure Mode where
  string : Option Marks := none
  holes : List Hole := []
  deriving DecidableEq, Repr, Inhabited

namespace Mode

/-- Goes into a hole of a string. -/
def enter (mode : Mode) (m : Marks) : Mode := ⟨none, ⟨m, 0⟩ :: mode.holes⟩

/-- What a character of an expression does: the brace that closes a hole leads back to its
    string. -/
def brace (mode : Mode) (c : Char) : Mode :=
  match mode.holes with
  | [] => mode
  | h :: hs =>
    if c == '\x7b' then { mode with holes := { h with braces := h.braces + 1 } :: hs }
    else if c != '\x7d' then mode
    else if h.braces == 0 then ⟨some h.marks, hs⟩
    else { mode with holes := { h with braces := h.braces - 1 } :: hs }

/-- The closing brace of a hole leads back to the string around the hole. -/
theorem brace_enter (mode : Mode) (m : Marks) :
    (mode.enter m).brace '\x7d' = ⟨some m, mode.holes⟩ := rfl

end Mode

end AnnotationOrder.Java
