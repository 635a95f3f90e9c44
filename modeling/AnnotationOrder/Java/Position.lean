/-
  Places in the bytes of a Java source.

  Rows end at `\n` alone.  Places count the bytes of the source, and spans its
  characters.

  * `Position.after`: the place behind some characters;
  * `charColumn`: the characters of a row in front of a place.
-/
import AnnotationOrder.Text.Utf8

namespace AnnotationOrder.Java

open Text

/-- A place in a text: the row counts from zero; the column, in the row, and the offset, in the text,
    count bytes. -/
structure Position where
  row : Nat := 0
  column : Nat := 0
  offset : Nat := 0
  deriving DecidableEq, Repr, Inhabited

/-- The place behind a character. -/
def Position.next (p : Position) (c : Char) : Position :=
  let offset := p.offset + c.utf8Size
  if c == '\n' then ⟨p.row + 1, 0, offset⟩ else ⟨p.row, p.column + c.utf8Size, offset⟩

/-- The place behind some characters. -/
def Position.after (p : Position) (cs : List Char) : Position := cs.foldl Position.next p

/-- The column of a place in characters, for the bytes of the text. -/
def charColumn (source : List UInt8) (p : Position) : Nat :=
  let lineStart := p.offset - p.column
  (Utf8.decodeReplacing ((source.take p.offset).drop lineStart)).length

end AnnotationOrder.Java
