/-
  Texts and bytes in quotes, as they are shown inside messages.

  The quote is `'`, unless the text has a `'` and no `"`.  The quote itself and
  the backslash are escaped, tabs and line ends are written `\t`, `\n`, `\r`, and
  characters that are not printable by their code point.

  * `quoted`: a text in quotes;
  * `quotedBytes`: bytes in quotes, marked by a leading `b`.
-/
import AnnotationOrder.Text.Digit
import AnnotationOrder.Text.Printable

namespace AnnotationOrder.Text

/-- The quote for a text. -/
def quoteFor (cs : List Char) : Char :=
  if cs.contains '\'' && !cs.contains '"' then '"' else '\''

/-- A code point as an escape of the shortest of the three widths. -/
def escapeCode (n : Nat) : String :=
  if n < 0x100 then "\\x" ++ hexDigits 2 n
  else if n < 0x10000 then "\\u" ++ hexDigits 4 n
  else "\\U" ++ hexDigits 8 n

/-- A character as it is shown between quotes. -/
def escapeChar (quote : Char) (c : Char) : String :=
  if c = quote || c = '\\' then "\\" ++ c.toString
  else if c = '\t' then "\\t"
  else if c = '\n' then "\\n"
  else if c = '\r' then "\\r"
  else if isPrintable c then c.toString
  else escapeCode c.toNat

/-- A text in quotes. -/
def quoted (s : String) : String :=
  let cs := s.toList
  let quote := quoteFor cs
  quote.toString ++ String.join (cs.map (escapeChar quote)) ++ quote.toString

/-- A byte as it is shown between quotes: as the ASCII character it stands for, or by its value. -/
def escapeByte (quote : Char) (b : UInt8) : String :=
  if b.toNat < 0x80 then escapeChar quote (Char.ofNat b.toNat) else "\\x" ++ hexDigits 2 b.toNat

/-- Bytes in quotes. -/
def quotedBytes (bs : List UInt8) : String :=
  let quote := quoteFor (bs.map fun b => Char.ofNat b.toNat)
  "b" ++ quote.toString ++ String.join (bs.map (escapeByte quote)) ++ quote.toString

end AnnotationOrder.Text
