/-
  JSON texts.

  Collections that are not empty are written over several lines, two spaces deeper
  at each level.  Texts hold only visible characters of ASCII; all others are
  written as escapes, in two parts beyond the first plane.  What is no finite number
  is written, too, though it is no JSON.

  * `Json.toText`: a value as text;
  * `Json.isShort`: none of the integers of a value has too many digits to be written;
  * `escaped`: a text between quotes.
-/
import AnnotationOrder.Number.Reading
import AnnotationOrder.Number.Shortest

namespace AnnotationOrder.Report

open Number Text

/-- A JSON value. -/
inductive Json
  | null
  | integer (n : Int)
  | float (x : Binary64)
  | text (s : String)
  | list (items : List Json)
  | object (entries : List (String × Json))
  deriving Repr, Inhabited

/-! ## Texts -/

/-- A code unit as an escape. -/
def unitEscape (n : Nat) : List Char := '\\' :: 'u' :: (hexDigits 4 n).toList

/-- A character beyond the first plane as two code units. -/
def surrogates (n : Nat) : Nat × Nat :=
  (0xd800 + (n - 0x10000) / 0x400, 0xdc00 + (n - 0x10000) % 0x400)

/-- A character as it stands in a text. -/
def escapedChar (c : Char) : List Char :=
  if c == '"' || c == '\\' then ['\\', c]
  else if c == '\n' then ['\\', 'n']
  else if c == '\r' then ['\\', 'r']
  else if c == '\t' then ['\\', 't']
  else if c == '\x08' then ['\\', 'b']
  else if c == '\x0c' then ['\\', 'f']
  else if ' ' ≤ c && c ≤ '~' then [c]
  else if c.toNat < 0x10000 then unitEscape c.toNat
  else
    let (high, low) := surrogates c.toNat
    unitEscape high ++ unitEscape low

/-- A text between quotes. -/
def escaped (s : String) : List Char := '"' :: s.toList.flatMap escapedChar ++ ['"']

namespace Json

/-! ## Values -/

/-- The start of a line at a depth. -/
def newline (depth : Nat) : List Char := '\n' :: List.replicate (2 * depth) ' '

/-- The characters of a floating-point number. -/
def floatChars : Binary64 → List Char
  | .nan => "NaN".toList
  | .infinite negative => if negative then "-Infinity".toList else "Infinity".toList
  | x => x.text.toList

mutual

/-- The characters of a value at a depth. -/
def write (depth : Nat) : Json → List Char
  | null => "null".toList
  | integer n => (toString n).toList
  | float x => floatChars x
  | text s => escaped s
  | list [] => ['[', ']']
  | list (x :: xs) =>
    '[' :: newline (depth + 1) ++ write (depth + 1) x ++ writeItems (depth + 1) xs
      ++ newline depth ++ [']']
  | object [] => ['{', '}']
  | object ((k, x) :: xs) =>
    '{' :: newline (depth + 1) ++ escaped k ++ ':' :: ' ' :: write (depth + 1) x
      ++ writeEntries (depth + 1) xs ++ newline depth ++ ['}']

/-- The characters of further items. -/
def writeItems (depth : Nat) : List Json → List Char
  | [] => []
  | x :: xs => ',' :: newline depth ++ write depth x ++ writeItems depth xs

/-- The characters of further entries. -/
def writeEntries (depth : Nat) : List (String × Json) → List Char
  | [] => []
  | (k, x) :: xs =>
    ',' :: newline depth ++ escaped k ++ ':' :: ' ' :: write depth x ++ writeEntries depth xs

end

/-- A value as text. -/
def toText (j : Json) : String := String.ofList (write 0 j)

/-! ## Limits -/

mutual

/-- None of the integers of a value has too many digits. -/
def isShort : Json → Bool
  | null => true
  | integer n => Number.isShort n
  | float _ => true
  | text _ => true
  | list items => areShort items
  | object entries => areShortEntries entries

/-- None of the integers of some values has too many digits. -/
def areShort : List Json → Bool
  | [] => true
  | x :: xs => x.isShort && areShort xs

/-- None of the integers of some entries has too many digits. -/
def areShortEntries : List (String × Json) → Bool
  | [] => true
  | (_, x) :: xs => x.isShort && areShortEntries xs

end

end Json

end AnnotationOrder.Report
