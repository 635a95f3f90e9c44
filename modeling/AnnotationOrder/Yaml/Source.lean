/-
  The characters of a YAML text, as far as they can be read.

  A text is read in pieces, and a fault in a piece shows when the first character
  of the piece is looked at: bytes that are no text, or a character that may not
  stand there.

  * `Source.ofBytes`: the characters in front of the first such piece, and its
    fault.
-/
import AnnotationOrder.Text.Feed
import AnnotationOrder.Yaml.Error

namespace AnnotationOrder.Yaml

open Text

/-- A character that may stand in a text. -/
def isAllowed (c : Char) : Bool :=
  let n := c.toNat
  n == 9 || n == 10 || n == 13 || (0x20 ≤ n && n ≤ 0x7e) || n == 0x85
    || (0xa0 ≤ n && n ≤ 0xd7ff) || (0xe000 ≤ n && n ≤ 0xfffd) || 0x10000 ≤ n

/-- The characters of a text. -/
structure Source where
  chars : List Char
  /-- The fault that comes behind the characters; if there is none, the text ends there. -/
  fault : Option Error := none
  deriving Repr

/-- The size of a piece. -/
def pieceSize : Nat := 4096

namespace Source

/-- Pieces of a text that are looked at together, and whether the last one is empty. -/
def pieces (f : Feed) : Nat → Except Utf8.DecodeError (List Char × Bool × Feed)
  | 0 => .ok ([], false, f)
  | 1 => do
    let (cs, f) ← f.read pieceSize
    return (cs, cs.isEmpty, f)
  | n + 1 => do
    let (cs, f) ← f.read pieceSize
    let (more, ended, f) ← pieces f n
    return (cs ++ more, ended, f)

/-- The source that starts with a number of pieces, given a bound on the steps to its end. -/
def ofFeed (count : Nat) (f : Feed) : Nat → Source
  | 0 => { chars := [] }
  | fuel + 1 =>
    match pieces f count with
    | .error e => { chars := [], fault := some (.decode e) }
    | .ok (cs, ended, f) =>
      if !cs.all isAllowed then { chars := [], fault := some .malformed }
      else if ended then { chars := cs }
      else
        let rest := ofFeed 1 f fuel
        { rest with chars := cs ++ rest.chars }

/-- The source that bytes encode.  The first two pieces are looked at together. -/
def ofBytes (bytes : List UInt8) : Source := ofFeed 2 { bytes } (bytes.length + 2)

end Source

end AnnotationOrder.Yaml
