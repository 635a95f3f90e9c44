/-
  Encoded text that is read piece by piece.

  The bytes are decoded in blocks, and a block only when more characters are
  asked for than are ready.  Every kind of line end becomes `\n`; a `\r` at the
  end of a block waits, since a `\n` behind it belongs to it.

  * `Feed.read`: a number of characters, or those that are left, or the fault of
    the block in which they should be.
-/
import AnnotationOrder.Text.Lines
import AnnotationOrder.Text.Utf8

namespace AnnotationOrder.Text

open Utf8 (DecodeError)

/-- The least size of a block. -/
def blockSize : Nat := 8192

/-- What is known behind the blocks that have been decoded. -/
structure Decoding where
  decoder : Utf8.State := {}
  /-- A `\r` waits for what comes behind it. -/
  held : Bool := false
  /-- Characters that have not been asked for. -/
  ready : List Char := []
  /-- How many bytes the last block had. -/
  lastBytes : Nat := 0
  /-- How many characters the last block had. -/
  lastChars : Nat := 0

namespace Decoding

/-- The size of the next block when a number of characters is wanted: large enough for them, if they
    take as many bytes as those of the last block. -/
def nextSize (d : Decoding) (wanted : Nat) : Nat :=
  max blockSize (d.lastBytes * wanted / d.lastChars)

/-- Decodes a block, when no characters are ready. -/
def block (d : Decoding) (bytes : List UInt8) : Except DecodeError Decoding := do
  let s ← d.decoder.rebase.run bytes
  let new := s.chars.reverse
  let all := if d.held && !new.isEmpty then '\r' :: new else new
  let held := if all.isEmpty then d.held else all.getLast? == some '\r'
  let ready := unifyNewlinesFrom false (if all.getLast? == some '\r' then all.dropLast else all)
  return ⟨s, held, ready, bytes.length, ready.length⟩

/-- What is left at the end of the bytes. -/
def finish (d : Decoding) : Except DecodeError (List Char) := do
  let _ ← d.decoder.rebase.finish
  return if d.held then ['\n'] else []

end Decoding

/-- Encoded text that has been read up to some place. -/
structure Feed where
  bytes : List UInt8
  decoding : Decoding := {}

/-- Characters from bytes behind those that have been decoded. -/
def readFrom (wanted : Nat) (d : Decoding) (bytes : List UInt8) :
    Except DecodeError (List Char × Feed) :=
  let got := d.ready.take wanted
  if got.length = wanted then .ok (got, ⟨bytes, { d with ready := d.ready.drop wanted }⟩)
  else
    let wanted := wanted - got.length
    match bytes with
    | [] => do return (got ++ (← d.finish), ⟨[], { d with ready := [], held := false }⟩)
    | b :: bs => do
      let n := d.nextSize wanted - 1
      let d ← d.block (b :: bs.take n)
      let (more, f) ← readFrom wanted d (bs.drop n)
      return (got ++ more, f)
termination_by bytes.length
decreasing_by simp only [List.length_drop, List.length_cons]; omega

/-- The next characters: as many as wanted, unless the text ends before. -/
def Feed.read (f : Feed) (wanted : Nat) : Except DecodeError (List Char × Feed) :=
  readFrom wanted f.decoding f.bytes

end AnnotationOrder.Text
