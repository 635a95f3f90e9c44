/-
  UTF-8.

  A lead byte says how many bytes follow and in which range the first of them
  lies; the others are plain continuation bytes.  Strict decoding stops at the
  first fault, which names the bytes it covers; the other way of decoding puts a
  character of its own in place of the bytes of a fault.

  * `encode`: the bytes of a text;
  * `decode`, `decodeReplacing`: a whole text at once, in both ways;
  * `State.run`, `State.rebase`: a text read in blocks, where the positions in an
    error count from the bytes left over from the block before.
-/
import AnnotationOrder.Text.Digit

namespace AnnotationOrder.Text.Utf8

/-- The bytes of a text. -/
def encode (cs : List Char) : List UInt8 := cs.flatMap String.utf8EncodeChar

/-- What is wrong with bytes. -/
inductive Fault
  | start
  | continuation
  | unfinished
  deriving DecidableEq, Repr

/-- Bytes that are not UTF-8: `size` bytes at `position`, the first of them `byte`. -/
structure DecodeError where
  byte : UInt8
  position : Nat
  size : Nat
  fault : Fault
  deriving DecidableEq, Repr

/-- The text of a decoding error. -/
def DecodeError.message (e : DecodeError) : String :=
  let place :=
    if e.size = 1 then
      "byte 0x" ++ hexDigits 2 e.byte.toNat ++ " in position " ++ toString e.position
    else "bytes in position " ++ toString e.position ++ "-" ++ toString (e.position + e.size - 1)
  let reason := match e.fault with
    | .start => "invalid start byte"
    | .continuation => "invalid continuation byte"
    | .unfinished => "unexpected end of data"
  "'utf-8' codec can't decode " ++ place ++ ": " ++ reason

/-- How many bytes follow a lead byte, and the range of the first of them. -/
def tails? (b : UInt8) : Option (Nat × UInt8 × UInt8) :=
  if b < 0x80 then some (0, 0x80, 0xbf)
  else if b < 0xc2 then none
  else if b < 0xe0 then some (1, 0x80, 0xbf)
  else if b = 0xe0 then some (2, 0xa0, 0xbf)
  else if b = 0xed then some (2, 0x80, 0x9f)
  else if b < 0xf0 then some (2, 0x80, 0xbf)
  else if b = 0xf0 then some (3, 0x90, 0xbf)
  else if b < 0xf4 then some (3, 0x80, 0xbf)
  else if b = 0xf4 then some (3, 0x80, 0x8f)
  else none

/-- The bits of a lead byte that belong to the code point. -/
def leadBits (b : UInt8) : Nat → Nat
  | 0 => b.toNat
  | 1 => b.toNat - 0xc0
  | 2 => b.toNat - 0xe0
  | _ => b.toNat - 0xf0

/-- A character being read. -/
structure Pending where
  lead : UInt8
  /-- The bytes of the character read so far. -/
  size : Nat
  /-- The bytes still to come. -/
  owed : Nat
  /-- The range of the next byte. -/
  lo : UInt8
  hi : UInt8
  bits : Nat
  deriving Repr

/-- Where decoding stands: the position of the next byte, the characters so far in reverse, and
    the character being read. -/
structure State where
  position : Nat := 0
  chars : List Char := []
  pending : Option Pending := none

/-- Reads one byte. -/
def State.step (s : State) (b : UInt8) : Except DecodeError State :=
  match s.pending with
  | none =>
    match tails? b with
    | none => .error ⟨b, s.position, 1, .start⟩
    | some (0, _, _) =>
      .ok { s with position := s.position + 1, chars := Char.ofNat b.toNat :: s.chars }
    | some (n, lo, hi) =>
      .ok { s with position := s.position + 1, pending := some ⟨b, 1, n, lo, hi, leadBits b n⟩ }
  | some p =>
    if p.lo ≤ b && b ≤ p.hi then
      let bits := p.bits * 64 + (b.toNat - 0x80)
      if p.owed = 1 then
        .ok ⟨s.position + 1, Char.ofNat bits :: s.chars, none⟩
      else
        .ok { s with
          position := s.position + 1
          pending := some ⟨p.lead, p.size + 1, p.owed - 1, 0x80, 0xbf, bits⟩ }
    else .error ⟨p.lead, s.position - p.size, p.size, .continuation⟩

/-- Reads bytes one after the other. -/
def State.run (s : State) : List UInt8 → Except DecodeError State
  | [] => .ok s
  | b :: bs =>
    match s.step b with
    | .ok s => s.run bs
    | .error e => .error e

/-- The text, once all bytes are read. -/
def State.finish (s : State) : Except DecodeError String :=
  match s.pending with
  | none => .ok (String.ofList s.chars.reverse)
  | some p => .error ⟨p.lead, s.position - p.size, p.size, .unfinished⟩

/-- The text that bytes encode. -/
def decode (bytes : List UInt8) : Except DecodeError String := do
  let s ← State.run {} bytes
  s.finish

/-- What stands in place of bytes that encode nothing. -/
def replacement : Char := '\uFFFD'

/-- Reads one byte where faults are replaced.  A byte that does not go on with a character may begin
    another one. -/
def State.stepReplacing (s : State) (b : UInt8) : State :=
  match s.step b with
  | .ok s => s
  | .error _ =>
    let replaced : State := ⟨s.position, replacement :: s.chars, none⟩
    if s.pending.isNone then { replaced with position := s.position + 1 }
    else match replaced.step b with
      | .ok s => s
      | .error _ => ⟨s.position + 1, replacement :: replaced.chars, none⟩

/-- The characters that bytes encode, with faults replaced. -/
def decodeReplacing (bytes : List UInt8) : List Char :=
  let s := bytes.foldl State.stepReplacing {}
  (if s.pending.isSome then replacement :: s.chars else s.chars).reverse

/-- A new block begins: no characters yet, and positions count from the first byte of the character
    being read. -/
def State.rebase (s : State) : State :=
  { s with position := (s.pending.map (·.size)).getD 0, chars := [] }

end AnnotationOrder.Text.Utf8
