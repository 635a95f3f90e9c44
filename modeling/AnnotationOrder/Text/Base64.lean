/-
  Base 64 without strictness.

  Characters outside the alphabet are passed over.  Padding ends the data once
  it completes a group of four; a group left open at the end is a fault.

  * `decode?`: the bytes that a text encodes.
-/
namespace AnnotationOrder.Text.Base64

/-- The six bits of a character of the alphabet. -/
def bits? (c : Char) : Option Nat :=
  if 'A' ≤ c && c ≤ 'Z' then some (c.toNat - 65)
  else if 'a' ≤ c && c ≤ 'z' then some (c.toNat - 71)
  else if '0' ≤ c && c ≤ '9' then some (c.toNat + 4)
  else if c = '+' then some 62
  else if c = '/' then some 63
  else none

/-- The bytes of a text, given the bits of the current group, the number of its characters and
    of the padding characters seen in a row, and the bytes so far in reverse. -/
def decodeFrom (group count pads : Nat) (bytes : List UInt8) : List Char → Option (List UInt8)
  | [] => if count = 0 then some bytes.reverse else none
  | '=' :: cs =>
    if 2 ≤ count then
      if 4 ≤ count + pads + 1 then some bytes.reverse
      else decodeFrom group count (pads + 1) bytes cs
    else decodeFrom group count pads bytes cs
  | c :: cs =>
    match bits? c with
    | none => decodeFrom group count pads bytes cs
    | some b =>
      match count with
      | 0 => decodeFrom b 1 0 bytes cs
      | 1 => decodeFrom (b % 16) 2 0 (UInt8.ofNat (group * 4 + b / 16) :: bytes) cs
      | 2 => decodeFrom (b % 4) 3 0 (UInt8.ofNat (group * 16 + b / 4) :: bytes) cs
      | _ => decodeFrom 0 0 0 (UInt8.ofNat (group * 64 + b) :: bytes) cs

/-- The bytes that a text encodes. -/
def decode? (s : String) : Option (List UInt8) := decodeFrom 0 0 0 [] s.toList

end AnnotationOrder.Text.Base64
