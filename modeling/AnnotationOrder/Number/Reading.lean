/-
  Numbers read from text.

  Blanks around a number are ignored and the digits of every script count, as
  long as the text has a character beyond ASCII; in an ASCII text only the ASCII
  blanks are ignored.

  * `readInteger`: an integer in a given base, with an optional sign and the
    base's own mark (`0x`, `0o`, `0b`) in front;
  * `readDecimal`: a decimal number with an optional fraction and exponent, or
    the name of an infinity or of no number.
-/
import AnnotationOrder.Number.Binary64
import AnnotationOrder.Text.Blank
import AnnotationOrder.Text.Digit

namespace AnnotationOrder.Number

open Text

/-- Why a text is not an integer. -/
inductive IntegerError
  /-- The text is not a numeral of the base. -/
  | notNumeral
  /-- The numeral is longer than the limit on decimal numerals. -/
  | tooLong (digits : Nat)
  deriving DecidableEq, Repr

/-- The limit on the digits of a decimal numeral that is read or written. -/
def digitLimit : Nat := 4300

/-- The decimal numeral of an integer is within the limit. -/
def isShort (n : Int) : Bool := n.natAbs < tenTo digitLimit

/-- A blank of ASCII. -/
def isAsciiBlank (c : Char) : Bool := c == ' ' || (9 ≤ c.toNat && c.toNat ≤ 13)

/-- The characters of a numeral: without the blanks around it, digits of every script turned into
    those of ASCII. -/
def numeralChars (s : String) : List Char :=
  let cs := s.toList
  if cs.all (·.toNat < 0x80) then trimBlanks isAsciiBlank cs
  else (trimBlanks isBlank cs).map fun c => ((digitValue? c).map (Char.ofNat <| 48 + ·)).getD c

/-- A sign in front, and the rest. -/
def takeSign : List Char → Bool × List Char
  | '-' :: cs => (true, cs)
  | '+' :: cs => (false, cs)
  | cs => (false, cs)

/-- The value of the characters as digits of a base. -/
def digitsValue? (base : Nat) (cs : List Char) : Option Nat :=
  if cs.isEmpty then none
  else cs.foldl (fun acc c => do
    let n ← acc
    let d ← hexValue? c
    if d < base then some (n * base + d) else none) (some 0)

/-- The letter that marks a base, after a zero. -/
def baseMark : Nat → List Char
  | 2 => ['b', 'B']
  | 8 => ['o', 'O']
  | 16 => ['x', 'X']
  | _ => []

/-- The numeral without the mark of its base. -/
def dropBaseMark (base : Nat) : List Char → List Char
  | '0' :: c :: cs => if (baseMark base).contains c then cs else '0' :: c :: cs
  | cs => cs

/-- The integer that a text writes in a base.  Too many digits are a fault even if something else
    follows them. -/
def readInteger (base : Nat) (s : String) : Except IntegerError Int :=
  let (negative, cs) := takeSign (numeralChars s)
  let cs := dropBaseMark base cs
  let count := (cs.takeWhile isAsciiDigit).length
  if base = 10 && digitLimit < count then .error (.tooLong count)
  else match digitsValue? base cs with
    | none => .error .notNumeral
    | some n => .ok (if negative then -(n : Int) else n)

/-- The digits in front, and the rest. -/
def takeDigits (cs : List Char) : List Char × List Char := cs.span isAsciiDigit

/-- The value of digits; none at all count as zero. -/
def digitsValue (cs : List Char) : Nat := cs.foldl (fun n c => n * 10 + (c.toNat - 48)) 0

/-- The exponent that ends a decimal number. -/
def readExponent : List Char → Option Int
  | [] => some 0
  | c :: cs =>
    if c = 'e' || c = 'E' then
      let (negative, cs) := takeSign cs
      match takeDigits cs with
      | (d :: ds, []) =>
        let n := digitsValue (d :: ds)
        some (if negative then -(n : Int) else n)
      | _ => none
    else none

/-- The number nearest to `n · 10 ^ e`.  Exponents out of range need no large power. -/
def ofScientific (negative : Bool) (n : Nat) (e : Int) : Binary64 :=
  if n = 0 then .finite negative 0 (-1074)
  else
    let size := e + (Nat.toDigits 10 n).length
    if 320 < size then .infinite negative
    else if size < -340 then .finite negative 0 (-1074)
    else if 0 ≤ e then .ofRatio negative (n * tenTo e.toNat) 1
    else .ofRatio negative n (tenTo (-e).toNat)

/-- The number that a decimal text writes. -/
def readDecimal (s : String) : Option Binary64 :=
  let (negative, cs) := takeSign (numeralChars s)
  let lower := String.ofList (cs.map Char.toLower)
  if lower = "inf" || lower = "infinity" then some (.infinite negative)
  else if lower = "nan" then some .nan
  else
    let (whole, rest) := takeDigits cs
    let (part, rest) := match rest with
      | '.' :: rest => takeDigits rest
      | rest => ([], rest)
    if whole.isEmpty && part.isEmpty then none
    else do
      let e ← readExponent rest
      return ofScientific negative (digitsValue (whole ++ part)) (e - part.length)

end AnnotationOrder.Number
