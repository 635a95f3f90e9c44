/-
  The values that scalars write.

  Underscores in numbers do not count.  A number with colons is written in base
  sixty; an integer that starts with a zero is written in base eight unless a
  letter says otherwise.  What is no number is told apart by the scalar that says
  so, except that all of the plain form are one.

  * `Tag.read`: the value of a text, read as a tag says.
-/
import AnnotationOrder.Document.Atom
import AnnotationOrder.Text.Affix
import AnnotationOrder.Text.Base64
import AnnotationOrder.Text.Lowercase
import AnnotationOrder.Yaml.Error
import AnnotationOrder.Yaml.Tag

namespace AnnotationOrder.Yaml

open Document Number Text

/-! ## Numbers -/

/-- A sign in front of a number, and the rest; there has to be something to look at. -/
def takeNumberSign (cs : List Char) : Except ScalarError (Bool × List Char) :=
  match cs with
  | [] => .error .emptyNumber
  | '-' :: cs => .ok (true, cs)
  | '+' :: cs => .ok (false, cs)
  | cs => .ok (false, cs)

/-- An integer in a base. -/
def readBase (base : Nat) (cs : List Char) : Except ScalarError Int :=
  let s := String.ofList cs
  (readInteger base s).mapError (.integer base s)

/-- The parts between colons, each read as an integer. -/
def readIntParts (cs : List Char) : Except ScalarError (List Int) :=
  (Tag.colonParts [] cs).mapM (readBase 10)

/-- The integer that characters without a sign write. -/
def readUnsigned (cs : List Char) : Except ScalarError Int :=
  match cs with
  | [] => .error .emptyNumber
  | ['0'] => .ok 0
  | '0' :: 'b' :: ds => readBase 2 ds
  | '0' :: 'x' :: ds => readBase 16 ds
  | '0' :: _ => readBase 8 cs
  | _ =>
    if cs.contains ':' then do return (← readIntParts cs).foldl (fun n d => n * 60 + d) 0
    else readBase 10 cs

/-- The integer that a text writes. -/
def readInt (s : String) : Except ScalarError Int := do
  let (negative, cs) ← takeNumberSign (s.toList.filter (· != '_'))
  let n ← readUnsigned cs
  return if negative then -n else n

/-- A decimal number. -/
def readPlainFloat (cs : List Char) : Except ScalarError Binary64 :=
  let s := String.ofList cs
  match readDecimal s with
  | some x => .ok x
  | none => .error (.decimal s)

/-- The value of digits of base sixty, least first, given the sum so far and the weight of the first
    digit.  The weight has to be in the range of the numbers. -/
def sixtySum (sum : Binary64) (weight : Nat) : List Binary64 → Except ScalarError Binary64
  | [] => .ok sum
  | d :: ds =>
    if Binary64.ofRatio false weight 1 = .infinite false then .error .sixtyRange
    else sixtySum (sum.add (d.scale weight)) (weight * 60) ds

/-- The number that characters without a sign write. -/
def readUnsignedFloat (cs : List Char) : Except ScalarError Binary64 :=
  if cs == ".inf".toList then .ok (.infinite false)
  else if cs.contains ':' then do
    sixtySum .zero 1 (← (Tag.colonParts [] cs).mapM readPlainFloat).reverse
  else readPlainFloat cs

/-- The origin of what is no number, if it is written in the plain form. -/
def commonOrigin : Nat := 0

/-- The number that a text writes, or the origin of what is no number. -/
def readFloat (origin : Nat) (s : String) : Except ScalarError Atom := do
  let bare := String.ofList (s.toList.filter (· != '_'))
  let (negative, cs) ← takeNumberSign (lower bare).toList
  if cs == ".nan".toList then return .nan commonOrigin
  match ← readUnsignedFloat cs with
  | .nan => return .nan origin
  | x => return .float (if negative then x.neg else x)

/-! ## Timestamps -/

/-- The value of digits. -/
def digits (cs : List Char) : Nat := digitsValue cs

/-- The first six digits of a fraction, as microseconds. -/
def microseconds (fraction : List Char) : Nat :=
  let ds := fraction.take 6
  digits (ds ++ List.replicate (6 - ds.length) '0')

/-- An offset from universal time, in seconds. -/
def zoneOffset : Tag.Zone → Except CalendarError Int
  | .universal => .ok 0
  | .offset negative hours minutes =>
    let n : Int := digits hours * 3600 + digits minutes * 60
    let seconds := if negative then -n else n
    if 86400 ≤ n then .error (.offset seconds) else .ok seconds

/-- The date or moment that the fields of a timestamp say. -/
def stampAtom (s : Tag.Stamp) : Except CalendarError Atom := do
  match s.time with
  | none => return .date (← Date.make (digits s.year) (digits s.month) (digits s.day))
  | some (hour, minute, second, fraction) =>
    let offset ← s.zone.mapM zoneOffset
    let date ← Date.make (digits s.year) (digits s.month) (digits s.day)
    return .moment
      (← Moment.make date (digits hour) (digits minute) (digits second)
        (microseconds fraction) offset)

/-- The date or moment that a text writes. -/
def readTimestamp (s : String) : Except ScalarError Atom :=
  match Tag.stamp? (Tag.dropLastBreak s.toList) with
  | none => .error .timestamp
  | some stamp => (stampAtom stamp).mapError .calendar

/-! ## Scalars -/

/-- The truth value that a word says, in small or large letters. -/
def readBool (s : String) : Except ScalarError Bool :=
  match Tag.boolWords.lookup (lower s) with
  | some b => .ok b
  | none => .error .truthValue

/-- The bytes that a text encodes in base 64. -/
def readBinary (s : String) : Except Error (List UInt8) :=
  if s.toList.all (·.toNat < 0x80) then
    match Base64.decode? s with
    | some bytes => .ok bytes
    | none => .error .malformed
  else .error .malformed

/-- The value of the text of a scalar that has a number, read as a tag says. -/
def Tag.read (tag : Tag) (number : Nat) (s : String) : Except Error Atom :=
  match tag with
  | .null => .ok .null
  | .bool => (readBool s).mapError .scalar |>.map .bool
  | .int => (readInt s).mapError .scalar |>.map .int
  | .float => (readFloat (number + 1) s).mapError .scalar
  | .text => .ok (.text s)
  | .binary => (readBinary s).map .bytes
  | .timestamp => (readTimestamp s).mapError .scalar
  | _ => .error .malformed

end AnnotationOrder.Yaml
