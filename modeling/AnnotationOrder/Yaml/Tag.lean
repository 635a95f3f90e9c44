/-
  Tags of YAML nodes.

  A scalar without a tag of its own gets one from its text, if it is plain.

  * `Tag.ofUri`: the tag that a written name means;
  * `Tag.ofPlain`: the tag of a plain scalar.
-/
import AnnotationOrder.Text.Affix
import AnnotationOrder.Text.Digit

namespace AnnotationOrder.Yaml

open Text

/-- The type that a node is read as. -/
inductive Tag
  | null
  | bool
  | int
  | float
  | text
  | binary
  | timestamp
  | sequence
  | mapping
  | set
  | orderedMap
  | pairs
  /-- As a key: the entries of other mappings are taken over. -/
  | merge
  /-- As a key: the value that stands for the mapping where a scalar is asked for. -/
  | value
  | other
  deriving DecidableEq, Repr, Inhabited

namespace Tag

/-- What the names of the common types begin with. -/
def commonUri : String := "tag:yaml.org,2002:"

/-- The tag that a written name means. -/
def ofUri (uri : String) : Tag :=
  if !begins commonUri uri then other
  else match String.ofList (uri.toList.drop commonUri.length) with
    | "null" => null
    | "bool" => bool
    | "int" => int
    | "float" => float
    | "str" => text
    | "binary" => binary
    | "timestamp" => timestamp
    | "seq" => sequence
    | "map" => mapping
    | "set" => set
    | "omap" => orderedMap
    | "pairs" => pairs
    | "merge" => merge
    | "value" => value
    | _ => other

/-! ## Numbers -/

/-- A digit or an underscore. -/
def isDigitOrLine (c : Char) : Bool := isAsciiDigit c || c == '_'

/-- Digits and underscores, a digit first. -/
def isNumeral : List Char → Bool
  | [] => false
  | c :: cs => isAsciiDigit c && cs.all isDigitOrLine

/-- The text without a sign in front. -/
def unsigned : List Char → List Char
  | '-' :: cs | '+' :: cs => cs
  | cs => cs

/-- Nothing, or an exponent with a sign. -/
def isExponent : List Char → Bool
  | [] => true
  | e :: s :: d :: ds =>
    (e == 'e' || e == 'E') && (s == '-' || s == '+') && (d :: ds).all isAsciiDigit
  | _ => false

/-- A digit of base sixty, without or with one leading digit. -/
def isSixty : List Char → Bool
  | [c] => isAsciiDigit c
  | [c, d] => '0' ≤ c && c ≤ '5' && isAsciiDigit d
  | _ => false

/-- The parts of a text between colons, given the current one in reverse. -/
def colonParts (current : List Char) : List Char → List (List Char)
  | [] => [current.reverse]
  | c :: cs =>
    if c == ':' then current.reverse :: colonParts [] cs else colonParts (c :: current) cs

/-- A numeral in base sixty: digits between colons. -/
def isSexagesimal (cs : List Char) : Bool :=
  match colonParts [] cs with
  | first :: second :: more => isNumeral first && (second :: more).all isSixty
  | _ => false

/-- A number with a point, or the name of an infinity or of no number. -/
def isFloat (cs : List Char) : Bool :=
  let body := unsigned cs
  let (whole, rest) := body.span (· != '.')
  let (part, exponent) := (rest.drop 1).span isDigitOrLine
  if rest.isEmpty then false
  else if whole.isEmpty then
    (isNumeral part && isExponent exponent && body == cs)
      || [".inf", ".Inf", ".INF"].any (body == ·.toList)
      || [".nan", ".NaN", ".NAN"].any (cs == ·.toList)
  else (isNumeral whole && isExponent exponent) || (isSexagesimal whole && exponent.isEmpty)

/-- An integer, in base two, eight, ten, sixteen or sixty. -/
def isInt (cs : List Char) : Bool :=
  match unsigned cs with
  | '0' :: 'b' :: d :: ds => (d :: ds).all fun c => c == '0' || c == '1' || c == '_'
  | '0' :: 'x' :: d :: ds => (d :: ds).all fun c => (hexValue? c).isSome || c == '_'
  | '0' :: ds => ds.all fun c => ('0' ≤ c && c ≤ '7') || c == '_'
  | ds => isNumeral ds || isSexagesimal ds

/-! ## Timestamps -/

/-- Between `lo` and `hi` digits in front, and the rest; as many digits as there are. -/
def takeDigits? (lo hi : Nat) (cs : List Char) : Option (List Char × List Char) :=
  let ds := (cs.take hi).takeWhile isAsciiDigit
  if lo ≤ ds.length then some (ds, cs.drop ds.length) else none

/-- One given character in front, and the rest. -/
def takeChar? (c : Char) : List Char → Option (List Char)
  | [] => none
  | d :: cs => if c == d then some cs else none

/-- An offset from universal time. -/
inductive Zone
  | universal
  | offset (negative : Bool) (hours minutes : List Char)
  deriving Repr

/-- The texts of the fields of a timestamp. -/
structure Stamp where
  year : List Char
  month : List Char
  day : List Char
  /-- The hour, minute and second, and the fraction. -/
  time : Option (List Char × List Char × List Char × List Char)
  zone : Option Zone
  deriving Repr

/-- A space or a tab. -/
def isBlankOrTab (c : Char) : Bool := c == ' ' || c == '\t'

/-- An offset from universal time that ends a text: a letter, or a sign with hours and minutes. -/
def zone? (cs : List Char) : Option Zone :=
  match cs.dropWhile isBlankOrTab with
  | ['Z'] => some .universal
  | sign :: cs =>
    if sign == '-' || sign == '+' then do
      let (hours, cs) ← takeDigits? 1 2 cs
      if cs.isEmpty then return .offset (sign == '-') hours []
      let (minutes, cs) ← takeDigits? 2 2 (← takeChar? ':' cs)
      if cs.isEmpty then return .offset (sign == '-') hours minutes else none
    else none
  | [] => none

/-- The fields of a timestamp. -/
def stamp? (cs : List Char) : Option Stamp := do
  let (year, cs) ← takeDigits? 4 4 cs
  let (month, cs) ← takeDigits? 1 2 (← takeChar? '-' cs)
  let (day, cs) ← takeDigits? 1 2 (← takeChar? '-' cs)
  match cs with
  | [] => return ⟨year, month, day, none, none⟩
  | c :: rest =>
    let cs ←
      if c == 'T' || c == 't' then some rest
      else if isBlankOrTab c then some (rest.dropWhile isBlankOrTab)
      else none
    let (hour, cs) ← takeDigits? 1 2 cs
    let (minute, cs) ← takeDigits? 2 2 (← takeChar? ':' cs)
    let (second, cs) ← takeDigits? 2 2 (← takeChar? ':' cs)
    let (fraction, cs) := match cs with
      | '.' :: cs => cs.span isAsciiDigit
      | cs => ([], cs)
    let time := some (hour, minute, second, fraction)
    if cs.isEmpty then return ⟨year, month, day, time, none⟩
    return ⟨year, month, day, time, some (← zone? cs)⟩

/-- A timestamp that is known without a tag: a date alone has two digits for month and day. -/
def isTimestamp (cs : List Char) : Bool :=
  (stamp? cs).any fun s => s.time.isSome || (s.month.length == 2 && s.day.length == 2)

/-! ## Plain scalars -/

/-- The words for truth values, in small letters. -/
def boolWords : List (String × Bool) :=
  [("yes", true), ("no", false), ("true", true), ("false", false), ("on", true), ("off", false)]

/-- A word in small letters, in capitals, or with a capital first. -/
def isWord (word : String) (cs : List Char) : Bool :=
  let small := word.toList
  cs == small || cs == small.map Char.toUpper
    || cs == (small.take 1).map Char.toUpper ++ small.drop 1

/-- The text without an end of line at its end. -/
def dropLastBreak (cs : List Char) : List Char :=
  if cs.getLast? == some '\n' then cs.dropLast else cs

/-- The tag of a plain scalar.  An end of line at its end does not count. -/
def ofPlain (s : String) : Tag :=
  if s.isEmpty then null
  else
    let cs := dropLastBreak s.toList
    if boolWords.any fun (w, _) => isWord w cs then bool
    else if isFloat cs then float
    else if isInt cs then int
    else if cs == "<<".toList then merge
    else if cs == ['~'] || isWord "null" cs then null
    else if isTimestamp cs then timestamp
    else if cs == ['='] then value
    else if cs == ['!'] || cs == ['&'] || cs == ['*'] then other
    else text

end Tag

end AnnotationOrder.Yaml
