/-
  Names in a YAML text: anchors, tags and directives.

  * `anchorName`: the name of an anchor or alias;
  * `tagToken`: a tag, written out, with a handle or as a lone mark;
  * `directiveToken`: a directive and the rest of its line.
-/
import AnnotationOrder.Text.Digit
import AnnotationOrder.Text.Utf8
import AnnotationOrder.Yaml.Token.Cursor

namespace AnnotationOrder.Yaml

open Number Text

/-- The name of an anchor or alias, after its mark. -/
def anchorName : Lex String := do
  let name ← takeRun isNameChar
  let after ← peek
  if name.isEmpty || !(isGap after || after.any fun c => "?:,]\x7d%@`".toList.contains c) then malformed
  return String.ofList name

/-! ## Tags -/

/-- A character of a tag. -/
def isTagChar (c : Char) : Bool := c.isAlphanum || "-;/?:@&=+$,_.!~*'()[]%".toList.contains c

/-- The bytes of a run of escapes, each a percent sign with two digits, and the rest. -/
def escapedBytes : List Char → Option (List UInt8 × List Char)
  | '%' :: a :: b :: cs => do
    let hi ← hexValue? a
    let lo ← hexValue? b
    let (bytes, rest) ← escapedBytes cs
    return (UInt8.ofNat (hi * 16 + lo) :: bytes, rest)
  | '%' :: _ => none
  | cs => some ([], cs)

/-- The text of a tag with its escapes undone; a run of escapes is UTF-8. -/
def unescapeTag : Nat → List Char → Option (List Char)
  | 0, _ => none
  | _, [] => some []
  | fuel + 1, c :: cs =>
    if c == '%' then do
      let (bytes, rest) ← escapedBytes (c :: cs)
      let text ← (Utf8.decode bytes).toOption
      return text.toList ++ (← unescapeTag fuel rest)
    else do return c :: (← unescapeTag fuel cs)

/-- The text of a tag. -/
def tagText : Lex String := do
  let raw ← takeRun isTagChar
  if raw.isEmpty then malformed
  match unescapeTag (raw.length + 1) raw with
  | some text => return String.ofList text
  | none => malformed

/-- The handle of a tag: a mark, or a name between two. -/
def tagHandle : Lex String := do
  expect '!'
  if (← peek) == some ' ' then return "!"
  let name ← takeRun isNameChar
  expect '!'
  return String.ofList ('!' :: name ++ ['!'])

/-- A tag. -/
def tagToken : Lex Token := do
  let token ← match ← peekAt 1 with
    | some '<' => do
      advance 2
      let suffix ← tagText
      expect '>'
      pure (Token.tag none suffix)
    | c =>
      if isGap c then do
        advance 1
        pure (Token.tag none "!")
      else do
        let word := ((← get).rest.drop 1).takeWhile fun c => !endsWord (some c) && c != '!'
        let isHandle := (← peekAt (word.length + 1)) == some '!'
        let handle ← if isHandle then tagHandle else do advance 1; pure "!"
        pure (Token.tag (some handle) (← tagText))
  if endsWord (← peek) then return token else malformed

/-! ## Directives -/

/-- A number of a version. -/
def directiveNumber : Lex Nat := do
  let ds := (← get).rest.takeWhile isAsciiDigit
  look ds.length
  if ds.isEmpty then malformed
  if digitLimit < ds.length then
    throw (.scalar (.integer 10 (String.ofList ds) (.tooLong ds.length)))
  advance ds.length
  return digitsValue ds

/-- A version directive, after its name. -/
def versionDirective : Lex Token := do
  skipRun (· == ' ')
  let major ← directiveNumber
  expect '.'
  let _ ← directiveNumber
  if endsWord (← peek) then return .versionDirective major else malformed

/-- A tag directive, after its name. -/
def tagDirective : Lex Token := do
  skipRun (· == ' ')
  let handle ← tagHandle
  if (← peek) != some ' ' then malformed
  skipRun (· == ' ')
  let expansion ← tagText
  if endsWord (← peek) then return .tagDirective handle expansion else malformed

/-- A directive; those of other names are passed over. -/
def directiveToken : Lex Token := do
  advance 1
  let name ← takeRun isNameChar
  if name.isEmpty || !endsWord (← peek) then malformed
  let token ←
    if name == "YAML".toList then versionDirective
    else if name == "TAG".toList then tagDirective
    else do
      skipRun (!isBreak ·)
      pure .otherDirective
  finishLine
  return token

end AnnotationOrder.Yaml
