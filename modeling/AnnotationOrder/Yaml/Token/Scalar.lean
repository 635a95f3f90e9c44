/-
  Scalars of a YAML text.

  A single end of line inside a scalar folds to a space and further ones stay,
  unless the scalar is a literal block.  Folding never joins lines over a Unicode
  separator.

  * `quotedScalar`: between quotes, with escapes between double ones;
  * `blockScalar`: the indented lines after a literal or folding mark;
  * `plainScalar`: without marks, up to a comment, an indicator or a line that
    is indented less.
-/
import AnnotationOrder.Text.Digit
import AnnotationOrder.Yaml.Token.Cursor

namespace AnnotationOrder.Yaml

open Text

/-- What an end of line followed by further ones folds to. -/
def folded (first : Char) (more : List Char) : List Char :=
  if first != '\n' then first :: more
  else if more.isEmpty then [' ']
  else more

/-! ## Quoted scalars -/

/-- The character that a one-letter escape stands for. -/
def escape? : Char → Option Char
  | '0' => some '\x00'
  | 'a' => some '\x07'
  | 'b' => some '\x08'
  | 't' | '\t' => some '\t'
  | 'n' => some '\n'
  | 'v' => some '\x0b'
  | 'f' => some '\x0c'
  | 'r' => some '\r'
  | 'e' => some '\x1b'
  | ' ' => some ' '
  | '"' => some '"'
  | '\\' => some '\\'
  | '/' => some '/'
  | 'N' => some '\x85'
  | '_' => some '\xa0'
  | 'L' => some '\u2028'
  | 'P' => some '\u2029'
  | _ => none

/-- How many digits an escape by number has. -/
def escapeDigits? : Char → Option Nat
  | 'x' => some 2
  | 'u' => some 4
  | 'U' => some 8
  | _ => none

/-- The character of an escape by number, at its digits. -/
def numberedChar (count : Nat) : Lex Char := do
  let digits := ((← get).rest.take count).takeWhile fun c => (hexValue? c).isSome
  look (min digits.length (count - 1))
  match digits.mapM hexValue? with
  | none => malformed
  | some ds =>
    if ds.length < count then malformed
    let code := ds.foldl (· * 16 + ·) 0
    if 0x80000000 ≤ code then throw (.scalar .codePointSize)
    if 0x10ffff < code then throw (.scalar .codePoint)
    if !code.isValidChar then throw (.scalar .codeUnit)
    advance count
    return Char.ofNat code

/-- The ends of line at the start of which the cursor stands, with the blanks in front of each. -/
def quotedBreaks : Nat → Lex (List Char)
  | 0 => malformed
  | fuel + 1 => do
    if ← atSeparator then malformed
    skipRun fun c => c == ' ' || c == '\t'
    match ← lineBreak? with
    | some c => return c :: (← quotedBreaks fuel)
    | none => return []

/-- An escape, after its mark.  An escaped end of line stands for nothing. -/
def quotedEscape : Lex (List Char) := do
  match ← peek with
  | none => malformed
  | some c =>
    match escape? c, escapeDigits? c with
    | some d, _ =>
      advance 1
      return [d]
    | none, some count =>
      advance 1
      return [← numberedChar count]
    | none, none =>
      match ← lineBreak? with
      | some _ => quotedBreaks (← get).fuel
      | none => malformed

/-- Blanks inside a quoted scalar, folded if lines end there. -/
def quotedBlanks : Lex (List Char) := do
  let blanks ← takeRun fun c => c == ' ' || c == '\t'
  match ← lineBreak? with
  | some c => return folded c (← quotedBreaks (← get).fuel)
  | none => if (← peek).isNone then malformed else return blanks

/-- The text of a quoted scalar up to its closing quote. -/
def quotedText (double : Bool) : Nat → Lex (List Char)
  | 0 => malformed
  | fuel + 1 => do
    match ← peek with
    | none => malformed
    | some c =>
      if c == ' ' || c == '\t' || isBreak c then
        return (← quotedBlanks) ++ (← quotedText double fuel)
      else if double && c == '\\' then
        advance 1
        return (← quotedEscape) ++ (← quotedText double fuel)
      else if c == (if double then '"' else '\'') then
        advance 1
        if !double && (← peek) == some '\'' then
          advance 1
          return '\'' :: (← quotedText double fuel)
        else return []
      else
        advance 1
        return c :: (← quotedText double fuel)

/-- A scalar between quotes. -/
def quotedScalar (double : Bool) : Lex Token := do
  advance 1
  return .scalar false (String.ofList (← quotedText double (← get).fuel))

/-! ## Block scalars -/

/-- What becomes of the ends of line that close a block. -/
inductive Chomping
  | strip
  | clip
  | keep
  deriving DecidableEq, Repr

/-- A sign that says what becomes of the last ends of line. -/
def chompingSign? : Lex (Option Chomping) := do
  match ← peek with
  | some '+' => advance 1; return some .keep
  | some '-' => advance 1; return some .strip
  | _ => return none

/-- A digit that says how far the block is indented. -/
def indentDigit? : Lex (Option Nat) := do
  match ← peek with
  | some c =>
    if isAsciiDigit c then
      if c == '0' then malformed
      advance 1
      return some (c.toNat - 48)
    else return none
  | none => return none

/-- The indicators of a block: a sign and a digit, in either order. -/
def blockHeader : Lex (Chomping × Option Nat) := do
  let header ← match ← chompingSign? with
    | some chomping => do pure (chomping, ← indentDigit?)
    | none => do
      match ← indentDigit? with
      | some n => do pure ((← chompingSign?).getD .clip, some n)
      | none => pure (.clip, none)
  if endsWord (← peek) then return header else malformed

/-- Passes over spaces up to a column. -/
def skipIndent (indent : Nat) : Lex Unit := do
  let s ← get
  advance ((s.rest.take (indent - s.column)).takeWhile (· == ' ')).length

/-- The empty lines in front of a block, and the furthest column that a space leads to. -/
def blockIndent (furthest : Nat) : Nat → Lex (List Char × Nat)
  | 0 => malformed
  | fuel + 1 => do
    skipRun (· == ' ')
    let furthest := max furthest (← get).column
    match ← lineBreak? with
    | some c =>
      let (more, n) ← blockIndent furthest fuel
      return (c :: more, n)
    | none => return ([], furthest)

/-- The empty lines between the lines of a block, and the indentation of the next one. -/
def blockBreaks (indent : Nat) : Nat → Lex (List Char)
  | 0 => malformed
  | fuel + 1 => do
    skipIndent indent
    match ← lineBreak? with
    | some c => return c :: (← blockBreaks indent fuel)
    | none => return []

/-- The lines of a block, after empty lines. -/
def blockLines (fold : Bool) (chomping : Chomping) (indent : Nat) (empty : List Char) :
    Nat → Lex (List Char)
  | 0 => malformed
  | fuel + 1 => do
    let isBlank (c : Option Char) := c == some ' ' || c == some '\t'
    let startsBlank := isBlank (← peek)
    let line ← takeRun (!isBreak ·)
    let ending ← lineBreak?
    let breaks ← blockBreaks indent (← get).fuel
    let s ← get
    if s.column == indent && s.rest != [] then
      let folds := fold && ending == some '\n' && !startsBlank && !isBlank (← peek)
      let join := if !folds then ending.toList else if breaks.isEmpty then [' '] else []
      return empty ++ line ++ join ++ (← blockLines fold chomping indent breaks fuel)
    else
      return empty ++ line ++ match chomping with
        | .strip => []
        | .clip => ending.toList
        | .keep => ending.toList ++ breaks

/-- The text of a block of a given indentation, after empty lines. -/
def blockText (fold : Bool) (chomping : Chomping) (indent : Nat) (empty : List Char) :
    Lex (List Char) := do
  let s ← get
  if s.column == indent && s.rest != [] then blockLines fold chomping indent empty s.fuel
  else return if chomping == .keep then empty else []

/-- A block scalar. -/
def blockScalar (fold : Bool) : Lex Token := do
  advance 1
  let (chomping, digit) ← blockHeader
  finishLine
  let least := max ((← get).indent + 1).toNat 1
  let (empty, indent) ← match digit with
    | none => do
      let (empty, furthest) ← blockIndent 0 (← get).fuel
      pure (empty, max least furthest)
    | some n => do
      let indent := least + n - 1
      pure (← blockBreaks indent (← get).fuel, indent)
  return .scalar false (String.ofList (← blockText fold chomping indent empty))

/-! ## Plain scalars -/

/-- The characters that end a plain scalar inside brackets. -/
def isFlowIndicator (c : Char) : Bool := ",[]\x7b\x7d".toList.contains c

/-- The part of a plain scalar up to a blank or an indicator, given whether brackets are open. -/
def plainWord (flow : Bool) : List Char → List Char
  | [] => []
  | c :: cs =>
    let next := cs.head?
    if isGap (some c) then []
    else if c == ':' && (isGap next || (flow && next.any isFlowIndicator)) then []
    else if flow && (isFlowIndicator c || c == '?') then []
    else c :: plainWord flow cs

/-- Spaces and ends of line inside a plain scalar, each end of line with the spaces after it;
    nothing if a line that separates documents comes. -/
def plainBreaks : Nat → Lex (Option (List Char))
  | 0 => malformed
  | fuel + 1 => do
    if ← atSeparator then return none
    skipRun (· == ' ')
    match ← lineBreak? with
    | some c => return (← plainBreaks fuel).map (c :: ·)
    | none => return some []

/-- What stands between two parts of a plain scalar; nothing if it ends here.  A key may start
    after the end of a line. -/
def plainGap : Lex (List Char) := do
  let spaces ← takeRun (· == ' ')
  match ← lineBreak? with
  | none => return spaces
  | some c =>
    modify ({ · with keyAllowed := true })
    return ((← plainBreaks (← get).fuel).map (folded c)).getD []

/-- The parts of a plain scalar, after a gap. -/
def plainParts (indent : Int) (gap : List Char) : Nat → Lex (List Char)
  | 0 => malformed
  | fuel + 1 => do
    if (← peek) == some '#' then return []
    let s ← get
    let word := plainWord (!s.inBlock) s.rest
    if (← peekAt word.length) == some ':' then look (word.length + 1)
    if word.isEmpty then return []
    modify ({ · with keyAllowed := false })
    advance word.length
    let next ← plainGap
    let s ← get
    if next.isEmpty || s.rest.head? == some '#' || (s.inBlock && (s.column : Int) < indent) then
      return gap ++ word
    return gap ++ word ++ (← plainParts indent next fuel)

/-- A plain scalar. -/
def plainScalar : Lex Token := do
  let s ← get
  return .scalar true (String.ofList (← plainParts (s.indent + 1) [] s.fuel))

end AnnotationOrder.Yaml
