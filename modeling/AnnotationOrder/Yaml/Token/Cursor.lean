/-
  The place up to which a YAML text has been read, and what is known there.

  Lines end at `\n`, at the next-line control, which counts as `\n`, and at the
  two Unicode separators, which stay what they are.  A byte order mark takes no
  column.  A character is looked at before the cursor moves next to it, so that a
  fault of the text behind it shows.

  * `Cursor`: the rest of the text, the place, the open indentations and brackets,
    the places where a key may have started, and the tokens so far;
  * `Lex`: steps that move the cursor or fail;
  * `look`: the step that makes a fault of the text show.
-/
import AnnotationOrder.Yaml.Source
import AnnotationOrder.Yaml.Token

namespace AnnotationOrder.Yaml

/-! ## Characters -/

/-- A character that ends a line. -/
def isBreak (c : Char) : Bool := c == '\n' || c == '\x85' || c == '\u2028' || c == '\u2029'

/-- The end of the text or of a line. -/
def endsLine : Option Char → Bool
  | none => true
  | some c => isBreak c

/-- The end of the text or of a line, or a space. -/
def endsWord (c : Option Char) : Bool := endsLine c || c == some ' '

/-- The end of the text or of a line, or a blank. -/
def isGap (c : Option Char) : Bool := endsWord c || c == some '\t'

/-- The mark that may stand in front of a text. -/
def byteOrderMark : Char := '\uFEFF'

/-- A character of a name. -/
def isNameChar (c : Char) : Bool := c.isAlphanum || c == '-' || c == '_'

/-! ## The cursor -/

/-- A place where a key may have started. -/
structure PossibleKey where
  /-- The number of the tokens before it. -/
  token : Nat
  /-- Nothing but a key may stand here. -/
  required : Bool
  index : Nat
  line : Nat
  column : Nat
  deriving Repr, Inhabited

/-- The place up to which a text has been read. -/
structure Cursor where
  rest : List Char
  /-- How many characters the text has. -/
  size : Nat
  /-- The fault that comes behind the rest, if it is not the end of the text. -/
  fault : Option Error := none
  index : Nat := 0
  line : Nat := 0
  column : Nat := 0
  /-- How many brackets are open. -/
  flowLevel : Nat := 0
  /-- The column of the current block collection; outside of any it is -1. -/
  indent : Int := -1
  /-- The columns of the collections around it. -/
  indents : List Int := []
  /-- Whether a key may start here. -/
  keyAllowed : Bool := true
  /-- The place of the possible key at each level of brackets. -/
  keys : List (Nat × PossibleKey) := []
  /-- The tokens so far, last first. -/
  tokens : List Token := []
  /-- How many tokens there are. -/
  count : Nat := 0

/-- Steps over a text, which may turn out to be malformed. -/
abbrev Lex := StateT Cursor (Except Error)

/-- The text does not follow the format. -/
def malformed {α : Type} : Lex α := throw .malformed

namespace Cursor

/-- The cursor after one character. -/
def next (s : Cursor) : Cursor :=
  match s.rest with
  | [] => s
  | c :: cs =>
    if isBreak c then { s with rest := cs, index := s.index + 1, line := s.line + 1, column := 0 }
    else if c = byteOrderMark then { s with rest := cs, index := s.index + 1 }
    else { s with rest := cs, index := s.index + 1, column := s.column + 1 }

/-- The cursor after a number of characters. -/
def skip (s : Cursor) : Nat → Cursor
  | 0 => s
  | n + 1 => s.next.skip n

/-- The cursor with tokens in front of the last ones, of which there is a given number. -/
def insert (s : Cursor) (behind : Nat) (ts : List Token) : Cursor :=
  { s with
    tokens := s.tokens.take behind ++ ts.reverse ++ s.tokens.drop behind
    count := s.count + ts.length }

/-- Outside of brackets. -/
def inBlock (s : Cursor) : Bool := s.flowLevel == 0

/-- A bound on the steps that the rest of the text allows. -/
def fuel (s : Cursor) : Nat := s.size - s.index + 1

end Cursor

/-! ## Steps -/

/-- Looks at the character that comes after `n` others. -/
def look (n : Nat) : Lex Unit := do
  let s ← get
  if let some e := s.fault then
    if (s.rest.drop n).isEmpty then throw e

/-- The next character. -/
def peek : Lex (Option Char) := do
  look 0
  return (← get).rest.head?

/-- The character that comes after `n` others. -/
def peekAt (n : Nat) : Lex (Option Char) := do
  look n
  return (← get).rest[n]?

/-- Passes over characters. -/
def advance (n : Nat) : Lex Unit := do
  look n
  modify (·.skip n)

/-- The longest run of characters of a kind. -/
def takeRun (p : Char → Bool) : Lex (List Char) := do
  let run := (← get).rest.takeWhile p
  advance run.length
  return run

/-- Passes over characters of a kind. -/
def skipRun (p : Char → Bool) : Lex Unit := do let _ ← takeRun p

/-- Passes over one given character. -/
def expect (c : Char) : Lex Unit := do
  if (← peek) == some c then advance 1 else malformed

/-- The end of a line, if there is one here. -/
def lineBreak? : Lex (Option Char) := do
  match ← peek with
  | some c =>
    if isBreak c then
      advance 1
      return some (if c == '\x85' then '\n' else c)
    else return none
  | none => return none

/-- The rest of a line that may hold only a comment. -/
def finishLine : Lex Unit := do
  skipRun (· == ' ')
  if (← peek) == some '#' then skipRun (!isBreak ·)
  if endsLine (← peek) then
    let _ ← lineBreak?
  else malformed

/-- The text starts with a marker of three characters that stands alone. -/
def atMarker (c : Char) : Lex Bool := do
  look 2
  if (← get).rest.take 3 == [c, c, c] then return isGap (← peekAt 3) else return false

/-- A line that separates documents begins. -/
def atSeparator : Lex Bool := do
  if ← atMarker '-' then return true else atMarker '.'

end AnnotationOrder.Yaml
