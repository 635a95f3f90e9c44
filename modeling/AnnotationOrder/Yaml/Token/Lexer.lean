/-
  The tokens of a YAML text.

  A key is known for one only when its colon comes, so its token is put in front
  of tokens that have been read.  A key that needs no mark stands on one line and
  is short.  The tokens from the place of a possible key on are not settled before
  it is known whether there is one.

  * `Tokens.ofSource`: the tokens of a text, up to a fault if it has one.
-/
import AnnotationOrder.Yaml.Token.Name
import AnnotationOrder.Yaml.Token.Scalar

namespace AnnotationOrder.Yaml

/-! ## Tokens -/

/-- Adds a token. -/
def emit (t : Token) : Lex Unit := modify (·.insert 0 [t])

/-- Says whether a key may start after this. -/
def allowKey (allowed : Bool) : Lex Unit := modify ({ · with keyAllowed := allowed })

/-- The tokens that end block collections indented further than a column, and the columns that
    stay open. -/
def closeTo (column : Int) (indent : Int) : List Int → Nat × Int × List Int
  | [] => if column < indent then (1, -1, []) else (0, indent, [])
  | outer :: indents =>
    if column < indent then
      let (n, indent, indents) := closeTo column outer indents
      (n + 1, indent, indents)
    else (0, indent, outer :: indents)

/-- Ends the block collections indented further than a column.  Inside brackets indentation says
    nothing. -/
def unwind (column : Int) : Lex Unit := modify fun s =>
  if s.inBlock then
    let (n, indent, indents) := closeTo column s.indent s.indents
    { s.insert 0 (List.replicate n .blockEnd) with indent, indents }
  else s

/-- Opens a block collection at a column that is indented further, and tells whether it is. -/
def indentTo (column : Nat) : Lex Bool := do
  let s ← get
  if s.indent < column then
    set { s with indent := column, indents := s.indent :: s.indents }
    return true
  else return false

/-! ## Possible keys -/

/-- Gives up the possible key at this level of brackets; one that is required is a fault. -/
def dropKey : Lex Unit := do
  let s ← get
  match s.keys.lookup s.flowLevel with
  | some k =>
    if k.required then malformed
    set { s with keys := s.keys.filter (·.1 != s.flowLevel) }
  | none => return

/-- The length that a key without a mark may have. -/
def keyLimit : Nat := 1024

/-- Gives up the possible keys that have become too long or are on an earlier line. -/
def dropStaleKeys : Lex Unit := do
  let s ← get
  let isStale (k : PossibleKey) := k.line != s.line || s.index - k.index > keyLimit
  if s.keys.any fun (_, k) => isStale k && k.required then malformed
  set { s with keys := s.keys.filter fun (_, k) => !isStale k }

/-- Remembers that a key may start here. -/
def markKey : Lex Unit := do
  if (← get).keyAllowed then
    dropKey
    modify fun s =>
      let required := s.inBlock && s.indent == s.column
      let key := ⟨s.count, required, s.index, s.line, s.column⟩
      { s with keys := (s.flowLevel, key) :: s.keys }

/-! ## Indicators -/

/-- Nothing stands in the way of a collection that is marked by indentation. -/
def requireKeyAllowed : Lex Unit := do
  let s ← get
  if s.inBlock && !s.keyAllowed then malformed

/-- Ends all block collections, before a line that belongs to no document. -/
def leaveDocument : Lex Unit := do
  unwind (-1)
  dropKey
  allowKey false

/-- A token that opens a collection between brackets. -/
def openFlow (t : Token) : Lex Unit := do
  markKey
  modify fun s => { s with flowLevel := s.flowLevel + 1, keyAllowed := true }
  advance 1
  emit t

/-- A token that closes a collection between brackets. -/
def closeFlow (t : Token) : Lex Unit := do
  dropKey
  if (← get).inBlock then malformed
  modify fun s => { s with flowLevel := s.flowLevel - 1, keyAllowed := false }
  advance 1
  emit t

def flowEntry : Lex Unit := do
  allowKey true
  dropKey
  advance 1
  emit .flowEntry

def blockEntry : Lex Unit := do
  requireKeyAllowed
  let s ← get
  if s.inBlock then
    if ← indentTo s.column then emit .blockSequenceStart
  allowKey true
  dropKey
  advance 1
  emit .blockEntry

/-- The mark of a key. -/
def keyMark : Lex Unit := do
  requireKeyAllowed
  let s ← get
  if s.inBlock then
    if ← indentTo s.column then emit .blockMappingStart
  allowKey s.inBlock
  dropKey
  advance 1
  emit .key

/-- Puts tokens at a place among those read. -/
def insertAt (place : Nat) (ts : List Token) : Lex Unit :=
  modify fun s => s.insert (s.count - place) ts

/-- The mark of a value: it shows that a key started at the possible place, or stands alone. -/
def valueMark : Lex Unit := do
  let s ← get
  match s.keys.lookup s.flowLevel with
  | some k =>
    set { s with keys := s.keys.filter (·.1 != s.flowLevel), keyAllowed := false }
    let opens ← if s.inBlock then indentTo k.column else pure false
    insertAt k.token (if opens then [.blockMappingStart, .key] else [.key])
  | none =>
    requireKeyAllowed
    if s.inBlock then
      if ← indentTo s.column then emit .blockMappingStart
    allowKey s.inBlock
    dropKey
  advance 1
  emit .value

/-- Something that can be a key or a part of one. -/
def keyPart (token : Lex Token) : Lex Unit := do
  markKey
  allowKey false
  emit (← token)

def blockScalarToken (fold : Bool) : Lex Unit := do
  allowKey true
  dropKey
  emit (← blockScalar fold)

/-! ## The next token -/

/-- Passes over spaces, comments and ends of line.  Outside of brackets a key may start on a new
    line. -/
def skipToToken : Nat → Lex Unit
  | 0 => malformed
  | fuel + 1 => do
    skipRun (· == ' ')
    if (← peek) == some '#' then skipRun (!isBreak ·)
    if (← lineBreak?).isSome then
      if (← get).inBlock then allowKey true
      skipToToken fuel

/-- A character that can start a plain scalar, given whether brackets are open and what follows. -/
def startsPlain (flow : Bool) (c : Char) (next : Option Char) : Bool :=
  !("-?:,[]\x7b\x7d#&*!|>'\"%@`".toList.contains c || isGap (some c))
    || (!isGap next && (c == '-' || (!flow && (c == '?' || c == ':'))))

/-- The token that starts with a character. -/
def tokenAt (c : Char) : Lex Unit := do
  let s ← get
  let flow := !s.inBlock
  if s.column == 0 && c == '%' then
    leaveDocument
    emit (← directiveToken)
    return
  if s.column == 0 && (c == '-' || c == '.') then
    if ← atMarker c then
      leaveDocument
      advance 3
      emit (if c == '-' then .documentStart else .documentEnd)
      return
  let next ← if c == '-' || (!flow && (c == '?' || c == ':')) then peekAt 1 else pure none
  if c == '[' then openFlow .flowSequenceStart
  else if c == '{' then openFlow .flowMappingStart
  else if c == ']' then closeFlow .flowSequenceEnd
  else if c == '}' then closeFlow .flowMappingEnd
  else if c == ',' then flowEntry
  else if c == '-' && isGap next then blockEntry
  else if c == '?' && (flow || isGap next) then keyMark
  else if c == ':' && (flow || isGap next) then valueMark
  else if c == '*' then keyPart do advance 1; return .alias (← anchorName)
  else if c == '&' then keyPart do advance 1; return .anchor (← anchorName)
  else if c == '!' then keyPart tagToken
  else if c == '|' && !flow then blockScalarToken false
  else if c == '>' && !flow then blockScalarToken true
  else if c == '\'' then keyPart (quotedScalar false)
  else if c == '"' then keyPart (quotedScalar true)
  else if startsPlain flow c next then keyPart plainScalar
  else malformed

/-- Reads the next token, with those that indentation adds to it, and tells whether the text goes
    on. -/
def fetch : Lex Bool := do
  skipToToken (← get).fuel
  dropStaleKeys
  unwind (← get).column
  match ← peek with
  | none =>
    leaveDocument
    return false
  | some c =>
    tokenAt c
    dropStaleKeys
    return true

/-! ## Texts -/

/-- The number of the tokens in front of which nothing can be put any more. -/
def Cursor.settled (s : Cursor) : Nat := s.keys.foldl (fun n k => min n k.2.token) s.count

/-- The tokens of a text. -/
structure Tokens where
  list : List Token
  /-- The fault that comes behind the tokens; if there is none, the text ends there. -/
  fault : Option Error := none
  deriving Repr

namespace Tokens

/-- Reads tokens up to the end of the text or a fault. -/
def readFrom (s : Cursor) : Nat → Tokens
  | 0 => ⟨[], some .malformed⟩
  | fuel + 1 =>
    match fetch.run s with
    | .error e => ⟨s.tokens.reverse.take s.settled, some e⟩
    | .ok (true, s) => readFrom s fuel
    | .ok (false, s) => ⟨s.tokens.reverse, none⟩

/-- The tokens of a text.  A byte order mark in front of it is passed over. -/
def ofSource (source : Source) : Tokens :=
  let start : Cursor :=
    { rest := source.chars, size := source.chars.length, fault := source.fault }
  let start := if source.chars.head? == some byteOrderMark then start.next else start
  readFrom start start.fuel

end Tokens

end AnnotationOrder.Yaml
