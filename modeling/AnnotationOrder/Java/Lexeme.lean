/-
  The lexemes of a Java source.

  Every character belongs to exactly one lexeme.  Blanks and comments are lexemes
  too, so the lexemes of a text join to the text.  A string with holes is made of
  several lexemes: its pieces, and those of the expressions between them.

  * `shapeAt`: the shape and length of the first lexeme, outside of strings;
  * `lexemeAt`: the same in any mode, with the mode behind it;
  * `lexemes`: the lexemes of a text, with `lexemes_flatten`.
-/
import AnnotationOrder.Java.Template
import AnnotationOrder.Text.Blank
import AnnotationOrder.Text.Digit

namespace AnnotationOrder.Java

open Text

/-- What a lexeme is. -/
inductive Shape
  /-- Blanks and comments. -/
  | gap
  /-- A name or a keyword. -/
  | word
  /-- A number, a character or a string. -/
  | literal
  | symbol
  deriving DecidableEq, Repr, Inhabited

/-- A piece of a source. -/
structure Lexeme where
  shape : Shape
  chars : List Char
  deriving DecidableEq, Repr, Inhabited

/-! ## Characters -/

/-- A character that only separates: a blank, a byte order mark or a null. -/
def isGapChar (c : Char) : Bool := isBlank c || c == '\uFEFF' || c == '\x00'

/-- A character that can start a word: a letter, and beyond ASCII everything that is no blank. -/
def isWordStart (c : Char) : Bool :=
  c.isAlpha || c == '_' || c == '$' || (0x7f < c.toNat && !isGapChar c)

/-- A character of a word. -/
def isWordChar (c : Char) : Bool := isWordStart c || isAsciiDigit c

/-! ## Lengths -/

/-- The length of a run of characters. -/
def runLength (p : Char → Bool) (cs : List Char) : Nat := (cs.takeWhile p).length

/-- How far a block comment reaches, after its start. -/
def commentLength : List Char → Nat
  | [] => 0
  | '*' :: '/' :: _ => 2
  | _ :: cs => commentLength cs + 1

/-- How far a character between quotes reaches, after its first quote.  It ends on its line. -/
def quotedLength : List Char → Nat
  | [] => 0
  | '\\' :: _ :: cs => quotedLength cs + 2
  | c :: cs => if c == '\'' then 1 else if c == '\n' then 0 else quotedLength cs + 1

/-- The word with a dash inside it. -/
def dashedWord : List Char := "non-sealed".toList

/-- The length of a word. -/
def wordLength (cs : List Char) : Nat :=
  let n := runLength isWordChar cs
  if dashedWord.isPrefixOf cs && !(cs[dashedWord.length]?).any isWordChar then dashedWord.length
  else n

/-- The symbols of more than one character. -/
def longSymbols : List (List Char) :=
  ["@interface", "...", "->", "::", "--"].map String.toList

/-- The length of a symbol. -/
def symbolLength (cs : List Char) : Nat :=
  ((longSymbols.find? (·.isPrefixOf cs)).map List.length).getD 1

/-- The shape and the length of the first lexeme, where no string begins. -/
def shapeAt (cs : List Char) : Shape × Nat :=
  match cs with
  | [] => (.gap, 0)
  | '/' :: '/' :: _ => (.gap, runLength (· != '\n') cs)
  | '/' :: '*' :: rest => (.gap, commentLength rest + 2)
  | c :: rest =>
    if isGapChar c then (.gap, runLength isGapChar cs)
    else if isWordStart c then (.word, wordLength cs)
    else if isAsciiDigit c then (.literal, runLength (fun c => isWordChar c || c == '.') cs)
    else if c == '\'' then (.literal, quotedLength rest + 1)
    else (.symbol, symbolLength cs)

/-! ## Lexemes -/

/-- The piece of a string that begins with some characters of it, of which a number has been
    read. -/
def pieceAt (mode : Mode) (m : Marks) (read : Nat) (cs : List Char) : Shape × Nat × Mode :=
  let (n, hole) := pieceLength m (cs.drop read)
  (.literal, read + n, { mode with string := if hole then some m else none })

/-- The shape and the length of the first lexeme in a mode, and the mode behind it. -/
def lexemeAt (mode : Mode) (cs : List Char) : Shape × Nat × Mode :=
  match mode.string with
  | some m =>
    if holeMark.isPrefixOf cs then (.symbol, holeMark.length, mode.enter m)
    else pieceAt mode m 0 cs
  | none =>
    match Marks.at? cs with
    | some m => pieceAt mode m m.chars.length cs
    | none =>
      let (shape, n) := shapeAt cs
      (shape, n, if shape == .symbol then cs.head?.elim mode mode.brace else mode)

/-- The lexemes of a text that begins in a mode; a lexeme has at least one character. -/
def lexemesFrom (mode : Mode) : List Char → List Lexeme
  | [] => []
  | c :: cs =>
    let (shape, n, mode) := lexemeAt mode (c :: cs)
    ⟨shape, c :: cs.take (n - 1)⟩ :: lexemesFrom mode (cs.drop (n - 1))
termination_by cs => cs.length
decreasing_by simp only [List.length_drop, List.length_cons]; omega

/-- The lexemes of a text. -/
def lexemes (cs : List Char) : List Lexeme := lexemesFrom {} cs

theorem lexemesFrom_flatten (mode : Mode) (cs : List Char) :
    ((lexemesFrom mode cs).map (·.chars)).flatten = cs := by
  induction mode, cs using lexemesFrom.induct with
  | case1 => simp [lexemesFrom]
  | case2 mode c cs shape n next _ ih =>
    rw [lexemesFrom]
    simp_all

/-- The lexemes of a text join to the text. -/
theorem lexemes_flatten (cs : List Char) : ((lexemes cs).map (·.chars)).flatten = cs :=
  lexemesFrom_flatten {} cs

end AnnotationOrder.Java
