/-
  The tokens of a Java source: its lexemes without gaps, each with its place.

  * `tokens`: the tokens of a text;
  * `Token.stop`: the place behind a token.
-/
import AnnotationOrder.Java.Lexeme
import AnnotationOrder.Java.Position

namespace AnnotationOrder.Java

/-- A lexeme that is no gap. -/
structure Token where
  shape : Shape
  chars : List Char
  position : Position
  deriving DecidableEq, Repr, Inhabited

namespace Token

/-- The characters of a token as text. -/
def text (t : Token) : String := String.ofList t.chars

/-- The place behind a token. -/
def stop (t : Token) : Position := t.position.after t.chars

/-- A token is the given word. -/
def isWord (t : Token) (word : String) : Bool := t.shape == .word && t.chars == word.toList

/-- A token is the given symbol. -/
def isSymbol (t : Token) (symbol : String) : Bool := t.shape == .symbol && t.chars == symbol.toList

end Token

/-- The tokens among lexemes that start at a place. -/
def tokensFrom (p : Position) : List Lexeme → List Token
  | [] => []
  | x :: xs =>
    let rest := tokensFrom (p.after x.chars) xs
    if x.shape == .gap then rest else ⟨x.shape, x.chars, p⟩ :: rest

/-- The tokens of a text. -/
def tokens (source : String) : List Token := tokensFrom {} (lexemes source.toList)

end AnnotationOrder.Java
