/-
  Lines of text.

  Rows end at `\n` alone.  Lines, as an editor counts them, also end at the other
  vertical controls, the file, group and record separators, the next-line control
  and the two Unicode separators; an end of line at the end of the text starts no
  further line.

  * `unifyNewlines`: every `\r\n` and `\r` becomes `\n`;
  * `lines`: the lines of a text;
  * `rows`: the rows of a text.
-/
namespace AnnotationOrder.Text

/-- The characters with every `\r\n` and `\r` turned into `\n`; `afterReturn` tells that the
    character before was a `\r`. -/
def unifyNewlinesFrom (afterReturn : Bool) : List Char → List Char
  | [] => []
  | c :: cs =>
    if c = '\r' then '\n' :: unifyNewlinesFrom true cs
    else if c = '\n' && afterReturn then unifyNewlinesFrom false cs
    else c :: unifyNewlinesFrom false cs

/-- The text with one kind of line end. -/
def unifyNewlines (s : String) : String := String.ofList (unifyNewlinesFrom false s.toList)

/-- A character that ends a line. -/
def isLineEnd (c : Char) : Bool :=
  let n := c.toNat
  (0x0a ≤ n && n ≤ 0x0d) || (0x1c ≤ n && n ≤ 0x1e) || n == 0x85 || n == 0x2028 || n == 0x2029

/-- The lines of a text, given the current one in reverse.  `\r\n` is one end of line. -/
def linesFrom (current : List Char) : List Char → List String
  | [] => if current.isEmpty then [] else [String.ofList current.reverse]
  | '\r' :: '\n' :: cs => String.ofList current.reverse :: linesFrom [] cs
  | c :: cs =>
    if isLineEnd c then String.ofList current.reverse :: linesFrom [] cs
    else linesFrom (c :: current) cs

/-- The lines of a text. -/
def lines (s : String) : List String := linesFrom [] s.toList

/-- The rows of a text, given the current one in reverse. -/
def rowsFrom (current : List Char) : List Char → List (List Char)
  | [] => [current.reverse]
  | c :: cs => if c = '\n' then current.reverse :: rowsFrom [] cs else rowsFrom (c :: current) cs

/-- The rows of a text: what stands between its `\n`s. -/
def rows (s : String) : List (List Char) := rowsFrom [] s.toList

end AnnotationOrder.Text
