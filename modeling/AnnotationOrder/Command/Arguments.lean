/-
  Reading the words of a command line.

  A word with a leading `-` and something behind it is an option; the others are
  arguments.  `--` ends the options.  The value of an option stands behind a `=`
  or is the next word, whatever that is.

  * `Command.parse`: the options and arguments, in their order.
-/
import AnnotationOrder.Command.Usage
import AnnotationOrder.Text.Affix
import AnnotationOrder.Text.Similarity

namespace AnnotationOrder.Command

open Text

/-- The options and arguments of a command line. -/
structure Parsed where
  /-- The options with their values, which are empty where none is taken. -/
  options : List (Switch × String) := []
  arguments : List String := []
  deriving DecidableEq, Repr

/-- One more option in front. -/
def Parsed.withOption (s : Switch) (value : String) (p : Parsed) : Parsed :=
  { p with options := (s, value) :: p.options }

/-- One more argument in front. -/
def Parsed.withArgument (a : String) (p : Parsed) : Parsed :=
  { p with arguments := a :: p.arguments }

/-- The name in a word, and the value behind the first `=`. -/
def nameAndValue (word : String) : String × Option String :=
  let cs := word.toList
  let name := cs.takeWhile (· != '=')
  match cs.drop name.length with
  | [] => (word, none)
  | _ :: value => (String.ofList name, some (String.ofList value))

/-- The option with a name. -/
def named? (c : Command) (name : String) : Option Switch := c.switches.find? (·.long == name)

/-- The option with a letter. -/
def lettered? (c : Command) (letter : Char) : Option Switch :=
  c.switches.find? (·.letter? == some letter)

/-- The options that a word of letters stands for. -/
def letters (c : Command) : List Char → Except UsageError (List (Switch × String))
  | [] => .ok []
  | l :: ls =>
    match c.lettered? l with
    | none => .error (.noSuchOption (String.ofList ['-', l]) [])
    | some s => (letters c ls).map ((s, "") :: ·)

/-- What a word says. -/
inductive Word
  | options (given : List (Switch × String))
  /-- An option whose value is the next word. -/
  | awaiting (s : Switch)
  deriving DecidableEq, Repr

/-- What a word says that is an option. -/
def readWord (c : Command) (word : String) : Except UsageError Word :=
  let (name, value) := nameAndValue word
  match c.named? name with
  | some s =>
    match s.takesValue, value with
    | true, some v => .ok (.options [(s, v)])
    | true, none => .ok (.awaiting s)
    | false, none => .ok (.options [(s, "")])
    | false, some _ => .error (.valueUnwanted s)
  | none =>
    if begins "--" word then
      .error (.noSuchOption name (closeMatches (c.switches.map (·.long)) name))
    else (letters c (word.toList.drop 1)).map .options

/-- Whether a word is an option. -/
def isOption (word : String) : Bool := begins "-" word && word != "-"

/-- The options and arguments of a command line. -/
def parse (c : Command) : List String → Except UsageError Parsed
  | [] => .ok {}
  | word :: rest =>
    if word == "--" then .ok { arguments := rest }
    else if isOption word then
      match c.readWord word with
      | .error e => .error e
      | .ok (.options given) =>
        (parse c rest).map fun p => { p with options := given ++ p.options }
      | .ok (.awaiting s) =>
        match rest with
        | [] => .error (.valueMissing s)
        | value :: rest => (parse c rest).map (·.withOption s value)
    else if c.isInterspersed then (parse c rest).map (·.withArgument word)
    else .ok { arguments := word :: rest }

namespace Parsed

/-- The first of the options that are answered before all others. -/
def eager? (p : Parsed) : Option Switch := (p.options.map (·.1)).find? (·.isEager)

/-- Whether an option is given. -/
def has (p : Parsed) (s : Switch) : Bool := (p.options.map (·.1)).contains s

/-- The value of an option; the last one counts. -/
def value? (p : Parsed) (s : Switch) : Option String := p.options.reverse.lookup s

/-- The options given, each once, in the order in which they first appear. -/
def distinct (p : Parsed) : List Switch := (p.options.map (·.1)).eraseDups

end Parsed

end AnnotationOrder.Command
