/-
  Wrong uses of the command line.

  * `UsageError`: what is wrong, with its message;
  * `Command.usage`: the line that says how to call a command.
-/
import AnnotationOrder.Command.Switch
import AnnotationOrder.Text.Quoted

namespace AnnotationOrder.Command

open Text

/-- What a path is asked to be. -/
inductive PathKind
  | path
  | file
  | directory
  deriving DecidableEq, Repr

/-- The word for what a path is asked to be. -/
def PathKind.text : PathKind → String
  | path => "Path"
  | file => "File"
  | directory => "Directory"

/-- What is wrong with a value. -/
inductive ValueFault
  | notAmong (choices : List String)
  | missing (kind : PathKind)
  | isFile (kind : PathKind)
  | isDirectory (kind : PathKind)
  deriving DecidableEq, Repr

/-- The text of what is wrong with a value. -/
def ValueFault.message (value : String) : ValueFault → String
  | notAmong choices =>
    quoted value ++ " is not one of " ++ ", ".intercalate (choices.map quoted) ++ "."
  | missing kind => kind.text ++ " " ++ quoted value ++ " does not exist."
  | isFile kind => kind.text ++ " " ++ quoted value ++ " is a file."
  | isDirectory kind => kind.text ++ " " ++ quoted value ++ " is a directory."

/-- A wrong use of the command line. -/
inductive UsageError
  | valueMissing (s : Switch)
  | valueUnwanted (s : Switch)
  /-- An unknown option, with the known ones that resemble it. -/
  | noSuchOption (text : String) (close : List String)
  /-- An unknown subcommand, with the known ones that resemble it. -/
  | noSuchCommand (text : String) (close : List String)
  | missingCommand
  /-- A value that an option or an argument does not accept. -/
  | badValue (parameter value : String) (fault : ValueFault)
  | extraArguments (arguments : List String)
  deriving DecidableEq, Repr

/-- What is suggested in place of a name. -/
def suggestion : List String → String
  | [] => ""
  | [name] => " Did you mean '" ++ name ++ "'?"
  | names =>
    " (Did you mean one of: " ++ ", ".intercalate (names.map fun n => "'" ++ n ++ "'") ++ "?)"

namespace UsageError

/-- The text of a usage error. -/
def message : UsageError → String
  | valueMissing s => "Option '" ++ s.long ++ "' requires an argument."
  | valueUnwanted s => "Option '" ++ s.long ++ "' does not take a value."
  | noSuchOption text close => "No such option " ++ quoted text ++ "." ++ suggestion close
  | noSuchCommand text close => "No such command " ++ quoted text ++ "." ++ suggestion close
  | missingCommand => "Missing command."
  | badValue parameter value fault =>
    "Invalid value for '" ++ parameter ++ "': " ++ fault.message value
  | extraArguments arguments =>
    "Got unexpected extra argument" ++ (if arguments.length = 1 then "" else "s") ++ " ("
      ++ " ".intercalate arguments ++ ")"

/-- Whether the message comes with the way to call the command. -/
def showsUsage : UsageError → Bool
  | valueMissing _ | valueUnwanted _ => false
  | _ => true

end UsageError

/-! ## How to call a command -/

/-- What follows the words of a command. -/
def synopsis : Command → String
  | top => "[OPTIONS] COMMAND [ARGS]..."
  | lint => "[OPTIONS] [PATHS]..."
  | rules => "[OPTIONS]"

/-- The line that says how to call a command. -/
def usage (c : Command) : String := "Usage: " ++ c.words ++ " " ++ c.synopsis

/-- What is printed about a usage error. -/
def usageText (c : Command) (e : UsageError) : String :=
  let lead :=
    if e.showsUsage then c.usage ++ "\nTry '" ++ c.words ++ " --help' for help.\n\n" else ""
  lead ++ "Error: " ++ e.message ++ "\n"

end AnnotationOrder.Command
