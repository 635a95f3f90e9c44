/-
  The commands and their options.

  * `Command`: the command itself and its two subcommands;
  * `Switch`: the options;
  * `Command.switches`: the options of each command.
-/
namespace AnnotationOrder

/-- The command itself and its subcommands. -/
inductive Command
  | top
  | lint
  | rules
  deriving DecidableEq, Repr

namespace Command

/-- The name of the program. -/
def programName : String := "annorder"

/-- The words that call a command. -/
def words : Command → String
  | top => programName
  | lint => programName ++ " lint"
  | rules => programName ++ " rules"

/-- The subcommands, with their names. -/
def subcommands : List (String × Command) := [("lint", lint), ("rules", rules)]

/-- An option. -/
inductive Switch
  | version
  | verbose
  | format
  | strict
  | allPairs
  | rules
  | project
  | help
  deriving DecidableEq, Repr

namespace Switch

/-- The name of an option. -/
def long : Switch → String
  | version => "--version"
  | verbose => "--verbose"
  | format => "--format"
  | strict => "--strict"
  | allPairs => "--all-pairs"
  | rules => "--rules"
  | project => "--project"
  | help => "--help"

/-- The letter of an option. -/
def letter? : Switch → Option Char
  | verbose => some 'v'
  | _ => none

/-- Whether an option takes a value. -/
def takesValue : Switch → Bool
  | format | rules | project => true
  | _ => false

/-- Whether an option is answered before all others. -/
def isEager : Switch → Bool
  | version | help => true
  | _ => false

end Switch

/-- The options of a command. -/
def switches : Command → List Switch
  | top => [.version, .verbose, .help]
  | lint => [.format, .strict, .allPairs, .rules, .project, .help]
  | rules => [.rules, .project, .help]

/-- Whether options may follow the arguments of a command. -/
def isInterspersed : Command → Bool
  | top => false
  | lint | rules => true

end Command

end AnnotationOrder
