/-
  The rules of a project.

  They are read from a file with rules.  Where there is none, the built-in rules
  apply and nothing is excluded.

  * `Rules.ofFile`: the rules at a path;
  * `RulesFault`: why a file holds no rules, with its text.  Some faults have
    none.
-/
import AnnotationOrder.Lint.Log
import AnnotationOrder.Project.Workspace
import AnnotationOrder.Rule.Config
import AnnotationOrder.Yaml.Document

namespace AnnotationOrder.Lint

open Project Rule

/-- Why a file holds no rules. -/
inductive RulesFault
  | load (e : Yaml.Error)
  | config (e : ConfigError)
  deriving Repr

/-- What stands for the text of a fault in the format. -/
def malformedText : String := "<yaml error>"

/-- The text of a fault, for the name of the file. -/
def RulesFault.message (file : String) : RulesFault → Option String
  | load .malformed => some malformedText
  | load e => e.message
  | config e => e.message file

/-- Whether the file does not even follow the format. -/
def RulesFault.isMalformed : RulesFault → Bool
  | load .malformed => true
  | _ => false

/-- The configuration that the bytes of a file hold. -/
def configOfBytes (s : Yaml.Setting) (bytes : List UInt8) : Except RulesFault Config := do
  let d ← (Yaml.loadBytes s bytes).mapError .load
  (Config.ofDocument d).mapError .config

/-- The rules that a run goes by. -/
structure Rules where
  table : Table
  /-- Patterns of the paths left out. -/
  exclude : List String
  /-- What was logged while they were read. -/
  log : List Record

namespace Rules

/-- The built-in rules. -/
def builtin : Rules := ⟨.builtin, [], []⟩

/-- A truth value as logs show it. -/
def flagText (b : Bool) : String := if b then "True" else "False"

/-- What is logged about a configuration. -/
def loadedRecord (path : Path) (c : Config) : Record :=
  ⟨.debug, .rules, "Loaded " ++ toString c.constraints.length ++ " custom rules from " ++ path.text
    ++ " (defaults=" ++ flagText c.useDefaults ++ ")"⟩

/-- The rules of a configuration. -/
def ofConfig (path : Path) (c : Config) : Rules := ⟨c.table, c.exclude, [loadedRecord path c]⟩

/-- The rules at a path. -/
def ofFile (w : Workspace) (path : Path) : Except RulesFault Rules :=
  match w.file? path with
  | none => .ok builtin
  | some bytes => (configOfBytes w.setting bytes).map (ofConfig path)

/-- The name of the file with the rules of a project. -/
def fileName : String := "annotation-order.yml"

/-- The file with the rules: the one asked for, or else the one of the project. -/
def pathFor (project : Path) (asked : Option Path) : Path := asked.getD (project.append [fileName])

end Rules

end AnnotationOrder.Lint
