/-
  What the command line does.

  A call is an answer from the list of its words and the files that it sees: an
  exit code and what is printed on the two outputs.  The two subcommands look at
  the same rules; what they do not accept ends a call with exit code 2.  Messages
  are printed without control sequences, and log lines as they are.

  * `Command.call`: the outcome of a call.
-/
import AnnotationOrder.Command.Arguments
import AnnotationOrder.Command.Page
import AnnotationOrder.Lint.Run
import AnnotationOrder.Report.Format
import AnnotationOrder.Text.ControlSequence

namespace AnnotationOrder.Command

open Project Lint

open Text.ControlSequence (plain)

/-- A fault that ends a call without a message. -/
inductive Fault
  | rules (e : RulesFault)
  /-- A path that holds a null character, so that it cannot be looked up. -/
  | nullInPath
  deriving Repr

/-- What is wrong, for a reader of the error output. -/
def Fault.text : Fault → String
  | rules _ => "The rules hold a value that cannot be checked."
  | nullInPath => "A path holds a null character."

/-- The outcome of a call. -/
structure Outcome where
  exitCode : Nat := 0
  /-- What is printed on the standard output. -/
  output : String := ""
  /-- What is printed on the error output. -/
  errors : String := ""
  /-- The fault that ended the call without a message. -/
  fault : Option Fault := none

namespace Outcome

/-- A call that ends with a message. -/
def failed (message : String) : Outcome :=
  { exitCode := 2, errors := plain ("Error: " ++ message ++ "\n") }

/-- A call that ends with a fault that has no message. -/
def broken (e : Fault) : Outcome := { exitCode := 1, fault := some e }

/-- A call of a command that is not used in the right way. -/
def misused (c : Command) (e : UsageError) : Outcome :=
  { exitCode := 2, errors := plain (c.usageText e) }

end Outcome

/-- Lines, each with its end. -/
def printed (lines : List String) : String := String.join (lines.map (· ++ "\n"))

/-! ## What is accepted -/

/-- The formats of reports. -/
inductive Format
  | text
  | json
  | porcelain
  deriving DecidableEq, Repr

namespace Format

/-- The formats with their names. -/
def names : List (String × Format) := [("text", text), ("json", json), ("porcelain", porcelain)]

/-- A report in a format.  The numbers of a run are counts and places in files, which do not come
    near the limit on digits. -/
def write (r : Report) : Format → String
  | text => r.text
  | json => r.json
  | porcelain => r.porcelain

end Format

/-- Why a value is not accepted. -/
inductive Refusal
  | misuse (e : UsageError)
  | fault (e : Fault)

/-- What a path has to lead to, where something is wrong with what it leads to. -/
def pathFault? (w : Workspace) (value : String) (wrong : Option Entry → Option ValueFault) :
    Option (Except Fault ValueFault) :=
  if '\x00' ∈ value.toList then some (.error .nullInPath)
  else (wrong (w.entryAtText? value)).map .ok

/-- What is wrong with what the path of rules leads to. -/
def rulesFault? (c : Command) : Option Entry → Option ValueFault
  | none => if c = rules then some (.missing .file) else none
  | some .directory => some (.isDirectory .file)
  | some (.file _) => none

/-- What is wrong with what the path of a project leads to. -/
def projectFault? : Option Entry → Option ValueFault
  | none => some (.missing .directory)
  | some (.file _) => some (.isFile .directory)
  | some .directory => none

/-- What is wrong with the name of a format. -/
def formatFault? (value : String) : Option ValueFault :=
  if (Format.names.lookup value).isSome then none
  else some (.notAmong (Format.names.map (·.1)))

/-- What is wrong with the value of an option. -/
def valueFault? (w : Workspace) (c : Command) (s : Switch) (value : String) :
    Option (Except Fault ValueFault) :=
  match s with
  | .format => (formatFault? value).map .ok
  | .rules => pathFault? w value (rulesFault? c)
  | .project => pathFault? w value projectFault?
  | _ => none

/-- A value that is not accepted, and why. -/
def refusal (parameter value : String) : Except Fault ValueFault → Refusal
  | .ok e => .misuse (.badValue parameter value e)
  | .error e => .fault e

/-- Why an option that is given is not accepted. -/
def optionRefusal? (w : Workspace) (c : Command) (p : Parsed) (s : Switch) : Option Refusal := do
  let value ← p.value? s
  let e ← valueFault? w c s value
  return refusal s.long value e

/-- Why the path of something to look at is not accepted. -/
def pathRefusal? (w : Workspace) (path : String) : Option Refusal :=
  let e := pathFault? w path fun entry => if entry.isSome then none else some (.missing .path)
  e.map (refusal "[PATHS]..." path)

/-- Why the arguments of a command are not accepted. -/
def argumentRefusal? (w : Workspace) (p : Parsed) : Command → Option Refusal
  | lint => p.arguments.findSome? (pathRefusal? w)
  | _ => if p.arguments.isEmpty then none else some (.misuse (.extraArguments p.arguments))

/-- Why what is given to a subcommand is not accepted: the first reason. -/
def firstRefusal? (w : Workspace) (c : Command) (p : Parsed) : Option Refusal :=
  (p.distinct.findSome? (optionRefusal? w c p)).or (argumentRefusal? w p c)

/-! ## Subcommands -/

/-- The project of a call: the current directory, unless another one is given. -/
def projectOf (w : Workspace) (p : Parsed) : Path :=
  ((p.value? .project).map Path.ofText).getD (.ofLocation w.current)

/-- The file with the rules that is given. -/
def rulesOf (p : Parsed) : Option Path := (p.value? .rules).map Path.ofText

/-- The lines on the error output for a log: all records, or the messages that matter. -/
def logLines (verbose : Bool) (log : List Record) : List String :=
  if verbose then log.map Record.text
  else (log.filter fun r => r.level = .warning).map (·.message)

/-- The lines on the error output for warnings. -/
def warningLines (ws : List Rule.Warning) : List String :=
  ws.map fun x => plain ("Warning: " ++ x.message)

/-- The run that a call of `lint` asks for. -/
def requestOf (w : Workspace) (p : Parsed) : Request :=
  { project := projectOf w p
    rules := rulesOf p
    paths := p.arguments.map Path.ofText
    reportAll := p.has .allPairs }

/-- The format that a call of `lint` asks for. -/
def formatOf (p : Parsed) : Format :=
  ((p.value? .format).bind fun v => Format.names.lookup v).getD .porcelain

/-- The outcome of a run. -/
def lintOutcome (verbose : Bool) (p : Parsed) (r : Run) : Outcome :=
  let text := (formatOf p).write r.report
  { exitCode := if p.has .strict && !r.report.findings.isEmpty then 1 else 0
    output := if text.isEmpty then "" else plain text ++ "\n"
    errors := printed (logLines verbose r.log ++ warningLines r.warnings) }

/-- The outcome of `lint`. -/
def runLint (w : Workspace) (verbose : Bool) (p : Parsed) : Outcome :=
  match run w (requestOf w p) with
  | .ok r => lintOutcome verbose p r
  | .error e =>
    match e.message, e with
    | some m, _ => .failed m
    | none, .rules _ fault => .broken (.rules fault)
    | none, .rulesNotFound path => .failed path.text

/-- The outcome of `rules`. -/
def runRules (w : Workspace) (verbose : Bool) (p : Parsed) : Outcome :=
  let path := Rules.pathFor (projectOf w p) (rulesOf p)
  match Rules.ofFile w path with
  | .ok r =>
    { output := printed (r.table.describe.map plain)
      errors := printed (logLines verbose r.log ++ warningLines r.table.warnings) }
  | .error e =>
    match e.message path.name with
    | some m => .failed ("Invalid rules configuration: " ++ m)
    | none => .broken (.rules e)

/-! ## Calls -/

/-- The version of the program. -/
def versionText : String := programName ++ ", version 0.3.0\n"

/-- The answer to an option that is answered before all others. -/
def eagerOutcome (c : Command) : Switch → Outcome
  | .version => { output := versionText }
  | _ => { output := c.page }

/-- The outcome of a call by its words, unless an error or an option answers it before. -/
def withParsed (c : Command) (words : List String) (go : Parsed → Outcome) : Outcome :=
  match c.parse words with
  | .error e => .misused c e
  | .ok p =>
    match p.eager? with
    | some s => eagerOutcome c s
    | none => go p

/-- The outcome of a subcommand. -/
def callSubcommand (w : Workspace) (verbose : Bool) (c : Command) (words : List String) : Outcome :=
  withParsed c words fun p =>
    match firstRefusal? w c p with
    | some (.misuse e) => .misused c e
    | some (.fault e) => .broken e
    | none => if c = lint then runLint w verbose p else runRules w verbose p

/-- The outcome of a call with an unknown subcommand.  Its words are read once more, as options that
    stand behind `--`. -/
def callUnknown (name : String) (rest : List String) : Outcome :=
  withParsed top (name :: rest) fun _ =>
    .misused top (.noSuchCommand name (Text.closeMatches (subcommands.map (·.1)) name))

/-- The outcome of a call. -/
def call (w : Workspace) (words : List String) : Outcome :=
  if words.isEmpty then { exitCode := 2, errors := top.page }
  else withParsed top words fun p =>
    match p.arguments with
    | [] => .misused top .missingCommand
    | name :: rest =>
      match subcommands.lookup name with
      | some c => callSubcommand w (p.has .verbose) c rest
      | none => callUnknown name rest

end AnnotationOrder.Command
