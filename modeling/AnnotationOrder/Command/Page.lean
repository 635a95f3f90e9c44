/-
  Help pages.

  A page names the command, says what it does, and lists its options, and its
  subcommands, in two columns.  The lines are at most 78 characters long.

  * `Command.page`: the page of a command.
-/
import AnnotationOrder.Command.Usage

namespace AnnotationOrder.Command

/-- A row of two columns; the second may go over several lines. -/
structure Row where
  term : String
  about : List String

/-- Blanks, a number of times. -/
def blanks (n : Nat) : String := String.ofList (List.replicate n ' ')

/-- A row, its second column starting at a width. -/
def Row.text (width : Nat) (r : Row) : String :=
  "  " ++ r.term ++ blanks (width - r.term.length)
    ++ ("\n" ++ blanks (width + 2)).intercalate r.about ++ "\n"

/-- Rows under a heading; the columns are two blanks apart. -/
def rowsUnder (heading : String) (rows : List Row) : String :=
  let width := (rows.map (·.term.length)).foldl max 0 + 2
  "\n" ++ heading ++ ":\n" ++ String.join (rows.map (Row.text width))

/-- What a command does, in one line. -/
def summary : Command → String
  | top => "annorder - check that annotations appear in canonical order."
  | lint => "Check annotation order in Java sources."
  | rules => "List the effective ordering rules."

/-- More on what a command does, in lines. -/
def details : Command → List String
  | lint =>
    ["Scans PATHS (default: the whole project). Exit codes: 0 = clean or findings",
      "without --strict, 1 = findings with --strict, 2 = configuration error."]
  | _ => []

/-- How an option is written. -/
def Switch.term : Switch → String
  | verbose => "-v, --verbose"
  | format => "--format [text|json|porcelain]"
  | rules => "--rules FILE"
  | project => "--project DIRECTORY"
  | s => s.long

/-- What an option of a command does, in lines. -/
def about (c : Command) : Switch → List String
  | .version => ["Show the version and exit."]
  | .verbose => ["Verbose output (debug logging)."]
  | .format => ["Output format (default: text if TTY,", "porcelain if piped)."]
  | .strict => ["Exit 1 if findings are reported."]
  | .allPairs => ["Report every inverted pair instead of the", "first one per declaration."]
  | .rules =>
    if c = lint then ["Rule config file (default:", "<project>/annotation-order.yml)."]
    else ["Rule config file (default: <project>/annotation-", "order.yml)."]
  | .project => ["Project root (default: current directory)."]
  | .help => ["Show this message and exit."]

/-- A paragraph of a page. -/
def paragraph (lines : List String) : String :=
  if lines.isEmpty then "" else "\n" ++ String.join (lines.map fun l => "  " ++ l ++ "\n")

/-- The page of a command. -/
def page (c : Command) : String :=
  c.usage ++ "\n" ++ paragraph [c.summary] ++ paragraph c.details
    ++ rowsUnder "Options" (c.switches.map fun s => ⟨s.term, c.about s⟩)
    ++ (if c = top then rowsUnder "Commands" (subcommands.map fun x => ⟨x.1, [x.2.summary]⟩)
      else "")

end AnnotationOrder.Command
