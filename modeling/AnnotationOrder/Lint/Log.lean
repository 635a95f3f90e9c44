/-
  What a run logs.

  * `Record.text`: a record with its level and the logger it comes from.
-/
namespace AnnotationOrder.Lint

/-- How much a record matters. -/
inductive Level
  | debug
  | info
  | warning
  deriving DecidableEq, Repr

/-- The name of a level. -/
def Level.text : Level → String
  | debug => "DEBUG"
  | info => "INFO"
  | warning => "WARNING"

/-- The loggers. -/
inductive Logger
  /-- What reads the rules. -/
  | rules
  /-- What checks the sources. -/
  | linter
  deriving DecidableEq, Repr

/-- The name of a logger. -/
def Logger.text : Logger → String
  | rules => "annorder.engine.rule_table"
  | linter => "annorder.linter"

/-- A record of a log. -/
structure Record where
  level : Level
  logger : Logger
  message : String
  deriving DecidableEq, Repr

/-- A record with its level and its logger. -/
def Record.text (r : Record) : String := r.level.text ++ " " ++ r.logger.text ++ ": " ++ r.message

end AnnotationOrder.Lint
