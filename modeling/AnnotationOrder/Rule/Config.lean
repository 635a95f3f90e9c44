/-
  Rule configurations: the meaning of a configuration document.

  A document is a mapping with a version, and optionally rules, exclusion
  patterns and whether the built-in rules apply.  Reading stops at the first
  fault, in the order in which the checks are written here.

  * `Matcher.ofEntries`, `Constraint.ofValue`, `Config.ofDocument`: the readers;
  * `MatcherError`, `RuleError`, `ConfigError`: the faults, each with its text.
    Three faults have no text: a version that cannot be looked up, unknown keys that
    cannot be put in order and a value that is nested too deeply to be written out.
    A value without a text is a fault wherever its text is asked for, even in the text
    of another fault;
  * `Constraint.read_eq`: what reading a rule gives, and which names have been seen then;
  * `Config.table`: the custom constraints in front of the built-in ones.
-/
import AnnotationOrder.Document.Value
import AnnotationOrder.Rule.Builtin
import AnnotationOrder.Text.Blank

namespace AnnotationOrder.Rule

open Document Text

/-! ## Texts of values -/

/-- The text of a value; that it has none is a fault. -/
def textOr {ε : Type} (fault : TextError → ε) (d : Document) (v : Value) : Except ε String :=
  (d.text v).mapError fault

/-! ## Truth values -/

/-- The truth value at a key, or what counts where there is none. -/
def flagAt {ε : Type} (entries : Entries) (key : String) (absent : Bool) (fault : ε) :
    Except ε Bool :=
  match entries.get? key with
  | none => .ok absent
  | some (.atom (.bool b)) => .ok b
  | some _ => .error fault

/-! ## Unknown keys -/

/-- The keys of a mapping that are not among the known ones. -/
def unknownKeys (known : List String) (entries : Entries) : List Atom :=
  (entries.map (·.1)).filter fun k => !(known.map Atom.text).contains k

/-- What is said of unknown keys, behind some words: the keys in order, if they have one. -/
def unknownKeysText (words : String) (keys : List Atom) : Option String :=
  (Atom.sort? keys).map fun ks =>
    match listedAtoms? ks with
    | some s => words ++ s
    | none => tooLongText

/-! ## Matchers -/

/-- Why a mapping is no matcher. -/
inductive MatcherError
  | unknownKeys (keys : List Atom)
  /-- The criterion is neither absent nor a text that is not blank. -/
  | badCriterion (key : String)
  | badAny
  | noCriterion
  /-- A wildcard with a criterion. -/
  | anyWithCriterion
  | badExclude
  /-- An excluded name has no text. -/
  | unwritable (e : TextError)
  deriving Repr

/-- The text of a matcher error, for the place where the matcher stands. -/
def MatcherError.message (context : String) : MatcherError → Option String
  | unknownKeys keys => unknownKeysText (context ++ ": unknown matcher keys ") keys
  | badCriterion key => some (context ++ ": '" ++ key ++ "' must be a non-empty string")
  | badAny => some (context ++ ": 'any' must be true or false")
  | noCriterion =>
    some (context ++ ": matcher must have one of 'name', 'prefix', 'suffix', or 'any: true'")
  | anyWithCriterion =>
    some (context ++ ": 'any' cannot be combined with 'name', 'prefix', or 'suffix'")
  | badExclude => some (context ++ ": 'exclude' must be a string or a list of strings")
  | unwritable e => e.message

namespace Matcher

/-- The keys that a matcher may have. -/
def keys : List String := ["name", "prefix", "suffix", "exclude", "any"]

/-- A criterion: absent, null, or a text that is not blank. -/
def criterion (entries : Entries) (key : String) : Except MatcherError (Option String) :=
  match entries.get? key with
  | none | some (.atom .null) => .ok none
  | some (.atom (.text s)) => if blank s then .error (.badCriterion key) else .ok (some s)
  | some _ => .error (.badCriterion key)

/-- Whether a matcher asks to be a wildcard. -/
def anyFlag (entries : Entries) : Except MatcherError Bool := flagAt entries "any" false .badAny

/-- The excluded names: one text, or a list of values taken as text. -/
def exclusions (d : Document) (entries : Entries) : Except MatcherError (List String) :=
  match entries.get? "exclude" with
  | none => .ok []
  | some (.atom (.text s)) => .ok [s]
  | some v =>
    match d.items? v with
    | some items => items.mapM (textOr .unwritable d)
    | none => .error .badExclude

/-- The matcher that a mapping describes.  A wildcard has to be asked for. -/
def ofEntries (d : Document) (entries : Entries) : Except MatcherError Matcher := do
  let unknown := unknownKeys keys entries
  if !unknown.isEmpty then throw (.unknownKeys unknown)
  let name ← criterion entries "name"
  let opening ← criterion entries "prefix"
  let ending ← criterion entries "suffix"
  let any ← anyFlag entries
  let hasCriterion := name.isSome || opening.isSome || ending.isSome
  if !hasCriterion && !any then throw .noCriterion
  if hasCriterion && any then throw .anyWithCriterion
  let excluded ← exclusions d entries
  return { name, opening, ending, excluded }

end Matcher

/-! ## Rules -/

/-- The two sides of a rule. -/
inductive Side
  | before
  | after
  deriving DecidableEq, Repr

/-- The key of a side. -/
def Side.key : Side → String
  | before => "before"
  | after => "after"

/-- Why a value is no rule. -/
inductive RuleError
  | notMapping (index : Nat)
  | missingName (index : Nat)
  | duplicateName (name : String)
  | unknownKeys (rule : String) (keys : List Atom)
  | badSide (rule : String) (side : Side)
  | matcher (rule : String) (side : Side) (e : MatcherError)
  /-- The description has no text. -/
  | unwritable (e : TextError)
  deriving Repr

/-- The text of a rule error. -/
def RuleError.message : RuleError → Option String
  | notMapping i => some ("rules: rule at index " ++ toString i ++ " must be a mapping")
  | missingName i =>
    some ("rules: rule at index " ++ toString i ++ " missing required 'name' field")
  | duplicateName name => some ("rules: Duplicate rule name '" ++ name ++ "'")
  | unknownKeys rule keys => unknownKeysText ("Rule '" ++ rule ++ "': unknown keys ") keys
  | badSide rule side => some ("Rule '" ++ rule ++ "': '" ++ side.key ++ "' must be a mapping")
  | matcher rule side e => e.message ("Rule '" ++ rule ++ "' " ++ side.key)
  | unwritable e => e.message

namespace Constraint

/-- The keys that a rule may have. -/
def keys : List String := ["name", "description", "before", "after"]

/-- The name that the entries of a rule carry: a text that is not blank. -/
def nameIn? (entries : Entries) : Option String :=
  match entries.get? "name" with
  | some (.atom (.text s)) => if blank s then none else some s
  | _ => none

/-- The name that a value carries as a rule. -/
def nameOf? (d : Document) (v : Value) : Option String := (d.entries? v).bind nameIn?

/-- The entries of a side. -/
def side (d : Document) (rule : String) (entries : Entries) (s : Side) :
    Except RuleError Entries :=
  match (entries.get? s.key).bind d.entries? with
  | some es => .ok es
  | none => .error (.badSide rule s)

/-- The matcher of a side. -/
def sideMatcher (d : Document) (rule : String) (s : Side) (entries : Entries) :
    Except RuleError Matcher :=
  (Matcher.ofEntries d entries).mapError (.matcher rule s)

/-- The description of a rule, empty if there is none. -/
def descriptionIn (d : Document) (entries : Entries) : Except RuleError String :=
  match entries.get? "description" with
  | none => .ok ""
  | some v => textOr .unwritable d v

/-- The rule with a name that is new. -/
def ofEntries (d : Document) (name : String) (entries : Entries) :
    Except RuleError Constraint := do
  let unknown := unknownKeys keys entries
  if !unknown.isEmpty then throw (.unknownKeys name unknown)
  let before ← side d name entries .before
  let after ← side d name entries .after
  let description ← descriptionIn d entries
  let first ← sideMatcher d name .before before
  let second ← sideMatcher d name .after after
  return { name, description, first, second }

/-- The rule that a value describes at an index of the list, given the names seen before. -/
def ofValue (d : Document) (index : Nat) (seen : List String) (v : Value) :
    Except RuleError Constraint :=
  match d.entries? v with
  | none => .error (.notMapping index)
  | some entries =>
    match nameIn? entries with
    | none => .error (.missingName index)
    | some name =>
      if seen.contains name then .error (.duplicateName name) else ofEntries d name entries

/-- The names seen after a value: the name it carries is added, whether it is a rule or not. -/
def seenAfter (d : Document) (seen : List String) (v : Value) : List String :=
  match nameOf? d v with
  | none => seen
  | some name => if seen.contains name then seen else seen ++ [name]

/-- A value read as a rule, with the names seen after it.  A name that is new counts as seen before the
    rest of the rule is looked at. -/
def read (d : Document) (index : Nat) (seen : List String) (v : Value) :
    Except RuleError Constraint × List String :=
  match d.entries? v with
  | none => (.error (.notMapping index), seen)
  | some entries =>
    match nameIn? entries with
    | none => (.error (.missingName index), seen)
    | some name =>
      if seen.contains name then (.error (.duplicateName name), seen)
      else
        let seen := seen ++ [name]
        (ofEntries d name entries, seen)

/-- The outcome for each value of a list, with the names seen after it; errors do not stop. -/
def ofValues (d : Document) :
    Nat → List String → List Value → List (Except RuleError Constraint × List String)
  | _, _, [] => []
  | index, seen, v :: vs =>
    let outcome := read d index seen v
    outcome :: ofValues d (index + 1) outcome.2 vs

theorem read_eq (d : Document) (index : Nat) (seen : List String) (v : Value) :
    read d index seen v = (ofValue d index seen v, seenAfter d seen v) := by
  rw [read, ofValue, seenAfter, nameOf?]
  cases d.entries? v with
  | none => rfl
  | some entries =>
    rw [Option.bind_some]
    dsimp only
    cases nameIn? entries with
    | none => rfl
    | some name =>
      dsimp only
      cases seen.contains name <;> rfl

theorem ofValues_cons (d : Document) (index : Nat) (seen : List String) (v : Value)
    (vs : List Value) : ofValues d index seen (v :: vs) =
      (ofValue d index seen v, seenAfter d seen v) ::
        ofValues d (index + 1) (seenAfter d seen v) vs := by
  rw [ofValues, read_eq]

end Constraint

/-! ## Configurations -/

/-- A rule configuration. -/
structure Config where
  constraints : List Constraint := []
  /-- Whether the built-in rules apply too. -/
  useDefaults : Bool := true
  /-- Patterns of the paths left out. -/
  exclude : List String := []
  deriving DecidableEq, Repr, Inhabited

/-- Why a document is no configuration. -/
inductive ConfigError
  | notMapping
  | missingVersion
  /-- The version is a value that cannot be looked up among the supported ones. -/
  | versionNotComparable
  /-- The version, as text where it has one. -/
  | unsupportedVersion (text : Except TextError String)
  | rulesNotList
  | excludeNotList
  | defaultsNotBool
  | rule (e : RuleError)
  /-- An exclusion pattern has no text. -/
  | unwritable (e : TextError)
  deriving Repr

/-- The text of a configuration error, for the name of the file. -/
def ConfigError.message (file : String) : ConfigError → Option String
  | notMapping => some (file ++ " must be a YAML mapping")
  | missingVersion => some (file ++ ": missing required 'version' field")
  | versionNotComparable => none
  | unsupportedVersion (.ok text) =>
    some (file ++ ": unsupported version " ++ text ++ ", expected one of [1]")
  | unsupportedVersion (.error e) | unwritable e => e.message
  | rulesNotList => some (file ++ ": 'rules' must be a list")
  | excludeNotList => some (file ++ ": 'exclude' must be a list of glob patterns")
  | defaultsNotBool => some (file ++ ": 'defaults' must be true or false")
  | rule e => e.message

namespace Config

/-- The version has to be equal to one. -/
def checkVersion (d : Document) (entries : Entries) : Except ConfigError Unit :=
  match entries.get? "version" with
  | none | some (.atom .null) => .error .missingVersion
  | some (.atom a) =>
    if a.same (.int 1) then .ok () else .error (.unsupportedVersion (d.text (.atom a)))
  | some v =>
    match d.collection? v with
    | some (.set _) => .error (.unsupportedVersion (d.text v))
    | _ => .error .versionNotComparable

/-- A list that may be absent or null. -/
def listAt (d : Document) (entries : Entries) (key : String) (e : ConfigError) :
    Except ConfigError (List Value) :=
  match entries.get? key with
  | none | some (.atom .null) => .ok []
  | some v =>
    match d.items? v with
    | some items => .ok items
    | none => .error e

/-- Whether the built-in rules apply: yes, unless the document says otherwise. -/
def defaultsFlag (entries : Entries) : Except ConfigError Bool :=
  flagAt entries "defaults" true .defaultsNotBool

/-- The rules of a list, up to the first fault. -/
def rulesOf (d : Document) (index : Nat) (seen : List String) :
    List Value → Except ConfigError (List Constraint)
  | [] => .ok []
  | v :: vs => do
    let c ← (Constraint.ofValue d index seen v).mapError .rule
    let cs ← rulesOf d (index + 1) (Constraint.seenAfter d seen v) vs
    return c :: cs

/-- The configuration that a document describes. -/
def ofDocument (d : Document) : Except ConfigError Config :=
  match d.entries? d.root with
  | none => .error .notMapping
  | some entries => do
    checkVersion d entries
    let rules ← listAt d entries "rules" .rulesNotList
    let patterns ← listAt d entries "exclude" .excludeNotList
    let useDefaults ← defaultsFlag entries
    let constraints ← rulesOf d 0 (Builtin.constraints.map (·.name)) rules
    let exclude ← patterns.mapM (textOr .unwritable d)
    return { constraints, useDefaults, exclude }

/-- The table that a configuration makes: its constraints in front of the built-in ones, if these
    apply. -/
def table (c : Config) : Table :=
  (if c.useDefaults then Table.builtin else ⟨[]⟩).override c.constraints

end Config

end AnnotationOrder.Rule
