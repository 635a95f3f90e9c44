/-
  Findings: violations bound to the declarations and lines they were found on.

  * `Finding.span`, `Finding.line`: where a finding is shown;
  * `Report`: the findings of a run with its counters.
-/
import AnnotationOrder.Java.Declaration
import AnnotationOrder.Number.Binary64

namespace AnnotationOrder.Report

open AnnotationOrder.Order Java

/-- A declaration as a report names it. -/
structure Subject where
  kind : String
  name : Option String
  line : Int
  deriving DecidableEq, Repr, Inhabited

/-- A declaration as a report names it. -/
def Subject.ofDeclaration (d : Declaration) : Subject := ⟨d.kind, d.name, d.line⟩

/-- A violation bound to the file and the line it was found on. -/
structure Finding where
  filePath : String
  subject : Subject
  violation : Violation (Option Span)
  sourceLine : String
  deriving Repr

namespace Finding

/-- Where the misplaced annotation stands, if that is known. -/
def span (f : Finding) : Option Span := f.violation.misplaced.location

/-- The line of the misplaced annotation, else that of the declaration. -/
def line (f : Finding) : Int := (f.span.map (·.line)).getD f.subject.line

/-- The column of the misplaced annotation, counted from one. -/
def column? (f : Finding) : Option Int := f.span.map (·.column + 1)

end Finding

end AnnotationOrder.Report

namespace AnnotationOrder

open Report

/-- The findings of a run, with its counters. -/
structure Report where
  findings : List Finding := []
  rulesLoaded : Int := 0
  filesScanned : Int := 0
  declarationsChecked : Int := 0
  /-- How long the run took, in milliseconds.  The clock of the runs here stands still. -/
  elapsed : Number.Binary64 := .zero
  deriving Repr, Inhabited

end AnnotationOrder
