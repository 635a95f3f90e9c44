/-
  Annotated declarations of a Java source.

  * `Span`: where the name of an annotation stands;
  * `Declaration`: a declaration with its annotations in the order of the source.
-/
import AnnotationOrder.Order.Violation

namespace AnnotationOrder.Java

open AnnotationOrder.Order

/-- A stretch of a line.  Lines count from one and columns from zero; the end does not belong to
    it. -/
structure Span where
  line : Int
  column : Int
  endColumn : Int
  deriving DecidableEq, Repr, Inhabited

/-- A declaration that carries annotations. -/
structure Declaration where
  /-- The type of the node that is declared. -/
  kind : String
  /-- The declared name; of several variables the first. -/
  name : Option String
  /-- The line on which the declaration starts. -/
  line : Nat
  annotations : List (Annot Span)
  deriving Repr, Inhabited

end AnnotationOrder.Java
