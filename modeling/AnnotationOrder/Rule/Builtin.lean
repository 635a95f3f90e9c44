/-
  The rules that apply when nothing else is configured.
-/
import AnnotationOrder.Rule.Table

namespace AnnotationOrder.Rule

/-- The constraint that one name goes before another. -/
def Constraint.pair (name first second description : String) : Constraint where
  name := name
  description := description
  first.name := some first
  second.name := some second

/-- The built-in constraints. -/
def Builtin.constraints : List Constraint := [
  .pair "override-before-test" "Override" "Test" "@Override comes before @Test",
  { name := "inject-first"
    description := "@Inject comes before every other annotation"
    first.name := some "Inject"
    second.excluded := ["Inject"] },
  .pair "nullable-before-nonnull" "Nullable" "NonNull" "@Nullable comes before @NonNull",
  { name := "nullable-before-resource"
    description := "@Nullable comes before resource type annotations"
    first.name := some "Nullable"
    second.ending := some "Res" },
  { name := "nonnull-before-resource"
    description := "@NonNull comes before resource type annotations"
    first.name := some "NonNull"
    second.ending := some "Res" },
  .pair "checkresult-before-checkreturnvalue" "CheckResult" "CheckReturnValue"
    "@CheckResult comes before @CheckReturnValue",
  { name := "json-before-json-family"
    description := "@Json comes before the other @Json* annotations"
    first.name := some "Json"
    second.opening := some "Json"
    second.excluded := ["Json"] },
  .pair "documented-before-retention" "Documented" "Retention"
    "@Documented comes before @Retention",
  { name := "retention-before-typedef"
    description := "@Retention comes before typedef annotations such as @IntDef"
    first.name := some "Retention"
    second.ending := some "Def" },
  .pair "suppress-before-suppresslint" "Suppress" "SuppressLint"
    "@Suppress comes before @SuppressLint",
  .pair "suppresslint-before-suppresswarnings" "SuppressLint" "SuppressWarnings"
    "@SuppressLint comes before @SuppressWarnings",
  .pair "keep-before-restrictto" "Keep" "RestrictTo" "@Keep comes before @RestrictTo",
  .pair "restrictto-before-targetapi" "RestrictTo" "TargetApi"
    "@RestrictTo comes before @TargetApi" ]

/-- The built-in table. -/
def Table.builtin : Table := ⟨Builtin.constraints⟩

end AnnotationOrder.Rule
