/-
  Reading the parts of a configuration document.

  A step of reading gives a part or a fault, and steps one after another give parts up to
  the first fault.  For each kind of part there is a condition on the value at its key, and
  reading the part succeeds just when the condition holds.

  * `bind_eq_ok_iff`, `guard_eq_ok_iff`, `mapM_eq_ok_iff`: what steps one after another
    give, and `bind_eq_error_iff`, `guard_eq_error_iff`: how they fail;
  * `IsCriterion`, `IsFlag`, `IsListOrNull`: what may stand at a key;
  * `criterion_eq_ok_iff`, `listAt_eq_ok_iff`, and so on: what is read there.
-/
import AnnotationOrder.Rule.Config
import Mathlib.Data.List.Forall2
import Mathlib.Tactic.SplitIfs

namespace AnnotationOrder.Rule

open Document Text

/-! ## Steps one after another -/

section
variable {ε φ α β : Type} {x : Except ε α} {f : α → Except ε β} {p : Prop} [Decidable p]

theorem bind_eq_ok_iff {b : β} : (x >>= f) = .ok b ↔ ∃ a, x = .ok a ∧ f a = .ok b := by
  cases x <;> simp [bind, Except.bind]

theorem bind_eq_error_iff {e : ε} :
    (x >>= f) = .error e ↔ x = .error e ∨ ∃ a, x = .ok a ∧ f a = .error e := by
  cases x <;> simp [bind, Except.bind]

/-- A check in front of a step. -/
theorem guard_eq_ok_iff {e : ε} {k : β → Except ε α} {a : α} :
    (if p then throw e >>= k else x) = .ok a ↔ ¬ p ∧ x = .ok a := by
  split_ifs with h <;> simp [h, bind, Except.bind, throw, throwThe, MonadExceptOf.throw]

theorem guard_eq_error_iff {e e' : ε} {k : β → Except ε α} :
    (if p then throw e >>= k else x) = .error e' ↔ p ∧ e = e' ∨ ¬ p ∧ x = .error e' := by
  split_ifs with h <;> simp [h, bind, Except.bind, throw, throwThe, MonadExceptOf.throw]

theorem mapError_eq_ok_iff {g : ε → φ} {a : α} : x.mapError g = .ok a ↔ x = .ok a := by
  cases x <;> simp [Except.mapError]

theorem mapError_eq_error_iff {g : ε → φ} {e : φ} :
    x.mapError g = .error e ↔ ∃ e', x = .error e' ∧ g e' = e := by
  cases x <;> simp [Except.mapError]

theorem mapM_eq_ok_iff {l : List α} {bs : List β} :
    l.mapM f = .ok bs ↔ List.Forall₂ (fun a b => f a = .ok b) l bs := by
  induction l generalizing bs with
  | nil =>
    rw [List.mapM_nil, List.forall₂_nil_left_iff]
    exact ⟨fun h => (Except.ok.inj h).symm, fun h => by rw [h]; rfl⟩
  | cons a l ih =>
    simp only [List.mapM_cons, bind_eq_ok_iff, List.forall₂_cons_left_iff]
    constructor
    · rintro ⟨b, hb, cs, hcs, h⟩
      exact ⟨b, cs, hb, ih.1 hcs, (Except.ok.inj h).symm⟩
    · rintro ⟨b, cs, hb, hcs, rfl⟩
      exact ⟨b, hb, cs, ih.2 hcs, rfl⟩

/-- There are results for all items when there is one for each. -/
theorem exists_forall₂_iff {r : α → β → Prop} {l : List α} :
    (∃ bs, List.Forall₂ r l bs) ↔ ∀ a ∈ l, ∃ b, r a b := by
  induction l with
  | nil => simp
  | cons a l ih =>
    simp only [List.forall₂_cons_left_iff, List.forall_mem_cons, ← ih]
    constructor
    · rintro ⟨_, b, bs, hb, hbs, rfl⟩
      exact ⟨⟨b, hb⟩, bs, hbs⟩
    · rintro ⟨⟨b, hb⟩, bs, hbs⟩
      exact ⟨_, b, bs, hb, hbs, rfl⟩

end

/-! ## Texts of values -/

variable {d : Document} {es : Entries} {key : String} {v : Value}

/-- A value that can be written out. -/
def HasText (d : Document) (v : Value) : Prop := ∃ s, d.text v = .ok s

theorem textOr_eq_ok_iff {ε : Type} {fault : TextError → ε} {s : String} :
    textOr fault d v = .ok s ↔ d.text v = .ok s := mapError_eq_ok_iff

/-! ## Keys -/

/-- Every key is a text among those known. -/
def HasKeys (known : List String) (es : Entries) : Prop :=
  ∀ e ∈ es, ∃ k ∈ known, e.1 = .text k

theorem unknownKeys_eq_nil_iff {known : List String} :
    unknownKeys known es = [] ↔ HasKeys known es := by
  simp [unknownKeys, HasKeys, eq_comm (b := Atom.text _)]

/-! ## Values at keys -/

/-- The text at a key. -/
def textAt? (es : Entries) (key : String) : Option String :=
  match es.get? key with
  | some (.atom (.text s)) => some s
  | _ => none

theorem textAt?_eq_some_iff {s : String} :
    textAt? es key = some s ↔ es.get? key = some (.atom (.text s)) := by
  unfold textAt?
  split <;> simp_all

/-- The items at a key; none if there is no list. -/
def itemsAt (d : Document) (es : Entries) (key : String) : List Value :=
  ((es.get? key).bind d.items?).getD []

/-- Absent, null, or a text that is not blank. -/
inductive IsCriterion : Option Value → Prop
  | absent : IsCriterion none
  | null : IsCriterion (some (.atom .null))
  | text {s} : blank s = false → IsCriterion (some (.atom (.text s)))

/-- Absent or a truth value. -/
inductive IsFlag : Option Value → Prop
  | absent : IsFlag none
  | bool (b) : IsFlag (some (.atom (.bool b)))

/-- Absent, null, or a list. -/
inductive IsListOrNull (d : Document) : Option Value → Prop
  | absent : IsListOrNull d none
  | null : IsListOrNull d (some (.atom .null))
  | list {v items} : d.items? v = some items → IsListOrNull d (some v)

/-- Absent, a text, or a list. -/
inductive IsExclusion (d : Document) : Option Value → Prop
  | absent : IsExclusion d none
  | text (s) : IsExclusion d (some (.atom (.text s)))
  | list {v items} : d.items? v = some items → IsExclusion d (some v)

/-- A number or a truth value that is equal to one. -/
inductive EqualsOne : Value → Prop
  | int : EqualsOne (.atom (.int 1))
  | bool : EqualsOne (.atom (.bool true))
  | float {x} : x.equalsInt 1 = true → EqualsOne (.atom (.float x))

theorem equalsOne_iff {a : Atom} : a.same (.int 1) = true ↔ EqualsOne (.atom a) := by
  constructor
  · intro h
    cases a with
    | bool b => cases b with
      | true => exact .bool
      | false => simp [Atom.same, Atom.integer?] at h
    | int n =>
      simp only [Atom.same, Atom.integer?, beq_iff_eq] at h
      rw [h]
      exact .int
    | float x => exact .float (by simpa [Atom.same, Atom.integer?] using h)
    | _ => simp [Atom.same, Atom.integer?] at h
  · intro h
    cases h with
    | int => rfl
    | bool => rfl
    | float hx => simpa [Atom.same, Atom.integer?] using hx

theorem criterion_eq_ok_iff {o : Option String} :
    Matcher.criterion es key = .ok o ↔ IsCriterion (es.get? key) ∧ textAt? es key = o := by
  unfold Matcher.criterion textAt?
  generalize es.get? key = v
  split
  · simp [IsCriterion.absent]
  · simp [IsCriterion.null]
  · rename_i s
    cases hb : blank s with
    | false => simp [IsCriterion.text hb]
    | true =>
      have hno : ¬ IsCriterion (some (.atom (.text s))) := by
        rintro ⟨⟩
        simp_all
      simp [hno]
  · rename_i v hnull htext
    have hno : ¬ IsCriterion (some v) := by
      rintro ⟨⟩ <;> simp_all
    simp [hno]

/-- A truth value is read; it differs from what counts without one only if it is written. -/
theorem flagAt_eq_ok_iff {ε : Type} {absent b : Bool} {fault : ε} :
    flagAt es key absent fault = .ok b ↔
      IsFlag (es.get? key) ∧ (b = !absent ↔ es.get? key = some (.atom (.bool !absent))) := by
  unfold flagAt
  generalize es.get? key = v
  split
  · cases b <;> cases absent <;> simp [IsFlag.absent]
  · rename_i b'
    simp only [IsFlag.bool, Except.ok.injEq, Option.some.injEq, Value.atom.injEq, Atom.bool.injEq,
      true_and]
    cases b <;> cases b' <;> cases absent <;> simp
  · rename_i v hbool
    have hno : ¬ IsFlag (some v) := by
      rintro ⟨⟩
      simp_all
    simp [hno]

theorem anyFlag_eq_ok_iff {b : Bool} :
    Matcher.anyFlag es = .ok b ↔ IsFlag (es.get? "any") ∧
      (b = true ↔ es.get? "any" = some (.atom (.bool true))) := flagAt_eq_ok_iff

theorem defaultsFlag_eq_ok_iff {b : Bool} :
    Config.defaultsFlag es = .ok b ↔ IsFlag (es.get? "defaults") ∧
      (b = false ↔ es.get? "defaults" = some (.atom (.bool false))) := flagAt_eq_ok_iff

theorem listAt_eq_ok_iff {e : ConfigError} {items : List Value} :
    Config.listAt d es key e = .ok items ↔ IsListOrNull d (es.get? key) ∧ itemsAt d es key = items := by
  unfold Config.listAt itemsAt
  generalize es.get? key = v
  split
  · simp [IsListOrNull.absent]
  · simp [IsListOrNull.null, items?, collection?]
  · rename_i v hnull
    cases hi : d.items? v with
    | none =>
      have hno : ¬ IsListOrNull d (some v) := by
        rintro ⟨⟩ <;> simp_all
      simp [hno]
    | some items => simp [IsListOrNull.list hi, hi]

/-! ### Exclusions -/

/-- The values that are taken as excluded names: a text alone, or the items of a list. -/
def exclusionItems (d : Document) (es : Entries) : List Value :=
  match es.get? "exclude" with
  | some (.atom (.text s)) => [.atom (.text s)]
  | _ => itemsAt d es "exclude"

theorem exclusions_of_isExclusion (h : IsExclusion d (es.get? "exclude")) :
    Matcher.exclusions d es = (exclusionItems d es).mapM (textOr .unwritable d) := by
  unfold Matcher.exclusions exclusionItems itemsAt
  generalize es.get? "exclude" = o at h
  cases h with
  | absent => rfl
  | text s => rfl
  | @list v items hi =>
    cases v with
    | atom a => cases hi
    | collection place => simp [hi]

theorem exclusions_of_not_isExclusion (h : ¬ IsExclusion d (es.get? "exclude")) :
    Matcher.exclusions d es = .error .badExclude := by
  unfold Matcher.exclusions
  generalize es.get? "exclude" = o at h
  split
  · exact absurd .absent h
  · exact absurd (.text _) h
  · split
    · rename_i items hi
      exact absurd (.list hi) h
    · rfl

theorem exclusions_eq_ok_iff {ss : List String} :
    Matcher.exclusions d es = .ok ss ↔ IsExclusion d (es.get? "exclude") ∧
      List.Forall₂ (fun v s => d.text v = .ok s) (exclusionItems d es) ss := by
  by_cases h : IsExclusion d (es.get? "exclude")
  · simp [exclusions_of_isExclusion h, mapM_eq_ok_iff, textOr_eq_ok_iff, h]
  · simp [exclusions_of_not_isExclusion h, h]

/-! ### Parts of rules -/

/-- The entries at a key. -/
def entriesAt? (d : Document) (es : Entries) (key : String) : Option Entries :=
  (es.get? key).bind d.entries?

variable {rule : String} {side : Side}

theorem side_eq_ok_iff {ms : Entries} :
    Constraint.side d rule es side = .ok ms ↔ entriesAt? d es side.key = some ms := by
  unfold Constraint.side entriesAt?
  cases (es.get? side.key).bind d.entries? <;> simp

theorem descriptionIn_eq_ok_iff {s : String} :
    Constraint.descriptionIn d es = .ok s ↔ es.get? "description" = none ∧ s = "" ∨
      ∃ v, es.get? "description" = some v ∧ d.text v = .ok s := by
  unfold Constraint.descriptionIn
  cases es.get? "description" with
  | none => simp [eq_comm]
  | some v => simp [textOr_eq_ok_iff]

/-- The name of a rule: a text that is not blank. -/
theorem nameIn?_eq_some_iff {name : String} :
    Constraint.nameIn? es = some name ↔ textAt? es "name" = some name ∧ blank name = false := by
  unfold Constraint.nameIn? textAt?
  split
  · rename_i s h
    split_ifs with hb <;> simp_all
    · rintro rfl
      simp [hb]
    · rintro rfl
      exact hb
  · rename_i h
    simp_all

/-! ### Versions -/

theorem checkVersion_eq_ok_iff {u : Unit} :
    Config.checkVersion d es = .ok u ↔ ∃ v, es.get? "version" = some v ∧ EqualsOne v := by
  unfold Config.checkVersion
  generalize es.get? "version" = o
  split
  · simp
  · have hno : ¬ EqualsOne (.atom .null) := by rintro ⟨⟩
    simp [hno]
  · rename_i a hnull
    simp [← equalsOne_iff]
  · rename_i v hnull hatom
    have hno : ¬ EqualsOne v := by
      rintro ⟨⟩ <;> simp_all
    simp only [Option.some.injEq, exists_eq_left', hno, iff_false]
    split <;> simp

end AnnotationOrder.Rule
