/-
  The values without parts in a configuration document.

  They can be keys of a mapping; numbers and truth values are one kind of key,
  compared by their numeric value.  What is no number is the same key only as
  itself.

  * `Atom.same`: when two keys are one;
  * `Atom.lt?`: the order of keys, where they have one, and `Atom.sort?`;
  * `Atom.text?`: an atom as text, `Atom.shown?`: as it is shown inside a
    collection.
-/
import AnnotationOrder.Document.Calendar
import AnnotationOrder.Number.Reading
import AnnotationOrder.Number.Shortest
import AnnotationOrder.Text.Quoted

namespace AnnotationOrder.Document

open Number Text

/-- A value without parts. -/
inductive Atom
  | null
  | bool (b : Bool)
  | int (n : Int)
  | float (x : Binary64)
  /-- What is no number.  The origin tells one that was written from the others. -/
  | nan (origin : Nat)
  | text (s : String)
  | bytes (bs : List UInt8)
  | date (d : Date)
  | moment (m : Moment)
  deriving DecidableEq, Repr, Inhabited

namespace Atom

/-- The integer that an atom stands for as a number, if it is one of the exact kinds. -/
def integer? : Atom → Option Int
  | bool b => some (if b then 1 else 0)
  | int n => some n
  | _ => none

/-- Two keys are one: numbers by their value, moments by their time, all else by being equal. -/
def same (a b : Atom) : Bool :=
  match a, b with
  | float x, float y => x == y || (!x.lt y && !y.lt x)
  | float x, b => b.integer?.any x.equalsInt
  | a, float y => a.integer?.any y.equalsInt
  | moment x, moment y => x.same y
  | a, b =>
    match a.integer?, b.integer? with
    | some m, some n => m == n
    | none, none => a == b
    | _, _ => false

/-- A number as a floating-point number, for comparison. -/
def number? : Atom → Option (Sum Int Binary64)
  | bool b => some (.inl (if b then 1 else 0))
  | int n => some (.inl n)
  | float x => some (.inr x)
  | nan _ => some (.inr .nan)
  | _ => none

/-- An integer is below a floating-point number. -/
def intLt (n : Int) (x : Binary64) : Bool :=
  match x with
  | .nan => false
  | .infinite s => !s
  | x => match x.toRatio? with
    | some (s, p, q) => n * q < (if s then -(p : Int) else p)
    | none => false

/-- A floating-point number is below an integer. -/
def ltInt (x : Binary64) (n : Int) : Bool :=
  match x with
  | .nan => false
  | .infinite s => s
  | x => match x.toRatio? with
    | some (s, p, q) => (if s then -(p : Int) else p) < n * q
    | none => false

/-- Whether one atom comes before the other, where their kinds have a common order. -/
def lt? (a b : Atom) : Option Bool :=
  match a, b with
  | text s, text t => some (s < t)
  | bytes s, bytes t => some (s.map (·.toNat) < t.map (·.toNat))
  | date x, date y => some (x.ordinal < y.ordinal)
  | moment x, moment y =>
    if x.offset.isSome == y.offset.isSome then some (x.instant < y.instant) else none
  | a, b =>
    match a.number?, b.number? with
    | some (.inl m), some (.inl n) => some (m < n)
    | some (.inl m), some (.inr y) => some (intLt m y)
    | some (.inr x), some (.inl n) => some (ltInt x n)
    | some (.inr x), some (.inr y) => some (x.lt y)
    | _, _ => none

/-- Atoms in increasing order, unless two of them have no common order. -/
def sort? (as : List Atom) : Option (List Atom) :=
  if as.length < 2 || as.all (fun a => as.all fun b => (a.lt? b).isSome) then
    some (as.mergeSort fun a b => !(b.lt? a).getD false)
  else none

/-- An integer in decimal digits, unless it has too many of them. -/
def integerText? (n : Int) : Option String :=
  if isShort n then some (toString n) else none

/-- An atom as it is shown inside a collection.  An integer that is too long cannot be shown. -/
def shown? : Atom → Option String
  | null => some "None"
  | bool b => some (if b then "True" else "False")
  | int n => integerText? n
  | float x => some x.text
  | nan _ => some Binary64.nan.text
  | text s => some (quoted s)
  | bytes bs => some (quotedBytes bs)
  | date d => some d.shown
  | moment m => some m.shown

/-- An atom as text. -/
def text? : Atom → Option String
  | text s => some s
  | date d => some d.text
  | moment m => some m.text
  | a => a.shown?

end Atom

/-- Values as a list is shown, given how each is shown. -/
def listed (shown : List String) : String := "[" ++ ", ".intercalate shown ++ "]"

/-- Atoms as a list is shown. -/
def listedAtoms? (as : List Atom) : Option String := (as.mapM Atom.shown?).map listed

end AnnotationOrder.Document
