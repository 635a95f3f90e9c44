/-
  The shortest decimal text of a floating-point number.

  The numbers that round to a finite `m · 2 ^ e` form an interval, ends included
  when `m` is even.  For one digit, two digits and so on, the two neighbours of
  the number on that decimal grid are tried; the first grid that has one in the
  interval gives the digits, the nearer of two hits first.

  * `digits`: the digits of a finite number and the place of its point;
  * `text`: positional from `1e-4` below `1e16`, else with an exponent of at
    least two digits.
-/
import AnnotationOrder.Number.Binary64

namespace AnnotationOrder.Number.Binary64

/-- A decimal number `0.d₁d₂… · 10 ^ point`. -/
structure Decimal where
  digits : Nat
  point : Int
  deriving DecidableEq, Repr

/-- The number of decimal digits. -/
def width (n : Nat) : Nat := (Nat.toDigits 10 n).length

/-- The place `p` with `10 ^ (p - 1) ≤ n / d < 10 ^ p`, for positive `n` and `d`. -/
def place (n d : Nat) : Int :=
  if d ≤ n then width (n / d)
  else
    let k := width (d / n)
    -- `d / n` has `k` digits, so the quotient lies between `10 ^ (-k)` and `10 ^ (1 - k)`
    if n * tenTo (k - 1) = d then 2 - (k : Int) else 1 - (k : Int)

/-- `n / d · 10 ^ k` as a quotient. -/
def shift (n d : Nat) (k : Int) : Nat × Nat :=
  if 0 ≤ k then (n * tenTo k.toNat, d) else (n, d * tenTo (-k).toNat)

/-- A number lies between two ends, which count if the interval is closed. -/
def isBetween (closed : Bool) (lo hi x : Nat) : Bool :=
  if closed then lo ≤ x && x ≤ hi else lo < x && x < hi

/-- A number of the grid of `count` digits.  A carry into a further digit moves the point. -/
def Decimal.ofGrid (count : Nat) (p : Int) (x : Nat) : Decimal :=
  if width x ≤ count then ⟨x, p⟩ else ⟨x / 10, p + 1⟩

/-- The digits of `n / d` on the grid of `count` digits, if a point of it lies between the
    quotients `lo / d` and `hi / d`. -/
def onGrid (n d lo hi : Nat) (closed : Bool) (count : Nat) : Option Decimal :=
  let p := place n d
  let k := (count : Int) - p
  let (n', d') := shift n d k
  let (lo', _) := shift lo d k
  let (hi', _) := shift hi d k
  let below := n' / d'
  match isBetween closed lo' hi' (below * d'), isBetween closed lo' hi' ((below + 1) * d') with
  | true, true =>
    let r := 2 * (n' % d')
    let nearest := if r < d' || (r = d' && below % 2 = 0) then below else below + 1
    some (.ofGrid count p nearest)
  | true, false => some (.ofGrid count p below)
  | false, true => some (.ofGrid count p (below + 1))
  | false, false => none

/-- The shortest digits that read back as the positive number `m · 2 ^ e`. -/
def shortest (m : Nat) (e : Int) : Decimal :=
  -- a quarter of the last place is the unit of all four quotients
  let (unit, d) := if 2 ≤ e then (twoTo (e - 2).toNat, 1) else (1, twoTo (2 - e).toNat)
  let n := 4 * m * unit
  let hi := n + 2 * unit
  let lo := if m = twoTo 52 && -1074 < e then n - unit else n - 2 * unit
  let found := (List.range 17).findSome? fun i => onGrid n d lo hi (m % 2 = 0) (i + 1)
  found.getD ⟨m, 0⟩

/-- Digits without the zeros at their end. -/
def trimZeros (ds : List Char) : List Char := (ds.reverse.dropWhile (· == '0')).reverse

/-- As many zeros; none for a negative number. -/
def zeros (k : Int) : List Char := List.replicate k.toNat '0'

/-- Digits around a point. -/
def pointed (ds : List Char) (point : Int) : List Char :=
  if point ≤ 0 then '0' :: '.' :: (zeros (-point) ++ ds)
  else
    let whole := ds.take point.toNat ++ zeros (point - ds.length)
    let part := ds.drop point.toNat
    whole ++ '.' :: (if part.isEmpty then ['0'] else part)

/-- The point behind the first digit, if there are others. -/
def mantissaChars : List Char → List Char
  | [] => []
  | [c] => [c]
  | c :: rest => c :: '.' :: rest

/-- An exponent, of two digits at least. -/
def exponentChars (e : Int) : List Char :=
  let es := Nat.toDigits 10 e.natAbs
  'e' :: (if e < 0 then '-' else '+') :: (if es.length < 2 then '0' :: es else es)

/-- The text of a decimal number. -/
def Decimal.text (x : Decimal) : String :=
  let ds := trimZeros (Nat.toDigits 10 x.digits)
  if -4 < x.point && x.point ≤ 16 then String.ofList (pointed ds x.point)
  else String.ofList (mantissaChars ds ++ exponentChars (x.point - 1))

/-- The shortest text of a floating-point number. -/
def text : Binary64 → String
  | .nan => "nan"
  | .infinite s => if s then "-inf" else "inf"
  | .finite s m e =>
    let magnitude := if m = 0 then "0.0" else (shortest m e).text
    if s then "-" ++ magnitude else magnitude

end AnnotationOrder.Number.Binary64
