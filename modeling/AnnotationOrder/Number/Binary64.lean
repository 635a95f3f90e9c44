/-
  Binary floating-point numbers of 64 bits, as exact integers.

  A finite number is a sign, a mantissa and a power of two.  `ofRatio` rounds an
  exact quotient to the nearest number, a tie to the even mantissa; sums and
  products round once.

  * `Binary64.ofRatio`: the number nearest to a quotient;
  * `Binary64.equalsInt`: exact comparison with an integer.
-/
namespace AnnotationOrder.Number

/-- A power of two. -/
abbrev twoTo (n : Nat) : Nat := Nat.pow 2 n

/-- A power of ten. -/
abbrev tenTo (n : Nat) : Nat := Nat.pow 10 n

/-- A floating-point number.  A finite one is `mantissa · 2 ^ exponent`, where the mantissa has 53
    bits or the exponent is `-1074`; zero has exponent `-1074`. -/
inductive Binary64
  | finite (negative : Bool) (mantissa : Nat) (exponent : Int)
  | infinite (negative : Bool)
  | nan
  deriving DecidableEq, Repr, Inhabited

namespace Binary64

/-- The number zero. -/
def zero : Binary64 := .finite false 0 (-1074)

/-- `n / d` rounded to the nearest natural number, a tie to the even one. -/
def roundDiv (n d : Nat) : Nat :=
  let q := n / d
  let r := 2 * (n % d)
  if d < r || (d = r && q % 2 = 1) then q + 1 else q

/-- `n / d · 2 ^ (-e)` rounded to the nearest natural number. -/
def scaled (n d : Nat) (e : Int) : Nat :=
  if 0 ≤ e then roundDiv n (d * twoTo e.toNat) else roundDiv (n * twoTo (-e).toNat) d

/-- The number nearest to `± n / d`. -/
def ofRatio (negative : Bool) (n d : Nat) : Binary64 :=
  if n = 0 || d = 0 then .finite negative 0 (-1074)
  else
    let estimate : Int := (n.log2 : Int) - d.log2 - 52
    -- the quotient scaled by the estimate lies between 2 ^ 51 and 2 ^ 53
    let small := if 0 ≤ estimate then n < d * twoTo estimate.toNat * twoTo 52
      else n * twoTo (-estimate).toNat < d * twoTo 52
    let e := max (-1074) (if small then estimate - 1 else estimate)
    let m := scaled n d e
    let (m, e) := if m = twoTo 53 then (twoTo 52, e + 1) else (m, e)
    if 971 < e then .infinite negative else .finite negative m e

/-- The exact value of a finite number as a signed quotient. -/
def toRatio? : Binary64 → Option (Bool × Nat × Nat)
  | .finite s m e => some (if 0 ≤ e then (s, m * twoTo e.toNat, 1) else (s, m, twoTo (-e).toNat))
  | _ => none

/-- The number with the other sign. -/
def neg : Binary64 → Binary64
  | .finite s m e => .finite (!s) m e
  | .infinite s => .infinite (!s)
  | .nan => .nan

/-- The signed sum of two exact quotients, rounded once. -/
def add : Binary64 → Binary64 → Binary64
  | .nan, _ | _, .nan => .nan
  | .infinite s, .infinite s' => if s = s' then .infinite s else .nan
  | .infinite s, _ | _, .infinite s => .infinite s
  | a@(.finite s _ _), b@(.finite s' _ _) =>
    match a.toRatio?, b.toRatio? with
    | some (_, n, d), some (_, n', d') =>
      let x : Int := (if s then -1 else 1) * (n * d') + (if s' then -1 else 1) * (n' * d)
      if x = 0 then .finite (s && s') 0 (-1074) else ofRatio (x < 0) x.natAbs (d * d')
    | _, _ => .nan

/-- The product with a natural number, which is rounded first. -/
def scale (a : Binary64) (k : Nat) : Binary64 :=
  match a, ofRatio false k 1 with
  | .nan, _ | _, .nan => .nan
  | .infinite s, .finite _ m _ => if m = 0 then .nan else .infinite s
  | .infinite s, .infinite _ => .infinite s
  | .finite s m _, .infinite _ => if m = 0 then .nan else .infinite s
  | a@(.finite s _ _), b@(.finite _ _ _) =>
    match a.toRatio?, b.toRatio? with
    | some (_, n, d), some (_, n', d') => ofRatio s (n * n') (d * d')
    | _, _ => .nan

/-- The number has exactly the value of the integer. -/
def equalsInt (a : Binary64) (k : Int) : Bool :=
  match a.toRatio? with
  | some (s, n, d) => (if s then -(n : Int) else n) == k * d
  | none => false

/-- The number is below the other one; nothing is below or above what is not a number. -/
def lt : Binary64 → Binary64 → Bool
  | .nan, _ | _, .nan => false
  | .infinite s, .infinite s' => s && !s'
  | .infinite s, _ => s
  | _, .infinite s => !s
  | a, b =>
    match a.toRatio?, b.toRatio? with
    | some (s, n, d), some (s', n', d') =>
      (if s then -(n * d' : Int) else (n * d' : Int))
        < (if s' then -(n' * d : Int) else (n' * d : Int))
    | _, _ => false

end Binary64

end AnnotationOrder.Number
