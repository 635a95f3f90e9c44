/-
  Floating-point numbers are read back.

  * `Decimal.rational`, `Binary64.written`: the number that a shortest text stands for;
  * `digits_shortest`: no number but zero has the digits of zero;
  * `unsigned?_point`: digits around a point, with an exponent behind them;
  * `unsigned?_text`: the text of a decimal number is read as this number;
  * `word?_floatChars`: so is what is written of a finite number.
-/
import AnnotationOrder.Proofs.Report.Scalar
import Mathlib.Algebra.Field.Rat
import Mathlib.Data.List.DropRight
import Mathlib.Tactic.FieldSimp

namespace AnnotationOrder.Number.Binary64

variable {m n d lo hi count : Nat} {e : Int} {closed : Bool} {x : Decimal}

/-- The value of a decimal number. -/
def Decimal.rational (x : Decimal) : ℚ := x.digits * 10 ^ (x.point - width x.digits)

/-- A number, no infinity. -/
def isFinite : Binary64 → Bool
  | .finite .. => true
  | _ => false

/-- The value of the shortest text of a finite number. -/
def written : Binary64 → ℚ
  | .finite negative m e =>
    let magnitude := if m = 0 then 0 else (shortest m e).rational
    if negative then -magnitude else magnitude
  | _ => 0

/-! ## Shortest digits -/

theorem digits_ofGrid (hcount : 0 < count) (hn : n ≠ 0) : (Decimal.ofGrid count e n).digits ≠ 0 := by
  unfold Decimal.ofGrid
  split_ifs with hwidth
  · exact hn
  · -- there is a digit left in front of the last one
    have hten : 10 ≤ n := by
      by_contra hlt
      rw [width, Nat.toDigits_of_lt_base (by omega), List.length_singleton] at hwidth
      omega
    change n / 10 ≠ 0
    omega

theorem fst_shift_pos (hlo : 0 < lo) (k : Int) : 0 < (shift lo d k).1 := by
  unfold shift
  split_ifs
  · exact Nat.mul_pos hlo (Nat.pow_pos (by decide))
  · exact hlo

theorem pos_of_isBetween (hlo : 0 < lo) (h : isBetween closed lo hi n = true) : 0 < n := by
  unfold isBetween at h
  split_ifs at h <;> simp only [Bool.and_eq_true, decide_eq_true_eq] at h <;> omega

/-- A number of a grid that lies above zero is not zero. -/
theorem digits_onGrid (hcount : 0 < count) (hlo : 0 < lo)
    (h : onGrid n d lo hi closed count = some x) : x.digits ≠ 0 := by
  unfold onGrid at h
  simp only at h
  have hpos := fst_shift_pos (d := d) hlo ((count : Int) - place n d)
  -- the lower neighbour is tried only where it lies between the ends
  have hbelow {y d' hi' : Nat} (h : isBetween closed (shift lo d ((count : Int) - place n d)).1 hi'
      (y * d') = true) : y ≠ 0 :=
    Nat.ne_of_gt (Nat.pos_of_mul_pos_right (pos_of_isBetween hpos h))
  split at h
  · rename_i hin _
    obtain rfl := Option.some.inj h
    apply digits_ofGrid hcount
    split_ifs
    · exact hbelow hin
    · exact Nat.succ_ne_zero _
  · rename_i hin _
    obtain rfl := Option.some.inj h
    exact digits_ofGrid hcount (hbelow hin)
  · obtain rfl := Option.some.inj h
    exact digits_ofGrid hcount (Nat.succ_ne_zero _)
  · cases h

theorem digits_shortest (hm : m ≠ 0) : (shortest m e).digits ≠ 0 := by
  unfold shortest
  generalize hunit : (if 2 ≤ e then (twoTo (e - 2).toNat, 1) else (1, twoTo (2 - e).toNat)) = scale
  obtain ⟨unit, d⟩ := scale
  have hpos : 0 < unit := by
    split_ifs at hunit <;> obtain ⟨rfl, -⟩ := Prod.mk.inj hunit
    · exact Nat.pow_pos (by decide)
    · decide
  have hlo : 0 < if (decide (m = twoTo 52) && decide (-1074 < e)) = true then 4 * m * unit - unit
      else 4 * m * unit - 2 * unit := by
    have : unit * 4 ≤ 4 * m * unit := by
      rw [Nat.mul_comm, Nat.mul_right_comm]
      exact Nat.le_mul_of_pos_right _ (by omega)
    split_ifs <;> omega
  simp only
  cases hfound : (List.range 17).findSome? fun i => onGrid (4 * m * unit) d _ _ _ (i + 1) with
  | none => exact hm
  | some x =>
    obtain ⟨i, -, hi⟩ := List.exists_of_findSome?_eq_some hfound
    exact digits_onGrid (Nat.succ_pos i) hlo hi

end AnnotationOrder.Number.Binary64

namespace AnnotationOrder.Report.Json

open Text Number Binary64

variable {minus : Bool} {n : Nat} {e p : Int} {c d : Char} {ds whole part rest tail : List Char}

/-! ## Around the point -/

theorem whole?_append (hhead : whole.head? ≠ some '0') (hne : whole ≠ [])
    (hdigits : ∀ c ∈ whole, isAsciiDigit c = true) (hrest : rest.head?.any isAsciiDigit = false) :
    whole? (whole ++ rest) = some (whole, rest) := by
  unfold whole?
  split
  · rename_i cs heq
    refine absurd ?_ hhead
    obtain ⟨d, ds, rfl⟩ := List.exists_cons_of_ne_nil hne
    rw [(List.cons.inj heq).1]
    rfl
  · exact digits?_append hne hdigits hrest

/-- A number with a point in it. -/
theorem unsigned?_point (minus : Bool)
    (hwhole : whole? (whole ++ '.' :: (part ++ tail)) = some (whole, '.' :: (part ++ tail)))
    (hne : part ≠ []) (hpart : ∀ c ∈ part, isAsciiDigit c = true)
    (htail : tail.head?.any isAsciiDigit = false) (he : exponent? tail = some e) :
    unsigned? minus (whole ++ '.' :: (part ++ tail)) =
      some (.number (signed minus (Nat.ofDigitChars 10 (whole ++ part) 0)) (e - part.length)) := by
  rw [unsigned?, hwhole]
  simp [fraction?, digits?_append hne hpart htail, he]

/-- A number with a point in it and no exponent. -/
theorem unsigned?_places (minus : Bool)
    (hwhole : whole? (whole ++ '.' :: part) = some (whole, '.' :: part))
    (hne : part ≠ []) (hpart : ∀ c ∈ part, isAsciiDigit c = true) :
    unsigned? minus (whole ++ '.' :: part) =
      some (.number (signed minus (Nat.ofDigitChars 10 (whole ++ part) 0)) (-part.length)) := by
  have hread := unsigned?_point minus (by rwa [List.append_nil]) hne hpart rfl rfl
  rwa [List.append_nil, Int.zero_sub] at hread

/-- A number with an exponent and no point. -/
theorem unsigned?_whole (minus : Bool) (hwhole : whole? (whole ++ tail) = some (whole, tail))
    (htail : tail.head? ≠ some '.') (he : exponent? tail = some e) :
    unsigned? minus (whole ++ tail) =
      some (.number (signed minus (Nat.ofDigitChars 10 whole 0)) e) := by
  have hfraction : fraction? tail = some ([], tail) := by
    unfold fraction?
    split
    · exact absurd rfl htail
    · rfl
  rw [unsigned?, hwhole]
  simp [hfraction, he]

theorem exponent?_signed {es : List Char} (hread : digits? es = some (es, [])) :
    exponent? ('e' :: '-' :: es) = some (-(Nat.ofDigitChars 10 es 0 : Int)) ∧
      exponent? ('e' :: '+' :: es) = some (Nat.ofDigitChars 10 es 0 : Int) := by
  simp only [exponent?, hread]
  exact ⟨rfl, rfl⟩

theorem exponent?_exponentChars (e : Int) : exponent? (exponentChars e) = some e := by
  obtain ⟨es, hes⟩ : ∃ es, es = if (Nat.toDigits 10 e.natAbs).length < 2 then
    '0' :: Nat.toDigits 10 e.natAbs else Nat.toDigits 10 e.natAbs := ⟨_, rfl⟩
  have hdigits : ∀ c ∈ Nat.toDigits 10 e.natAbs, isAsciiDigit c = true :=
    fun _ => isAsciiDigit_of_mem_toDigits
  have hread : digits? (es ++ []) = some (es, []) := by
    apply digits?_append _ _ rfl
    · rw [hes]
      split_ifs
      · exact List.cons_ne_nil _ _
      · exact Nat.toDigits_ne_nil
    · rw [hes]
      split_ifs
      · exact List.forall_mem_cons.2 ⟨rfl, hdigits⟩
      · exact hdigits
  have hvalue : Nat.ofDigitChars 10 es 0 = e.natAbs := by
    rw [hes]
    split_ifs
    · exact Nat.ofDigitChars_ten_toDigits
    · exact Nat.ofDigitChars_ten_toDigits
  rw [List.append_nil] at hread
  rw [exponentChars, ← hes]
  split_ifs with hsign
  · rw [(exponent?_signed hread).1, hvalue, Int.ofNat_natAbs_of_nonpos (Int.le_of_lt hsign),
      Int.neg_neg]
  · rw [(exponent?_signed hread).2, hvalue, Int.natAbs_of_nonneg (Int.not_lt.1 hsign)]

/-! ## Zeros at the end -/

theorem exists_trimZeros (ds : List Char) : ∃ k, ds = trimZeros ds ++ List.replicate k '0' := by
  refine ⟨(ds.rtakeWhile (· == '0')).length, ?_⟩
  have hzeros : ds.rtakeWhile (· == '0') = List.replicate (ds.rtakeWhile (· == '0')).length '0' :=
    List.eq_replicate_iff.2 ⟨rfl, fun c hc => by simpa using List.mem_rtakeWhile_imp hc⟩
  rw [← hzeros]
  exact (List.rdropWhile_append_rtakeWhile ..).symm

/-- The digits that are left of a number begin with no zero and tell its value. -/
theorem exists_trimmed {x : Decimal} (hx : x.digits ≠ 0) :
    ∃ d ds, trimZeros (Nat.toDigits 10 x.digits) = d :: ds ∧ d ≠ '0' ∧
      (∀ c ∈ d :: ds, isAsciiDigit c = true) ∧
      x.rational = Nat.ofDigitChars 10 (d :: ds) 0 * 10 ^ (x.point - (d :: ds).length) := by
  obtain ⟨k, hsplit⟩ := exists_trimZeros (Nat.toDigits 10 x.digits)
  generalize trimZeros (Nat.toDigits 10 x.digits) = left at hsplit
  have hhead : (Nat.toDigits 10 x.digits).head? ≠ some '0' := mt eq_zero_of_head?_toDigits hx
  have hvalue : x.digits = 10 ^ k * Nat.ofDigitChars 10 left 0 := by
    rw [← Nat.ofDigitChars_replicate_zero, ← Nat.ofDigitChars_append, ← hsplit,
      Nat.ofDigitChars_ten_toDigits]
  have hwidth : width x.digits = left.length + k := by
    rw [width, hsplit, List.length_append, List.length_replicate]
  rcases left with - | ⟨d, ds⟩
  · -- all digits would be zeros
    exact absurd (by simpa using hvalue) hx
  refine ⟨d, ds, rfl, ?_, fun c hc => isAsciiDigit_of_mem_toDigits (n := x.digits) ?_, ?_⟩
  · rintro rfl
    exact hhead (by rw [hsplit]; rfl)
  · rw [hsplit]
    exact List.mem_append_left _ hc
  · rw [Decimal.rational, hwidth, hvalue]
    push_cast
    have hpower : (10 : ℚ) ^ (x.point - ((d :: ds).length + k : Int)) * 10 ^ k =
        10 ^ (x.point - ((d :: ds).length : Int)) := by
      rw [← zpow_natCast, ← zpow_add₀ (by decide : (10 : ℚ) ≠ 0)]
      congr 1
      omega
    rw [← hpower, mul_comm (10 ^ k : ℚ), mul_right_comm, mul_assoc]

/-! ## Texts -/

theorem isAsciiDigit_of_mem_zeros {k : Int} (h : c ∈ zeros k) : isAsciiDigit c = true := by
  rw [List.eq_of_mem_replicate h]
  rfl

/-- Digits that all stand behind the point. -/
theorem unsigned?_pointed_of_nonpos (minus : Bool)
    (hdigits : ∀ c ∈ d :: ds, isAsciiDigit c = true) (hp : p ≤ 0) :
    unsigned? minus (pointed (d :: ds) p) =
      some (.number (signed minus (Nat.ofDigitChars 10 (d :: ds) 0)) (p - (d :: ds).length)) := by
  have hpart : ∀ c ∈ zeros (-p) ++ d :: ds, isAsciiDigit c = true :=
    fun c hc => (List.mem_append.1 hc).elim isAsciiDigit_of_mem_zeros (hdigits c)
  have hwhole : whole? (['0'] ++ '.' :: (zeros (-p) ++ d :: ds)) =
      some (['0'], '.' :: (zeros (-p) ++ d :: ds)) := rfl
  have hvalue : Nat.ofDigitChars 10 (['0'] ++ (zeros (-p) ++ d :: ds)) 0 =
      Nat.ofDigitChars 10 (d :: ds) 0 := by
    rw [Nat.ofDigitChars_append, Nat.ofDigitChars_append, zeros, Nat.ofDigitChars_replicate_zero]
    rfl
  have hplaces : -((zeros (-p) ++ d :: ds).length : Int) = p - (d :: ds).length := by
    rw [List.length_append, zeros, List.length_replicate]
    omega
  rw [pointed, if_pos hp, ← hplaces, ← hvalue]
  exact unsigned?_places minus hwhole (by simp) hpart

/-- Digits on both sides of the point. -/
theorem unsigned?_pointed_of_lt (minus : Bool) {q : Nat} (hd : d ≠ '0')
    (hdigits : ∀ c ∈ d :: ds, isAsciiDigit c = true) (hpos : 0 < q) (hq : q < (d :: ds).length) :
    unsigned? minus (pointed (d :: ds) q) =
      some (.number (signed minus (Nat.ofDigitChars 10 (d :: ds) 0)) (q - (d :: ds).length)) := by
  obtain ⟨k, rfl⟩ := Nat.exists_eq_succ_of_ne_zero (Nat.ne_of_gt hpos)
  have hpart : (d :: ds).drop (k + 1) ≠ [] := by
    rw [Ne, List.drop_eq_nil_iff]
    omega
  have hwhole : whole? ((d :: ds).take (k + 1) ++ '.' :: (d :: ds).drop (k + 1)) =
      some ((d :: ds).take (k + 1), '.' :: (d :: ds).drop (k + 1)) :=
    whole?_append (fun h => hd (Option.some.inj h)) (List.cons_ne_nil _ _)
      (fun c hc => hdigits c (List.mem_of_mem_take hc)) rfl
  have hread := unsigned?_places minus hwhole hpart fun c hc => hdigits c (List.mem_of_mem_drop hc)
  have hzeros : zeros ((k + 1 : Nat) - (d :: ds).length : Int) = [] := by
    rw [zeros, Int.toNat_sub, Nat.sub_eq_zero_of_le (Nat.le_of_lt hq), List.replicate_zero]
  have hplaces : -(((d :: ds).drop (k + 1)).length : Int) = (k + 1 : Nat) - (d :: ds).length := by
    rw [List.length_drop]
    omega
  rw [List.take_append_drop, hplaces] at hread
  rw [pointed, if_neg (by omega), hzeros, Int.toNat_natCast]
  simp only
  rw [List.append_nil, List.isEmpty_eq_false_iff.2 hpart, if_neg Bool.false_ne_true]
  exact hread

/-- Digits that all stand in front of the point. -/
theorem unsigned?_pointed_of_ge (minus : Bool) {q : Nat} (hd : d ≠ '0')
    (hdigits : ∀ c ∈ d :: ds, isAsciiDigit c = true) (hq : (d :: ds).length ≤ q) :
    unsigned? minus (pointed (d :: ds) q) = some (.number (signed minus
      (10 * (10 ^ (q - (d :: ds).length) * Nat.ofDigitChars 10 (d :: ds) 0))) (-1)) := by
  have hpos : 0 < q := Nat.lt_of_lt_of_le (Nat.succ_pos _) hq
  have hwhole : whole? (d :: ds ++ zeros (q - (d :: ds).length) ++ '.' :: ['0']) =
      some (d :: ds ++ zeros (q - (d :: ds).length), '.' :: ['0']) :=
    whole?_append (fun h => hd (Option.some.inj h)) (List.cons_ne_nil _ _)
      (fun c hc => (List.mem_append.1 hc).elim (hdigits c) isAsciiDigit_of_mem_zeros) rfl
  have hread := unsigned?_places minus hwhole (List.cons_ne_nil _ _)
    (List.forall_mem_singleton.2 rfl)
  have hvalue : Nat.ofDigitChars 10 (d :: ds ++ zeros (q - (d :: ds).length) ++ ['0']) 0 =
      10 * (10 ^ (q - (d :: ds).length) * Nat.ofDigitChars 10 (d :: ds) 0) := by
    rw [Nat.ofDigitChars_append, Nat.ofDigitChars_append, zeros, Int.toNat_sub,
      Nat.ofDigitChars_replicate_zero]
    rfl
  rw [hvalue] at hread
  rw [pointed, if_neg (by omega), Int.toNat_natCast, List.take_of_length_le hq,
    List.drop_eq_nil_of_le hq]
  exact hread

/-- Digits around a point are read as their number. -/
theorem unsigned?_pointed (minus : Bool) (hd : d ≠ '0')
    (hdigits : ∀ c ∈ d :: ds, isAsciiDigit c = true) (p : Int) :
    ∃ (n : Nat) (k : Int),
      unsigned? minus (pointed (d :: ds) p) = some (.number (signed minus n) k) ∧
      (n : ℚ) * 10 ^ k = Nat.ofDigitChars 10 (d :: ds) 0 * 10 ^ (p - (d :: ds).length) := by
  rcases Int.lt_or_le 0 p with hp | hp
  · obtain ⟨q, rfl⟩ := Int.eq_ofNat_of_zero_le (Int.le_of_lt hp)
    rcases Nat.lt_or_ge q (d :: ds).length with hq | hq
    · exact ⟨_, _, unsigned?_pointed_of_lt minus hd hdigits (by omega) hq, rfl⟩
    · refine ⟨_, _, unsigned?_pointed_of_ge minus hd hdigits hq, ?_⟩
      rw [zpow_neg_one, ← Int.ofNat_sub hq, zpow_natCast]
      push_cast
      field_simp
  · exact ⟨_, _, unsigned?_pointed_of_nonpos minus hdigits hp, rfl⟩

/-- Digits with an exponent are read as their number. -/
theorem unsigned?_scientific (minus : Bool) (hd : d ≠ '0')
    (hdigits : ∀ c ∈ d :: ds, isAsciiDigit c = true) (e : Int) :
    unsigned? minus (mantissaChars (d :: ds) ++ exponentChars e) =
      some (.number (signed minus (Nat.ofDigitChars 10 (d :: ds) 0)) (e - ds.length)) := by
  have hfirst (rest : List Char) (hrest : rest.head?.any isAsciiDigit = false) :
      whole? ([d] ++ rest) = some ([d], rest) :=
    whole?_append (fun h => hd (Option.some.inj h)) (List.cons_ne_nil d [])
      (List.forall_mem_singleton.2 (hdigits d List.mem_cons_self)) hrest
  cases ds with
  | nil =>
    have hpoint : (exponentChars e).head? ≠ some '.' := mt Option.some.inj (by decide)
    have hread := unsigned?_whole minus (hfirst (exponentChars e) rfl) hpoint
      (exponent?_exponentChars e)
    rw [List.length_nil, Int.natCast_zero, Int.sub_zero]
    exact hread
  | cons c ds =>
    exact unsigned?_point minus (hfirst _ rfl) (List.cons_ne_nil c ds)
      (fun b hb => hdigits b (List.mem_cons_of_mem d hb)) rfl (exponent?_exponentChars e)

/-- The text of a decimal number is read as this number. -/
theorem unsigned?_text (minus : Bool) {x : Decimal} (hx : x.digits ≠ 0) :
    ∃ (n : Nat) (k : Int), unsigned? minus x.text.toList = some (.number (signed minus n) k) ∧
      (n : ℚ) * 10 ^ k = x.rational := by
  obtain ⟨d, ds, htrim, hd, hdigits, hrational⟩ := exists_trimmed hx
  rw [Decimal.text, htrim, hrational]
  split_ifs with hrange
  · rw [String.toList_ofList]
    exact unsigned?_pointed minus hd hdigits x.point
  · rw [String.toList_ofList]
    refine ⟨_, _, unsigned?_scientific minus hd hdigits _, ?_⟩
    congr 2
    rw [List.length_cons]
    omega

/-! ## Numbers -/

theorem head?_of_unsigned? {cs : List Char} {v : Value} (h : unsigned? minus cs = some v) :
    cs.head?.any isAsciiDigit = true := by
  obtain ⟨split, hwhole, -⟩ := Option.bind_eq_some_iff.1 h
  unfold whole? at hwhole
  split at hwhole
  · rfl
  · rw [digits?] at hwhole
    split_ifs at hwhole with hdigit
    exact hdigit

/-- Without a sign, a number is read as what it says. -/
theorem word?_of_unsigned? {cs : List Char} {v : Value} (h : unsigned? false cs = some v) :
    word? cs = some v := by
  have hdigit := head?_of_unsigned? h
  cases cs with
  | nil => cases hdigit
  | cons c cs =>
    have hc : isAsciiDigit c = true := hdigit
    rw [word?_of_digit, number?_of_head?_ne, h]
    · rintro ⟨⟩
      cases hc
    · rw [List.head?_cons, Option.any_some, hc, Bool.true_or]

theorem unsigned?_magnitude (minus : Bool) (m : Nat) (e : Int) :
    ∃ (n : Nat) (k : Int),
      unsigned? minus (if m = 0 then "0.0" else (shortest m e).text).toList =
        some (.number (signed minus n) k) ∧
      (n : ℚ) * 10 ^ k = if m = 0 then 0 else (shortest m e).rational := by
  split_ifs with hm
  · exact ⟨0, -1, rfl, by rw [Nat.cast_zero, zero_mul]⟩
  · exact unsigned?_text minus (digits_shortest hm)

theorem floatChars_finite_true (m : Nat) (e : Int) :
    floatChars (.finite true m e) = '-' :: floatChars (.finite false m e) :=
  String.toList_append

/-- What is written of a finite number is read as its shortest text says. -/
theorem word?_floatChars {x : Binary64} (hx : x.isFinite = true) :
    ∃ n k : Int, word? (floatChars x) = some (.number n k) ∧ (n : ℚ) * 10 ^ k = x.written := by
  cases x with
  | infinite => cases hx
  | nan => cases hx
  | finite negative m e =>
    obtain ⟨n, k, hread, hvalue⟩ := unsigned?_magnitude negative m e
    refine ⟨signed negative n, k, ?_, ?_⟩
    · cases negative with
      | false => exact word?_of_unsigned? hread
      | true =>
        rw [floatChars_finite_true, word?_of_digit rfl]
        exact hread
    · cases negative with
      | false => exact hvalue
      | true =>
        rw [signed, if_pos rfl, Int.cast_neg, neg_mul, Int.cast_natCast, hvalue]
        rfl

/-! ## Characters -/

theorem isNumberChar_of_mem_pointed {ds : List Char} (hds : ∀ c ∈ ds, isAsciiDigit c = true)
    (p : Int) (hc : c ∈ pointed ds p) : isNumberChar c = true := by
  have hdigit : (c = '.' ∨ isAsciiDigit c = true) := by
    unfold pointed at hc
    split_ifs at hc
    · simp only [List.mem_cons, List.mem_append] at hc
      rcases hc with rfl | rfl | hc | hc
      · exact .inr rfl
      · exact .inl rfl
      · exact .inr (isAsciiDigit_of_mem_zeros hc)
      · exact .inr (hds c hc)
    · simp only [List.mem_cons, List.mem_append] at hc
      rcases hc with (hc | hc) | rfl | hc
      · exact .inr (hds c (List.mem_of_mem_take hc))
      · exact .inr (isAsciiDigit_of_mem_zeros hc)
      · exact .inl rfl
      · split_ifs at hc
        · rw [List.mem_singleton.1 hc]
          exact .inr rfl
        · exact .inr (hds c (List.mem_of_mem_drop hc))
  rcases hdigit with rfl | hdigit
  · rfl
  · exact isNumberChar_of_isAsciiDigit hdigit

theorem isNumberChar_of_mem_mantissaChars {ds : List Char} (hds : ∀ c ∈ ds, isAsciiDigit c = true)
    (hc : c ∈ mantissaChars ds) : isNumberChar c = true := by
  have hmem : c ∈ ds ∨ c = '.' := by
    unfold mantissaChars at hc
    split at hc
    · exact .inl hc
    · exact .inl hc
    · simp only [List.mem_cons] at hc ⊢
      tauto
  rcases hmem with hmem | rfl
  · exact isNumberChar_of_isAsciiDigit (hds c hmem)
  · rfl

theorem isNumberChar_of_mem_exponentChars (hc : c ∈ exponentChars e) : isNumberChar c = true := by
  rw [exponentChars, List.mem_cons, List.mem_cons] at hc
  rcases hc with rfl | hc | hc
  · rfl
  · split_ifs at hc <;> rw [hc] <;> rfl
  · split_ifs at hc
    · rcases List.mem_cons.1 hc with rfl | hc
      · rfl
      · exact isNumberChar_of_mem_toDigits hc
    · exact isNumberChar_of_mem_toDigits hc

theorem isNumberChar_of_mem_text {x : Decimal} (hc : c ∈ x.text.toList) : isNumberChar c = true := by
  have hds : ∀ c ∈ trimZeros (Nat.toDigits 10 x.digits), isAsciiDigit c = true := by
    obtain ⟨k, hsplit⟩ := exists_trimZeros (Nat.toDigits 10 x.digits)
    intro c hc
    refine isAsciiDigit_of_mem_toDigits (n := x.digits) ?_
    rw [hsplit]
    exact List.mem_append_left _ hc
  unfold Decimal.text at hc
  simp only at hc
  split_ifs at hc
  · rw [String.toList_ofList] at hc
    exact isNumberChar_of_mem_pointed hds _ hc
  · rw [String.toList_ofList, List.mem_append] at hc
    exact hc.elim (isNumberChar_of_mem_mantissaChars hds) isNumberChar_of_mem_exponentChars

/-- The characters of a finite number. -/
theorem isNumberChar_of_mem_floatChars {x : Binary64} (hx : x.isFinite = true)
    (hc : c ∈ floatChars x) : isNumberChar c = true := by
  cases x with
  | infinite => cases hx
  | nan => cases hx
  | finite negative m e =>
    have hmagnitude : ∀ c ∈ (if m = 0 then "0.0" else (shortest m e).text).toList,
        isNumberChar c = true := by
      split_ifs
      · exact List.all_eq_true.1 rfl
      · exact fun c => isNumberChar_of_mem_text
    cases negative with
    | false => exact hmagnitude c hc
    | true =>
      rw [floatChars_finite_true, List.mem_cons] at hc
      rcases hc with rfl | hc
      · rfl
      · exact hmagnitude c hc

end AnnotationOrder.Report.Json
