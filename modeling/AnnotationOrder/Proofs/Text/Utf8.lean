/-
  Decoding what has been encoded.

  The bytes of a character begin with a lead byte that asks for the others, and each of
  these carries six bits of the character.

  * `tails?_lead`: what the lead bytes of encoded characters ask for;
  * `run_encodeChar`: the bytes of a character are read as this character;
  * `decode_encode`, `decodeReplacing_encode`: so a text is read back from its bytes, in
    both ways of decoding.
-/
import AnnotationOrder.Text.Utf8
import Mathlib.Tactic.SplitIfs

namespace AnnotationOrder.Text.Utf8

variable {s : State} {c : Char} {n k : Nat}

/-! ## Lead bytes -/

theorem toNat_ofNat (hn : n < 256) : (UInt8.ofNat n).toNat = n := by
  rw [UInt8.toNat_ofNat', Nat.mod_eq_of_lt hn]

theorem tails?_one : ∀ n < 0x80, tails? (.ofNat n) = some (0, 0x80, 0xbf) := by decide +kernel

theorem tails?_two : ∀ n < 32, 2 ≤ n → tails? (.ofNat (n + 192)) = some (1, 0x80, 0xbf) := by
  decide +kernel

theorem tails?_three : ∀ n < 16, tails? (.ofNat (n + 224)) =
    some (2, if n = 0 then 0xa0 else 0x80, if n = 13 then 0x9f else 0xbf) := by
  decide +kernel

theorem tails?_four : ∀ n < 5, tails? (.ofNat (n + 240)) =
    some (3, if n = 0 then 0x90 else 0x80, if n = 4 then 0x8f else 0xbf) := by
  decide +kernel

/-! ## Steps -/

theorem run_append (s : State) (xs ys : List UInt8) :
    s.run (xs ++ ys) = (s.run xs).bind (·.run ys) := by
  induction xs generalizing s with
  | nil => rfl
  | cons b xs ih =>
    rw [List.cons_append, State.run, State.run]
    cases s.step b with
    | error e => rfl
    | ok s => exact ih s

/-- A lead byte that asks for others. -/
theorem step_lead {p : Nat} {cs : List Char} {b : UInt8} {m : Nat} {lo hi : UInt8}
    (hb : tails? b = some (m + 1, lo, hi)) :
    State.step ⟨p, cs, none⟩ b =
      .ok ⟨p + 1, cs, some ⟨b, 1, m + 1, lo, hi, leadBits b (m + 1)⟩⟩ := by
  simp [State.step, hb]

/-- A byte that carries six bits, in the range that is asked for. -/
theorem between_tail {lo hi : UInt8} (hk : k < 64) (hlo : lo.toNat ≤ k + 128)
    (hhi : k + 128 ≤ hi.toNat) :
    (lo ≤ UInt8.ofNat (k + 128) && UInt8.ofNat (k + 128) ≤ hi) = true := by
  have hnat : (UInt8.ofNat (k + 128)).toNat = k + 128 := toNat_ofNat (by omega)
  simp only [Bool.and_eq_true, decide_eq_true_eq, UInt8.le_iff_toNat_le, hnat]
  exact ⟨hlo, hhi⟩

/-- A byte that goes on with a character, with others still to come. -/
theorem step_tail {p m size bits : Nat} {cs : List Char} {lead lo hi : UInt8} (hk : k < 64)
    (hlo : lo.toNat ≤ k + 128) (hhi : k + 128 ≤ hi.toNat) :
    State.step ⟨p, cs, some ⟨lead, size, m + 2, lo, hi, bits⟩⟩ (.ofNat (k + 128)) =
      .ok ⟨p + 1, cs, some ⟨lead, size + 1, m + 1, 0x80, 0xbf, bits * 64 + k⟩⟩ := by
  have hnat : (UInt8.ofNat (k + 128)).toNat = k + 128 := toNat_ofNat (by omega)
  simp only [State.step, between_tail hk hlo hhi, hnat, if_true, Nat.add_sub_cancel]
  rfl

/-- The last byte of a character. -/
theorem step_last {p size bits : Nat} {cs : List Char} {lead lo hi : UInt8} (hk : k < 64)
    (hlo : lo.toNat ≤ k + 128) (hhi : k + 128 ≤ hi.toNat) :
    State.step ⟨p, cs, some ⟨lead, size, 1, lo, hi, bits⟩⟩ (.ofNat (k + 128)) =
      .ok ⟨p + 1, Char.ofNat (bits * 64 + k) :: cs, none⟩ := by
  have hnat : (UInt8.ofNat (k + 128)).toNat = k + 128 := toNat_ofNat (by omega)
  simp only [State.step, between_tail hk hlo hhi, hnat, if_true, Nat.add_sub_cancel]

/-! ## Characters -/

theorem run_cons {b : UInt8} {bs : List UInt8} {s' : State} (h : s.step b = .ok s') :
    s.run (b :: bs) = s'.run bs := by
  rw [State.run, h]

theorem leadBits_two (hn : n < 32) : leadBits (.ofNat (n + 192)) 1 = n := by
  have hnat : (UInt8.ofNat (n + 192)).toNat = n + 192 := toNat_ofNat (by omega)
  change (UInt8.ofNat (n + 192)).toNat - 192 = n
  omega

theorem leadBits_three (hn : n < 16) : leadBits (.ofNat (n + 224)) 2 = n := by
  have hnat : (UInt8.ofNat (n + 224)).toNat = n + 224 := toNat_ofNat (by omega)
  change (UInt8.ofNat (n + 224)).toNat - 224 = n
  omega

theorem leadBits_four (hn : n < 8) : leadBits (.ofNat (n + 240)) 3 = n := by
  have hnat : (UInt8.ofNat (n + 240)).toNat = n + 240 := toNat_ofNat (by omega)
  change (UInt8.ofNat (n + 240)).toNat - 240 = n
  omega

/-- **The bytes of a character are read as this character.** -/
theorem run_encodeChar (p : Nat) (cs : List Char) (c : Char) :
    State.run ⟨p, cs, none⟩ (String.utf8EncodeChar c) =
      .ok ⟨p + (String.utf8EncodeChar c).length, c :: cs, none⟩ := by
  have hc : Char.ofNat c.val.toNat = c := Char.ofNat_toNat c
  have hvalid : c.val.toNat < 0xd800 ∨ 0xdfff < c.val.toNat ∧ c.val.toNat < 0x110000 := c.valid
  have h80 : (0x80 : UInt8).toNat = 0x80 := rfl
  have hbf : (0xbf : UInt8).toNat = 0xbf := rfl
  unfold String.utf8EncodeChar
  generalize c.val.toNat = v at hc hvalid
  simp only
  split_ifs with h₁ h₂ h₃
  · simp [State.run, State.step, tails?_one v (by omega), hc, Nat.mod_eq_of_lt (by omega : v < 256)]
  · have hv : v / 64 % 32 * 64 + v % 64 = v := by omega
    rw [run_cons (step_lead (tails?_two _ (by omega) (by omega))), leadBits_two (by omega),
      run_cons (step_last (by omega) (by omega) (by omega)), hv, hc]
    rfl
  · -- the byte behind the lead byte leaves out short forms and surrogates
    have hlo : (if v / 4096 % 16 = 0 then 0xa0 else 0x80 : UInt8).toNat ≤ v / 64 % 64 + 128 := by
      have ha0 : (0xa0 : UInt8).toNat = 0xa0 := rfl
      split_ifs <;> omega
    have hhi : v / 64 % 64 + 128 ≤ (if v / 4096 % 16 = 13 then 0x9f else 0xbf : UInt8).toNat := by
      have h9f : (0x9f : UInt8).toNat = 0x9f := rfl
      split_ifs <;> omega
    have hv : (v / 4096 % 16 * 64 + v / 64 % 64) * 64 + v % 64 = v := by omega
    rw [run_cons (step_lead (tails?_three _ (by omega))), leadBits_three (by omega),
      run_cons (step_tail (by omega) hlo hhi),
      run_cons (step_last (by omega) (by omega) (by omega)), hv, hc]
    rfl
  · -- here it leaves out short forms and what is beyond the last character
    have hlo : (if v / 262144 % 8 = 0 then 0x90 else 0x80 : UInt8).toNat ≤ v / 4096 % 64 + 128 := by
      have h90 : (0x90 : UInt8).toNat = 0x90 := rfl
      split_ifs <;> omega
    have hhi : v / 4096 % 64 + 128 ≤ (if v / 262144 % 8 = 4 then 0x8f else 0xbf : UInt8).toNat := by
      have h8f : (0x8f : UInt8).toNat = 0x8f := rfl
      split_ifs <;> omega
    have hv : ((v / 262144 % 8 * 64 + v / 4096 % 64) * 64 + v / 64 % 64) * 64 + v % 64 = v := by
      omega
    rw [run_cons (step_lead (tails?_four _ (by omega))), leadBits_four (by omega),
      run_cons (step_tail (by omega) hlo hhi),
      run_cons (step_tail (by omega) (by omega) (by omega)),
      run_cons (step_last (by omega) (by omega) (by omega)), hv, hc]
    rfl

/-! ## Texts -/

theorem run_encode (p : Nat) (acc cs : List Char) :
    State.run ⟨p, acc, none⟩ (encode cs) =
      .ok ⟨p + (encode cs).length, cs.reverse ++ acc, none⟩ := by
  induction cs generalizing p acc with
  | nil => rfl
  | cons c cs ih =>
    have hsplit : encode (c :: cs) = String.utf8EncodeChar c ++ encode cs := List.flatMap_cons
    rw [hsplit, run_append, run_encodeChar, Except.bind, ih, List.length_append, Nat.add_assoc]
    simp

/-- A text is read back from its bytes. -/
theorem decode_encode (s : String) : decode (encode s.toList) = .ok s := by
  have hrun : State.run {} (encode s.toList) = _ := run_encode 0 [] s.toList
  rw [decode, hrun]
  simp [bind, Except.bind, State.finish]

/-- As long as there are no faults, none are replaced. -/
theorem foldl_stepReplacing {bs : List UInt8} {s' : State} (h : s.run bs = .ok s') :
    bs.foldl State.stepReplacing s = s' := by
  induction bs generalizing s with
  | nil => exact Except.ok.inj h
  | cons b bs ih =>
    rw [State.run] at h
    cases hb : s.step b with
    | error e =>
      rw [hb] at h
      cases h
    | ok t =>
      rw [hb] at h
      rw [List.foldl_cons, State.stepReplacing, hb]
      exact ih h

theorem decodeReplacing_encode (cs : List Char) : decodeReplacing (encode cs) = cs := by
  have hrun : State.run {} (encode cs) = _ := run_encode 0 [] cs
  rw [decodeReplacing, foldl_stepReplacing hrun]
  simp

theorem encode_append (xs ys : List Char) : encode (xs ++ ys) = encode xs ++ encode ys :=
  List.flatMap_append

end AnnotationOrder.Text.Utf8
