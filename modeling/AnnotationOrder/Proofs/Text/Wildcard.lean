/-
  What it means for a text to match a pattern.

  The parts of a pattern are worked off from the last one, with a truth value for every
  suffix of the text: whether the parts so far cover it.

  * `Tells`: truth values that say of which suffixes of a text something holds;
  * `tells_covers`: the values worked out say which suffixes the parts cover;
  * `matches_iff`: so a text matches when the parts of the pattern cover it.
-/
import Mathlib.Data.List.Forall2
import Mathlib.Data.List.Infix
import AnnotationOrder.Text.Wildcard

namespace AnnotationOrder.Text.Wildcard

variable {P : List Char → Prop} {p : Part} {ps : List Part} {c : Char} {text rest : List Char}
  {b : Bool} {bs : List Bool}

/-! ## Parts that cover a text -/

theorem matches_nil_iff : Matches [] text ↔ text = [] :=
  ⟨fun h => by cases h; rfl, fun h => h ▸ .nil⟩

theorem matches_anyRun_iff :
    Matches (.anyRun :: ps) text ↔ ∃ rest, rest <:+ text ∧ Matches ps rest := by
  constructor
  · intro h
    cases h with
    | anyRun skipped rest h => exact ⟨rest, List.suffix_append _ _, h⟩
    | one hc _ => simp [Part.accepts] at hc
  · rintro ⟨rest, ⟨skipped, rfl⟩, h⟩
    exact .anyRun skipped rest h

theorem matches_cons_iff (hp : p ≠ .anyRun) :
    Matches (p :: ps) text ↔ ∃ c rest, text = c :: rest ∧ p.accepts c = true ∧ Matches ps rest := by
  constructor
  · intro h
    cases h with
    | anyRun => exact absurd rfl hp
    | one hc h => exact ⟨_, _, rfl, hc, h⟩
  · rintro ⟨c, rest, rfl, hc, h⟩
    exact .one hc h

/-! ## One truth value for each suffix -/

/-- Truth values say of each suffix of a text, from the whole text on, whether a statement holds. -/
def Tells (P : List Char → Prop) (text : List Char) (bs : List Bool) : Prop :=
  List.Forall₂ (fun b rest => b = true ↔ P rest) bs text.tails

theorem tells_nil_iff : Tells P [] bs ↔ ∃ b, bs = [b] ∧ (b = true ↔ P []) := by
  simp [Tells, List.forall₂_cons_right_iff, and_comm]

theorem tells_cons_iff :
    Tells P (c :: text) bs ↔ ∃ b bs', bs = b :: bs' ∧ (b = true ↔ P (c :: text)) ∧
      Tells P text bs' := by
  rw [Tells, List.tails_cons, List.forall₂_cons_right_iff]
  constructor
  · rintro ⟨b, bs', hb, hbs, rfl⟩
    exact ⟨b, bs', rfl, hb, hbs⟩
  · rintro ⟨b, bs', rfl, hb, hbs⟩
    exact ⟨b, bs', hb, hbs, rfl⟩

theorem Tells.cons (hb : b = true ↔ P (c :: text)) (h : Tells P text bs) :
    Tells P (c :: text) (b :: bs) :=
  tells_cons_iff.2 ⟨b, bs, rfl, hb, h⟩

/-- The first value is about the whole text. -/
theorem Tells.head_iff (h : Tells P text bs) : bs.head?.getD false = true ↔ P text := by
  cases text with
  | nil =>
    obtain ⟨b, rfl, hb⟩ := tells_nil_iff.1 h
    exact hb
  | cons c text =>
    obtain ⟨b, bs, rfl, hb, -⟩ := tells_cons_iff.1 h
    exact hb

theorem Tells.congr {Q : List Char → Prop} (h : Tells P text bs) (hPQ : ∀ rest, P rest ↔ Q rest) :
    Tells Q text bs :=
  h.imp fun _ rest hb => hb.trans (hPQ rest)

/-- No parts are left: only the empty suffix is covered. -/
theorem tells_eq_nil (text : List Char) :
    Tells (· = []) text (text.map (fun _ => false) ++ [true]) := by
  induction text with
  | nil => exact tells_nil_iff.2 ⟨true, rfl, by simp⟩
  | cons c text ih => exact .cons (by simp) ih

/-- A run of any characters: some suffix of the suffix has to be covered. -/
theorem Tells.anySuffix (h : Tells P text bs) :
    Tells (fun s => ∃ rest, rest <:+ s ∧ P rest) text (anySuffix bs) := by
  induction text generalizing bs with
  | nil =>
    obtain ⟨b, rfl, hb⟩ := tells_nil_iff.1 h
    refine tells_nil_iff.2 ⟨b, by simp [Wildcard.anySuffix], ?_⟩
    simp [hb]
  | cons c text ih =>
    obtain ⟨b, bs, rfl, hb, hbs⟩ := tells_cons_iff.1 h
    refine .cons ?_ (ih hbs)
    rw [Bool.or_eq_true, hb, (ih hbs).head_iff]
    simp [List.suffix_cons_iff, or_and_right, exists_or]

/-- One character: it has to be accepted, and the suffix behind it to be covered. -/
theorem Tells.one (p : Part) (h : Tells P text bs) :
    Tells (fun s => ∃ c rest, s = c :: rest ∧ p.accepts c = true ∧ P rest) text
      (List.zipWith (fun c b => p.accepts c && b) text (bs.drop 1) ++ [false]) := by
  induction text generalizing bs with
  | nil => exact tells_nil_iff.2 ⟨false, by simp, by simp⟩
  | cons c text ih =>
    obtain ⟨b, bs, rfl, -, hbs⟩ := tells_cons_iff.1 h
    obtain ⟨d, ds, rfl⟩ : ∃ d ds, bs = d :: ds := by
      cases text with
      | nil =>
        obtain ⟨d, hd, -⟩ := tells_nil_iff.1 hbs
        exact ⟨d, [], hd⟩
      | cons c' text =>
        obtain ⟨d, ds, hd, -⟩ := tells_cons_iff.1 hbs
        exact ⟨d, ds, hd⟩
    have hd : d = true ↔ P text := hbs.head_iff
    refine .cons ?_ (ih hbs)
    rw [Bool.and_eq_true, hd]
    simp

/-! ## Patterns -/

theorem tells_covers (text : List Char) (ps : List Part) :
    Tells (Matches ps) text (covers text ps) := by
  induction ps with
  | nil => exact (tells_eq_nil text).congr fun rest => matches_nil_iff.symm
  | cons p ps ih =>
    by_cases hp : p = .anyRun
    · subst hp
      exact ih.anySuffix.congr fun rest => matches_anyRun_iff.symm
    · have hone : covers text (p :: ps) =
          List.zipWith (fun c b => p.accepts c && b) text ((covers text ps).drop 1) ++ [false] := by
        cases p with
        | anyRun => exact absurd rfl hp
        | _ => rfl
      rw [hone]
      exact (ih.one p).congr fun rest => (matches_cons_iff hp).symm

/-- **A text matches a pattern when the parts of the pattern cover it.** -/
theorem matches_iff {pattern text : String} :
    Wildcard.matches pattern text = true ↔ Matches (parse pattern.toList) text.toList :=
  (tells_covers text.toList (parse pattern.toList)).head_iff

end AnnotationOrder.Text.Wildcard
