/-
  What custom rules change, and what they leave alone.

  The rules of a file are put in front of the built-in ones, unless the file does without
  these.  They decide about the names that they speak about, and about no others.

  * `SameResults`: two tables come to the same results on a declaration;
  * `ofFile_of_keepsDefaults`: the table that a file makes with the built-in rules kept;
  * `overrides_take_precedence`: the answers after any steps of overriding, and the
    declarations that keep their results.
-/
import AnnotationOrder.Lint.Rules
import AnnotationOrder.Proofs.Order.Agreement

namespace AnnotationOrder.Lint

open Project Rule AnnotationOrder.Order

variable {L : Type}

/-- Two tables propose the same order for a declaration and find the same violations on it. -/
def SameResults (t u : Table) (as : List (Annot L)) : Prop :=
  expectedOrder t (as.map (·.name)) = expectedOrder u (as.map (·.name)) ∧
    ∀ reportAll, check t reportAll as = check u reportAll as

theorem sameResults_of_agreeOn {t u : Table} {as : List (Annot L)}
    (h : AgreeOn t u (as.map (·.name))) : SameResults t u as :=
  ⟨h.expectedOrder_eq, h.check_eq⟩

theorem ofFile_of_keepsDefaults {w : Workspace} {path : Path} {bytes : List UInt8} {c : Config}
    (hw : w.file? path = some bytes) (hc : configOfBytes w.setting bytes = .ok c)
    (hd : c.useDefaults = true) :
    ∃ r, Rules.ofFile w path = .ok r ∧ r.table = Table.builtin.override c.constraints := by
  refine ⟨.ofConfig path c, ?_, ?_⟩
  · simp [Rules.ofFile, hw, hc, Except.map]
  · rw [Rules.ofConfig, Config.table, if_pos hd]

/-- **Overrides take precedence.**  After any steps of overriding, the answer about two names is the
    first one of the constraints put in front last, of those of the step before, and so on, and of
    the table that was there at first.  So a declaration has the results of this table when the
    steps say nothing about its names; and with the custom rules of a file, which is one step, it
    has those of the built-in table. -/
theorem overrides_take_precedence :
    (∀ (t : Table) (css : List (List Constraint)),
      (∀ a b, (css.foldl Table.override t).between a b =
        (css.reverse.map Table.mk ++ [t]).findSome? (·.between a b)) ∧
      ∀ (L : Type) (as : List (Annot L)), Untouched css (as.map (·.name)) →
        SameResults (css.foldl Table.override t) t as) ∧
    ∀ (w : Workspace) (path : Path) (bytes : List UInt8) (c : Config),
      w.file? path = some bytes → configOfBytes w.setting bytes = .ok c → c.useDefaults = true →
      ∃ r, Rules.ofFile w path = .ok r ∧
        (∀ a b, r.table.between a b =
          (Table.between ⟨c.constraints⟩ a b).or (Table.builtin.between a b)) ∧
        ∀ (L : Type) (as : List (Annot L)), Untouched [c.constraints] (as.map (·.name)) →
          SameResults r.table .builtin as := by
  refine ⟨fun t css => ⟨between_foldl_override t css, fun L as h => ?_⟩, ?_⟩
  · exact sameResults_of_agreeOn (.of_untouched h t)
  · intro w path bytes c hw hc hd
    obtain ⟨r, hr, ht⟩ := ofFile_of_keepsDefaults hw hc hd
    refine ⟨r, hr, fun a b => ?_, fun L as h => ?_⟩
    · rw [ht, Table.between_override]
    · rw [ht]
      exact sameResults_of_agreeOn (.of_untouched h .builtin)

/-- A file with a rule of its own. -/
def singletonFirst : List UInt8 :=
  "version: 1\nrules: [\x7bname: r, before: \x7bname: Singleton\x7d, after: \x7bany: true\x7d\x7d]".toList.map
    fun c => c.toNat.toUInt8

theorem overrides_take_precedence_singletonFirst : ∃ w path c r,
    w.file? path = some singletonFirst ∧ configOfBytes {} singletonFirst = .ok c ∧
      c.useDefaults = true ∧ Rules.ofFile w path = .ok r ∧
      r.table.between "Singleton" "Inject" = Table.between ⟨c.constraints⟩ "Singleton" "Inject" ∧
      Untouched [c.constraints] ["Test", "Override"] ∧
      SameResults r.table .builtin (atPositions ["Test", "Override"]) := by
  let w : Workspace := (Workspace.emptyAt []).write (.ofText Rules.fileName) singletonFirst
  have hw : w.file? (.ofText Rules.fileName) = some singletonFirst := by decide +kernel
  have hread : ((configOfBytes {} singletonFirst).toOption.any fun c => c.useDefaults &&
      (Table.between ⟨c.constraints⟩ "Singleton" "Inject").isSome &&
      (Table.between ⟨c.constraints⟩ "Test" "Override").isNone) = true := by
    decide +kernel
  obtain ⟨c, hc, hread⟩ := (Option.any_eq_true _ _).1 hread
  simp only [Bool.and_eq_true] at hread
  obtain ⟨⟨hd, hsome⟩, hnone⟩ := hread
  have hok : configOfBytes {} singletonFirst = .ok c := by
    cases h : configOfBytes {} singletonFirst with
    | error e => simp [h, Except.toOption] at hc
    | ok c' => simpa [h, Except.toOption] using hc
  have huntouched : Untouched [c.constraints] ["Test", "Override"] := by
    simpa [Untouched] using hnone
  obtain ⟨r, hr, hbetween, hsame⟩ := overrides_take_precedence.2 w _ _ c hw hok hd
  refine ⟨w, _, c, r, hw, hok, hd, hr, ?_, huntouched, hsame _ _ huntouched⟩
  rw [hbetween]
  obtain ⟨o, ho⟩ := Option.isSome_iff_exists.1 hsome
  rw [ho]
  rfl

end AnnotationOrder.Lint
