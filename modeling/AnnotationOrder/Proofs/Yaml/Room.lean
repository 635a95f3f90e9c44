/-
  Room on the stack.

  How much room there is decides whether reading goes on, and nothing else: with other room,
  a text is read in the same way, or reading breaks off.

  * `Alike P x y`: two outcomes are the same, unless a fault of some kind ends one of them;
  * `Alike.bind`, `Alike.mapM`: steps that are alike make runs that are alike;
  * `Graph.alike_readers`: so for the readers of nodes, by one case for each of them;
  * `alike_loadBytes`: two settings give the same document but for the room that it keeps.
-/
import AnnotationOrder.Yaml.Document
import Mathlib.Tactic.SplitIfs

namespace AnnotationOrder

/-! ## Outcomes -/

section
variable {ε ε' α β : Type} {P : ε → Prop} {x y : Except ε α}

/-- An outcome is a fault of some kind. -/
def EndsBy (P : ε → Prop) (x : Except ε α) : Prop := ∃ e, x = .error e ∧ P e

/-- Two outcomes are the same, unless a fault of some kind ends one of them. -/
def Alike (P : ε → Prop) (x y : Except ε α) : Prop := EndsBy P x ∨ EndsBy P y ∨ x = y

namespace Alike

theorem refl (x : Except ε α) : Alike P x x := .inr (.inr rfl)

theorem of_eq (h : x = y) : Alike P x y := .inr (.inr h)

theorem bind {f g : α → Except ε β} (h : Alike P x y) (hfg : ∀ a, Alike P (f a) (g a)) :
    Alike P (x >>= f) (y >>= g) := by
  obtain ⟨e, rfl, he⟩ | ⟨e, rfl, he⟩ | rfl := h
  · exact .inl ⟨e, rfl, he⟩
  · exact .inr (.inl ⟨e, rfl, he⟩)
  · cases x with
    | error e => exact refl _
    | ok a => exact hfg a

theorem ite {c : Prop} [Decidable c] {x' y' : Except ε α} (h : Alike P x y) (h' : Alike P x' y') :
    Alike P (if c then x else x') (if c then y else y') := by
  split_ifs
  · exact h
  · exact h'

theorem mapM {f g : α → Except ε β} (hfg : ∀ a, Alike P (f a) (g a)) (as : List α) :
    Alike P (as.mapM f) (as.mapM g) := by
  induction as with
  | nil => exact refl _
  | cons a as ih =>
    rw [List.mapM_cons, List.mapM_cons]
    exact (hfg a).bind fun _ => ih.bind fun _ => refl _

theorem mapError {Q : ε' → Prop} (f : ε → ε') (h : Alike P x y) (hPQ : ∀ e, P e → Q (f e)) :
    Alike Q (x.mapError f) (y.mapError f) := by
  obtain ⟨e, rfl, he⟩ | ⟨e, rfl, he⟩ | rfl := h
  · exact .inl ⟨f e, rfl, hPQ e he⟩
  · exact .inr (.inl ⟨f e, rfl, hPQ e he⟩)
  · exact refl _

theorem map (f : α → β) (h : Alike P x y) : Alike P (x.map f) (y.map f) := by
  obtain ⟨e, rfl, he⟩ | ⟨e, rfl, he⟩ | rfl := h
  · exact .inl ⟨e, rfl, he⟩
  · exact .inr (.inl ⟨e, rfl, he⟩)
  · exact refl _

/-- Steps behind outcomes that are alike but for a part that is replaced in one of them. -/
theorem bind_of_map {k : α → α} {f g : α → Except ε β} (h : Alike P (x.map k) y)
    (hfg : ∀ a, Alike P (f a) (g (k a))) : Alike P (x >>= f) (y >>= g) := by
  cases x with
  | error e =>
    obtain ⟨e', he', hdeep⟩ | ⟨e', rfl, hdeep⟩ | rfl := h
    · exact .inl ⟨e', congrArg _ (Except.error.inj he'), hdeep⟩
    · exact .inr (.inl ⟨e', rfl, hdeep⟩)
    · exact refl _
  | ok a =>
    obtain ⟨_, he', -⟩ | ⟨e', rfl, hdeep⟩ | rfl := h
    · cases he'
    · exact .inr (.inl ⟨e', rfl, hdeep⟩)
    · exact hfg a

end Alike

end

namespace Yaml

/-! ## Nodes -/

namespace Graph

variable {α β : Type} {x y : Read α}

/-- The fault of a text without enough room. -/
def IsDeep (e : Error) : Prop := e = .tooDeep

/-- Steps that are alike wherever reading stands. -/
def AlikeSteps (x y : Read α) : Prop := ∀ r, Alike IsDeep (x.run r) (y.run r)

namespace AlikeSteps

theorem refl (x : Read α) : AlikeSteps x x := fun _ => .refl _

theorem bind {f g : α → Read β} (h : AlikeSteps x y) (hfg : ∀ a, AlikeSteps (f a) (g a)) :
    AlikeSteps (x >>= f) (y >>= g) := by
  intro r
  rw [StateT.run_bind, StateT.run_bind]
  exact (h r).bind fun a => hfg a.1 a.2

theorem ite {c : Prop} [Decidable c] {x' y' : Read α} (h : AlikeSteps x y)
    (h' : AlikeSteps x' y') : AlikeSteps (if c then x else x') (if c then y else y') := by
  split_ifs
  · exact h
  · exact h'

end AlikeSteps

theorem alike_inside (h : AlikeSteps x y) : AlikeSteps (inside x) (inside y) :=
  .bind (.refl _) fun _ => h.bind fun _ => .refl _

theorem alike_cons {x y : Read (List α)} (a : α) (h : AlikeSteps x y) :
    AlikeSteps (do return a :: (← x)) (do return a :: (← y)) :=
  h.bind fun _ => .refl _

theorem alike_sequence (p : Properties) {x y : Read (List Nat)} (h : AlikeSteps x y) :
    AlikeSteps (sequence p x) (sequence p y) :=
  .bind (.refl _) fun _ => (alike_inside h).bind fun _ => .refl _

theorem alike_mapping (p : Properties) {x y : Read (List (Nat × Nat))} (h : AlikeSteps x y) :
    AlikeSteps (mapping p x) (mapping p y) :=
  .bind (.refl _) fun _ => (alike_inside h).bind fun _ => .refl _

theorem run_checkRoom (limit : Nat) (r : Reading) :
    (checkRoom limit).run r = if limit < r.depth then .error .tooDeep else .ok ((), r) := by
  unfold checkRoom
  split_ifs with h
  · simp only [StateT.run_bind, StateT.run_get, pure_bind]
    rw [if_pos h]
    rfl
  · simp only [StateT.run_bind, StateT.run_get, pure_bind]
    rw [if_neg h]
    rfl

/-- Where there are too many collections around a node, reading breaks off. -/
theorem alike_checkRoom (m n : Nat) : AlikeSteps (checkRoom m) (checkRoom n) := by
  intro r
  rw [run_checkRoom, run_checkRoom]
  split_ifs
  · exact .inl ⟨_, rfl, rfl⟩
  · exact .inl ⟨_, rfl, rfl⟩
  · exact .inr (.inl ⟨_, rfl, rfl⟩)
  · exact .refl _

/-- The readers of nodes are alike for two limits, given a bound on their steps. -/
structure AlikeReaders (m n fuel : Nat) : Prop where
  read : ∀ place, AlikeSteps (read m place fuel) (read n place fuel)
  readParts : ∀ place p, AlikeSteps (readParts m place p fuel) (readParts n place p fuel)
  readUnless : ∀ place ends, AlikeSteps (readUnless m place ends fuel) (readUnless n place ends fuel)
  blockItems : AlikeSteps (blockItems m fuel) (blockItems n fuel)
  looseItems : AlikeSteps (looseItems m fuel) (looseItems n fuel)
  blockEntries : AlikeSteps (blockEntries m fuel) (blockEntries n fuel)
  flowEntry : ∀ close, AlikeSteps (flowEntry m close fuel) (flowEntry n close fuel)
  flowItems : ∀ first, AlikeSteps (flowItems m first fuel) (flowItems n first fuel)
  flowEntries : ∀ first, AlikeSteps (flowEntries m first fuel) (flowEntries n first fuel)

theorem alike_readers (m n fuel : Nat) : AlikeReaders m n fuel := by
  induction fuel with
  | zero => constructor <;> intros <;> exact .refl _
  | succ fuel ih =>
    constructor
    case read =>
      intro place
      rw [read, read]
      refine (alike_checkRoom m n).bind fun _ => .bind (.refl _) fun i? => ?_
      cases i? with
      | some i => exact .refl _
      | none => exact .bind (.refl _) fun p => ih.readParts place p
    case readParts =>
      intro place p
      rw [readParts, readParts]
      refine .bind (.refl _) fun t => ?_
      split
      · exact .refl _
      · exact alike_sequence p (.bind (.refl _) fun _ => ih.flowItems true)
      · exact alike_mapping p (.bind (.refl _) fun _ => ih.flowEntries true)
      · exact .ite (alike_sequence p ih.looseItems)
          (.ite (alike_sequence p (.bind (.refl _) fun _ => ih.blockItems))
            (.ite (alike_mapping p (.bind (.refl _) fun _ => ih.blockEntries)) (.refl _)))
    case readUnless =>
      intro place ends
      rw [readUnless, readUnless]
      exact .bind (.refl _) fun _ => .ite (.refl _) (ih.read place)
    case blockItems =>
      rw [blockItems, blockItems]
      exact .bind (.refl _) fun _ =>
        .ite ((ih.readUnless _ _).bind fun item => alike_cons item ih.blockItems) (.refl _)
    case looseItems =>
      rw [looseItems, looseItems]
      exact .bind (.refl _) fun _ =>
        .ite ((ih.readUnless _ _).bind fun item => alike_cons item ih.looseItems) (.refl _)
    case blockEntries =>
      rw [blockEntries, blockEntries]
      refine .bind (.refl _) fun _ => .ite ((ih.readUnless _ _).bind fun key => ?_) (.refl _)
      refine .bind (.refl _) fun _ => .ite ?_ ?_
      · exact (ih.readUnless _ _).bind fun value => alike_cons (key, value) ih.blockEntries
      · exact .bind (.refl _) fun value => alike_cons (key, value) ih.blockEntries
    case flowEntry =>
      intro close
      rw [flowEntry, flowEntry]
      refine (ih.readUnless _ _).bind fun key => .bind (.refl _) fun _ => .ite ?_ (.refl _)
      exact (ih.readUnless _ _).bind fun _ => .refl _
    case flowItems =>
      intro first
      rw [flowItems, flowItems]
      refine .bind (.refl _) fun _ => .ite (.refl _) (.bind (.refl _) fun _ => ?_)
      refine .bind (.refl _) fun _ => .ite ?_ (.bind (.refl _) fun _ => .ite (.refl _) ?_)
      · refine .bind (.refl _) fun i => (alike_inside (ih.flowEntry _)).bind fun entry => ?_
        exact .bind (.refl _) fun item => alike_cons item (ih.flowItems false)
      · exact (ih.read .flow).bind fun item => alike_cons item (ih.flowItems false)
    case flowEntries =>
      intro first
      rw [flowEntries, flowEntries]
      refine .bind (.refl _) fun _ => .ite (.refl _) (.bind (.refl _) fun _ => ?_)
      refine .bind (.refl _) fun _ => .ite ?_ (.bind (.refl _) fun _ => .ite (.refl _) ?_)
      · exact (ih.flowEntry _).bind fun entry => alike_cons entry (ih.flowEntries false)
      · refine (ih.read .flow).bind fun key => .bind (.refl _) fun value => ?_
        exact alike_cons (key, value) (ih.flowEntries false)

theorem alike_document (m n fuel : Nat) : AlikeSteps (document m fuel) (document n fuel) := by
  refine .bind (.refl _) fun t => ?_
  cases t with
  | none => exact .refl _
  | some t =>
    refine .bind (.refl _) fun _ => .bind (.refl _) fun _ => .ite (.refl _) ?_
    exact ((alike_readers m n fuel).read .block).bind fun _ => .refl _

/-- The nodes of a text are the same for two limits, unless there is not enough room. -/
theorem alike_ofTokens (m n : Nat) (ts : Tokens) : Alike IsDeep (ofTokens m ts) (ofTokens n ts) :=
  (alike_document m n _ _).bind fun _ => .refl _

end Graph

/-! ## Documents -/

theorem map_bind_except {ε α β γ : Type} (x : Except ε α) (f : α → Except ε β) (g : β → γ) :
    (x >>= f).map g = x >>= fun a => (f a).map g := by
  cases x <;> rfl

theorem makeCollection_congr {s t : Setting} (h : s.setOrder = t.setOrder) (i : Nat) :
    makeCollection s i = makeCollection t i := by
  rw [makeCollection, makeCollection, h]

theorem makeAll_congr {s t : Setting} (h : s.setOrder = t.setOrder) (fuel : Nat) :
    makeAll s fuel = makeAll t fuel := by
  induction fuel with
  | zero => rfl
  | succ fuel ih =>
    unfold makeAll
    simp only [makeCollection_congr h, ih]

/-- Settings with the same order of sets make the same document of nodes, but for the room that it
    keeps. -/
theorem documentOf_eq {s t : Setting} (h : s.setOrder = t.setOrder) (g : Graph) :
    (documentOf s g).map (fun d => { d with room := t.showing }) = documentOf t g := by
  unfold documentOf
  rw [map_bind_except]
  simp only [makeAll_congr h]
  rfl

/-- The document of a text is the same in two settings, but for the room that it keeps, unless there
    is not enough of it. -/
theorem alike_loadBytes {s t : Setting} (h : s.setOrder = t.setOrder) (bytes : List UInt8) :
    Alike Graph.IsDeep ((loadBytes s bytes).map fun d => { d with room := t.showing })
      (loadBytes t bytes) := by
  rw [loadBytes, loadBytes, load, load, map_bind_except]
  refine (Graph.alike_ofTokens s.nesting t.nesting _).bind fun g? => .of_eq ?_
  cases g? with
  | none => rfl
  | some g => exact documentOf_eq h g

end Yaml

end AnnotationOrder
