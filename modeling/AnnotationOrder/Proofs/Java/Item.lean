/-
  The tokens of the items of a source.

  Reading a source into items and looking for declarations among them drops
  tokens but neither makes nor reorders any.

  * `Item.tokens`, `tokensOf`: the tokens of an item and of items, in their order;
  * `tokensOf_items`: the items of tokens have these tokens, without some brackets;
  * `tokensOf_outline`: with the declarations among them, items have the same tokens;
  * `tokensOf_outlined`: so these are tokens of the source.
-/
import Mathlib.Tactic.SplitIfs
import AnnotationOrder.Java.Outline

namespace AnnotationOrder.Java

/-! ## The tokens of items -/

mutual

/-- The tokens of an item. -/
def Item.tokens : Item → List Token
  | .token t => [t]
  | .annot mark path _ arguments => mark :: (path ++ tokensOf arguments)
  | .group _ opening inner => opening :: tokensOf inner
  | .declaration _ _ front first rest => tokensOf front ++ (first.tokens ++ tokensOf rest)

/-- The tokens of items. -/
def tokensOf : List Item → List Token
  | [] => []
  | x :: xs => x.tokens ++ tokensOf xs

end

@[simp] theorem tokensOf_append (xs ys : List Item) :
    tokensOf (xs ++ ys) = tokensOf xs ++ tokensOf ys := by
  induction xs with
  | nil => simp [tokensOf]
  | cons x xs ih => simp [tokensOf, ih]

@[simp] theorem tokensOf_singleton (x : Item) : tokensOf [x] = x.tokens := by simp [tokensOf]

@[simp] theorem tokens_startItem (t : Token) : (startItem t).tokens = [t] := by
  unfold startItem
  split_ifs
  · simp [Item.tokens, tokensOf]
  · simp [Item.tokens]

/-- Adding an item keeps the tokens in their order; at most a bracket goes. -/
theorem tokensOf_addItem (before : List Item) (x : Item) :
    (tokensOf (addItem before x).reverse).Sublist (tokensOf before.reverse ++ x.tokens) := by
  unfold addItem
  split
  · split
    · split_ifs
      · simp [Item.tokens, tokensOf]
      · simp [tokensOf]
    · simp [Item.tokens, tokensOf]
    · simp [tokensOf]
  · simp

/-- The tokens in front of the innermost open bracket, with the brackets. -/
def openedTokens : List Opened → List Token
  | [] => []
  | o :: os => openedTokens os ++ (tokensOf o.before.reverse ++ [o.opening])

theorem tokensOf_close (o : Opened) (inner : List Item) :
    (tokensOf (o.close inner).reverse).Sublist
      (tokensOf o.before.reverse ++ ([o.opening] ++ tokensOf inner.reverse)) := by
  have h := tokensOf_addItem o.before (.group o.bracket o.opening inner.reverse)
  simpa [Item.tokens, Opened.close] using h

/-- Closing all brackets that are open at the end keeps the tokens in their order. -/
theorem tokensOf_foldl_close (opened : List Opened) (current : List Item) :
    (tokensOf (opened.foldl (fun inner o => o.close inner) current).reverse).Sublist
      (openedTokens opened ++ tokensOf current.reverse) := by
  induction opened generalizing current with
  | nil => simp [openedTokens]
  | cons o os ih =>
    refine (ih (o.close current)).trans ?_
    simp only [openedTokens, List.append_assoc]
    exact (tokensOf_close o current).append_left _

theorem tokensOf_itemsFrom (opened : List Opened) (current : List Item) (ts : List Token) :
    (tokensOf (itemsFrom opened current ts)).Sublist
      (openedTokens opened ++ (tokensOf current.reverse ++ ts)) := by
  induction ts generalizing opened current with
  | nil => simpa [itemsFrom] using tokensOf_foldl_close opened current
  | cons t ts ih =>
    have hadd (opened : List Opened) :
        (tokensOf (itemsFrom opened (addItem current (startItem t)) ts)).Sublist
          (openedTokens opened ++ (tokensOf current.reverse ++ t :: ts)) := by
      refine (ih opened _).trans (.append_left ?_ _)
      simpa using (tokensOf_addItem current (startItem t)).append_right ts
    have hskip (opened : List Opened) : (tokensOf (itemsFrom opened current ts)).Sublist
        (openedTokens opened ++ (tokensOf current.reverse ++ t :: ts)) :=
      (ih opened current).trans (.append_left (.append_left (List.sublist_cons_self t ts) _) _)
    cases hb : Bracket.opened? t with
    | some b => simpa [itemsFrom, hb, openedTokens, tokensOf] using ih (⟨b, t, current⟩ :: opened) []
    | none =>
      cases opened with
      | nil =>
        simp only [itemsFrom, hb]
        split_ifs
        · exact hskip []
        · exact hadd []
      | cons o opened =>
        simp only [itemsFrom, hb]
        split_ifs
        · exact hadd (o :: opened)
        · refine (ih opened (o.close current)).trans ?_
          simp only [openedTokens, List.append_assoc]
          refine .append_left ?_ _
          simpa using (tokensOf_close o current).append (List.sublist_cons_self t ts)
        · exact hskip (o :: opened)

/-- The items of tokens have these tokens, in their order. -/
theorem tokensOf_items (ts : List Token) : (tokensOf (items ts)).Sublist ts := by
  simpa [items, openedTokens, tokensOf] using tokensOf_itemsFrom [] [] ts

/-! ## Outlines -/

theorem tokensOf_asDeclared (found : Option (Kind × Option Token)) (xs : List Item) :
    tokensOf (asDeclared found xs) = tokensOf xs := by
  unfold asDeclared
  split <;> simp [Item.tokens, tokensOf]

theorem tokensOf_consLoop (x : Item) (xs : List Item) :
    tokensOf (consLoop x xs) = x.tokens ++ tokensOf xs := by
  unfold consLoop
  split
  · split_ifs <;> simp [Item.tokens, tokensOf]
  · rw [tokensOf]

mutual

/-- Looking for declarations keeps the tokens. -/
theorem tokensOf_outline (p : Place) (xs : List Item) :
    tokensOf (outline p xs).1 ++ tokensOf (outline p xs).2 = tokensOf xs := by
  cases xs with
  | nil => simp [outline, tokensOf]
  | cons x xs =>
    have hinside := tokens_outlineInside (p.start (x :: xs)) xs.head? x
    have hrest := tokensOf_outline ((p.start (x :: xs)).next x) xs
    simp only [outline]
    split_ifs
    all_goals
      simp only [tokensOf_append, tokensOf_asDeclared, tokensOf_consLoop, hinside,
        List.append_assoc, hrest, tokensOf, List.nil_append]

/-- Looking for declarations inside an item keeps the tokens. -/
theorem tokens_outlineInside (p : Place) (behind : Option Item) (x : Item) :
    (outlineInside p behind x).tokens = x.tokens := by
  cases x with
  | token t => rw [outlineInside]
  | annot mark path applied arguments =>
    have harguments := tokensOf_outline { region := .values } arguments
    simp only [outlineInside, Item.tokens, tokensOf_append, harguments]
  | group bracket opening inner =>
    have hinner := tokensOf_outline { region := p.groupRegion bracket inner behind } inner
    simp only [outlineInside, Item.tokens, tokensOf_append, hinner]
  | declaration kind name front first rest => rw [outlineInside]

end

theorem tokensOf_outlined (ts : List Token) : (tokensOf (outlined ts)).Sublist ts := by
  rw [outlined, tokensOf_append, tokensOf_outline]
  exact tokensOf_items ts

end AnnotationOrder.Java
