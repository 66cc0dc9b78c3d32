import Mathlib.Data.List.Forall2
import SwitchLint.Syntax.Chain
import SwitchLint.Syntax.Equivalence

/-!
What is left of an expression once its ranges are erased: all that the structural comparison, the
printer and the chains look at.
-/

namespace SwitchLint

open SwitchLint.Expr

mutual

/-- Two expressions are the same exactly if they are equal but for their ranges. -/
theorem same_iff_bare (a b : Expr) : same a b = true ↔ a.bare = b.bare := by
  cases a with
  | ident name _ => cases b <;> simp [same, bare]
  | selector base field _ =>
    cases b with
    | selector base' field' _ =>
      have hb := same_iff_bare base base'
      have hf := same_iff_bare field field'
      simp [same, bare, hb, hf, and_comm]
    | _ => simp [same, bare]
  | token kind text _ => cases b <;> simp [same, bare]
  | node kind children _ =>
    cases b with
    | node kind' children' _ =>
      have hc := sameAll_iff_bareAll children children'
      simp [same, bare, hc]
    | _ => simp [same, bare]

theorem sameAll_iff_bareAll (as bs : List Expr) : sameAll as bs = true ↔ bareAll as = bareAll bs := by
  cases as with
  | nil => cases bs <;> simp [sameAll, bareAll]
  | cons a as =>
    cases bs with
    | nil => simp [sameAll, bareAll]
    | cons b bs =>
      have head := same_iff_bare a b
      have tail := sameAll_iff_bareAll as bs
      simp [sameAll, bareAll, head, tail]

end

theorem same_places_iff_bare (as bs : List Expr) :
    List.Forall₂ (fun a b => same a b = true) as bs ↔ as.map bare = bs.map bare := by
  simp only [same_iff_bare]
  induction as generalizing bs with
  | nil => cases bs <;> simp
  | cons a as ih => cases bs <;> simp [ih]

/-! ### Printing -/

mutual

/-- The printer never looks at a range. -/
theorem chars_bare (e : Expr) : e.bare.chars = e.chars := by
  cases e with
  | ident => rfl
  | selector base field _ => simp only [bare, chars, chars_bare base, chars_bare field]
  | token => rfl
  | node kind children _ => simp only [bare, chars, charsOfAll_bareAll children]

theorem charsOfAll_bareAll (es : List Expr) : charsOfAll (bareAll es) = charsOfAll es := by
  cases es with
  | nil => rfl
  | cons e es => simp only [bareAll, charsOfAll, chars_bare e, charsOfAll_bareAll es]

end

@[simp] theorem text_bare (e : Expr) : e.bare.text = e.text := congrArg String.ofList (chars_bare e)

theorem texts_of_same_places {as bs : List Expr} (same : as.map bare = bs.map bare) :
    as.map text = bs.map text := by
  have erased (es : List Expr) : es.map text = (es.map bare).map text := by simp
  rw [erased as, erased bs, same]

theorem chainText_of_same_places {as bs : List Expr} (same : as.map bare = bs.map bare) :
    chainText as = chainText bs := by
  simp only [chainText, texts_of_same_places same]

/-! ### Chains -/

theorem chain_bare (e : Expr) : e.bare.chain = e.chain.map bare := by
  fun_induction chain e with
  | case1 base field _ ih => simp [bare, chain, ih]
  | case2 e other =>
    cases e with
    | selector base field span => exact absurd rfl (other base field span)
    | _ => rfl

end SwitchLint
