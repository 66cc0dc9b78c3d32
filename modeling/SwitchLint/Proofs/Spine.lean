import SwitchLint.Proofs.Erasure

/-!
Chains and the expressions that they come from: folding a chain back, the base that a leading part of
it belongs to, and its text. Chains are exactly the lists that begin with no selector, and nothing but
the ranges of the selectors that were taken apart is lost on the way there and back.
-/

namespace SwitchLint

open SwitchLint.Expr

/-- `e.StripsTo d`: going from `e` to the base of its selector some number of times leads to `d`. -/
inductive Expr.StripsTo : Expr → Expr → Prop where
  | here (e : Expr) : StripsTo e e
  | base {base d : Expr} (field : Expr) (span : Span) :
      StripsTo base d → StripsTo (.selector base field span) d

/-- How many selectors lead from an expression down to its root. -/
def Expr.selections : Expr → Nat
  | .selector base _ _ => base.selections + 1
  | _ => 0

/-- The expression with the ranges of these selectors erased, and no others. -/
def Expr.bareSpine : Expr → Expr
  | .selector base field _ => .selector base.bareSpine field Span.zero
  | e => e

/-- The first segment selects nothing, and every selector on the way to it adds one. -/
theorem chain_root (e : Expr) : ∃ root fields, e.chain = root :: fields ∧
    root.isSelector = false ∧ fields.length = e.selections := by
  fun_induction chain e with
  | case1 base field _ ih =>
    obtain ⟨root, fields, segments, isRoot, count⟩ := ih
    exact ⟨root, fields ++ [field], by rw [segments, List.cons_append], isRoot,
      by rw [List.length_append, count]; rfl⟩
  | case2 e other =>
    refine ⟨e, [], rfl, ?_⟩
    cases e with
    | selector base field span => exact absurd rfl (other base field span)
    | _ => exact ⟨rfl, rfl⟩

theorem chain_nonempty (e : Expr) : e.chain ≠ [] := by
  obtain ⟨root, fields, segments, -⟩ := chain_root e
  exact segments ▸ List.cons_ne_nil root fields

/-- Every leading part of a chain is the whole chain of some base. -/
theorem strips_to_leading (e : Expr) (segments : List Expr) (nonempty : segments ≠ [])
    (initial : segments <+: e.chain) : ∃ base, e.StripsTo base ∧ base.chain = segments := by
  fun_induction chain e with
  | case1 base field span ih =>
    rcases List.prefix_concat_iff.mp initial with whole | shorter
    · exact ⟨.selector base field span, .here _, whole.symm⟩
    · obtain ⟨d, strips, hd⟩ := ih shorter
      exact ⟨d, .base field span strips, hd⟩
  | case2 e other =>
    have whole : segments = [e] := by
      rcases List.prefix_cons_iff.mp initial with none | ⟨rest, rfl, hr⟩
      · exact absurd none nonempty
      · rw [List.prefix_nil.mp hr]
    refine ⟨e, .here e, ?_⟩
    rw [whole]
    cases e with
    | selector base field span => exact absurd rfl (other base field span)
    | _ => rfl

/-! ### Folding back -/

theorem ofChain_concat (root : Expr) (fields : List Expr) (field : Expr) :
    ofChain root (fields ++ [field]) = select (ofChain root fields) field := by
  simp [ofChain]

theorem bare_ofChain_congr {root root' : Expr} {fields fields' : List Expr}
    (roots : root.bare = root'.bare) (others : fields.map bare = fields'.map bare) :
    (ofChain root fields).bare = (ofChain root' fields').bare := by
  induction fields generalizing root root' fields' with
  | nil =>
    have none : fields' = [] := List.map_eq_nil_iff.mp others.symm
    rw [none]
    exact roots
  | cons field fields ih =>
    cases fields' with
    | nil => cases others
    | cons field' fields' =>
      obtain ⟨head, tail⟩ := List.cons.inj others
      apply ih _ tail
      simp only [select, bare, roots, head]

/-- Only the ranges of the selectors are lost when a chain is folded back. -/
theorem bareSpine_refold (e root : Expr) (fields : List Expr) (segments : e.chain = root :: fields) :
    (ofChain root fields).bareSpine = e.bareSpine := by
  fun_induction chain e generalizing root fields with
  | case1 base field span ih =>
    cases hb : base.chain with
    | nil => exact absurd hb (chain_nonempty base)
    | cons r init =>
      rw [hb, List.cons_append] at segments
      obtain ⟨rfl, rfl⟩ := List.cons.inj segments
      rw [ofChain_concat]
      simp only [select, bareSpine, ih r init hb]
  | case2 e _ =>
    obtain ⟨rfl, rfl⟩ := List.cons.inj segments
    rfl

theorem bare_bareSpine (e : Expr) : e.bareSpine.bare = e.bare := by
  fun_induction bareSpine e with
  | case1 base field _ ih => simp only [bare, ih]
  | case2 e _ => rfl

theorem bare_refold (e root : Expr) (fields : List Expr) (segments : e.chain = root :: fields) :
    (ofChain root fields).bare = e.bare := by
  rw [← bare_bareSpine, bareSpine_refold e root fields segments, bare_bareSpine]

/-- The fields may be any expressions, selectors too: each is one segment, however it was built. -/
theorem chain_ofChain (root : Expr) (fields : List Expr) :
    (ofChain root fields).chain = root.chain ++ fields := by
  induction fields generalizing root with
  | nil => exact (List.append_nil root.chain).symm
  | cons field fields ih =>
    have first : (select root field).chain = root.chain ++ [field] := rfl
    rw [ofChain, List.foldl_cons, ← ofChain, ih, first, List.append_assoc, List.singleton_append]

theorem chain_of_root {e : Expr} (isRoot : e.isSelector = false) : e.chain = [e] := by
  cases e with
  | selector base field span => cases isRoot
  | _ => rfl

/-! ### Text -/

theorem chainText_append {xs ys : List Expr} (hx : xs ≠ []) (hy : ys ≠ []) :
    chainText (xs ++ ys) = chainText xs ++ "." ++ chainText ys := by
  simp only [chainText, List.map_append]
  exact String.intercalate_append_of_ne_nil (by simpa using hx) (by simpa using hy)

/-- The canonical text of an expression is that of its segments, with dots between them. -/
theorem chainText_chain (e : Expr) : chainText e.chain = e.text := by
  fun_induction chain e with
  | case1 base field _ ih =>
    rw [chainText_append (chain_nonempty base) (List.cons_ne_nil field []), ih]
    simp [chainText, text, chars, String.append_assoc]
  | case2 e _ => simp [chainText]

/-! ### There and back -/

/-- Taking an expression apart into its chain and folding a chain are inverse to one another, up to the
ranges of the selectors in between, and the canonical text follows the chain. -/
theorem chain_folds_back :
    (∀ e : Expr, ∃ root fields, e.chain = root :: fields ∧ root.isSelector = false ∧
      e.chain.length = 1 + e.selections ∧ (ofChain root fields).bareSpine = e.bareSpine ∧
      e.text = chainText e.chain) ∧
    ∀ (root : Expr) (fields : List Expr), root.isSelector = false →
      (ofChain root fields).chain = root :: fields := by
  constructor
  · intro e
    obtain ⟨root, fields, segments, isRoot, count⟩ := chain_root e
    refine ⟨root, fields, segments, isRoot, ?_, bareSpine_refold e root fields segments,
      (chainText_chain e).symm⟩
    rw [segments, List.length_cons, count, Nat.add_comm]
  · intro root fields isRoot
    rw [chain_ofChain, chain_of_root isRoot, List.singleton_append]

/-- The call `f()`. -/
def callOfNothing : Expr :=
  .node "call_expression" [.ident "f" ⟨0, 1, 1, 1⟩, .token "(" "(" ⟨1, 2, 1, 2⟩,
    .token ")" ")" ⟨2, 3, 1, 3⟩] ⟨0, 3, 1, 1⟩

/-- A field that is a selector itself. -/
def fieldOfTwo : Expr := select (.ident "b" ⟨6, 7, 1, 7⟩) (.ident "c" ⟨8, 9, 1, 9⟩)

theorem chain_folds_back_of_call :
    callOfNothing.isSelector = false ∧ fieldOfTwo.isSelector = true ∧
      (ofChain callOfNothing [.ident "a" ⟨4, 5, 1, 5⟩, fieldOfTwo]).chain =
        [callOfNothing, .ident "a" ⟨4, 5, 1, 5⟩, fieldOfTwo] :=
  ⟨rfl, rfl, chain_folds_back.2 _ _ rfl⟩

end SwitchLint
