import SwitchLint.Syntax.Printing

/-!
Chains of selectors. The chain of `a.b.c` is `a`, `b`, `c`: the root first, then the fields in order.
An expression that selects nothing is a chain of itself.
-/

namespace SwitchLint

namespace Expr

/-- The root and the fields that are selected from it, in order. -/
def chain : Expr → List Expr
  | selector base field _ => base.chain ++ [field]
  | e => [e]

/-- Selects the fields one after another, from the root on. -/
def ofChain (root : Expr) (fields : List Expr) : Expr := fields.foldl select root

end Expr

/-- The leading segments of `xs` that match those of `ys`, place by place. -/
def sharedPrefix (holds : Expr → Expr → Bool) : List Expr → List Expr → List Expr
  | x :: xs, y :: ys => if holds x y then x :: sharedPrefix holds xs ys else []
  | _, _ => []

/-- The texts of the segments with dots between them. -/
def chainText (segments : List Expr) : String := ".".intercalate (segments.map Expr.text)

end SwitchLint
