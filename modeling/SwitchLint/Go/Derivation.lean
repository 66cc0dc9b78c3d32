import SwitchLint.Go.Production

/-!
Derivations. A parser does not build trees: it proposes a list of steps, and replaying them over the
lexemes builds the tree. Whatever was proposed, the leaves of the tree are the lexemes in order, marks
being cut only into marks, and its nodes are such as the productions admit.
-/

namespace SwitchLint.Go

/-- Is the lexeme an operator or punctuation? -/
def Lexeme.isMark (l : Lexeme) : Bool := l.shape == .mark && marks.contains l.text

/-- One step of a derivation. -/
inductive Step where
  /-- The next lexeme becomes a leaf, which it has to look like. -/
  | shift (as : Leaf)
  /-- The next lexeme, a mark, is cut in two marks after `n` characters. -/
  | cut (n : Nat)
  /-- The line break before the next lexeme becomes a leaf. -/
  | lineBreak
  /-- The latest trees, one for each entry of `fields`, become the children of a node. -/
  | reduce (kind : Kind) (fields : List (Option Field))
  deriving DecidableEq, Repr, Inhabited

namespace Step

/-- What replaying has built, the latest tree first, and the lexemes that are left. -/
structure Progress where
  built : List Tree
  rest : List Lexeme

/-- Performs one step; fails if there is nothing to perform it on. -/
def perform (p : Progress) : Step → Option Progress
  | shift as =>
    match p.rest with
    | l :: ls =>
      if as != .lineBreak && as.fits l.shape then some ⟨.leaf as l :: p.built, ls⟩ else none
    | [] => none
  | cut n =>
    match p.rest with
    | l :: ls =>
      if l.isMark && (l.cut n).1.isMark && (l.cut n).2.isMark then
        some ⟨p.built, (l.cut n).1 :: (l.cut n).2 :: ls⟩
      else none
    | [] => none
  | lineBreak =>
    match p.rest with
    | l :: ls =>
      if l.newline.isSome then
        some ⟨.leaf .lineBreak l :: p.built, { l with newline := none } :: ls⟩
      else none
    | [] => none
  | reduce kind fields =>
    let n := fields.length
    let children := fields.zip (p.built.take n).reverse
    if n ≤ p.built.length && kind.admits children then
      some ⟨.node kind children :: p.built.drop n, p.rest⟩
    else none

/-- Performs the steps in order. -/
def replay (p : Progress) : List Step → Option Progress
  | [] => some p
  | s :: ss =>
    match perform p s with
    | some p' => replay p' ss
    | none => none

end Step

/-- The tree that the steps build from all the lexemes, the last of which is the end of the text. -/
def Tree.ofSteps (steps : List Step) (lexemes : List Lexeme) : Option Tree :=
  match Step.replay ⟨[], lexemes⟩ steps with
  | some ⟨[t], [l]⟩ => if l.shape = .eof then some t else none
  | _ => none

end SwitchLint.Go
