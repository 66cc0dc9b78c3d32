import SwitchLint.Go.Grammar.Statements
import SwitchLint.Source.Language

/-!
What to say about a source that has no derivation. Around the place where the grammar gets stuck a
lexeme may be missing, or lexemes may have to be left out. Such repairs are tried the nearer ones
first, and the one that lets the rest be read at the least cost tells what is wrong.
-/

namespace SwitchLint.Go

open Grammar

/-- What a repair takes for wrong. -/
inductive Fault where
  /-- The lexeme is missing. -/
  | missing (lexeme : Lexeme)
  /-- The end of a line is missing; the phrase that lacks it begins at the place. -/
  | unended (place : Position)
  /-- The lexemes from the place on do not belong here. -/
  | superfluous (place : Position)
  deriving Repr

/-- A repair of the lexemes of a source. -/
structure Repair where
  fault : Fault
  cost : Nat
  /-- The repaired source, but without the line break before the lexeme after the repair, which has
  to fit even so. -/
  joined : List Lexeme
  /-- The repaired source. -/
  lexemes : List Lexeme
  /-- Where the lexeme after the repair starts. -/
  resume : Nat
  /-- What the repair looks like costing before it is made. -/
  estimate : Nat

namespace Repair

/-! ### Costs -/

/-- Cost of going on after an error. -/
def recoveryCost : Nat := 500

/-- Cost of a lexeme that is not there. -/
def missingCost : Nat := recoveryCost + 110

/-- Cost of a piece of syntax that is left out. -/
def pieceCost : Nat := 100

/-- Cost of leaving out what stands from a place through a lexeme and makes up so many pieces of
syntax: each byte counts for one, and each line that it goes on through for thirty. -/
def removalCost (pieces : Nat) (start : Position) (last : Lexeme) : Nat :=
  recoveryCost + pieceCost * pieces + (last.stop - start.offset)
    + 30 * (last.finish.line - start.line)

/-- A repair that costs more than another one drives out is one whose excess, taken once for each
piece of syntax that the other one has read, is more than this. -/
def patience : Nat := 18 * pieceCost

/-! ### Lexemes by their part in a phrase -/

def isNumber (l : Lexeme) : Bool := [.int, .float, .imaginary].contains l.shape

/-- Is the lexeme a string that is not closed? -/
def isUnclosed (l : Lexeme) : Bool :=
  l.shape = .unknown && (l.text.startsWith "\x22" || l.text.startsWith "\x60")

/-- Is the lexeme an operand by itself? -/
def isOperand (l : Lexeme) : Bool := l.isName || l.isString || isNumber l || l.shape = .rune

def closes (l : Lexeme) : Bool := l.is ")" || l.is "]" || l.is "\x7d"

def opens (l : Lexeme) : Bool := l.is "(" || l.is "[" || l.is "\x7b"

/-- May an operand end with the lexeme? -/
def endsOperand (l : Lexeme) : Bool := isOperand l || closes l

/-- How many brackets are to be passed over, going backwards, after one more lexeme. -/
def depthBefore (depth : Nat) (l : Lexeme) : Nat :=
  if closes l then depth + 1 else if opens l then depth - 1 else depth

/-- Of lexemes given backwards, those outside brackets up to the last bracket that is open, and all
from that bracket on. -/
def innermost : Nat → List Lexeme → List Lexeme × List Lexeme
  | _, [] => ([], [])
  | depth, l :: ls =>
    if depth = 0 && opens l then ([], l :: ls)
    else
      let rest := innermost (depthBefore depth l) ls
      (if depth = 0 && !closes l then l :: rest.1 else rest.1, rest.2)

/-! ### Places -/

/-- Where the grammar gets stuck. -/
def stuckAt (lexemes : List Lexeme) : Option Nat :=
  match proposeFile lexemes with
  | .ok _ => none
  | .error s => some s.found.start.offset

/-- The lexemes around the place where the grammar gets stuck: those before it, the latest first,
the one that does not fit, and those after it. -/
structure Impasse where
  /-- The beginning of the text, blanks apart. -/
  outset : Position
  before : List Lexeme
  found : Lexeme
  after : List Lexeme
  /-- Has the line break before the lexeme been used up? -/
  broken : Bool

namespace Impasse

/-- The place where the grammar got stuck. After an operand a number that begins with a dot is the
dot of a selection and what follows it, and a string that is not closed is read as far as it goes
where a string fits. -/
def ofStuck (outset : Position) (lexemes : List Lexeme) (stuck : Stuck) : Impasse :=
  let offset := stuck.found.start.offset
  let before := (lexemes.takeWhile fun l =>
    decide (l.start.offset < offset) && l.shape ≠ .eof).reverse
  match lexemes.drop before.length with
  | [] => ⟨outset, before, stuck.found, [], false⟩
  | found :: after =>
    let usual : Impasse :=
      ⟨outset, before, found, after, found.startsLine && !stuck.found.startsLine⟩
    if found.text.startsWith "." && isNumber found && before.head?.any endsOperand then
      ⟨outset, (found.cut 1).1 :: before, (found.cut 1).2, after, false⟩
    else
      match after with
      | next :: rest =>
        let closed := before.reverse ++ { found with shape := .raw } :: after
        if isUnclosed found && (stuckAt closed).all (offset < ·) then
          ⟨outset, found :: before, next, rest, false⟩
        else usual
      | [] => usual

/-- Where a missing lexeme would have to stand: right after what has been read. -/
def gap (i : Impasse) : Position :=
  match i.broken, i.found.newline, i.before with
  | true, some b, _ => ⟨b.stop, b.start.line + (b.stop - b.start.offset), 1⟩
  | _, _, l :: _ => l.finish
  | _, _, [] => Position.origin

end Impasse

/-! ### Missing lexemes -/

/-- The marks that close the open brackets among lexemes given backwards, the innermost first. -/
def closers : Nat → List Lexeme → List String
  | _, [] => []
  | depth, l :: ls =>
    let rest := closers (depthBefore depth l) ls
    if depth = 0 && opens l then
      (if l.is "(" then ")" else if l.is "[" then "]" else "\x7d") :: rest
    else rest

/-- The repair that puts a lexeme into the gap. -/
def supply (i : Impasse) (shape : Lexeme.Shape) (text : String) : Repair :=
  let lexeme : Lexeme :=
    ⟨shape, text, i.gap, i.gap.offset, if i.broken then i.found.newline else none⟩
  let lexemes := i.before.reverse ++ lexeme :: { i.found with newline := none } :: i.after
  ⟨.missing lexeme, missingCost, lexemes, lexemes, i.found.start.offset, missingCost⟩

/-- The repair that ends the line in the gap, if a declaration ends there. -/
def endLine (i : Impasse) : Option Repair :=
  let found := { i.found with newline := some ⟨i.gap, i.gap.offset⟩ }
  let lexemes := i.before.reverse ++ found :: i.after
  let repair (place : Position) : Repair :=
    ⟨.unended place, missingCost, lexemes, lexemes, found.start.offset, missingCost⟩
  match (innermost 0 i.before).2 with
  | [] => some (repair i.outset)
  | [_] => none
  | bracket :: keyword :: _ =>
    if bracket.is "(" && keyword.is "const" then some (repair keyword.start)
    else if bracket.is "(" && keyword.is "var" then some (repair bracket.start)
    else none

/-- The repair that closes the string before the gap, which is not closed. -/
def closeString (i : Impasse) : Option Repair :=
  match i.before with
  | [] => none
  | last :: before =>
    if isUnclosed last then
      let raw := last.text.startsWith "\x60"
      let string := { last with shape := if raw then .raw else .interpreted }
      let lexemes := before.reverse ++ string :: { i.found with newline := none } :: i.after
      let mark := if raw then "\x60" else "\x22"
      some ⟨.missing ⟨.mark, mark, i.gap, i.gap.offset, none⟩, missingCost, lexemes, lexemes,
        i.found.start.offset, missingCost⟩
    else none

/-- The repair that leaves out what stands between the end of a string on its line and the mark that
closes it on a later one. -/
def continueString (i : Impasse) : Option Repair :=
  let between := (i.found :: i.after).takeWhile (·.shape ≠ .unknown)
  match i.before, between, between.getLast?, (i.found :: i.after).drop between.length with
  | string :: before, first :: _, some last, mark :: after =>
    if isUnclosed string && mark.text.startsWith "\x22" && mark.start.offset = last.stop then
      let rest := (mark.cut 1).2
      let inside := (Lexeme.scanFrom (rest.text.length + 1) rest.start rest.text.toList).dropLast
      let lexemes := before.reverse ++ { string with shape := .interpreted } :: inside ++ after
      let cost := removalCost between.length first.start last
      some ⟨.superfluous first.start, cost, lexemes, lexemes, mark.start.offset, cost⟩
    else none
  | _, _, _, _ => none

/-- The repairs that supply a lexeme, the likeliest first. The first one stands for any name. A
semicolon may only be missing in the head of a loop, and a colon only in front of another case. -/
def supplies (i : Impasse) : List Repair :=
  let inLoop := (innermost 0 i.before).1.any (·.is "for")
  let beforeCase := ["case", "default", "\x7d"].any (i.found.is ·)
  (closeString i).toList ++ [supply i .word ""] ++ (endLine i).toList
    ++ (if inLoop then [supply i .mark ";"] else [])
    ++ [")", "]", "\x7d"].map (supply i .mark)
    ++ (if beforeCase then [supply i .mark ":"] else [])

/-! ### Superfluous lexemes -/

/-- What pieces of syntax are for those around them. -/
inductive Piece where
  | operand
  | operator
  | other
  deriving DecidableEq

/-- The marks that stand before or between operands. -/
def operators : List String :=
  ["||", "&&", "==", "!=", "<", "<=", ">", ">=", "+", "-", "|", "^", "*", "/", "%", "<<", ">>",
    "&", "&^", "!", "<-"]

/-- Adds a lexeme to the pieces before it, which stand in lists for the brackets that are open; the
latest is the first. -/
def addLexeme (open? : List (List Piece)) (l : Lexeme) : List (List Piece) :=
  match open? with
  | [] => []
  | ps :: outer =>
    if isUnclosed l then (.other :: .other :: ps) :: outer
    else if l.shape = .unknown then ps :: outer
    else if opens l then [] :: ps :: outer
    else if closes l then
      match outer with
      | [] => (.other :: ps) :: outer
      | (.operand :: qs) :: outer => (.operand :: qs) :: outer
      | qs :: outer => (.operand :: qs) :: outer
    else if isOperand l then
      match ps with
      | .other :: .operand :: qs => (.operand :: qs) :: outer
      | ps => (.operand :: ps) :: outer
    else if l.is "++" || l.is "--" then
      match ps with
      | .operand :: qs => (.operand :: qs) :: outer
      | ps => (.other :: ps) :: outer
    else if operators.any (l.is ·) then (.operator :: ps) :: outer
    else (.other :: ps) :: outer

/-- Joins the operands at the end with the operators between and before them. -/
def joinOperands : List Piece → List Piece
  | .operand :: .operator :: .operand :: ps => joinOperands (.operand :: ps)
  | .operand :: .operator :: ps => joinOperands (.operand :: ps)
  | ps => ps
  termination_by ps => ps.length

def total (ns : List Nat) : Nat := ns.foldr (· + ·) 0

/-- The number of pieces of syntax that a run of lexemes makes up. -/
def pieces (run : List Lexeme) : Nat :=
  match run.foldl addLexeme [[]] with
  | [] => 0
  | ps :: outer => (joinOperands ps).length + total (outer.map fun qs => qs.length + 1)

/-- A run of lexemes and what stands before it, the latest first. -/
structure Run where
  run : List Lexeme
  before : List Lexeme

/-- The runs that end where `r` begins and go on through it, no more than `n` lexemes longer. No run
begins inside brackets that it closes. -/
def runsBack : Nat → Nat → Run → List Run
  | 0, _, _ => []
  | n + 1, depth, r =>
    match r.before with
    | [] => []
    | l :: before =>
      let depth := depthBefore depth l
      let r : Run := ⟨l :: r.run, before⟩
      if depth = 0 then r :: runsBack n depth r else runsBack n depth r

/-- The assignment operators. -/
def assignments : List String :=
  [":=", "=", "+=", "-=", "*=", "/=", "%=", "&=", "|=", "^=", "<<=", ">>=", "&^="]

/-- Do the lexemes, given backwards, end with what can only be assigned to if an assignment operator
follows? -/
def isAssigned (before : List Lexeme) : Bool :=
  let statement := before.takeWhile fun l => !([";", "\x7b", "\x7d"].any (l.is ·))
  before.head?.any endsOperand && !statement.any fun l => l.is "const" || l.is "var" || l.is "type"

/-- The pieces that a lexeme makes up when it is passed over; a string falls into its parts. -/
def scraps (l : Lexeme) : Nat :=
  if l.isString then 3 else if l.shape = .unknown then 0 else 1

/-- Where a run begins with the blanks before it. A line break that ends what stands before the run
does not belong to it. -/
def Run.outset (r : Run) (first : Lexeme) : Position :=
  match r.before, first.newline with
  | l :: _, none => l.finish
  | l :: _, some b => if endsOperand l then ⟨b.stop, b.start.line + (b.stop - b.start.offset), 1⟩ else l.finish
  | [], _ => first.start

/-- The repair that leaves out a run and the first `n` lexemes from the stuck one on. What stands
before an assignment operator can only be assigned to. -/
def remove (i : Impasse) (r : Run) (n : Nat) : Option Repair :=
  let left := (i.found :: i.after).take n
  let gone := r.run ++ left
  match gone, gone.getLast?, (i.found :: i.after).drop n with
  | first :: _, some last, next :: rest =>
    if left.any (·.shape = .eof) then none
    else if isAssigned r.before && assignments.any (first.is ·)
        && !assignments.any (next.is ·) then none
    else
      let joined := r.before.reverse ++ { next with newline := first.newline } :: rest
      let lexemes :=
        r.before.reverse ++ { next with newline := first.newline.or next.newline } :: rest
      let pieces := pieces r.run + total (left.map scraps)
      some ⟨.superfluous first.start, removalCost pieces first.start last, joined, lexemes,
        next.start.offset, removalCost (pieces + 1) (r.outset first) last⟩
  | _, _, _ => none

/-! ### Ways on -/

/-- A repair that lets the lexeme after it be read. -/
structure Way where
  repair : Repair
  /-- Where the grammar gets stuck again. -/
  reach : Option Nat
  /-- How many pieces of syntax have been read since the last error. -/
  read : Nat

/-- Does the way lead past the offset? -/
def Way.passes (w : Way) (offset : Nat) : Bool := w.reach.all (offset < ·)

/-- What a lexeme is in a tree. -/
def leafOf? (l : Lexeme) (t : Tree) : Option Leaf :=
  (t.leaves.find? fun m =>
    m.1 ≠ .lineBreak && m.2.start = l.start && m.2.text = l.text).map (·.1)

mutual

/-- The kind of the node that ends with the lexeme. -/
def kindEndedBy? (l : Lexeme) : Tree → Option Kind
  | .leaf _ _ => none
  | .node kind cs => kindEndedIn? l kind cs

/-- The kind of the node that ends with the lexeme, among the children of a node of the kind. -/
def kindEndedIn? (l : Lexeme) (kind : Kind) : List (Option Field × Tree) → Option Kind
  | [] => none
  | c :: cs =>
    match cs, c.2 with
    | [], .leaf _ m => if m.start = l.start && m.text = l.text then some kind else none
    | _, _ => (kindEndedBy? l c.2).or (kindEndedIn? l kind cs)

end

/-- The tree of lexemes to which the marks are added that close their brackets. -/
def closedTree? (lexemes : List Lexeme) : Option Tree :=
  match lexemes.getLast? with
  | some last =>
    let read := lexemes.dropLast
    let marks := (closers 0 read.reverse).map fun m => { last with shape := .mark, text := m }
    let closed := read ++ marks ++ [{ last with newline := some ⟨last.start, last.stop⟩ }]
    (proposeFile closed).toOption.bind (Tree.ofSteps · closed)
  | none => none

/-- At the end of a source in which nothing is missing but what closes its brackets: does the repair
supply the mark that closes a block or the parameters of a function, or a name that may end a
declaration? -/
def completesAtEnd (r : Repair) : Bool :=
  match r.fault, closedTree? r.lexemes with
  | .missing l, some t =>
    let last := r.lexemes.dropLast.getLast?
    if last.any (·.isString) then true
    else if l.shape = .word then
      closers 0 r.lexemes.reverse = []
        && [some .typeIdentifier, some .packageIdentifier].contains (leafOf? l t)
    else [some .block, some .parameterList].contains (kindEndedBy? l t)
  | _, _ => false

/-- The way that a repair opens, if it does. -/
def open? (r : Repair) (read : Nat) : Option Way :=
  if (stuckAt r.joined).all (r.resume < ·) then
    some ⟨r, stuckAt r.lexemes, read⟩
  else if (r.lexemes.getLast?.any (·.start.offset = r.resume)) && completesAtEnd r then
    some ⟨r, some (r.resume + 1), read⟩
  else none

/-- The number of pieces of syntax up to the place of a repair that supplies a lexeme. -/
def piecesRead (i : Impasse) (r : Repair) : Nat :=
  match proposeFile r.lexemes with
  | .ok steps =>
    let shifts := i.before.length + 1
    (steps.foldl
      (fun (s : Nat × Nat) step =>
        match step with
        | .shift _ => (s.1 + 1, if s.1 < shifts then s.2 + 1 else s.2)
        | .reduce _ _ => if s.1 ≤ shifts then (s.1, s.2 + 1) else s
        | _ => s)
      (0, 0)).2
  | .error _ => i.before.length + i.before.length / 2

/-- Does the way, which has gone on for `n` lexemes, make it pointless to pay so much? -/
def Way.excludes (w : Way) (n cost : Nat) : Bool :=
  patience < (cost - w.repair.cost) * (1 + w.read + n + n / 2)

/-- Does the repair end a line that the run makes up? -/
def isEndOf (i : Impasse) (r : Repair) (run : Run) : Bool :=
  match r.fault, run.run with
  | .unended _, first :: _ =>
    (innermost 0 run.before).2.length = (innermost 0 i.before).2.length
      && (first.startsLine || run.before.head?.all fun l => l.is ";" || l.is "(")
  | _, _ => false

/-- The ways that leave out lexemes, given those found so far, when `n` lexemes from the stuck one
on have been passed over. What has been found catches up with the search at its second step. -/
def leavingOut (i : Impasse) (runs : List Run) : Nat → Nat → List Way → List Way
  | 0, _, ways => ways
  | fuel + 1, n, ways =>
    match (i.found :: i.after).drop n with
    | [] => ways
    | next :: _ =>
      let passing := ways.filter (·.passes next.start.offset)
      let ahead := if n = 1 then [] else passing
      let found? := runs.findSome? fun r => do
        if n = 0 && ways.any (·.repair.isEndOf i r) then none
        let way ← (remove i r n).bind (open? · 1)
        if ahead.any (·.excludes n way.repair.estimate) then none else some way
      let found? := found?.filter fun w => !passing.any (·.excludes n w.repair.cost)
      let skipped := ((i.found :: i.after).take (n + 1)).map scraps
      let ways' := ways ++ found?.toList
      let overtaken := n ≠ 0 && ways'.any fun w =>
        w.passes next.start.offset && w.repair.cost < removalCost (total skipped) i.found.start next
      if next.shape = .eof || overtaken
          || ahead.any (·.excludes n (removalCost (total skipped) i.gap next)) then ways'
      else leavingOut i runs fuel (n + 1) ways'

/-- How many lexemes before the stuck one a repair may leave out, and how many from it on. -/
def lookBack : Nat := 48
def lookAhead : Nat := 48

/-- Where the fault of a repair is. -/
def place (r : Repair) : Position :=
  match r.fault with
  | .missing l => l.start
  | .unended p => p
  | .superfluous p => p

/-- Between two repairs of the same cost that lead to the end of the source, the first of which
begins earlier: is the later one better? It is, unless what it leaves out stands inside a phrase
that ends later, while the earlier one leaves out the beginning of the phrase. -/
def laterIsBetter (i : Impasse) (earlier later : Repair) : Bool :=
  let lexemes := i.before.reverse ++ i.found :: i.after
  let beforeOf (r : Repair) := (i.before.find? fun l => l.start.offset < r.place.offset)
  let next := (lexemes.find? fun l => l.start.offset = later.resume).getD i.found
  let first := (lexemes.find? fun l => l.start = earlier.place).getD i.found
  let begins := first.startsLine
    || (beforeOf earlier).any fun l => l.is "\x7b" || l.is ";" || l.is ":"
  !(next.startsLine || (begins && !closes next)
    || (beforeOf later).any fun l => l.is "." || l.is ",")

/-- Is the way `v`, found after `w`, better? It is if it leads further, or as far at a lower cost;
between ways to the end of the source that cost the same their places decide. -/
def Way.overtakes (i : Impasse) (v w : Way) : Bool :=
  match v.reach, w.reach with
  | none, none =>
    v.repair.cost < w.repair.cost
      || (v.repair.cost == w.repair.cost && laterIsBetter i w.repair v.repair)
  | none, some _ => true
  | some _, none => false
  | some a, some b => b < a || (a == b && v.repair.cost < w.repair.cost)

/-- The best of the ways. -/
def bestWay (i : Impasse) : List Way → Option Way
  | [] => none
  | w :: ws => some (ws.foldl (fun best v => if v.overtakes i best then v else best) w)

/-- The best way on from an impasse. -/
def wayFrom (i : Impasse) : Option Way :=
  let missing := (supplies i).findSome? fun r => open? r (piecesRead i r)
  let nothing : Run := ⟨[], i.before⟩
  let runs := nothing :: runsBack lookBack 0 nothing
  let continued := (continueString i).bind (open? · 1)
  bestWay i (leavingOut i runs lookAhead 0 (missing.or continued).toList)

/-- Is the fault that shows up later the first one all the same? A line that lacks its end only
counts where nothing else is wrong. -/
def precedes (later earlier : Repair) : Bool :=
  match later.fault, earlier.fault with
  | .unended _, _ => false
  | _, .unended _ => true
  | _, _ => later.place.offset < earlier.place.offset

/-- The first fault of a source. Where a repair leads to another impasse, what has to be left out
there may begin before the first fault. -/
def firstFault : Nat → Position → List Lexeme → Option Repair
  | 0, _, _ => none
  | fuel + 1, outset, lexemes =>
    match proposeFile lexemes with
    | .ok _ => none
    | .error stuck =>
      match wayFrom (Impasse.ofStuck outset lexemes stuck) with
      | none => none
      | some w =>
        match firstFault fuel outset w.repair.lexemes with
        | some r => if r.precedes w.repair then some r else some w.repair
        | none => some w.repair

/-- The name under which a missing lexeme goes in the derivation of the repaired source. -/
def nameIn (lexemes : List Lexeme) (missing : Lexeme) : String :=
  match (closedTree? lexemes).bind (leafOf? missing) with
  | some leaf => leaf.name missing.text
  | none => if missing.shape = .word then "identifier" else missing.text

/-- What the repair says. -/
def complaint (r : Repair) : ParseError :=
  match r.fault with
  | .missing l => ⟨l.start.line, l.start.column, s!"missing \x60{nameIn r.lexemes l}\x60"⟩
  | _ => ⟨r.place.line, r.place.column, "syntax error"⟩

end Repair

/-- What is wrong with lexemes that have no derivation; the blanks before them end at `outset`. -/
def diagnose (outset : Position) (lexemes : List Lexeme) : ParseError :=
  match Repair.firstFault 8 outset lexemes with
  | some r => r.complaint
  | none =>
    let place := ((lexemes.find? (·.shape = .unknown)).map (·.start)).getD outset
    ⟨place.line, place.column, "syntax error"⟩

end SwitchLint.Go
