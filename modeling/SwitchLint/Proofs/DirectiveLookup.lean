import Mathlib.Data.String.Basic
import SwitchLint.Proofs.ApplyingDirectives
import SwitchLint.Proofs.Suppression

/-!
Looking up directives by numbers: lines by their index, parts of a line by byte offsets. Each index that
is used is that of a line and each offset lies between two characters, so nothing is asked for that is not
there. The answer is local: it is read off two lines, and it stays what it is where these are found again.
-/

namespace SwitchLint

open String (utf8Len)

/-- What is asked for and is not there. -/
inductive Slip where
  /-- A line of that number; the first has number one. -/
  | line (number : Nat)
  /-- A part of a text that begins or ends at that byte. -/
  | offset (byte : Nat)
  deriving DecidableEq, Repr

@[simp] theorem Slip.ok_bind {α β : Type} (a : α) (f : α → Except Slip β) :
    (Except.ok a >>= f) = f a := rfl

namespace Text

/-! ### Offsets in bytes -/

/-- The text before a byte offset and from there on. An offset beyond the end of the text or inside a
character cuts nothing. -/
def splitAt? : Nat → List Char → Option (List Char × List Char)
  | 0, text => some ([], text)
  | _ + 1, [] => none
  | i + 1, c :: text =>
    if c.utf8Size ≤ i + 1 then
      (splitAt? (i + 1 - c.utf8Size) text).map fun (before, rest) => (c :: before, rest)
    else none

def upTo (offset : Nat) (text : List Char) : Except Slip (List Char) :=
  match splitAt? offset text with
  | some (before, _) => .ok before
  | none => .error (.offset offset)

def fromOn (offset : Nat) (text : List Char) : Except Slip (List Char) :=
  match splitAt? offset text with
  | some (_, rest) => .ok rest
  | none => .error (.offset offset)

/-- The byte offset at which a mark first occurs. -/
def offset? (mark text : List Char) : Option Nat :=
  (cut? mark text).map fun (before, _) => utf8Len before

/-- A text is split at the offsets that are as many bytes as some of its characters at the beginning. -/
theorem splitAt_eq_some_iff (offset : Nat) (text before rest : List Char) :
    splitAt? offset text = some (before, rest) ↔ text = before ++ rest ∧ utf8Len before = offset := by
  fun_induction splitAt? offset text generalizing before with
  | case1 text =>
    rw [String.utf8Len_eq_zero, Option.some.injEq, Prod.mk.injEq]
    constructor
    · rintro ⟨rfl, rfl⟩
      exact ⟨rfl, rfl⟩
    · rintro ⟨rfl, rfl⟩
      exact ⟨rfl, rfl⟩
  | case2 i =>
    constructor
    · intro impossible
      cases impossible
    · rintro ⟨whole, bytes⟩
      rw [(List.append_eq_nil_iff.mp whole.symm).1] at bytes
      cases bytes
  | case3 i c text fits ih =>
    rw [Option.map_eq_some_iff]
    constructor
    · rintro ⟨⟨inner, left⟩, split, same⟩
      obtain ⟨rfl, rfl⟩ := Prod.mk.inj same
      obtain ⟨rfl, bytes⟩ := (ih inner).mp split
      rw [String.utf8Len_cons]
      exact ⟨rfl, by omega⟩
    · rintro ⟨whole, bytes⟩
      cases before with
      | nil => cases bytes
      | cons d inner =>
        obtain ⟨rfl, rfl⟩ := List.cons.inj whole
        rw [String.utf8Len_cons] at bytes
        exact ⟨(inner, rest), (ih inner).mpr ⟨rfl, by omega⟩, rfl⟩
  | case4 i c text long =>
    constructor
    · intro impossible
      cases impossible
    · rintro ⟨whole, bytes⟩
      cases before with
      | nil => cases bytes
      | cons d inner =>
        obtain ⟨rfl, rfl⟩ := List.cons.inj whole
        rw [String.utf8Len_cons] at bytes
        omega

/-- What cannot be split is exactly what is no position of the text: offsets beyond its end, and those
inside a character. -/
theorem splitAt_isSome_iff (offset : Nat) (text : List Char) :
    (splitAt? offset text).isSome = true ↔ String.Pos.Raw.IsValid (String.ofList text) ⟨offset⟩ := by
  rw [Option.isSome_iff_exists, String.Pos.Raw.isValid_iff_exists_append]
  simp only [Prod.exists, splitAt_eq_some_iff]
  constructor
  · rintro ⟨before, rest, rfl, rfl⟩
    exact ⟨.ofList before, .ofList rest, String.ofList_append, by simp⟩
  · rintro ⟨before, rest, whole, bytes⟩
    refine ⟨before.toList, rest.toList, ?_, ?_⟩
    · simpa using congrArg String.toList whole
    · rw [String.utf8Len_toList]
      exact (congrArg String.Pos.Raw.byteIdx bytes).symm

/-- The offset of a mark can be used: it splits the text before the mark, and so many bytes later behind
it. -/
theorem splitAt_mark {mark text before rest : List Char} (cut : cut? mark text = some (before, rest)) :
    offset? mark text = some (utf8Len before) ∧
      splitAt? (utf8Len before) text = some (before, mark ++ rest) ∧
      splitAt? (utf8Len before + utf8Len mark) text = some (before ++ mark, rest) := by
  obtain ⟨whole, -⟩ := (cut_eq_some_iff mark text before rest).mp cut
  refine ⟨by rw [offset?, cut]; rfl, ?_, ?_⟩
  · rw [splitAt_eq_some_iff, whole, List.append_assoc]
    exact ⟨rfl, rfl⟩
  · rw [splitAt_eq_some_iff, whole, String.utf8Len_append]
    exact ⟨rfl, rfl⟩

theorem upTo_mark {mark text before rest : List Char} (cut : cut? mark text = some (before, rest)) :
    upTo (utf8Len before) text = .ok before := by
  rw [upTo, (splitAt_mark cut).2.1]

theorem fromOn_mark {mark text before rest : List Char} (cut : cut? mark text = some (before, rest)) :
    fromOn (utf8Len before + utf8Len mark) text = .ok rest := by
  rw [fromOn, (splitAt_mark cut).2.2]

theorem offset_of_cut {mark text before rest : List Char} (cut : cut? mark text = some (before, rest)) :
    offset? mark text = some (utf8Len before) := (splitAt_mark cut).1

theorem offset_of_no_cut {mark text : List Char} (absent : cut? mark text = none) :
    offset? mark text = none := by
  rw [offset?, absent, Option.map_none]

end Text

namespace Directive

open Text

/-! ### Reading a line by offsets -/

/-- The quoted text after `reason=`, cut off where the second quotation mark begins. -/
def reasonByOffset (text : List Char) : Except Slip (Option String) :=
  match (after? "reason=".toList (trim text)).bind fun rest => after? ['\x22'] (trim rest) with
  | none => .ok none
  | some quoted =>
    match offset? ['\x22'] quoted with
    | none => .ok none
    | some stop => do return some (String.ofList (← upTo stop quoted))

/-- What stands behind a marker, with the bracket found by its offset. -/
def behindByOffset (after : List Char) : Except Slip (Option Directive) :=
  match after? "allow(".toList (trim after) with
  | none => .ok none
  | some inner =>
    match offset? [')'] (trim inner) with
    | none => .ok none
    | some stop => do
      let rules := parseRules (← upTo stop (trim inner))
      if rules = [] then return none
      else return some ⟨rules, ← reasonByOffset (← fromOn (stop + 1) (trim inner))⟩

/-- The directive on a line, with the marker found by its offset. -/
def parseByOffset (line : List Char) : Except Slip (Option Directive) :=
  match offset? marker line with
  | none => .ok none
  | some start => do
    if endsWith "//".toList (trimEnd (← upTo start line)) then
      behindByOffset (← fromOn (start + utf8Len marker) line)
    else return none

theorem reasonByOffset_eq (text : List Char) : reasonByOffset text = .ok (parseReason text) := by
  unfold reasonByOffset parseReason
  cases after? "reason=".toList (trim text) with
  | none => rfl
  | some rest =>
    simp only [Option.bind_some, Option.bind_eq_bind]
    cases after? ['\x22'] (trim rest) with
    | none => rfl
    | some quoted =>
      simp only [Option.bind_some]
      cases cut : cut? ['\x22'] quoted with
      | none => simp only [offset_of_no_cut cut, Option.bind_none]
      | some parts =>
        simp only [offset_of_cut cut, upTo_mark cut, Option.bind_some, Slip.ok_bind]
        rfl

theorem behindByOffset_eq (after : List Char) : behindByOffset after = .ok (behindMarker after) := by
  unfold behindByOffset behindMarker
  cases after? "allow(".toList (trim after) with
  | none => rfl
  | some inner =>
    simp only [Option.bind_some, Option.bind_eq_bind]
    cases cut : cut? [')'] (trim inner) with
    | none => simp only [offset_of_no_cut cut, Option.bind_none]
    | some parts =>
      obtain ⟨names, rest⟩ := parts
      have behind : fromOn (utf8Len names + 1) (trim inner) = .ok rest := fromOn_mark cut
      simp only [offset_of_cut cut, upTo_mark cut, behind, reasonByOffset_eq, Option.bind_some,
        Slip.ok_bind]
      by_cases unnamed : parseRules names = []
      · simp [unnamed]
        rfl
      · simp [unnamed]
        rfl

theorem parse_eq (line : List Char) : parse line = (cut? marker line).bind fun (before, after) =>
    if endsWith "//".toList (trimEnd before) then behindMarker after else none := by
  refine congrArg (cut? marker line).bind (funext fun parts => ?_)
  obtain ⟨before, after⟩ := parts
  dsimp only
  cases endsWith "//".toList (trimEnd before) <;> rfl

theorem parseByOffset_eq (line : List Char) : parseByOffset line = .ok (parse line) := by
  rw [parse_eq, parseByOffset]
  cases cut : cut? marker line with
  | none => simp only [offset_of_no_cut cut, Option.bind_none]
  | some parts =>
    obtain ⟨before, after⟩ := parts
    simp only [offset_of_cut cut, upTo_mark cut, fromOn_mark cut, behindByOffset_eq, Option.bind_some,
      Slip.ok_bind]
    split <;> rfl

/-- White space at the end of a line makes no difference if it ends the line. -/
theorem parse_return (line : List Char) : parse (line ++ ['\r']) = parse line := by
  rw [parse_eq, parse_eq, cut_concat (by decide)]
  cases cut? marker line with
  | none => rfl
  | some parts =>
    obtain ⟨before, after⟩ := parts
    simp only [Option.map_some, Option.bind_some, behindMarker_return]

end Directive

namespace Allowance

open Text

/-! ### Looking up lines by their numbers -/

/-- The line of that number. -/
def lineByNumber (lines : List (List Char)) : Nat → Except Slip (List Char)
  | 0 => .error (.line 0)
  | n + 1 =>
    match lines[n]? with
    | some line => .ok line
    | none => .error (.line (n + 1))

/-- The answer of the first of the numbered lines with a directive for the rule. Numbers of no line are
passed over. -/
def checkLines (lines : List (List Char)) (rule : String) : List Nat → Except Slip Allowance
  | [] => .ok .denied
  | n :: ns =>
    if n = 0 ∨ lines.length < n then checkLines lines rule ns
    else do
      match ← Directive.parseByOffset (← lineByNumber lines n) with
      | some d => if d.names rule then return .allowed d.reason else checkLines lines rule ns
      | none => checkLines lines rule ns

/-- Is a finding of the rule on that line allowed? Lines are taken by number, and parts of them by byte
offsets. -/
def checkByNumber (content : String) (line : Nat) (rule : String) : Except Slip Allowance :=
  checkLines (lines content.toList) rule [line - 1, line]

theorem line_eq_none_iff (content : String) (n : Nat) :
    line? content n = none ↔ n = 0 ∨ (lines content.toList).length < n := by
  cases n with
  | zero => simp [line?]
  | succ n =>
    rw [line?, List.getElem?_eq_none_iff]
    omega

theorem lineByNumber_eq {content : String} {n : Nat} {text : List Char}
    (found : line? content n = some text) : lineByNumber (lines content.toList) n = .ok text := by
  cases n with
  | zero => cases found
  | succ n =>
    have there : (lines content.toList)[n]? = some text := found
    simp only [lineByNumber, there]

theorem checkLines_eq (content rule : String) (ns : List Nat) :
    checkLines (lines content.toList) rule ns =
      .ok (((ns.findSome? (directive? content rule)).map fun d => .allowed d.reason).getD .denied) := by
  induction ns with
  | nil => rfl
  | cons n ns ih =>
    rw [checkLines, List.findSome?_cons]
    split
    · rename_i outside
      have none : directive? content rule n = none := by
        rw [directive?, (line_eq_none_iff content n).mpr outside]
        rfl
      rw [none, ih]
    · rename_i inside
      obtain ⟨text, found⟩ := Option.ne_none_iff_exists'.mp (mt (line_eq_none_iff content n).mp inside)
      rw [lineByNumber_eq found, Slip.ok_bind, Directive.parseByOffset_eq, Slip.ok_bind, ih]
      cases read : Directive.parse text with
      | none => simp [directive?, found, read]
      | some d =>
        by_cases named : d.names rule = true
        · simp [directive?, found, read, named]
          rfl
        · simp [directive?, found, read, named]

/-- No line and no part of a line is asked for that is not there, and the answer is the one that is
given. -/
theorem checkByNumber_eq (content : String) (line : Nat) (rule : String) :
    checkByNumber content line rule = .ok (check content line rule) := by
  rw [checkByNumber, checkLines_eq, check]
  cases above : directive? content rule (line - 1) with
  | some d => simp [above]
  | none => cases here : directive? content rule line <;> simp [above, here]

/-! ### Lines found again -/

theorem directive_congr {content content' : String} {n n' : Nat} (rule : String)
    (same : (line? content n).map Directive.parse = (line? content' n').map Directive.parse) :
    directive? content rule n = directive? content' rule n' := by
  unfold directive?
  cases found : line? content n with
  | none =>
    rw [found, Option.map_none, eq_comm, Option.map_eq_none_iff] at same
    rw [same]
  | some text =>
    rw [found, Option.map_some, eq_comm, Option.map_eq_some_iff] at same
    obtain ⟨text', found', read⟩ := same
    rw [found', Option.bind_eq_bind, Option.bind_some, Option.bind_some, read]

/-- Lines that carry the same directives are answered alike. -/
theorem check_congr {content content' : String} {line line' : Nat} (rule : String)
    (above : (line? content (line - 1)).map Directive.parse =
      (line? content' (line' - 1)).map Directive.parse)
    (here : (line? content line).map Directive.parse = (line? content' line').map Directive.parse) :
    check content line rule = check content' line' rule := by
  rw [check, directive_congr rule above, directive_congr rule here, check]

/-- Behind whole lines the lines of a text are found at numbers that much higher. -/
theorem line_behind_lines {head : List Char} (whole : WholeLines head) (text : List Char) {n : Nat}
    (numbered : n ≠ 0) : line? (.ofList (head ++ text)) (n + head.count '\n') = line? (.ofList text) n := by
  obtain ⟨n, rfl⟩ := Nat.exists_eq_succ_of_ne_zero numbered
  rw [Nat.succ_add, line?, line?, String.toList_ofList, String.toList_ofList, ← lines_drop whole text,
    List.getElem?_drop, Nat.add_comm]

theorem line_inserted {above inserted : List Char} (whole : WholeLines above)
    (whole' : WholeLines inserted) (below : List Char) {n : Nat} (lower : above.count '\n' < n) :
    line? (.ofList (above ++ (inserted ++ below))) (n + inserted.count '\n') =
      line? (.ofList (above ++ below)) n := by
  obtain ⟨m, rfl⟩ := Nat.exists_eq_add_of_lt lower
  have old := line_behind_lines whole below (Nat.succ_ne_zero m)
  have new := line_behind_lines (whole.append whole') below (Nat.succ_ne_zero m)
  rw [List.append_assoc, List.count_append] at new
  have same : above.count '\n' + m + 1 = m.succ + above.count '\n' := by omega
  rw [same, old, Nat.add_assoc, new]

/-- The text with a carriage return before each line feed. -/
def withReturns (text : List Char) : List Char :=
  text.flatMap fun c => if c = '\n' then ['\r', '\n'] else [c]

theorem withReturns_unbroken {text : List Char} (unbroken : '\n' ∉ text) : withReturns text = text := by
  induction text with
  | nil => rfl
  | cons c text ih =>
    obtain ⟨other, unbroken⟩ := List.ne_and_not_mem_of_not_mem_cons unbroken
    rw [withReturns, List.flatMap_cons, if_neg (Ne.symm other), ← withReturns, ih unbroken]
    rfl

/-- The lines end in other characters and carry the same directives. -/
theorem directives_withReturns (text : List Char) :
    (lines (withReturns text)).map Directive.parse = (lines text).map Directive.parse := by
  induction length : text.length using Nat.strongRecOn generalizing text with
  | ind n ih =>
    subst length
    by_cases feed : '\n' ∈ text
    · obtain ⟨first, others, rfl, unbroken⟩ := List.eq_append_cons_of_mem feed
      have rest := ih others.length (by simp; omega) others rfl
      have whole : withReturns (first ++ '\n' :: others) =
          (first ++ ['\r']) ++ '\n' :: withReturns others := by
        have kept := withReturns_unbroken unbroken
        unfold withReturns at kept ⊢
        rw [List.flatMap_append, kept, List.flatMap_cons]
        simp
      have unbroken' : '\n' ∉ first ++ ['\r'] := by simp [unbroken]
      rw [whole, lines_append_break unbroken', lines_append_break unbroken, List.map_cons, List.map_cons,
        rest, dropReturn_concat, if_pos rfl]
      rcases dropReturn_eq first with same | ends
      · rw [same]
      · -- The line ended in a carriage return before, and keeps it.
        rw [← Directive.parse_return (dropReturn first), ← ends]
    · rw [withReturns_unbroken feed]

/-- A lookup asks for nothing that is not there. It allows a finding exactly if a directive applies, and
the reason it answers is given by one that does. It depends on nothing but the line of the finding and
the line before it, wherever these stand and whichever way lines end. -/
theorem lookup_safe_and_local (rule : String) :
    (∀ content line, checkByNumber content line rule = .ok (check content line rule)) ∧
    (∀ offset text, (splitAt? offset text).isSome = true ↔
      String.Pos.Raw.IsValid (.ofList text) ⟨offset⟩) ∧
    (∀ content line, (check content line rule).isAllowed = true ↔
      ∃ d, Applies content rule line d) ∧
    (∀ content line reason, (check content line rule).reason = some reason →
      ∃ d, Applies content rule line d ∧ d.reason = some reason) ∧
    (∀ content content' line line', line? content (line - 1) = line? content' (line' - 1) →
      line? content line = line? content' line' →
      check content line rule = check content' line' rule) ∧
    (∀ above inserted below line, WholeLines above → WholeLines inserted →
      above.count '\n' + 1 < line →
      check (.ofList (above ++ (inserted ++ below))) (line + inserted.count '\n') rule =
        check (.ofList (above ++ below)) line rule) ∧
    ∀ content line, check (.ofList (withReturns content.toList)) line rule = check content line rule := by
  refine ⟨fun content line => checkByNumber_eq content line rule, splitAt_isSome_iff,
    fun content line => isAllowed_iff _ _ _, fun content line reason => applies_of_reason _ _ _,
    fun content content' line line' above here => ?_,
    fun above inserted below line whole whole' lower => ?_, fun content line => ?_⟩
  · exact check_congr rule (by rw [above]) (by rw [here])
  · have before : line + inserted.count '\n' - 1 = line - 1 + inserted.count '\n' := by omega
    refine check_congr rule ?_ ?_
    · rw [before, line_inserted whole whole' below (by omega)]
    · rw [line_inserted whole whole' below (by omega)]
  · have same (n : Nat) : (line? (.ofList (withReturns content.toList)) n).map Directive.parse =
        (line? content n).map Directive.parse := by
      cases n with
      | zero => rfl
      | succ n =>
        have found := congrArg (·[n]?) (directives_withReturns content.toList)
        simpa [line?] using found
    exact check_congr rule (same _) (same _)

/-- The same two lines in two files, with other line ends, and with a line more above them. -/
theorem lookup_safe_and_local_of_copy :
    (line? "func f() \x7b\n// chainlint: allow(all)\nswitch\n" 2 =
        line? "// chainlint: allow(all)\r\nswitch" 1 ∧
      line? "func f() \x7b\n// chainlint: allow(all)\nswitch\n" 3 =
        line? "// chainlint: allow(all)\r\nswitch" 2 ∧
      check "func f() \x7b\n// chainlint: allow(all)\nswitch\n" 3 "long-chain" =
        check "// chainlint: allow(all)\r\nswitch" 2 "long-chain") ∧
    WholeLines [] ∧ WholeLines ['x', '\n'] ∧
      check (.ofList ([] ++ (['x', '\n'] ++ "// chainlint: allow(all)\r\nswitch".toList))) (2 + 1)
          "long-chain" =
        check (.ofList ([] ++ "// chainlint: allow(all)\r\nswitch".toList)) 2 "long-chain" := by
  obtain ⟨-, -, -, -, alike, inserted, -⟩ := lookup_safe_and_local "long-chain"
  have above : line? "func f() \x7b\n// chainlint: allow(all)\nswitch\n" 2 =
      line? "// chainlint: allow(all)\r\nswitch" 1 := by decide
  have here : line? "func f() \x7b\n// chainlint: allow(all)\nswitch\n" 3 =
      line? "// chainlint: allow(all)\r\nswitch" 2 := by decide
  have none : WholeLines [] := .inl rfl
  have one : WholeLines ['x', '\n'] := .inr rfl
  exact ⟨⟨above, here, alike _ _ 3 2 above here⟩, none, one, inserted [] _ _ 2 none one (by decide)⟩

end Allowance

end SwitchLint
