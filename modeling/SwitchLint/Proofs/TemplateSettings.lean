import Mathlib
import SwitchLint.CommandLine.Program

/-!
How the settings that a project begins with are read. Comments and empty lines of a TOML document count
for nothing; what is left of the template are two headers and five keys with their values, and these say
what holds without them.
-/

namespace SwitchLint

namespace Toml

open Grammar Scan

/-! ### Scanners one after the other -/

theorem Scan.bind_of_ok {α β : Type} {p : Scan α} {f : α → Scan β} {c c' : Cursor} {a : α}
    (run : p c = .ok (a, c')) : (p >>= f) c = f a c' := by
  change (p c >>= fun x => f x.1 x.2) = _
  rw [run]
  rfl

theorem Scan.cut_of_ok {α : Type} {p : Scan α} {c c' : Cursor} {a : α} (run : p c = .ok (a, c')) :
    cut p c = .ok (a, c') := by
  simp only [cut, run]

theorem takeWhile_all (p : Char → Bool) {taken rest : List Char} (all : ∀ c ∈ taken, p c = true)
    (stop : ∀ c ∈ rest.head?, p c = false) (off : Nat) :
    takeWhile p ⟨taken ++ rest, off⟩ = .ok (taken, ⟨rest, off + byteLength taken⟩) := by
  have first : (taken ++ rest).takeWhile p = taken := by
    rw [List.takeWhile_append_of_pos all]
    cases rest with
    | nil => simp
    | cons c cs => simp [stop c (by simp)]
  have later : (taken ++ rest).dropWhile p = rest := by
    rw [List.dropWhile_append_of_pos all]
    cases rest with
    | nil => simp
    | cons c cs => simp [stop c (by simp)]
  simp only [takeWhile, first, later]

/-! ### Lines -/

/-- No blank stands at the beginning. -/
def Unblank (cs : List Char) : Prop := ∀ c ∈ cs.head?, isBlank c = false

section

variable {rest : List Char} (unblank : Unblank rest)

include unblank

theorem blanks_of_unblank (off : Nat) : blanks ⟨rest, off⟩ = .ok ((), ⟨rest, off⟩) :=
  Scan.bind_of_ok (takeWhile_all isBlank (List.forall_mem_nil _) unblank off)

theorem lines_comment {body : List Char} (all : ∀ c ∈ body, inComment c = true) (off : Nat)
    (d : Draft) : ∃ off', ∀ n,
      lines (n + 1) d ⟨'#' :: (body ++ '\n' :: rest), off⟩ = lines n d ⟨rest, off'⟩ := by
  have mark : char '#' ⟨'#' :: (body ++ '\n' :: rest), off⟩ =
      .ok ((), ⟨body ++ '\n' :: rest, off + 1⟩) := rfl
  have text := takeWhile_all inComment all (show ∀ c ∈ ('\n' :: rest).head?, inComment c = false by
    rintro c ⟨⟩
    decide) (off + 1)
  have whole : comment ⟨'#' :: (body ++ '\n' :: rest), off⟩ =
      .ok ((), ⟨'\n' :: rest, off + 1 + byteLength body⟩) :=
    (Scan.bind_of_ok mark).trans (Scan.bind_of_ok text)
  have line : (comment >>= fun _ => lineEnding) ⟨'#' :: (body ++ '\n' :: rest), off⟩ =
      .ok ((), ⟨rest, off + 1 + byteLength body + 1⟩) := Scan.bind_of_ok whole
  refine ⟨off + 1 + byteLength body + 1, fun n => ?_⟩
  rw [lines]
  refine (Scan.bind_of_ok (p := peek?) (a := some '#') rfl).trans ?_
  exact (Scan.bind_of_ok (Scan.cut_of_ok line)).trans (Scan.bind_of_ok (blanks_of_unblank unblank _))

theorem lines_empty (n off : Nat) (d : Draft) :
    lines (n + 1) d ⟨'\n' :: rest, off⟩ = lines n d ⟨rest, off + 1⟩ := by
  have line : newline ⟨'\n' :: rest, off⟩ = .ok ((), ⟨rest, off + 1⟩) := rfl
  rw [lines]
  refine (Scan.bind_of_ok (p := peek?) (a := some '\n') rfl).trans ?_
  exact (Scan.bind_of_ok line).trans (Scan.bind_of_ok (blanks_of_unblank unblank _))

theorem lines_pair {c : Char} {cs : List Char} {d d' : Draft} {off off' : Nat}
    (first : cs.head? = some c) (other : c ∉ ['#', '[', '\n', '\r'])
    (run : pair d ⟨cs, off⟩ = .ok (d', ⟨rest, off'⟩)) (n : Nat) :
    lines (n + 1) d ⟨cs, off⟩ = lines n d' ⟨rest, off'⟩ := by
  simp only [List.mem_cons, not_or] at other
  have line : (cut (pair d) >>= fun d => blanks >>= fun _ => lines n d) ⟨cs, off⟩ =
      lines n d' ⟨rest, off'⟩ :=
    (Scan.bind_of_ok (Scan.cut_of_ok run)).trans (Scan.bind_of_ok (blanks_of_unblank unblank _))
  have next : peek? ⟨cs, off⟩ = .ok (some c, ⟨cs, off⟩) := congrArg (fun x => Except.ok (x, _)) first
  rw [lines]
  refine (Scan.bind_of_ok next).trans ?_
  refine Eq.trans (congrFun ?_ _) line
  split
  all_goals simp_all

theorem lines_header {cs : List Char} {d d' : Draft} {off off' : Nat} (first : cs.head? = some '[')
    (run : header d ⟨cs, off⟩ = .ok (d', ⟨rest, off'⟩)) (n : Nat) :
    lines (n + 1) d ⟨cs, off⟩ = lines n d' ⟨rest, off'⟩ := by
  have next : peek? ⟨cs, off⟩ = .ok (some '[', ⟨cs, off⟩) := congrArg (fun x => Except.ok (x, _)) first
  rw [lines]
  refine (Scan.bind_of_ok next).trans ?_
  exact (Scan.bind_of_ok (Scan.cut_of_ok run)).trans (Scan.bind_of_ok (blanks_of_unblank unblank _))

end

/-! ### Entries of a table -/

/-- A key that is not dotted and its value, to the end of the line. -/
def entryLine : Scan (List Key × Key × Item) := do
  let (path, last) := splitLast (← key)
  cut do
    equals
    blanks
    let item ← value (depthLimit - 1)
    endOfLine
    return (path, last, item)

/-- The draft with one more entry in its present table. -/
def Draft.with (d : Draft) (key : Key) (item : Item) : Draft :=
  let extent : Option Extent := do
    pure ⟨(← d.head.extent).start, (← item.extent?).stop⟩
  { d with
    head := { d.head with extent := extent.orElse fun _ => d.head.extent }
    entries := d.entries ++ [(key, item)] }

theorem pair_of_entry {d : Draft} {key : Key} {item : Item} {c c' : Cursor}
    (read : entryLine c = .ok (([], key, item), c')) (plain : d.head.dotted = false)
    (fresh : d.entries.get? key.name = none) : pair d c = .ok (d.with key item, c') := by
  have added : d.addPair [] key item = .ok (d.with key item) := by
    simp [Draft.addPair, updateAt, addEntry, plain, fresh, Draft.with, bind, Except.bind, pure,
      Except.pure]
  have same : pair d = checked entryLine fun r => d.addPair r.1 r.2.1 r.2.2 := rfl
  rw [same, checked]
  refine (Scan.bind_of_ok (p := here) rfl).trans ((Scan.bind_of_ok read).trans ?_)
  simp only [added]
  rfl

/-! ### Documents line by line -/

/-- The text of lines. -/
def textOf (ls : List String) : List Char := ls.flatMap fun l => l.toList ++ ['\n']

/-- Is the line empty or a comment? -/
def idleLine (l : String) : Bool :=
  match l.toList with
  | [] => true
  | '#' :: body => body.all inComment
  | _ => false

/-- From the draft on, all of the text is read, and what is read has the property. Each step takes a
character at least, so there is fuel enough. -/
def Ends (P : Draft → Prop) (d : Draft) (cs : List Char) : Prop :=
  ∀ n off, cs.length < n → ∃ d' off', lines n d ⟨cs, off⟩ = .ok (d', ⟨[], off'⟩) ∧ P d'

variable {P : Draft → Prop} {d : Draft}

theorem shorter_behind (line rest : List Char) : rest.length < (line ++ '\n' :: rest).length := by
  rw [List.length_append, List.length_cons]
  omega

theorem ends_here (holds : P d) : Ends P d [] := by
  intro n off fuel
  obtain ⟨n, rfl⟩ := Nat.exists_eq_succ_of_ne_zero (Nat.ne_of_gt fuel)
  exact ⟨d, off, rfl, holds⟩

/-- One step, and so on from what it leaves. -/
theorem ends_step {cs rest : List Char} (shorter : rest.length < cs.length)
    (step : ∀ off, ∃ d' off', (∀ n, lines (n + 1) d ⟨cs, off⟩ = lines n d' ⟨rest, off'⟩) ∧
      Ends P d' rest) : Ends P d cs := by
  intro n off fuel
  obtain ⟨n, rfl⟩ := Nat.exists_eq_succ_of_ne_zero (Nat.ne_zero_of_lt fuel)
  obtain ⟨d₁, off₁, step, tail⟩ := step off
  obtain ⟨d', off', read, holds⟩ := tail n off₁ (by omega)
  exact ⟨d', off', (step n).trans read, holds⟩

theorem textOf_cons (l : String) (ls : List String) :
    textOf (l :: ls) = l.toList ++ '\n' :: textOf ls := by
  simp [textOf]

/-- Does the line begin with no blank? -/
def unindented (l : String) : Bool := l.toList.head?.all fun c => !isBlank c

theorem unblank_of_unindented {l : String} (own : unindented l = true) (ls : List String) :
    Unblank (textOf (l :: ls)) := by
  rw [textOf_cons]
  unfold unindented at own
  cases text : l.toList with
  | nil =>
    rintro c ⟨⟩
    decide
  | cons c cs =>
    rintro _ ⟨⟩
    simpa [text] using own

theorem unblank_nil : Unblank (textOf []) := by
  rintro c ⟨⟩

theorem idle_unindented {l : String} (idle : idleLine l = true) : unindented l = true := by
  unfold idleLine at idle
  unfold unindented
  split at idle
  · rename_i empty
    rw [empty]
    rfl
  · rename_i body comment
    rw [comment]
    rfl
  · cases idle

/-- Empty lines and comments count for nothing. -/
theorem ends_idle (idle : List String) (l : String) (ls : List String)
    (all : ∀ l ∈ idle, idleLine l = true) (own : unindented l = true)
    (rest : Ends P d (textOf (l :: ls))) : Ends P d (textOf (idle ++ l :: ls)) := by
  induction idle with
  | nil => exact rest
  | cons first idle ih =>
    obtain ⟨this, others⟩ := List.forall_mem_cons.mp all
    have unblank : Unblank (textOf (idle ++ l :: ls)) := by
      cases idle with
      | nil => exact unblank_of_unindented own ls
      | cons next idle => exact unblank_of_unindented (idle_unindented (others next (by simp))) _
    rw [List.cons_append, textOf_cons]
    refine ends_step (shorter_behind first.toList (textOf (idle ++ l :: ls))) fun off => ?_
    unfold idleLine at this
    split at this
    · rename_i empty
      rw [empty]
      exact ⟨d, off + 1, fun n => lines_empty unblank n off d, ih others⟩
    · rename_i body comment
      obtain ⟨off', step⟩ := lines_comment unblank (List.all_eq_true.mp this) off d
      rw [comment]
      exact ⟨d, off', step, ih others⟩
    · cases this

theorem ends_header {cs rest : List Char} (first : cs.head? = some '[') (unblank : Unblank rest)
    (shorter : rest.length < cs.length)
    (read : ∀ off, ∃ d' off', header d ⟨cs, off⟩ = .ok (d', ⟨rest, off'⟩) ∧ Ends P d' rest) :
    Ends P d cs := by
  refine ends_step shorter fun off => ?_
  obtain ⟨d', off', step, tail⟩ := read off
  exact ⟨d', off', lines_header unblank first step, tail⟩

/-- A key with its value adds an entry, if the present table has no entry of that name. -/
theorem ends_entry (c : Char) {cs rest : List Char} (first : cs.head? = some c)
    (other : c ∉ ['#', '[', '\n', '\r']) (unblank : Unblank rest) (shorter : rest.length < cs.length)
    (plain : d.head.dotted = false)
    (read : ∀ off, ∃ key item off', entryLine ⟨cs, off⟩ = .ok (([], key, item), ⟨rest, off'⟩) ∧
      d.entries.get? key.name = none ∧ Ends P (d.with key item) rest) : Ends P d cs := by
  refine ends_step shorter fun off => ?_
  obtain ⟨key, item, off', step, fresh, tail⟩ := read off
  exact ⟨_, off', lines_pair unblank first other (pair_of_entry step plain fresh), tail⟩

theorem parse_of_ends {cs : List Char} (unblank : Unblank cs) (mark : cs.head? ≠ some '\ufeff')
    (read : Ends P {} cs) :
    ∃ d, P d ∧ ∀ finished, d.finish = .ok finished →
      parse (String.ofList cs) = .ok finished.root := by
  obtain ⟨d, off, run, holds⟩ := read (cs.length + 1) 0 (Nat.lt_succ_self _)
  refine ⟨d, holds, fun finished finish => ?_⟩
  have unmarked : attempt (char '\ufeff') ⟨cs, 0⟩ = .ok (none, ⟨cs, 0⟩) := by
    cases cs with
    | nil => rfl
    | cons c cs =>
      have other : (c == '\ufeff') = false := by simpa using mark
      have fails : char '\ufeff' ⟨c :: cs, 0⟩ = .error { offset := 0 } := by
        change (one (· == '\ufeff') ⟨c :: cs, 0⟩ >>= fun _ => _) = _
        simp only [one, other, Bool.false_eq_true, if_false]
        rfl
      simp [attempt, fails]
  have fuel : bound ⟨cs, 0⟩ = .ok (cs.length + 1, ⟨cs, 0⟩) := rfl
  have whole : Grammar.document ⟨cs, 0⟩ = .ok (finished.root, ⟨[], off⟩) := by
    rw [Grammar.document]
    refine (Scan.bind_of_ok unmarked).trans ((Scan.bind_of_ok (blanks_of_unblank unblank 0)).trans ?_)
    refine (Scan.bind_of_ok fuel).trans ((Scan.bind_of_ok run).trans ?_)
    rw [finish]
    rfl
  rw [parse, String.toList_ofList, whole]

/-! ### The lines of the template -/

section

variable (rest : List Char) (off : Nat)

theorem header_analyzer : header {} ⟨"[analyzer]".toList ++ '\n' :: rest, off⟩ =
    .ok ({ path := [⟨"analyzer", ⟨off + 1, off + 9⟩⟩], head := { extent := some ⟨off, off + 10⟩ } },
      ⟨rest, off + 11⟩) := by
  cbv

theorem entry_exclude : entryLine
    ⟨"exclude = [".toList ++ '\n' :: ("    \x22**/vendor/**\x22,".toList ++ '\n' ::
      ("    \x22**/testdata/**\x22,".toList ++ '\n' :: ("]".toList ++ '\n' :: rest))), off⟩ =
    .ok (([], ⟨"exclude", ⟨off, off + 7⟩⟩,
        .array [.string "**/vendor/**" ⟨off + 16, off + 30⟩,
          .string "**/testdata/**" ⟨off + 36, off + 52⟩] ⟨off + 10, off + 55⟩),
      ⟨rest, off + 56⟩) := by
  cbv

theorem entry_gitignore : entryLine ⟨"respect_gitignore = true".toList ++ '\n' :: rest, off⟩ =
    .ok (([], ⟨"respect_gitignore", ⟨off, off + 17⟩⟩, .boolean true ⟨off + 20, off + 24⟩),
      ⟨rest, off + 25⟩) := by
  cbv

theorem entry_enabled : entryLine ⟨"enabled = true".toList ++ '\n' :: rest, off⟩ =
    .ok (([], ⟨"enabled", ⟨off, off + 7⟩⟩, .boolean true ⟨off + 10, off + 14⟩), ⟨rest, off + 15⟩) := by
  cbv

theorem entry_maximum : entryLine ⟨"max_shared_segments = 2".toList ++ '\n' :: rest, off⟩ =
    .ok (([], ⟨"max_shared_segments", ⟨off, off + 19⟩⟩, .integer 2 ⟨off + 22, off + 23⟩),
      ⟨rest, off + 24⟩) := by
  cbv

theorem entry_nested : entryLine ⟨"recurse_nested = false".toList ++ '\n' :: rest, off⟩ =
    .ok (([], ⟨"recurse_nested", ⟨off, off + 14⟩⟩, .boolean false ⟨off + 17, off + 22⟩),
      ⟨rest, off + 23⟩) := by
  cbv

theorem header_rule (k e : Extent) (entries : Entries) :
    header { path := [⟨"analyzer", k⟩], head := { extent := some e }, entries }
      ⟨"[rules.long-chain]".toList ++ '\n' :: rest, off⟩ =
    .ok ({
        root := [(⟨"analyzer", k⟩, .table { extent := some e } entries),
          (⟨"rules", ⟨off + 1, off + 6⟩⟩, .table { implicit := true } [])]
        path := [⟨"rules", ⟨off + 1, off + 6⟩⟩, ⟨"long-chain", ⟨off + 7, off + 17⟩⟩]
        head := { extent := some ⟨off, off + 18⟩ } },
      ⟨rest, off + 19⟩) := by
  cbv

end

theorem textOf_eq (ls : List String) :
    textOf ls = (String.join (ls.map fun l => l ++ "\n")).toList := by
  simp [textOf, String.toList_join, List.flatMap_def, Function.comp_def]

end Toml

namespace CommandLine

open Toml

/-- What is read says what the settings of the template are. -/
def Tells (config : Config) (d : Toml.Draft) : Prop :=
  ∃ finished, d.finish = .ok finished ∧ Config.ofEntries finished.root = .ok config

/-- The settings of the template, as they are read. -/
def templateConfig : Config where
  rules := [(LongChain.name, {
    enabled := some true
    options := [("max_shared_segments", .integer 2), ("recurse_nested", .boolean false)] })]

/-- What the template says of severities, of selectors, and of nested switches. -/
def severityNotes : List String :=
  ["# Override default severity. At \x22error\x22, an allow directive without",
    "# reason=\x22...\x22 is reported as a warning.", "# severity = \x22warning\x22",
    "# Longest selector prefix case expressions may share"]

def nestedNotes : List String := ["# Also check switches nested in if/for/case bodies"]

def ruleSettings : List String :=
  "enabled = true" :: (severityNotes ++ "max_shared_segments = 2" ::
    (nestedNotes ++ ["recurse_nested = false"]))

theorem ends_rule (k₁ e₁ k₂ e₂ e₃ e₄ k₃ e₅ k₄ k₅ k₆ e₆ : Extent) :
    Ends (Tells templateConfig)
      { root := [(⟨"analyzer", k₁⟩, .table { extent := some e₁ }
            [(⟨"exclude", k₂⟩, .array [.string "**/vendor/**" e₂, .string "**/testdata/**" e₃] e₄),
              (⟨"respect_gitignore", k₃⟩, .boolean true e₅)]),
          (⟨"rules", k₄⟩, .table { implicit := true } [])]
        path := [⟨"rules", k₅⟩, ⟨"long-chain", k₆⟩]
        head := { extent := some e₆ } } (textOf ruleSettings) := by
  rw [ruleSettings, textOf_cons]
  refine ends_entry 'e' (by cbv) (by decide) ?_ (shorter_behind _ _) rfl fun off =>
    ⟨_, _, _, entry_enabled _ off, rfl, ?_⟩
  · exact unblank_of_unindented (by decide) _
  refine ends_idle severityNotes "max_shared_segments = 2" _ (by decide) (by decide) ?_
  rw [textOf_cons]
  refine ends_entry 'm' (by cbv) (by decide) ?_ (shorter_behind _ _) rfl fun off =>
    ⟨_, _, _, entry_maximum _ off, by cbv, ?_⟩
  · exact unblank_of_unindented (by decide) _
  refine ends_idle nestedNotes "recurse_nested = false" [] (by decide) (by decide) ?_
  rw [textOf_cons]
  refine ends_entry 'r' (by cbv) (by decide) unblank_nil (shorter_behind _ _) rfl fun off =>
    ⟨_, _, _, entry_nested _ off, by cbv, ?_⟩
  apply ends_here
  exact ⟨_, rfl, rfl⟩

def thresholdNotes : List String :=
  ["# chainlint configuration", "",
    "# Exit with status 1 when a violation at or above this level is found",
    "# fail_on = \x22error\x22", ""]

def rootNotes : List String :=
  ["# Root directory to analyze (default: current directory)", "# root = \x22./pkg\x22", "",
    "# Glob patterns to exclude from analysis"]

def gitignoreNotes : List String := ["", "# Respect .gitignore files"]

/-- The lines of the template from the patterns on. -/
def patternSettings : List String :=
  "exclude = [" :: "    \x22**/vendor/**\x22," :: "    \x22**/testdata/**\x22," :: "]" ::
    (gitignoreNotes ++ "respect_gitignore = true" :: ([""] ++ "[rules.long-chain]" :: ruleSettings))

theorem templateLines_eq :
    templateLines = thresholdNotes ++ "[analyzer]" :: (rootNotes ++ patternSettings) := rfl

theorem ends_patterns (k e : Extent) : Ends (Tells templateConfig)
    { path := [⟨"analyzer", k⟩], head := { extent := some e } } (textOf patternSettings) := by
  rw [patternSettings, textOf_cons, textOf_cons, textOf_cons, textOf_cons]
  refine ends_entry 'e' (by cbv) (by decide) ?_ (by simp; omega) rfl fun off =>
    ⟨_, _, _, entry_exclude _ off, rfl, ?_⟩
  · exact unblank_of_unindented (by decide) _
  refine ends_idle gitignoreNotes "respect_gitignore = true" _ (by decide) (by decide) ?_
  rw [textOf_cons]
  refine ends_entry 'r' (by cbv) (by decide) ?_ (shorter_behind _ _) rfl fun off =>
    ⟨_, _, _, entry_gitignore _ off, by cbv, ?_⟩
  · exact unblank_of_unindented (by decide) _
  refine ends_idle [""] "[rules.long-chain]" _ (by decide) (by decide) ?_
  rw [textOf_cons]
  refine ends_header (by cbv) ?_ (shorter_behind _ _) fun off =>
    ⟨_, _, header_rule _ off _ _ _, ends_rule _ _ _ _ _ _ _ _ _ _ _ _⟩
  exact unblank_of_unindented (by decide) _

theorem ends_template : Ends (Tells templateConfig) {} (textOf templateLines) := by
  rw [templateLines_eq]
  refine ends_idle thresholdNotes "[analyzer]" _ (by decide) (by decide) ?_
  rw [textOf_cons]
  refine ends_header (by cbv) ?_ (shorter_behind _ _) fun off =>
    ⟨_, _, header_analyzer _ off, ?_⟩
  · exact unblank_of_unindented (by decide) _
  · exact ends_idle rootNotes "exclude = [" _ (by decide) (by decide)
      (ends_patterns _ _)

theorem parse_template : Config.parse template = .ok templateConfig := by
  have text : String.ofList (textOf templateLines) = template := by
    rw [textOf_eq, String.ofList_toList, template]
  have unblank : Unblank (textOf templateLines) := by
    rw [templateLines_eq]
    exact unblank_of_unindented (by decide) _
  have mark : (textOf templateLines).head? ≠ some '\ufeff' := by
    rw [templateLines_eq]
    decide
  obtain ⟨d, ⟨finished, finish, config⟩, parsed⟩ := parse_of_ends unblank mark ends_template
  rw [text] at parsed
  rw [Config.parse, parsed finished finish]
  simp only [config]

/-- The template says of files, rules and the threshold what holds without it. -/
theorem templateConfig_default : templateConfig.scope = .default ∧ templateConfig.failOn = none ∧
    Rule.configured templateConfig = Rule.configured {} ∧
    ∀ name, templateConfig.isEnabled name = ({} : Config).isEnabled name ∧
      templateConfig.severity? name = ({} : Config).severity? name := by
  refine ⟨rfl, rfl, rfl, fun name => ?_⟩
  by_cases known : name = LongChain.name
  · subst known
    exact ⟨rfl, rfl⟩
  · have other : (name == LongChain.name) = false := by simpa using known
    have unset : templateConfig.rule? name = none := by
      rw [Config.rule?, templateConfig, List.lookup_cons, other]
      rfl
    have unset' : ({} : Config).rule? name = none := rfl
    simp only [Config.isEnabled, Config.severity?, unset, unset', and_self]

end CommandLine

end SwitchLint
