import SwitchLint.Analysis.Analyzer
import SwitchLint.Proofs.Paths

/-!
What a list of patterns leaves out. A path is left out if one of the patterns does so, so only the set of
the patterns matters. A relative pattern sees the part of a path below the root, an absolute one the whole
path: of what lies above the root only absolute patterns can tell.
-/

namespace SwitchLint

/-! ### Lists of patterns -/

namespace Analyzer

theorem parseExclusions_cons (text : String) (texts : List String) :
    parseExclusions (text :: texts) =
      match Exclusion.parse text with
      | .ok e => (parseExclusions texts).map (e :: ·)
      | .error fault => .error (.badPattern fault) := by
  rw [parseExclusions, List.mapM_cons]
  cases Exclusion.parse text with
  | error fault => rfl
  | ok e =>
    change (parseExclusions texts >>= fun es => pure (e :: es)) = _
    cases parseExclusions texts <;> rfl

/-- The patterns are read if and only if each of them can be read. -/
theorem parseExclusions_isOk_iff (texts : List String) :
    (∃ es, parseExclusions texts = .ok es) ↔ ∀ text ∈ texts, ∃ e, Exclusion.parse text = .ok e := by
  induction texts with
  | nil => exact ⟨fun _ _ member => (List.not_mem_nil member).elim, fun _ => ⟨[], rfl⟩⟩
  | cons text texts ih =>
    rw [List.forall_mem_cons, ← ih, parseExclusions_cons]
    cases Exclusion.parse text with
    | error fault => simp
    | ok e => cases parseExclusions texts <;> simp [Except.map]

theorem mem_parseExclusions {texts : List String} {es : List Exclusion}
    (read : parseExclusions texts = .ok es) (e : Exclusion) :
    e ∈ es ↔ ∃ text ∈ texts, Exclusion.parse text = .ok e := by
  induction texts generalizing es with
  | nil =>
    cases read
    simp
  | cons text texts ih =>
    rw [parseExclusions_cons] at read
    cases own : Exclusion.parse text with
    | error fault => simp [own] at read
    | ok e' =>
      cases rest : parseExclusions texts with
      | error fault => simp [own, rest, Except.map] at read
      | ok es' =>
        simp only [own, rest, Except.map, Except.ok.injEq] at read
        rw [← read, List.mem_cons, ih rest]
        simp [own, eq_comm]

end Analyzer

theorem excluded_iff (es : List Exclusion) (root path : String) :
    excluded es root path = true ↔ ∃ e ∈ es, e.excludes root path = true := List.any_eq_true

/-- More patterns leave out more. -/
theorem excluded_mono {texts texts' : List String} (more : texts ⊆ texts') {es es' : List Exclusion}
    (read : Analyzer.parseExclusions texts = .ok es) (read' : Analyzer.parseExclusions texts' = .ok es')
    {root path : String} (out : excluded es root path = true) : excluded es' root path = true := by
  obtain ⟨e, member, leaves⟩ := (excluded_iff es root path).mp out
  obtain ⟨text, there, parsed⟩ := (Analyzer.mem_parseExclusions read e).mp member
  have member' := (Analyzer.mem_parseExclusions read' e).mpr ⟨text, more there, parsed⟩
  exact (excluded_iff es' root path).mpr ⟨e, member', leaves⟩

/-! ### Relative and absolute patterns -/

namespace Glob

/-- Reading goes on behind the first token; that one stays. -/
theorem head_of_parseFrom {cs : List Char} {position skip : Nat} {before : Option Char}
    {tokens ts : List Token} (filled : tokens ≠ [])
    (read : parseFrom position before skip tokens cs = .ok ts) : ts.head? = tokens.getLast? := by
  induction cs generalizing position skip before tokens with
  | nil =>
    rw [parseFrom, Except.ok.injEq] at read
    rw [← read, List.head?_reverse]
  | cons c cs ih =>
    cases skip with
    | succ skip =>
      rw [parseFrom] at read
      exact ih filled read
    | zero =>
      rw [parseFrom] at read
      split at read
      · cases read
      · rename_i t skip own
        have last : (push t tokens).getLast? = tokens.getLast? ∧ push t tokens ≠ [] := by
          obtain ⟨first, others, rfl⟩ := List.exists_cons_of_ne_nil filled
          unfold push
          split <;> simp_all [List.getLast?_cons]
        rw [← last.1]
        exact ih last.2 read

end Glob

namespace Exclusion

theorem parse_text {text : String} {e : Exclusion} (read : parse text = .ok e) : e.text = text := by
  unfold parse at read
  cases glob : Glob.parse text with
  | error fault => simp [glob, Except.map] at read
  | ok g =>
    simp only [glob, Except.map, Except.ok.injEq] at read
    rw [← read]

/-- A pattern that begins with a slash matches only what begins with one. -/
theorem not_covers_of_absolute {text : String} {e : Exclusion} (read : parse text = .ok e)
    (absolute : Path.isAbsolute text = true) {path : String} (relative : Path.isAbsolute path = false) :
    e.glob.covers path = false := by
  obtain ⟨cs, begins⟩ := List.head?_eq_some_iff.mp ((Path.isAbsolute_iff text).mp absolute)
  have first : e.glob.tokens.head? = some (.char '/') := by
    unfold parse Glob.parse at read
    rw [begins] at read
    have step : Glob.parseFrom 0 none 0 [] ('/' :: cs) =
        Glob.parseFrom 1 (some '/') 0 [.char '/'] cs := rfl
    rw [step] at read
    cases rest : Glob.parseFrom 1 (some '/') 0 [.char '/'] cs with
    | error fault => simp [rest, Except.map] at read
    | ok ts =>
      simp only [rest, Except.map, Except.ok.injEq] at read
      rw [← read]
      exact Glob.head_of_parseFrom (List.cons_ne_nil _ _) rest
  obtain ⟨ts, tokens⟩ := List.head?_eq_some_iff.mp first
  have other : path.toList.head? ≠ some '/' := by
    rw [← Bool.not_eq_true, Path.isAbsolute_iff] at relative
    exact relative
  rw [Glob.covers, tokens]
  cases chars : path.toList with
  | nil => rfl
  | cons c cs =>
    have differs : ('/' == c) = false := by
      rw [chars, List.head?_cons] at other
      exact beq_eq_false_iff_ne.mpr fun same => other (by rw [same])
    simp [Glob.accepts, Glob.Token.admits, differs]

/-- A relative pattern sees a path only from the root on. -/
theorem excludes_congr {e : Exclusion} (relative : Path.isAbsolute e.text = false)
    {root root' path path' : String} (same : Path.relativeTo root path = Path.relativeTo root' path') :
    e.excludes root path = e.excludes root' path' := by
  simp only [excludes, relative, same, Bool.false_eq_true, if_false]

/-- An absolute pattern sees the whole path. -/
theorem excludes_absolute {text : String} {e : Exclusion} (read : parse text = .ok e)
    (absolute : Path.isAbsolute text = true) {path : String} (down : Path.Descends path)
    (root : String) :
    e.excludes root (Path.append root path) = e.glob.covers (Path.append root path) := by
  have below := not_covers_of_absolute read absolute down.tidied.relative
  simp only [excludes, down.relativeTo_append, below, parse_text read, absolute, Bool.false_or, if_true]

end Exclusion

/-- Relative patterns leave out the same wherever the root lies. -/
theorem excluded_congr {es : List Exclusion} (relative : ∀ e ∈ es, Path.isAbsolute e.text = false)
    {root root' path path' : String} (same : Path.relativeTo root path = Path.relativeTo root' path') :
    excluded es root path = excluded es root' path' := by
  rw [Bool.eq_iff_iff, excluded_iff, excluded_iff]
  refine exists_congr fun e => and_congr_right fun member => ?_
  rw [Exclusion.excludes_congr (relative e member) same]

/-! ### Moved projects -/

/-- Below a root, relative patterns leave out what they leave out below any other root. What absolute
patterns leave out besides are the paths that they match as a whole. So a project that is moved is checked
in the same files under relative patterns, and names them in the same way under any. -/
theorem excluded_wherever_root {patterns : List String} {es : List Exclusion}
    (valid : Analyzer.parseExclusions patterns = .ok es) {path : String} (down : Path.Descends path)
    (root root' : String) :
    ((∀ text ∈ patterns, Path.isAbsolute text = false) →
      excluded es root (Path.append root path) = excluded es root' (Path.append root' path) ∧
      ∀ walked : List (List String), (∀ place ∈ walked, ∀ name ∈ place, IsName name) →
        (walked.filter fun place => !excluded es root (place.foldl Path.append root)) =
          walked.filter fun place => !excluded es root' (place.foldl Path.append root')) ∧
    (excluded es root (Path.append root path) = true ↔
      excluded (es.filter fun e => !Path.isAbsolute e.text) root' (Path.append root' path) = true ∨
      ∃ e ∈ es, Path.isAbsolute e.text = true ∧ e.glob.covers (Path.append root path) = true) ∧
    (∀ content, FileContext.ofPath (Path.append root path) content root = ⟨content, Path.tidy path⟩ ∧
      Path.components (Path.tidy path) = Path.components path) ∧
    ∀ (place : List String) (content : String), (∀ name ∈ place, IsName name) →
      FileContext.ofPath (place.foldl Path.append root) content root =
        ⟨content, .ofList (Path.join (place.map String.toList))⟩ := by
  have same : Path.relativeTo root (Path.append root path) =
      Path.relativeTo root' (Path.append root' path) := by
    rw [down.relativeTo_append, down.relativeTo_append]
  have texts {e : Exclusion} (member : e ∈ es) :
      ∃ text ∈ patterns, Exclusion.parse text = .ok e ∧ e.text = text := by
    obtain ⟨text, there, read⟩ := (Analyzer.mem_parseExclusions valid e).mp member
    exact ⟨text, there, read, Exclusion.parse_text read⟩
  refine ⟨fun relative => ?_, ?_, fun content => ⟨?_, down.components_tidy⟩, fun place content proper => ?_⟩
  · have relative' : ∀ e ∈ es, Path.isAbsolute e.text = false := by
      intro e member
      obtain ⟨text, there, -, rfl⟩ := texts member
      exact relative _ there
    refine ⟨excluded_congr relative' same, fun walked proper => List.filter_congr fun place there => ?_⟩
    have same : Path.relativeTo root (place.foldl Path.append root) =
        Path.relativeTo root' (place.foldl Path.append root') := by
      rw [Path.relativeTo_below root (proper place there), Path.relativeTo_below root' (proper place there)]
    rw [excluded_congr relative' same]
  · rw [excluded_iff, excluded_iff]
    constructor
    · rintro ⟨e, member, out⟩
      obtain ⟨text, -, read, own⟩ := texts member
      cases absolute : Path.isAbsolute e.text with
      | true =>
        rw [Exclusion.excludes_absolute read (own ▸ absolute) down] at out
        exact .inr ⟨e, member, absolute, out⟩
      | false =>
        rw [Exclusion.excludes_congr absolute same] at out
        exact .inl ⟨e, List.mem_filter.mpr ⟨member, by simp [absolute]⟩, out⟩
    · rintro (⟨e, member, out⟩ | ⟨e, member, absolute, covers⟩)
      · obtain ⟨member, relative⟩ := List.mem_filter.mp member
        rw [← Exclusion.excludes_congr (by simpa using relative) same] at out
        exact ⟨e, member, out⟩
      · obtain ⟨text, -, read, own⟩ := texts member
        rw [← Exclusion.excludes_absolute read (own ▸ absolute) down] at covers
        exact ⟨e, member, covers⟩
  · rw [FileContext.ofPath, down.relativeTo_append]
  · rw [FileContext.ofPath, Path.relativeTo_below root proper]

/-- The directory `vendor` above the root leaves out nothing; an absolute pattern does. -/
theorem excluded_wherever_root_vendored :
    Path.Descends "pkg/a.src" ∧ Path.Descends "gen/c.src" ∧
    (∃ es, Analyzer.parseExclusions ["**/vendor/**", "**/testdata/**"] = .ok es ∧
      excluded es "/home/dev/vendor/proj" "/home/dev/vendor/proj/pkg/a.src" =
        excluded es "/repo" "/repo/pkg/a.src") ∧
    ∃ es, Analyzer.parseExclusions ["**/vendor/**", "/home/dev/vendor/proj/gen/**"] = .ok es ∧
      excluded es "/home/dev/vendor/proj" "/home/dev/vendor/proj/gen/c.src" = true := by
  have down : Path.Descends "pkg/a.src" :=
    Path.descends_of_names (List.cons_ne_nil ['p', 'k', 'g'] [['a', '.', 's', 'r', 'c']]) (by decide)
  have down' : Path.Descends "gen/c.src" :=
    Path.descends_of_names (List.cons_ne_nil ['g', 'e', 'n'] [['c', '.', 's', 'r', 'c']]) (by decide)
  have path : Path.append "/home/dev/vendor/proj" "pkg/a.src" = "/home/dev/vendor/proj/pkg/a.src" := by
    decide
  have path' : Path.append "/home/dev/vendor/proj" "gen/c.src" = "/home/dev/vendor/proj/gen/c.src" := by
    decide
  have moved : Path.append "/repo" "pkg/a.src" = "/repo/pkg/a.src" := by decide
  have accepted : (Analyzer.parseExclusions ["**/vendor/**", "**/testdata/**"]).isOk = true := by decide
  have accepted' :
      (Analyzer.parseExclusions ["**/vendor/**", "/home/dev/vendor/proj/gen/**"]).isOk = true := by
    decide
  refine ⟨down, down', ?_, ?_⟩
  · cases valid : Analyzer.parseExclusions ["**/vendor/**", "**/testdata/**"] with
    | error fault => simp [valid, Except.isOk, Except.toBool] at accepted
    | ok es =>
      have relative := (excluded_wherever_root valid down "/home/dev/vendor/proj" "/repo").1 (by decide)
      rw [path, moved] at relative
      exact ⟨es, rfl, relative.1⟩
  · cases valid : Analyzer.parseExclusions ["**/vendor/**", "/home/dev/vendor/proj/gen/**"] with
    | error fault => simp [valid, Except.isOk, Except.toBool] at accepted'
    | ok es =>
      have absolute := (excluded_wherever_root valid down' "/home/dev/vendor/proj" "/repo").2.1
      rw [path'] at absolute
      have matched : ((Exclusion.parse "/home/dev/vendor/proj/gen/**").map fun e =>
          Path.isAbsolute e.text && e.glob.covers "/home/dev/vendor/proj/gen/c.src") = .ok true := by decide
      cases read : Exclusion.parse "/home/dev/vendor/proj/gen/**" with
      | error fault => simp [read, Except.map] at matched
      | ok e =>
        simp only [read, Except.map, Except.ok.injEq, Bool.and_eq_true] at matched
        have member := (Analyzer.mem_parseExclusions valid e).mpr ⟨_, by simp, read⟩
        exact ⟨es, rfl, absolute.mpr (.inr ⟨e, member, matched⟩)⟩

end SwitchLint
