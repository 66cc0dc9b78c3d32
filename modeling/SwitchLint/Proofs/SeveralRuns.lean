import SwitchLint.Proofs.DifferingFiles
import SwitchLint.Proofs.InitialSettings

/-!
Several runs of the program, one after another. Only one that initialises a project leaves anything
behind, and all that it leaves is the file of settings, which is written over only by force.
-/

namespace SwitchLint

namespace FileTree

/-- The trees hold the same, but that the second may have a file with the content at one place, where no
directory was. -/
structure WrittenAt (place : List String) (content : Content) (t t' : FileTree) : Prop where
  elsewhere : ∀ names, names ≠ place → t'.at? names = t.at? names
  there : t'.at? place = t.at? place ∨ t.at? place ≠ some none ∧ t'.at? place = some (some content)

theorem graft_writtenAt {t : FileTree} {here : List String} {es : List (String × FileTree)} {name : String}
    (content : Content) (inside : t.node? here = some (directory es))
    (free : t.at? (here ++ [name]) ≠ some none) :
    WrittenAt (here ++ [name]) content t (t.graft (here ++ [name]) (file content)) where
  elsewhere _ other := at_graft content inside free other
  there := .inr ⟨free, at_eq_file.mpr (node_graft t (file content) (here ++ [name]))⟩

namespace WrittenAt

variable {place : List String} {content : Content} {t t' t'' : FileTree}

theorem refl (place : List String) (content : Content) (t : FileTree) : WrittenAt place content t t where
  elsewhere _ _ := rfl
  there := .inl rfl

theorem trans (first : WrittenAt place content t t') (second : WrittenAt place content t' t'') :
    WrittenAt place content t t'' where
  elsewhere names other := (second.elsewhere names other).trans (first.elsewhere names other)
  there := by
    rcases second.there with same | ⟨free, written⟩
    · rw [same]
      exact first.there
    · rcases first.there with same | ⟨free', -⟩
      · exact .inr ⟨same ▸ free, written⟩
      · exact .inr ⟨free', written⟩

section

variable (written : WrittenAt place content t t')

include written

theorem sameBut : SameBut (· = place) t t' := by
  intro names
  by_cases other : names = place
  · subst other
    rcases written.there with same | ⟨free, new⟩
    · exact .inl same
    · exact .inr ⟨rfl, free, by simp [new]⟩
  · exact .inl (written.elsewhere names other)

theorem isSome {names : List String} (found : (t.node? names).isSome = true) :
    (t'.node? names).isSome = true := by
  rw [Option.isSome_iff_ne_none, ne_eq, ← at_eq_none] at found ⊢
  by_cases other : names = place
  · subst other
    rcases written.there with same | ⟨-, new⟩
    · rwa [same]
    · rw [new]
      nofun
  · rwa [written.elsewhere names other]

theorem names {path : String} {top : List String} (way : t.names path = .ok top) :
    t'.names path = .ok top :=
  written.sameBut.names way (written.isSome (isSome_of_names way))

end

end WrittenAt

end FileTree

namespace Workspace

open FileTree (WrittenAt)

/-- The names lead to the working directory, which is a directory. -/
structure WorksIn (w : Workspace) (here : List String) : Prop where
  inside : w.files.names w.directory = .ok here
  directory : w.files.at? here = some none

namespace WorksIn

variable {w w' : Workspace} {here place : List String} {content : Content} (works : w.WorksIn here)

include works

theorem of_writtenAt (same : w'.directory = w.directory)
    (written : WrittenAt place content w.files w'.files) : w'.WorksIn here where
  inside := by
    rw [same]
    exact written.names works.inside
  directory := written.sameBut.directory works.directory

theorem of_write {name text : String} (done : w.write name text = .ok w') :
    w'.directory = w.directory ∧ WrittenAt (here ++ [name]) (.text text) w.files w'.files := by
  obtain ⟨es, directory⟩ := FileTree.at_eq_directory.mp works.directory
  rw [write, works.inside] at done
  simp only [bind, Except.bind] at done
  split at done
  · cases done
  · rename_i noDirectory
    obtain rfl := Except.ok.inj done
    refine ⟨rfl, FileTree.graft_writtenAt (.text text) directory fun there => ?_⟩
    obtain ⟨es, clash⟩ := FileTree.at_eq_directory.mp there
    exact noDirectory es clash

end WorksIn

end Workspace

namespace CommandLine

open FileTree (WrittenAt)

/-! ### One run -/

/-- Do the arguments ask for the settings that a project begins with? -/
def AsksInit (args : List String) : Prop := ∃ force given, parse args = .ok ⟨.init force, given⟩

/-- A run leaves the files as they are, unless it has been asked to initialise the project and has done
so. -/
theorem run_cases (s : Surroundings) (args : List String) :
    ((run s args).workspace = s.workspace ∧ (run s args).written = []) ∨
      ∃ force given w, parse args = .ok ⟨.init force, given⟩ ∧
        (s.workspace.node? templateName = none ∨ force = true) ∧
        s.workspace.write templateName template = .ok w ∧
        run s args = { status := 0, stdout := unlines initLines, workspace := w,
                       written := [templateName] } := by
  rw [run]
  cases asked : parse args with
  | error refusal => cases refusal <;> exact .inl ⟨rfl, rfl⟩
  | ok command =>
    obtain ⟨request, given⟩ := command
    cases request with
    | check path format names excludes =>
      left
      simp only [perform]
      split <;> exact ⟨rfl, rfl⟩
    | listRules => exact .inl ⟨rfl, rfl⟩
    | init force =>
      simp only [perform, initialise]
      by_cases refused : ((s.workspace.node? templateName).isSome && !force) = true
      · rw [if_pos refused]
        exact .inl ⟨rfl, rfl⟩
      · rw [if_neg refused]
        cases written : s.workspace.write templateName template with
        | error fault => exact .inl ⟨rfl, rfl⟩
        | ok w =>
          refine .inr ⟨force, given, w, rfl, ?_, rfl, rfl⟩
          cases force <;> simp_all

section

variable {s : Surroundings} {here : List String} (works : s.workspace.WorksIn here)

include works

theorem at_template : s.workspace.node? templateName = none ↔
    s.workspace.files.at? (here ++ [templateName]) = none := by
  rw [node_template works.inside, FileTree.at_eq_none]

theorem run_writtenAt (args : List String) : (run s args).workspace.directory = s.workspace.directory ∧
    WrittenAt (here ++ [templateName]) (.text template) s.workspace.files (run s args).workspace.files := by
  rcases run_cases s args with ⟨same, -⟩ | ⟨-, -, w, -, -, written, outcome⟩
  · rw [same]
    exact ⟨rfl, WrittenAt.refl _ _ _⟩
  · rw [outcome]
    exact works.of_write written

theorem asksInit_of_change {args : List String}
    (changes : (run s args).workspace ≠ s.workspace ∨ (run s args).written ≠ []) :
    (run s args).written = [templateName] ∧ ∃ force given, parse args = .ok ⟨.init force, given⟩ ∧
      (s.workspace.files.at? (here ++ [templateName]) = none ∨ force = true) := by
  rcases run_cases s args with ⟨same, none⟩ | ⟨force, given, w, asked, free, -, outcome⟩
  · rcases changes with change | change
    · exact absurd same change
    · exact absurd none change
  · rw [at_template works] at free
    exact ⟨by rw [outcome], force, given, asked, free⟩

theorem init_refused {args : List String} {given : Option String}
    (asked : parse args = .ok ⟨.init false, given⟩)
    (there : s.workspace.files.at? (here ++ [templateName]) ≠ none) :
    run s args = failure s.workspace .settingsExist := by
  rw [ne_eq, ← at_template works, ← ne_eq, ← Option.isSome_iff_ne_none] at there
  rw [run, asked]
  simp only [perform, initialise, there]
  rfl

end

/-! ### Runs one after another -/

/-- What is around the run that comes after these. -/
def after (s : Surroundings) (runs : List (List String)) : Surroundings :=
  runs.foldl (fun s args => { s with workspace := (run s args).workspace }) s

theorem after_cons (s : Surroundings) (args : List String) (runs : List (List String)) :
    after s (args :: runs) = after { s with workspace := (run s args).workspace } runs :=
  rfl

theorem after_append (s : Surroundings) (runs more : List (List String)) :
    after s (runs ++ more) = after (after s runs) more :=
  List.foldl_append

theorem getElem?_runAll (s : Surroundings) (runs : List (List String)) (k : Nat) :
    (runAll s runs)[k]? = runs[k]?.map (run (after s (runs.take k))) := by
  induction runs generalizing s k with
  | nil => rfl
  | cons args runs ih =>
    cases k with
    | zero => rfl
    | succ k =>
      rw [runAll, List.getElem?_cons_succ, List.getElem?_cons_succ, List.take_succ_cons, after_cons]
      exact ih _ k

theorem after_writtenAt {s : Surroundings} {here : List String} (works : s.workspace.WorksIn here)
    (runs : List (List String)) : (after s runs).workspace.WorksIn here ∧
      WrittenAt (here ++ [templateName]) (.text template) s.workspace.files
        (after s runs).workspace.files := by
  -- The working directory stays where it is, so that each run writes at the same place.
  induction runs generalizing s with
  | nil => exact ⟨works, WrittenAt.refl _ _ _⟩
  | cons args runs ih =>
    obtain ⟨directory, written⟩ := run_writtenAt works args
    have moved : ({ s with workspace := (run s args).workspace } : Surroundings).workspace.WorksIn here :=
      works.of_writtenAt directory written
    obtain ⟨works', rest⟩ := ih moved
    exact ⟨works', written.trans rest⟩

/-- Runs of which none initialises the project leave nothing behind. -/
theorem after_idle {s : Surroundings} {runs : List (List String)}
    (idle : ∀ k args, runs[k]? = some args → AsksInit args →
      (run (after s (runs.take k)) args).status ≠ 0) : after s runs = s := by
  induction runs generalizing s with
  | nil => rfl
  | cons args runs ih =>
    have first := idle 0 args rfl
    rcases run_cases s args with ⟨same, -⟩ | ⟨force, given, w, asked, -, -, outcome⟩
    · rw [after_cons, same]
      refine ih fun k args' here => ?_
      have later := idle (k + 1) args' here
      rwa [List.take_succ_cons, after_cons, same] at later
    · rw [List.take_zero] at first
      exact absurd (congrArg Outcome.status outcome) (first ⟨force, given, asked⟩)

/-- What is asked again, and is not to initialise the project, is answered as before, if the project has
not been initialised between. -/
theorem runAll_repeats (s : Surroundings) {runs : List (List String)} {i j : Nat} (order : i ≤ j)
    {args : List String} (first : runs[i]? = some args) (again : runs[j]? = some args)
    (reads : ¬ AsksInit args)
    (idle : ∀ k args', i < k → k < j → runs[k]? = some args' → AsksInit args' →
      ∀ outcome, (runAll s runs)[k]? = some outcome → outcome.status ≠ 0) :
    (runAll s runs)[i]? = (runAll s runs)[j]? := by
  have whole (n : Nat) :
      after s (runs.take (i + n)) = after (after s (runs.take i)) ((runs.drop i).take n) := by
    rw [List.take_add, after_append]
  have same : after s (runs.take j) = after s (runs.take i) := by
    rw [← Nat.add_sub_cancel' order, whole]
    -- The first of the two is no exception: it was not asked to initialise anything.
    refine after_idle fun k args' here asks => ?_
    rw [List.getElem?_take, List.getElem?_drop] at here
    split at here
    · rename_i before
      rw [List.take_take, Nat.min_eq_left (Nat.le_of_lt before), ← whole]
      have inner : i < i + k := by
        refine Nat.lt_add_of_pos_right (Nat.pos_of_ne_zero fun zero => reads ?_)
        rw [zero, Nat.add_zero, first] at here
        exact Option.some.inj here ▸ asks
      refine idle (i + k) args' inner (by omega) here asks _ ?_
      rw [getElem?_runAll, here, Option.map_some]
    · cases here
  rw [getElem?_runAll, getElem?_runAll, first, again, same]

theorem check_reads : ¬ AsksInit ["check"] := by
  rintro ⟨force, given, clash⟩
  rw [check_asked] at clash
  cases clash

theorem after_check (s : Surroundings) : after s [["check"]] = s := by
  refine after_idle fun k args here asks => ?_
  cases k with
  | zero => exact absurd (Option.some.inj here ▸ asks) check_reads
  | succ k => cases here

theorem initialisedProject_present :
    initialisedProject.workspace.files.at? (["w"] ++ [templateName]) ≠ none := by
  rw [initialisedProject, (run_init emptyProject_inside emptyProject_fresh init_asked).2,
    FileTree.at_eq_file.mpr (FileTree.node_graft _ _ _)]
  exact Option.some_ne_none _

end CommandLine

end SwitchLint
