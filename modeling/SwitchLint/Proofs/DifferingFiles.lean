import SwitchLint.Proofs.AlikeChecks
import SwitchLint.Proofs.NewFile

/-!
Trees that differ in some files only, each of which may be in one of them alone or hold something else in
each. Where a path leads, and which files are discovered, is the same in both, as far as the files in
question are not themselves led to. In what order directories list their entries plays no part.
-/

namespace SwitchLint

namespace FileTree

open Ignore (Level Rules)

/-- The trees hold the same at all places but those told apart. There they may hold different files, and
one of them none, but no directory. -/
def SameBut (apart : List String → Prop) (t t' : FileTree) : Prop :=
  ∀ names, t'.at? names = t.at? names ∨
    apart names ∧ t.at? names ≠ some none ∧ t'.at? names ≠ some none

theorem isSome_at {t : FileTree} {names : List String} :
    (t.at? names).isSome = (t.node? names).isSome := by
  rw [at?, Option.isSome_map]

/-- What the names of a path stand for is there. -/
theorem isSome_of_names {t : FileTree} {path : String} {top : List String}
    (way : t.names path = .ok top) : (t.node? top).isSome = true := by
  have itself : t.Within t := ⟨fun _ => Iff.rfl, fun _ _ found => found⟩
  exact ((itself.names_iff path top).mp way).2

namespace SameBut

variable {apart : List String → Prop} {t t' : FileTree}

theorem symm (same : SameBut apart t t') : SameBut apart t' t := by
  intro names
  rcases same names with equal | ⟨told, noDirectory, noDirectory'⟩
  · exact .inl equal.symm
  · exact .inr ⟨told, noDirectory', noDirectory⟩

section

variable (same : SameBut apart t t')

include same

theorem elsewhere {names : List String} (other : ¬ apart names) : t'.at? names = t.at? names :=
  (same names).resolve_right fun told => other told.1

theorem directory {names : List String} (found : t.at? names = some none) : t'.at? names = some none := by
  rcases same names with equal | ⟨-, noDirectory, -⟩
  · exact equal.trans found
  · exact absurd found noDirectory

/-- What is there in both trees is a directory in both or a file in both. -/
theorem sameKind {names : List String} {node node' : FileTree} (reached : t.node? names = some node)
    (reached' : t'.node? names = some node') : node'.isDirectory = node.isDirectory := by
  have kind {t node : FileTree} (reached : t.node? names = some node) :
      node.isDirectory = true ↔ t.at? names = some none := by
    rw [at?, reached]
    cases node <;> simp [FileTree.isDirectory, content?]
  rw [Bool.eq_iff_iff, kind reached, kind reached']
  exact ⟨same.symm.directory, same.directory⟩

/-- So it is further in, below what is there in both. -/
theorem inside {top : List String} {node node' : FileTree} (reached : t.node? top = some node)
    (reached' : t'.node? top = some node') :
    SameBut (fun names => apart (top ++ names)) node node' := by
  intro names
  have lower := same (top ++ names)
  rwa [at?, at?, node_append, node_append, reached, reached'] at lower

/-! ### Where paths lead -/

/-- A way through one tree is one through the other, if what it leads to is there. Only its last step can
lead to a file. -/
theorem walk {ps : List (List Char)} {here top : List String} (walked : ps.foldlM t.enter here = .ok top)
    (there : (t'.node? top).isSome = true) : ps.foldlM t'.enter here = .ok top := by
  induction ps generalizing here with
  | nil => exact walked
  | cons p ps ih =>
    rw [List.foldlM_cons, CommandLine.bind_eq_ok_iff] at walked ⊢
    obtain ⟨next, entered, rest⟩ := walked
    refine ⟨next, enter_of_directories (fun _ => same.directory) entered ?_, ih rest⟩
    obtain ⟨node, found⟩ := Option.isSome_iff_exists.mp (isSome_of_enter entered)
    cases node with
    | directory es =>
      obtain ⟨es', found'⟩ := at_eq_directory.mp (same.directory (at_eq_directory.mpr ⟨es, found⟩))
      simp [found']
    | file content =>
      obtain ⟨-, rfl⟩ := walk_file found rest
      exact there

theorem names {path : String} {top : List String} (way : t.names path = .ok top)
    (there : (t'.node? top).isSome = true) : t'.names path = .ok top := by
  rw [FileTree.names] at way ⊢
  split at way
  · cases way
  · rename_i nonempty
    rw [if_neg nonempty]
    exact same.walk way there

end

end SameBut

/-- Some beginning of the path leads to the place. -/
def Passes (t : FileTree) (path : String) (place : List String) : Prop :=
  ∃ front back, Path.pieces path.toList = front ++ back ∧ front.foldlM t.enter [] = .ok place

/-- What the path leads to in one of the trees is there in the other. -/
def LeadsAlike (t t' : FileTree) (path : String) : Prop :=
  (∀ top, t.names path = .ok top → (t'.node? top).isSome = true) ∧
    ∀ top, t'.names path = .ok top → (t.node? top).isSome = true

/-- All that the path comes by in one of the trees is there in the other. -/
def PassesAlike (t t' : FileTree) (path : String) : Prop :=
  (∀ place, t.Passes path place → (t'.node? place).isSome = true) ∧
    ∀ place, t'.Passes path place → (t.node? place).isSome = true

theorem passes_of_names {t : FileTree} {path : String} {top : List String}
    (way : t.names path = .ok top) : t.Passes path top := by
  rw [names] at way
  split at way
  · cases way
  · exact ⟨_, [], (List.append_nil _).symm, way⟩

theorem PassesAlike.leads {t t' : FileTree} {path : String} (passes : PassesAlike t t' path) :
    LeadsAlike t t' path :=
  ⟨fun top way => passes.1 top (passes_of_names way), fun top way => passes.2 top (passes_of_names way)⟩

/-- A step that fails leads from a file, or to nothing. -/
theorem fault_of_enter {t : FileTree} {here : List String} {piece : List Char} {fault : FileFault}
    {node : FileTree} (failed : t.enter here piece = .error fault) (found : t.node? here = some node) :
    fault = if node.isDirectory then .missing else .notDirectory := by
  cases node with
  | file content =>
    rw [enter_file found] at failed
    exact (Except.error.inj failed).symm
  | directory es =>
    rw [enter_directory found] at failed
    split at failed
    · split at failed
      · cases failed
      · exact (Except.error.inj failed).symm
    · cases failed
    · cases failed

namespace SameBut

variable {apart : List String → Prop} {t t' : FileTree} (same : SameBut apart t t')

include same

theorem names_iff {path : String} (leads : LeadsAlike t t' path) (top : List String) :
    t'.names path = .ok top ↔ t.names path = .ok top :=
  ⟨fun way => same.symm.names way (leads.2 top way), fun way => same.names way (leads.1 top way)⟩

/-- Ways that come by the same end the same, be it with the same fault. -/
theorem walk_eq {ps : List (List Char)} {here : List String}
    (passes : ∀ front back place, ps = front ++ back → front.foldlM t.enter here = .ok place →
      (t'.node? place).isSome = true)
    (passes' : ∀ front back place, ps = front ++ back → front.foldlM t'.enter here = .ok place →
      (t.node? place).isSome = true) : ps.foldlM t'.enter here = ps.foldlM t.enter here := by
  induction ps generalizing here with
  | nil => rfl
  | cons p ps ih =>
    obtain ⟨node', there'⟩ := Option.isSome_iff_exists.mp (passes [] (p :: ps) here rfl rfl)
    obtain ⟨node, there⟩ := Option.isSome_iff_exists.mp (passes' [] (p :: ps) here rfl rfl)
    have first (u : FileTree) : [p].foldlM u.enter here = u.enter here p := by
      rw [List.foldlM_cons]
      cases u.enter here p <;> rfl
    rw [List.foldlM_cons, List.foldlM_cons]
    cases entered : t.enter here p with
    | ok next =>
      have step : t'.enter here p = .ok next := by
        refine enter_of_directories (fun _ => same.directory) entered ?_
        exact passes [p] ps next rfl ((first t).trans entered)
      rw [step]
      refine ih (fun front back place whole walked => ?_) fun front back place whole walked => ?_
      · refine passes (p :: front) back place (by rw [whole]; rfl) ?_
        rw [List.foldlM_cons, entered]
        exact walked
      · refine passes' (p :: front) back place (by rw [whole]; rfl) ?_
        rw [List.foldlM_cons, step]
        exact walked
    | error fault =>
      cases entered' : t'.enter here p with
      | ok next =>
        have there := passes' [p] ps next rfl ((first t').trans entered')
        have step := enter_of_directories (fun _ => same.symm.directory) entered' there
        rw [entered] at step
        cases step
      | error fault' =>
        rw [fault_of_enter entered there, fault_of_enter entered' there', same.sameKind there there']
        rfl

theorem names_eq {path : String} (passes : PassesAlike t t' path) : t'.names path = t.names path := by
  rw [FileTree.names, FileTree.names]
  split
  · rfl
  · exact same.walk_eq (fun front back place whole walked => passes.1 place ⟨front, back, whole, walked⟩)
      fun front back place whole walked => passes.2 place ⟨front, back, whole, walked⟩

end SameBut

/-- All that a path to what is there comes by are directories, but for what it leads to. -/
theorem SameBut.there_of_passes {apart : List String → Prop} {t t' : FileTree}
    (same : SameBut apart t t') {path : String} {top place : List String} (way : t.names path = .ok top)
    (there : (t'.node? top).isSome = true) (passes : t.Passes path place) :
    (t'.node? place).isSome = true := by
  obtain ⟨front, back, whole, walked⟩ := passes
  rw [FileTree.names] at way
  split at way
  · cases way
  rw [whole, List.foldlM_append, CommandLine.bind_eq_ok_iff] at way
  obtain ⟨_, walked', rest⟩ := way
  obtain rfl := Except.ok.inj (walked.symm.trans walked')
  cases back with
  | nil =>
    obtain rfl := Except.ok.inj rest
    exact there
  | cons p ps =>
    rw [List.foldlM_cons, CommandLine.bind_eq_ok_iff] at rest
    obtain ⟨next, entered, -⟩ := rest
    rw [← isSome_at, same.directory (at_eq_directory.mpr (directory_of_enter entered))]
    rfl

theorem SameBut.passesAlike {apart : List String → Prop} {t t' : FileTree} (same : SameBut apart t t')
    {path : String} {top : List String} (way : t.names path = .ok top)
    (there : (t'.node? top).isSome = true) : PassesAlike t t' path :=
  ⟨fun _ => same.there_of_passes way there,
    fun _ => same.symm.there_of_passes (same.names way there) (isSome_of_names way)⟩

/-- A file that is written where the trees may differ makes no other difference. -/
theorem sameBut_graft {apart : List String → Prop} {t : FileTree} {here : List String}
    {es : List (String × FileTree)} {name : String} {content : Content}
    (inside : t.node? here = some (directory es)) (free : t.at? (here ++ [name]) ≠ some none)
    (told : apart (here ++ [name])) :
    SameBut apart t (t.graft (here ++ [name]) (file content)) := by
  intro names
  by_cases place : names = here ++ [name]
  · subst place
    have written := at_eq_file.mpr (node_graft t (file content) (here ++ [name]))
    exact .inr ⟨told, free, by simp [written]⟩
  · exact .inl (at_graft content inside free place)

/-! ### Ignore files -/

/-- No ignore file of any directory is at one of the places. -/
def Unread (apart : List String → Prop) : Prop :=
  ∀ top, ∀ names ∈ Ignore.fileNames true, ¬ apart (top ++ names)

theorem Unread.inside {apart : List String → Prop} (unread : Unread apart) (top : List String) :
    Unread fun names => apart (top ++ names) := by
  intro above names known
  have ahead := unread (top ++ above) names known
  rw [List.append_assoc] at ahead
  exact ahead

theorem parseFile_eq (t : FileTree) (names : List String) :
    Ignore.parseFile t names = match t.at? names with
      | some (some content) => Ignore.parseContent content
      | _ => ([], []) := by
  rw [Ignore.parseFile, at?]
  cases t.node? names with
  | none => rfl
  | some node => cases node <;> rfl

namespace SameBut

variable {apart : List String → Prop} {t t' : FileTree} (same : SameBut apart t t')
  (unread : Unread apart)

include same unread

theorem parseFile_same {names : List String} (known : names ∈ Ignore.fileNames true) :
    Ignore.parseFile t' names = Ignore.parseFile t names := by
  have other : ¬ apart names := unread [] names known
  rw [parseFile_eq, parseFile_eq, same.elsewhere other]

theorem rules_same (git : Bool) : Rules.ofDirectory git t' = Rules.ofDirectory git t :=
  rules_of_files (fun _ known => same.parseFile_same unread known) git

theorem complaints_same (git : Bool) : Ignore.complaintsOf git t' = Ignore.complaintsOf git t :=
  complaints_of_files (fun _ known => same.parseFile_same unread known) git

section

variable {top : List String} {node node' : FileTree} (reached : t.node? top = some node)
  (reached' : t'.node? top = some node')

include reached reached'

theorem levelsAbove_same (git : Bool) : levelsAbove git t' top = levelsAbove git t top := by
  induction top generalizing t t' apart with
  | nil => rfl
  | cons name names ih =>
    obtain ⟨child, found, below⟩ := Option.bind_eq_some_iff.mp reached
    obtain ⟨child', found', below'⟩ := Option.bind_eq_some_iff.mp reached'
    have lower := same.inside (node_of_child found) (node_of_child found')
    rw [levelsAbove, levelsAbove, same.rules_same unread, found, found', Option.getD_some,
      Option.getD_some, ih lower (unread.inside [name]) below below']

theorem complaintsAbove_same (git : Bool) (path : String) :
    complaintsAbove git path t' top = complaintsAbove git path t top := by
  induction top generalizing t t' apart path with
  | nil => rfl
  | cons name names ih =>
    obtain ⟨child, found, below⟩ := Option.bind_eq_some_iff.mp reached
    obtain ⟨child', found', below'⟩ := Option.bind_eq_some_iff.mp reached'
    have lower := same.inside (node_of_child found) (node_of_child found')
    rw [complaintsAbove, complaintsAbove, same.complaints_same unread, found, found', Option.getD_some,
      Option.getD_some, ih lower (unread.inside [name]) below below']

end

end SameBut

/-! ### Discovery place by place -/

/-- Is nothing on the way of the names left out, nor what they lead to? -/
def admits (git : Bool) (levels : List Level) (t : FileTree) : List String → Bool
  | [] => true
  | name :: names =>
    let inner := ⟨.ofDirectory git t, []⟩ :: levels
    let child := (t.child? name).getD empty
    !Ignore.leavesOut inner name child.isDirectory &&
      child.admits git (inner.map (Level.descend name)) names

theorem mem_filesIn {git : Bool} {levels : List Level} {es : List (String × FileTree)}
    {f : List String × Content} : f ∈ filesIn git levels es ↔ ∃ name names child,
      f.1 = name :: names ∧ (name, child) ∈ es ∧
        Ignore.leavesOut levels name child.isDirectory = false ∧
        (names, f.2) ∈ filesBelow git (levels.map (Level.descend name)) child := by
  induction es with
  | nil => simp [filesIn]
  | cons e es ih =>
    obtain ⟨own, t⟩ := e
    rw [filesIn, List.mem_append, ih]
    constructor
    · rintro (head | ⟨name, names, child, place, entry, rest⟩)
      · split at head
        · cases head
        · rename_i kept
          obtain ⟨g, member, rfl⟩ := List.mem_map.mp head
          exact ⟨own, g.1, t, rfl, List.mem_cons_self, by simpa using kept, member⟩
      · exact ⟨name, names, child, place, List.mem_cons_of_mem _ entry, rest⟩
    · rintro ⟨name, names, child, place, entry, kept, member⟩
      rcases List.mem_cons.mp entry with same | entry
      · obtain ⟨rfl, rfl⟩ := Prod.mk.inj same
        left
        rw [if_neg (by simp [kept])]
        exact List.mem_map.mpr ⟨(names, f.2), member, Prod.ext place.symm rfl⟩
      · exact .inr ⟨name, names, child, place, entry, kept, member⟩

/-- What is discovered are the files to which names lead that are admitted. -/
theorem mem_filesBelow {git : Bool} {levels : List Level} {t : FileTree} (proper : t.Proper)
    {names : List String} {content : Content} : (names, content) ∈ filesBelow git levels t ↔
      t.node? names = some (file content) ∧ admits git levels t names = true := by
  induction names generalizing t levels with
  | nil =>
    cases t with
    | file old => simp [filesBelow, node?, admits, eq_comm]
    | directory es =>
      have nothing : ([], content) ∉ filesBelow git levels (directory es) := fun member =>
        place_nonempty proper member rfl
      simp [nothing, node?]
  | cons name names ih =>
    cases t with
    | file old => simp [filesBelow, node?, child?, entries]
    | directory es =>
      rw [filesBelow, mem_filesIn, node?, admits]
      constructor
      · rintro ⟨_, _, child, place, entry, kept, member⟩
        obtain ⟨rfl, rfl⟩ := List.cons.inj place
        have found := child_of_mem proper.1 entry
        obtain ⟨reached, inside⟩ := (ih (child_proper proper found)).mp member
        rw [found, Option.getD_some, Bool.and_eq_true, Bool.not_eq_true']
        exact ⟨reached, kept, inside⟩
      · rintro ⟨reached, inside⟩
        obtain ⟨child, found, below⟩ := Option.bind_eq_some_iff.mp reached
        rw [found, Option.getD_some, Bool.and_eq_true, Bool.not_eq_true'] at inside
        exact ⟨name, names, child, rfl, mem_of_child found, inside.1,
          (ih (child_proper proper found)).mpr ⟨below, inside.2⟩⟩

namespace SameBut

section

variable {apart : List String → Prop} {t t' : FileTree} (same : SameBut apart t t')
  (unread : Unread apart)

include same unread

theorem admits_same (git : Bool) (levels : List Level) {names : List String} {node node' : FileTree}
    (reached : t.node? names = some node) (reached' : t'.node? names = some node') :
    admits git levels t' names = admits git levels t names := by
  induction names generalizing t t' apart levels with
  | nil => rfl
  | cons name names ih =>
    obtain ⟨child, found, below⟩ := Option.bind_eq_some_iff.mp reached
    obtain ⟨child', found', below'⟩ := Option.bind_eq_some_iff.mp reached'
    have kind := same.sameKind (node_of_child found) (node_of_child found')
    have lower := same.inside (node_of_child found) (node_of_child found')
    rw [admits, admits, same.rules_same unread, found, found', Option.getD_some, Option.getD_some, kind,
      ih lower (unread.inside [name]) _ below below']

theorem mem_filesBelow_same (proper : t.Proper) (proper' : t'.Proper) {git : Bool}
    {levels : List Level} {names : List String} (other : ¬ apart names) (content : Content) :
    (names, content) ∈ filesBelow git levels t' ↔ (names, content) ∈ filesBelow git levels t := by
  have equal : t'.node? names = some (file content) ↔ t.node? names = some (file content) := by
    rw [← at_eq_file, ← at_eq_file, same.elsewhere other]
  rw [mem_filesBelow proper', mem_filesBelow proper, equal]
  exact and_congr_right fun found => by rw [same.admits_same unread git levels found (equal.mpr found)]

end

end SameBut

/-! ### What is discovered -/

variable {keep : String → Bool} {apart : List String → Prop}

/-- The names of all places that are told apart are refused. -/
def Refuses (keep : String → Bool) (apart : List String → Prop) : Prop :=
  ∀ names, apart names → names.getLast?.all keep = false

theorem Refuses.unread (refuses : Refuses keep apart) (ignore : KeepsIgnoreFiles keep) : Unread apart := by
  intro top names known told
  have nonempty : names ≠ [] := by
    rintro rfl
    simp [Ignore.fileNames] at known
  have refused := refuses _ told
  rw [List.getLast?_append_of_ne_nil top nonempty, ignore names known] at refused
  cases refused

/-- A file below a directory that stays is not at a place that is told apart. -/
theorem Refuses.elsewhere (refuses : Refuses keep apart) {git : Bool} {levels : List Level}
    {es : List (String × FileTree)} (proper : (directory es).Proper) {f : List String × Content}
    (member : f ∈ filesBelow git levels (directory es)) (top : List String) {root : String}
    (nonempty : root ≠ "") (stays : staysAt keep (f.1.foldl Path.append root) = true) :
    ¬ apart (top ++ f.1) := by
  intro told
  have below := place_nonempty proper member
  have last := List.getLast?_eq_some_getLast below
  have names := (filesBelow_places git levels _ proper).2 f member
  have refused := refuses _ told
  rw [staysAt_below nonempty names last] at stays
  rw [List.getLast?_append_of_ne_nil top below, last, Option.all_some, stays] at refused
  cases refused

theorem discover_file {t : FileTree} {git : Bool} {root : String} {top : List String} {content : Content}
    (way : t.names root = .ok top) (reached : t.node? top = some (file content)) :
    t.discover git root = .ok [(root, content)] := by
  simp only [discover, way, reached]

theorem discover_directory {t : FileTree} (git : Bool) {root : String} {top : List String}
    {es : List (String × FileTree)} (way : t.names root = .ok top)
    (reached : t.node? top = some (directory es)) : t.discover git root =
      match complaintsAbove git "/" t top with
      | [] => .ok (((directory es).filesBelow git (levelsAbove git t top)).map fun f =>
          (f.1.foldl Path.append root, f.2))
      | complaints => .error (.ignoreFiles complaints) := by
  cases wrong : complaintsAbove git "/" t top <;> simp only [discover, way, reached, wrong]

/-- Where the root leads to the same, nothing is discovered in either tree, or the same files are, as far
as they stay. -/
theorem SameBut.discover_same {t t' : FileTree} (same : SameBut apart t t') (refuses : Refuses keep apart)
    (ignore : KeepsIgnoreFiles keep) (proper : t.Proper) (proper' : t'.Proper) {git : Bool} {root : String}
    (leads : LeadsAlike t t' root) :
    (∃ fault fault', t.discover git root = .error fault ∧ t'.discover git root = .error fault' ∧
      (t'.names root = t.names root → fault' = fault)) ∨
    ∃ found found', t.discover git root = .ok found ∧ t'.discover git root = .ok found' ∧
      ∀ f, staysAt keep f.1 = true → (f ∈ found' ↔ f ∈ found) := by
  have unread := refuses.unread ignore
  cases way : t.names root with
  | error fault =>
    left
    cases way' : t'.names root with
    | ok top =>
      rw [(same.names_iff leads top).mp way'] at way
      cases way
    | error fault' =>
      refine ⟨.unreachable root fault, .unreachable root fault', by rw [discover, way],
        by rw [discover, way'], fun equal => ?_⟩
      rw [Except.error.inj equal]
  | ok top =>
    have way' := (same.names_iff leads top).mpr way
    have nonempty : root ≠ "" := by
      rintro rfl
      cases way
    obtain ⟨node, reached⟩ := Option.isSome_iff_exists.mp (isSome_of_names way)
    obtain ⟨node', reached'⟩ := Option.isSome_iff_exists.mp (isSome_of_names way')
    have kind := same.sameKind reached reached'
    cases node with
    | file content =>
      cases node' with
      | directory es => cases kind
      | file content' =>
        refine .inr ⟨_, _, discover_file way reached, discover_file way' reached', fun f stays => ?_⟩
        rw [List.mem_singleton, List.mem_singleton]
        by_cases itself : f.1 = root
        · obtain ⟨name, last, named⟩ := fileName_of_names way reached
          have other : ¬ apart top := by
            intro told
            have refused := refuses top told
            rw [itself, staysAt, named, Option.all_some, String.ofList_toList] at stays
            rw [last, Option.all_some, stays] at refused
            cases refused
          have equal := same.elsewhere other
          rw [at_eq_file.mpr reached, at_eq_file.mpr reached'] at equal
          cases equal
          rfl
        · have distinct (content : Content) : f ≠ (root, content) := by
            rintro rfl
            exact itself rfl
          simp only [distinct]
    | directory es =>
      cases node' with
      | file content => cases kind
      | directory es' =>
        have complaints := same.complaintsAbove_same unread reached reached' git "/"
        have found := discover_directory git way reached
        have found' := discover_directory git way' reached'
        rw [complaints, same.levelsAbove_same unread reached reached'] at found'
        cases wrong : complaintsAbove git "/" t top with
        | cons complaint others =>
          simp only [wrong] at found found'
          exact .inl ⟨_, _, found, found', fun _ => rfl⟩
        | nil =>
          simp only [wrong] at found found'
          refine .inr ⟨_, _, found, found', fun f stays => ?_⟩
          have inner := node_proper proper reached
          have inner' := node_proper proper' reached'
          have lower := same.inside reached reached'
          have equal {names : List String} (other : ¬ apart (top ++ names)) (content : Content) :
              (names, content) ∈ filesBelow git (levelsAbove git t top) (.directory es') ↔
                (names, content) ∈ filesBelow git (levelsAbove git t top) (.directory es) :=
            lower.mem_filesBelow_same (unread.inside top) inner inner' other content
          rw [List.mem_map, List.mem_map]
          refine exists_congr fun g => and_congr_left fun place => ?_
          obtain rfl := place
          constructor
          · intro member
            exact (equal (refuses.elsewhere inner' member top nonempty stays) g.2).mp member
          · intro member
            exact (equal (refuses.elsewhere inner member top nonempty stays) g.2).mpr member

end FileTree

/-! ### Checks -/

namespace Analyzer

open FileTree (SameBut Refuses LeadsAlike)

variable (a : Analyzer) {keep : String → Bool} (files : a.language.KeptBy keep)

include files

/-- The order in which files are discovered plays no part in the selection. -/
theorem select_of_members {t t' : FileTree} (proper : t.Proper) (proper' : t'.Proper) {git : Bool}
    {found found' : List (String × Content)} (discovered : t.discover git a.root = .ok found)
    (discovered' : t'.discover git a.root = .ok found')
    (same : ∀ f, FileTree.staysAt keep f.1 = true → (f ∈ found' ↔ f ∈ found)) :
    a.select found' = a.select found := by
  have ordered := a.select_ordered proper discovered
  have ordered' := a.select_ordered proper' discovered'
  have different {f g : String × Content} (less : Path.compare f.1 g.1 = .lt) : f ≠ g := by
    rintro rfl
    rw [(Path.compare_eq_iff f.1 f.1).mpr rfl] at less
    cases less
  have members (f : String × Content) : f ∈ a.select found' ↔ f ∈ a.select found := by
    simp only [select, List.mem_mergeSort, List.mem_filter]
    refine and_congr_left fun selected => same f (files f.1 ?_)
    rw [selects, Bool.and_eq_true] at selected
    exact selected.1
  have permuted := (List.perm_ext_iff_of_nodup (ordered'.imp different) (ordered.imp different)).mpr members
  refine permuted.eq_of_pairwise (fun f g _ _ less greater => ?_) ordered' ordered
  have reversed := Std.OrientedCmp.gt_iff_lt.mpr less
  rw [greater] at reversed
  cases reversed

/-- Where the root leads to the same, an analysis finds the same, or nothing to look at in either tree. -/
theorem analyze_same {apart : List String → Prop} {t t' : FileTree} (same : SameBut apart t t')
    (refuses : Refuses keep apart) (ignore : FileTree.KeepsIgnoreFiles keep) (proper : t.Proper)
    (proper' : t'.Proper) (leads : LeadsAlike t t' a.root) :
    a.analyze t' = a.analyze t ∨ ∃ fault fault', a.analyze t = .error (.undiscovered fault) ∧
      a.analyze t' = .error (.undiscovered fault') ∧
      (t'.names a.root = t.names a.root → fault' = fault) := by
  rcases same.discover_same refuses ignore proper proper' leads with
    ⟨fault, fault', failed, failed', equal⟩ | ⟨found, found', discovered, discovered', members⟩
  · exact .inr ⟨fault, fault', by rw [analyze, failed], by rw [analyze, failed'], equal⟩
  · left
    rw [analyze, analyze, discovered, discovered']
    simp only [a.select_of_members files proper proper' discovered discovered' members]

end Analyzer

end SwitchLint
