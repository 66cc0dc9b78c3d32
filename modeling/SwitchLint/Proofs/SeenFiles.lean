import Mathlib.Data.List.Basic
import SwitchLint.Proofs.ConfiguredRoot
import SwitchLint.Proofs.Discovery

/-!
What discovery and a check see of a tree: its directories, its ignore files and the files of the language.
Trees that agree on these are checked with the same outcome, whatever other files they hold.
-/

namespace SwitchLint

namespace FileTree

open Ignore (Level Rules)

mutual

/-- The tree without the files whose names `keep` refuses. All directories stay. -/
def keeping (keep : String → Bool) : FileTree → FileTree
  | file content => file content
  | directory es => directory (keepingIn keep es)

def keepingIn (keep : String → Bool) : List (String × FileTree) → List (String × FileTree)
  | [] => []
  | (name, t) :: es =>
    if t.isDirectory || keep name then (name, t.keeping keep) :: keepingIn keep es
    else keepingIn keep es

end

variable {keep : String → Bool}

@[simp] theorem isDirectory_keeping (t : FileTree) : (t.keeping keep).isDirectory = t.isDirectory := by
  cases t <;> rfl

/-- Does what the names lead to stay? -/
def stays (keep : String → Bool) (names : List String) (t : FileTree) : Bool :=
  t.isDirectory || names.getLast?.all keep

@[simp] theorem stays_directory (names : List String) (es : List (String × FileTree)) :
    stays keep names (directory es) = true := by
  simp [stays, isDirectory]

theorem keepingIn_names (es : List (String × FileTree)) :
    ((keepingIn keep es).map Prod.fst).Sublist (es.map Prod.fst) := by
  induction es with
  | nil => exact List.Sublist.slnil
  | cons e es ih =>
    obtain ⟨name, t⟩ := e
    rw [keepingIn]
    split
    · exact ih.cons_cons name
    · exact ih.cons name

/-- The names are distinct, so that no other entry comes to light under the name of one that goes. -/
theorem lookup_keepingIn {es : List (String × FileTree)} (distinct : (es.map Prod.fst).Nodup)
    (name : String) : (keepingIn keep es).lookup name =
      ((es.lookup name).filter (stays keep [name])).map (keeping keep) := by
  induction es with
  | nil => rfl
  | cons e es ih =>
    obtain ⟨own, t⟩ := e
    obtain ⟨fresh, others⟩ := List.nodup_cons.mp distinct
    by_cases same : name = own
    · subst same
      have absent : (keepingIn keep es).lookup name = none := by
        rw [List.lookup_eq_none_iff]
        intro e he
        have member := (keepingIn_names es).subset (List.mem_map_of_mem he)
        simpa using fun h : name = e.1 => fresh (h ▸ member)
      cases seen : t.isDirectory || keep name <;>
        simp [keepingIn, stays, seen, absent, Option.filter_some]
    · have other : (name == own) = false := by simpa using same
      rw [keepingIn, List.lookup_cons, other]
      split
      · rw [List.lookup_cons, other]
        exact ih others
      · exact ih others

theorem child_keeping {t : FileTree} (proper : t.Proper) (name : String) :
    (t.keeping keep).child? name =
      ((t.child? name).filter (stays keep [name])).map (keeping keep) := by
  cases t with
  | file content => rfl
  | directory es => exact lookup_keepingIn proper.1 name

theorem child_proper {t child : FileTree} (proper : t.Proper) {name : String}
    (found : t.child? name = some child) : child.Proper :=
  node_proper proper (node_of_child found)

theorem node_keeping {t : FileTree} (proper : t.Proper) (names : List String) :
    (t.keeping keep).node? names = ((t.node? names).filter (stays keep names)).map (keeping keep) := by
  induction names generalizing t with
  | nil => simp [node?, stays, Option.filter_some]
  | cons name names ih =>
    rw [node?, node?, child_keeping proper]
    cases found : t.child? name with
    | none => rfl
    | some child =>
      have inner := ih (child_proper proper found)
      cases names with
      | nil => cases seen : stays keep [name] child <;> simp [node?, seen, Option.filter_some]
      | cons next names =>
        have same : stays keep (name :: next :: names) = stays keep (next :: names) := by
          funext t
          simp [stays]
        rw [same]
        cases child with
        | directory es => exact inner
        -- Whether the file stays or not, no names lead on from it.
        | file content => cases seen : stays keep [name] (file content) <;>
            simp [seen, Option.filter_some, node?, child?, entries, keeping]

/-! ### Ignore files and levels -/

/-- Ignore files stay. -/
def KeepsIgnoreFiles (keep : String → Bool) : Prop :=
  ∀ names ∈ Ignore.fileNames true, names.getLast?.all keep = true

theorem parseFile_keeping {t : FileTree} (proper : t.Proper) {names : List String}
    (kept : names.getLast?.all keep = true) :
    Ignore.parseFile (t.keeping keep) names = Ignore.parseFile t names := by
  rw [Ignore.parseFile, Ignore.parseFile, node_keeping proper]
  cases t.node? names with
  | none => rfl
  | some node =>
    have seen : stays keep names node = true := by simp [stays, kept]
    cases node <;> simp [Option.filter_some, seen, keeping]

/-- Directories with the same ignore files have the same rules. -/
theorem rules_of_files {t t' : FileTree}
    (same : ∀ names ∈ Ignore.fileNames true, Ignore.parseFile t' names = Ignore.parseFile t names)
    (git : Bool) : Rules.ofDirectory git t' = Rules.ofDirectory git t := by
  have first := same [".ignore"] (by simp [Ignore.fileNames])
  have second := same [".gitignore"] (by simp [Ignore.fileNames])
  have third := same [".git", "info", "exclude"] (by simp [Ignore.fileNames])
  simp only [Rules.ofDirectory, first, second, third]

theorem complaints_of_files {t t' : FileTree}
    (same : ∀ names ∈ Ignore.fileNames true, Ignore.parseFile t' names = Ignore.parseFile t names)
    (git : Bool) : Ignore.complaintsOf git t' = Ignore.complaintsOf git t := by
  refine List.flatMap_congr fun names known => ?_
  have known' : names ∈ Ignore.fileNames true := by
    cases git
    · simp only [Ignore.fileNames, List.mem_cons] at known ⊢
      exact .inl (by simpa using known)
    · exact known
  rw [same names known']

section

variable (ignore : KeepsIgnoreFiles keep) {t : FileTree} (proper : t.Proper)

include ignore proper

theorem rules_keeping (git : Bool) :
    Rules.ofDirectory git (t.keeping keep) = Rules.ofDirectory git t :=
  rules_of_files (fun names known => parseFile_keeping proper (ignore names known)) git

theorem complaints_keeping (git : Bool) :
    Ignore.complaintsOf git (t.keeping keep) = Ignore.complaintsOf git t :=
  complaints_of_files (fun names known => parseFile_keeping proper (ignore names known)) git

end

/-- No file below a directory is the directory itself. -/
theorem place_nonempty {git : Bool} {levels : List Level} {es : List (String × FileTree)}
    (proper : (directory es).Proper) {f : List String × Content}
    (member : f ∈ filesBelow git levels (directory es)) : f.1 ≠ [] := by
  rw [filesBelow] at member
  obtain ⟨name, _, first⟩ := (filesIn_places git _ es proper.2 proper.1).2.1 f member
  intro empty
  simp [empty] at first

mutual

/-- Of the files that are discovered, those stay whose names do. -/
theorem filesBelow_keeping (ignore : KeepsIgnoreFiles keep) (git : Bool) (levels : List Level)
    (t : FileTree) (proper : t.Proper) : filesBelow git levels (t.keeping keep) =
      (filesBelow git levels t).filter fun f => f.1.getLast?.all keep := by
  cases t with
  | file content => rfl
  | directory es =>
    have same := rules_keeping ignore proper git
    rw [keeping] at same ⊢
    rw [filesBelow, filesBelow, same]
    exact filesIn_keeping ignore git _ es proper.2 proper.1

theorem filesIn_keeping (ignore : KeepsIgnoreFiles keep) (git : Bool) (levels : List Level)
    (es : List (String × FileTree)) (proper : ProperEntries es) (distinct : (es.map Prod.fst).Nodup) :
    filesIn git levels (keepingIn keep es) =
      (filesIn git levels es).filter fun f => f.1.getLast?.all keep := by
  cases es with
  | nil => rfl
  | cons e es =>
    obtain ⟨name, t⟩ := e
    obtain ⟨own, below, rest⟩ := proper
    obtain ⟨fresh, others⟩ := List.nodup_cons.mp distinct
    have tail := filesIn_keeping ignore git levels es rest others
    have head := filesBelow_keeping ignore git (levels.map (Level.descend name)) t below
    rw [keepingIn, filesIn, List.filter_append, ← tail]
    cases t with
    | file content =>
      cases kept : keep name <;> cases left : Ignore.leavesOut levels name false <;>
        simp [filesIn, filesBelow, keeping, isDirectory, kept, left]
    | directory es' =>
      have last : ∀ f ∈ filesBelow git (levels.map (Level.descend name)) (directory es'),
          (name :: f.1).getLast?.all keep = f.1.getLast?.all keep := by
        intro f hf
        rw [List.getLast?_cons_of_ne_nil (place_nonempty below hf)]
      rw [if_pos (by rfl), filesIn, isDirectory_keeping]
      cases Ignore.leavesOut levels name (directory es').isDirectory with
      | true => simp
      | false =>
        simp only [Bool.false_eq_true, if_false, head, List.filter_map]
        congr 2
        exact List.filter_congr fun f hf => (last f hf).symm

end

section

variable (ignore : KeepsIgnoreFiles keep) {t : FileTree} (proper : t.Proper)

include ignore proper

/-- On the way to what is there, the rules of the directories are the same. -/
theorem levelsAbove_keeping (git : Bool) {names : List String} {node : FileTree}
    (reached : t.node? names = some node) :
    levelsAbove git (t.keeping keep) names = levelsAbove git t names := by
  induction names generalizing t with
  | nil => rfl
  | cons name names ih =>
    obtain ⟨child, found, inside⟩ := Option.bind_eq_some_iff.mp reached
    have inner := ih (child_proper proper found) inside
    rw [levelsAbove, levelsAbove, rules_keeping ignore proper, child_keeping proper, found]
    cases child with
    | directory es => simpa [Option.filter_some, stays, isDirectory] using inner
    | file content =>
      obtain ⟨rfl, -⟩ := node_of_file inside
      rfl

theorem complaintsAbove_keeping (git : Bool) (path : String) {names : List String} {node : FileTree}
    (reached : t.node? names = some node) :
    complaintsAbove git path (t.keeping keep) names = complaintsAbove git path t names := by
  induction names generalizing t path with
  | nil => rfl
  | cons name names ih =>
    obtain ⟨child, found, inside⟩ := Option.bind_eq_some_iff.mp reached
    have inner := ih (child_proper proper found) (Path.append path name) inside
    rw [complaintsAbove, complaintsAbove, complaints_keeping ignore proper, child_keeping proper, found]
    cases child with
    | directory es => simpa [Option.filter_some, stays, isDirectory] using inner
    | file content =>
      obtain ⟨rfl, -⟩ := node_of_file inside
      rfl

end

/-! ### Paths in a tree with fewer files -/

/-- The trees have the same directories, and the second all files of the first. -/
structure Within (t t' : FileTree) : Prop where
  directory : ∀ names, (∃ es, t.node? names = some (.directory es)) ↔
    ∃ es, t'.node? names = some (.directory es)
  file : ∀ names content, t.node? names = some (.file content) → t'.node? names = some (.file content)

theorem keeping_within {t : FileTree} (proper : t.Proper) : (t.keeping keep).Within t where
  directory names := by
    rw [node_keeping proper]
    cases t.node? names with
    | none => simp
    | some node =>
      cases node with
      | directory es => simp [Option.filter_some, keeping]
      | file content => cases seen : stays keep names (.file content) <;>
          simp [Option.filter_some, seen, keeping]
  file names content found := by
    rw [node_keeping proper] at found
    obtain ⟨node, here, same⟩ := Option.map_eq_some_iff.mp found
    have there := (Option.filter_eq_some_iff.mp here).1
    cases node with
    | file content => exact there.trans (congrArg some same)
    | directory es => cases same

theorem node_snoc (t : FileTree) (names : List String) (name : String) :
    t.node? (names ++ [name]) = (t.node? names).bind (·.child? name) := by
  rw [node_append]
  simp [node?]

theorem enter_file {t : FileTree} {here : List String} {content : Content}
    (found : t.node? here = some (file content)) (piece : List Char) :
    t.enter here piece = .error .notDirectory := by
  rw [enter, found]

theorem walk_file {t : FileTree} {here top : List String} {content : Content}
    (found : t.node? here = some (file content)) {ps : List (List Char)}
    (walked : ps.foldlM t.enter here = .ok top) : ps = [] ∧ top = here := by
  cases ps with
  | nil => exact ⟨rfl, (Except.ok.inj walked).symm⟩
  | cons p ps =>
    rw [List.foldlM_cons, enter_file found] at walked
    cases walked

theorem node_dropLast {t : FileTree} {here : List String} {es : List (String × FileTree)}
    (found : t.node? here = some (directory es)) :
    ∃ es, t.node? here.dropLast = some (directory es) := by
  rcases List.eq_nil_or_concat here with rfl | ⟨init, name, rfl⟩
  · exact ⟨es, found⟩
  · rw [List.concat_eq_append, node_snoc] at found
    obtain ⟨parent, above, inside⟩ := Option.bind_eq_some_iff.mp found
    rw [List.concat_eq_append, List.dropLast_concat, above]
    cases parent with
    | file content => cases inside
    | directory es => exact ⟨es, rfl⟩

theorem enter_directory {t : FileTree} {here : List String} {es : List (String × FileTree)}
    (found : t.node? here = some (directory es)) (piece : List Char) :
    t.enter here piece = match Path.componentOf piece with
      | some (.normal cs) =>
        if (t.node? (here ++ [String.ofList cs])).isSome then .ok (here ++ [String.ofList cs])
        else .error .missing
      | some .parent => .ok here.dropLast
      | _ => .ok here := by
  rw [enter, found]
  cases Path.componentOf piece with
  | none => rfl
  | some component =>
    cases component with
    | normal cs =>
      have child : t.node? (here ++ [String.ofList cs]) = es.lookup (String.ofList cs) := by
        rw [node_snoc, found]
        rfl
      simp only [child]
    | _ => rfl

namespace Within

variable {t t' : FileTree} (within : t.Within t')

include within

theorem isSome {names : List String} (found : (t.node? names).isSome = true) :
    (t'.node? names).isSome = true := by
  obtain ⟨node, found⟩ := Option.isSome_iff_exists.mp found
  cases node with
  | file content => simp [within.file names content found]
  | directory es =>
    obtain ⟨es', found'⟩ := (within.directory names).mp ⟨es, found⟩
    simp [found']

/-- A walk that both trees allow ends at the same place. Only a last step, to a file that is not there,
may fail in the first. -/
theorem walk {ps : List (List Char)} {here : List String} (found : (t.node? here).isSome = true)
    (top : List String) : ps.foldlM t.enter here = .ok top ↔
      ps.foldlM t'.enter here = .ok top ∧ (t.node? top).isSome = true := by
  induction ps generalizing here with
  | nil =>
    constructor
    · intro walked
      obtain rfl := Except.ok.inj walked
      exact ⟨rfl, found⟩
    · exact And.left
  | cons p ps ih =>
    obtain ⟨node, found⟩ := Option.isSome_iff_exists.mp found
    rw [List.foldlM_cons, List.foldlM_cons]
    cases node with
    | file content =>
      rw [enter_file found, enter_file (within.file here content found)]
      exact ⟨nofun, nofun⟩
    | directory es =>
      obtain ⟨es', found'⟩ := (within.directory here).mp ⟨es, found⟩
      rw [enter_directory found, enter_directory found']
      rcases Path.componentOf p with _ | component
      · exact ih (by simp [found])
      cases component with
      | root => exact ih (by simp [found])
      | here => exact ih (by simp [found])
      | parent =>
        obtain ⟨es, above⟩ := node_dropLast found
        exact ih (by simp [above])
      | normal cs =>
        simp only
        set next := here ++ [String.ofList cs]
        cases there : t.node? next with
        | some child =>
          have leads : (t.node? next).isSome = true := by simp [there]
          rw [if_pos (show (some child).isSome = true from rfl), if_pos (within.isSome leads)]
          exact ih leads
        | none =>
          refine ⟨nofun, ?_⟩
          rintro ⟨walked, leads⟩
          cases there' : t'.node? next with
          | none => simp [there', bind, Except.bind] at walked
          | some child =>
            cases child with
            | directory inner =>
              obtain ⟨_, clash⟩ := (within.directory next).mpr ⟨inner, there'⟩
              rw [there] at clash
              cases clash
            | file content =>
              obtain ⟨-, rfl⟩ := walk_file there' (by simpa [there', bind, Except.bind] using walked)
              simp [there] at leads

theorem names_iff (path : String) (top : List String) :
    t.names path = .ok top ↔ t'.names path = .ok top ∧ (t.node? top).isSome = true := by
  rw [FileTree.names, FileTree.names]
  split
  · exact ⟨nofun, nofun⟩
  · exact within.walk rfl top

end Within

/-- A path that leads to a file ends in its name. -/
theorem fileName_of_names {t : FileTree} {path : String} {top : List String} {content : Content}
    (way : t.names path = .ok top) (reached : t.node? top = some (file content)) :
    ∃ name, top.getLast? = some name ∧ Path.fileName? path = some name.toList := by
  unfold FileTree.names at way
  split at way
  · cases way
  rcases List.eq_nil_or_concat (Path.pieces path.toList) with none | ⟨init, p, whole⟩
  · exact absurd none (Text.split_nonempty _ _)
  rw [whole, List.concat_eq_append, List.foldlM_append, CommandLine.bind_eq_ok_iff] at way
  obtain ⟨here, -, last⟩ := way
  rw [List.foldlM_cons, CommandLine.bind_eq_ok_iff] at last
  obtain ⟨_, entered, same⟩ := last
  rw [Except.ok.inj same] at entered
  -- A step to a file is one by name: the others end at directories.
  cases found : t.node? here with
  | none => simp [enter, found] at entered
  | some node =>
    cases node with
    | file content => simp [enter_file found] at entered
    | directory es =>
      rw [enter_directory found] at entered
      have stays : ¬ Except.ok here = Except.ok (ε := FileFault) top := by
        rintro ⟨⟩
        rw [found] at reached
        cases reached
      rcases component : Path.componentOf p with _ | c
      · exact absurd (by simpa [component] using entered) stays
      cases c with
      | root => exact absurd (by simpa [component] using entered) stays
      | here => exact absurd (by simpa [component] using entered) stays
      | parent =>
        obtain ⟨es, above⟩ := node_dropLast found
        obtain rfl : here.dropLast = top := by simpa [component] using entered
        rw [above] at reached
        cases reached
      | normal cs =>
        simp only [component] at entered
        split at entered
        · obtain rfl := Except.ok.inj entered
          refine ⟨String.ofList cs, by simp, ?_⟩
          simp [Path.fileName?, Path.components, whole, component]
        · cases entered

/-- The names stand for something that stays. -/
def Seen (keep : String → Bool) (t : FileTree) (names : List String) : Prop :=
  ∃ node, t.node? names = some node ∧ stays keep names node = true

theorem names_keeping {t : FileTree} (proper : t.Proper) (path : String) (top : List String) :
    (t.keeping keep).names path = .ok top ↔ t.names path = .ok top ∧ t.Seen keep top := by
  rw [(keeping_within proper).names_iff, node_keeping proper, Option.isSome_map]
  cases found : t.node? top <;> simp [Seen, found, Option.filter_some]

/-! ### Discovery -/

/-- Is the file at the path one that stays? -/
def staysAt (keep : String → Bool) (path : String) : Bool :=
  (Path.fileName? path).all fun name => keep (String.ofList name)

theorem staysAt_below {root : String} (nonempty : root ≠ "") {place : List String} {name : String}
    (names : ∀ name ∈ place, IsName name) (last : place.getLast? = some name) :
    staysAt keep (place.foldl Path.append root) = keep name := by
  have components := Path.components_below nonempty names
  have file : Path.fileName? (place.foldl Path.append root) = some name.toList := by
    simp [Path.fileName?, components, List.getLast?_append, List.getLast?_map, last]
  simp [staysAt, file]

/-- What is discovered in the tree without some files is what is discovered in the tree, without these
files; or the root is itself such a file, and there is nothing to discover. -/
theorem discover_keeping (ignore : KeepsIgnoreFiles keep) {t : FileTree} (proper : t.Proper)
    {git : Bool} {root : String} {found : List (String × Content)}
    (discovered : t.discover git root = .ok found) :
    (t.keeping keep).discover git root = .ok (found.filter fun f => staysAt keep f.1) ∨
      (found.filter fun f => staysAt keep f.1) = [] ∧
        ∀ found', (t.keeping keep).discover git root ≠ .ok found' := by
  obtain ⟨nonempty, top, node, way, reached, whole⟩ := discover_eq_ok discovered
  have reached' : (t.keeping keep).node? top = _ := node_keeping proper top
  rw [reached, Option.filter_some] at reached'
  cases node with
  | file content =>
    obtain ⟨name, last, file⟩ := fileName_of_names way reached
    have path : staysAt keep root = keep name := by simp [staysAt, file]
    have stays : stays keep top (.file content) = keep name := by simp [stays, isDirectory, last]
    have own : found = [(root, content)] := by simpa [filesBelow] using whole
    rw [stays] at reached'
    cases kept : keep name with
    | true =>
      left
      have way' : (t.keeping keep).names root = .ok top :=
        (names_keeping proper root top).mpr ⟨way, _, reached, stays.trans kept⟩
      simp [discover, way', reached', kept, keeping, own, path]
    | false =>
      right
      refine ⟨by simp [own, path, kept], fun found' discovered' => ?_⟩
      obtain ⟨-, top', -, way', -, -⟩ := discover_eq_ok discovered'
      obtain ⟨way', _, there, seen⟩ := (names_keeping proper root top').mp way'
      obtain rfl := Except.ok.inj (way.symm.trans way')
      rw [reached] at there
      obtain rfl := Option.some.inj there
      rw [stays, kept] at seen
      cases seen
  | directory es =>
    left
    have way' : (t.keeping keep).names root = .ok top :=
      (names_keeping proper root top).mpr ⟨way, _, reached, by simp⟩
    have calm : complaintsAbove git "/" t top = [] := by
      rw [discover, way] at discovered
      simp only [reached] at discovered
      split at discovered
      · assumption
      · cases discovered
    have calm' := complaintsAbove_keeping ignore proper git "/" reached
    rw [calm] at calm'
    have inner := node_proper proper reached
    have same : (directory (keepingIn keep es)).filesBelow git (levelsAbove git (t.keeping keep) top) =
        ((directory es).filesBelow git (levelsAbove git t top)).filter fun f =>
          f.1.getLast?.all keep := by
      rw [levelsAbove_keeping ignore proper git reached]
      exact filesBelow_keeping ignore git _ (directory es) inner
    have kept : ∀ f ∈ (directory es).filesBelow git (levelsAbove git t top),
        f.1.getLast?.all keep = staysAt keep (f.1.foldl Path.append root) := by
      intro f hf
      have last := List.getLast?_eq_some_getLast (place_nonempty inner hf)
      rw [staysAt_below nonempty ((filesBelow_places git _ _ inner).2 f hf) last, last]
      rfl
    simp only [stays_directory, if_true, Option.map_some, keeping] at reached'
    simp only [discover, way', reached', calm', same, whole, List.filter_map]
    rw [List.filter_congr kept]
    rfl

/-- Trees that are the same but for files that go: whatever root leads somewhere in both, the same files
are discovered that stay. -/
theorem discover_alike (ignore : KeepsIgnoreFiles keep) {t t' : FileTree} (proper : t.Proper)
    (proper' : t'.Proper) (same : t.keeping keep = t'.keeping keep) {git : Bool} {root : String}
    {found found' : List (String × Content)} (discovered : t.discover git root = .ok found)
    (discovered' : t'.discover git root = .ok found') :
    (found.filter fun f => staysAt keep f.1) = found'.filter fun f => staysAt keep f.1 := by
  rcases discover_keeping ignore proper discovered with kept | ⟨none, unseen⟩ <;>
    rcases discover_keeping ignore proper' discovered' with kept' | ⟨none', unseen'⟩
  · rw [same, kept'] at kept
    exact (Except.ok.inj kept).symm
  · exact absurd (same ▸ kept) (unseen' _)
  · exact absurd (same ▸ kept') (unseen _)
  · rw [none, none']

end FileTree

/-! ### Names of files -/

namespace Path

theorem isName_of_component {path : String} {name : List Char}
    (member : Component.normal name ∈ components path) : IsName (String.ofList name) := by
  rw [components_eq, componentsOf, List.mem_append, List.mem_filterMap] at member
  rcases member with first | ⟨piece, inside, stands⟩
  · have kinds : head path.toList = none ∨ head path.toList = some .root ∨
        head path.toList = some .here := by
      unfold head
      split <;> simp
    rcases kinds with none | root | here <;> simp_all
  · unfold componentOf at stands
    split at stands
    · cases stands
    split at stands
    · cases stands
    rename_i counts up
    obtain rfl := Component.normal.inj (Option.some.inj stands)
    refine ⟨?_, ?_, ?_, ?_⟩
    · exact fun empty => counts (.inl (by simpa using congrArg String.toList empty))
    · exact fun dot => counts (.inr (by simpa using congrArg String.toList dot))
    · exact fun dots => up (by simpa using congrArg String.toList dots)
    · simpa using Text.not_mem_of_mem_split inside

theorem components_of_name {name : String} (proper : IsName name) :
    components name = [.normal name.toList] := by
  have counts : idle name.toList = false := by simp [idle, componentOf_name proper]
  have noHead := head_of_counting counts proper.slash []
  rw [List.append_nil] at noHead
  simp [components, pieces, noHead, Text.split_of_not_mem proper.slash, componentOf_name proper]

/-- The name of a file is its own name. -/
theorem fileName_of_fileName {path : String} {name : List Char} (file : fileName? path = some name) :
    fileName? (String.ofList name) = some name := by
  have last : (components path).getLast? = some (.normal name) := by
    unfold fileName? at file
    split at file
    · rename_i other whole
      obtain rfl := Option.some.inj file
      exact whole
    · cases file
  have proper := isName_of_component (List.mem_of_getLast? last)
  simp [fileName?, components_of_name proper]

end Path

end SwitchLint
