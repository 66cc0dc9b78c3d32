import Mathlib.Data.List.Nodup
import SwitchLint.Files.Discovery
import SwitchLint.Proofs.Paths

/-!
Where the files lie that discovery finds: each below the root, no two at one place. That needs what
every file system grants, distinct names in each directory that can stand in a path.
-/

namespace SwitchLint.FileTree

open Ignore (Level)

mutual

/-- The names in each directory are distinct, and each can stand in a path. -/
def Proper : FileTree → Prop
  | file _ => True
  | directory es => (es.map Prod.fst).Nodup ∧ ProperEntries es

/-- The names of the entries can stand in a path, and so it goes on below them. -/
def ProperEntries : List (String × FileTree) → Prop
  | [] => True
  | (name, t) :: es => IsName name ∧ Proper t ∧ ProperEntries es

end

theorem proper_of_mem {es : List (String × FileTree)} (proper : ProperEntries es)
    {name : String} {t : FileTree} (member : (name, t) ∈ es) : IsName name ∧ t.Proper := by
  induction es with
  | nil => cases member
  | cons e es ih =>
    obtain ⟨own, below, rest⟩ := proper
    rcases List.mem_cons.mp member with rfl | member
    · exact ⟨own, below⟩
    · exact ih rest member

theorem mem_of_child {t child : FileTree} {name : String} (found : t.child? name = some child) :
    (name, child) ∈ t.entries := by
  obtain ⟨before, after, whole, -⟩ := List.lookup_eq_some_iff.mp found
  rw [whole]
  exact List.mem_append_right before List.mem_cons_self

theorem node_of_child {t child : FileTree} {name : String} (found : t.child? name = some child) :
    t.node? [name] = some child := by
  simp [node?, found]

theorem node_proper {t node : FileTree} (proper : t.Proper) {names : List String}
    (found : t.node? names = some node) : node.Proper := by
  induction names generalizing t with
  | nil => exact Option.some.inj found ▸ proper
  | cons name names ih =>
    obtain ⟨c, child, inside⟩ := Option.bind_eq_some_iff.mp found
    cases t with
    | file content => cases child
    | directory es => exact ih (proper_of_mem proper.2 (mem_of_child child)).2 inside

mutual

/-- The files below a directory have distinct places, and the names on the way can stand in paths. -/
theorem filesBelow_places (git : Bool) (levels : List Level) (t : FileTree) (proper : t.Proper) :
    ((filesBelow git levels t).map Prod.fst).Nodup ∧
      ∀ f ∈ filesBelow git levels t, ∀ name ∈ f.1, IsName name := by
  cases t with
  | file content => simp [filesBelow]
  | directory es =>
    rw [filesBelow]
    obtain ⟨distinct, _, names⟩ := filesIn_places git _ es proper.2 proper.1
    exact ⟨distinct, names⟩

/-- The same for the files of entries; the first name on the way is that of an entry. -/
theorem filesIn_places (git : Bool) (levels : List Level) (es : List (String × FileTree))
    (proper : ProperEntries es) (distinct : (es.map Prod.fst).Nodup) :
    ((filesIn git levels es).map Prod.fst).Nodup ∧
      (∀ f ∈ filesIn git levels es, ∃ name ∈ es.map Prod.fst, f.1.head? = some name) ∧
      ∀ f ∈ filesIn git levels es, ∀ name ∈ f.1, IsName name := by
  cases es with
  | nil => simp [filesIn]
  | cons e es =>
    obtain ⟨name, t⟩ := e
    obtain ⟨own, below, rest⟩ := proper
    obtain ⟨fresh, others⟩ := List.nodup_cons.mp distinct
    obtain ⟨headPlaces, headNames⟩ :=
      filesBelow_places git (levels.map (Level.descend name)) t below
    obtain ⟨tailPlaces, tailFirst, tailNames⟩ := filesIn_places git levels es rest others
    rw [filesIn]
    split
    · refine ⟨tailPlaces, fun f hf => ?_, tailNames⟩
      obtain ⟨n, hn, first⟩ := tailFirst f hf
      exact ⟨n, List.mem_cons_of_mem name hn, first⟩
    · refine ⟨?_, fun f hf => ?_, fun f hf => ?_⟩
      · rw [List.map_append, List.map_map, List.nodup_append]
        refine ⟨?_, tailPlaces, ?_⟩
        · have longer := headPlaces.map (List.cons_injective (a := name))
          rwa [List.map_map] at longer
        · rintro _ hx _ hy rfl
          obtain ⟨f, _, rfl⟩ := List.mem_map.mp hx
          obtain ⟨g, hg, same⟩ := List.mem_map.mp hy
          obtain ⟨n, hn, first⟩ := tailFirst g hg
          rw [same] at first
          exact fresh (Option.some.inj first ▸ hn)
      · rcases List.mem_append.mp hf with hf | hf
        · obtain ⟨g, _, rfl⟩ := List.mem_map.mp hf
          exact ⟨name, List.mem_cons_self, rfl⟩
        · obtain ⟨n, hn, first⟩ := tailFirst f hf
          exact ⟨n, List.mem_cons_of_mem name hn, first⟩
      · rcases List.mem_append.mp hf with hf | hf
        · obtain ⟨g, hg, rfl⟩ := List.mem_map.mp hf
          exact List.forall_mem_cons.mpr ⟨own, headNames g hg⟩
        · exact tailNames f hf

end

/-! ### What the places lead to -/

theorem child_of_mem {es : List (String × FileTree)} (distinct : (es.map Prod.fst).Nodup)
    {name : String} {t : FileTree} (member : (name, t) ∈ es) :
    (directory es).child? name = some t := by
  obtain ⟨before, after, rfl⟩ := List.append_of_mem member
  refine List.lookup_eq_some_iff.mpr ⟨before, after, rfl, fun e he => ?_⟩
  rw [List.map_append, List.nodup_append] at distinct
  have apart := distinct.2.2 e.1 (List.mem_map_of_mem he) name List.mem_cons_self
  simpa using Ne.symm apart

theorem node_append (t : FileTree) (names names' : List String) :
    t.node? (names ++ names') = (t.node? names).bind (·.node? names') := by
  induction names generalizing t with
  | nil => rfl
  | cons name names ih =>
    rw [List.cons_append, node?, node?, Option.bind_assoc]
    exact congrArg _ (funext ih)

theorem node_of_file {content : Content} {names : List String} {node : FileTree}
    (found : (file content).node? names = some node) : names = [] ∧ node = file content := by
  cases names with
  | nil => exact ⟨rfl, (Option.some.inj found).symm⟩
  | cons name names => cases found

mutual

/-- The place of a file below a directory leads to it. -/
theorem node_of_filesBelow {git : Bool} {levels : List Level} {t : FileTree} (proper : t.Proper)
    {f : List String × Content} (member : f ∈ filesBelow git levels t) :
    t.node? f.1 = some (file f.2) := by
  cases t with
  | file content =>
    obtain rfl := List.mem_singleton.mp member
    rfl
  | directory es =>
    rw [filesBelow] at member
    obtain ⟨name, names, t, place, entry, inside⟩ := node_of_filesIn proper.2 member
    rw [place, node?, child_of_mem proper.1 entry]
    exact inside

theorem node_of_filesIn {git : Bool} {levels : List Level} {es : List (String × FileTree)}
    (proper : ProperEntries es) {f : List String × Content} (member : f ∈ filesIn git levels es) :
    ∃ name names t, f.1 = name :: names ∧ (name, t) ∈ es ∧ t.node? names = some (file f.2) := by
  cases es with
  | nil => cases member
  | cons e es =>
    obtain ⟨name, t⟩ := e
    rw [filesIn] at member
    rcases List.mem_append.mp member with member | member
    · split at member
      · cases member
      · obtain ⟨g, hg, rfl⟩ := List.mem_map.mp member
        exact ⟨name, g.1, t, rfl, List.mem_cons_self, node_of_filesBelow proper.2.1 hg⟩
    · obtain ⟨name', names, t', place, entry, inside⟩ := node_of_filesIn proper.2.2 member
      exact ⟨name', names, t', place, List.mem_cons_of_mem _ entry, inside⟩

end

/-! ### What is discovered -/

/-- Discovery takes the files below what the root leads to. A root that is a file has itself below it. -/
theorem discover_eq_ok {git : Bool} {t : FileTree} {root : String} {found : List (String × Content)}
    (discovered : t.discover git root = .ok found) :
    root ≠ "" ∧ ∃ top node, t.names root = .ok top ∧ t.node? top = some node ∧
      found = (node.filesBelow git (levelsAbove git t top)).map fun f =>
        (f.1.foldl Path.append root, f.2) := by
  unfold discover at discovered
  have nonempty : root ≠ "" := by
    rintro rfl
    cases discovered
  refine ⟨nonempty, ?_⟩
  cases way : t.names root with
  | error fault => rw [way] at discovered; cases discovered
  | ok top =>
    rw [way] at discovered
    cases reached : t.node? top with
    | none => simp [reached] at discovered
    | some node =>
      refine ⟨top, node, rfl, reached, ?_⟩
      cases node with
      | file content =>
        simp only [reached, Except.ok.injEq] at discovered
        exact discovered.symm
      | directory es =>
        simp only [reached] at discovered
        split at discovered
        · exact (Except.ok.inj discovered).symm
        · cases discovered

/-- What is discovered lies at distinct places below the root. A root that is a file is its own and
only place. -/
theorem discover_places {git : Bool} {t : FileTree} (proper : t.Proper) {root : String}
    {found : List (String × Content)} (discovered : t.discover git root = .ok found) :
    root ≠ "" ∧ ∃ files : List (List String × Content),
      found = files.map (fun f => (f.1.foldl Path.append root, f.2)) ∧
      (files.map Prod.fst).Nodup ∧ ∀ f ∈ files, ∀ name ∈ f.1, IsName name := by
  obtain ⟨nonempty, top, node, -, reached, whole⟩ := discover_eq_ok discovered
  exact ⟨nonempty, _, whole, filesBelow_places git _ node (node_proper proper reached)⟩

/-- The root leads to a file or directory, and each file that is discovered lies below it, at the place
that its path goes on with. -/
theorem discover_reaches {git : Bool} {t : FileTree} (proper : t.Proper) {root : String}
    {found : List (String × Content)} (discovered : t.discover git root = .ok found) :
    ∃ top node, t.names root = .ok top ∧ t.node? top = some node ∧ ∀ f ∈ found, ∃ place,
      node.node? place = some (file f.2) ∧ f.1 = place.foldl Path.append root ∧
        ∀ name ∈ place, IsName name := by
  obtain ⟨-, top, node, way, reached, rfl⟩ := discover_eq_ok discovered
  have inner := node_proper proper reached
  refine ⟨top, node, way, reached, fun f hf => ?_⟩
  obtain ⟨g, hg, rfl⟩ := List.mem_map.mp hf
  exact ⟨g.1, node_of_filesBelow inner hg, rfl, (filesBelow_places git _ node inner).2 g hg⟩

/-- Seen as components, the paths of what is discovered go on from the root, and no two are the same. -/
theorem discover_components {git : Bool} {t : FileTree} (proper : t.Proper) {root : String}
    {found : List (String × Content)} (discovered : t.discover git root = .ok found) :
    (∀ f ∈ found, Path.components root <+: Path.components f.1) ∧
      (found.map fun f => Path.components f.1).Nodup := by
  obtain ⟨nonempty, files, rfl, distinct, names⟩ := discover_places proper discovered
  have below : ∀ f ∈ files, Path.components (f.1.foldl Path.append root) =
      Path.components root ++ f.1.map fun name => .normal name.toList :=
    fun f hf => Path.components_below nonempty (names f hf)
  constructor
  · intro g hg
    obtain ⟨f, hf, rfl⟩ := List.mem_map.mp hg
    exact ⟨_, (below f hf).symm⟩
  · have longer : Function.Injective fun place : List String =>
        Path.components root ++ place.map fun name => Component.normal name.toList := by
      intro xs ys same
      refine List.map_injective_iff.mpr (fun x y h => ?_) (List.append_cancel_left same)
      exact String.ext (Component.normal.inj h)
    have places := distinct.map longer
    have same := List.map_congr_left below
    rw [List.map_map] at places ⊢
    exact same ▸ places

end SwitchLint.FileTree
