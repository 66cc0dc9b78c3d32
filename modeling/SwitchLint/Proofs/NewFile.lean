import SwitchLint.Proofs.SeenFiles

/-!
What becomes of a tree when a file is put where nothing was. Every path that led somewhere still does, and
the only other ones that now lead somewhere lead to the new file.
-/

namespace SwitchLint

namespace FileTree

variable {keep : String → Bool}

/-! ### Entries -/

theorem lookup_cons_ite {α : Type} (n name : String) (t : α) (es : List (String × α)) :
    ((name, t) :: es).lookup n = if n = name then some t else es.lookup n := by
  by_cases same : n = name
  · simp [same]
  · have apart : (n == name) = false := by simpa using same
    rw [List.lookup_cons, apart, if_neg same]

theorem lookup_setEntry (n name : String) (t : FileTree) (es : List (String × FileTree)) :
    (setEntry name t es).lookup n = if n = name then some t else es.lookup n := by
  induction es with
  | nil => exact lookup_cons_ite n name t []
  | cons e es ih =>
    obtain ⟨own, old⟩ := e
    rw [setEntry]
    split
    · rename_i found
      subst found
      rw [lookup_cons_ite, lookup_cons_ite]
      split <;> rfl
    · rename_i other
      rw [lookup_cons_ite, lookup_cons_ite, ih]
      by_cases same : n = own
      · have apart : n ≠ name := fun h => other (same.symm.trans h)
        simp only [if_pos same, if_neg apart]
      · simp only [if_neg same]

theorem setEntry_names (name : String) (t : FileTree) (es : List (String × FileTree)) :
    (setEntry name t es).map Prod.fst =
      if name ∈ es.map Prod.fst then es.map Prod.fst else es.map Prod.fst ++ [name] := by
  induction es with
  | nil => rfl
  | cons e es ih =>
    obtain ⟨own, old⟩ := e
    rw [setEntry]
    split
    · rename_i found
      simp [found]
    · rename_i other
      have apart : name ≠ own := Ne.symm other
      rw [List.map_cons, ih]
      by_cases member : name ∈ es.map Prod.fst <;> simp [member, apart]

theorem setEntry_proper {name : String} {t : FileTree} {es : List (String × FileTree)}
    (own : IsName name) (below : t.Proper) (proper : ProperEntries es) :
    ProperEntries (setEntry name t es) := by
  induction es with
  | nil => exact ⟨own, below, trivial⟩
  | cons e es ih =>
    obtain ⟨n, old⟩ := e
    obtain ⟨isName, inner, rest⟩ := proper
    rw [setEntry]
    split
    · exact ⟨isName, below, rest⟩
    · exact ⟨isName, inner, ih rest⟩

/-- An entry may be put in the place of another one that looks the same, or where there was none if it
does not stay. -/
theorem keepingIn_setEntry {name : String} {t : FileTree} {es : List (String × FileTree)}
    (same : ((es.lookup name).filter (stays keep [name])).map (keeping keep) =
      ((some t).filter (stays keep [name])).map (keeping keep)) :
    keepingIn keep (setEntry name t es) = keepingIn keep es := by
  induction es with
  | nil =>
    have goes : (t.isDirectory || keep name) = false := by
      cases seen : t.isDirectory || keep name with
      | false => rfl
      | true => simp [stays, seen, Option.filter_some] at same
    simp [setEntry, keepingIn, goes]
  | cons e es ih =>
    obtain ⟨own, old⟩ := e
    rw [lookup_cons_ite] at same
    rw [setEntry]
    split
    · rename_i found
      subst found
      rw [if_pos rfl] at same
      simp only [Option.filter_some, stays, List.getLast?_singleton, Option.all_some] at same
      rw [keepingIn, keepingIn]
      cases before : old.isDirectory || keep own <;> cases after : t.isDirectory || keep own <;>
        simp_all
    · rename_i other
      rw [if_neg (Ne.symm other)] at same
      rw [keepingIn, keepingIn, ih same]

/-! ### The tree with the new file -/

theorem child_graft (t new : FileTree) (name : String) (names : List String) (n : String) :
    (t.graft (name :: names) new).child? n =
      if n = name then some (((t.child? name).getD empty).graft names new) else t.child? n := by
  rw [graft]
  exact lookup_setEntry n name _ t.entries

/-- The content of a file; a directory has none. -/
def content? : FileTree → Option Content
  | file content => some content
  | directory _ => none

/-- What is at the end of the names: nothing, a directory, or a file with its content. -/
def at? (t : FileTree) (names : List String) : Option (Option Content) := (t.node? names).map content?

section

variable {t : FileTree}

theorem at_eq_none {names : List String} : t.at? names = none ↔ t.node? names = none :=
  Option.map_eq_none_iff

theorem at_eq_directory {names : List String} :
    t.at? names = some none ↔ ∃ es, t.node? names = some (directory es) := by
  rw [at?]
  cases t.node? names with
  | none => simp
  | some node => cases node <;> simp [content?]

theorem at_eq_file {names : List String} {content : Content} :
    t.at? names = some (some content) ↔ t.node? names = some (file content) := by
  rw [at?]
  cases t.node? names with
  | none => simp
  | some node => cases node <;> simp [content?]

theorem at_cons (t : FileTree) (name : String) (names : List String) :
    t.at? (name :: names) = (t.child? name).bind (·.at? names) := by
  rw [at?, node?, Option.map_bind]
  rfl

theorem at_below_file {names : List String} (content : Content) (below : names ≠ []) :
    (file content).at? names = none := by
  cases names with
  | nil => exact absurd rfl below
  | cons name names => rfl

end

theorem node_graft (t new : FileTree) (names : List String) :
    (t.graft names new).node? names = some new := by
  induction names generalizing t with
  | nil => rfl
  | cons name names ih => rw [node?, child_graft, if_pos rfl, Option.bind_some, ih]

/-- A file that is written where no directory is changes nothing anywhere else. -/
theorem at_graft {t : FileTree} {here : List String} {es : List (String × FileTree)} {name : String}
    (content : Content) (inside : t.node? here = some (directory es))
    (free : t.at? (here ++ [name]) ≠ some none) {names : List String} (other : names ≠ here ++ [name]) :
    (t.graft (here ++ [name]) (file content)).at? names = t.at? names := by
  induction here generalizing t names with
  | nil =>
    obtain rfl := Option.some.inj inside
    cases names with
    | nil => rfl
    | cons n names =>
      rw [List.nil_append, at_cons, child_graft]
      split
      · -- No names lead on from a file, be it the old or the new one.
        rename_i same
        subst same
        have below : names ≠ [] := fun last => other (by rw [last]; rfl)
        rw [Option.bind_some, graft, at_below_file content below, at_cons]
        rw [List.nil_append, at_cons] at free
        cases found : (directory es).child? n with
        | none => rfl
        | some child =>
          cases child with
          | file old => exact (at_below_file old below).symm
          | directory inner => exact absurd (by rw [found]; rfl) free
      · rw [← at_cons]
  | cons n here ih =>
    obtain ⟨c, found, below⟩ := Option.bind_eq_some_iff.mp inside
    cases t with
    | file content => cases found
    | directory es =>
      cases names with
      | nil => rfl
      | cons m names =>
        rw [List.cons_append, at_cons, child_graft]
        split
        · rename_i same
          subst same
          have free : c.at? (here ++ [name]) ≠ some none := by
            rwa [List.cons_append, at_cons, found] at free
          rw [found, Option.getD_some, Option.bind_some,
            ih below free fun same => other (congrArg _ same), at_cons, found, Option.bind_some]
        · rw [← at_cons]

/-- The second tree is the first with one more file, where nothing was. -/
structure Gains (t t' : FileTree) (place : List String) (content : Content) : Prop where
  within : t.Within t'
  absent : t.node? place = none
  present : t'.node? place = some (.file content)
  only : ∀ names, (t'.node? names).isSome = true → (t.node? names).isSome = true ∨ names = place

/-- A file that is grafted on in a directory, where nothing was, is all that is new. -/
theorem graft_gains {t : FileTree} {here : List String} {es : List (String × FileTree)} {name : String}
    {content : Content} (inside : t.node? here = some (directory es))
    (absent : t.node? (here ++ [name]) = none) :
    t.Gains (t.graft (here ++ [name]) (file content)) (here ++ [name]) content := by
  have free : t.at? (here ++ [name]) ≠ some none := by
    rw [at_eq_none.mpr absent]
    nofun
  have present := node_graft t (file content) (here ++ [name])
  have same {names : List String} (other : names ≠ here ++ [name]) := at_graft content inside free other
  refine ⟨⟨fun names => ?_, fun names old found => ?_⟩, absent, present, fun names found => ?_⟩
  · by_cases place : names = here ++ [name]
    · rw [place, present, absent]
      simp
    · rw [← at_eq_directory, ← at_eq_directory, same place]
  · have other : names ≠ here ++ [name] := by
      rintro rfl
      rw [absent] at found
      cases found
    rw [← at_eq_file] at found ⊢
    rw [same other, found]
  · by_cases place : names = here ++ [name]
    · exact .inr place
    · left
      rw [Option.isSome_iff_ne_none, ne_eq, ← at_eq_none] at found ⊢
      rwa [same place] at found

theorem graft_proper {t : FileTree} (proper : t.Proper) {here : List String}
    {es : List (String × FileTree)} {name : String} (own : IsName name) {content : Content}
    (inside : t.node? here = some (directory es)) :
    (t.graft (here ++ [name]) (file content)).Proper := by
  have distinct {es : List (String × FileTree)} (nodup : (es.map Prod.fst).Nodup) (n : String)
      (c : FileTree) : ((setEntry n c es).map Prod.fst).Nodup := by
    rw [setEntry_names]
    split
    · exact nodup
    · rename_i fresh
      rw [List.nodup_append]
      exact ⟨nodup, List.nodup_singleton n, fun a ha b hb same =>
        fresh (List.mem_singleton.mp hb ▸ same ▸ ha)⟩
  induction here generalizing t with
  | nil =>
    obtain rfl := Option.some.inj inside
    exact ⟨distinct proper.1 name _, setEntry_proper own trivial proper.2⟩
  | cons n here ih =>
    obtain ⟨c, found, reached⟩ := Option.bind_eq_some_iff.mp inside
    cases t with
    | file content => cases found
    | directory es =>
      have member := mem_of_child found
      have below := ih (proper_of_mem proper.2 member).2 reached
      rw [List.cons_append, graft, found, Option.getD_some]
      exact ⟨distinct proper.1 n _, setEntry_proper (proper_of_mem proper.2 member).1 below proper.2⟩

/-- A file that does not stay makes no difference to what does. -/
theorem graft_keeping {t : FileTree} {here : List String} {es : List (String × FileTree)}
    {name : String} {content : Content} (inside : t.node? here = some (directory es))
    (absent : t.node? (here ++ [name]) = none) (goes : keep name = false) :
    (t.graft (here ++ [name]) (file content)).keeping keep = t.keeping keep := by
  induction here generalizing t with
  | nil =>
    obtain rfl := Option.some.inj inside
    have none : es.lookup name = none := by simpa [node?, child?, entries] using absent
    refine congrArg directory (keepingIn_setEntry ?_)
    simp [entries, none, Option.filter_some, stays, isDirectory, goes, graft]
  | cons n here ih =>
    obtain ⟨c, found, below⟩ := Option.bind_eq_some_iff.mp inside
    have gone : c.node? (here ++ [name]) = none := by simpa [node?, found] using absent
    cases t with
    | file content => cases found
    | directory es =>
      have same := ih below gone
      have shape : stays keep [n] (c.graft (here ++ [name]) (file content)) = stays keep [n] c := by
        have kind := congrArg isDirectory same
        rw [isDirectory_keeping, isDirectory_keeping] at kind
        rw [stays, stays, kind]
      rw [List.cons_append, graft, found, Option.getD_some]
      refine congrArg directory (keepingIn_setEntry ?_)
      rw [entries, show es.lookup n = some c from found, Option.filter_some, Option.filter_some, shape]
      split <;> simp [same]

end FileTree

/-! ### Paths that go on by a name -/

namespace FileTree

variable {t : FileTree}

theorem enter_name {here : List String} {name : String} (proper : IsName name) (top : List String) :
    t.enter here name.toList = .ok top ↔ top = here ++ [name] ∧ (t.node? top).isSome = true := by
  cases found : t.node? here with
  | none =>
    rw [enter, found]
    constructor
    · intro entered
      cases entered
    · rintro ⟨rfl, there⟩
      simp [node_snoc, found] at there
  | some node =>
    cases node with
    | file content =>
      rw [enter_file found]
      constructor
      · intro entered
        cases entered
      · rintro ⟨rfl, there⟩
        simp [node_snoc, found, child?, entries] at there
    | directory es =>
      rw [enter_directory found, Path.componentOf_name proper]
      simp only [String.ofList_toList]
      constructor
      · intro entered
        split at entered
        · rename_i there
          obtain rfl := Except.ok.inj entered
          exact ⟨rfl, there⟩
        · cases entered
      · rintro ⟨rfl, there⟩
        rw [if_pos there]

/-- A step starts in a directory. -/
theorem directory_of_enter {here next : List String} {piece : List Char}
    (entered : t.enter here piece = .ok next) : ∃ es, t.node? here = some (directory es) := by
  cases found : t.node? here with
  | none =>
    rw [enter, found] at entered
    cases entered
  | some node =>
    cases node with
    | file content =>
      rw [enter_file found] at entered
      cases entered
    | directory es => exact ⟨es, rfl⟩

/-- A step ends at what is there. -/
theorem isSome_of_enter {here next : List String} {piece : List Char}
    (entered : t.enter here piece = .ok next) : (t.node? next).isSome = true := by
  obtain ⟨es, found⟩ := directory_of_enter entered
  rw [enter_directory found] at entered
  split at entered
  · split at entered
    · obtain rfl := Except.ok.inj entered
      assumption
    · cases entered
  · obtain rfl := Except.ok.inj entered
    obtain ⟨es, above⟩ := node_dropLast found
    simp [above]
  · obtain rfl := Except.ok.inj entered
    simp [found]

/-- A step may be taken in another tree that has all directories of this one, if what it ends at is there
too. -/
theorem enter_of_directories {t' : FileTree}
    (directories : ∀ names, t.at? names = some none → t'.at? names = some none)
    {here next : List String} {piece : List Char} (entered : t.enter here piece = .ok next)
    (there : (t'.node? next).isSome = true) : t'.enter here piece = .ok next := by
  obtain ⟨es, found⟩ := directory_of_enter entered
  obtain ⟨es', found'⟩ := at_eq_directory.mp (directories here (at_eq_directory.mpr ⟨es, found⟩))
  rw [enter_directory found] at entered
  rw [enter_directory found']
  -- Only a step down to a name looks at what is there.
  split at entered
  · split at entered
    · obtain rfl := Except.ok.inj entered
      rw [if_pos there]
    · cases entered
  · exact entered
  · exact entered

theorem enter_idle {here top : List String} (entered : t.enter here [] = .ok top) : top = here := by
  unfold enter at entered
  split at entered
  · exact (Except.ok.inj entered).symm
  · cases entered
  · cases entered

theorem enter_idle_directory {here : List String} {es : List (String × FileTree)}
    (found : t.node? here = some (directory es)) : t.enter here [] = .ok here := by
  rw [enter_directory found]
  rfl

/-- A path that goes on by a name stands for the names of what is before it, and that name, if these lead
somewhere. -/
theorem names_append_iff {base name : String} (nonempty : base ≠ "") (proper : IsName name)
    (top : List String) : t.names (Path.append base name) = .ok top ↔
      ∃ here, t.names base = .ok here ∧ top = here ++ [name] ∧ (t.node? top).isSome = true := by
  obtain ⟨ps, whole, same⟩ := Path.pieces_append nonempty proper
  rw [names, names, if_neg (Path.append_ne_empty nonempty), if_neg nonempty, whole, List.foldlM_append,
    CommandLine.bind_eq_ok_iff]
  have last (here : List String) : [name.toList].foldlM t.enter here = .ok top ↔
      top = here ++ [name] ∧ (t.node? top).isSome = true := by
    rw [← enter_name proper, List.foldlM_cons, CommandLine.bind_eq_ok_iff]
    refine ⟨?_, fun entered => ⟨top, entered, rfl⟩⟩
    rintro ⟨_, entered, rest⟩
    exact Except.ok.inj rest ▸ entered
  rcases same with same | same
  · rw [same]
    exact exists_congr fun here => and_congr_right fun _ => last here
  · rw [same]
    refine exists_congr fun here => ?_
    rw [List.foldlM_append, CommandLine.bind_eq_ok_iff, last]
    constructor
    · rintro ⟨walked, rfl, there⟩
      refine ⟨⟨here, walked, ?_⟩, rfl, there⟩
      rw [node_snoc] at there
      cases found : t.node? here with
      | none => simp [found] at there
      | some node =>
        cases node with
        | file content => simp [found, child?, entries] at there
        | directory es =>
          rw [List.foldlM_cons, enter_idle_directory found]
          rfl
    · rintro ⟨⟨before, walked, idle⟩, rfl, there⟩
      rw [List.foldlM_cons, CommandLine.bind_eq_ok_iff] at idle
      obtain ⟨_, entered, rest⟩ := idle
      obtain rfl := enter_idle entered
      obtain rfl := Except.ok.inj rest
      exact ⟨walked, rfl, there⟩

end FileTree

end SwitchLint
