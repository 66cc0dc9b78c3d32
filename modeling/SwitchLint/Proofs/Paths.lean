import SwitchLint.Path.Basic
import SwitchLint.Proofs.Cutting

/-!
Paths and their components. Appending a name adds one component, and going below a root takes the
components of the root away; so the order of files is that of their paths below the root.
-/

namespace SwitchLint

/-- The text can stand for an entry of a directory. -/
structure IsName (name : String) : Prop where
  nonempty : name ≠ ""
  here : name ≠ "."
  parent : name ≠ ".."
  slash : '/' ∉ name.toList

theorem isName_iff (name : String) :
    IsName name ↔ name ≠ "" ∧ name ≠ "." ∧ name ≠ ".." ∧ '/' ∉ name.toList :=
  ⟨fun ⟨nonempty, here, parent, slash⟩ => ⟨nonempty, here, parent, slash⟩,
    fun ⟨nonempty, here, parent, slash⟩ => ⟨nonempty, here, parent, slash⟩⟩

instance (name : String) : Decidable (IsName name) := decidable_of_iff _ (isName_iff name).symm

namespace Path

open Text

theorem componentOf_name {name : String} (proper : IsName name) :
    componentOf name.toList = some (.normal name.toList) := by
  have nonempty : name.toList ≠ [] := fun h => proper.nonempty (String.ext h)
  have here : name.toList ≠ ['.'] := fun h => proper.here (String.ext h)
  have parent : name.toList ≠ ['.', '.'] := fun h => proper.parent (String.ext h)
  simp [componentOf, nonempty, here, parent]

theorem not_absolute_of_name {name : String} (proper : IsName name) : isAbsolute name = false := by
  have slash := proper.slash
  unfold isAbsolute head
  split
  · rename_i starts
    simp [starts] at slash
  all_goals rfl

/-! ### Going on after a slash -/

theorem head_append_slash {xs : List Char} (nonempty : xs ≠ []) (ys : List Char) :
    head (xs ++ '/' :: ys) = head xs := by
  rcases xs with _ | ⟨x, _ | ⟨c, xs⟩⟩
  · exact absurd rfl nonempty
  · by_cases slash : x = '/'
    · simp [head, slash]
    · by_cases dot : x = '.'
      · simp [head, dot]
      · simp [head, slash, dot]
  · by_cases slash : x = '/'
    · simp [head, slash]
    · by_cases dot : x = '.'
      · by_cases slash' : c = '/'
        · simp [head, dot, slash']
        · simp [head, dot, slash']
      · simp [head, slash, dot]

theorem pieces_append_slash {xs : List Char} (nonempty : xs ≠ []) (ys : List Char) :
    pieces (xs ++ '/' :: ys) = pieces xs ++ split '/' ys := by
  rw [pieces, pieces, head_append_slash nonempty]
  split
  · rw [List.drop_append_of_le_length (List.length_pos_iff.mpr nonempty), split_append_mark]
  · rw [split_append_mark]

/-- The components of a text that is read as a path. -/
def componentsOf (cs : List Char) : List Component := (head cs).toList ++ (pieces cs).filterMap componentOf

theorem components_eq (path : String) : components path = componentsOf path.toList := rfl

theorem componentsOf_append_slash {xs : List Char} (nonempty : xs ≠ []) (ys : List Char) :
    componentsOf (xs ++ '/' :: ys) = componentsOf xs ++ (split '/' ys).filterMap componentOf := by
  rw [componentsOf, componentsOf, head_append_slash nonempty, pieces_append_slash nonempty,
    List.filterMap_append, List.append_assoc]

theorem components_append {root name : String} (nonempty : root ≠ "") (proper : IsName name) :
    components (append root name) = components root ++ [.normal name.toList] := by
  have rootNonempty : root.toList ≠ [] := fun h => nonempty (String.ext h)
  have piece : (split '/' name.toList).filterMap componentOf = [.normal name.toList] := by
    simp [split_of_not_mem proper.slash, componentOf_name proper]
  rw [append, not_absolute_of_name proper, components_eq, components_eq]
  simp only [nonempty, decide_false, Bool.false_or, Bool.false_eq_true, if_false]
  split
  · rename_i slashed
    obtain ⟨init, whole⟩ := (endsWith_iff ['/'] root.toList).mp slashed
    rw [String.toList_append, ← whole, List.append_assoc, List.singleton_append]
    by_cases empty : init = []
    · simp [empty, componentsOf, head, pieces, piece, split, componentOf]
    · rw [componentsOf_append_slash empty, componentsOf_append_slash empty, piece]
      simp [split, componentOf]
  · have whole : (root ++ "/" ++ name).toList = root.toList ++ '/' :: name.toList := by simp
    rw [whole, componentsOf_append_slash rootNonempty, piece]

theorem components_empty : components "" = [] := rfl

/-- The names that lead on from a directory become the last components of the path. -/
theorem components_below {root : String} (nonempty : root ≠ "") {names : List String}
    (proper : ∀ name ∈ names, IsName name) :
    components (names.foldl append root) =
      components root ++ names.map fun name => .normal name.toList := by
  induction names generalizing root with
  | nil => simp
  | cons name names ih =>
    have step := components_append nonempty (proper name List.mem_cons_self)
    have nonempty' : append root name ≠ "" := by
      intro empty
      rw [empty, components_empty] at step
      simp at step
    rw [List.foldl_cons, ih nonempty' fun n hn => proper n (List.mem_cons_of_mem name hn), step,
      List.append_assoc, List.map_cons, List.singleton_append]

/-! ### Going on by a name -/

theorem isAbsolute_iff (path : String) : isAbsolute path = true ↔ path.toList.head? = some '/' := by
  rw [isAbsolute]
  cases path.toList with
  | nil => decide
  | cons c cs =>
    by_cases slash : c = '/'
    · simp [head, slash]
    · unfold head
      split <;> simp_all

theorem append_ne_empty {base path : String} (nonempty : base ≠ "") : append base path ≠ "" := by
  have chars : base.toList ≠ [] := fun h => nonempty (String.ext h)
  intro empty
  have none := congrArg String.toList empty
  unfold append at none
  split at none
  · rename_i absolute
    rw [Bool.or_eq_true, decide_eq_true_eq, isAbsolute_iff, none] at absolute
    simp [nonempty] at absolute
  · split at none <;> simp [nonempty] at none

theorem isAbsolute_of_prefix {xs path : List Char} (nonempty : xs ≠ []) (initial : xs <+: path) :
    isAbsolute (String.ofList path) = isAbsolute (String.ofList xs) := by
  obtain ⟨rest, rfl⟩ := initial
  obtain ⟨x, xs, rfl⟩ := List.exists_cons_of_ne_nil nonempty
  rw [Bool.eq_iff_iff, isAbsolute_iff, isAbsolute_iff]
  simp

/-- What is put before a path that is read in the directory `base`. -/
def lead (absolute : Bool) (base : String) : String :=
  if absolute || base = "" then "" else if endsWith ['/'] base.toList then base else base ++ "/"

theorem append_eq_lead (base path : String) : append base path = lead (isAbsolute path) base ++ path := by
  rw [append, lead]
  by_cases here : (isAbsolute path || decide (base = "")) = true
  · rw [if_pos here, if_pos here, String.empty_append]
  · rw [if_neg here, if_neg here]
    split <;> rfl

theorem endsWith_slash_append (xs : List Char) {ys : List Char} (nonempty : ys ≠ []) :
    endsWith ['/'] (xs ++ ys) = endsWith ['/'] ys := by
  have last : ∀ cs : List Char, endsWith ['/'] cs = true ↔ cs.getLast? = some '/' := by
    intro cs
    rw [endsWith_iff, List.getLast?_eq_some_iff]
    exact exists_congr fun init => eq_comm
  rw [Bool.eq_iff_iff, last, last, List.getLast?_append_of_ne_nil xs nonempty]

theorem lead_lead (base : String) : lead false (lead false base) = lead false base := by
  by_cases empty : base = ""
  · simp [lead, empty]
  · by_cases slashed : endsWith ['/'] base.toList = true
    · simp [lead, empty, slashed]
    · have ends : endsWith ['/'] (base.toList ++ ['/']) = true :=
        (endsWith_iff _ _).mpr (List.suffix_append _ _)
      simp [lead, empty, slashed, ends]

/-- A path may be read in a directory and then go on by a name, or the other way round. -/
theorem append_append (base path : String) {name : String} (proper : IsName name) :
    append base (append path name) = append (append base path) name := by
  have relative := not_absolute_of_name proper
  by_cases here : path = ""
  · subst here
    have none : lead false "" = "" := rfl
    rw [append_eq_lead "" name, relative, none, String.empty_append, append_eq_lead base name,
      append_eq_lead _ name, relative, append_eq_lead base "", String.append_empty]
    rw [show isAbsolute "" = false from rfl, lead_lead]
  · have nonempty : path.toList ≠ [] := fun h => here (String.ext h)
    obtain ⟨slash, whole⟩ : ∃ slash : String, ∀ xs : String, lead false (xs ++ path) = xs ++ path ++ slash := by
      by_cases slashed : endsWith ['/'] path.toList = true
      · refine ⟨"", fun xs => ?_⟩
        simp [lead, here, endsWith_slash_append xs.toList nonempty, slashed]
      · refine ⟨"/", fun xs => ?_⟩
        simp [lead, here, endsWith_slash_append xs.toList nonempty, slashed]
    have own := whole ""
    rw [String.empty_append] at own
    have absolute : isAbsolute (path ++ slash ++ name) = isAbsolute path := by
      have initial : path.toList <+: (path ++ slash ++ name).toList := by simp
      have same := isAbsolute_of_prefix nonempty initial
      simpa only [String.ofList_toList] using same
    rw [append_eq_lead path name, relative, own, append_eq_lead base, absolute,
      append_eq_lead _ name, relative, append_eq_lead base path, whole, String.append_assoc,
      String.append_assoc, String.append_assoc]

/-- The pieces of a path that goes on by a name end with it. What is before them are the pieces of the
path, but for an empty one behind a slash at its end. -/
theorem pieces_append {base name : String} (nonempty : base ≠ "") (proper : IsName name) :
    ∃ ps, pieces (append base name).toList = ps ++ [name.toList] ∧
      (pieces base.toList = ps ∨ pieces base.toList = ps ++ [[]]) := by
  have chars : base.toList ≠ [] := fun h => nonempty (String.ext h)
  have last := split_of_not_mem proper.slash
  rw [append_eq_lead, not_absolute_of_name proper, String.toList_append]
  by_cases slashed : endsWith ['/'] base.toList = true
  · obtain ⟨init, whole⟩ := (endsWith_iff _ _).mp slashed
    have lead : (lead false base).toList = init ++ ['/'] := by simp [lead, nonempty, slashed, whole]
    rw [lead, ← whole, List.append_assoc, List.singleton_append]
    by_cases root : init = []
    · exact ⟨[], by simp [root, pieces, head, last, split]⟩
    · refine ⟨pieces init, ?_, .inr ?_⟩
      · rw [pieces_append_slash root, last]
      · rw [pieces_append_slash root]
        rfl
  · have lead : (lead false base).toList = base.toList ++ ['/'] := by
      simp [lead, nonempty, slashed]
    refine ⟨pieces base.toList, ?_, .inl rfl⟩
    rw [lead, List.append_assoc, List.singleton_append, pieces_append_slash chars, last]

/-! ### Below a root -/

theorem idle_iff (piece : List Char) : idle piece = true ↔ componentOf piece = none := by
  simp [idle]

theorem filterMap_dropWhile_idle (ps : List (List Char)) :
    (ps.dropWhile idle).filterMap componentOf = ps.filterMap componentOf := by
  induction ps with
  | nil => rfl
  | cons p ps ih =>
    by_cases empty : idle p = true
    · rw [List.dropWhile_cons_of_pos empty, ih, List.filterMap_cons_none ((idle_iff p).mp empty)]
    · rw [List.dropWhile_cons_of_neg empty]

theorem filterMap_trimEnd (ps : List (List Char)) :
    (trimEnd ps).filterMap componentOf = ps.filterMap componentOf := by
  rw [trimEnd, List.filterMap_reverse, filterMap_dropWhile_idle, List.filterMap_reverse,
    List.reverse_reverse]

theorem filterMap_afterCounting (n : Nat) (ps : List (List Char)) :
    (afterCounting n ps).filterMap componentOf = (ps.filterMap componentOf).drop n := by
  fun_induction afterCounting n ps with
  | case1 ps => rfl
  | case2 n => simp
  | case3 n p ps empty ih => rw [ih, List.filterMap_cons_none ((idle_iff p).mp empty)]
  | case4 n p ps counts ih =>
    obtain ⟨c, hc⟩ := Option.ne_none_iff_exists'.mp fun none => counts ((idle_iff p).mpr none)
    rw [ih, List.filterMap_cons_some hc, List.drop_succ_cons]

theorem mem_afterCounting {n : Nat} {ps : List (List Char)} {p : List Char}
    (member : p ∈ afterCounting n ps) : p ∈ ps := by
  fun_induction afterCounting n ps with
  | case1 ps => exact member
  | case2 n => cases member
  | case3 n q ps empty ih => exact List.mem_cons_of_mem q (ih member)
  | case4 n q ps counts ih => exact List.mem_cons_of_mem q (ih member)

/-- A piece that counts begins neither with a slash nor as a leading dot does. -/
theorem head_of_counting {p : List Char} (counts : idle p = false) (slash : '/' ∉ p)
    (rest : List Char) : head (p ++ rest) = none := by
  rcases p with _ | ⟨c, _ | ⟨d, p⟩⟩
  · simp [idle, componentOf] at counts
  · have other : c ≠ '/' := fun h => slash (by simp [h])
    have dot : c ≠ '.' := by
      rintro rfl
      simp [idle, componentOf] at counts
    simp [head, other, dot]
  · have other : c ≠ '/' := fun h => slash (by simp [h])
    have next : d ≠ '/' := fun h => slash (by simp [h])
    simp [head, other, next]

/-- Pieces that begin with one that counts are the pieces of their text. -/
theorem componentsOf_join {p : List Char} {ps : List (List Char)} (counts : idle p = false)
    (slash : ∀ q ∈ p :: ps, '/' ∉ q) :
    componentsOf (join (p :: ps)) = (p :: ps).filterMap componentOf := by
  have noHead : head (join (p :: ps)) = none := by
    have own := slash p List.mem_cons_self
    cases ps with
    | nil => simpa [join] using head_of_counting counts own []
    | cons q ps =>
      rw [join, List.intercalate_cons_cons, List.append_assoc]
      exact head_of_counting counts own _
  rw [componentsOf, pieces, noHead]
  simp [join, split_intercalate (List.cons_ne_nil p ps) slash]

theorem trimEnd_prefix (ps : List (List Char)) : trimEnd ps <+: ps := by
  have suffix := List.dropWhile_suffix idle (l := ps.reverse)
  simpa [trimEnd] using List.reverse_prefix.mpr suffix

/-- The text of pieces without the idle ones around them has the components of the pieces. -/
theorem componentsOf_trimmed (ps : List (List Char)) (slash : ∀ p ∈ ps, '/' ∉ p) :
    componentsOf (join (trimEnd (ps.dropWhile idle))) = ps.filterMap componentOf := by
  rw [← filterMap_dropWhile_idle, ← filterMap_trimEnd]
  have initial := trimEnd_prefix (ps.dropWhile idle)
  cases left : trimEnd (ps.dropWhile idle) with
  | nil => rfl
  | cons q qs =>
    rw [left] at initial
    have counts : idle q = false := by
      have first := List.head?_dropWhile_not idle ps
      obtain ⟨rest, whole⟩ := initial
      rwa [← whole] at first
    refine componentsOf_join counts fun r hr => ?_
    exact slash r ((List.dropWhile_sublist idle).subset (initial.subset hr))

/-- What is left of a path after some of its components has the others. -/
theorem componentsOf_afterComponents (n : Nat) (cs : List Char) :
    componentsOf (afterComponents (n + 1) cs) = (componentsOf cs).drop (n + 1) := by
  have dropped (k : Nat) :
      componentsOf (join (trimEnd ((afterCounting k (pieces cs)).dropWhile idle))) =
        ((pieces cs).filterMap componentOf).drop k := by
    rw [← filterMap_afterCounting]
    exact componentsOf_trimmed _ fun p hp => not_mem_of_mem_split (mem_afterCounting hp)
  rw [afterComponents]
  rw [dropped, componentsOf]
  cases head cs with
  | none => simp
  | some c => simp

theorem components_relativeTo {root path : String} (nonempty : components root ≠ [])
    (below : components root <+: components path) :
    components (relativeTo root path) = (components path).drop (components root).length := by
  obtain ⟨n, hn⟩ := Nat.exists_eq_succ_of_ne_zero fun h => nonempty (List.length_eq_zero_iff.mp h)
  have initial : (components root).isPrefixOf (components path) = true :=
    List.isPrefixOf_iff_prefix.mpr below
  rw [relativeTo, below?, if_pos initial, Option.getD_some, hn, components_eq, String.toList_ofList,
    componentsOf_afterComponents, components_eq]

/-- Where nothing stands before the body, the first piece counts. -/
theorem first_counts {cs : List Char} (start : head cs = none) (filled : cs ≠ []) :
    ∃ p ps, pieces cs = p :: ps ∧ idle p = false := by
  obtain ⟨c, cs, rfl⟩ := List.exists_cons_of_ne_nil filled
  have slash : c ≠ '/' := by
    rintro rfl
    simp [head] at start
  obtain ⟨piece, others, rest, whole⟩ := split_cons slash cs
  have dot : c :: piece ≠ ['.'] := by
    intro h
    obtain ⟨rfl, rfl⟩ := List.cons.inj h
    rcases cs with _ | ⟨d, cs⟩
    · simp [head] at start
    · by_cases next : d = '/'
      · simp [head, next] at start
      · obtain ⟨piece', _, _, whole'⟩ := split_cons next cs
        rw [whole'] at rest
        cases rest
  refine ⟨c :: piece, others, ?_, ?_⟩
  · simp [pieces, start, whole]
  · rw [idle, componentOf, if_neg (by simpa using dot)]
    split <;> rfl

theorem components_ne_nil {path : String} (nonempty : path ≠ "") : components path ≠ [] := by
  have chars : path.toList ≠ [] := fun h => nonempty (String.ext h)
  rw [components_eq, componentsOf]
  cases start : head path.toList with
  | some c => simp
  | none =>
    obtain ⟨p, ps, whole, counts⟩ := first_counts start chars
    obtain ⟨c, hc⟩ := Option.ne_none_iff_exists'.mp fun none =>
      Bool.false_ne_true (counts.symm.trans ((idle_iff p).mpr none))
    simp [whole, List.filterMap_cons_some hc]

theorem components_eq_nil_iff (path : String) : components path = [] ↔ path = "" := by
  constructor
  · intro none
    by_contra nonempty
    exact components_ne_nil nonempty none
  · rintro rfl
    exact components_empty

/-- Seen from the root, a path below it has the names that lead there. -/
theorem components_relativeTo_below {root : String} (nonempty : root ≠ "") {place : List String}
    (proper : ∀ name ∈ place, IsName name) :
    components (relativeTo root (place.foldl append root)) =
      place.map fun name => .normal name.toList := by
  have below := components_below nonempty proper
  rw [components_relativeTo (components_ne_nil nonempty) ⟨_, below.symm⟩, below, List.drop_left]

/-! ### The text below a root -/

/-- Each piece with a slash before it. -/
def slashed (ps : List (List Char)) : List Char := ps.flatMap ('/' :: ·)

theorem slashed_cons (p : List Char) (ps : List (List Char)) :
    slashed (p :: ps) = '/' :: (p ++ slashed ps) := rfl

theorem slashed_append (ps qs : List (List Char)) : slashed (ps ++ qs) = slashed ps ++ slashed qs :=
  List.flatMap_append

theorem slashed_eq_nil_iff (ps : List (List Char)) : slashed ps = [] ↔ ps = [] := by
  cases ps <;> simp [slashed]

theorem slash_join {ps : List (List Char)} (filled : ps ≠ []) : '/' :: join ps = slashed ps := by
  induction ps with
  | nil => exact absurd rfl filled
  | cons p ps ih =>
    cases ps with
    | nil => simp [join, slashed]
    | cons q ps =>
      rw [slashed_cons, ← ih (List.cons_ne_nil q ps), join, List.intercalate_cons_cons, ← join]
      simp

theorem not_slash_end {name : String} (proper : IsName name) : endsWith ['/'] name.toList = false := by
  rw [Bool.eq_false_iff, ne_eq, endsWith_iff]
  rintro ⟨init, whole⟩
  exact proper.slash (by simp [← whole])

/-- Behind a text that does not end in a slash, names follow with a slash before each. -/
theorem toList_below {root : String} (nonempty : root ≠ "") (ends : endsWith ['/'] root.toList = false)
    {place : List String} (proper : ∀ name ∈ place, IsName name) :
    (place.foldl append root).toList = root.toList ++ slashed (place.map String.toList) := by
  induction place generalizing root with
  | nil => simp [slashed]
  | cons name place ih =>
    obtain ⟨own, others⟩ := List.forall_mem_cons.mp proper
    have chars : name.toList ≠ [] := fun h => own.nonempty (String.ext h)
    have step : append root name = root ++ "/" ++ name := by
      simp [append, not_absolute_of_name own, nonempty, ends]
    have ends' : endsWith ['/'] (append root name).toList = false := by
      rw [step, String.toList_append, endsWith_slash_append _ chars, not_slash_end own]
    rw [List.foldl_cons, ih (append_ne_empty nonempty) ends' others, step, List.map_cons, slashed_cons]
    simp

theorem foldl_append_ne_empty {root : String} (nonempty : root ≠ "") (place : List String) :
    place.foldl append root ≠ "" := by
  induction place generalizing root with
  | nil => exact nonempty
  | cons name place ih => exact ih (append_ne_empty nonempty)

/-- The pieces of a path that goes on by names end with these. What is before them counts as the path
does. -/
theorem pieces_below {root : String} (nonempty : root ≠ "") {place : List String}
    (proper : ∀ name ∈ place, IsName name) :
    ∃ front, pieces (place.foldl append root).toList = front ++ place.map String.toList ∧
      front.filterMap componentOf = (pieces root.toList).filterMap componentOf := by
  induction place using List.reverseRecOn with
  | nil => exact ⟨pieces root.toList, by simp, rfl⟩
  | append_singleton place name ih =>
    obtain ⟨front, whole, counted⟩ := ih fun n hn => proper n (List.mem_append_left _ hn)
    have own := proper name (List.mem_append_right _ List.mem_cons_self)
    obtain ⟨ps, ends, same⟩ := pieces_append (foldl_append_ne_empty nonempty place) own
    rw [List.foldl_append, List.foldl_cons, List.foldl_nil, ends, List.map_append, List.map_singleton]
    rw [whole] at same
    rcases same with same | same
    · exact ⟨front, by rw [← same, List.append_assoc], counted⟩
    · -- Only the root can end in a slash.
      rcases List.eq_nil_or_concat place with rfl | ⟨init, last, rfl⟩
      · rw [List.map_nil, List.append_nil] at same
        rw [same, List.filterMap_append] at counted
        exact ⟨ps, by simp, by simpa [componentOf] using counted⟩
      · rw [List.concat_eq_append, List.map_append, ← List.append_assoc] at same
        have empty := (List.append_inj' same rfl).2
        have last := (proper last (by simp)).nonempty
        exact absurd (String.ext (by simpa using empty)) last

theorem afterCounting_append (front ps : List (List Char)) :
    (afterCounting (front.filterMap componentOf).length (front ++ ps)).dropWhile idle =
      ps.dropWhile idle := by
  induction front with
  | nil => rw [List.filterMap_nil, List.length_nil, afterCounting, List.nil_append]
  | cons p front ih =>
    by_cases empty : idle p = true
    · rw [List.filterMap_cons_none ((idle_iff p).mp empty)]
      cases count : (front.filterMap componentOf).length with
      | zero =>
        rw [count, afterCounting] at ih
        rw [afterCounting, List.cons_append, List.dropWhile_cons_of_pos empty, ih]
      | succ n => rw [List.cons_append, afterCounting, if_pos empty, ← count, ih]
    · obtain ⟨c, hc⟩ := Option.ne_none_iff_exists'.mp fun none => empty ((idle_iff p).mpr none)
      rw [List.filterMap_cons_some hc, List.length_cons, List.cons_append, afterCounting, if_neg empty,
        ih]

theorem dropWhile_of_counting {ps : List (List Char)} (counting : ∀ p ∈ ps, idle p = false) :
    ps.dropWhile idle = ps := by
  cases ps with
  | nil => rfl
  | cons p ps => exact List.dropWhile_cons_of_neg (by simp [counting p List.mem_cons_self])

theorem trimEnd_of_counting {ps : List (List Char)} (counting : ∀ p ∈ ps, idle p = false) :
    trimEnd ps = ps := by
  have turned : ∀ p ∈ ps.reverse, idle p = false := fun p hp => counting p (List.mem_reverse.mp hp)
  rw [trimEnd, dropWhile_of_counting turned, List.reverse_reverse]

theorem counting_of_names {place : List String} (proper : ∀ name ∈ place, IsName name) :
    ∀ p ∈ place.map String.toList, idle p = false := by
  intro p member
  obtain ⟨name, there, rfl⟩ := List.mem_map.mp member
  simp [idle, componentOf_name (proper name there)]

/-- Seen from nowhere, names with slashes between them are kept. -/
theorem relativeTo_empty {place : List String} (proper : ∀ name ∈ place, IsName name) :
    relativeTo "" (place.foldl append "") = .ofList (join (place.map String.toList)) := by
  cases place with
  | nil => rfl
  | cons name place =>
    obtain ⟨own, others⟩ := List.forall_mem_cons.mp proper
    have counting := counting_of_names proper
    have slash : ∀ p ∈ (name :: place).map String.toList, '/' ∉ p := by
      intro p member
      obtain ⟨n, there, rfl⟩ := List.mem_map.mp member
      exact (proper n there).slash
    have text : ((name :: place).foldl append "").toList =
        name.toList ++ slashed (place.map String.toList) := by
      have first : append "" name = name := by simp [append]
      rw [List.foldl_cons, first, toList_below own.nonempty (not_slash_end own) others]
    have joined : name.toList ++ slashed (place.map String.toList) =
        join ((name :: place).map String.toList) :=
      (List.cons.inj (slash_join (List.cons_ne_nil _ _))).2.symm
    have start : head (name.toList ++ slashed (place.map String.toList)) = none :=
      head_of_counting (counting _ List.mem_cons_self) own.slash _
    have whole : pieces (name.toList ++ slashed (place.map String.toList)) =
        (name :: place).map String.toList := by
      rw [pieces, start, joined]
      exact split_intercalate (List.cons_ne_nil _ _) slash
    rw [relativeTo, below?, components_empty, List.isPrefixOf_nil_left, if_pos rfl, Option.getD_some, text,
      List.length_nil, afterComponents, start, whole, trimEnd_of_counting counting]
    rfl

/-- What is left of a path are the pieces behind those that count as the pieces of the root do. -/
theorem relativeTo_behind {root path : String} (nonempty : root ≠ "") {front rest : List (List Char)}
    (start : head path.toList = head root.toList) (whole : pieces path.toList = front ++ rest)
    (counted : front.filterMap componentOf = (pieces root.toList).filterMap componentOf) :
    relativeTo root path = .ofList (join (trimEnd (rest.dropWhile idle))) := by
  have split : components path = components root ++ rest.filterMap componentOf := by
    rw [components_eq, components_eq, componentsOf, componentsOf, start, whole, List.filterMap_append,
      counted, List.append_assoc]
  have initial : (components root).isPrefixOf (components path) = true :=
    List.isPrefixOf_iff_prefix.mpr ⟨_, split.symm⟩
  have count : (components root).length =
      (head root.toList).toList.length + (front.filterMap componentOf).length := by
    rw [counted, components_eq, componentsOf, List.length_append]
  obtain ⟨n, long⟩ := Nat.exists_eq_succ_of_ne_zero fun none =>
    components_ne_nil nonempty (List.length_eq_zero_iff.mp none)
  have behind : (if (head path.toList).isSome then n else n + 1) =
      (front.filterMap componentOf).length := by
    rw [start]
    rw [long] at count
    cases own : head root.toList with
    | none =>
      rw [own, Option.toList_none, List.length_nil, Nat.zero_add] at count
      exact count
    | some c =>
      rw [own, Option.toList_some, List.length_singleton, Nat.add_comm] at count
      exact Nat.succ.inj count
  rw [relativeTo, below?, if_pos initial, Option.getD_some, long, afterComponents]
  rw [behind, whole, afterCounting_append]

/-- Seen from the root, a path below it is the names that lead there, with slashes between them. -/
theorem relativeTo_below (root : String) {place : List String} (proper : ∀ name ∈ place, IsName name) :
    relativeTo root (place.foldl append root) = .ofList (join (place.map String.toList)) := by
  by_cases empty : root = ""
  · rw [empty, relativeTo_empty proper]
  have nonempty : root ≠ "" := empty
  have below := components_below nonempty proper
  obtain ⟨front, whole, counted⟩ := pieces_below nonempty proper
  -- Before the pieces stands what stands before those of the root.
  have start : head (place.foldl append root).toList = head root.toList := by
    have names : (place.map String.toList).filterMap componentOf =
        place.map fun name => .normal name.toList := by
      rw [List.filterMap_map]
      exact List.filterMap_eq_map_iff_forall_eq_some.mpr fun n hn => componentOf_name (proper n hn)
    rw [components_eq, components_eq, componentsOf, componentsOf, whole, List.filterMap_append, names,
      counted, ← List.append_assoc] at below
    have same := List.append_cancel_right (List.append_cancel_right below)
    simpa using congrArg List.head? same
  have counting := counting_of_names proper
  rw [relativeTo_behind nonempty start whole counted, dropWhile_of_counting counting,
    trimEnd_of_counting counting]

/-! ### Paths that only lead down -/

/-- The path has components, and all of them are names. -/
structure Descends (path : String) : Prop where
  nonempty : components path ≠ []
  normal : ∀ c ∈ components path, ∃ name, c = .normal name

theorem descends_of_names {path : String} {names : List (List Char)} (filled : names ≠ [])
    (same : components path = names.map .normal) : Descends path := by
  constructor
  · simpa [same] using filled
  · intro c member
    rw [same] at member
    obtain ⟨name, -, rfl⟩ := List.mem_map.mp member
    exact ⟨name, rfl⟩

/-- The path without slashes and dots at its end. -/
def tidy (path : String) : String := .ofList (join (trimEnd (pieces path.toList)))

namespace Descends

variable {path : String} (down : Descends path)
include down

theorem head_eq : head path.toList = none := by
  cases start : head path.toList with
  | none => rfl
  | some c =>
    obtain ⟨name, rfl⟩ := down.normal c (by simp [components_eq, componentsOf, start])
    unfold head at start
    split at start <;> cases start

theorem relative : isAbsolute path = false := by
  rw [isAbsolute, down.head_eq]
  rfl

theorem chars : path.toList ≠ [] := by
  intro empty
  exact down.nonempty (by rw [components_eq, empty]; rfl)

theorem pieces_eq : pieces path.toList = split '/' path.toList := by simp [pieces, down.head_eq]

theorem dropWhile_pieces : (pieces path.toList).dropWhile idle = pieces path.toList := by
  obtain ⟨p, ps, whole, counts⟩ := first_counts down.head_eq down.chars
  rw [whole, List.dropWhile_cons_of_neg (by simp [counts])]

theorem components_tidy : components (tidy path) = components path := by
  have trimmed := componentsOf_trimmed (pieces path.toList) fun p hp => by
    rw [down.pieces_eq] at hp
    exact not_mem_of_mem_split hp
  rw [down.dropWhile_pieces] at trimmed
  rw [components_eq, tidy, String.toList_ofList, trimmed, components_eq, componentsOf, down.head_eq]
  rfl

theorem tidied : Descends (tidy path) := by
  constructor
  · rw [down.components_tidy]
    exact down.nonempty
  · rw [down.components_tidy]
    exact down.normal

/-- Its pieces stand behind those of a path that it is read in. -/
theorem pieces_append {base : String} (nonempty : base ≠ "") :
    ∃ front, pieces (append base path).toList = front ++ pieces path.toList ∧
      front.filterMap componentOf = (pieces base.toList).filterMap componentOf ∧
      head (append base path).toList = head base.toList := by
  have chars : base.toList ≠ [] := fun h => nonempty (String.ext h)
  rw [append_eq_lead, down.relative, String.toList_append, down.pieces_eq]
  by_cases slashed : endsWith ['/'] base.toList = true
  · obtain ⟨init, whole⟩ := (endsWith_iff _ _).mp slashed
    have lead : (lead false base).toList = init ++ ['/'] := by simp [lead, nonempty, slashed, whole]
    rw [lead, ← whole, List.append_assoc, List.singleton_append]
    by_cases root : init = []
    · exact ⟨[], by simp [root, pieces, head], by simp [root, pieces, head, split, componentOf],
        by simp [root, head]⟩
    · refine ⟨pieces init, pieces_append_slash root _, ?_, ?_⟩
      · rw [pieces_append_slash root]
        simp [split, componentOf]
      · rw [head_append_slash root, head_append_slash root]
  · have lead : (lead false base).toList = base.toList ++ ['/'] := by simp [lead, nonempty, slashed]
    rw [lead, List.append_assoc, List.singleton_append]
    exact ⟨pieces base.toList, pieces_append_slash chars _, rfl, head_append_slash chars _⟩

/-- Seen from the root, it stays what it is, wherever the root lies. -/
theorem relativeTo_append (root : String) : relativeTo root (append root path) = tidy path := by
  by_cases empty : root = ""
  · rw [empty, relativeTo, below?, components_empty, List.isPrefixOf_nil_left, if_pos rfl,
      Option.getD_some, append_eq_lead, down.relative, List.length_nil, afterComponents]
    have none : lead false "" = "" := rfl
    rw [none, String.empty_append, down.head_eq]
    rfl
  · obtain ⟨front, whole, counted, start⟩ := down.pieces_append empty
    rw [relativeTo_behind empty start whole counted, down.dropWhile_pieces, tidy]

end Descends

theorem fileName_of_components {path : String} {place : List String}
    (names : components path = place.map fun name => .normal name.toList) :
    fileName? path = place.getLast?.map String.toList := by
  rw [fileName?, names, List.getLast?_map]
  cases place.getLast? <;> rfl

/-! ### The order of paths -/

theorem key_injective : Function.Injective Component.key := by
  intro a b same
  cases a with
  | normal name =>
    cases b with
    | normal name' =>
      have names := (List.cons.inj same).2
      rw [List.map_inj_right fun _ _ => Char.toNat_inj.mp] at names
      rw [names]
    | _ => simp [Component.key] at same
  | _ => cases b <;> simp [Component.key] at same ⊢

theorem compare_eq_iff (a b : String) : Path.compare a b = .eq ↔ components a = components b := by
  rw [Path.compare, Std.compare_eq_iff_eq, (List.map_injective_iff.mpr key_injective).eq_iff]

instance : Std.TransCmp Path.compare :=
  inferInstanceAs (Std.TransCmp (compareOn fun path => (components path).map Component.key))

theorem compare_append (common xs ys : List (List Nat)) :
    Ord.compare (common ++ xs) (common ++ ys) = Ord.compare xs ys := by
  induction common with
  | nil => rfl
  | cons c common ih => simp [List.compare_cons_cons, ih]

/-- Going below the root does not change the order. -/
theorem compare_relativeTo {root a b : String} (nonempty : root ≠ "")
    (below : components root <+: components a) (below' : components root <+: components b) :
    Path.compare (relativeTo root a) (relativeTo root b) = Path.compare a b := by
  have some := components_ne_nil nonempty
  obtain ⟨rest, whole⟩ := below
  obtain ⟨rest', whole'⟩ := below'
  rw [Path.compare, Path.compare, components_relativeTo some ⟨rest, whole⟩,
    components_relativeTo some ⟨rest', whole'⟩, ← whole, ← whole']
  simp only [List.drop_left, List.map_append, compare_append]

end Path
end SwitchLint
