import SwitchLint.Toml.Scanning
import SwitchLint.Toml.Value

/-!
What a TOML document is made of while it is read: values and tables with the places where they stand, and
how keys and headers put them together. A table is implicit as long as it is only led through, and
dotted if dotted keys made it.
-/

namespace SwitchLint.Toml

/-- A key and where it stands. -/
structure Key where
  name : String
  extent : Extent
  deriving DecidableEq, Repr, Inhabited

/-- How a table came to be. -/
structure TableHead where
  isInline : Bool := false
  implicit : Bool := false
  dotted : Bool := false
  extent : Option Extent := none
  deriving DecidableEq, Repr, Inhabited

/-- A value or table of a document. The entries of a table stand in the order in which they came. -/
inductive Item where
  | string (text : String) (extent : Extent)
  | integer (value : Int) (extent : Extent)
  | float (bits : UInt64) (extent : Extent)
  | boolean (value : Bool) (extent : Extent)
  | datetime (text : String) (extent : Extent)
  | array (items : List Item) (extent : Extent)
  | table (head : TableHead) (entries : List (Key × Item))
  /-- Tables with headers in double brackets, the latest last. -/
  | tables (items : List Item)
  deriving Inhabited

abbrev Entries := List (Key × Item)

namespace Entries

def get? (es : Entries) (name : String) : Option Item :=
  (List.find? (fun e => e.1.name == name) es).map (·.2)

/-- Puts the item in place of the one with that name, or at the end. -/
def set (es : Entries) (key : Key) (item : Item) : Entries :=
  if List.any es fun e => e.1.name == key.name then
    List.map (fun e => if e.1.name == key.name then (e.1, item) else e) es
  else es ++ [(key, item)]

def erase (es : Entries) (name : String) : Entries := List.filter (fun e => e.1.name != name) es

end Entries

namespace Item

/-- What an item is called in messages. -/
def typeName : Item → String
  | string _ _ => "string"
  | integer _ _ => "integer"
  | float _ _ => "float"
  | boolean _ _ => "boolean"
  | datetime _ _ => "datetime"
  | array _ _ => "array"
  | table head _ => if head.isInline then "inline table" else "table"
  | tables _ => "array of tables"

/-- Where the item stands; a table without a header of its own stands nowhere. -/
def extent? : Item → Option Extent
  | string _ e => some e
  | integer _ e => some e
  | float _ e => some e
  | boolean _ e => some e
  | datetime _ e => some e
  | array _ e => some e
  | table head _ => head.extent
  | tables items =>
    match items.head?, items.getLast? with
    | some (table first _), some (table last _) => do
      pure ⟨(← first.extent).start, (← last.extent).stop⟩
    | _, _ => none

mutual

/-- The value alone. -/
def toToml : Item → Toml
  | string s _ => .string s
  | integer i _ => .integer i
  | float bits _ => .float bits
  | boolean b _ => .boolean b
  | datetime s _ => .datetime s
  | array items _ => .array (toTomlAll items)
  | table _ entries => .table (toTomlEntries entries)
  | tables items => .array (toTomlAll items)

def toTomlAll : List Item → List Toml
  | [] => []
  | i :: is => toToml i :: toTomlAll is

def toTomlEntries : List (Key × Item) → List (String × Toml)
  | [] => []
  | (k, i) :: es => (k.name, toToml i) :: toTomlEntries es

end

end Item

/-! ### Keys in messages -/

/-- May the character stand in a key without quotes? -/
def inBareKey (c : Char) : Bool := c.isAlphanum || c == '-' || c == '_'

/-- A character between double quotes, escaped if need be. -/
def basicChar (c : Char) : String :=
  match c with
  | '\x08' => "\\b"
  | '\t' => "\\t"
  | '\n' => "\\n"
  | '\x0c' => "\\f"
  | '\r' => "\\r"
  | '\x22' => "\\\x22"
  | '\\' => "\\\\"
  | c =>
    if c.toNat < 0x20 || c.toNat == 0x7f then
      let ds := (Nat.toDigits 16 c.toNat).map Char.toUpper
      "\\u" ++ String.ofList (List.replicate (4 - ds.length) '0' ++ ds)
    else c.toString

/-- A key as it could be written: bare if possible, else in the quotes that need no escapes. -/
def writtenKey (name : String) : String :=
  let cs := name.toList
  let controls := cs.any fun c => (c.toNat < 0x20 && c != '\t') || c.toNat == 0x7f
  if cs ≠ [] && cs.all inBareKey then name
  else if !controls && !cs.contains '\\' && !cs.contains '\x22' then s!"\x22{name}\x22"
  else if !controls && !cs.contains '\x27' then s!"\x27{name}\x27"
  else "\x22" ++ String.join (cs.map basicChar) ++ "\x22"

/-! ### Paths of keys -/

/-- A table that a path leads through before anything is known of it. -/
def ledThrough (isInline dotted : Bool) : TableHead :=
  { isInline, implicit := if isInline then dotted else true, dotted }

/-- Applies `f` to the table that the path leads to, and makes the tables on the way that do not exist.
`passed` are the names before the path. Of tables in double brackets the latest is meant; a dotted key
may not lead through a table that has its own header. -/
def updateAt (isInline dotted : Bool)
    (f : TableHead → Entries → Except Cause (TableHead × Entries)) (passed : List String) :
    List Key → TableHead → Entries → Except Cause (TableHead × Entries)
  | [], head, es => f head es
  | k :: ks, head, es =>
    let path := passed ++ [k.name]
    match es.get? k.name with
    | none => do
      let (h, inner) ← updateAt isInline dotted f path ks (ledThrough isInline dotted) []
      pure (head, es.set k (.table h inner))
    | some (.table h inner) =>
      if h.isInline && !isInline then .error (.extendsValue path "inline table")
      else if dotted && !h.implicit then .error (.duplicateKey k.name none)
      else do
        let (h', inner') ← updateAt isInline dotted f path ks h inner
        pure (head, es.set k (.table h' inner'))
    | some (.tables items) =>
      match items.getLast? with
      | some (.table h inner) => do
        let (h', inner') ← updateAt isInline dotted f path ks h inner
        pure (head, es.set k (.tables (items.dropLast ++ [.table h' inner'])))
      | _ => .ok (head, es)
    | some item => .error (.extendsValue path item.typeName)

/-- Adds an entry to a table, whose header is `header`, if that is known. Dotted keys add to tables that
dotted keys made, and to no others. -/
def addEntry (header : Option (List String)) (viaPath : Bool) (key : Key) (item : Item)
    (head : TableHead) (es : Entries) : Except Cause (TableHead × Entries) :=
  if head.dotted != viaPath then .error (.duplicateKey key.name none)
  else if (es.get? key.name).isSome then .error (.duplicateKey key.name header)
  else .ok (head, es ++ [(key, item)])

/-- An inline table from its keys and values in order. -/
def inlineTable (pairs : List (List Key × Key × Item)) : Except Cause Entries := do
  let (_, es) ← pairs.foldlM
    (fun (head, es) (path, key, item) =>
      updateAt true (!path.isEmpty) (addEntry none (!path.isEmpty) key item) [] path head es)
    (({ isInline := true } : TableHead), ([] : Entries))
  pure es

/-! ### Documents -/

/-- A document as far as it is read: all finished tables, and the table that keys are now added to. -/
structure Draft where
  root : Entries := []
  /-- The header of the present table. -/
  path : List Key := []
  /-- Does the header stand in double brackets? -/
  isArray : Bool := false
  head : TableHead := {}
  entries : Entries := []
  deriving Inhabited

namespace Draft

def pathNames (path : List Key) : List String := path.map Key.name

/-- The error that the last key of a header is taken. -/
def taken (path : List Key) : Cause :=
  .duplicateKey (writtenKey ((path.getLast?.map Key.name).getD ""))
    (some (pathNames path.dropLast))

/-- Runs `f` on the table that holds the last key of a header. -/
def atParent (root : Entries) (path : List Key) (f : Key → Entries → Except Cause Entries) :
    Except Cause Entries := do
  match path.getLast? with
  | none => pure root
  | some key =>
    let (_, root') ← updateAt false false
      (fun head es => do pure (head, ← f key es)) [] path.dropLast ({} : TableHead) root
    pure root'

/-- Puts the present table in its place. -/
def finish (d : Draft) : Except Cause Draft := do
  let present := Item.table d.head d.entries
  let root ←
    if d.path.isEmpty then pure d.entries
    else
      atParent d.root d.path fun key es =>
        match d.isArray, es.get? key.name with
        | true, none => .ok (es.set key (.tables [present]))
        | true, some (.tables items) => .ok (es.set key (.tables (items ++ [present])))
        | false, none => .ok (es.set key present)
        | false, some (.table h _) =>
          if h.implicit then .ok (es.set key present) else .error (taken d.path)
        | _, _ => .error (taken d.path)
  pure { root }

/-- Adds a key and its value to the present table. -/
def addPair (d : Draft) (path : List Key) (key : Key) (item : Item) : Except Cause Draft := do
  let extent : Option Extent := do
    pure ⟨(← d.head.extent).start, (← item.extent?).stop⟩
  let head := { d.head with extent := extent.orElse fun _ => d.head.extent }
  let (head, entries) ← updateAt false (!path.isEmpty)
    (addEntry (some (pathNames d.path)) (!path.isEmpty) key item) [] path head d.entries
  pure { d with head, entries }

/-- The entries of the table that a path leads to. -/
def entriesAt : List Key → Entries → Option Entries
  | [], es => some es
  | k :: ks, es =>
    match es.get? k.name with
    | some (.table _ inner) => entriesAt ks inner
    | some (.tables items) =>
      match items.getLast? with
      | some (.table _ inner) => entriesAt ks inner
      | _ => none
    | _ => none

/-- The entries that a table has before its header comes: those of a table that was only led through. -/
def inherited (root : Entries) (path : List Key) : Entries :=
  match path.getLast?.bind fun key => (entriesAt path.dropLast root).bind (·.get? key.name) with
  | some (.table _ inner) => inner
  | _ => []

/-- Begins the table of a header in single brackets. -/
def beginTable (d : Draft) (path : List Key) (extent : Extent) : Except Cause Draft := do
  let d ← d.finish
  let entries := inherited d.root path
  let root ← atParent d.root path fun key es =>
    match es.get? key.name with
    | none => .ok es
    | some (.table h _) =>
      if h.implicit && !h.dotted then .ok (es.erase key.name) else .error (taken path)
    | some _ => .error (taken path)
  pure { root, path, entries, head := { extent := some extent } }

/-- Begins a table of a header in double brackets. -/
def beginArrayTable (d : Draft) (path : List Key) (extent : Extent) : Except Cause Draft := do
  let d ← d.finish
  let root ← atParent d.root path fun key es =>
    match es.get? key.name with
    | none => .ok es
    | some (.tables _) => .ok es
    | some _ => .error (taken path)
  pure { root, path, isArray := true, head := { extent := some extent } }

end Draft

end SwitchLint.Toml
