import SwitchLint.Config.Basic
import SwitchLint.Decimal.Shortest
import SwitchLint.Json.Decoding
import SwitchLint.Toml.Item

/-!
Settings from the entries of a TOML document. Unknown keys count for nothing, except among the settings
of a rule, where they are its options.
-/

namespace SwitchLint

/-- How a value is not what a setting needs. -/
inductive Mismatch where
  | wrongType (found expected : String)
  | unknownVariant (word : String)
  | noStringOrTable
  | noElement
  | severalElements
  | elementsInArray
  | elementsInTable
  | noTable (type : String)
  deriving DecidableEq, Repr

def Mismatch.message : Mismatch → String
  | wrongType found expected => s!"invalid type: {found}, expected {expected}"
  | unknownVariant word =>
    (ShapeError.unknownVariant word ["info", "warning", "error"]).message
  | noStringOrTable => "wanted string or table"
  | noElement => "wanted exactly 1 element, found 0 elements"
  | severalElements => "wanted exactly 1 element, more than 1 element"
  | elementsInArray => "expected empty array"
  | elementsInTable => "expected empty table"
  | noTable type => s!"expected table, found {type}"

/-- A value that is not what a setting needs, and where it stands. -/
structure Misfit where
  mismatch : Mismatch
  extent : Option Toml.Extent
  deriving Repr

namespace Toml.Item

/-- A value as error messages mention it. -/
def mention : Item → String
  | string s _ => s!"string {Text.quoted s}"
  | integer i _ => s!"integer \x60{i}\x60"
  | float bits _ => s!"floating point \x60{Decimal.text bits}\x60"
  | boolean b _ => s!"boolean \x60{b}\x60"
  | datetime _ _ => "map"
  | array _ _ => "sequence"
  | table _ _ => "map"
  | tables _ => "sequence"

/-- The key under which a date or time stands where it is taken for a table. -/
def datetimeKey : String := "$__toml_private_datetime"

/-- The entries of a table. A date or time counts as a table with its text as the only entry. -/
def asEntries? : Item → Option Entries
  | table _ es => some es
  | datetime s e => some [(⟨datetimeKey, e⟩, string s e)]
  | _ => none

def asList? : Item → Option (List Item)
  | array items _ => some items
  | tables items => some items
  | _ => none

end Toml.Item

namespace Config

open Toml

/-- Decoding of a value at a place. -/
abbrev Decoded (α : Type) := Except Misfit α

/-- A misfit that has no place yet stands there. -/
def orAt {α : Type} (extent : Option Extent) (r : Decoded α) : Decoded α :=
  match r with
  | .ok a => .ok a
  | .error m => .error { m with extent := m.extent.orElse fun _ => extent }

/-- The value is no `expected`. -/
def reject {α : Type} (expected : String) (item : Item) : Decoded α :=
  .error ⟨.wrongType item.mention expected, item.extent?⟩

def toText (expected : String) : Item → Decoded String
  | .string s _ => .ok s
  | item => reject expected item

def toBoolean : Item → Decoded Bool
  | .boolean b _ => .ok b
  | item => reject "a boolean" item

def toTexts (item : Item) : Decoded (List String) :=
  match item.asList? with
  | some items => items.mapM (toText "a string")
  | none => reject "a sequence" item

def severityNamed (word : String) (extent : Option Extent) : Decoded Severity :=
  match Severity.ofName? word with
  | some s => .ok s
  | none => .error ⟨.unknownVariant word, extent⟩

/-- Nothing: an empty table or array. -/
def toNothing : Item → Decoded Unit
  | .tables [] => .ok ()
  | .tables items => .error ⟨.elementsInArray, (Item.tables items).extent?⟩
  | .array [] _ => .ok ()
  | .array _ e => .error ⟨.elementsInTable, some e⟩
  | .table _ [] => .ok ()
  | .table head _ => .error ⟨.elementsInTable, head.extent⟩
  | item => .error ⟨.noTable item.typeName, item.extent?⟩

/-- The name of a severity, or a table that has the name as its only key, with nothing under it. -/
def toSeverity : Item → Decoded Severity
  | .string word e => severityNamed word (some e)
  | .table head [] => .error ⟨.noElement, head.extent⟩
  | .table head [(key, item)] => orAt head.extent do
    let s ← severityNamed key.name (some key.extent)
    toNothing item
    pure s
  | .table head _ => .error ⟨.severalElements, head.extent⟩
  | item => .error ⟨.noStringOrTable, item.extent?⟩

/-- Decodes entries in order; a misfit without a place stands at the value, or at the key. -/
def foldEntries {σ : Type} (set : σ → String → Item → Decoded σ) (start : σ) (es : Entries) :
    Decoded σ :=
  es.foldlM (fun s (key, item) => orAt (some key.extent) (orAt item.extent? (set s key.name item)))
    start

/-! ### Settings -/

/-- Where a table of settings is given without a key, that key has this value. -/
def emptyScope : Scope := { Scope.default with exclude := [] }

def setScope (scope : Scope) (key : String) (item : Item) : Decoded Scope :=
  match key with
  | "root" => return { scope with root := ← toText "path string" item }
  | "exclude" => return { scope with exclude := ← toTexts item }
  | "respect_gitignore" => return { scope with respectGitignore := ← toBoolean item }
  | _ => pure scope

/-- A table, or an array of the settings in order. -/
def toScope (item : Item) : Decoded Scope :=
  match item.asEntries?, item.asList? with
  | some es, _ => foldEntries setScope emptyScope es
  | none, some items =>
    (["root", "exclude", "respect_gitignore"].zip items).foldlM
      (fun s (key, item) => setScope s key item) emptyScope
  | none, none => reject "struct AnalyzerConfig" item

def setRule (c : RuleConfig) (key : String) (item : Item) : Decoded RuleConfig :=
  match key with
  | "enabled" => return { c with enabled := some (← toBoolean item) }
  | "severity" => return { c with severity := some (← toSeverity item) }
  | _ => return { c with options := c.options ++ [(key, item.toToml)] }

def toRule (item : Item) : Decoded RuleConfig :=
  match item.asEntries? with
  | some es => foldEntries setRule {} es
  | none => reject "struct RuleConfig" item

def toRules (item : Item) : Decoded (List (String × RuleConfig)) :=
  match item.asEntries? with
  | some es => foldEntries (fun rules name item => do pure (rules ++ [(name, ← toRule item)])) [] es
  | none => reject "a map" item

def setConfig (c : Config) (key : String) (item : Item) : Decoded Config :=
  match key with
  | "fail_on" => return { c with failOn := some (← toSeverity item) }
  | "analyzer" => return { c with scope := ← toScope item }
  | "rules" => return { c with rules := ← toRules item }
  | _ => pure c

/-- The settings of a document. -/
def ofEntries (es : Entries) : Decoded Config := foldEntries setConfig {} es

end Config

end SwitchLint
