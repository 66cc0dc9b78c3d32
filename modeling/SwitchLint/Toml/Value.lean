/-!
The values of TOML.
-/

namespace SwitchLint

/-- A value of TOML. A floating-point number is held as the bits of an IEEE double, and a date or time
as the text in which it is shown. Entries of a table stand in the order of their keys. -/
inductive Toml where
  | string (text : String)
  | integer (value : Int)
  | float (bits : UInt64)
  | boolean (value : Bool)
  | datetime (text : String)
  | array (values : List Toml)
  | table (entries : List (String × Toml))
  deriving Inhabited

namespace Toml

def asInteger : Toml → Option Int
  | integer i => some i
  | _ => none

def asBoolean : Toml → Option Bool
  | boolean b => some b
  | _ => none

end Toml

end SwitchLint
