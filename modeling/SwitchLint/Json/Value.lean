/-!
JSON values and their text.
-/

namespace SwitchLint

/-- A JSON value. A number with a fraction is held as the bits of an IEEE double; the entries of an
object keep their order. -/
inductive JsonValue where
  | null
  | boolean (value : Bool)
  | integer (value : Int)
  | float (bits : UInt64)
  | string (text : String)
  | array (values : List JsonValue)
  | object (entries : List (String × JsonValue))
  deriving Inhabited

end SwitchLint
