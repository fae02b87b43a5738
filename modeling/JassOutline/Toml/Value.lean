/-!
# Values of a TOML text

A TOML text holds a table: keys with values, which are scalars, arrays and tables again. Floating
numbers and moments of time are kept as they are written.
-/

namespace JassOutline.Toml

/-- A value. The keys of a table are kept in the order of the text. -/
inductive Value where
  | text (value : String)
  | integer (value : Int)
  | float (written : String)
  | boolean (value : Bool)
  | moment (written : String)
  | array (elements : List Value)
  | table (entries : List (String × Value))
  deriving Repr, Inhabited

namespace Value

/-- The text, if the value is one. -/
def asText? : Value → Option String
  | text value => some value
  | _ => none

/-- The truth value, if the value is one. -/
def asBoolean? : Value → Option Bool
  | boolean value => some value
  | _ => none

/-- The number, if the value is a whole number that is not negative. -/
def asNat? : Value → Option Nat
  | integer (.ofNat value) => some value
  | _ => none

/-- The texts of an array that holds texts only. -/
def asTexts? : Value → Option (List String)
  | array elements => elements.mapM asText?
  | _ => none

end Value

end JassOutline.Toml
