import JassOutline.Toml.Value

/-!
# Taking values out of a table

A program that reads a table knows its keys and the kinds of their values. A table that holds
another key or a value of another kind is rejected, and so is nothing else.
-/

namespace JassOutline.Toml

/-- The entries of a table. -/
abbrev Table := List (String × Value)

namespace Table

/-- Whether every key of the table is one of the given ones. -/
def hasOnly (keys : List String) (table : Table) : Bool :=
  table.all fun (key, _) => keys.contains key

/-- The value of a key that may be missing. It is rejected if the reader does. -/
def optional? (table : Table) (key : String) (read : Value → Option α) : Option (Option α) :=
  match table.lookup key with
  | none => some none
  | some value => (read value).map some

/-- The value of a key that has to be there. -/
def required? (table : Table) (key : String) (read : Value → Option α) : Option α :=
  (table.lookup key).bind read

end Table

end JassOutline.Toml
