import JassOutline.Toml.Value

/-!
# Tables under construction

The lines of a TOML text build its table step by step. How a table came about decides what may
still be added to it: a table with a header of its own cannot be opened again, and a dotted key
adds only to tables that dotted keys have made.
-/

namespace JassOutline.Toml

/-- How a table came about. -/
inductive Origin where
  /-- By a header of its own, or as the whole text. -/
  | header
  /-- By a header of a table inside of it. -/
  | implied
  /-- By a dotted key. -/
  | dotted
  deriving DecidableEq, Repr

/-- What a key stands for while the text is read. -/
inductive Item where
  | value (v : Value)
  | table (origin : Origin) (entries : List (String × Item))
  /-- Tables with one header each, last one first. -/
  | tables (elements : List (List (String × Item)))
  deriving Repr

namespace Item

/-- The keys of a table and what they stand for. -/
abbrev Entries := List (String × Item)

/-- The entries with another item for the key. A new key comes last. -/
def put (key : String) (item : Item) : Entries → Entries
  | [] => [(key, item)]
  | (other, old) :: rest =>
    if other = key then (key, item) :: rest else (other, old) :: put key item rest

/-- Changes the entries at the end of a path. Missing tables on the way are made. -/
def change (byDottedKey : Bool) (f : Origin → Entries → Option Entries) (path : List String)
    (origin : Origin) (entries : Entries) : Option Entries :=
  match path with
  | [] => f origin entries
  | key :: path =>
    match entries.lookup key with
    | none =>
      let made := if byDottedKey then Origin.dotted else Origin.implied
      (change byDottedKey f path made []).map fun inner => put key (.table made inner) entries
    | some (.value _) => none
    | some (.table origin inner) =>
      if byDottedKey ∧ origin = .header then none
      else
        (change byDottedKey f path origin inner).map fun inner =>
          put key (.table origin inner) entries
    | some (.tables []) => none
    | some (.tables (last :: others)) =>
      (change byDottedKey f path .header last).map fun last =>
        put key (.tables (last :: others)) entries

/-- Adds a key with a value. The path leads from the table to the one that takes the key. -/
def assign (path : List String) (key : String) (value : Value) (entries : Entries) :
    Option Entries :=
  change true
    (fun origin inner =>
      if (origin == .dotted) == path.isEmpty then none
      else if (inner.lookup key).isSome then none
      else some (put key (.value value) inner))
    path .header entries

/-- Adds a key with a value below the last opened header. -/
def assignBelow (header : List String) (path : List String) (key : String) (value : Value)
    (entries : Entries) : Option Entries :=
  change false (fun _ inner => assign path key value inner) header .header entries

/-- Opens the table of a header. -/
def openTable (path : List String) (key : String) (entries : Entries) : Option Entries :=
  change false
    (fun _ inner =>
      match inner.lookup key with
      | none => some (put key (.table .header []) inner)
      | some (.table .implied known) => some (put key (.table .header known) inner)
      | some _ => none)
    path .header entries

/-- Opens one more table of a header that stands for several. -/
def openElement (path : List String) (key : String) (entries : Entries) : Option Entries :=
  change false
    (fun _ inner =>
      match inner.lookup key with
      | none => some (put key (.tables [[]]) inner)
      | some (.tables elements) => some (put key (.tables ([] :: elements)) inner)
      | some _ => none)
    path .header entries

mutual

/-- The finished value. -/
def toValue : Item → Value
  | .value v => v
  | .table _ entries => .table (toEntries entries)
  | .tables elements => .array (toElements [] elements)

/-- The finished entries of a table. -/
def toEntries : List (String × Item) → List (String × Value)
  | [] => []
  | (key, item) :: rest => (key, item.toValue) :: toEntries rest

/-- The finished tables of a list that has the last one first, before the given ones. -/
def toElements (later : List Value) : List (List (String × Item)) → List Value
  | [] => later
  | entries :: rest => toElements (.table (toEntries entries) :: later) rest

end

end Item

end JassOutline.Toml
