import JassOutline.Toml.Quoted
import JassOutline.Toml.Scalar
import JassOutline.Toml.Table

/-!
# Reading a TOML text

`Toml.parse?` reads a whole text line by line: empty lines, headers of tables, and keys with
values. Values may nest up to a fixed depth, which bounds the recursion.
-/

namespace JassOutline.Toml

/-- What was read and what follows it. -/
abbrev Scan (α : Type) := Option (α × List Char)

/-- Values nest and keys have parts to less than this depth. -/
def depthLimit : Nat := 80

/-! ### Blanks and comments -/

/-- The text without the blanks it starts with. -/
def dropSpace (text : List Char) : List Char :=
  text.dropWhile isSpace

/-- What follows a comment, if there is one: a hash mark and the rest of its line. -/
def dropComment (text : List Char) : List Char :=
  match text with
  | '#' :: rest => rest.dropWhile isTextChar
  | text => text

/-- What follows blanks, comments and line ends. -/
def dropLines (text : List Char) : List Char :=
  let rest := dropComment (dropSpace text)
  match dropNewline? rest with
  | some next => if next.length < text.length then dropLines next else next
  | none => rest
termination_by text.length

/-- What follows the end of a line, before which only blanks and a comment may stand. -/
def afterLine? (text : List Char) : Option (List Char) :=
  match dropComment (dropSpace text) with
  | [] => some []
  | rest => dropNewline? rest

/-! ### Keys -/

/-- Characters of keys that need no quotes. -/
def isBareKeyChar (c : Char) : Bool :=
  c.isAlphanum || c == '_' || c == '-'

/-- One part of a key. -/
def keyPart? (text : List Char) : Scan String :=
  match text with
  | '"' :: rest => (basicText? rest).map fun (part, rest) => (String.ofList part, rest)
  | '\'' :: rest => (literalText? rest).map fun (part, rest) => (String.ofList part, rest)
  | text =>
    let part := text.takeWhile isBareKeyChar
    if part.isEmpty then none else some (String.ofList part, text.drop part.length)

/-- One or more parts that dots separate, with blanks around them. -/
def keyParts? (text : List Char) : Scan (List String) :=
  match keyPart? (dropSpace text) with
  | none => none
  | some (part, rest) =>
    match dropSpace rest with
    | '.' :: next =>
      if next.length < text.length then
        (keyParts? next).map fun (parts, rest) => (part :: parts, rest)
      else none
    | rest => some ([part], rest)
termination_by text.length

/-- The parts of a key but the last, and the last. -/
def key? (text : List Char) : Scan (List String × String) :=
  (keyParts? text).bind fun (parts, rest) =>
    if parts.length < depthLimit then
      parts.getLast?.map fun last => ((parts.dropLast, last), rest)
    else none

/-! ### Values -/

/-- The elements of an array from behind its bracket, and what follows the closing one. A comma
may stand behind the last element. -/
def elements? (value? : List Char → Scan Value) (text : List Char) : Scan (List Value) :=
  match dropLines text with
  | ']' :: rest => some ([], rest)
  | start =>
    (value? start).bind fun (element, rest) =>
      match dropLines rest with
      | ']' :: rest => some ([element], rest)
      | ',' :: rest =>
        if rest.length < text.length then
          (elements? value? rest).map fun (others, rest) => (element :: others, rest)
        else none
      | _ => none
termination_by text.length

/-- A key, an equals sign and a value. -/
def keyValue? (value? : List Char → Scan Value) (text : List Char) :
    Scan ((List String × String) × Value) :=
  (key? text).bind fun (key, rest) =>
    match rest with
    | '=' :: rest => (value? (dropSpace rest)).map fun (value, rest) => ((key, value), rest)
    | _ => none

/-- The keys and values of a table on one line, where at least one is expected, and what follows
the closing brace. -/
def inlineEntries? (value? : List Char → Scan Value) (entries : Item.Entries)
    (text : List Char) : Scan Item.Entries :=
  (keyValue? value? text).bind fun ((key, value), rest) =>
    (Item.assign key.1 key.2 value entries).bind fun entries =>
      match dropSpace rest with
      | '}' :: rest => some (entries, rest)
      | ',' :: rest =>
        if rest.length < text.length then inlineEntries? value? entries rest else none
      | _ => none
termination_by text.length

/-- A table on one line from behind its brace. -/
def inlineTable? (value? : List Char → Scan Value) (text : List Char) : Scan Value :=
  match dropSpace text with
  | '}' :: rest => some (.table [], rest)
  | text =>
    (inlineEntries? value? [] text).map fun (entries, rest) =>
      (.table (Item.toEntries entries), rest)

/-- A value inside of which others nest to less than the given depth. -/
def value? (depth : Nat) (text : List Char) : Scan Value :=
  match text, depth with
  | '[' :: _, 0 | '{' :: _, 0 => none
  | '[' :: rest, depth + 1 =>
    (elements? (value? depth) rest).map fun (elements, rest) => (.array elements, rest)
  | '{' :: rest, depth + 1 => inlineTable? (value? depth) rest
  | '"' :: _, _ | '\'' :: _, _ =>
    (quoted? text).map fun (inner, rest) => (.text (String.ofList inner), rest)
  | text, _ =>
    let size := scalarExtent text
    (scalar? (text.take size)).map fun value => (value, text.drop size)

/-! ### Lines -/

/-- What has been read of a text: its entries and the last opened header. -/
structure State where
  entries : Item.Entries
  header : List String
  deriving Repr

/-- Reads the expression at the start of a line. -/
def expression? (state : State) (text : List Char) : Scan State :=
  match text with
  | '[' :: '[' :: rest =>
    (key? rest).bind fun ((path, last), rest) =>
      match rest with
      | ']' :: ']' :: rest =>
        (Item.openElement path last state.entries).map fun entries =>
          (⟨entries, path ++ [last]⟩, rest)
      | _ => none
  | '[' :: rest =>
    (key? rest).bind fun ((path, last), rest) =>
      match rest with
      | ']' :: rest =>
        (Item.openTable path last state.entries).map fun entries =>
          (⟨entries, path ++ [last]⟩, rest)
      | _ => none
  | text =>
    (keyValue? (value? (depthLimit - 1)) text).bind fun ((key, value), rest) =>
      (Item.assignBelow state.header key.1 key.2 value state.entries).map fun entries =>
        ({ state with entries }, rest)

/-- Reads the lines of a text. -/
def lines? (state : State) (text : List Char) : Option State :=
  match dropLines text with
  | [] => some state
  | start =>
    (expression? state start).bind fun (state, rest) =>
      (afterLine? rest).bind fun rest =>
        if rest.length < text.length then lines? state rest else none
termination_by text.length

/-- The entries of a TOML text. A mark of the byte order may open it. -/
def parse? (text : List Char) : Option (List (String × Value)) :=
  let text :=
    match text with
    | '\uFEFF' :: rest => rest
    | text => text
  (lines? ⟨[], []⟩ text).map fun state => Item.toEntries state.entries

end JassOutline.Toml
