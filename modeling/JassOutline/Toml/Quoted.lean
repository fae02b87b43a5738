import JassOutline.Toml.Digit

/-!
# Quoted texts of TOML

A text stands in quotes, where a backslash gives other characters, or in apostrophes, where
nothing does. Three quotes or apostrophes enclose a text of several lines.
-/

namespace JassOutline.Toml

/-- Characters that may stand for themselves in a text or a comment. -/
def isTextChar (c : Char) : Bool :=
  c == '\t' || (0x20 ≤ c.toNat && c.toNat != 0x7F)

/-- Blanks within a line. -/
def isSpace (c : Char) : Bool :=
  c == ' ' || c == '\t'

/-- The value of hexadecimal digits. -/
def hexValue? (digits : List Char) : Option Nat :=
  digits.foldlM (fun value c => (digitOf? 16 c).map (value * 16 + ·)) 0

/-- The character with a code point given by so many hexadecimal digits. -/
def scalarOfHex? (count : Nat) (text : List Char) : Option Char :=
  let digits := text.take count
  if digits.length = count then
    (hexValue? digits).bind fun value =>
      if value.isValidChar then some (Char.ofNat value) else none
  else none

/-- The character that what follows a backslash stands for, and the number of characters it is
written with. -/
def escape? : List Char → Option (Char × Nat)
  | 'b' :: _ => some ('\x08', 1)
  | 't' :: _ => some ('\t', 1)
  | 'n' :: _ => some ('\n', 1)
  | 'f' :: _ => some ('\x0c', 1)
  | 'r' :: _ => some ('\r', 1)
  | '"' :: _ => some ('"', 1)
  | '\\' :: _ => some ('\\', 1)
  | 'u' :: rest => (scalarOfHex? 4 rest).map fun c => (c, 5)
  | 'U' :: rest => (scalarOfHex? 8 rest).map fun c => (c, 9)
  | _ => none

/-- A text up to its closing quote, and what follows the quote. -/
def basicText? (text : List Char) : Option (List Char × List Char) :=
  match text with
  | [] => none
  | '"' :: rest => some ([], rest)
  | '\\' :: rest =>
    (escape? rest).bind fun (c, size) =>
      (basicText? (rest.drop size)).map fun (inner, rest) => (c :: inner, rest)
  | c :: rest =>
    if isTextChar c then (basicText? rest).map fun (inner, rest) => (c :: inner, rest) else none
termination_by text.length
decreasing_by
  all_goals
    simp only [List.length_cons, List.length_drop]
    omega

/-- A text up to its closing apostrophe, and what follows it. -/
def literalText? : List Char → Option (List Char × List Char)
  | [] => none
  | '\'' :: rest => some ([], rest)
  | c :: rest =>
    if isTextChar c then (literalText? rest).map fun (inner, rest) => (c :: inner, rest) else none

/-! ### Texts of several lines -/

/-- The text without the line end it starts with. -/
def dropNewline? : List Char → Option (List Char)
  | '\n' :: rest => some rest
  | '\r' :: '\n' :: rest => some rest
  | _ => none

/-- Of a run of quotes that closes a text, at most two more than three belong to the text. -/
def closeRun (quote : Char) (rest : List Char) : List Char × List Char :=
  let inner := (rest.takeWhile (· == quote)).take 2
  (inner, rest.drop inner.length)

/-- The blanks and line ends at the start of a text, of which there are so many characters. -/
def blankExtent : List Char → Nat
  | ' ' :: rest => blankExtent rest + 1
  | '\t' :: rest => blankExtent rest + 1
  | '\n' :: rest => blankExtent rest + 1
  | '\r' :: '\n' :: rest => blankExtent rest + 2
  | _ => 0

/-- Whether a line ends behind nothing but blanks. -/
def endsLine (text : List Char) : Bool :=
  (dropNewline? (text.dropWhile isSpace)).isSome

/-- A text of several lines up to its closing quotes, and what follows them. A backslash at the
end of a line takes the blanks behind it along. -/
def basicLines? (text : List Char) : Option (List Char × List Char) :=
  match text with
  | [] => none
  | '"' :: '"' :: '"' :: rest => some (closeRun '"' rest)
  | '\\' :: rest =>
    if endsLine rest then basicLines? (rest.drop (blankExtent rest))
    else
      (escape? rest).bind fun (c, size) =>
        (basicLines? (rest.drop size)).map fun (inner, rest) => (c :: inner, rest)
  | '\r' :: '\n' :: rest => (basicLines? rest).map fun (inner, rest) => ('\n' :: inner, rest)
  | c :: rest =>
    if c == '\n' || isTextChar c then
      (basicLines? rest).map fun (inner, rest) => (c :: inner, rest)
    else none
termination_by text.length
decreasing_by
  all_goals
    simp only [List.length_cons, List.length_drop]
    omega

/-- A text of several lines up to its closing apostrophes, and what follows them. -/
def literalLines? : List Char → Option (List Char × List Char)
  | [] => none
  | '\'' :: '\'' :: '\'' :: rest => some (closeRun '\'' rest)
  | '\r' :: '\n' :: rest => (literalLines? rest).map fun (inner, rest) => ('\n' :: inner, rest)
  | c :: rest =>
    if c == '\n' || isTextChar c then
      (literalLines? rest).map fun (inner, rest) => (c :: inner, rest)
    else none

/-- The text without a line end at its start, if it has one there. -/
def dropFirstNewline (text : List Char) : List Char :=
  (dropNewline? text).getD text

/-- The quoted text at the start of a value, and what follows it. -/
def quoted? : List Char → Option (List Char × List Char)
  | '"' :: '"' :: '"' :: rest => basicLines? (dropFirstNewline rest)
  | '\'' :: '\'' :: '\'' :: rest => literalLines? (dropFirstNewline rest)
  | '"' :: rest => basicText? rest
  | '\'' :: rest => literalText? rest
  | _ => none

end JassOutline.Toml
