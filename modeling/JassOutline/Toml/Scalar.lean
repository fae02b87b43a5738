import JassOutline.Toml.Decimal
import JassOutline.Toml.Digit
import JassOutline.Toml.Value

/-!
# Scalars of a TOML text

Truth values, whole numbers, floating numbers and moments of time are written without blanks, but
for the blank that may stand between a date and a time. `scalar?` decides which of them a run of
characters is.
-/

namespace JassOutline.Toml

/-- Characters that scalars are written with. -/
def isScalarChar (c : Char) : Bool :=
  c.isAlphanum || c == '_' || c == '+' || c == '-' || c == '.' || c == ':'

/-! ### Whole numbers -/

/-- The number that the digits add to the given one. Single underscores may stand between two
digits: `afterDigit` tells whether a digit comes before. -/
def digitsFrom? (base : Nat) (value : Nat) (afterDigit : Bool) : List Char → Option Nat
  | [] => if afterDigit then some value else none
  | '_' :: rest => if afterDigit then digitsFrom? base value false rest else none
  | c :: rest =>
    (digitOf? base c).bind fun digit => digitsFrom? base (value * base + digit) true rest

/-- The number that digits stand for. -/
def digits? (base : Nat) (text : List Char) : Option Nat :=
  digitsFrom? base 0 false text

/-- The number that decimal digits stand for, if they do not start with a needless zero. -/
def plainDecimal? : List Char → Option Nat
  | ['0'] => some 0
  | '0' :: _ => none
  | text => digits? 10 text

/-- The sign in front of a number, and what follows it. -/
def dropSign : List Char → Bool × List Char
  | '-' :: rest => (true, rest)
  | '+' :: rest => (false, rest)
  | text => (false, text)

/-- Whole numbers lie in the range of sixty-four bits. -/
def inRange? (value : Int) : Option Int :=
  if -Int.pow 2 63 ≤ value ∧ value < Int.pow 2 63 then some value else none

/-- The whole number a text stands for: decimal with a sign, or without one in base sixteen, eight
or two. -/
def integer? (text : List Char) : Option Int :=
  match text with
  | '0' :: 'x' :: rest => (digits? 16 rest).bind fun n => inRange? n
  | '0' :: 'o' :: rest => (digits? 8 rest).bind fun n => inRange? n
  | '0' :: 'b' :: rest => (digits? 2 rest).bind fun n => inRange? n
  | text =>
    let (negative, rest) := dropSign text
    (plainDecimal? rest).bind fun n => inRange? (if negative then -(n : Int) else n)

/-! ### Floating numbers -/

/-- Digits, which single underscores may stand between. -/
def isDigitChar (c : Char) : Bool :=
  c.isDigit || c == '_'

/-- The exponent that a text with `e` or `E` gives, or zero for no text. -/
def exponent? : List Char → Option Int
  | [] => some 0
  | 'e' :: rest | 'E' :: rest =>
    let (negative, digits) := dropSign rest
    (digits? 10 digits).map fun n => if negative then -(n : Int) else n
  | _ => none

/-- The number that a text without a sign stands for: a whole number with a fraction, an exponent
or both. -/
def decimal? (text : List Char) : Option Decimal := do
  let whole := text.takeWhile isDigitChar
  let _ ← plainDecimal? whole
  match text.drop whole.length with
  | '.' :: rest =>
    let fraction := rest.takeWhile isDigitChar
    let _ ← digits? 10 fraction
    let places := (fraction.filter Char.isDigit).length
    let digits ← digits? 10 (whole ++ fraction)
    let exponent ← exponent? (rest.drop fraction.length)
    return ⟨digits, exponent - places⟩
  | [] => none
  | rest => return ⟨← digits? 10 whole, ← exponent? rest⟩

/-- Whether the text is a floating number. One that is too large is refused, unless a minus stands
in front of it. -/
def isFloat (text : List Char) : Bool :=
  let (negative, rest) := dropSign text
  if rest == ['i', 'n', 'f'] || rest == ['n', 'a', 'n'] then true
  else (decimal? rest).any fun number => negative || !number.isBeyondRange

/-! ### Moments of time -/

/-- The number that exactly so many decimal digits stand for, and what follows them. -/
def fixedDigits? (count : Nat) (text : List Char) : Option (Nat × List Char) :=
  let digits := text.take count
  if digits.length = count ∧ digits.all Char.isDigit then
    (digits? 10 digits).map fun n => (n, text.drop count)
  else none

/-- The number of days of a month. -/
def daysOfMonth (year month : Nat) : Nat :=
  if month = 2 then
    if year % 4 = 0 ∧ (year % 100 ≠ 0 ∨ year % 400 = 0) then 29 else 28
  else if month = 4 ∨ month = 6 ∨ month = 9 ∨ month = 11 then 30
  else 31

/-- What follows a date, written year, month and day. -/
def afterDate? (text : List Char) : Option (List Char) := do
  let (year, rest) ← fixedDigits? 4 text
  let '-' :: rest := rest | none
  let (month, rest) ← fixedDigits? 2 rest
  let '-' :: rest := rest | none
  let (day, rest) ← fixedDigits? 2 rest
  if 1 ≤ month ∧ month ≤ 12 ∧ 1 ≤ day ∧ day ≤ daysOfMonth year month then some rest else none

/-- What follows a time, written hour, minute, second and a fraction. -/
def afterTime? (text : List Char) : Option (List Char) := do
  let (hour, rest) ← fixedDigits? 2 text
  let ':' :: rest := rest | none
  let (minute, rest) ← fixedDigits? 2 rest
  let ':' :: rest := rest | none
  let (second, rest) ← fixedDigits? 2 rest
  if 24 ≤ hour ∨ 60 ≤ minute ∨ 61 ≤ second then none
  else
    match rest with
    | '.' :: fraction =>
      let digits := fraction.takeWhile Char.isDigit
      if digits.isEmpty then none else some (fraction.drop digits.length)
    | _ => some rest

/-- Whether the text is a distance from universal time, or nothing. -/
def isOffset (text : List Char) : Bool :=
  match text with
  | [] | ['Z'] | ['z'] => true
  | '+' :: rest | '-' :: rest =>
    match fixedDigits? 2 rest with
    | some (hour, ':' :: rest) =>
      match fixedDigits? 2 rest with
      | some (minute, []) => hour < 24 && minute < 60
      | _ => false
    | _ => false
  | _ => false

/-- Whether the text is a time and a distance from universal time, or no distance. -/
def isTimeOfDate (text : List Char) : Bool :=
  (afterTime? text).any isOffset

/-- Whether the text is a date, a time or both. -/
def isMoment (text : List Char) : Bool :=
  afterTime? text == some [] ||
    match afterDate? text with
    | some [] => true
    | some (c :: time) => (c == 'T' || c == 't' || c == ' ') && isTimeOfDate time
    | none => false

/-! ### All scalars -/

/-- The number of characters of the scalar at the start of the text. Behind a date, a blank and
what looks like a time belong to it. -/
def scalarExtent (text : List Char) : Nat :=
  let word := text.takeWhile isScalarChar
  if afterDate? word == some [] then
    match text.drop word.length with
    | ' ' :: rest =>
      match fixedDigits? 2 rest with
      | some (_, ':' :: _) => word.length + 1 + (rest.takeWhile isScalarChar).length
      | _ => word.length
    | _ => word.length
  else word.length

/-- The value of a scalar. -/
def scalar? (text : List Char) : Option Value :=
  if text == "true".toList then some (.boolean true)
  else if text == "false".toList then some (.boolean false)
  else if isMoment text then some (.moment (String.ofList text))
  else if isFloat text then some (.float (String.ofList text))
  else (integer? text).map .integer

end JassOutline.Toml
