import JassOutline.Proofs.Zinc.Matching
import JassOutline.Zinc.Grammar

/-!
# Parts of a zinc program

Most lexemes are read one by one. A body is taken by its braces, and sizes, values, declarations
without a place in a program and names of operators are read over, each with a count of its own.

`partsOf` follows the grammar through a token list. It calls the same readers with the same lexemes,
and in place of what they read it keeps which lexemes they took and how. So a stretch that is read
over stands where the grammar comes to it, and ends where the reader of the grammar leaves it.

## Key results

- `partsOf`: the parts of a token list, for those that declare a program
- `Part.Counts`: what each way of reading counts
- `Cuts.bind`: parts that are read in turn
-/

namespace JassOutline.Zinc

open Lexeme

/-! ### Parts -/

/-- How the grammar takes a stretch of lexemes. -/
inductive Way where
  /-- One by one. -/
  | singly
  /-- As a body, or as the semicolon in its place. -/
  | body
  /-- Over a size in square brackets. -/
  | size
  /-- Over an initial value. -/
  | value
  /-- Over a declaration without a place in a program. -/
  | declaration
  /-- Over the name of an operator. -/
  | operatorName
  deriving DecidableEq, Repr

/-- A stretch of lexemes and how it is taken. -/
structure Part where
  way : Way
  lexemes : List Lexeme
  deriving DecidableEq, Repr

namespace Part

/-- The tokens of the part. -/
def tokens (part : Part) : List Token :=
  part.lexemes.map token

/-- Whether the part is read over. -/
def isOver (part : Part) : Bool :=
  match part.way with
  | .singly | .body => false
  | .size | .value | .declaration | .operatorName => true

/-- What is taken of the lexemes where the rest is left. -/
def upTo (way : Way) (lexemes rest : List Lexeme) : Part :=
  ⟨way, lexemes.take (lexemes.length - rest.length)⟩

@[simp] theorem upTo_append (way : Way) (front rest : List Lexeme) :
    upTo way (front ++ rest) rest = ⟨way, front⟩ := by
  simp [upTo]

end Part

/-- The lexemes that are not read over. -/
def outside (parts : List Part) : List Lexeme :=
  (parts.filter (!·.isOver)).flatMap Part.lexemes

/-- The lexemes that are read over. -/
def skipped (parts : List Part) : List Lexeme :=
  (parts.filter Part.isOver).flatMap Part.lexemes

/-- The parts that were read and the lexemes behind them, if they can be read. -/
abbrev PartReading := Option (List Part × List Lexeme)

/-- The same reading with more parts in front. -/
def PartReading.behind (front : List Part) (reading : PartReading) : PartReading :=
  reading.map fun (parts, rest) => (front ++ parts, rest)

/-- All that a reader of the grammar takes, as one part. -/
def onePart (way : Way) (reader : List Lexeme → Reading α) (lexemes : List Lexeme) : PartReading :=
  match reader lexemes with
  | .ok (_, rest) => some ([.upTo way lexemes rest], rest)
  | .error _ => none

/-- What the readers take one after the other. -/
def inTurn : List (List Lexeme → PartReading) → List Lexeme → PartReading
  | [], lexemes => some ([], lexemes)
  | reader :: others, lexemes => do
    let (front, rest) ← reader lexemes
    (inTurn others rest).behind front

/-! ### Brackets in parts -/

/-- Whether the signs among the lexemes close one another and the given number of open ones. -/
def closesSigns (openings closings : List String) : Nat → List Lexeme → Bool
  | depth, [] => depth == 0
  | depth, lexeme :: rest =>
    if lexeme.token.isOperatorOf openings then closesSigns openings closings (depth + 1) rest
    else if lexeme.token.isOperatorOf closings then
      match depth with
      | 0 => false
      | depth + 1 => closesSigns openings closings depth rest
    else closesSigns openings closings depth rest

/-- The number of brackets that are open behind the lexemes, where a closing one closes what is
open, if anything is. -/
def openBehind : Nat → List Lexeme → Nat
  | depth, [] => depth
  | depth, lexeme :: rest =>
    if lexeme.token.isOperatorOf openingSigns then openBehind (depth + 1) rest
    else if lexeme.token.isOperatorOf closingSigns then openBehind (depth - 1) rest
    else openBehind depth rest

/-- What is counted in a part: the braces of a body, the square brackets of a size, all brackets of
a value, those that are still open at the end of a declaration, and nothing in a name. -/
def Part.Counts (part : Part) : Prop :=
  match part.way with
  | .singly => True
  | .body => BracesNest part.tokens
  | .size => closesSigns ["["] ["]"] 0 part.lexemes = true
  | .value => closesSigns openingSigns closingSigns 0 part.lexemes = true
  | .declaration => openBehind 0 part.lexemes = 0
  | .operatorName => ∀ lexeme ∈ part.lexemes, lexeme.token.isOperator "(" = false

/-! ### Parts of declarations -/

/-- The words that may be left out. -/
def wordParts (words : List String) : List Lexeme → PartReading :=
  onePart .singly fun lexemes => .ok (acceptKeyword words lexemes)

/-- The word that a declaration starts with. -/
def keywordParts : List Lexeme → PartReading :=
  onePart .singly (identifier .declaration)

/-- One or more items with commas between them. -/
def commaSeparatedParts (item : List Lexeme → PartReading) (lexemes : List Lexeme) :
    PartReading := do
  let (first, rest) ← item lexemes
  if startsWithSign "," rest then
    if _h : rest.length < lexemes.length then
      (commaSeparatedParts item rest.tail).behind (first ++ [.upTo .singly rest rest.tail])
    else none
  else some (first, rest)
termination_by lexemes.length
decreasing_by
  simp only [List.length_tail]
  omega

/-- A name with its size and its value. -/
def variableNamedParts : List Lexeme → PartReading :=
  inTurn [onePart .singly (identifier .variableName), onePart .size skipSize,
    onePart .value skipValue]

/-- A declaration of variables. -/
def variableDeclarationParts : List Lexeme → PartReading :=
  inTurn [onePart .singly variableType, commaSeparatedParts variableNamedParts,
    onePart .singly (sign ";")]

/-- A function behind its keyword. -/
def functionParts : List Lexeme → PartReading :=
  inTurn [onePart .singly (identifier .functionName), onePart .singly parameters,
    onePart .singly result, onePart .body body]

/-- The name of a method or of an operator. -/
def methodNameParts (lexemes : List Lexeme) : PartReading :=
  if (acceptKeyword ["operator"] lexemes).1 then
    inTurn [wordParts ["operator"], onePart .operatorName fun rest => .ok (operatorName rest)]
      lexemes
  else onePart .singly (identifier .methodName) lexemes

/-- A method behind its keyword. -/
def methodParts : List Lexeme → PartReading :=
  inTurn [methodNameParts, onePart .singly parameters, onePart .singly result,
    onePart .body bodyOrSemicolon]

/-! ### Parts of containers -/

/-- The items of a container through the brace that closes it. `depth` sections are open. -/
def itemsParts (item : List Lexeme → PartReading) (depth : Nat) (lexemes : List Lexeme) :
    PartReading :=
  match lexemes with
  | [] => none
  | lexeme :: rest =>
    if lexeme.token.isOperator "\x7d" then
      match depth with
      | 0 => some ([⟨.singly, [lexeme]⟩], rest)
      | depth + 1 => (itemsParts item depth rest).behind [⟨.singly, [lexeme]⟩]
    else
      match _hsection : sectionStart? (lexeme :: rest) with
      | some (_, inside) =>
        (itemsParts item (depth + 1) inside).behind [.upTo .singly (lexeme :: rest) inside]
      | none => do
        let (first, behind) ← item (lexeme :: rest)
        if _h : behind.length < (lexeme :: rest).length then
          (itemsParts item depth behind).behind first
        else none
termination_by lexemes.length
decreasing_by
  · simp
  · exact length_of_sectionStart? _hsection
  · exact _h

/-- The name of a parent with its size. -/
def parentParts : List Lexeme → PartReading :=
  inTurn [onePart .singly (identifier .parentName), onePart .size skipSize]

/-- The parents of a struct, if it has any. -/
def parentsParts (lexemes : List Lexeme) : PartReading :=
  if (acceptKeyword ["extends"] lexemes).1 then
    inTurn [wordParts ["extends"], commaSeparatedParts parentParts] lexemes
  else some ([], lexemes)

/-- An item of a struct behind its visibility and its binding. -/
def structItemBodyParts : List Lexeme → PartReading
  | [] => none
  | lexeme :: rest =>
    if lexeme.token.isKeyword "method" then inTurn [keywordParts, methodParts] (lexeme :: rest)
    else if lexeme.token.isOperator ";" then onePart .singly (sign ";") (lexeme :: rest)
    else if skippedWords.contains lexeme.token.text then
      onePart .declaration (skipDeclaration 0) (lexeme :: rest)
    else variableDeclarationParts (lexeme :: rest)

/-- The visibility that an item may have. -/
def visibilityParts : List Lexeme → PartReading :=
  onePart .singly fun lexemes => .ok (acceptVisibility lexemes)

/-- An item of a struct. -/
def structItemParts : List Lexeme → PartReading :=
  inTurn [visibilityParts, onePart .singly fun lexemes => .ok (acceptBinding lexemes),
    structItemBodyParts]

/-- A struct behind its keyword. -/
def structParts : List Lexeme → PartReading :=
  inTurn [onePart .singly (identifier .structName), onePart .size skipSize, parentsParts,
    onePart .singly (sign "\x7b"), itemsParts structItemParts 0,
    onePart .singly fun lexemes => .ok ((), acceptSign ";" lexemes)]

/-- An item other than a library, behind its visibility. -/
def plainItemParts : List Lexeme → PartReading
  | [] => none
  | lexeme :: rest =>
    if lexeme.token.isOperator ";" then onePart .singly (sign ";") (lexeme :: rest)
    else if !lexeme.token.isIdentifier then none
    else if libraryWords.contains lexeme.token.text then none
    else if lexeme.token.isKeyword "struct" then
      inTurn [keywordParts, structParts] (lexeme :: rest)
    else if lexeme.token.isKeyword "function" then
      inTurn [keywordParts, functionParts] (lexeme :: rest)
    else if skippedWords.contains lexeme.token.text then
      onePart .declaration (skipDeclaration 0) (lexeme :: rest)
    else variableDeclarationParts (lexeme :: rest)

/-- A library behind its keyword. -/
def libraryParts : List Lexeme → PartReading :=
  inTurn [onePart .singly (identifier .libraryName), onePart .singly requirements,
    onePart .singly (sign "\x7b"), itemsParts (inTurn [visibilityParts, plainItemParts]) 0]

/-- An item of a program behind its visibility. -/
def topItemBodyParts : List Lexeme → PartReading
  | [] => none
  | lexeme :: rest =>
    if lexeme.token.isKeywordOf libraryWords then
      inTurn [keywordParts, libraryParts] (lexeme :: rest)
    else plainItemParts (lexeme :: rest)

/-- The parts of a list of lexemes. -/
def declarationsParts (lexemes : List Lexeme) : Option (List Part) :=
  if lexemes.isEmpty then some []
  else do
    let (first, rest) ← inTurn [visibilityParts, topItemBodyParts] lexemes
    if _h : rest.length < lexemes.length then
      return first ++ (← declarationsParts rest)
    else none
termination_by lexemes.length

/-- The parts of a token list, if it declares a program. -/
def partsOf (tokens : List Token) : Option (List Part) :=
  declarationsParts (ofTokens tokens)

variable {opened later last : Nat} {lexemes middle rest : List Lexeme} {parts : List Part}

/-! ### Open braces -/

/-- As many braces are open before the labels and behind them as is given. -/
def Turns (opened later : Nat) (labels : List Label) : Prop :=
  ∀ rest, closesBraces opened (labels ++ rest) = closesBraces later rest

theorem turns_nil (opened : Nat) : Turns opened opened [] := fun _ => rfl

theorem Turns.append {a b : List Label} (ha : Turns opened later a) (hb : Turns later last b) :
    Turns opened last (a ++ b) := fun rest => by
  rw [List.append_assoc, ha, hb]

theorem turns_of_closed {labels : List Label} (h : closesBraces 0 labels = true) (opened : Nat) :
    Turns opened opened labels :=
  closesBraces_append_of_closed h opened

theorem turns_other {lexeme : Lexeme} (hopening : lexeme.token.isOperator "\x7b" = false)
    (hclosing : lexeme.token.isOperator "\x7d" = false) (opened : Nat) :
    Turns opened opened [lexeme.label] := by
  rw [Token.isOperator_eq, beq_eq_false_iff_ne] at hopening hclosing
  exact closesBraces_cons hopening hclosing opened

theorem turns_opening {lexeme : Lexeme} (h : lexeme.token.isOperator "\x7b" = true)
    (opened : Nat) : Turns opened (opened + 1) [lexeme.label] := fun rest => by
  rw [Token.isOperator_eq, beq_iff_eq] at h
  simp [closesBraces, label, h]

theorem turns_closing {lexeme : Lexeme} (h : lexeme.token.isOperator "\x7d" = true)
    (opened : Nat) : Turns (opened + 1) opened [lexeme.label] := fun rest => by
  rw [Token.isOperator_eq, beq_iff_eq] at h
  simp [closesBraces, label, h]

/-! ### Readers and parts -/

/-- The parts make up the lexemes in front of the rest, each of them counts what it has to, and
outside of what is read over braces open and close as is given. -/
structure Tiles (opened later : Nat) (lexemes : List Lexeme) (parts : List Part)
    (rest : List Lexeme) : Prop where
  covers : lexemes = parts.flatMap Part.lexemes ++ rest
  counts : ∀ part ∈ parts, part.Counts
  turns : Turns opened later ((outside parts).map label)

/-- A reader and its parts fail together, or they take the same lexemes. -/
inductive Cuts (opened later : Nat) (lexemes : List Lexeme) : Reading α → PartReading → Prop where
  | error {e : ZincError} : Cuts opened later lexemes (.error e) none
  | ok {value : α} {parts : List Part} {rest : List Lexeme} :
    Tiles opened later lexemes parts rest →
    Cuts opened later lexemes (.ok (value, rest)) (some (parts, rest))

theorem tiles_nil (opened : Nat) (lexemes : List Lexeme) : Tiles opened opened lexemes [] lexemes :=
  ⟨rfl, by simp, turns_nil opened⟩

theorem outside_append (a b : List Part) : outside (a ++ b) = outside a ++ outside b := by
  simp [outside]

/-- A part is either read over or it is not. -/
theorem outside_cons (part : Part) (others : List Part) :
    outside (part :: others) = (if part.isOver then [] else part.lexemes) ++ outside others := by
  cases h : part.isOver <;> simp [outside, h]

theorem skipped_cons (part : Part) (others : List Part) :
    skipped (part :: others) = (if part.isOver then part.lexemes else []) ++ skipped others := by
  cases h : part.isOver <;> simp [skipped, h]

theorem Tiles.append {front back : List Part} (hfront : Tiles opened later lexemes front middle)
    (hback : Tiles later last middle back rest) :
    Tiles opened last lexemes (front ++ back) rest where
  covers := by rw [hfront.covers, hback.covers, List.flatMap_append, List.append_assoc]
  counts := List.forall_mem_append.2 ⟨hfront.counts, hback.counts⟩
  turns := by
    rw [outside_append, List.map_append]
    exact hfront.turns.append hback.turns

/-- Lexemes that are taken one by one. -/
theorem tiles_singly (front rest : List Lexeme) (h : Turns opened later (front.map label)) :
    Tiles opened later (front ++ rest) [.upTo .singly (front ++ rest) rest] rest where
  covers := by simp
  counts := by simp [Part.Counts]
  turns := by simpa [outside, Part.isOver] using h

namespace Cuts

variable {reading : Reading α} {partReading : PartReading}

theorem eq_none {e : ZincError} (h : Cuts opened later lexemes (.error e : Reading α) partReading) :
    partReading = none := by
  cases h
  rfl

theorem exists_parts {value : α}
    (h : Cuts opened later lexemes (.ok (value, rest)) partReading) :
    ∃ parts, partReading = some (parts, rest) ∧ Tiles opened later lexemes parts rest := by
  cases h with
  | ok hparts => exact ⟨_, rfl, hparts⟩

theorem behind (hfront : Tiles opened later lexemes parts middle)
    (h : Cuts later last middle reading partReading) :
    Cuts opened last lexemes reading (partReading.behind parts) := by
  cases h with
  | error => exact .error
  | ok hback => exact .ok (hfront.append hback)

/-- What a reading gives does not matter to its parts. -/
theorem map {next : α × List Lexeme → Reading β}
    (h : Cuts opened later lexemes reading partReading)
    (hnext : ∀ value rest, ∃ given, next (value, rest) = .ok (given, rest)) :
    Cuts opened later lexemes (reading.bind next) partReading := by
  cases h with
  | error => exact .error
  | @ok value _ rest hparts =>
    obtain ⟨given, hgiven⟩ := hnext value rest
    rw [Except.bind, hgiven]
    exact .ok hparts

theorem nil (value : α) (opened : Nat) (lexemes : List Lexeme) :
    Cuts opened opened lexemes (.ok (value, lexemes)) (inTurn [] lexemes) :=
  .ok (tiles_nil opened lexemes)

/-- One reader after the other. -/
theorem bind {next : α × List Lexeme → Reading β} {reader : List Lexeme → PartReading}
    {others : List (List Lexeme → PartReading)}
    (h : Cuts opened later lexemes reading (reader lexemes))
    (hnext : ∀ value rest, Cuts later last rest (next (value, rest)) (inTurn others rest)) :
    Cuts opened last lexemes (reading.bind next) (inTurn (reader :: others) lexemes) := by
  rw [inTurn]
  generalize reader lexemes = parts at h
  cases h with
  | error => exact .error
  | ok hparts => exact (hnext _ _).behind hparts

/-- A last reader, with nothing to do behind it. -/
theorem alone {reader : List Lexeme → PartReading}
    (h : Cuts opened later lexemes reading (reader lexemes)) :
    Cuts opened later lexemes reading (inTurn [reader] lexemes) := by
  rw [inTurn]
  generalize reader lexemes = parts at h
  cases h with
  | error => exact .error
  | ok hparts => exact .ok (hparts.append (tiles_nil later _))

/-- All that a reader takes is one part. -/
theorem single {way : Way} {reader : List Lexeme → Reading α}
    (h : ∀ value rest, reader lexemes = .ok (value, rest) →
      Tiles opened later lexemes [.upTo way lexemes rest] rest) :
    Cuts opened later lexemes (reader lexemes) (onePart way reader lexemes) := by
  unfold onePart
  cases hread : reader lexemes with
  | error e => exact .error
  | ok answer => exact .ok (h answer.1 answer.2 hread)

end Cuts

end JassOutline.Zinc
