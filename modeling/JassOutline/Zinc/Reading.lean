import JassOutline.Zinc.Error
import JassOutline.Zinc.Lexeme

/-!
# Reading lexemes

A reader takes a list of lexemes and gives what it read and the lexemes behind it, or it fails.
`Leaves n` says of such an answer that fewer than `n` lexemes are left, and `Consumes` of a reader
that it always leaves fewer than it was given. The loops of the grammar end because each of their
steps consumes.

Bridge lemmas: `Leaves.bind` chains readers, and each reader has a lemma that says how many
lexemes it leaves.
-/

namespace JassOutline.Zinc

/-- What was read and the lexemes behind it, or why there is no reading. -/
abbrev Reading (α : Type) := Except ZincError (α × List Lexeme)

/-- Fewer than the given number of lexemes are left. -/
def Leaves (n : Nat) (reading : Reading α) : Prop :=
  ∀ value rest, reading = .ok (value, rest) → rest.length < n

/-- Every reading leaves fewer lexemes than there were. -/
def Consumes (reader : List Lexeme → Reading α) : Prop :=
  ∀ lexemes, Leaves lexemes.length (reader lexemes)

namespace Leaves

theorem ok {n : Nat} {value : α} {rest : List Lexeme} (h : rest.length < n) :
    Leaves n (.ok (value, rest) : Reading α) := by
  rintro _ _ ⟨⟩
  exact h

theorem error {n : Nat} {e : ZincError} : Leaves n (.error e : Reading α) := by
  rintro _ _ ⟨⟩

theorem mono {m n : Nat} {reading : Reading α} (h : Leaves m reading) (hle : m ≤ n) :
    Leaves n reading :=
  fun value rest hok => Nat.lt_of_lt_of_le (h value rest hok) hle

theorem bind {m n : Nat} {reading : Reading α} {next : α × List Lexeme → Reading β}
    (h : Leaves m reading)
    (hnext : ∀ value rest, rest.length < m → Leaves n (next (value, rest))) :
    Leaves n (reading.bind next) := by
  cases reading with
  | error e => exact error
  | ok pair =>
    obtain ⟨value, rest⟩ := pair
    exact hnext value rest (h value rest rfl)

end Leaves

/-! ### Single lexemes -/

/-- Whether the first lexeme is the sign. -/
def startsWithSign (sign : String) : List Lexeme → Bool
  | lexeme :: _ => lexeme.token.isOperator sign
  | [] => false

/-- The lexemes behind the sign, if they start with it. -/
def acceptSign (sign : String) (lexemes : List Lexeme) : List Lexeme :=
  if startsWithSign sign lexemes then lexemes.tail else lexemes

/-- Whether one of the words is first, and the lexemes behind it. -/
def acceptKeyword (words : List String) : List Lexeme → Bool × List Lexeme
  | lexeme :: rest =>
    if lexeme.token.isKeywordOf words then (true, rest) else (false, lexeme :: rest)
  | [] => (false, [])

/-- The first token, which has to be an identifier. -/
def identifier (expected : Expected) : List Lexeme → Reading Token
  | [] => .error (.endOfCode expected)
  | lexeme :: rest =>
    if lexeme.token.isIdentifier then .ok (lexeme.token, rest)
    else .error (.unexpected lexeme.token expected)

/-- The first token, which has to be the sign. -/
def sign (text : String) : List Lexeme → Reading Token
  | [] => .error (.endOfCode (.sign text))
  | lexeme :: rest =>
    if lexeme.token.isOperator text then .ok (lexeme.token, rest)
    else .error (.unexpected lexeme.token (.sign text))

theorem length_acceptSign_le (text : String) (lexemes : List Lexeme) :
    (acceptSign text lexemes).length ≤ lexemes.length := by
  unfold acceptSign
  split <;> simp

theorem length_acceptKeyword_le (words : List String) (lexemes : List Lexeme) :
    (acceptKeyword words lexemes).2.length ≤ lexemes.length := by
  unfold acceptKeyword
  split
  · split <;> simp
  · simp

theorem consumes_identifier (expected : Expected) : Consumes (identifier expected) := by
  intro lexemes
  unfold identifier
  split
  · exact .error
  · split
    · exact .ok (by simp)
    · exact .error

theorem consumes_sign (text : String) : Consumes (sign text) := by
  intro lexemes
  unfold sign
  split
  · exact .error
  · split
    · exact .ok (by simp)
    · exact .error

/-! ### Lists -/

/-- One or more items with commas between them. -/
def commaSeparated (item : List Lexeme → Reading α) (hitem : Consumes item)
    (lexemes : List Lexeme) : Except ZincError (List α × List Lexeme) :=
  match _hread : item lexemes with
  | .error e => .error e
  | .ok (value, rest) =>
    if startsWithSign "," rest then do
      let (values, rest) ← commaSeparated item hitem rest.tail
      .ok (value :: values, rest)
    else .ok ([value], rest)
termination_by lexemes.length
decreasing_by
  have := hitem _ _ _ _hread
  simp only [List.length_tail]
  omega

theorem consumes_commaSeparated {item : List Lexeme → Reading α} (hitem : Consumes item) :
    Consumes (commaSeparated item hitem) := by
  intro lexemes
  fun_induction commaSeparated item hitem lexemes with
  | case1 => exact .error
  | case2 lexemes value rest hread _ ih =>
    have := hitem _ _ _ hread
    refine Leaves.bind ih fun _ _ hrest => .ok ?_
    simp only [List.length_tail] at hrest
    omega
  | case3 lexemes value rest hread => exact .ok (hitem _ _ _ hread)

end JassOutline.Zinc
