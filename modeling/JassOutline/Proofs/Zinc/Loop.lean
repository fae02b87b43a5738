import JassOutline.Zinc.Grammar

/-!
# The loops of the grammar as chains of readers

The loops over lists, items and declarations match on what they read and keep the equation of the
match, which shows that they end. Here each of them is one reader after another, so that lemmas
about chains of readers apply.

## Key results

- `commaSeparated_eq_bind`, `parametersFrom_eq`, `items_eq_bind`, `declarations_eq_bind`: one round
  of a loop and the other rounds
- `items_eq_section`, `items_eq_closing`: the two ends of a section
-/

namespace JassOutline.Zinc

/-- A list is an item, and after a comma another list. -/
theorem commaSeparated_eq_bind {item : List Lexeme → Reading α} (hitem : Consumes item)
    (lexemes : List Lexeme) :
    commaSeparated item hitem lexemes =
      (item lexemes).bind fun first =>
        if startsWithSign "," first.2 then
          (commaSeparated item hitem first.2.tail).bind fun others =>
            .ok (first.1 :: others.1, others.2)
        else .ok ([first.1], first.2) := by
  rw [commaSeparated]
  split
  · next e he =>
    rw [he]
    rfl
  · next value rest hread =>
    rw [hread]
    rfl

/-- A parameter is a type and a name, and after a comma come the other parameters. -/
theorem parametersFrom_eq (lexemes : List Lexeme) :
    parametersFrom lexemes =
      (identifier .parameterType lexemes).bind fun type =>
        if type.1.isKeyword "nothing" && startsWithSign ")" type.2 then .ok ([], type.2.tail)
        else (identifier .parameterName type.2).bind fun name =>
          let parameter : Parameter := ⟨type.1.text, some name.1.text, ⟨type.1.start, name.1.stop⟩⟩
          if startsWithSign "," name.2 then
            (parametersFrom name.2.tail).bind fun others =>
              .ok (parameter :: others.1, others.2)
          else (sign ")" name.2).bind fun closing => .ok ([parameter], closing.2) := by
  fun_cases parametersFrom lexemes <;>
    simp_all [identifier, sign, startsWithSign, Except.bind, bind]
  -- A name behind the word `nothing` is no closing sign
  all_goals grind

section

variable {item : Visibility → List CommentLine → List Lexeme → Reading Declarations}
  (hitem : ∀ visibility comments, Consumes (item visibility comments)) {visibility : Visibility}
  (outer : List Visibility) {lexeme : Lexeme} {rest : List Lexeme}

/-- A brace closes the innermost section, or else the container. -/
theorem items_eq_closing (hbrace : lexeme.token.isOperator "\x7d" = true) :
    items item hitem visibility outer (lexeme :: rest) =
      match outer with
      | [] => .ok ((.none, lexeme.token), rest)
      | around :: outer => items item hitem around outer rest := by
  rw [items.eq_def]
  cases outer with
  | nil => simp only [hbrace, if_true]
  | cons around outer => simp only [hbrace, if_true]

variable (hbrace : lexeme.token.isOperator "\x7d" = false)

include hbrace

/-- Where a section starts, the one around it is kept for later. -/
theorem items_eq_section {inner : Visibility} {inside : List Lexeme}
    (hsection : sectionStart? (lexeme :: rest) = some (inner, inside)) :
    items item hitem visibility outer (lexeme :: rest) =
      items item hitem inner (visibility :: outer) inside := by
  rw [items.eq_def]
  simp only [hbrace, Bool.false_eq_true, if_false]
  split
  · next found lexemes hfound =>
    rw [hsection] at hfound
    cases hfound
    rfl
  · next hnone => simp [hsection] at hnone

/-- Where no section starts, there is an item, and after it other items. -/
theorem items_eq_bind (hsection : sectionStart? (lexeme :: rest) = none) :
    items item hitem visibility outer (lexeme :: rest) =
      (item visibility lexeme.comments (lexeme :: rest)).bind fun declared =>
        (items item hitem visibility outer declared.2).bind fun others =>
          .ok ((declared.1 ++ others.1.1, others.1.2), others.2) := by
  rw [items.eq_def]
  simp only [hbrace, Bool.false_eq_true, if_false]
  split
  · next hfound => simp [hsection] at hfound
  · split
    · next e he =>
      rw [he]
      rfl
    · next declared behind hread =>
      rw [hread]
      rfl

end

/-- A program is an item, and after it another program. -/
theorem declarations_eq_bind (lexeme : Lexeme) (rest : List Lexeme) :
    declarations (lexeme :: rest) =
      (topItem lexeme.comments (lexeme :: rest)).bind fun declared =>
        (declarations declared.2).map (declared.1 ++ ·) := by
  rw [declarations]
  split
  · next e he =>
    rw [he]
    rfl
  · next declared behind hread =>
    rw [hread]
    show (declarations behind).bind _ = (declarations behind).map _
    cases declarations behind <;> rfl

end JassOutline.Zinc
