import JassOutline.Proofs.Declaration.Comments
import JassOutline.Proofs.Zinc.Loop

/-!
# Reading edited lexemes

An `Edit` changes the comments of lexemes and puts other lexemes behind them. `Follows` relates
what a reader makes of lexemes to what it makes of them after an edit: the comments of what was read
have changed, and nothing else, unless the reader came to the end of the lexemes. There it may read
on, and its `Ending` tells how far. With an edit that only puts something behind, this says that no
reader looks further ahead than the first lexeme it leaves. With an edit that only takes comments
away, it says that no reader looks at comments.

## Key results

- `Follows.bind`, `Follows.bind_loose`, `Follows.bind_of_leaves`: one reader after another
- `follows_identifier`, `follows_sign`, `follows_commaSeparated`: the readers that all others are
  made of
-/

namespace JassOutline.Zinc

/-- What is done to lexemes: their comments are changed, and other lexemes are put behind them. -/
structure Edit where
  comments : List CommentLine → List CommentLine
  /-- Where there are no comments, none are made up. -/
  comments_nil : comments [] = []
  behind : List Lexeme

namespace Edit

/-- The lexeme with its comments changed. -/
def lexeme (edit : Edit) (lexeme : Lexeme) : Lexeme :=
  { lexeme with comments := edit.comments lexeme.comments }

/-- The edited lexemes. -/
def apply (edit : Edit) (lexemes : List Lexeme) : List Lexeme :=
  lexemes.map edit.lexeme ++ edit.behind

variable (edit : Edit)

@[simp] theorem token_lexeme (lexeme : Lexeme) : (edit.lexeme lexeme).token = lexeme.token := rfl

@[simp] theorem comments_lexeme (lexeme : Lexeme) :
    (edit.lexeme lexeme).comments = edit.comments lexeme.comments := rfl

@[simp] theorem apply_nil : edit.apply [] = edit.behind := rfl

@[simp] theorem apply_cons (lexeme : Lexeme) (rest : List Lexeme) :
    edit.apply (lexeme :: rest) = edit.lexeme lexeme :: edit.apply rest := rfl

end Edit

/-! ### Readings that follow each other -/

/-- A reader that needs a lexeme goes first. -/
theorem Leaves.zero_bind {reading : Reading α} {next : α × List Lexeme → Reading β}
    (h : Leaves 0 reading) : Leaves 0 (reading.bind next) :=
  h.bind fun _ _ hrest => absurd hrest (Nat.not_lt_zero _)

/-- What a reader that came to the end of the lexemes makes of those put behind. -/
inductive Ending where
  /-- It leaves them. -/
  | tight
  /-- It leaves them, but for a semicolon that they may start with. -/
  | semicolon
  /-- It may read on. -/
  | loose

/-- What is read of edited lexemes where the value was read and nothing was left. -/
def Ending.Allows (ending : Ending) (edit : Edit) (value : α) (after : Reading α) : Prop :=
  match ending with
  | tight => after = .ok (value, edit.behind)
  | semicolon => after = .ok (value, edit.behind) ∨ after = .ok (value, acceptSign ";" edit.behind)
  | loose => edit.behind = [] → after = .ok (value, [])

/-- What was read of the lexemes and what is read after the edit. The edit changes values as given.
An unexpected token is one of the lexemes, and it is the same one after the edit. -/
def Follows (edit : Edit) (change : α → α) (ending : Ending) (lexemes : List Lexeme)
    (before after : Reading α) : Prop :=
  match before with
  | .ok (value, []) => ending.Allows edit (change value) after
  | .ok (value, first :: rest) =>
    first :: rest <:+ lexemes ∧ after = .ok (change value, edit.apply (first :: rest))
  | .error (.unexpected found expected) =>
    found ∈ lexemes.map Lexeme.token ∧ after = .error (.unexpected found expected)
  | .error (.endOfCode expected) => edit.behind = [] → after = .error (.endOfCode expected)

variable {edit : Edit} {lexemes rest : List Lexeme} {change : α → α} {change' : β → β}
  {ending : Ending}

theorem Ending.Allows.of_eq {value : α} {after : Reading α}
    (h : after = .ok (value, edit.behind)) : ending.Allows edit value after := by
  cases ending with
  | tight => exact h
  | semicolon => exact .inl h
  | loose =>
    intro hbehind
    rw [h, hbehind]

namespace Follows

/-- The same lexemes are left. -/
theorem ok {value : α} (h : rest <:+ lexemes) :
    Follows edit change ending lexemes (.ok (value, rest))
      (.ok (change value, edit.apply rest)) := by
  cases rest with
  | nil => exact .of_eq rfl
  | cons first rest => exact ⟨h, rfl⟩

theorem unexpected {found : Token} {expected : Expected} (h : found ∈ lexemes.map Lexeme.token) :
    Follows edit change ending lexemes (.error (.unexpected found expected))
      (.error (.unexpected found expected)) :=
  ⟨h, rfl⟩

/-- Where the lexemes end too early, only those put behind could help. -/
theorem endOfCode {expected : Expected} {after : Reading α}
    (h : edit.behind = [] → after = .error (.endOfCode expected)) :
    Follows edit change ending lexemes (.error (.endOfCode expected)) after :=
  h

theorem mono {before after : Reading α} (h : Follows edit change ending rest before after)
    (hrest : rest <:+ lexemes) : Follows edit change ending lexemes before after := by
  unfold Follows at *
  split at h
  · exact h
  · exact ⟨h.1.trans hrest, h.2⟩
  · exact ⟨(hrest.map _).subset h.1, h.2⟩
  · exact h

/-- What is left is the end of the lexemes. -/
theorem suffix {before after : Reading α} {value : α}
    (h : Follows edit change ending lexemes before after) (hread : before = .ok (value, rest)) :
    rest <:+ lexemes := by
  subst hread
  cases rest with
  | nil => exact List.nil_suffix
  | cons first rest => exact h.1

/-- A reader that leaves what is put behind may also do so where it could take a part of it. -/
theorem of_tight {before after : Reading α} (h : Follows edit change .tight lexemes before after) :
    Follows edit change ending lexemes before after := by
  unfold Follows at *
  split at h
  · exact .of_eq h
  · exact h
  · exact h
  · exact h

/-- Any reader is one that may read on. -/
theorem toLoose {before after : Reading α} (h : Follows edit change ending lexemes before after) :
    Follows edit change .loose lexemes before after := by
  unfold Follows at *
  split at h
  · next value =>
    intro hbehind
    cases ending with
    | tight => rw [show after = _ from h, hbehind]
    | semicolon =>
      have hsign : acceptSign ";" edit.behind = [] := by rw [hbehind]; rfl
      rcases h with h | h
      · rw [h, hbehind]
      · rw [h, hsign]
    | loose => exact h hbehind
  · exact h
  · exact h
  · exact h

/-- Both readings take the same branch. -/
theorem ite {condition condition' : Prop} [Decidable condition] [Decidable condition']
    {before after before' after' : Reading α} (hcondition : condition' ↔ condition)
    (hthen : condition → Follows edit change ending lexemes before after)
    (helse : ¬condition → Follows edit change ending lexemes before' after') :
    Follows edit change ending lexemes (if condition then before else before')
      (if condition' then after else after') := by
  by_cases h : condition
  · rw [if_pos h, if_pos (hcondition.2 h)]
    exact hthen h
  · rw [if_neg h, if_neg (mt hcondition.1 h)]
    exact helse h

/-- What was read is made into something else. -/
theorem map {before after : Reading α} {make make' : α × List Lexeme → Reading β}
    (h : Follows edit change ending lexemes before after)
    (hmake : ∀ value, ∃ made, ∀ rest, make (value, rest) = .ok (made, rest) ∧
      make' (change value, rest) = .ok (change' made, rest)) :
    Follows edit change' ending lexemes (before.bind make) (after.bind make') := by
  unfold Follows at h
  split at h
  · next value =>
    obtain ⟨made, hmade⟩ := hmake value
    have hafter : ∀ rest, after = .ok (change value, rest) →
        after.bind make' = .ok (change' made, rest) := by
      rintro rest rfl
      exact (hmade rest).2
    rw [show Except.bind (.ok (value, [])) make = .ok (made, []) from (hmade []).1]
    cases ending with
    | tight => exact hafter _ h
    | semicolon => exact h.imp (hafter _) (hafter _)
    | loose => exact fun hbehind => hafter _ (h hbehind)
  · next value first rest =>
    obtain ⟨made, hmade⟩ := hmake value
    rw [show Except.bind (.ok (value, first :: rest)) make = .ok (made, first :: rest) from
      (hmade _).1, h.2]
    exact ⟨h.1, (hmade _).2⟩
  · exact ⟨h.1, by rw [h.2]; rfl⟩
  · exact fun hbehind => by rw [h hbehind]; rfl

/-- At the end of the lexemes nothing is unexpected and nothing is left. So a reader that may read
on there is only held to the edits that put nothing behind. -/
theorem at_end {before after after' : Reading α} (hafter : edit.behind = [] → after = after')
    (h : Follows edit change ending [] before after')
    (hending : ending = .loose ∨ Leaves 0 before) :
    Follows edit change ending lexemes before after := by
  unfold Follows at *
  split at h
  · next value =>
    rcases hending with rfl | hleaves
    · exact fun hbehind => (hafter hbehind).trans (h hbehind)
    · exact absurd (hleaves value [] rfl) (Nat.not_lt_zero 0)
  · simp at h
  · simp at h
  · exact fun hbehind => (hafter hbehind).trans (h hbehind)

section

variable {before after : Reading α} {next next' : α × List Lexeme → Reading β}

/-- One reader after another that leaves what is put behind. -/
theorem bind (h : Follows edit change .tight lexemes before after)
    (hnext : ∀ value rest, before = .ok (value, rest) →
      Follows edit change' ending rest (next (value, rest))
        (next' (change value, edit.apply rest))) :
    Follows edit change' ending lexemes (before.bind next) (after.bind next') := by
  unfold Follows at h
  split at h
  · next value =>
    rw [show after = _ from h]
    exact (hnext value [] rfl).mono List.nil_suffix
  · next value first rest =>
    rw [h.2]
    exact (hnext value _ rfl).mono h.1
  · exact ⟨h.1, by rw [h.2]; rfl⟩
  · exact fun hbehind => by rw [h hbehind]; rfl

/-- One reader after another that may read on, if the first one stops at the end of the lexemes or
may read on as well. -/
theorem bind_at_end (h : Follows edit change .loose lexemes before after)
    (hnext : ∀ value rest, before = .ok (value, rest) →
      Follows edit change' ending rest (next (value, rest))
        (next' (change value, edit.apply rest)))
    (hending : ending = .loose ∨ ∀ value, Leaves 0 (next (value, []))) :
    Follows edit change' ending lexemes (before.bind next) (after.bind next') := by
  unfold Follows at h
  split at h
  · next value =>
    refine at_end (fun hbehind => ?_) (hnext value [] rfl) (hending.imp_right (· value))
    rw [h hbehind, Edit.apply_nil, hbehind]
    rfl
  · next value first rest =>
    rw [h.2]
    exact (hnext value _ rfl).mono h.1
  · exact ⟨h.1, by rw [h.2]; rfl⟩
  · exact fun hbehind => by rw [h hbehind]; rfl

/-- One reader after another, both of which may read on. -/
theorem bind_loose (h : Follows edit change .loose lexemes before after)
    (hnext : ∀ value rest, before = .ok (value, rest) →
      Follows edit change' .loose rest (next (value, rest))
        (next' (change value, edit.apply rest))) :
    Follows edit change' .loose lexemes (before.bind next) (after.bind next') :=
  bind_at_end h hnext (.inl rfl)

/-- A reader that needs a lexeme, after one that may read on. -/
theorem bind_of_leaves (h : Follows edit change .loose lexemes before after)
    (hnext : ∀ value rest, before = .ok (value, rest) →
      Follows edit change' ending rest (next (value, rest))
        (next' (change value, edit.apply rest)))
    (hleaves : ∀ value, Leaves 0 (next (value, []))) :
    Follows edit change' ending lexemes (before.bind next) (after.bind next') :=
  bind_at_end h hnext (.inr hleaves)

end

/-- A semicolon behind the value is taken along, and so it may be one that was put there. -/
theorem ok_acceptSign {value : α} (h : rest <:+ lexemes) :
    Follows edit change .semicolon lexemes (.ok (value, acceptSign ";" rest))
      (.ok (change value, acceptSign ";" (edit.apply rest))) := by
  cases rest with
  | nil => exact .inr rfl
  | cons first rest =>
    have hsuffix : acceptSign ";" (first :: rest) <:+ first :: rest := by
      unfold acceptSign
      split
      · exact List.suffix_cons ..
      · exact List.suffix_refl _
    have happly : acceptSign ";" (edit.apply (first :: rest)) =
        edit.apply (acceptSign ";" (first :: rest)) := by
      unfold acceptSign
      rw [show startsWithSign ";" (edit.apply (first :: rest)) =
        startsWithSign ";" (first :: rest) from rfl]
      split <;> rfl
    rw [happly]
    exact .ok (hsuffix.trans h)

/-- A reader that fails where there are no lexemes. -/
theorem of_nil {reader reader' : List Lexeme → Reading α} {expected : Expected}
    (hnil : reader [] = .error (.endOfCode expected)) (hnil' : reader' [] = reader []) :
    Follows edit change ending lexemes (reader []) (reader' edit.behind) := by
  rw [hnil]
  refine endOfCode fun hbehind => ?_
  rw [hbehind, hnil', hnil]

end Follows

/-! ### Single lexemes -/

variable (edit)

/-- Whether a word is there is seen from the first lexeme. -/
theorem acceptKeyword_cons_cases (words : List String) (lexeme : Lexeme) (rest : List Lexeme) :
    ∃ isFirst later, later <:+ lexeme :: rest ∧
      acceptKeyword words (lexeme :: rest) = (isFirst, later) ∧
      acceptKeyword words (edit.apply (lexeme :: rest)) = (isFirst, edit.apply later) := by
  by_cases hword : lexeme.token.isKeywordOf words = true
  · exact ⟨true, rest, List.suffix_cons .., if_pos hword, if_pos hword⟩
  · exact ⟨false, lexeme :: rest, List.suffix_refl _, if_neg hword, if_neg hword⟩

theorem exists_of_acceptKeyword {words : List String}
    (h : acceptKeyword words lexemes = (true, rest)) :
    ∃ first, lexemes = first :: rest ∧ first.token.isKeywordOf words = true := by
  unfold acceptKeyword at h
  split at h
  · next first later =>
    split at h
    · next hword =>
      cases h
      exact ⟨first, rfl, hword⟩
    · cases h
  · cases h

theorem follows_identifier (expected : Expected) (lexemes : List Lexeme) :
    Follows edit id .tight lexemes (identifier expected lexemes)
      (identifier expected (edit.apply lexemes)) := by
  cases lexemes with
  | nil => exact .of_nil rfl rfl
  | cons lexeme rest =>
    refine .ite .rfl (fun _ => ?_) fun _ => ?_
    · exact .ok (List.suffix_cons ..)
    · exact .unexpected List.mem_cons_self

theorem follows_sign (text : String) (lexemes : List Lexeme) :
    Follows edit id .tight lexemes (sign text lexemes) (sign text (edit.apply lexemes)) := by
  cases lexemes with
  | nil => exact .of_nil rfl rfl
  | cons lexeme rest =>
    refine .ite .rfl (fun _ => ?_) fun _ => ?_
    · exact .ok (List.suffix_cons ..)
    · exact .unexpected List.mem_cons_self

/-! ### Lists -/

theorem follows_commaSeparated {item : List Lexeme → Reading α} (hitem : Consumes item)
    (h : ∀ lexemes, Follows edit id .loose lexemes (item lexemes) (item (edit.apply lexemes)))
    (lexemes : List Lexeme) :
    Follows edit id .loose lexemes (commaSeparated item hitem lexemes)
      (commaSeparated item hitem (edit.apply lexemes)) := by
  -- Every item leaves fewer lexemes to the rest of the list
  induction hlength : lexemes.length using Nat.strongRecOn generalizing lexemes with
  | _ n ih =>
    rw [commaSeparated_eq_bind hitem lexemes, commaSeparated_eq_bind hitem (edit.apply lexemes)]
    refine (h lexemes).bind_loose fun value rest hread => ?_
    have hless := hitem lexemes value rest hread
    cases rest with
    | nil =>
      -- Without a lexeme there is no comma, and one may be put behind
      refine fun hbehind => ?_
      simp [hbehind, startsWithSign]
    | cons comma behind =>
      refine .ite .rfl (fun _ => ?_) fun _ => ?_
      · rw [List.length_cons] at hless
        have hrest := ih behind.length (by omega) behind rfl
        exact (hrest.mono (List.suffix_cons ..)).map fun _ => ⟨_, fun _ => ⟨rfl, rfl⟩⟩
      · exact .ok (List.suffix_refl _)

end JassOutline.Zinc
