import JassOutline.Proofs.Zinc.Balanced

/-!
# Braces of tokens

Braces nest among tokens if no front of them closes more braces than it opens, and all of them
together close as many as they open. To walk over the labels of the tokens and count the open braces
is the same, and a comment changes nothing.

## Key results

- `closesBraces_iff`, `bracesNest_iff`: the count of open braces and all fronts
- `closesBraces_append_of_closed`: what closes its braces leaves the others open
-/

namespace JassOutline.Zinc

open Lexeme

/-- How often the sign is among the tokens. -/
def countSign (text : String) (tokens : List Token) : Nat :=
  tokens.countP (·.label = .sign text)

/-- No front of the tokens closes more braces than it opens, and all of them together close as many
as they open. -/
structure BracesNest (tokens : List Token) : Prop where
  front_le : ∀ front, front <+: tokens → countSign "\x7d" front ≤ countSign "\x7b" front
  total_eq : countSign "\x7d" tokens = countSign "\x7b" tokens

theorem countSign_cons (text : String) (token : Token) (rest : List Token) :
    countSign text (token :: rest) =
      countSign text rest + if token.label = .sign text then 1 else 0 := by
  simp [countSign, List.countP_cons]

theorem forall_prefix_cons {p : List Token → Prop} {first : Token} {rest : List Token} :
    (∀ front, front <+: first :: rest → p front) ↔
      p [] ∧ ∀ front, front <+: rest → p (first :: front) := by
  constructor
  · exact fun h => ⟨h [] List.nil_prefix,
      fun front hfront => h _ (List.cons_prefix_cons.2 ⟨rfl, hfront⟩)⟩
  · rintro ⟨hnil, hcons⟩ front hfront
    obtain rfl | ⟨later, rfl, hlater⟩ := List.prefix_cons_iff.1 hfront
    · exact hnil
    · exact hcons later hlater

/-- To walk over the labels and count is to look at all fronts. -/
theorem closesBraces_iff (depth : Nat) (tokens : List Token) :
    closesBraces depth (tokens.map Token.label) = true ↔
      (∀ front, front <+: tokens → countSign "\x7d" front ≤ depth + countSign "\x7b" front) ∧
        countSign "\x7d" tokens = depth + countSign "\x7b" tokens := by
  induction tokens generalizing depth with
  | nil => simp [closesBraces, countSign, eq_comm (a := 0)]
  | cons token rest ih =>
    have hnil : ∀ text, countSign text [] = 0 := fun _ => rfl
    simp only [forall_prefix_cons, countSign_cons, hnil, Nat.add_zero, Nat.zero_le, true_and]
    by_cases hopening : token.label = .sign "\x7b"
    · have hnext : closesBraces depth ((token :: rest).map Token.label) =
          closesBraces (depth + 1) (rest.map Token.label) := by
        simp [closesBraces, hopening]
      rw [hnext, ih]
      simp [hopening, Nat.add_assoc, Nat.add_comm 1]
    by_cases hclosing : token.label = .sign "\x7d"
    · cases depth with
      | zero =>
        -- The front of this one token closes more than it opens
        have hfails : closesBraces 0 ((token :: rest).map Token.label) = false := by
          simp [closesBraces, hclosing]
        rw [hfails]
        simp only [hclosing, Bool.false_eq_true, false_iff]
        exact fun h => absurd (h.1 [] List.nil_prefix) (by decide)
      | succ depth =>
        have hnext : closesBraces (depth + 1) ((token :: rest).map Token.label) =
            closesBraces depth (rest.map Token.label) := by
          simp [closesBraces, hclosing]
        rw [hnext, ih]
        simp [hclosing]
        grind
    · rw [List.map_cons, closesBraces_cons hopening hclosing, ih]
      simp [hopening, hclosing]

theorem bracesNest_iff {tokens : List Token} :
    BracesNest tokens ↔ closesBraces 0 (tokens.map Token.label) = true := by
  rw [closesBraces_iff]
  simp only [Nat.zero_add]
  exact ⟨fun h => ⟨h.front_le, h.total_eq⟩, fun h => ⟨h.1, h.2⟩⟩

instance (tokens : List Token) : Decidable (BracesNest tokens) :=
  decidable_of_iff _ bracesNest_iff.symm

/-- Comments are no braces. -/
theorem closesBraces_ofTokensAfter (depth : Nat) (comments : List CommentLine)
    (tokens : List Token) :
    closesBraces depth ((ofTokensAfter comments tokens).map label) =
      closesBraces depth (tokens.map Token.label) := by
  induction tokens generalizing depth comments with
  | nil => rfl
  | cons token rest ih =>
    rw [ofTokensAfter]
    split
    · next hcomment =>
      have hne : ∀ text, token.label ≠ .sign text := fun text hlabel => by
        have hkind : token.kind = .operator := congrArg Label.kind hlabel
        simp [Token.isComment, hkind] at hcomment
      rw [ih, List.map_cons, closesBraces_cons (hne _) (hne _)]
    · rw [List.map_cons, List.map_cons, closesBraces.eq_def, closesBraces.eq_def]
      simp only [ih, label]

/-- What closes all braces that it opens leaves the number of open braces as it was. -/
theorem closesBraces_append_of_closed {a : List Label} {opened : Nat}
    (h : closesBraces opened a = true) (depth : Nat) (rest : List Label) :
    closesBraces (depth + opened) (a ++ rest) = closesBraces depth rest := by
  induction a generalizing opened with
  | nil =>
    obtain rfl : opened = 0 := by simpa [closesBraces] using h
    rfl
  | cons first later ih =>
    by_cases hopening : first = .sign "\x7b"
    · have hlater : closesBraces (opened + 1) later = true := by
        simpa [closesBraces, hopening] using h
      rw [← ih hlater]
      simp [closesBraces, hopening, Nat.add_assoc]
    by_cases hclosing : first = .sign "\x7d"
    · cases opened with
      | zero => simp [closesBraces, hclosing] at h
      | succ opened =>
        have hlater : closesBraces opened later = true := by
          simpa [closesBraces, hclosing] using h
        rw [← ih hlater]
        simp [closesBraces, hclosing, ← Nat.add_assoc]
    · rw [closesBraces_cons hopening hclosing] at h
      rw [List.cons_append, closesBraces_cons hopening hclosing, ih h]

/-- What stands in front does not tell apart what is the same for any number of open braces. -/
theorem closesBraces_append_congr {a b : List Label}
    (h : ∀ depth, closesBraces depth a = closesBraces depth b) (front : List Label) (depth : Nat) :
    closesBraces depth (front ++ a) = closesBraces depth (front ++ b) := by
  induction front generalizing depth with
  | nil => exact h depth
  | cons first later ih =>
    -- Both sides start with the same label
    rw [List.cons_append, List.cons_append, closesBraces.eq_def, closesBraces.eq_def]
    simp only [ih]

end JassOutline.Zinc
