import JassOutline.Proofs.Zinc.Braces
import Mathlib.Control.Monad.Basic

/-!
# The brace that closes a body

A body is read statement by statement, and of a statement up to three lexemes at once. Those behind
the first one are words, so no brace is passed without being counted, and a body ends where its
braces close one another for the first time, whatever else it holds. Where they never do, the
lexemes end inside of the body.

`TakesShortest` says of a reading that it takes the shortest front of a kind. For what is left of a
body, these are the fronts that close the braces which are open there.

## Key results

- `TakesShortest.cons`: one lexeme in front of a reading
- `takesShortest_bodyFrom`: where the rest of a body ends
- `body_takes_shortest_nest`: a body is the shortest front in which the braces nest
-/

namespace JassOutline.Zinc

open Lexeme

variable {first : Lexeme} {front lexemes rest : List Lexeme} {opened later : Nat}

/-! ### Shortest fronts -/

/-- The reading ends with the shortest front that has the property. Without such a front it fails at
the end of the lexemes, where a closing brace is missing. -/
def TakesShortest (p : List Lexeme → Prop) (lexemes : List Lexeme) : Reading α → Prop
  | .ok (_, rest) =>
    ∃ front, lexemes = front ++ rest ∧ p front ∧ ∀ other, p other → front.length ≤ other.length
  | .error e => e = .endOfCode (.sign "\x7d") ∧ ∀ front, ¬p front

namespace TakesShortest

variable {p q : List Lexeme → Prop} {reading : Reading α}

/-- All fronts that have the property start with the same lexeme. -/
theorem cons (hq : ∀ front, q front ↔ ∃ inside, front = first :: inside ∧ p inside)
    (h : TakesShortest p rest reading) : TakesShortest q (first :: rest) reading := by
  cases reading with
  | error e =>
    refine ⟨h.1, fun front hfront => ?_⟩
    obtain ⟨inside, -, hinside⟩ := (hq front).1 hfront
    exact h.2 inside hinside
  | ok read =>
    obtain ⟨inside, hrest, hinside, hshortest⟩ := h
    refine ⟨first :: inside, congrArg (first :: ·) hrest, (hq _).2 ⟨inside, rfl, hinside⟩,
      fun other hother => ?_⟩
    obtain ⟨behind, rfl, hbehind⟩ := (hq other).1 hother
    exact Nat.succ_le_succ (hshortest behind hbehind)

/-- What is taken does not depend on what the reading gives. -/
theorem map {f : α → β} (h : TakesShortest p lexemes reading) :
    TakesShortest p lexemes (reading.map (Prod.map f id)) := by
  cases reading <;> exact h

theorem exists_ok_iff (h : TakesShortest p lexemes reading) :
    (∃ value rest, reading = .ok (value, rest)) ↔ ∃ front, p front := by
  cases reading with
  | error e =>
    refine ⟨?_, fun ⟨front, hfront⟩ => absurd hfront (h.2 front)⟩
    rintro ⟨_, _, ⟨⟩⟩
  | ok answer =>
    obtain ⟨front, -, hfront, -⟩ := h
    exact ⟨fun _ => ⟨front, hfront⟩, fun _ => ⟨answer.1, answer.2, rfl⟩⟩

theorem eq_error (h : TakesShortest p lexemes reading) (hnone : ¬∃ front, p front) :
    reading = .error (.endOfCode (.sign "\x7d")) := by
  cases reading with
  | error e => rw [h.1]
  | ok answer => exact absurd (h.exists_ok_iff.1 ⟨answer.1, answer.2, rfl⟩) hnone

end TakesShortest

/-! ### Fronts that close braces -/

/-- The front of the lexemes closes the braces that it opens and the given number of open ones. -/
structure Closes (opened : Nat) (lexemes front : List Lexeme) : Prop where
  isFront : front <+: lexemes
  closed : closesBraces opened (front.map label) = true

/-- Nothing is left to close. -/
theorem takesShortest_closed (value : α) (lexemes : List Lexeme) :
    TakesShortest (Closes 0 lexemes) lexemes (.ok (value, lexemes)) :=
  ⟨[], rfl, ⟨List.nil_prefix, rfl⟩, fun _ _ => Nat.zero_le _⟩

/-- Something is left to close at the end. -/
theorem takesShortest_nil (opened : Nat) :
    TakesShortest (Closes (opened + 1) []) []
      (.error (.endOfCode (.sign "\x7d")) : Reading α) := by
  refine ⟨rfl, fun front ⟨hfront, hclosed⟩ => ?_⟩
  rw [List.prefix_nil.1 hfront] at hclosed
  cases hclosed

section

variable {reading : Reading α}

/-- Where braces are open, they are not closed before the first lexeme. -/
theorem TakesShortest.step
    (hstep : ∀ labels, closesBraces (opened + 1) (first.label :: labels) =
      closesBraces later labels)
    (h : TakesShortest (Closes later rest) rest reading) :
    TakesShortest (Closes (opened + 1) (first :: rest)) (first :: rest) reading := by
  refine h.cons fun front => ⟨?_, ?_⟩
  · rintro ⟨hfront, hclosed⟩
    obtain rfl | ⟨inside, rfl, hinside⟩ := List.prefix_cons_iff.1 hfront
    · cases hclosed
    · exact ⟨inside, rfl, hinside, by rwa [List.map_cons, hstep] at hclosed⟩
  · rintro ⟨inside, rfl, hinside, hclosed⟩
    exact ⟨List.cons_prefix_cons.2 ⟨rfl, hinside⟩, by rwa [List.map_cons, hstep]⟩

theorem takesShortest_opening (hbrace : first.token.isOperator "\x7b" = true)
    (h : TakesShortest (Closes (opened + 1 + 1) rest) rest reading) :
    TakesShortest (Closes (opened + 1) (first :: rest)) (first :: rest) reading := by
  rw [Token.isOperator_eq, beq_iff_eq] at hbrace
  exact h.step fun labels => by simp [closesBraces, label, hbrace]

theorem takesShortest_closing (hbrace : first.token.isOperator "\x7d" = true)
    (h : TakesShortest (Closes opened rest) rest reading) :
    TakesShortest (Closes (opened + 1) (first :: rest)) (first :: rest) reading := by
  rw [Token.isOperator_eq, beq_iff_eq] at hbrace
  exact h.step fun labels => by simp [closesBraces, label, hbrace]

theorem takesShortest_other (hopening : first.token.isOperator "\x7b" = false)
    (hclosing : first.token.isOperator "\x7d" = false)
    (h : TakesShortest (Closes (opened + 1) rest) rest reading) :
    TakesShortest (Closes (opened + 1) (first :: rest)) (first :: rest) reading := by
  rw [Token.isOperator_eq, beq_eq_false_iff_ne] at hopening hclosing
  exact h.step fun labels => closesBraces_cons hopening hclosing _ labels

/-- Words are no braces, however many are read at once. -/
theorem takesShortest_words {size : Nat}
    (hwords : ∀ taken ∈ lexemes.take size, taken.token.isIdentifier = true)
    (h : TakesShortest (Closes (opened + 1) (lexemes.drop size)) (lexemes.drop size) reading) :
    TakesShortest (Closes (opened + 1) lexemes) lexemes reading :=
  of_drop_words (p := fun lexemes => TakesShortest (Closes (opened + 1) lexemes) lexemes reading)
    (fun _ _ hword hrest => takesShortest_other (Token.isOperator_of_isIdentifier hword _)
      (Token.isOperator_of_isIdentifier hword _) hrest) hwords h

end

/-! ### Bodies -/

/-- Inside of a body, its own brace is open besides those that are counted. -/
theorem takesShortest_bodyFrom (depth : Nat) (atStatement : Bool) (lexemes : List Lexeme) :
    TakesShortest (Closes (depth + 1) lexemes) lexemes (bodyFrom depth atStatement lexemes) := by
  fun_induction bodyFrom depth atStatement lexemes with
  | case1 depth => exact takesShortest_nil depth
  | case2 _ _ _ _ hopening ih => exact takesShortest_opening hopening ih
  | case3 _ first rest _ hclosing =>
    exact takesShortest_closing hclosing (takesShortest_closed _ rest)
  | case4 _ _ _ _ hclosing _ ih => exact takesShortest_closing hclosing ih
  | case5 _ _ _ _ hopening hclosing _ ih =>
    exact takesShortest_other (by simpa using hopening) (by simpa using hclosing) ih
  | case6 depth first rest hopening hclosing _ declared size hhead ih =>
    -- What is read together with the first lexeme are words
    have hwords := isIdentifier_of_mem_localHead first rest
    rw [hhead] at hwords
    have hrest := (takesShortest_words hwords ih).map (f := Body.prepend declared.toList)
    refine takesShortest_other (by simpa using hopening) (by simpa using hclosing) ?_
    cases hread : bodyFrom depth false (rest.drop size) <;> rw [hread] at hrest <;> exact hrest
  | case7 _ _ _ _ hopening hclosing _ _ ih =>
    exact takesShortest_other (by simpa using hopening) (by simpa using hclosing) ih

/-- A front of the lexemes, not the empty one, in which the braces nest. -/
structure IsNestedFront (lexemes front : List Lexeme) : Prop where
  isFront : front <+: lexemes
  ne_nil : front ≠ []
  nests : BracesNest (front.map token)

/-- Behind an opening brace, the front closes one open brace. -/
theorem isNestedFront_cons_iff (hbrace : first.token.isOperator "\x7b" = true) :
    IsNestedFront (first :: rest) front ↔
      ∃ inside, front = first :: inside ∧ Closes 1 rest inside := by
  rw [Token.isOperator_eq, beq_iff_eq] at hbrace
  have hnest : ∀ inside : List Lexeme, BracesNest ((first :: inside).map token) ↔
      closesBraces 1 (inside.map label) = true := fun inside => by
    rw [bracesNest_iff, List.map_map]
    show closesBraces 0 (first.token.label :: inside.map label) = true ↔ _
    simp [closesBraces, hbrace]
  constructor
  · rintro ⟨hfront, hne, hnests⟩
    obtain rfl | ⟨inside, rfl, hinside⟩ := List.prefix_cons_iff.1 hfront
    · exact absurd rfl hne
    · exact ⟨inside, rfl, hinside, (hnest inside).1 hnests⟩
  · rintro ⟨inside, rfl, hinside, hclosed⟩
    exact ⟨List.cons_prefix_cons.2 ⟨rfl, hinside⟩, List.cons_ne_nil _ _, (hnest inside).2 hclosed⟩

theorem takesShortest_body (hbrace : startsWithSign "\x7b" lexemes = true) :
    TakesShortest (IsNestedFront lexemes) lexemes (body lexemes) := by
  cases lexemes with
  | nil => cases hbrace
  | cons first rest =>
    rw [startsWithSign] at hbrace
    have hread : body (first :: rest) = bodyFrom 0 true rest := by
      simp [body, sign, hbrace, bind, Except.bind]
    rw [hread]
    exact (takesShortest_bodyFrom 0 true rest).cons fun _ => isNestedFront_cons_iff hbrace

/-- A body is the shortest front of the lexemes in which the braces nest. There is such a front
exactly if the body is read, and otherwise the closing brace is missing at the end. What is read at
once with the first word of a statement holds neither a brace nor a semicolon. -/
theorem body_takes_shortest_nest (hbrace : startsWithSign "\x7b" lexemes = true) :
    ((∃ read rest, body lexemes = .ok (read, rest)) ↔ ∃ front, IsNestedFront lexemes front) ∧
      (∀ read rest, body lexemes = .ok (read, rest) →
        ∃ front, lexemes = front ++ rest ∧ IsNestedFront lexemes front ∧
          ∀ other, IsNestedFront lexemes other → front.length ≤ other.length) ∧
      ((¬∃ front, IsNestedFront lexemes front) →
        body lexemes = .error (.endOfCode (.sign "\x7d"))) ∧
      ∀ (first : Lexeme) (rest : List Lexeme), ∀ taken ∈ rest.take (localHead first rest).2,
        ∀ sign ∈ ["\x7b", "\x7d", ";"], taken.token.isOperator sign = false := by
  have hbody := takesShortest_body hbrace
  refine ⟨hbody.exists_ok_iff, fun read rest hread => ?_, hbody.eq_error,
    fun first rest taken htaken sign _ => ?_⟩
  · rw [hread] at hbody
    exact hbody
  · exact Token.isOperator_of_isIdentifier (isIdentifier_of_mem_localHead first rest taken htaken)
      sign

/-- A body with parentheses, blocks and semicolons in any order, a constant and runs of words, and a
closing brace behind it. -/
def crookedBody : List Lexeme :=
  Lexeme.ofTokens (Token.tokenize 0
    "\x7b integer a b; if (x \x7b constant real r ) ; \x7d constant \x7b \x7d ; y \x7d \x7d".toList)

theorem body_takes_shortest_nest_crookedBody :
    startsWithSign "\x7b" crookedBody = true ∧
      ∃ read rest, body crookedBody = .ok (read, rest) ∧
        read.locals.map (fun v => (v.type, v.name)) =
          [(some "integer", some "a"), (some "real", some "r")] ∧
        rest.map (·.token.text) = ["\x7d"] ∧
        ∃ front, crookedBody = front ++ rest ∧ IsNestedFront crookedBody front ∧
          ∀ other, IsNestedFront crookedBody other → front.length ≤ other.length := by
  have hbrace : startsWithSign "\x7b" crookedBody = true := by decide +kernel
  obtain ⟨-, htakes, -, -⟩ := body_takes_shortest_nest hbrace
  have hread : body crookedBody = .ok ((body crookedBody).toOption.getD (⟨[], default⟩, [])) := by
    decide +kernel
  exact ⟨hbrace, _, _, hread, by decide +kernel, by decide +kernel, htakes _ _ hread⟩

end JassOutline.Zinc
