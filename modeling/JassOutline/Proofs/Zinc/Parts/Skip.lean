import JassOutline.Proofs.Zinc.Declares.Grammar
import JassOutline.Proofs.Zinc.Parts

/-!
# Words, signs and what is read over

The readers of which those of declarations are made. A reader of words and signs takes no brace, so
what it takes is a part that changes no count. A reader that reads over has a count of its own, and
what it takes does not matter to the braces outside.

## Key results

- `cuts_singly`, `Cuts.after`: readers that take no brace
- `cuts_skipSize`, `cuts_skipValue`, `cuts_skipDeclaration`: readers that read over
- `exists_of_operatorName`: the name of an operator holds no parenthesis
-/

namespace JassOutline.Zinc

open Lexeme

variable {opened later : Nat} {lexeme : Lexeme} {lexemes rest : List Lexeme}

/-! ### Lexemes without braces -/

/-- No brace is between the lexemes and the rest of them. -/
def Passes (lexemes rest : List Lexeme) : Prop :=
  ∃ front, lexemes = front ++ rest ∧ ∀ opened, Turns opened opened (front.map label)

/-- The reader takes no brace. -/
def Keeps (lexemes : List Lexeme) (reading : Reading α) : Prop :=
  ∀ value rest, reading = .ok (value, rest) → Passes lexemes rest

theorem Passes.refl (lexemes : List Lexeme) : Passes lexemes lexemes :=
  ⟨[], rfl, turns_nil⟩

theorem Passes.trans {middle : List Lexeme} (h : Passes lexemes middle)
    (hrest : Passes middle rest) : Passes lexemes rest := by
  obtain ⟨front, rfl, hfront⟩ := h
  obtain ⟨back, rfl, hback⟩ := hrest
  refine ⟨front ++ back, by rw [List.append_assoc], fun opened => ?_⟩
  rw [List.map_append]
  exact (hfront opened).append (hback opened)

theorem passes_other (hopening : lexeme.token.isOperator "\x7b" = false)
    (hclosing : lexeme.token.isOperator "\x7d" = false) (rest : List Lexeme) :
    Passes (lexeme :: rest) rest :=
  ⟨[lexeme], rfl, turns_other hopening hclosing⟩

theorem isOperator_of_text_ne {token : Token} {text : String} (h : token.text ≠ text) :
    token.isOperator text = false := by
  simp [Token.isOperator, h]

theorem passes_identifier (h : lexeme.token.isIdentifier = true) (rest : List Lexeme) :
    Passes (lexeme :: rest) rest := by
  have hno := Token.isOperator_of_isIdentifier h
  exact passes_other (hno _) (hno _) rest

theorem passes_sign {text : String} (h : lexeme.token.isOperator text = true)
    (hopening : text ≠ "\x7b") (hclosing : text ≠ "\x7d") (rest : List Lexeme) :
    Passes (lexeme :: rest) rest := by
  have htext : lexeme.token.text = text := by
    simp only [Token.isOperator, Bool.and_eq_true, beq_iff_eq] at h
    exact h.2
  subst htext
  exact passes_other (isOperator_of_text_ne hopening) (isOperator_of_text_ne hclosing) rest

theorem passes_tail {text : String} (h : startsWithSign text lexemes = true)
    (hopening : text ≠ "\x7b") (hclosing : text ≠ "\x7d") : Passes lexemes lexemes.tail := by
  cases lexemes with
  | nil => cases h
  | cons lexeme rest => exact passes_sign h hopening hclosing rest

theorem passes_acceptSign {text : String} (hopening : text ≠ "\x7b") (hclosing : text ≠ "\x7d")
    (lexemes : List Lexeme) : Passes lexemes (acceptSign text lexemes) := by
  unfold acceptSign
  split
  · next hsign => exact passes_tail hsign hopening hclosing
  · exact .refl _

/-- Where no word is accepted, all lexemes are left. -/
theorem acceptKeyword_of_false {words : List String}
    (h : acceptKeyword words lexemes = (false, rest)) : rest = lexemes := by
  unfold acceptKeyword at h
  split at h
  · split at h
    · cases h
    · cases h; rfl
  · cases h; rfl

theorem passes_acceptKeyword (words : List String) (lexemes : List Lexeme) :
    Passes lexemes (acceptKeyword words lexemes).2 := by
  cases haccept : acceptKeyword words lexemes with
  | mk isAccepted rest =>
    cases isAccepted with
    | true =>
      obtain ⟨first, rfl, hword⟩ := exists_of_acceptKeyword haccept
      simp only [Token.isKeywordOf, Bool.and_eq_true] at hword
      exact passes_identifier hword.1 rest
    | false =>
      rw [acceptKeyword_of_false haccept]
      exact .refl _

/-- A visibility is no brace. -/
theorem turns_visibility {visibility : Visibility}
    (hword : Visibility.ofWord? lexeme.token.text = some visibility) (opened : Nat) :
    Turns opened opened [lexeme.label] := by
  have hne : ∀ text, Visibility.ofWord? text = none → lexeme.token.isOperator text = false :=
    fun text htext => isOperator_of_text_ne fun h => by simp [h, htext] at hword
  exact turns_other (hne _ (by decide)) (hne _ (by decide)) opened

theorem passes_acceptVisibility (lexemes : List Lexeme) :
    Passes lexemes (acceptVisibility lexemes).2 := by
  unfold acceptVisibility
  split
  · exact .refl _
  · split
    · next lexeme rest _ _ hword => exact ⟨[lexeme], rfl, turns_visibility hword⟩
    · exact .refl _

theorem passes_acceptBinding (lexemes : List Lexeme) :
    Passes lexemes (acceptBinding lexemes).2 := by
  have hstatic := passes_acceptKeyword ["static"] lexemes
  unfold acceptBinding
  split
  · next hrest => rwa [hrest] at hstatic
  · next rest hrest =>
    rw [hrest] at hstatic
    have hstub := passes_acceptKeyword ["stub"] rest
    split
    · next hrest => rw [hrest] at hstub; exact hstatic.trans hstub
    · next hrest => rw [hrest] at hstub; exact hstatic.trans hstub

namespace Keeps

theorem ok {value : α} (h : Passes lexemes rest) :
    Keeps lexemes (.ok (value, rest) : Reading α) := by
  rintro _ _ ⟨⟩
  exact h

theorem error {e : ZincError} : Keeps lexemes (.error e : Reading α) := by
  rintro _ _ ⟨⟩

theorem after {reading : Reading α} (h : Keeps rest reading) (hpasses : Passes lexemes rest) :
    Keeps lexemes reading :=
  fun value left hread => hpasses.trans (h value left hread)

theorem bind {reading : Reading α} {next : α × List Lexeme → Reading β}
    (h : Keeps lexemes reading) (hnext : ∀ value rest, Keeps rest (next (value, rest))) :
    Keeps lexemes (reading.bind next) := by
  cases reading with
  | error e => exact error
  | ok pair =>
    obtain ⟨value, rest⟩ := pair
    exact (hnext value rest).after (h value rest rfl)

end Keeps

theorem keeps_identifier (expected : Expected) (lexemes : List Lexeme) :
    Keeps lexemes (identifier expected lexemes) := by
  unfold identifier
  split
  · exact .error
  · next lexeme rest =>
    split
    · next hword => exact .ok (passes_identifier hword rest)
    · exact .error

theorem keeps_sign {text : String} (hopening : text ≠ "\x7b") (hclosing : text ≠ "\x7d")
    (lexemes : List Lexeme) : Keeps lexemes (sign text lexemes) := by
  unfold sign
  split
  · exact .error
  · next lexeme rest =>
    split
    · next hsign => exact .ok (passes_sign hsign hopening hclosing rest)
    · exact .error

theorem keeps_commaSeparated {item : List Lexeme → Reading α} (hitem : Consumes item)
    (h : ∀ lexemes, Keeps lexemes (item lexemes)) (lexemes : List Lexeme) :
    Keeps lexemes (commaSeparated item hitem lexemes) := by
  fun_induction commaSeparated item hitem lexemes with
  | case1 => exact .error
  | case2 lexemes value rest hread hcomma ih =>
    -- The comma behind the item is no brace either
    have hbehind := passes_tail hcomma (by decide) (by decide)
    exact (ih.after ((h lexemes value rest hread).trans hbehind)).bind fun _ _ => .ok (.refl _)
  | case3 lexemes value rest hread => exact .ok (h lexemes value rest hread)

theorem keeps_variableType (lexemes : List Lexeme) : Keeps lexemes (variableType lexemes) := by
  have hconstant := passes_acceptKeyword ["constant"] lexemes
  refine Keeps.after (Keeps.bind (keeps_identifier _ _) fun _ rest => ?_) hconstant
  exact .ok (passes_acceptKeyword ["array"] rest)

theorem keeps_parametersFrom (lexemes : List Lexeme) :
    Keeps lexemes (parametersFrom lexemes) := by
  fun_induction parametersFrom lexemes with
  | case3 type rest htype hnothing =>
    -- The word `nothing`, and the parenthesis right behind it
    simp only [Bool.not_eq_true', Bool.not_eq_false] at htype
    simp only [Bool.and_eq_true] at hnothing
    have hclose := passes_tail hnothing.2 (by decide) (by decide)
    exact .ok ((passes_identifier htype rest).trans hclose)
  | case8 type htype name separator rest hname _ hcomma _ ih =>
    -- A type and a name, and a comma that a further parameter follows
    simp only [Bool.not_eq_true', Bool.not_eq_false] at htype hname
    have hnames := (passes_identifier htype _).trans (passes_identifier hname (separator :: rest))
    have hseparator := passes_sign hcomma (by decide) (by decide) rest
    exact (ih.after (hnames.trans hseparator)).bind fun _ _ => .ok (.refl _)
  | case9 type htype name separator rest hname _ _ hclose _ =>
    -- The last parameter, with the parenthesis that closes the list
    simp only [Bool.not_eq_true', Bool.not_eq_false] at htype hname
    have hnames := (passes_identifier htype _).trans (passes_identifier hname (separator :: rest))
    exact .ok (hnames.trans (passes_sign hclose (by decide) (by decide) rest))
  | _ => exact .error

theorem keeps_parameters (lexemes : List Lexeme) : Keeps lexemes (parameters lexemes) := by
  refine Keeps.bind (keeps_sign (by decide) (by decide) _) fun _ rest => ?_
  dsimp only
  split
  · next hclose => exact .ok (passes_tail hclose (by decide) (by decide))
  · exact keeps_parametersFrom rest

theorem keeps_result (lexemes : List Lexeme) : Keeps lexemes (result lexemes) := by
  unfold result
  split
  · next harrow =>
    have htype := (keeps_identifier .returnType lexemes.tail).after
      (passes_tail harrow (by decide) (by decide))
    exact htype.bind fun _ _ => .ok (.refl _)
  · exact .ok (.refl _)

theorem keeps_requirement (lexemes : List Lexeme) : Keeps lexemes (requirement lexemes) := by
  have hname := (keeps_identifier .libraryName _).after (passes_acceptKeyword ["optional"] lexemes)
  exact hname.bind fun _ _ => .ok (.refl _)

theorem keeps_requirements (lexemes : List Lexeme) : Keeps lexemes (requirements lexemes) := by
  have hword := passes_acceptKeyword ["requires", "needs", "uses"] lexemes
  unfold requirements
  split
  · next hrest =>
    rw [hrest] at hword
    exact (keeps_commaSeparated _ keeps_requirement _).after hword
  · next hrest =>
    rw [hrest] at hword
    exact .ok hword

/-! ### Single parts -/

theorem Passes.tiles (h : Passes lexemes rest) (opened : Nat) :
    Tiles opened opened lexemes [.upTo .singly lexemes rest] rest := by
  obtain ⟨front, rfl, hfront⟩ := h
  exact tiles_singly front rest (hfront opened)

/-- What holds no brace is taken one by one. -/
theorem cuts_singly {reader : List Lexeme → Reading α} (h : Keeps lexemes (reader lexemes))
    (opened : Nat) :
    Cuts opened opened lexemes (reader lexemes) (onePart .singly reader lexemes) :=
  .single fun value rest hread => (h value rest hread).tiles opened

/-- What may be left out, and then another reader. -/
theorem Cuts.after {reading : Reading α} {accept : List Lexeme → β × List Lexeme}
    {others : List (List Lexeme → PartReading)} (hpasses : Passes lexemes (accept lexemes).2)
    (h : Cuts opened later (accept lexemes).2 reading (inTurn others (accept lexemes).2)) :
    Cuts opened later lexemes reading
      (inTurn (onePart .singly (fun lexemes => .ok (accept lexemes)) :: others) lexemes) := by
  rw [inTurn, onePart]
  exact h.behind (hpasses.tiles opened)

theorem cuts_identifier (expected : Expected) (opened : Nat) (lexemes : List Lexeme) :
    Cuts opened opened lexemes (identifier expected lexemes)
      (onePart .singly (identifier expected) lexemes) :=
  cuts_singly (keeps_identifier expected lexemes) opened

/-- An opening brace is one more that is open. -/
theorem cuts_opening (opened : Nat) (lexemes : List Lexeme) :
    Cuts opened (opened + 1) lexemes (sign "\x7b" lexemes)
      (onePart .singly (sign "\x7b") lexemes) :=
  .single fun value rest hread => by
    obtain ⟨brace, rfl, hbrace⟩ := eq_cons_of_sign hread
    exact tiles_singly [brace] rest (turns_opening hbrace opened)

/-- A part that is read over does not matter to the braces outside. -/
theorem tiles_over (way : Way) (front rest : List Lexeme) (hover : Part.isOver ⟨way, front⟩ = true)
    (hcounts : Part.Counts ⟨way, front⟩) (opened : Nat) :
    Tiles opened opened (front ++ rest) [.upTo way (front ++ rest) rest] rest where
  covers := by simp
  counts := by simpa using hcounts
  turns := by simpa [outside, hover] using turns_nil opened

/-- A body closes its own braces. -/
theorem tiles_body (front rest : List Lexeme) (h : closesBraces 0 (front.map label) = true)
    (opened : Nat) :
    Tiles opened opened (front ++ rest) [.upTo .body (front ++ rest) rest] rest where
  covers := by simp
  counts := by
    rw [Part.upTo_append, List.forall_mem_singleton]
    show BracesNest (front.map token)
    rw [bracesNest_iff, List.map_map]
    exact h
  turns := by simpa [outside, Part.isOver] using turns_of_closed h opened

/-! ### Reading over -/

theorem isOperatorOf_singleton (token : Token) (text : String) :
    token.isOperatorOf [text] = token.isOperator text := by
  simp [Token.isOperatorOf, Token.isOperator, beq_eq_decide]

theorem exists_of_closeGroup {opening closing : String} {depth : Nat}
    (h : closeGroup opening closing depth lexemes = .ok ((), rest)) :
    ∃ front, lexemes = front ++ rest ∧
      closesSigns [opening] [closing] (depth + 1) front = true := by
  fun_induction closeGroup opening closing depth lexemes with
  | case1 => cases h
  | case2 depth first later hopening ih =>
    obtain ⟨front, rfl, hfront⟩ := ih h
    exact ⟨first :: front, rfl, by
      simpa [closesSigns, isOperatorOf_singleton, hopening] using hfront⟩
  | case3 first later hopening hclosing =>
    -- The sign that closes the group is the last one of it
    cases h
    exact ⟨[first], rfl, by simp [closesSigns, isOperatorOf_singleton, hopening, hclosing]⟩
  | case4 first later hopening hclosing depth ih =>
    obtain ⟨front, rfl, hfront⟩ := ih h
    exact ⟨first :: front, rfl, by
      simpa [closesSigns, isOperatorOf_singleton, hopening, hclosing] using hfront⟩
  | case5 depth first later hopening hclosing ih =>
    obtain ⟨front, rfl, hfront⟩ := ih h
    exact ⟨first :: front, rfl, by
      simpa [closesSigns, isOperatorOf_singleton, hopening, hclosing] using hfront⟩

theorem exists_of_skipExpression {depth : Nat}
    (h : skipExpression depth lexemes = .ok ((), rest)) :
    ∃ front, lexemes = front ++ rest ∧
      closesSigns openingSigns closingSigns depth front = true := by
  fun_induction skipExpression depth lexemes with
  | case1 => cases h
  | case2 depth first later hend =>
    -- What ends the value is left, and no bracket is open there
    cases h
    exact ⟨[], rfl, by simp [closesSigns, hend.1]⟩
  | case3 depth first later _ hopening ih =>
    obtain ⟨front, rfl, hfront⟩ := ih h
    exact ⟨first :: front, rfl, by simpa [closesSigns, hopening] using hfront⟩
  | case4 => cases h
  | case5 first later hopening hclosing depth _ ih =>
    obtain ⟨front, rfl, hfront⟩ := ih h
    exact ⟨first :: front, rfl, by simpa [closesSigns, hopening, hclosing] using hfront⟩
  | case6 depth first later _ hopening hclosing ih =>
    obtain ⟨front, rfl, hfront⟩ := ih h
    exact ⟨first :: front, rfl, by simpa [closesSigns, hopening, hclosing] using hfront⟩

/-- A semicolon is no bracket. -/
theorem openBehind_semicolon (h : lexeme.token.isOperator ";" = true) (depth : Nat) :
    openBehind depth [lexeme] = depth := by
  rw [Token.isOperator_eq, beq_iff_eq] at h
  simp [openBehind, isOperatorOf_of_sign h, openingSigns, closingSigns]

theorem exists_of_skipDeclaration {depth : Nat}
    (h : skipDeclaration depth lexemes = .ok ((), rest)) :
    ∃ front, lexemes = front ++ rest ∧ openBehind depth front = 0 := by
  fun_induction skipDeclaration depth lexemes with
  | case1 => cases h
  | case2 depth first later hbrace =>
    -- The brace around the declaration is left
    cases h
    exact ⟨[], rfl, hbrace.1⟩
  | case3 depth first later _ hopening ih =>
    obtain ⟨front, rfl, hfront⟩ := ih h
    exact ⟨first :: front, rfl, by simpa [openBehind, hopening] using hfront⟩
  | case4 depth brace later _ hopening hclosing hbrace =>
    -- The brace closes what is open, if anything is, and a semicolon may follow
    cases h
    have hnone : depth - 1 = 0 := Nat.sub_eq_zero_of_le hbrace.1
    unfold acceptSign
    split
    · next hsemicolon =>
      obtain ⟨semicolon, hlater, hsign⟩ := eq_cons_of_startsWithSign hsemicolon
      refine ⟨[brace, semicolon], by rw [List.cons_append, List.singleton_append, ← hlater], ?_⟩
      rw [openBehind, if_neg hopening, if_pos hclosing, hnone, openBehind_semicolon hsign]
    · exact ⟨[brace], rfl, by simp [openBehind, hopening, hclosing, hnone]⟩
  | case5 depth first later _ hopening hclosing _ ih =>
    obtain ⟨front, rfl, hfront⟩ := ih h
    exact ⟨first :: front, rfl, by simpa [openBehind, hopening, hclosing] using hfront⟩
  | case6 depth semicolon later _ _ _ hsemicolon =>
    -- Outside of brackets, a semicolon is the end
    cases h
    exact ⟨[semicolon], rfl, (openBehind_semicolon hsemicolon.2 depth).trans hsemicolon.1⟩
  | case7 depth first later _ hopening hclosing _ ih =>
    obtain ⟨front, rfl, hfront⟩ := ih h
    exact ⟨first :: front, rfl, by simpa [openBehind, hopening, hclosing] using hfront⟩

theorem exists_of_operatorName (lexemes : List Lexeme) :
    ∃ front, lexemes = front ++ (operatorName lexemes).2 ∧
      ∀ lexeme ∈ front, lexeme.token.isOperator "(" = false := by
  fun_induction operatorName lexemes with
  | case1 => exact ⟨[], rfl, by simp⟩
  | case2 => exact ⟨[], rfl, by simp⟩
  | case3 first rest hopening name behind hname ih =>
    -- Anything but the parenthesis belongs to the name
    obtain ⟨front, hfront, hcounts⟩ := ih
    rw [hname] at hfront
    exact ⟨first :: front, congrArg (first :: ·) hfront,
      List.forall_mem_cons.2 ⟨by simpa using hopening, hcounts⟩⟩

theorem cuts_skipSize (opened : Nat) (lexemes : List Lexeme) :
    Cuts opened opened lexemes (skipSize lexemes) (onePart .size skipSize lexemes) :=
  .single fun value rest hread => by
    unfold skipSize at hread
    split at hread
    · next hsize =>
      obtain ⟨_, _, hgroup, hread⟩ := exists_of_bind hread
      cases hread
      obtain ⟨bracket, hlexemes, hbracket⟩ := eq_cons_of_startsWithSign hsize
      obtain ⟨inside, hinside, hcloses⟩ := exists_of_closeGroup hgroup
      rw [hlexemes, hinside]
      refine tiles_over .size (bracket :: inside) rest rfl ?_ opened
      simpa [Part.Counts, closesSigns, isOperatorOf_singleton, hbracket] using hcloses
    · cases hread
      exact tiles_over .size [] lexemes rfl rfl opened

theorem cuts_skipValue (opened : Nat) (lexemes : List Lexeme) :
    Cuts opened opened lexemes (skipValue lexemes) (onePart .value skipValue lexemes) :=
  .single fun value rest hread => by
    unfold skipValue at hread
    split at hread
    · next hvalue =>
      obtain ⟨equals, hlexemes, hequals⟩ := eq_cons_of_startsWithSign hvalue
      obtain ⟨inside, hinside, hcloses⟩ := exists_of_skipExpression hread
      rw [hlexemes, hinside]
      refine tiles_over .value (equals :: inside) rest rfl ?_ opened
      rw [Token.isOperator_eq, beq_iff_eq] at hequals
      simpa [Part.Counts, closesSigns, isOperatorOf_of_sign hequals, openingSigns, closingSigns]
        using hcloses
    · cases hread
      exact tiles_over .value [] lexemes rfl rfl opened

theorem cuts_skipDeclaration (opened : Nat) (lexemes : List Lexeme) :
    Cuts opened opened lexemes (skipDeclaration 0 lexemes)
      (onePart .declaration (skipDeclaration 0) lexemes) :=
  .single fun value rest hread => by
    obtain ⟨front, rfl, hopen⟩ := exists_of_skipDeclaration hread
    exact tiles_over .declaration front rest rfl hopen opened

end JassOutline.Zinc
