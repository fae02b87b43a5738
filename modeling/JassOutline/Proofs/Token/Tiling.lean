import JassOutline.Proofs.Bounds.Lexer
import JassOutline.Proofs.List
import JassOutline.Proofs.Token.Lockstep

/-!
# Tokens tile their text

A text consists of its tokens and of the blanks between them. `Tiles` says so of the text from a
column on: a gap of blanks, a token at its columns, and so on up to the last gap. Nothing of a text
is lost, because the gaps can be cut out of it between the columns of the tokens.

## Key results

- `tiles_tokenizeFrom`: the tokens of a text tile it
- `tokenize_lossless`: where the tokens of a text stand, and what lies between them
-/

namespace JassOutline.Token

open Text

/-- From the column on, the text consists of the tokens at their columns and of blanks. -/
inductive Tiles (line : Nat) : Nat → List Token → List Char → Prop
  | last {column : Nat} {gap : List Char} : gap.all isBlank = true → Tiles line column [] gap
  | token {column : Nat} {token : Token} {tokens : List Token} {gap word rest : List Char} :
    gap.all isBlank = true → word ≠ [] → token.line = line → token.text = String.ofList word →
    token.startColumn = column + byteLength gap →
    token.stopColumn = token.startColumn + byteLength word →
    Tiles line token.stopColumn tokens rest →
    Tiles line column (token :: tokens) (gap ++ (word ++ rest))

/-- The gap in front of each token and the one behind the last token, as the columns cut them out
of a text. -/
def gaps (text : List Char) : Nat → List Token → Except Fault (List (List Char))
  | column, [] => do return [← fromByte text column]
  | column, token :: rest => do
    return (← slice text column token.startColumn) :: (← gaps text token.stopColumn rest)

/-- A gap and a token in turn, and the gaps that are left over. -/
def interleave : List (List Char) → List Token → List Char
  | gap :: gaps, token :: rest => gap ++ (token.text.toList ++ interleave gaps rest)
  | gaps, _ => gaps.flatten

namespace Tiles

variable {line column : Nat} {tokens : List Token} {text back : List Char}

/-- A blank makes the first gap longer. -/
theorem blank {c : Char} (hblank : isBlank c = true)
    (h : Tiles line (column + c.utf8Size) tokens back) : Tiles line column tokens (c :: back) := by
  cases h with
  | last hgap => exact .last (by rw [List.all_cons, hblank, hgap]; rfl)
  | @token _ token tokens gap word rest hgap hword hline htext hstart hstop hrest =>
    have hgap' : (c :: gap).all isBlank = true := by
      rw [List.all_cons, hblank, hgap]
      rfl
    have hstart' : token.startColumn = column + byteLength (c :: gap) := by
      rw [hstart, byteLength_cons, Nat.add_assoc]
    exact .token hgap' hword hline htext hstart' hstop hrest

theorem startColumn_le (h : Tiles line column tokens back) :
    ∀ token ∈ tokens, column ≤ token.startColumn := by
  induction h with
  | last => simp
  | token _ _ _ _ hstart hstop _ ih =>
    refine List.forall_mem_cons.2 ⟨by omega, fun token htoken => ?_⟩
    have hle := ih token htoken
    omega

/-- Every token stands on the line and ends where the text does at the latest. -/
theorem columns (h : Tiles line column tokens back) : ∀ token ∈ tokens, token.line = line ∧
    token.startColumn ≤ token.stopColumn ∧ token.stopColumn ≤ column + byteLength back := by
  induction h with
  | last => simp
  | token _ _ hline _ hstart hstop _ ih =>
    simp only [byteLength_append]
    refine List.forall_mem_cons.2 ⟨⟨hline, by omega, by omega⟩, fun token htoken => ?_⟩
    obtain ⟨hline, hordered, hle⟩ := ih token htoken
    exact ⟨hline, hordered, by omega⟩

/-- No token overlaps with another one. -/
theorem pairwise (h : Tiles line column tokens back) :
    tokens.Pairwise fun token next => token.stopColumn ≤ next.startColumn := by
  induction h with
  | last => exact .nil
  | token _ _ _ _ _ _ hrest ih => exact .cons hrest.startColumn_le ih

/-- Every token stands where its columns say, with at least one character. -/
theorem stands (h : Tiles line column tokens back) (hback : Stands text column back) :
    ∀ token ∈ tokens, token.line = line ∧ token.text ≠ "" ∧
      token.startColumn < token.stopColumn ∧
      slice text token.startColumn token.stopColumn = .ok token.text.toList := by
  induction h with
  | last => simp
  | token hgap hword hline htext hstart hstop hrest ih =>
    have hbehind := hback.append
    rw [← hstart] at hbehind
    refine List.forall_mem_cons.2 ⟨⟨hline, ?_, ?_, ?_⟩, ih (hstop ▸ hbehind.append)⟩
    · rw [htext]
      simpa [String.ext_iff] using hword
    · rw [hstop]
      exact Nat.lt_add_of_pos_right (byteLength_pos hword)
    · rw [hstop, htext, String.toList_ofList, hbehind.slice]

/-- A character is a blank, or it lies within a token. -/
theorem isBlank_or_covered (h : Tiles line column tokens back) {front behind : List Char} {c : Char}
    (hback : back = front ++ c :: behind) :
    isBlank c = true ∨ ∃ token ∈ tokens, token.startColumn ≤ column + byteLength front ∧
      column + byteLength front + c.utf8Size ≤ token.stopColumn := by
  induction h generalizing front with
  | last hgap =>
    subst hback
    exact .inl (List.all_eq_true.1 hgap c (by simp))
  | @token column token tokens gap word rest hgap hword hline htext hstart hstop hrest ih =>
    obtain ⟨later, rfl⟩ | ⟨before, rfl, hbefore⟩ := cases_append hback
    · exact .inl (List.all_eq_true.1 hgap c (by simp))
    obtain ⟨later, rfl⟩ | ⟨before, rfl, hrest⟩ := cases_append hbefore
    · refine .inr ⟨token, List.mem_cons_self, ?_, ?_⟩
      · rw [hstart, byteLength_append]
        omega
      · rw [hstop, hstart, byteLength_append, byteLength_append, byteLength_cons]
        omega
    · refine (ih hrest).imp_right fun ⟨other, hother, hle, hge⟩ => ?_
      rw [hstop, hstart] at hle hge
      refine ⟨other, List.mem_cons_of_mem _ hother, ?_, ?_⟩
      · rw [byteLength_append, byteLength_append]
        omega
      · rw [byteLength_append, byteLength_append]
        omega

/-- The gaps that the columns cut out are blank, and the text is made up of them and of the
tokens. -/
theorem exists_gaps (h : Tiles line column tokens back) (hback : Stands text column back) :
    ∃ found, gaps text column tokens = .ok found ∧ (∀ gap ∈ found, gap.all isBlank = true) ∧
      interleave found tokens = back := by
  induction h with
  | @last column gap hgap =>
    refine ⟨[gap], ?_, by simpa using hgap, by simp [interleave]⟩
    rw [gaps, hback.fromByte]
    rfl
  | @token column token tokens gap word rest hgap hword hline htext hstart hstop hrest ih =>
    have hbehind := hback.append
    rw [← hstart] at hbehind
    obtain ⟨found, hfound, hblank, hrebuilt⟩ := ih (hstop ▸ hbehind.append)
    refine ⟨gap :: found, ?_, List.forall_mem_cons.2 ⟨hgap, hblank⟩, ?_⟩
    · rw [gaps, hstart, hback.slice, hfound]
      rfl
    · rw [interleave, hrebuilt, htext, String.toList_ofList]

end Tiles

/-- The tokens of a text tile it. -/
theorem tiles_tokenizeFrom (line column : Nat) (text : List Char) :
    Tiles line column (tokenizeFrom line column text) text := by
  fun_induction tokenizeFrom line column text with
  | case1 => exact .last rfl
  | case2 column c rest hblank ih => exact ih.blank hblank
  | case3 column c rest hblank kind size hextent word stop ih =>
    have htext : [] ++ (word ++ rest.drop size) = c :: rest := by
      rw [List.nil_append, List.cons_append, List.take_append_drop]
    rw [← htext]
    exact .token rfl (List.cons_ne_nil _ _) rfl rfl rfl rfl ih

/-- A token starts at its column, with a character that is no blank. -/
theorem exists_first_char {line column : Nat} {text : List Char} {token : Token}
    (h : token ∈ tokenizeFrom line column text) :
    ∃ front c behind rest, text = front ++ c :: behind ∧ isBlank c = false ∧
      token.startColumn = column + byteLength front ∧ token.text.toList = c :: rest := by
  fun_induction tokenizeFrom line column text with
  | case1 => cases h
  | case2 column c rest hblank ih =>
    obtain ⟨front, d, behind, word, rfl, hd, hcolumn, htext⟩ := ih h
    refine ⟨c :: front, d, behind, word, rfl, hd, ?_, htext⟩
    rw [hcolumn, byteLength_cons, Nat.add_assoc]
  | case3 column c rest hblank kind size hextent word stop ih =>
    rcases List.mem_cons.1 h with rfl | hlater
    · exact ⟨[], c, rest, rest.take size, rfl, by simpa using hblank, rfl, String.toList_ofList⟩
    · obtain ⟨front, d, behind, later, hrest, hd, hcolumn, htext⟩ := ih hlater
      refine ⟨word ++ front, d, behind, later, ?_, hd, ?_, htext⟩
      · rw [List.append_assoc, ← hrest, List.cons_append, List.take_append_drop]
      · rw [hcolumn, byteLength_append, Nat.add_assoc]

/-- The reader of tokens comes to an end on every text. Each token has a character at least, is on
the line, and reads as the text does between its columns; the tokens stand one behind the other
without overlapping; a character outside of all tokens is a blank; and the text can be made up again
from the tokens and the gaps between them. -/
theorem tokenize_lossless (line : Nat) (text : List Char) :
    Scan.tokenize line text = .ok (tokenize line text) ∧
    (∀ token ∈ tokenize line text, token.line = line ∧ token.text ≠ "" ∧
      token.startColumn < token.stopColumn ∧
      slice text token.startColumn token.stopColumn = .ok token.text.toList) ∧
    ((tokenize line text).Pairwise fun token next => token.stopColumn ≤ next.startColumn) ∧
    (∀ front c behind, text = front ++ c :: behind → isBlank c = true ∨
      ∃ token ∈ tokenize line text, token.startColumn ≤ byteLength front ∧
        byteLength front + c.utf8Size ≤ token.stopColumn) ∧
    ∃ found, gaps text 0 (tokenize line text) = .ok found ∧
      (∀ gap ∈ found, gap.all isBlank = true) ∧ interleave found (tokenize line text) = text := by
  have htiles : Tiles line 0 (tokenize line text) text := tiles_tokenizeFrom line 0 text
  have hstands := Stands.start text
  refine ⟨Scan.tokenize_eq line text, htiles.stands hstands, htiles.pairwise, ?_,
    htiles.exists_gaps hstands⟩
  intro front c behind htext
  simpa using htiles.isBlank_or_covered htext

end JassOutline.Token
