import JassOutline.Proofs.BlockComment.Parts
import JassOutline.Proofs.BlockComment.Rereading

/-!
# The parts of a blanked text

A blanked text has the strings and the line comments of the text, at the same places. Where a block
comment was, it has blanks and line feeds, which open nothing. So nothing is left to be blanked.

## Key results

- `reads_blank`: the parts of the blanked text
- `blank_blank`: blanking a blanked text changes nothing
-/

namespace JassOutline.BlockComment

open Text

/-- What is read of a part in the blanked text. -/
def Part.reread : Part → List Part
  | .blockComment chars => (chars.flatMap blankChar).map .code
  | part => [part]

/-- Where it may stop depends on the next character only, and so a body stops in front of any text
that starts in the same way. -/
theorem StopsFirst.of_head {stop : List Char → List Char → Prop} {body rest rest' : List Char}
    (h : StopsFirst stop body rest)
    (hstop : ∀ front behind behind', behind.head? = behind'.head? → stop front behind →
      stop front behind')
    (hhead : rest.head? = rest'.head?) : StopsFirst stop body rest' := by
  refine ⟨?_, fun front behind heq hlength hstops => ?_⟩
  · rcases h.stops with rfl | hstops
    · exact .inl (List.head?_eq_none_iff.1 hhead.symm)
    · exact .inr (hstop _ _ _ hhead hstops)
  · -- The next character is one of the body, whatever stands behind it
    obtain ⟨inner, rfl⟩ : front <+: body :=
      List.prefix_of_prefix_length_le ⟨behind, heq⟩ ⟨rest', rfl⟩ (Nat.le_of_lt hlength)
    obtain rfl : behind = inner ++ rest' := by simpa using heq
    cases inner with
    | nil => simp at hlength
    | cons c inner =>
      have hstops' : stop front (c :: (inner ++ rest)) :=
        hstop front (c :: (inner ++ rest')) _ rfl hstops
      exact h.first front _ (by simp) hlength hstops'

/-- In front of blanks, a text starts as it does in front of the text that was blanked, unless a
comment opens there. -/
theorem head?_blank {rest : List Char} (h : rest.head? ≠ some '/') :
    (blank rest).head? = rest.head? := by
  cases rest with
  | nil => simp [blank, blankFrom]
  | cons c rest =>
    have hopens : opensComment (c :: rest) = false :=
      opensComment_cons_eq_false.2 fun hc => absurd (congrArg some hc) h
    rw [blank, blankFrom_code hopens, List.head?_cons, List.head?_cons]

/-- What closes a string does so in front of the blanked text as well. -/
theorem Closes.blank {closing rest : List Char} (h : Closes ['"'] closing rest)
    (hhead : closing = [] → (BlockComment.blank rest).head? = rest.head?) :
    Closes ['"'] closing (BlockComment.blank rest) := by
  refine h.imp_right fun ⟨hnil, hopen⟩ => ⟨hnil, fun ⟨behind, hbehind⟩ => hopen ?_⟩
  have hquote : rest.head? = some '"' := by rw [← hhead hnil, ← hbehind]; rfl
  obtain ⟨behind, rfl⟩ := List.head?_eq_some_iff.1 hquote
  exact ⟨behind, rfl⟩

/-- A part that is no block comment is the first part of what is left of the text. -/
theorem Starts.blank {part : Part} {rest : List Char} (h : Starts part rest)
    (hpart : part.isBlockComment = false) : Starts part (BlockComment.blank rest) := by
  cases h with
  | code hquote hopens => exact .code hquote (opensComment_blankFrom hopens .code fun _ => rfl)
  | @string body closing _ hbody hclosing =>
    -- Without a closing quote, the text ends, or a line feed is next
    have hhead : closing = [] → (BlockComment.blank rest).head? = rest.head? := by
      rintro rfl
      refine head?_blank fun hslash => ?_
      rcases hbody.stops with hnil | hline | hquote
      · rw [List.nil_append] at hnil
        rw [hnil] at hslash
        cases hslash
      · cases hslash.symm.trans hline
      · cases hslash.symm.trans hquote.1
    refine .string (hbody.of_head (fun _ _ _ heq hstop => ?_) ?_) (hclosing.blank hhead)
    · exact hstop.imp (heq ▸ ·) (fun hquote => heq ▸ hquote)
    · cases closing with
      | nil => exact (hhead rfl).symm
      | cons c closing => rfl
  | @lineComment body _ hbody =>
    refine .lineComment (hbody.of_head (fun _ _ _ heq hstop => heq.symm.trans hstop) ?_)
    refine (head?_blank fun hslash => ?_).symm
    rcases hbody.stops with rfl | hline
    · cases hslash
    · cases hslash.symm.trans hline
  | blockComment => cases hpart

/-- Blanks and line feeds open nothing. -/
theorem reads_blanks {shown rest : List Char} {parts : List Part}
    (hshown : ∀ c ∈ shown, c ≠ '"' ∧ c ≠ '/') (h : Reads rest parts) :
    Reads (shown ++ rest) (shown.map .code ++ parts) := by
  induction shown with
  | nil => exact h
  | cons c shown ih =>
    obtain ⟨⟨hquote, hslash⟩, hlater⟩ := List.forall_mem_cons.1 hshown
    have hopens : opensComment (c :: (shown ++ rest)) = false :=
      opensComment_cons_eq_false.2 fun hc => absurd hc hslash
    exact .cons (.code hquote hopens) (ih hlater)

theorem ne_of_mem_flatMap_blankChar {chars : List Char} {c : Char}
    (h : c ∈ chars.flatMap blankChar) : c ≠ '"' ∧ c ≠ '/' := by
  obtain ⟨own, -, hc⟩ := List.mem_flatMap.1 h
  unfold blankChar at hc
  split at hc
  · next hline =>
    rw [List.mem_singleton.1 hc, hline]
    decide
  · rw [List.eq_of_mem_replicate hc]
    decide

theorem reads_blank {text : List Char} {parts : List Part} (h : Reads text parts) :
    Reads (blank text) (parts.flatMap Part.reread) := by
  induction h with
  | nil => simpa [blank, blankFrom] using Reads.nil
  | @cons part rest parts hpart _ ih =>
    have hblank : blank (part.chars ++ rest) = part.blanked ++ blank rest :=
      blankFrom_of_starts hpart
    rw [hblank, List.flatMap_cons]
    cases hcomment : part.isBlockComment with
    | false =>
      have hsame : part.blanked = part.chars := by simp [Part.blanked, hcomment]
      have hreread : part.reread = [part] := by
        cases part <;> first | rfl | cases hcomment
      rw [hsame, hreread]
      exact .cons (hpart.blank hcomment) ih
    | true =>
      cases part with
      | blockComment chars => exact reads_blanks (fun _ => ne_of_mem_flatMap_blankChar) ih
      | _ => cases hcomment

theorem flatMap_blanked_reread (parts : List Part) :
    (parts.flatMap Part.reread).flatMap Part.blanked = parts.flatMap Part.blanked := by
  rw [List.flatMap_assoc]
  refine List.flatMap_congr fun part _ => ?_
  cases part with
  | blockComment chars =>
    show ((chars.flatMap blankChar).map Part.code).flatMap Part.blanked = chars.flatMap blankChar
    rw [List.flatMap_map]
    exact List.flatMap_singleton' _
  | _ => exact List.append_nil _

/-- Blanking a blanked text changes nothing. Its strings and line comments are those of the text,
and where a block comment was, nothing opens. -/
theorem blank_blank (text : List Char) :
    blank (blank text) = blank text ∧
      ∃ parts, Reads text parts ∧ Reads (blank text) (parts.flatMap Part.reread) := by
  obtain ⟨parts, hparts⟩ := exists_reads text
  refine ⟨?_, parts, hparts, reads_blank hparts⟩
  rw [blank_of_reads (reads_blank hparts), flatMap_blanked_reread, blank_of_reads hparts]

end JassOutline.BlockComment
