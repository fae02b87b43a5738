import JassOutline.Proofs.BlockComment.Reading
import JassOutline.Proofs.Bounds.Blanking

/-!
# A text in parts

A text falls apart into strings, line comments, block comments and the characters between them. Read
from left to right, what opens first decides what is read next, and it goes on to the first place
where it may stop. `Reads` says so without a reader: it states the conditions that the parts of a
text meet. Every text has parts, and only one list of them. The bytes of the blanked text are those
of its parts, where the bytes of block comments are spaces.

## Key results

- `exists_reads`, `Reads.unique`: every text has parts, and no others
- `encode_blank_of_reads`: the bytes of the blanked text
- `blank_append`: a text behind one that ends in code
- `blank_exact`: all of it, with a block comment between two texts
-/

namespace JassOutline.BlockComment

open Text

/-! ### The first place to stop -/

/-- The body reaches to the first place where it may stop, or to the end of the text. Whether it may
stop depends on what it has come to and on what is behind. -/
structure StopsFirst (stop : List Char → List Char → Prop) (body rest : List Char) : Prop where
  stops : rest = [] ∨ stop body rest
  first : ∀ front behind, front ++ behind = body ++ rest → front.length < body.length →
    ¬stop front behind

namespace StopsFirst

variable {stop : List Char → List Char → Prop} {c : Char} {body rest : List Char}

/-- A body that has not stopped goes on in the same way behind its first character. -/
theorem tail (h : StopsFirst stop (c :: body) rest) :
    ¬stop [] (c :: (body ++ rest)) ∧ StopsFirst (fun front => stop (c :: front)) body rest := by
  refine ⟨h.first [] _ rfl (Nat.zero_lt_succ _), h.stops, fun front behind heq hlength => ?_⟩
  exact h.first (c :: front) behind (congrArg (c :: ·) heq) (Nat.succ_lt_succ hlength)

/-- There is only one first place. -/
theorem unique {body' rest' : List Char} (h : StopsFirst stop body rest)
    (h' : StopsFirst stop body' rest') (heq : body ++ rest = body' ++ rest') :
    body = body' ∧ rest = rest' := by
  -- The shorter body may stop, where the longer one must not, unless the text ends there
  have hle : ∀ {a b a' b'}, StopsFirst stop a b → StopsFirst stop a' b' → a ++ b = a' ++ b' →
      a'.length ≤ a.length := by
    intro a b a' b' ha ha' heq
    refine Nat.le_of_not_lt fun hlt => ?_
    rcases ha.stops with hnil | hstop
    · have hlength := congrArg List.length heq
      rw [hnil, List.append_nil, List.length_append] at hlength
      omega
    · exact ha'.first a b heq hlt hstop
  exact List.append_inj heq (Nat.le_antisymm (hle h' h heq.symm) (hle h h' heq))

end StopsFirst

theorem exists_stopsFirst (stop : List Char → List Char → Prop) (text : List Char) :
    ∃ body rest, text = body ++ rest ∧ StopsFirst stop body rest := by
  induction text generalizing stop with
  | nil => exact ⟨[], [], rfl, .inl rfl, fun _ _ _ hlength => absurd hlength (Nat.not_lt_zero _)⟩
  | cons c text ih =>
    by_cases hstop : stop [] (c :: text)
    · exact ⟨[], c :: text, rfl, .inr hstop, fun _ _ _ hlength =>
        absurd hlength (Nat.not_lt_zero _)⟩
    · obtain ⟨body, rest, rfl, hbody⟩ := ih fun front => stop (c :: front)
      refine ⟨c :: body, rest, rfl, hbody.stops, fun front behind heq hlength => ?_⟩
      cases front with
      | nil => exact (List.nil_append behind).symm.trans heq ▸ hstop
      | cons d front =>
        obtain ⟨rfl, hrest⟩ := List.cons.inj heq
        exact hbody.first front behind hrest (Nat.lt_of_succ_lt_succ hlength)

/-! ### Parts -/

/-- A line comment stops in front of a line feed. -/
def lineStop (_body rest : List Char) : Prop := rest.head? = some '\n'

/-- A block comment stops at a star with a slash behind it. -/
def commentStop (_body rest : List Char) : Prop := ['*', '/'] <+: rest

/-- Whether a character behind the text is escaped. It is if a backslash stands in front of it that
is not escaped itself. The flag tells whether the first character of the text is escaped. -/
def escapesNext (escaped : Bool) (text : List Char) : Bool :=
  text.foldl (fun escaped c => c == '\\' && !escaped) escaped

/-- A string stops in front of a line feed, and at a quote that is not escaped. -/
def stringStop (escaped : Bool) (body rest : List Char) : Prop :=
  rest.head? = some '\n' ∨ rest.head? = some '"' ∧ escapesNext escaped body = false

/-- A part of a text with the characters that it is made of. -/
inductive Part where
  /-- A character outside of strings and comments. -/
  | code (c : Char)
  | string (chars : List Char)
  | lineComment (chars : List Char)
  | blockComment (chars : List Char)
  deriving DecidableEq, Repr

namespace Part

/-- The characters of a part. -/
def chars : Part → List Char
  | code c => [c]
  | string chars => chars
  | lineComment chars => chars
  | blockComment chars => chars

/-- Whether the part is a block comment. -/
def isBlockComment : Part → Bool
  | blockComment _ => true
  | _ => false

/-- The part as it is shown in the blanked text. -/
def blanked (part : Part) : List Char :=
  if part.isBlockComment then part.chars.flatMap blankChar else part.chars

end Part

/-- What closes a part in front of the rest: its closer, or nothing where the closer is missing. -/
def Closes (closer closing rest : List Char) : Prop :=
  closing = closer ∨ closing = [] ∧ ¬closer <+: rest

/-- The part is the first one of the text that is made of it and of the rest. A string ends in front
of a line feed, and a block comment at the end of the text, where nothing closes them. -/
inductive Starts : Part → List Char → Prop where
  | code {c : Char} {rest : List Char} (hquote : c ≠ '"')
      (hopens : opensComment (c :: rest) = false) : Starts (.code c) rest
  | string {body closing rest : List Char}
      (hbody : StopsFirst (stringStop false) body (closing ++ rest))
      (hclosing : Closes ['"'] closing rest) : Starts (.string ('"' :: (body ++ closing))) rest
  | lineComment {body rest : List Char} (hbody : StopsFirst lineStop body rest) :
      Starts (.lineComment ('/' :: '/' :: body)) rest
  | blockComment {body closing rest : List Char}
      (hbody : StopsFirst commentStop body (closing ++ rest))
      (hclosing : Closes ['*', '/'] closing rest) :
      Starts (.blockComment ('/' :: '*' :: (body ++ closing))) rest

/-- The parts of a text from left to right. -/
inductive Reads : List Char → List Part → Prop where
  | nil : Reads [] []
  | cons {part : Part} {rest : List Char} {parts : List Part} (hpart : Starts part rest)
      (hrest : Reads rest parts) : Reads (part.chars ++ rest) (part :: parts)

/-! ### Every text has parts -/

theorem exists_of_opensComment {c : Char} {rest : List Char}
    (h : opensComment (c :: rest) = true) :
    c = '/' ∧ ∃ body, rest = '*' :: body ∨ rest = '/' :: body := by
  unfold opensComment at h
  split at h
  · next heq =>
    obtain ⟨rfl, rfl⟩ := List.cons.inj heq
    exact ⟨rfl, _, .inl rfl⟩
  · next heq =>
    obtain ⟨rfl, rfl⟩ := List.cons.inj heq
    exact ⟨rfl, _, .inr rfl⟩
  · cases h

theorem exists_closes (closer rest : List Char) :
    ∃ closing behind, rest = closing ++ behind ∧ Closes closer closing behind := by
  by_cases h : closer <+: rest
  · obtain ⟨behind, rfl⟩ := h
    exact ⟨closer, behind, rfl, .inl rfl⟩
  · exact ⟨[], rest, rfl, .inr ⟨rfl, h⟩⟩

theorem exists_starts (c : Char) (text : List Char) :
    ∃ part rest, c :: text = part.chars ++ rest ∧ Starts part rest := by
  by_cases hquote : c = '"'
  · obtain ⟨body, rest, rfl, hbody⟩ := exists_stopsFirst (stringStop false) text
    obtain ⟨closing, behind, rfl, hclosing⟩ := exists_closes ['"'] rest
    exact ⟨_, _, by simp [Part.chars, hquote], .string hbody hclosing⟩
  cases hopens : opensComment (c :: text) with
  | false => exact ⟨.code c, text, rfl, .code hquote hopens⟩
  | true =>
    obtain ⟨rfl, text, rfl | rfl⟩ := exists_of_opensComment hopens
    · obtain ⟨body, rest, rfl, hbody⟩ := exists_stopsFirst commentStop text
      obtain ⟨closing, behind, rfl, hclosing⟩ := exists_closes ['*', '/'] rest
      exact ⟨_, _, by simp [Part.chars], .blockComment hbody hclosing⟩
    · obtain ⟨body, rest, rfl, hbody⟩ := exists_stopsFirst lineStop text
      exact ⟨_, _, by simp [Part.chars], .lineComment hbody⟩

theorem Starts.chars_ne_nil {part : Part} {rest : List Char} (h : Starts part rest) :
    part.chars ≠ [] := by
  cases h <;> simp [Part.chars]

theorem exists_reads (text : List Char) : ∃ parts, Reads text parts := by
  induction hlength : text.length using Nat.strongRecOn generalizing text with
  | ind n ih =>
    cases text with
    | nil => exact ⟨[], .nil⟩
    | cons c text =>
      obtain ⟨part, rest, heq, hpart⟩ := exists_starts c text
      have hpos := List.length_pos_iff.2 hpart.chars_ne_nil
      have hshorter : rest.length < n := by
        rw [← hlength, heq, List.length_append]
        omega
      obtain ⟨parts, hparts⟩ := ih _ hshorter rest rfl
      exact ⟨part :: parts, heq ▸ .cons hpart hparts⟩

/-! ### No text has other parts -/

theorem Closes.unique {closer closing closing' rest rest' : List Char}
    (h : Closes closer closing rest) (h' : Closes closer closing' rest')
    (heq : closing ++ rest = closing' ++ rest') : closing = closing' ∧ rest = rest' := by
  rcases h with rfl | ⟨rfl, hopen⟩ <;> rcases h' with rfl | ⟨rfl, hopen'⟩
  · exact ⟨rfl, List.append_cancel_left heq⟩
  · exact absurd ⟨rest, heq⟩ hopen'
  · exact absurd ⟨rest', heq.symm⟩ hopen
  · exact ⟨rfl, heq⟩

theorem Starts.unique {part part' : Part} {rest rest' : List Char} (h : Starts part rest)
    (h' : Starts part' rest') (heq : part.chars ++ rest = part'.chars ++ rest') :
    part = part' ∧ rest = rest' := by
  -- The first two characters tell the kinds apart
  cases h <;> cases h' <;> simp only [Part.chars, List.cons_append, List.append_assoc,
    List.nil_append, List.cons.injEq] at heq
  case code.code => simp [heq]
  case string.string hbody hclosing _ _ hbody' hclosing' =>
    obtain ⟨rfl, hrest⟩ := hbody.unique hbody' heq.2
    obtain ⟨rfl, rfl⟩ := hclosing.unique hclosing' hrest
    exact ⟨rfl, rfl⟩
  case lineComment.lineComment hbody _ hbody' =>
    obtain ⟨rfl, rfl⟩ := hbody.unique hbody' heq.2.2
    exact ⟨rfl, rfl⟩
  case blockComment.blockComment hbody hclosing _ _ hbody' hclosing' =>
    obtain ⟨rfl, hrest⟩ := hbody.unique hbody' heq.2.2
    obtain ⟨rfl, rfl⟩ := hclosing.unique hclosing' hrest
    exact ⟨rfl, rfl⟩
  all_goals grind [opensComment]

/-- The parts of a text are determined. -/
theorem Reads.unique {text : List Char} {parts parts' : List Part} (h : Reads text parts)
    (h' : Reads text parts') : parts = parts' := by
  induction h generalizing parts' with
  | nil =>
    generalize heq : [] = text at h'
    cases h' with
    | nil => rfl
    | cons hpart _ => exact absurd (List.append_eq_nil_iff.1 heq.symm).1 hpart.chars_ne_nil
  | @cons part rest parts hpart hrest ih =>
    generalize heq : part.chars ++ rest = text at h'
    cases h' with
    | nil => exact absurd (List.append_eq_nil_iff.1 heq).1 hpart.chars_ne_nil
    | cons hpart' hrest' =>
      obtain ⟨rfl, rfl⟩ := hpart.unique hpart' heq
      rw [ih hrest']

/-! ### What is shown of a part -/

/-- The mode of the reader in a string. -/
def stringMode (escaped : Bool) : Mode :=
  if escaped then .stringEscape else .string

/-- The body of a string passes. -/
theorem blankFrom_string {escaped : Bool} {body rest : List Char}
    (h : StopsFirst (stringStop escaped) body rest) :
    blankFrom (stringMode escaped) (body ++ rest) =
      body ++ blankFrom (stringMode (escapesNext escaped body)) rest := by
  induction body generalizing escaped with
  | nil => rfl
  | cons c body ih =>
    obtain ⟨hgoes, hbody⟩ := h.tail
    obtain ⟨hline, hquote⟩ := not_or.1 hgoes
    have hfeed : c ≠ '\n' := fun hc => hline (congrArg some hc)
    -- One step of the reader keeps track of what is escaped
    have hstep : blankFrom (stringMode escaped) (c :: (body ++ rest)) =
        c :: blankFrom (stringMode (c == '\\' && !escaped)) (body ++ rest) := by
      cases escaped with
      | false =>
        have hclose : c ≠ '"' := fun hc => hquote ⟨congrArg some hc, rfl⟩
        by_cases hescape : c = '\\' <;>
          simp [stringMode, blankFrom, hfeed, hclose, hescape]
      | true => simp [stringMode, blankFrom, hfeed]
    rw [List.cons_append, hstep, ih hbody]
    rfl

/-- In front of a line feed, and at the end of the text, a string and a line comment are over. -/
theorem blankFrom_atLineEnd {mode : Mode} {rest : List Char}
    (hmode : mode = .string ∨ mode = .stringEscape ∨ mode = .lineComment)
    (h : rest = [] ∨ rest.head? = some '\n') : blankFrom mode rest = blankFrom .code rest := by
  rcases h with rfl | hline
  · simp [blankFrom]
  · obtain ⟨behind, rfl⟩ := List.head?_eq_some_iff.1 hline
    rcases hmode with rfl | rfl | rfl <;> simp [blankFrom]

theorem blankFrom_lineComment {body rest : List Char} (h : StopsFirst lineStop body rest) :
    blankFrom .lineComment (body ++ rest) = body ++ blankFrom .code rest := by
  -- The body is cut from the front, so the stop is stated for what is behind it
  induction body with
  | nil => exact blankFrom_atLineEnd (.inr (.inr rfl)) h.stops
  | cons c body ih =>
    obtain ⟨hgoes, hbody⟩ := h.tail
    have hfeed : c ≠ '\n' := fun hc => hgoes (congrArg some hc)
    rw [List.cons_append, blankFrom, if_neg hfeed, ih hbody]
    rfl

/-- Where no slash is next, a star in front makes no difference. -/
theorem blankFrom_blockCommentStar {rest : List Char} (h : rest.head? ≠ some '/') :
    blankFrom .blockCommentStar rest = blankFrom .blockComment rest := by
  cases rest with
  | nil => simp [blankFrom]
  | cons c rest =>
    have hslash : c ≠ '/' := fun hc => h (congrArg some hc)
    rw [blankFrom, blankFrom, if_neg hslash]

theorem blankFrom_blockComment {body rest : List Char} (h : StopsFirst commentStop body rest) :
    blankFrom .blockComment (body ++ rest) =
      body.flatMap blankChar ++ blankFrom .blockComment rest := by
  induction body with
  | nil => rfl
  | cons c body ih =>
    obtain ⟨hgoes, hbody⟩ := h.tail
    have hstep : blankFrom (if c = '*' then .blockCommentStar else .blockComment) (body ++ rest) =
        blankFrom .blockComment (body ++ rest) := by
      split
      · next hstar =>
        refine blankFrom_blockCommentStar fun hslash => hgoes ?_
        obtain ⟨behind, hbehind⟩ := List.head?_eq_some_iff.1 hslash
        exact ⟨behind, by rw [hbehind, hstar]; rfl⟩
      · rfl
    rw [List.cons_append, blankFrom, hstep, ih hbody, List.flatMap_cons, List.append_assoc]

/-- What closes a string passes, and so does the end of its line. -/
theorem blankFrom_closes_string {body closing rest : List Char}
    (hstops : closing ++ rest = [] ∨ stringStop false body (closing ++ rest))
    (h : Closes ['"'] closing rest) :
    blankFrom (stringMode (escapesNext false body)) (closing ++ rest) =
      closing ++ blankFrom .code rest := by
  rcases h with rfl | ⟨rfl, hopen⟩
  · -- A quote that is not escaped
    have hescapes : escapesNext false body = false := by
      rcases hstops with hnil | hline | hquote
      · cases hnil
      · cases hline
      · exact hquote.2
    rw [hescapes]
    simp [stringMode, blankFrom]
  · refine blankFrom_atLineEnd ?_ ?_
    · cases escapesNext false body
      · exact .inl rfl
      · exact .inr (.inl rfl)
    · refine hstops.imp_right fun hstop => hstop.resolve_right fun hquote => hopen ?_
      obtain ⟨behind, hbehind⟩ := List.head?_eq_some_iff.1 hquote.1
      exact ⟨behind, hbehind.symm⟩

/-- What closes a block comment is part of it. -/
theorem blankFrom_closes_blockComment {body closing rest : List Char}
    (hstops : closing ++ rest = [] ∨ commentStop body (closing ++ rest))
    (h : Closes ['*', '/'] closing rest) :
    blankFrom .blockComment (closing ++ rest) =
      closing.flatMap blankChar ++ blankFrom .code rest := by
  rcases h with rfl | ⟨rfl, hopen⟩
  · simp [blankFrom]
  · -- Nothing but the end of the text stops an open comment
    have hnil : rest = [] := hstops.resolve_right hopen
    simp [hnil, blankFrom]

/-- A part is shown, and behind it reading starts anew. -/
theorem blankFrom_of_starts {part : Part} {rest : List Char} (h : Starts part rest) :
    blankFrom .code (part.chars ++ rest) = part.blanked ++ blankFrom .code rest := by
  cases h with
  | @code c _ hquote hopens => exact (blankFrom_code hopens).trans (by rw [if_neg hquote]; rfl)
  | @string body closing _ hbody hclosing =>
    have hopens : opensComment ('"' :: (body ++ closing ++ rest)) = false :=
      opensComment_cons_eq_false.2 fun hc => absurd hc (by decide)
    have hopened : blankFrom .code ('"' :: (body ++ closing ++ rest)) =
        '"' :: blankFrom (stringMode false) (body ++ (closing ++ rest)) := by
      rw [blankFrom_code hopens, List.append_assoc]
      rfl
    refine hopened.trans ?_
    rw [blankFrom_string hbody, blankFrom_closes_string hbody.stops hclosing, ← List.append_assoc]
    rfl
  | @lineComment body _ hbody =>
    show blankFrom .code ('/' :: '/' :: (body ++ rest)) = _
    rw [blankFrom, blankFrom_lineComment hbody]
    rfl
  | @blockComment body closing _ hbody hclosing =>
    show blankFrom .code ('/' :: '*' :: (body ++ closing ++ rest)) = _
    rw [blankFrom, List.append_assoc, blankFrom_blockComment hbody,
      blankFrom_closes_blockComment hbody.stops hclosing, ← List.append_assoc,
      ← List.flatMap_append]
    rfl

/-- The blanked text shows one part after another. -/
theorem blank_of_reads {text : List Char} {parts : List Part} (h : Reads text parts) :
    blank text = parts.flatMap Part.blanked := by
  induction h with
  | nil => simp [blank, blankFrom]
  | cons hpart _ ih => rw [blank, blankFrom_of_starts hpart, List.flatMap_cons, ← ih]; rfl

theorem chars_of_reads {text : List Char} {parts : List Part} (h : Reads text parts) :
    text = parts.flatMap Part.chars := by
  induction h with
  | nil => rfl
  | cons _ _ ih => rw [List.flatMap_cons, ← ih]

/-! ### Bytes -/

/-- A byte of a text as it is shown: a space in a block comment, unless it is a line feed. -/
def shownByte (inComment : Bool) (byte : UInt8) : UInt8 :=
  if inComment && byte != 0x0a then 0x20 else byte

/-- For each byte of the parts, whether it is one of a block comment. -/
def commentBytes (parts : List Part) : List Bool :=
  parts.flatMap fun part => List.replicate (encode part.chars).length part.isBlockComment

theorem commentBytes_cons (part : Part) (parts : List Part) :
    commentBytes (part :: parts) =
      List.replicate (encode part.chars).length part.isBlockComment ++ commentBytes parts := rfl

theorem shownByte_false (byte : UInt8) : shownByte false byte = byte := rfl

/-- No line feed comes or goes. -/
theorem shownByte_eq_lineFeed_iff {inComment : Bool} {byte : UInt8} :
    shownByte inComment byte = 0x0a ↔ byte = 0x0a := by
  cases inComment with
  | false => rfl
  | true =>
    by_cases hbyte : byte = 0x0a
    · simp [shownByte, hbyte]
    · simp [shownByte, hbyte]

/-- Only a line feed has the byte of a line feed. -/
theorem ne_lineFeed_of_mem {c : Char} (hc : c ≠ '\n') {byte : UInt8}
    (h : byte ∈ String.utf8EncodeChar c) : byte ≠ 0x0a := by
  rintro rfl
  have hval : c.val.toNat ≠ 10 := fun hval => hc (Char.ext (UInt32.toNat_inj.1 hval))
  -- A character of one byte is its own code, and the bytes of all others are 128 at least
  have hbytes : ∃ n < 256, (n = c.val.toNat ∨ 128 ≤ n) ∧ 0x0a = UInt8.ofNat n := by
    unfold String.utf8EncodeChar at h
    dsimp only at h
    repeat' split at h
    all_goals simp only [List.mem_cons, List.not_mem_nil, or_false] at h
    · exact ⟨_, by omega, .inl rfl, h⟩
    · rcases h with h | h <;> exact ⟨_, by omega, .inr (by omega), h⟩
    · rcases h with h | h | h <;> exact ⟨_, by omega, .inr (by omega), h⟩
    · rcases h with h | h | h | h <;> exact ⟨_, by omega, .inr (by omega), h⟩
  obtain ⟨n, hlt, hn, heq⟩ := hbytes
  have hten : 10 = n := by
    have := congrArg UInt8.toNat heq
    rwa [UInt8.toNat_ofNat_of_lt' hlt] at this
  omega

theorem encode_blankChar (c : Char) :
    encode (blankChar c) = (String.utf8EncodeChar c).map (shownByte true) := by
  by_cases hc : c = '\n'
  · subst hc
    decide
  · rw [blankChar, if_neg hc, encode_blanks]
    refine (List.eq_replicate_iff.2 ⟨?_, fun byte hbyte => ?_⟩).symm
    · rw [List.length_map, String.length_utf8EncodeChar]
    · obtain ⟨own, hown, rfl⟩ := List.mem_map.1 hbyte
      simp [shownByte, ne_lineFeed_of_mem hc hown]

theorem encode_flatMap_blankChar (chars : List Char) :
    encode (chars.flatMap blankChar) = (encode chars).map (shownByte true) := by
  induction chars with
  | nil => rfl
  | cons c chars ih =>
    rw [List.flatMap_cons, encode_append, encode_cons, List.map_append, encode_blankChar, ih]

theorem encode_blanked (part : Part) :
    encode part.blanked = (encode part.chars).map (shownByte part.isBlockComment) := by
  cases part with
  | blockComment chars => exact encode_flatMap_blankChar chars
  | _ => exact (List.map_id _).symm

/-- The bytes of the blanked text are those of the text, but for those of block comments. -/
theorem encode_blank_of_reads {text : List Char} {parts : List Part} (h : Reads text parts) :
    encode (blank text) = List.zipWith shownByte (commentBytes parts) (encode text) := by
  rw [blank_of_reads h, chars_of_reads h]
  clear h
  induction parts with
  | nil => rfl
  | cons part parts ih =>
    have hlength : (List.replicate (encode part.chars).length part.isBlockComment).length =
        (encode part.chars).length := List.length_replicate
    rw [List.flatMap_cons, List.flatMap_cons, encode_append, encode_append, ih, encode_blanked,
      commentBytes_cons, List.zipWith_append hlength, ← List.map_const', List.zipWith_map_left,
      List.zipWith_self]

theorem length_commentBytes {text : List Char} {parts : List Part} (h : Reads text parts) :
    (commentBytes parts).length = (encode text).length := by
  rw [chars_of_reads h]
  clear h
  induction parts with
  | nil => rfl
  | cons part parts ih =>
    rw [commentBytes_cons, List.flatMap_cons, encode_append, List.length_append,
      List.length_append, List.length_replicate, ih]

/-! ### Texts behind each other -/

/-- What stands behind a text that ends in code is shown as it is alone. A slash that the reader of
single characters holds back belongs to the front. -/
theorem blankFrom_append {place : Place} {front : List Char}
    (h : front.foldl Place.next place = .code) (rest : List Char) :
    blankFrom place.mode (place.held ++ (front ++ rest)) =
      blankFrom place.mode (place.held ++ front) ++ blankFrom .code rest := by
  induction front generalizing place with
  | nil =>
    obtain rfl : place = .code := h
    simp [Place.mode, Place.held, blankFrom]
  | cons c front ih =>
    replace ih := ih h
    by_cases hplace : place = .slash
    · -- The slash and the character behind it are read together
      subst hplace
      rw [Buffer.held_of_ne (Buffer.next_slash_ne c), List.nil_append, List.nil_append] at ih
      by_cases hstar : c = '*'
      · subst hstar
        exact congrArg (' ' :: ' ' :: ·) ih
      · have hfront := Buffer.blankFrom_slash hstar front
        have hwhole := Buffer.blankFrom_slash hstar (front ++ rest)
        exact hwhole.trans ((congrArg ('/' :: c :: ·) ih).trans
          (congrArg (· ++ blankFrom .code rest) hfront).symm)
    · rw [Buffer.held_of_ne hplace, List.nil_append, List.nil_append]
      by_cases hnext : place.next c = .slash
      · -- The slash is held back, and nothing is shown yet
        obtain ⟨rfl, rfl⟩ := Buffer.eq_of_next_eq_slash hnext
        exact ih
      · rw [Buffer.held_of_ne hnext, List.nil_append, List.nil_append] at ih
        rw [List.cons_append, Buffer.blankFrom_next hplace hnext,
          Buffer.blankFrom_next hplace hnext, ih, List.append_assoc]

theorem blank_append {front : List Char} (h : front.foldl Place.next .code = .code)
    (rest : List Char) : blank (front ++ rest) = blank front ++ blank rest :=
  blankFrom_append h rest

/-- A body without a closer goes on to the closer behind it. -/
theorem stopsFirst_of_absent {body : List Char} (h : ¬['*', '/'] <:+: body)
    (rest : List Char) : StopsFirst commentStop body ('*' :: '/' :: rest) := by
  refine ⟨.inr ⟨rest, rfl⟩, fun front behind heq hlength hstop => h ?_⟩
  obtain ⟨later, rfl⟩ := hstop
  rcases List.append_eq_append_iff.1 heq with ⟨inner, rfl, hinner⟩ | ⟨_, rfl, _⟩
  · -- The closer cannot lie across the end of the body
    rcases inner with - | ⟨star, - | ⟨slash, inner⟩⟩
    · simp at hlength
    · simp at hinner
    · simp only [List.cons_append, List.cons.injEq] at hinner
      obtain ⟨rfl, rfl, -⟩ := hinner
      exact ⟨front, inner, by simp⟩
  · rw [List.length_append] at hlength
    omega

/-- A block comment behind a text that ends in code is blank, and what stands behind it is shown as
it is alone. -/
theorem blank_comment {front body : List Char} (h : front.foldl Place.next .code = .code)
    (hbody : ¬['*', '/'] <:+: body) (rest : List Char) :
    blank (front ++ ('/' :: '*' :: (body ++ ['*', '/']) ++ rest)) =
      blank front ++ (('/' :: '*' :: (body ++ ['*', '/'])).flatMap blankChar ++ blank rest) := by
  have hstarts : Starts (.blockComment ('/' :: '*' :: (body ++ ['*', '/']))) rest :=
    .blockComment (stopsFirst_of_absent hbody rest) (.inl rfl)
  rw [blank_append h]
  exact congrArg (blank front ++ ·) (blankFrom_of_starts hstarts)

/-! ### Blanking is exact -/

/-- Every text has parts, and no others. Blanking turns the bytes of its block comments into spaces,
but for line feeds, and does nothing else: no byte and no line feed moves, and a byte outside of
block comments stays the same. A block comment behind a text that ends in code, where no slash is
held back, is blank, and the texts around it are blanked as they are alone. -/
theorem blank_exact :
    (∀ text, ∃ parts, Reads text parts ∧ (∀ others, Reads text others → others = parts) ∧
      (commentBytes parts).length = (encode text).length ∧
      encode (blank text) = List.zipWith shownByte (commentBytes parts) (encode text) ∧
      (encode (blank text)).length = (encode text).length ∧
      ∀ i : Nat, ((encode (blank text))[i]? = some 0x0a ↔ (encode text)[i]? = some 0x0a) ∧
        ((commentBytes parts)[i]? = some false →
          (encode (blank text))[i]? = (encode text)[i]?)) ∧
    ∀ front body rest, front.foldl Place.next .code = .code → ¬['*', '/'] <:+: body →
      blank (front ++ ('/' :: '*' :: (body ++ ['*', '/']) ++ rest)) =
        blank front ++ (('/' :: '*' :: (body ++ ['*', '/'])).flatMap blankChar ++ blank rest) := by
  refine ⟨fun text => ?_, fun front body rest hcode hbody => blank_comment hcode hbody rest⟩
  obtain ⟨parts, hparts⟩ := exists_reads text
  have hbytes := encode_blank_of_reads hparts
  have hlength := length_commentBytes hparts
  have hsame : (encode (blank text)).length = (encode text).length := by
    rw [hbytes, List.length_zipWith, hlength, Nat.min_self]
  refine ⟨parts, hparts, fun _ hothers => hothers.unique hparts, hlength, hbytes, hsame,
    fun i => ?_⟩
  by_cases hi : i < (encode text).length
  · -- A byte of the blanked text is that of the text, as its part shows it
    have hpart : i < (commentBytes parts).length := hlength ▸ hi
    have hshown : (encode (blank text))[i]? =
        some (shownByte (commentBytes parts)[i] (encode text)[i]) := by
      rw [hbytes, List.getElem?_zipWith, List.getElem?_eq_getElem hi,
        List.getElem?_eq_getElem hpart]
    rw [hshown, List.getElem?_eq_getElem hi, List.getElem?_eq_getElem hpart,
      Option.some_inj, Option.some_inj, shownByte_eq_lineFeed_iff]
    refine ⟨Iff.rfl, fun hcode => ?_⟩
    rw [Option.some_inj.1 hcode, shownByte_false]
  · -- Both texts have the same number of bytes, so both are at their end
    have hnone := List.getElem?_eq_none (Nat.le_of_not_lt hi)
    have hnone' := List.getElem?_eq_none (hsame ▸ Nat.le_of_not_lt hi)
    rw [hnone, hnone']
    exact ⟨Iff.rfl, fun _ => rfl⟩

/-- Behind a string and a slash, a comment with a slash and stars in it. -/
theorem blank_exact_starred :
    let front := "s = \"/*\" / 2".toList
    let body := "/é\n**".toList
    front.foldl Place.next .code = .code ∧ ¬['*', '/'] <:+: body ∧
      blank (front ++ ('/' :: '*' :: (body ++ ['*', '/']) ++ ['"'])) =
        "s = \"/*\" / 2     \n    \"".toList := by
  refine ⟨by decide, by decide, ?_⟩
  rw [blank_exact.2 _ _ _ (by decide) (by decide)]
  decide

end JassOutline.BlockComment
