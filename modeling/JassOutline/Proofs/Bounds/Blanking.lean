import JassOutline.BlockComment

/-!
# Blanking in a byte buffer

`BlockComment.blank` looks at two characters at once to see where a comment opens. `Buffer` is a
reader that sees one character at a time and writes the UTF-8 bytes of what it shows behind those
it has written before. When a star tells it that the slash in front has opened a comment, the slash
is in the buffer already, and the last byte there is overwritten. The bytes are made a text again
in the end. That byte was a slash, so the buffer never holds anything but whole characters.

## Key results

- `Buffer.bytes_foldl`: what is written behind the bytes of a buffer
- `fromUTF8?_blankBytes`: the bytes are a text, the blanked one
-/

namespace JassOutline.BlockComment

/-- Where a reader of single characters stands. -/
inductive Place where
  | code
  /-- Behind a slash that may open a comment. -/
  | slash
  | lineComment
  | blockComment
  /-- In a block comment, behind a star. -/
  | blockCommentStar
  | string
  /-- In a string, behind a backslash. -/
  | stringEscape
  deriving DecidableEq, Repr

namespace Place

/-- Where the reader stands behind the character. -/
def next : Place → Char → Place
  | .code, c => if c = '/' then .slash else if c = '"' then .string else .code
  | .slash, c =>
    if c = '/' then .lineComment else if c = '*' then .blockComment
    else if c = '"' then .string else .code
  | .lineComment, c => if c = '\n' then .code else .lineComment
  | .blockComment, c => if c = '*' then .blockCommentStar else .blockComment
  | .blockCommentStar, c =>
    if c = '*' then .blockCommentStar else if c = '/' then .code else .blockComment
  | .string, c =>
    if c = '"' ∨ c = '\n' then .code else if c = '\\' then .stringEscape else .string
  | .stringEscape, c => if c = '\n' then .code else .string

/-- Whether a character read from here is blanked. -/
def blanks : Place → Char → Bool
  | .slash, c => c == '*'
  | .blockComment, _ => true
  | .blockCommentStar, _ => true
  | _, _ => false

/-- The mode of the reader that takes two characters at once. -/
def mode : Place → Mode
  | .code => .code
  | .slash => .code
  | .lineComment => .lineComment
  | .blockComment => .blockComment
  | .blockCommentStar => .blockCommentStar
  | .string => .string
  | .stringEscape => .stringEscape

/-- What that reader has not taken yet when this one stands here. -/
def held : Place → List Char
  | .slash => ['/']
  | _ => []

end Place

/-- The UTF-8 bytes of a text. -/
def encode (text : List Char) : List UInt8 :=
  text.flatMap String.utf8EncodeChar

/-- A reader and the bytes it has written. -/
structure Buffer where
  place : Place
  bytes : List UInt8
  deriving DecidableEq, Repr

namespace Buffer

/-- Overwrites the last byte with a space, if there is one. -/
def patch (bytes : List UInt8) : List UInt8 :=
  if bytes.isEmpty then bytes else bytes.dropLast ++ [0x20]

/-- The bytes written for a character: its own, or as many spaces. -/
def written (blanked : Bool) (c : Char) : List UInt8 :=
  if blanked && c != '\n' then List.replicate c.utf8Size 0x20 else String.utf8EncodeChar c

/-- Reads a character. -/
def step (buffer : Buffer) (c : Char) : Buffer where
  place := buffer.place.next c
  bytes :=
    (if buffer.place = .slash ∧ c = '*' then patch buffer.bytes else buffer.bytes) ++
      written (buffer.place.blanks c) c

end Buffer

/-- The bytes of the blanked text. -/
def blankBytes (text : List Char) : List UInt8 :=
  (text.foldl Buffer.step ⟨.code, []⟩).bytes

/-! ### Bytes of characters -/

theorem encode_cons (c : Char) (text : List Char) :
    encode (c :: text) = String.utf8EncodeChar c ++ encode text := List.flatMap_cons

theorem encode_append (front rest : List Char) :
    encode (front ++ rest) = encode front ++ encode rest := List.flatMap_append

theorem encode_blanks (n : Nat) : encode (List.replicate n ' ') = List.replicate n 0x20 := by
  induction n with
  | zero => rfl
  | succ n ih =>
    rw [List.replicate_succ, encode_cons, ih]
    rfl

namespace Buffer

theorem written_false (c : Char) : written false c = String.utf8EncodeChar c := rfl

theorem written_true (c : Char) : written true c = encode (blankChar c) := by
  rw [written, blankChar]
  by_cases hc : c = '\n'
  · -- A line feed stays one
    subst hc
    rfl
  · have hne : (c != '\n') = true := by simpa using hc
    rw [if_neg hc, hne, if_pos (by rfl), encode_blanks]

/-- A slash is one byte. -/
theorem patch_slash (bytes : List UInt8) :
    patch (bytes ++ encode ['/']) = bytes ++ encode [' '] := by
  have hslash : encode ['/'] = [0x2f] := by decide
  have hblank : encode [' '] = [0x20] := by decide
  rw [patch, hslash, hblank, if_neg (by simp), List.dropLast_concat]

/-! ### What a buffer comes to -/

/-- Behind a slash, the slash is the last thing written. -/
theorem step_slash (bytes : List UInt8) (c : Char) :
    step ⟨.slash, bytes ++ encode ['/']⟩ c =
      if c = '*' then ⟨.blockComment, bytes ++ encode [' ', ' ']⟩
      else ⟨Place.next .slash c, bytes ++ encode ['/', c]⟩ := by
  by_cases hc : c = '*'
  · subst hc
    rw [if_pos rfl, step]
    simp only [Place.blanks, BEq.rfl, written_true]
    rw [if_pos ⟨trivial, trivial⟩, patch_slash, List.append_assoc, ← encode_append]
    rfl
  · have hblanks : Place.blanks .slash c = false := by simpa [Place.blanks] using hc
    rw [if_neg hc, step, hblanks, if_neg (fun h => hc h.2), written_false, List.append_assoc]
    rw [encode_cons '/' [c], encode_cons c [], encode, encode]
    simp

/-- Away from a slash, a character is written behind what is there. -/
theorem step_of_ne {place : Place} (h : place ≠ .slash) (bytes : List UInt8) (c : Char) :
    step ⟨place, bytes⟩ c =
      ⟨place.next c, bytes ++ encode (if place.blanks c then blankChar c else [c])⟩ := by
  rw [step, if_neg (fun hslash => h hslash.1)]
  cases place.blanks c
  · simp [written_false, encode]
  · rw [written_true]
    rfl

/-- Only the slash is held back. -/
theorem held_of_ne {place : Place} (h : place ≠ .slash) : place.held = [] := by
  cases place <;> first | rfl | exact absurd rfl h

theorem next_slash_ne (c : Char) : Place.next .slash c ≠ .slash := by
  grind [Place.next]

/-- Only code leads to a slash. -/
theorem eq_of_next_eq_slash {place : Place} {c : Char} (h : place.next c = .slash) :
    place = .code ∧ c = '/' := by
  cases place <;> grind [Place.next]

/-- The character behind a slash that opens no block comment. -/
theorem blankFrom_slash {c : Char} (hstar : c ≠ '*') (rest : List Char) :
    blankFrom .code ('/' :: c :: rest) = '/' :: c :: blankFrom (Place.next .slash c).mode rest := by
  rw [Place.next, if_neg hstar]
  by_cases hslash : c = '/'
  · rw [hslash, if_pos rfl]
    rfl
  · by_cases hquote : c = '"'
    · rw [hquote, if_neg (by decide), if_pos rfl]
      rfl
    · rw [if_neg hslash, if_neg hquote]
      simp [blankFrom, Place.mode]

/-- What the reader of two characters at once makes of a character, where it takes just that one. -/
theorem blankFrom_next {place : Place} (hplace : place ≠ .slash) {c : Char}
    (hnext : place.next c ≠ .slash) (rest : List Char) :
    blankFrom place.mode (c :: rest) =
      (if place.blanks c then blankChar c else [c]) ++ blankFrom (place.next c).mode rest := by
  cases place with
  | code =>
    -- Only a slash is held back, and a quote is the only other character that changes the mode
    have hc : c ≠ '/' := fun hc => hnext (by rw [Place.next, if_pos hc])
    rw [Place.next, if_neg hc]
    by_cases hquote : c = '"' <;> simp [Place.mode, Place.blanks, blankFrom, hc, hquote]
  | slash => exact absurd rfl hplace
  | lineComment =>
    by_cases hc : c = '\n' <;> simp [Place.mode, Place.blanks, Place.next, blankFrom, hc]
  | blockComment =>
    by_cases hc : c = '*' <;> simp [Place.mode, Place.blanks, Place.next, blankFrom, hc]
  | blockCommentStar =>
    simp only [Place.mode, Place.blanks, Place.next, blankFrom, if_true]
    by_cases hstar : c = '*'
    · simp [hstar]
    · by_cases hslash : c = '/' <;> simp [hstar, hslash]
  | string =>
    simp only [Place.mode, Place.blanks, Place.next, blankFrom]
    by_cases hend : c = '"' ∨ c = '\n'
    · simp [hend]
    · by_cases hescape : c = '\\' <;> simp [hend, hescape]
  | stringEscape =>
    by_cases hc : c = '\n' <;> simp [Place.mode, Place.blanks, Place.next, blankFrom, hc]

/-- Behind the bytes of a buffer come those of the blanked rest. A slash at the end of the buffer
counts to the rest. -/
theorem bytes_foldl (place : Place) (bytes : List UInt8) (text : List Char) :
    (text.foldl step ⟨place, bytes ++ encode place.held⟩).bytes =
      bytes ++ encode (blankFrom place.mode (place.held ++ text)) := by
  induction text generalizing place bytes with
  | nil => cases place <;> rfl
  | cons c rest ih =>
    -- The buffer holds no open slash in front of what is left
    have hwhole (place : Place) (hheld : place.held = []) (bytes : List UInt8) :
        (rest.foldl step ⟨place, bytes⟩).bytes = bytes ++ encode (blankFrom place.mode rest) := by
      have h := ih place bytes
      rwa [hheld, List.nil_append, encode, List.flatMap_nil, List.append_nil] at h
    rw [List.foldl_cons]
    by_cases hplace : place = .slash
    · -- The slash in the buffer is decided now
      subst hplace
      rw [Place.held, step_slash]
      by_cases hstar : c = '*'
      · rw [if_pos hstar, hwhole _ rfl, hstar, List.append_assoc, ← encode_append]
        rfl
      · rw [if_neg hstar, hwhole _ (held_of_ne (next_slash_ne c)), List.append_assoc,
          ← encode_append]
        show _ = bytes ++ encode (blankFrom .code ('/' :: c :: rest))
        rw [blankFrom_slash hstar]
        rfl
    · rw [held_of_ne hplace, encode, List.flatMap_nil, List.append_nil, step_of_ne hplace,
        List.nil_append]
      by_cases hnext : place.next c = .slash
      · -- A slash comes into the buffer and is still open
        obtain ⟨rfl, rfl⟩ := eq_of_next_eq_slash hnext
        exact ih .slash bytes
      · rw [hwhole _ (held_of_ne hnext), List.append_assoc, ← encode_append,
          blankFrom_next hplace hnext]

end Buffer

/-- What the reader of single characters writes is UTF-8. -/
theorem fromUTF8?_blankBytes (text : List Char) :
    String.fromUTF8? (blankBytes text).toByteArray = some (String.ofList (blank text)) := by
  have hbytes : (blankBytes text).toByteArray = (blank text).utf8Encode := by
    have h : (blankBytes text) = encode (blank text) := Buffer.bytes_foldl .code [] text
    rw [h]
    rfl
  rw [hbytes, String.fromUTF8?, dif_pos ByteArray.isValidUTF8_utf8Encode]
  rfl

end JassOutline.BlockComment
