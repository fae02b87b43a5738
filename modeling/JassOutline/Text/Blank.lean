/-!
# Blanks

`isBlank` is the property White_Space: the twenty-five characters that separate words. The module
also trims blanks from the ends of a text and measures and searches texts given as characters.

Bridge lemmas: `isBlank_of_isWhitespace` relates the class to core's ASCII class, and
`byteLength_append` lets lengths in bytes add up.
-/

namespace JassOutline.Text

/-- Characters with the property White_Space. -/
def isBlank (c : Char) : Bool :=
  let n := c.toNat
  (0x09 ≤ n && n ≤ 0x0D) || n == 0x20 || n == 0x85 || n == 0xA0 || n == 0x1680
    || (0x2000 ≤ n && n ≤ 0x200A) || n == 0x2028 || n == 0x2029 || n == 0x202F || n == 0x205F
    || n == 0x3000

/-- Whether the character ends a line. -/
def isLineBreak (c : Char) : Bool :=
  c == '\r' || c == '\n'

theorem isBlank_of_isWhitespace {c : Char} (h : c.isWhitespace = true) : isBlank c = true := by
  simp only [Char.isWhitespace, Bool.or_eq_true, decide_eq_true_eq] at h
  rcases h with ((rfl | rfl) | rfl) | rfl <;> decide

theorem isBlank_of_isLineBreak {c : Char} (h : isLineBreak c = true) : isBlank c = true := by
  simp only [isLineBreak, Bool.or_eq_true, beq_iff_eq] at h
  rcases h with rfl | rfl <;> decide

/-! ### Trimming -/

/-- The text without the characters of a class at its end. -/
def dropEndWhile (p : Char → Bool) (text : List Char) : List Char :=
  (text.reverse.dropWhile p).reverse

/-- The text without the blanks at its start. -/
def trimStart (text : List Char) : List Char :=
  text.dropWhile isBlank

/-- The text without the blanks at its end. -/
def trimEnd (text : List Char) : List Char :=
  dropEndWhile isBlank text

/-- The text without the blanks at its two ends. -/
def trim (text : List Char) : List Char :=
  trimEnd (trimStart text)

/-- What follows the given opening, if the text starts with it. -/
def dropLeading? : List Char → List Char → Option (List Char)
  | [], text => some text
  | _ :: _, [] => none
  | a :: opening, c :: text => if a = c then dropLeading? opening text else none

theorem dropLeading?_append (opening text : List Char) :
    dropLeading? opening (opening ++ text) = some text := by
  induction opening with
  | nil => rfl
  | cons a opening ih => simpa [dropLeading?] using ih

theorem dropLeading?_eq_some {opening text rest : List Char}
    (h : dropLeading? opening text = some rest) : text = opening ++ rest := by
  fun_induction dropLeading? opening text with
  | case1 text => simpa using h
  | case2 => simp at h
  | case3 opening a text ih => simpa using ih h
  | case4 => simp at h

/-- Whether the text starts with the given opening. -/
def startsWith (opening text : List Char) : Bool :=
  (dropLeading? opening text).isSome

theorem startsWith_iff {opening text : List Char} :
    startsWith opening text = true ↔ ∃ rest, text = opening ++ rest := by
  rw [startsWith, Option.isSome_iff_exists]
  constructor
  · rintro ⟨rest, hrest⟩
    exact ⟨rest, dropLeading?_eq_some hrest⟩
  · rintro ⟨rest, rfl⟩
    exact ⟨rest, dropLeading?_append opening rest⟩

/-! ### Search -/

/-- Whether the pattern occurs anywhere in the text. -/
def occursIn (pattern : List Char) : List Char → Bool
  | [] => pattern.isEmpty
  | c :: rest => startsWith pattern (c :: rest) || occursIn pattern rest

/-- Every occurrence of the pattern, found from left to right, gives way to the replacement. -/
def replaceAll (pattern replacement : List Char) (text : List Char) : List Char :=
  match text with
  | [] => []
  | c :: rest =>
    if startsWith pattern (c :: rest) then
      replacement ++ replaceAll pattern replacement (rest.drop (pattern.length - 1))
    else c :: replaceAll pattern replacement rest
termination_by text.length
decreasing_by
  · simp only [List.length_drop, List.length_cons]; omega
  · simp

/-! ### Length in bytes -/

/-- The number of bytes the text takes in UTF-8. -/
def byteLength : List Char → Nat
  | [] => 0
  | c :: rest => c.utf8Size + byteLength rest

@[simp] theorem byteLength_nil : byteLength [] = 0 := rfl

@[simp] theorem byteLength_cons (c : Char) (rest : List Char) :
    byteLength (c :: rest) = c.utf8Size + byteLength rest := rfl

@[simp] theorem byteLength_append (a b : List Char) :
    byteLength (a ++ b) = byteLength a + byteLength b := by
  induction a with
  | nil => simp
  | cons c a ih => simp [ih, Nat.add_assoc]

end JassOutline.Text
