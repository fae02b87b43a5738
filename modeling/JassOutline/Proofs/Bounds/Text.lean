import JassOutline.Proofs.Bounds.Fault
import JassOutline.Text.Blank

/-!
# Cutting a text at bytes

A text can be cut at a byte where a character starts, and at its end. Every other cut is a fault.
`Stands` relates a byte of a text to what lies behind it, which is what the readers of this library
are given.

## Key results

- `fromByte_eq_ok`: where a text can be cut
- `slice_append`: what lies between two cuts
- `Stands.append`: over the characters that are read
-/

namespace JassOutline.Text

/-- The text from a byte on. -/
def fromByte : List Char → Nat → Except Fault (List Char)
  | text, 0 => .ok text
  | [], _ + 1 => .error .outside
  | c :: rest, start + 1 =>
    if c.utf8Size ≤ start + 1 then fromByte rest (start + 1 - c.utf8Size) else .error .outside

/-- The text in front of a byte. -/
def upToByte : List Char → Nat → Except Fault (List Char)
  | _, 0 => .ok []
  | [], _ + 1 => .error .outside
  | c :: rest, stop + 1 =>
    if c.utf8Size ≤ stop + 1 then (upToByte rest (stop + 1 - c.utf8Size)).map (c :: ·)
    else .error .outside

/-- The text from one byte to another. -/
def slice (text : List Char) (start stop : Nat) : Except Fault (List Char) :=
  if start ≤ stop then do fromByte (← upToByte text stop) start else .error .outside

theorem fromByte_append (front back : List Char) :
    fromByte (front ++ back) (byteLength front) = .ok back := by
  induction front with
  | nil => simp [fromByte]
  | cons c front ih =>
    obtain ⟨size, hsize⟩ := Nat.exists_eq_succ_of_ne_zero (Nat.ne_of_gt c.utf8Size_pos)
    have hlength : byteLength (c :: front) = size + byteLength front + 1 := by
      rw [byteLength_cons, hsize]
      omega
    rw [hlength, List.cons_append, fromByte, if_pos (by omega)]
    rw [show size + byteLength front + 1 - c.utf8Size = byteLength front by omega, ih]

/-- A text can be cut exactly at the bytes behind its characters, and at its start. -/
theorem fromByte_eq_ok {text back : List Char} {start : Nat} :
    fromByte text start = .ok back ↔ ∃ front, text = front ++ back ∧ byteLength front = start := by
  constructor
  · intro h
    fun_induction fromByte text start with
    | case1 text =>
      cases h
      exact ⟨[], rfl, rfl⟩
    | case2 => cases h
    | case3 c rest start hle ih =>
      obtain ⟨front, rfl, hfront⟩ := ih h
      exact ⟨c :: front, rfl, by rw [byteLength_cons]; omega⟩
    | case4 => cases h
  · rintro ⟨front, rfl, rfl⟩
    exact fromByte_append front back

theorem upToByte_append (front back : List Char) :
    upToByte (front ++ back) (byteLength front) = .ok front := by
  induction front with
  | nil => cases back <;> rfl
  | cons c front ih =>
    obtain ⟨size, hsize⟩ := Nat.exists_eq_succ_of_ne_zero (Nat.ne_of_gt c.utf8Size_pos)
    have hlength : byteLength (c :: front) = size + byteLength front + 1 := by
      rw [byteLength_cons, hsize]
      omega
    rw [hlength, List.cons_append, upToByte, if_pos (by omega)]
    rw [show size + byteLength front + 1 - c.utf8Size = byteLength front by omega, ih]
    rfl

theorem slice_append (front word back : List Char) :
    slice (front ++ word ++ back) (byteLength front) (byteLength (front ++ word)) = .ok word := by
  have hle : byteLength front ≤ byteLength (front ++ word) := by
    rw [byteLength_append]
    omega
  rw [slice, if_pos hle, upToByte_append]
  exact fromByte_append front word

/-- The given text lies behind the byte. -/
def Stands (text : List Char) (pos : Nat) (back : List Char) : Prop :=
  ∃ front, text = front ++ back ∧ byteLength front = pos

namespace Stands

variable {text back word : List Char} {pos : Nat} {c : Char}

theorem start (text : List Char) : Stands text 0 text := ⟨[], rfl, rfl⟩

theorem fromByte (h : Stands text pos back) : fromByte text pos = .ok back :=
  fromByte_eq_ok.2 h

/-- Behind a word stands what follows it. -/
theorem append (h : Stands text pos (word ++ back)) :
    Stands text (pos + byteLength word) back := by
  obtain ⟨front, rfl, rfl⟩ := h
  exact ⟨front ++ word, by rw [List.append_assoc], byteLength_append front word⟩

theorem cons (h : Stands text pos (c :: back)) : Stands text (pos + c.utf8Size) back :=
  append (show Stands text pos ([c] ++ back) from h)

/-- Behind the characters of a class stands the first one of another class. -/
theorem dropWhile (p : Char → Bool) (h : Stands text pos back) :
    Stands text (pos + byteLength (back.takeWhile p)) (back.dropWhile p) := by
  refine append ?_
  rwa [List.takeWhile_append_dropWhile]

theorem slice (h : Stands text pos (word ++ back)) :
    slice text pos (pos + byteLength word) = .ok word := by
  obtain ⟨front, rfl, rfl⟩ := h
  rw [← byteLength_append, ← List.append_assoc]
  exact slice_append front word back

theorem pos_add_length (h : Stands text pos back) : pos + byteLength back = byteLength text := by
  obtain ⟨front, rfl, rfl⟩ := h
  exact (byteLength_append front back).symm

end Stands

end JassOutline.Text
