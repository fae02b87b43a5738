import JassOutline.Proofs.Writing.Notation

/-!
# The roles of written lines

The role of a line is decided by its first word or by the word behind a run of modifiers. The
lemmas give the role of every line that the notation knows from the labels of its tokens.

## Key results

- `LineRole.ofTokens_of_routine`, `LineRole.ofTokens_of_container`, `LineRole.ofTokens_of_native`:
  headers have the role of their keyword, whatever modifiers stand in front
- `LineRole.ofTokens_eq_other`: a line of words that decide nothing is an ordinary line
-/

namespace JassOutline.LineRole

open Token

variable {tokens : List Token} {word : String} {front : List String} {rest : List Label}
  {role : LineRole}

/-! ### The deciding words -/

theorem wordAfter?_of_labels {modifiers : List String}
    (h : tokens.map label = front.map .word ++ .word word :: rest)
    (hfront : ∀ w ∈ front, w ∈ modifiers) (hword : word ∉ modifiers) :
    wordAfter? modifiers tokens = some word := by
  refine leadingIdentifier?_of_labels (span_of_labels h ?_ ?_).2
  · intro token htoken
    obtain ⟨w, hw, hlabel⟩ := List.mem_map.1 htoken
    simp [isKeywordOf_of_word hlabel.symm, hfront w hw]
  · intro token htoken
    have hlabel : token.label = .word word := by simpa [eq_comm] using htoken
    simp [isKeywordOf_of_word hlabel, hword]

/-- The word behind a run of modifiers is one of the words of the line. -/
theorem mem_of_wordAfter? {modifiers : List String} (h : wordAfter? modifiers tokens = some word) :
    .word word ∈ tokens.map label := by
  rw [wordAfter?] at h
  cases hbehind : tokens.dropWhile (·.isKeywordOf modifiers) with
  | nil => simp [hbehind, leadingIdentifier?] at h
  | cons token later =>
    simp only [hbehind, leadingIdentifier?, Option.ite_none_right_eq_some, Option.some.injEq,
      isIdentifier, beq_iff_eq] at h
    have hmem : token ∈ tokens := by
      apply (List.dropWhile_suffix (·.isKeywordOf modifiers)).subset
      rw [hbehind]
      exact List.mem_cons_self
    exact List.mem_map.2 ⟨token, hmem, by simp [label, Label.word, h]⟩

theorem exists_leadingIdentifier?
    (h : tokens.map label = front.map .word ++ .word word :: rest) :
    ∃ first, leadingIdentifier? tokens = some first ∧ (first ∈ front ∨ first = word) := by
  cases front with
  | nil => exact ⟨word, leadingIdentifier?_of_labels h, .inr rfl⟩
  | cons first later => exact ⟨first, leadingIdentifier?_of_labels h, .inl List.mem_cons_self⟩

/-! ### Roles from labels -/

/-- A line has the role of its first word, if that word alone decides. -/
theorem ofTokens_of_first (h : tokens.map label = .word word :: rest)
    (hrole : ofFirstWord? word = some role) : ofTokens tokens = role := by
  simp [ofTokens, leadingIdentifier?_of_labels h, hrole]

/-- The header of a function or method has the role of its keyword. -/
theorem ofTokens_of_routine (h : tokens.map label = front.map .word ++ .word word :: rest)
    (hfront : ∀ w ∈ front, w ∈ routineModifiers) (hrole : ofRoutineWord? word = some role) :
    ofTokens tokens = role := by
  have hword : word = "function" ∨ word = "method" := by
    unfold ofRoutineWord? at hrole
    split at hrole <;> simp_all
  have hmodifier : word ∉ routineModifiers := by rcases hword with rfl | rfl <;> decide
  -- Neither a modifier nor the keyword itself decides as the first word of a line
  have hmute : ∀ w ∈ routineModifiers, ofFirstWord? w = none := by decide
  obtain ⟨first, hfirst, hmem⟩ := exists_leadingIdentifier? h
  have hnone : ofFirstWord? first = none := by
    rcases hmem with hmem | rfl
    · exact hmute first (hfront first hmem)
    · rcases hword with rfl | rfl <;> rfl
  simp [ofTokens, hfirst, hnone, wordAfter?_of_labels h hfront hmodifier, hrole]

/-- The header of a struct or library has the role of its keyword. -/
theorem ofTokens_of_container (h : tokens.map label = front.map .word ++ .word word :: rest)
    (hfront : ∀ w ∈ front, w ∈ visibilityWords) (hrole : ofContainerWord? word = some role) :
    ofTokens tokens = role := by
  have hword : word = "struct" ∨ word = "library" ∨ word = "library_once" := by
    unfold ofContainerWord? at hrole
    split at hrole <;> simp_all
  -- The keyword stops both runs of modifiers, that of routines and that of containers
  have hmodifier : word ∉ routineModifiers ∧ word ∉ visibilityWords := by
    rcases hword with rfl | rfl | rfl <;> decide
  have hroutine : ∀ w ∈ front, w ∈ routineModifiers := fun w hw =>
    (by decide : ∀ w ∈ visibilityWords, w ∈ routineModifiers) w (hfront w hw)
  have hnoRoutine : ofRoutineWord? word = none := by rcases hword with rfl | rfl | rfl <;> rfl
  have hmute : ∀ w ∈ visibilityWords, ofFirstWord? w = none := by decide
  obtain ⟨first, hfirst, hmem⟩ := exists_leadingIdentifier? h
  have hnone : ofFirstWord? first = none := by
    rcases hmem with hmem | rfl
    · exact hmute first (hfront first hmem)
    · rcases hword with rfl | rfl | rfl <;> rfl
  simp [ofTokens, hfirst, hnone, wordAfter?_of_labels h hroutine hmodifier.1, hnoRoutine,
    wordAfter?_of_labels h hfront hmodifier.2, hrole]

/-- The line of a native has the role of a native. -/
theorem ofTokens_of_native (h : tokens.map label = front.map .word ++ .word "native" :: rest)
    (hfront : ∀ w ∈ front, w ∈ nativeModifiers) : ofTokens tokens = .native := by
  have hroutine : ∀ w ∈ front, w ∈ routineModifiers := fun w hw =>
    (by decide : ∀ w ∈ nativeModifiers, w ∈ routineModifiers) w (hfront w hw)
  obtain ⟨first, hfirst, hmem⟩ := exists_leadingIdentifier? h
  have hconstant : first = "constant" ∨ first = "native" := by
    rcases hmem with hmem | rfl
    · exact .inl (by simpa [nativeModifiers] using hfront first hmem)
    · exact .inr rfl
  have hnone : ofFirstWord? first = none := by rcases hconstant with rfl | rfl <;> rfl
  -- No visibility stands in front of a native, so the first word is the one that is looked at
  have hcontainer : (wordAfter? visibilityWords tokens).bind ofContainerWord? = none := by
    have hfirst' : wordAfter? visibilityWords tokens = some first := by
      cases front with
      | nil =>
        obtain rfl : "native" = first := by
          simpa [leadingIdentifier?_of_labels h] using hfirst
        exact wordAfter?_of_labels h (by simp) (by decide)
      | cons c later =>
        obtain rfl : c = first := by simpa [leadingIdentifier?_of_labels h] using hfirst
        have hc : c ∉ visibilityWords := by rcases hconstant with rfl | rfl <;> decide
        have hnoFront : tokens.map label = ([] : List String).map .word ++ .word c :: _ := h
        exact wordAfter?_of_labels hnoFront (by simp) hc
    rw [hfirst']
    rcases hconstant with rfl | rfl <;> rfl
  simp [ofTokens, hfirst, hnone, hcontainer, wordAfter?_of_labels h hroutine (by decide),
    wordAfter?_of_labels h hfront (by decide), ofRoutineWord?]

/-- The words that decide the role of a line. -/
def decidingWords : List String :=
  ["globals", "endglobals", "endfunction", "endmethod", "endstruct", "endlibrary", "local", "type",
    "function", "method", "struct", "library", "library_once", "native"]

/-- A line without deciding words is an ordinary line. -/
theorem ofTokens_eq_other
    (h : ∀ w, .word w ∈ tokens.map label → w ∉ decidingWords) : ofTokens tokens = .other := by
  have hmute : ∀ w, w ∉ decidingWords →
      ofFirstWord? w = none ∧ ofRoutineWord? w = none ∧ ofContainerWord? w = none ∧
        w ≠ "native" := by
    intro w hw
    simp only [decidingWords, List.mem_cons, not_or] at hw
    simp [ofFirstWord?, ofRoutineWord?, ofContainerWord?, hw]
  unfold ofTokens
  split
  · rfl
  · next first hfirst =>
    -- The first word is the word behind an empty run of modifiers
    have hfirst' : wordAfter? [] tokens = some first := by
      cases tokens with
      | nil => simp [leadingIdentifier?] at hfirst
      | cons => simpa [wordAfter?, isKeywordOf] using hfirst
    have hroutine : (wordAfter? routineModifiers tokens).bind ofRoutineWord? = none :=
      Option.bind_eq_none_iff.2 fun w hw => (hmute w (h w (mem_of_wordAfter? hw))).2.1
    have hcontainer : (wordAfter? visibilityWords tokens).bind ofContainerWord? = none :=
      Option.bind_eq_none_iff.2 fun w hw => (hmute w (h w (mem_of_wordAfter? hw))).2.2.1
    have hnative : wordAfter? nativeModifiers tokens ≠ some "native" := fun hw =>
      (hmute "native" (h "native" (mem_of_wordAfter? hw))).2.2.2 rfl
    simp [(hmute first (h first (mem_of_wordAfter? hfirst'))).1, hroutine, hcontainer, hnative]

end JassOutline.LineRole
