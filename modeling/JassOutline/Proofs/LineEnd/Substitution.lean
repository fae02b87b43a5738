import JassOutline.Proofs.LineEnd.Line
import JassOutline.Proofs.Pairing.Stages

/-!
# Lines of macros that differ in their ends

A parameter of a macro stands between two dollar signs, and no line end has one. Arguments stand
within their line. So a line of a macro keeps its end when its parameters are replaced.

## Key results

- `TextMacro.substitute_append`: parameters in front of a line end
- `SourceLine.Alike.isLineBreak_arguments`: what arguments consist of
- `TextMacro.Pairs.instantiate`: the lines of two definitions that are alike
-/

namespace JassOutline

open Text Token

/-! ### Parameters in front of a line end -/

section

variable (ending : LineEnd) {pattern : List Char}

/-- A pattern that ends with a dollar sign does not reach into a line end. -/
theorem startsWith_append_chars (opening text : List Char) :
    startsWith (opening ++ ['$']) (text ++ ending.chars) = startsWith (opening ++ ['$']) text := by
  have hdollar : '$' ∉ ending.chars := by cases ending <;> decide
  rw [Bool.eq_iff_iff, startsWith_iff, startsWith_iff]
  constructor
  · rintro ⟨rest, hrest⟩
    rcases List.append_eq_append_iff.1 hrest with ⟨later, hopening, hchars⟩ | ⟨later, htext, -⟩
    · -- The pattern is as long as the text, or its last character is one of the line end
      rcases List.eq_nil_or_concat later with rfl | ⟨front, last, rfl⟩
      · exact ⟨[], by rw [List.append_nil, hopening, List.append_nil]⟩
      · rw [List.concat_eq_append, ← List.append_assoc] at hopening
        obtain rfl : '$' = last := by simpa using (List.append_inj' hopening rfl).2
        exact absurd (hchars ▸ by simp) hdollar
    · exact ⟨later, htext⟩
  · rintro ⟨rest, rfl⟩
    exact ⟨rest ++ ending.chars, by rw [List.append_assoc]⟩

/-- Where there is no dollar sign, there is no parameter. -/
theorem replaceAll_of_not_mem {name replacement text : List Char} (h : '$' ∉ text) :
    replaceAll ('$' :: name) replacement text = text := by
  induction text with
  | nil => rw [replaceAll]
  | cons c rest ih =>
    obtain ⟨hc, hrest⟩ := not_or.1 (mt List.mem_cons.2 h)
    have hstart : startsWith ('$' :: name) (c :: rest) = false := by
      rw [startsWith, dropLeading?, if_neg hc]
      rfl
    rw [replaceAll, if_neg (by simp [hstart]), ih hrest]

theorem replaceAll_append (name replacement text : List Char) :
    replaceAll ('$' :: name ++ ['$']) replacement (text ++ ending.chars) =
      replaceAll ('$' :: name ++ ['$']) replacement text ++ ending.chars := by
  have hdollar : '$' ∉ ending.chars := by cases ending <;> decide
  fun_induction replaceAll ('$' :: name ++ ['$']) replacement text with
  | case1 => exact replaceAll_of_not_mem hdollar
  | case2 c rest hstart ih =>
    -- The parameter is replaced within the text
    obtain ⟨behind, hbehind⟩ := startsWith_iff.1 hstart
    have hlength : ('$' :: name ++ ['$']).length - 1 ≤ rest.length := by
      have := congrArg List.length hbehind
      simp only [List.length_append, List.length_cons] at this ⊢
      omega
    have hstart' : startsWith ('$' :: name ++ ['$']) (c :: (rest ++ ending.chars)) = true :=
      (startsWith_append_chars ending ('$' :: name) (c :: rest)).trans hstart
    change replaceAll _ _ (c :: (rest ++ ending.chars)) = _
    rw [replaceAll, if_pos hstart', List.drop_append_of_le_length hlength, ih, List.append_assoc]
  | case3 c rest hstart ih =>
    -- Nor does the line end complete a parameter that the text breaks off
    have hstart' : ¬startsWith ('$' :: name ++ ['$']) (c :: (rest ++ ending.chars)) = true :=
      mt (startsWith_append_chars ending ('$' :: name) (c :: rest)).symm.trans hstart
    change replaceAll _ _ (c :: (rest ++ ending.chars)) = _
    rw [replaceAll, if_neg hstart', ih]
    rfl

theorem mem_replaceAll {pattern replacement text : List Char} {c : Char}
    (h : c ∈ replaceAll pattern replacement text) : c ∈ replacement ∨ c ∈ text := by
  fun_induction replaceAll pattern replacement text with
  | case1 => cases h
  | case2 d rest hstart ih =>
    rcases List.mem_append.1 h with h | h
    · exact .inl h
    · exact (ih h).imp_right fun hmem => List.mem_cons_of_mem _ (List.mem_of_mem_drop hmem)
  | case3 d rest hstart ih =>
    rcases List.mem_cons.1 h with rfl | h
    · exact .inr List.mem_cons_self
    · exact (ih h).imp_right (List.mem_cons_of_mem _)

end

namespace TextMacro

theorem substitute_append (ending : LineEnd) (parameters arguments : List String)
    (text : List Char) :
    substitute parameters arguments (text ++ ending.chars) =
      substitute parameters arguments text ++ ending.chars := by
  induction parameters generalizing arguments text with
  | nil => rfl
  | cons parameter parameters ih =>
    rw [substitute, substitute, placeholder, replaceAll_append, ih]

theorem mem_substitute {parameters arguments : List String} {text : List Char} {c : Char}
    (h : c ∈ substitute parameters arguments text) :
    (∃ argument ∈ arguments, c ∈ argument.toList) ∨ c ∈ text := by
  induction parameters generalizing arguments text with
  | nil => exact .inr h
  | cons parameter parameters ih =>
    rw [substitute] at h
    rcases ih h with ⟨argument, hargument, hc⟩ | hc
    · exact .inl ⟨argument, List.mem_of_mem_tail hargument, hc⟩
    rcases mem_replaceAll hc with hc | hc
    · cases arguments with
      | nil => simp at hc
      | cons argument arguments => exact .inl ⟨argument, List.mem_cons_self, hc⟩
    · exact .inr hc

end TextMacro

/-! ### Arguments -/

/-- A token consists of characters of its line. -/
theorem Token.mem_of_mem_tokenizeFrom {line column : Nat} {text : List Char} {token : Token}
    (h : token ∈ tokenizeFrom line column text) {c : Char} (hc : c ∈ token.text.toList) :
    c ∈ text := by
  induction text using readingInduction generalizing column with
  | nil =>
    rw [tokenizeFrom_nil] at h
    cases h
  | blank d rest hblank ih =>
    rw [tokenizeFrom_blank hblank] at h
    exact List.mem_cons_of_mem _ (ih h)
  | token d rest hblank ih =>
    rw [tokenizeFrom_cons hblank] at h
    rcases List.mem_cons.1 h with rfl | h
    · rw [String.toList_ofList] at hc
      exact List.cons_subset_cons _ (List.take_subset _ _) hc
    · exact List.mem_cons_of_mem _ (List.mem_of_mem_drop (ih h))

/-- The texts of the list are those of some of the tokens. -/
theorem TextMacro.mem_listItems {accept : Token → Bool} {expecting : Bool} {tokens : List Token}
    {item : String} (h : item ∈ listItems accept expecting tokens) :
    ∃ token ∈ tokens, item = token.text := by
  induction tokens generalizing expecting with
  | nil => cases h
  | cons token rest ih =>
    have hlater : ∀ {expecting}, item ∈ listItems accept expecting rest →
        ∃ found ∈ token :: rest, item = found.text := fun hrest => by
      obtain ⟨found, hfound, hitem⟩ := ih hrest
      exact ⟨found, List.mem_cons_of_mem _ hfound, hitem⟩
    rw [listItems] at h
    split_ifs at h with hstop hexpecting haccept
    · cases h
    · rcases List.mem_cons.1 h with rfl | h
      · exact ⟨token, List.mem_cons_self, rfl⟩
      · exact hlater h
    · exact hlater h
    · exact hlater h

namespace Invocation

theorem mem_unquote {literal : List Char} {c : Char} (h : c ∈ unquote literal) : c ∈ literal := by
  have hinner : ∀ d ∈ (dropLeading? ['"'] literal).getD literal, d ∈ literal := fun d hd => by
    cases hdrop : dropLeading? ['"'] literal with
    | none => rwa [hdrop] at hd
    | some inner =>
      rw [hdrop] at hd
      exact dropLeading?_eq_some hdrop ▸ List.mem_append_right _ hd
  unfold unquote at h
  dsimp only at h
  split at h
  · exact hinner c (List.dropLast_subset _ h)
  · exact hinner c h

/-- An argument consists of characters of its tokens. -/
theorem mem_argumentsOf {tokens : List Token} {argument : String} {c : Char}
    (h : argument ∈ argumentsOf tokens) (hc : c ∈ argument.toList) :
    ∃ token ∈ tokens, c ∈ token.text.toList := by
  cases tokens with
  | nil => cases h
  | cons opening rest =>
    rw [argumentsOf] at h
    split at h
    · obtain ⟨literal, hliteral, rfl⟩ := List.mem_map.1 h
      obtain ⟨token, htoken, rfl⟩ := TextMacro.mem_listItems hliteral
      rw [String.toList_ofList] at hc
      exact ⟨token, List.mem_cons_of_mem _ htoken, mem_unquote hc⟩
    · cases h

theorem dropKeyword_subset (word : String) (tokens : List Token) :
    (dropKeyword word tokens).2 ⊆ tokens := by
  cases tokens with
  | nil => exact List.Subset.refl _
  | cons token rest =>
    rw [dropKeyword]
    split
    · exact List.subset_cons_self ..
    · exact List.Subset.refl _

theorem mem_target {tokens : List Token} {argument : String} {c : Char}
    (h : argument ∈ (target tokens).2) (hc : c ∈ argument.toList) :
    ∃ token ∈ tokens, c ∈ token.text.toList := by
  cases tokens with
  | nil => cases h
  | cons name rest =>
    rw [target] at h
    split at h
    · obtain ⟨token, htoken, hc⟩ := mem_argumentsOf h hc
      exact ⟨token, List.mem_cons_of_mem _ htoken, hc⟩
    · cases h

end Invocation

section

variable {isOpen : Nat → Bool} {record record' : SourceLine}

/-- The arguments of an invocation stand within its line. -/
theorem SourceLine.Alike.isLineBreak_arguments (h : Alike isOpen record record') :
    ∀ argument ∈ (Invocation.ofLine record).arguments, ∀ c ∈ argument.toList,
      isLineBreak c = false := by
  intro argument hargument c hc
  obtain ⟨body, ending, ending', hends, hbreak, htext, -⟩ := h.exists_body
  have hunmarked := Directive.isLineBreak_unmark hbreak
  have htokens : TextMacro.directiveTokens record =
      tokenize record.line (Directive.unmark body) := by
    rw [TextMacro.directiveTokens, htext, Directive.unmark_append, hends.tokenize_left hunmarked]
  obtain ⟨token, htoken, hc⟩ := Invocation.mem_target hargument hc
  have hmem := Invocation.dropKeyword_subset _ _ (Invocation.dropKeyword_subset _ _ htoken)
  rw [htokens] at hmem
  exact hunmarked c (mem_of_mem_tokenizeFrom hmem hc)

/-- A line keeps its end when parameters are replaced. -/
theorem SourceLine.Alike.substitute (h : Alike isOpen record record') (parameters : List String)
    {arguments : List String} (harguments : ∀ argument ∈ arguments, ∀ c ∈ argument.toList,
      isLineBreak c = false) :
    Alike isOpen (record.withText (TextMacro.substitute parameters arguments record.text.toList))
      (record'.withText (TextMacro.substitute parameters arguments record'.text.toList)) := by
  obtain ⟨body, ending, ending', hends, hbreak, htext, htext'⟩ := h.exists_body
  refine ⟨h.line_eq, TextMacro.substitute parameters arguments body, ending, ending', hends,
    fun c hc => ?_, ?_, ?_⟩
  · rcases TextMacro.mem_substitute hc with ⟨argument, hargument, hc⟩ | hc
    · exact harguments argument hargument c hc
    · exact hbreak c hc
  · rw [withText, String.toList_ofList, htext, TextMacro.substitute_append]
  · rw [withText, String.toList_ofList, htext', TextMacro.substitute_append]

/-- Two definitions give lines that are alike, for the same arguments. -/
theorem TextMacro.Pairs.instantiate {definition definition' : TextMacro}
    (h : Pairs (SourceLine.Alike isOpen) definition definition') {arguments : List String}
    (harguments : ∀ argument ∈ arguments, ∀ c ∈ argument.toList, isLineBreak c = false) :
    List.Forall₂ (SourceLine.Alike isOpen) (definition.instantiate arguments)
      (definition'.instantiate arguments) := by
  rw [TextMacro.instantiate, TextMacro.instantiate, h.parameters, List.forall₂_map_left_iff,
    List.forall₂_map_right_iff]
  exact h.body.imp fun _ _ hrecord => hrecord.substitute _ harguments

end

end JassOutline
