import JassOutline.Proofs.Writing.Bare
import JassOutline.Proofs.Writing.Notation

/-!
# Reading written headers

Each reader of declarations gives back the part of a declaration that the labels of a line say.
The headers of routines, structs, libraries and types are put together from optional clauses and
lists behind a keyword.

## Key results

- `Signature.bare_ofTokens`: the header of a native, function or method says its signature
- `wordBehind?_clause`, `listedNames_listClause`: optional clauses and lists of names
-/

namespace JassOutline

open Token

variable {tokens : List Token} {keyword : String} {front rest : List Label}

/-! ### Clauses -/

theorem Signature.wordBehind?_of_labels {text : String}
    (h : tokens.map label = front ++ .word keyword :: .word text :: rest)
    (hfront : .word keyword ∉ front) : wordBehind? keyword tokens = some text := by
  obtain ⟨later, hafter, hlater⟩ := after?_of_labels h
    (fun _ => isKeyword_of_not_mem hfront) (fun _ => isKeyword_of_eq)
  rw [wordBehind?, hafter]
  exact leadingIdentifier?_of_labels hlater

/-- The word of an optional clause is read if the clause is there. -/
theorem Signature.wordBehind?_clause {text? : Option String}
    (h : tokens.map label = front ++ (clause keyword text? ++ rest))
    (hfront : .word keyword ∉ front) (hrest : .word keyword ∉ rest) :
    wordBehind? keyword tokens = text? := by
  cases text? with
  | none =>
    have hmem : .word keyword ∉ front ++ rest := by simp [hfront, hrest]
    -- Without the clause, the keyword stands nowhere in the line
    have hnone : after? (·.isKeyword keyword) tokens = none :=
      after?_eq_none fun _ htoken => isKeyword_of_not_mem hmem (label_mem h htoken)
    rw [wordBehind?, hnone]
    rfl
  | some text => exact wordBehind?_of_labels h hfront

/-- The name of a declaration is the word behind its keyword. -/
theorem Signature.wordBehind?_nameLabel {words : List String} {name? : Option String}
    (h : tokens.map label = words.map .word ++ .word keyword :: nameLabel name? :: rest)
    (hwords : keyword ∉ words) (hname : name?.any isFree = true) :
    wordBehind? keyword tokens = name? := by
  obtain ⟨name, rfl, -⟩ := (Option.any_eq_true ..).1 hname
  exact wordBehind?_of_labels h (by simpa using hwords)

/-- A list of names separated by commas is read name by name. -/
theorem listedNames_of_labels {names : List String}
    (h : tokens.map label = listed (names.map fun name => [.word name]))
    (hnames : ∀ name ∈ names, name ≠ "optional") : listedNames true tokens = names := by
  induction names generalizing tokens with
  | nil =>
    obtain rfl : tokens = [] := by simpa [listed] using h
    rfl
  | cons name names ih =>
    have hname : name ≠ "optional" := hnames name List.mem_cons_self
    cases names with
    | nil =>
      obtain ⟨token, later, rfl, htoken, hlater⟩ := labels_eq_cons.1 h
      obtain rfl : later = [] := by simpa using hlater
      simp [listedNames, isKeyword_of_word htoken, isIdentifier_of_word htoken,
        text_of_word htoken, hname]
    | cons next names =>
      obtain ⟨token, later, rfl, htoken, hlater⟩ := labels_eq_cons.1 h
      obtain ⟨comma, behind, rfl, hcomma, hbehind⟩ := labels_eq_cons.1 hlater
      have hrest := ih hbehind fun n hn => hnames n (List.mem_cons_of_mem _ hn)
      simp [listedNames, isKeyword_of_word htoken, isIdentifier_of_word htoken,
        text_of_word htoken, hname, isOperator_of_sign hcomma, hrest]

/-- The names behind a keyword are read if the keyword is there. -/
theorem listedNames_listClause {p : Token → Bool} {names : List String}
    (h : tokens.map label = front ++ listClause keyword names)
    (hfront : ∀ token : Token, token.label ∈ front → p token = false)
    (hkeyword : ∀ token : Token, token.label = .word keyword → p token = true)
    (hnames : ∀ name ∈ names, name ≠ "optional") :
    listedNames true ((after? p tokens).getD []) = names := by
  cases names with
  | nil =>
    have hnone : after? p tokens = none := after?_eq_none fun token htoken =>
      hfront token (by simpa [listClause] using label_mem h htoken)
    rw [hnone]
    rfl
  | cons name names =>
    obtain ⟨later, hafter, hlater⟩ := after?_of_labels h hfront hkeyword
    rw [hafter]
    exact listedNames_of_labels hlater hnames

/-! ### Parameters -/

/-- A type and a name at the front of a list are one parameter. -/
theorem Parameter.listFrom_of_labels {type name : String}
    (h : tokens.map label = .word type :: .word name :: rest) (htype : type ≠ "nothing") :
    ∃ region later, listFrom tokens = ⟨type, some name, region⟩ :: listFromComma later ∧
      later.map label = rest := by
  obtain ⟨first, behind, rfl, hfirst, hbehind⟩ := labels_eq_cons.1 h
  obtain ⟨second, later, rfl, hsecond, hlater⟩ := labels_eq_cons.1 hbehind
  refine ⟨⟨first.start, second.stop⟩, later, ?_, hlater⟩
  simp [listFrom, listFromName, ofTypeAndName, isKeyword_of_word hfirst, htype,
    isIdentifier_of_word hfirst, isIdentifier_of_word hsecond, text_of_word hfirst,
    text_of_word hsecond]

/-- A list of parameters separated by commas is read parameter by parameter. -/
theorem Parameter.bare_listFrom_listed {parameters : List Parameter}
    (h : tokens.map label = listed (parameters.map labels))
    (hparameters : ∀ parameter ∈ parameters, parameter.isWritable isFree = true) :
    (listFrom tokens).map bare = parameters.map bare := by
  induction parameters generalizing tokens with
  | nil =>
    obtain rfl : tokens = [] := by simpa [listed] using h
    rfl
  | cons parameter parameters ih =>
    obtain ⟨type, name?, region⟩ := parameter
    obtain ⟨htype, name, rfl, -⟩ := isWritable_iff.1 (hparameters _ List.mem_cons_self)
    have hnothing : type ≠ "nothing" := ne_of_isFree htype (by decide)
    cases parameters with
    | nil =>
      obtain ⟨_, later, hread, hlater⟩ := listFrom_of_labels h hnothing
      obtain rfl : later = [] := by simpa using hlater
      rw [hread]
      rfl
    | cons next parameters =>
      obtain ⟨_, later, hread, hlater⟩ := listFrom_of_labels h hnothing
      obtain ⟨comma, behind, rfl, hcomma, hbehind⟩ := labels_eq_cons.1 hlater
      have hrest := ih hbehind fun p hp => hparameters p (List.mem_cons_of_mem _ hp)
      rw [hread, listFromComma, isOperator_of_sign hcomma, List.map_cons, List.map_cons]
      exact congrArg (_ :: ·) hrest

/-- A written list of parameters is read, the empty one included. -/
theorem Parameter.bare_listFrom {parameters : List Parameter}
    (h : tokens.map label = listLabels parameters)
    (hparameters : ∀ parameter ∈ parameters, parameter.isWritable isFree = true) :
    (listFrom tokens).map bare = parameters.map bare := by
  cases parameters with
  | nil =>
    obtain ⟨token, later, rfl, htoken, -⟩ := labels_eq_cons.1 h
    simp [listFrom, isKeyword_of_word htoken]
  | cons => exact bare_listFrom_listed h hparameters

/-! ### Signatures -/

namespace Signature

variable {signature : Signature}

theorem takeWhile_of_words {modifiers : List String}
    (h : tokens.map label = modifiers.map .word ++ .word keyword :: rest)
    (hmodifiers : keyword ∉ modifiers) :
    (tokens.takeWhile (!·.isKeyword keyword)).map label = modifiers.map .word := by
  have hfront : Label.word keyword ∉ modifiers.map .word := by simpa using hmodifiers
  exact (span_of_labels h (fun _ htoken => by simp [isKeyword_of_not_mem hfront htoken])
    (fun token htoken => by simp [isKeyword_of_eq (Option.mem_some_iff.1 htoken).symm])).1

theorem wordsBefore_of_labels {modifiers : List String}
    (h : tokens.map label = modifiers.map .word ++ .word keyword :: rest)
    (hmodifiers : keyword ∉ modifiers) : wordsBefore keyword tokens = modifiers := by
  have htake := takeWhile_of_words h hmodifiers
  have hany : tokens.any (·.isKeyword keyword) = true := by
    obtain ⟨before, behind, rfl, -, hbehind⟩ := labels_eq_append.1 h
    obtain ⟨token, later, rfl, htoken, -⟩ := labels_eq_cons.1 hbehind
    simp [isKeyword_of_eq htoken]
  rw [wordsBefore, if_pos hany,
    List.filter_eq_self.2 fun _ hmem => isIdentifier_of_mem_words htake hmem,
    texts_of_words htake]

theorem parameterTokens_of_labels {parameters : List Label} {returns : Option String}
    (h : tokens.map label = front ++ .word "takes" :: (parameters ++ clause "returns" returns))
    (htakes : .word "takes" ∉ front) (hfront : .word "returns" ∉ front)
    (hparameters : .word "returns" ∉ parameters) :
    (parameterTokens tokens).map label = parameters := by
  obtain ⟨later, hafter, hlater⟩ := after?_of_labels h
    (fun _ => isKeyword_of_not_mem htakes) (fun _ => isKeyword_of_eq)
  have htake := (span_of_labels (p := (!·.isKeyword "takes")) h
    (fun _ htoken => by simp [isKeyword_of_not_mem htakes htoken])
    (fun token htoken => by simp [isKeyword_of_eq (Option.mem_some_iff.1 htoken).symm])).1
  -- A `returns` in front of `takes` would make the list of parameters empty
  have hearly : (tokens.takeWhile (!·.isKeyword "takes")).any (·.isKeyword "returns") = false :=
    List.any_eq_false.2 fun token htoken => by
      simp [isKeyword_of_not_mem hfront (label_mem htake htoken)]
  rw [parameterTokens, hafter, hearly]
  refine (span_of_labels hlater
    (fun _ htoken => by simp [isKeyword_of_not_mem hparameters htoken]) fun token htoken => ?_).1
  cases returns with
  | none => simp [clause] at htoken
  | some type => simp [isKeyword_of_eq (Option.mem_some_iff.1 htoken).symm]

/-- The header of a native, function or method says its signature. -/
theorem bare_ofTokens (h : tokens.map label = signature.labels keyword)
    (hwritable : signature.isWritable isFree = true)
    (hmodifiers : ∀ w ∈ signature.modifiers, w ≠ keyword ∧ w ≠ "takes" ∧ w ≠ "returns")
    (hkeyword : keyword ≠ "takes" ∧ keyword ≠ "returns") :
    (ofTokens keyword tokens).bare = signature.bare := by
  obtain ⟨name?, parameters, returns, modifiers⟩ := signature
  obtain ⟨⟨name, rfl, hname⟩, hparameters, hreturns⟩ := isWritable_iff.1 hwritable
  have hnoReturns : .word "returns" ∉ Parameter.listLabels parameters := fun hmem =>
    (Parameter.isFree_of_mem_listLabels hparameters hmem).elim (by decide)
      fun hfree => ne_of_isFree hfree (by decide) rfl
  -- What stands in front of `takes` holds neither `takes` nor `returns`
  let opening : List Label := modifiers.map .word ++ [.word keyword, .word name]
  have hfront : ∀ w, (∀ m ∈ modifiers, m ≠ w) → keyword ≠ w → name ≠ w → .word w ∉ opening := by
    intro w hm hk hn hmem
    simp only [opening, List.mem_append, Label.mem_map_word, List.mem_cons, Label.word_inj,
      List.not_mem_nil, or_false] at hmem
    rcases hmem with hmem | rfl | rfl
    · exact hm w hmem rfl
    · exact hk rfl
    · exact hn rfl
  have htakes := hfront "takes" (fun m hm => (hmodifiers m hm).2.1) hkeyword.1
    (ne_of_isFree hname (by decide))
  have hreturnsOpening := hfront "returns" (fun m hm => (hmodifiers m hm).2.2) hkeyword.2
    (ne_of_isFree hname (by decide))
  have hkeywordFront : keyword ∉ modifiers := fun hmem => (hmodifiers keyword hmem).1 rfl
  have hopening : tokens.map label = opening ++ .word "takes" ::
      (Parameter.listLabels parameters ++ clause "returns" returns) := by
    rw [h]
    simp [labels, opening, nameLabel]
  have hbehind : tokens.map label = modifiers.map .word ++ .word keyword :: .word name ::
      .word "takes" :: (Parameter.listLabels parameters ++ clause "returns" returns) :=
    h.trans (labels_eq keyword _)
  -- The same labels, cut in front of the optional result
  have hclause : tokens.map label =
      (opening ++ .word "takes" :: Parameter.listLabels parameters) ++
        (clause "returns" returns ++ []) := by
    rw [hopening]
    simp
  have hread : ofTokens keyword tokens =
      ⟨some name, Parameter.listFrom (parameterTokens tokens), returns, modifiers⟩ := by
    rw [ofTokens, wordsBefore_of_labels hbehind hkeywordFront,
      wordBehind?_of_labels hbehind (by simpa using hkeywordFront),
      wordBehind?_clause hclause (by simp [hreturnsOpening, hnoReturns]) (by simp)]
  have hparameterTokens :=
    parameterTokens_of_labels hopening htakes hreturnsOpening hnoReturns
  rw [hread, bare, bare, Parameter.bare_listFrom hparameterTokens hparameters]

end Signature

end JassOutline
