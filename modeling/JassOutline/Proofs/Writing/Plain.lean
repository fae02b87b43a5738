import JassOutline.Proofs.Writing.Text

/-!
# Written lines consist of words and commas

Every label of a line that writes a declaration is a name, a keyword or a comma, so that the line
can be spelled and its spelling is read back.

## Key results

- `LineWrites.isPlain`, `HeaderWrites.isPlain`: the labels of a written line are plain
-/

namespace JassOutline

/-! ### Parts of a line -/

theorem isPlain_words (words : List String) (h : ∀ w ∈ words, isName w = true) :
    ∀ l ∈ words.map Label.word, l.IsPlain := by
  intro l hl
  obtain ⟨w, hw, rfl⟩ := List.mem_map.1 hl
  exact .word (h w hw)

theorem isPlain_nameLabel {name? : Option String} (h : name?.any isFree = true) :
    (nameLabel name?).IsPlain := by
  obtain ⟨name, rfl, hname⟩ := (Option.any_eq_true ..).1 h
  exact .word (isName_of_isFree hname)

theorem isPlain_listClause {keyword : String} {names : List String}
    (hkeyword : isName keyword = true) (h : names.all isFree = true) :
    ∀ l ∈ listClause keyword names, l.IsPlain :=
  forall_mem_listClause (.word hkeyword) .comma fun name hname =>
    .word (isName_of_isFree (List.all_eq_true.1 h name hname))

theorem isPlain_clause {keyword : String} {text? : Option String} (hkeyword : isName keyword = true)
    (h : ∀ text, text? = some text → isName text = true) :
    ∀ l ∈ clause keyword text?, l.IsPlain := by
  cases text? with
  | none => simp [clause]
  | some text => exact isPlain_words [keyword, text] (by simp [hkeyword, h])

theorem isPlain_listLabels {parameters : List Parameter}
    (h : ∀ parameter ∈ parameters, parameter.isWritable isFree = true) :
    ∀ l ∈ Parameter.listLabels parameters, l.IsPlain := by
  cases parameters with
  | nil => exact isPlain_words ["nothing"] (by decide)
  | cons parameter parameters =>
    refine forall_mem_listed .comma fun item hitem => ?_
    obtain ⟨found, hfound, rfl⟩ := List.mem_map.1 hitem
    obtain ⟨htype, hname⟩ := Bool.and_eq_true_iff.1 (h found hfound)
    exact List.forall_mem_cons.2 ⟨.word (isName_of_isFree htype),
      List.forall_mem_cons.2 ⟨isPlain_nameLabel hname, by simp⟩⟩

theorem Signature.isPlain_labels {keyword : String} {signature : Signature}
    (h : signature.isWritable isFree = true) (hkeyword : isName keyword = true)
    (hmodifiers : ∀ w ∈ signature.modifiers, isName w = true) :
    ∀ l ∈ signature.labels keyword, l.IsPlain := by
  obtain ⟨⟨name, hname, hfree⟩, hparameters, hreturns⟩ := isWritable_iff.1 h
  have hany : signature.name.any isFree = true := by simp [hname, hfree]
  have hreturnsName : ∀ type, signature.returns = some type → isName type = true := by
    intro type htype
    rcases hreturns type htype with hfree | rfl
    · exact isName_of_isFree hfree
    · decide
  rw [labels_eq]
  -- The modifiers, the keyword, the name and `takes` stand in front of the two lists
  refine List.forall_mem_append.2 ⟨isPlain_words _ hmodifiers, ?_⟩
  refine List.forall_mem_cons.2 ⟨.word hkeyword, ?_⟩
  refine List.forall_mem_cons.2 ⟨isPlain_nameLabel hany, ?_⟩
  refine List.forall_mem_cons.2 ⟨.word (by decide), ?_⟩
  exact List.forall_mem_append.2
    ⟨isPlain_listLabels hparameters, isPlain_clause (by decide) hreturnsName⟩

theorem VariableShape.isName_of_mem_words {shape : VariableShape}
    (h : shape.isWritable isFree = true) : ∀ w ∈ shape.words, isName w = true := by
  intro w hw
  rcases isFree_of_mem_words h hw with rfl | hfree
  · decide
  · exact isName_of_isFree hfree

/-! ### Lines -/

/-- The labels of a line that declares something by itself are plain. -/
theorem LineWrites.isPlain {scope : Scope} {comments : List CommentLine} {labels : List Label}
    {declared : Declarations} (h : LineWrites scope comments labels declared) :
    ∀ l ∈ labels, l.IsPlain := by
  cases h with
  | native hsignature =>
    rename_i native
    have hmodifiers : ∀ w ∈ flagWords "constant" native.isConstant, isName w = true := by
      cases native.isConstant <;> decide
    exact Signature.isPlain_labels hsignature (by decide) hmodifiers
  | typeDeclaration hname hparent =>
    refine List.forall_mem_cons.2 ⟨.word (by decide), ?_⟩
    refine List.forall_mem_cons.2 ⟨isPlain_nameLabel hname, isPlain_clause (by decide) ?_⟩
    exact fun text htext => isName_of_isFree ((Option.all_eq_true ..).1 hparent text htext)
  | globalVariable hshape =>
    rename_i v
    have hfront : ∀ w ∈ v.visibility.words ++ flagWords "constant" v.isConstant,
        isName w = true := by
      cases v.visibility <;> cases v.isConstant <;> decide
    apply isPlain_words _
    -- The words in front of the type are finitely many, and the others are names
    rw [GlobalVariable.words, ← List.append_assoc]
    exact List.forall_mem_append.2 ⟨hfront, VariableShape.isName_of_mem_words hshape⟩
  | localVariable hshape =>
    rename_i v
    have hfront : ∀ w ∈ "local" :: flagWords "constant" v.isConstant, isName w = true := by
      cases v.isConstant <;> decide
    apply isPlain_words _
    rw [LocalVariable.words, ← List.cons_append]
    exact List.forall_mem_append.2 ⟨hfront, VariableShape.isName_of_mem_words hshape⟩
  | member hshape =>
    rename_i v
    have hfront : ∀ w ∈ v.visibility.words ++ (v.binding.words ++
        (flagWords "constant" v.isConstant ++ flagWords "readonly" v.isReadonly)),
        isName w = true := by
      cases v.visibility <;> cases v.binding <;> cases v.isConstant <;> cases v.isReadonly <;>
        decide
    apply isPlain_words _
    simp only [Member.words, ← List.append_assoc] at hfront ⊢
    exact List.forall_mem_append.2 ⟨hfront, VariableShape.isName_of_mem_words hshape⟩

/-- The labels of a header are plain. -/
theorem HeaderWrites.isPlain {kind : BlockKind} {comments : List CommentLine} {labels : List Label}
    {inside declared : Declarations} (h : HeaderWrites kind comments labels inside declared) :
    ∀ l ∈ labels, l.IsPlain := by
  -- The modifiers are plain since each of them is one of a few words
  cases h with
  | globals => exact isPlain_words ["globals"] (by decide)
  | function hsignature =>
    rename_i function
    have hmodifiers : ∀ w ∈ function.visibility.words ++ flagWords "constant" function.isConstant,
        isName w = true := by
      cases function.visibility <;> cases function.isConstant <;> decide
    exact Signature.isPlain_labels hsignature (by decide) hmodifiers
  | method hsignature =>
    rename_i method
    have hmodifiers : ∀ w ∈ method.visibility.words ++ method.binding.words,
        isName w = true := by
      cases method.visibility <;> cases method.binding <;> decide
    exact Signature.isPlain_labels hsignature (by decide) hmodifiers
  | struct hname hparents =>
    -- What stands behind the keyword is a name and a list of names
    rename_i struct
    have hfront : ∀ w ∈ struct.visibility.words, isName w = true := by
      cases struct.visibility <;> decide
    refine List.forall_mem_append.2
      ⟨List.forall_mem_append.2 ⟨isPlain_words _ hfront, ?_⟩,
        isPlain_listClause (by decide) hparents⟩
    exact List.forall_mem_cons.2 ⟨.word (by decide),
      List.forall_mem_cons.2 ⟨isPlain_nameLabel hname, by simp⟩⟩
  | library hname hsetUp hrequirements =>
    have hsetUpName : ∀ text, _ = some text → isName text = true := fun text htext =>
      isName_of_isFree ((Option.all_eq_true ..).1 hsetUp text htext)
    refine List.forall_mem_append.2 ⟨?_, List.forall_mem_append.2
      ⟨isPlain_clause (by decide) hsetUpName, isPlain_listClause (by decide) hrequirements⟩⟩
    exact List.forall_mem_cons.2 ⟨.word (by decide),
      List.forall_mem_cons.2 ⟨isPlain_nameLabel hname, by simp⟩⟩

theorem isPlain_closer (kind : BlockKind) : ∀ l ∈ [Label.word kind.closer], l.IsPlain :=
  isPlain_words [kind.closer] (by cases kind <;> decide)

end JassOutline
