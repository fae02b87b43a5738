import JassOutline.Program.Assembly
import JassOutline.Proofs.Outline.Nesting
import JassOutline.Proofs.Writing.Header
import JassOutline.Proofs.Writing.Role
import JassOutline.Proofs.Writing.Text
import JassOutline.Proofs.Writing.Variable

/-!
# Reading single constructs

A line with the labels of a declaration has the role the outline expects of it, and the readers of
declarations give back what it declares, up to places.

## Key results

- `LineWrites.bare_ofLine`: a line that declares something by itself
- `HeaderWrites.bare_ofBlock`: a block with its header and what it has inside
-/

namespace JassOutline

open Token

variable {record : SourceLine} {region : Region} {given : List CommentLine}

/-! ### Declarations of a line -/

theorem Native.bare_ofLine {native : Native}
    (h : record.tokens.map label = native.signature.labels "native")
    (hwritable : native.signature.isWritable isFree = true)
    (hgiven : given.map CommentLine.bare = native.comments.map CommentLine.bare) :
    ({ ofLine record with comments := given } : Native).bare = native.bare := by
  have hread := Signature.bare_ofTokens h hwritable
    (fun w hw => by obtain rfl := mem_flagWords hw; decide) (by decide)
  simp only [Signature.bare, Signature.mk.injEq, signature] at hread
  obtain ⟨hname, hparameters, hreturns, hmodifiers⟩ := hread
  -- The modifiers hold `constant` exactly if the native is constant
  have hconstant : (flagWords "constant" native.isConstant).contains "constant" =
      native.isConstant := by
    cases native.isConstant <;> rfl
  simp only [bare, ofLine, hname, hparameters, hreturns, hmodifiers, hconstant]
  simp [Heading.bare, hgiven]

theorem Function.bare_ofHeader {function : Function} {locals : List LocalVariable}
    {globals : List GlobalVariable}
    (h : record.tokens.map label = function.signature.labels "function")
    (hwritable : function.signature.isWritable isFree = true)
    (hgiven : given.map CommentLine.bare = function.comments.map CommentLine.bare)
    (hlocals : locals.map LocalVariable.bare = function.locals.map LocalVariable.bare)
    (hglobals : globals.map GlobalVariable.bare = function.globals.map GlobalVariable.bare) :
    ({ ofHeader record region with comments := given, locals, globals } : Function).bare =
      function.bare := by
  have hwords : ∀ w ∈ function.visibility.words ++ flagWords "constant" function.isConstant,
      w ≠ "function" ∧ w ≠ "takes" ∧ w ≠ "returns" := by
    cases function.visibility <;> cases function.isConstant <;> decide
  have hread := Signature.bare_ofTokens h hwritable hwords (by decide)
  simp only [Signature.bare, Signature.mk.injEq, signature] at hread
  obtain ⟨hname, hparameters, hreturns, hmodifiers⟩ := hread
  have hconstant : (function.visibility.words ++
      flagWords "constant" function.isConstant).contains "constant" = function.isConstant := by
    cases function.visibility <;> cases function.isConstant <;> decide
  have hvisibility : Visibility.ofWords (function.visibility.words ++
      flagWords "constant" function.isConstant) = function.visibility := by
    cases function.visibility <;> cases function.isConstant <;> decide
  simp only [bare, ofHeader, hname, hparameters, hreturns, hmodifiers, hconstant, hvisibility]
  simp [Heading.bare, hgiven, hlocals, hglobals]

theorem Method.bare_ofHeader {method : Method} {locals : List LocalVariable}
    {globals : List GlobalVariable}
    (h : record.tokens.map label = method.signature.labels "method")
    (hwritable : method.signature.isWritable isFree = true)
    (hgiven : given.map CommentLine.bare = method.comments.map CommentLine.bare)
    (hlocals : locals.map LocalVariable.bare = method.locals.map LocalVariable.bare)
    (hglobals : globals.map GlobalVariable.bare = method.globals.map GlobalVariable.bare) :
    ({ ofHeader record region with comments := given, locals, globals } : Method).bare =
      method.bare := by
  have hwords : ∀ w ∈ method.visibility.words ++ method.binding.words,
      w ≠ "method" ∧ w ≠ "takes" ∧ w ≠ "returns" := by
    cases method.visibility <;> cases method.binding <;> decide
  have hread := Signature.bare_ofTokens h hwritable hwords (by decide)
  simp only [Signature.bare, Signature.mk.injEq, signature] at hread
  obtain ⟨hname, hparameters, hreturns, hmodifiers⟩ := hread
  have hvisibility : Visibility.ofWords (method.visibility.words ++ method.binding.words) =
      method.visibility := by
    cases method.visibility <;> cases method.binding <;> decide
  have hbinding : Binding.ofWords (method.visibility.words ++ method.binding.words) =
      method.binding := by
    cases method.visibility <;> cases method.binding <;> decide
  simp only [bare, ofHeader, hname, hparameters, hreturns, hmodifiers, hvisibility, hbinding]
  simp [Heading.bare, hgiven, hlocals, hglobals]

theorem Struct.bare_ofHeader {struct : Struct} {members : List Member} {methods : List Method}
    (h : record.tokens.map label = struct.labels) (hname : struct.name.any isFree = true)
    (hparents : struct.parents.all isFree = true)
    (hgiven : given.map CommentLine.bare = struct.comments.map CommentLine.bare)
    (hmembers : members.map Member.bare = struct.members.map Member.bare)
    (hmethods : methods.map Method.bare = struct.methods.map Method.bare) :
    ({ ofHeader record region with comments := given, members, methods } : Struct).bare =
      struct.bare := by
  -- The keyword and `extends` stand in the line once each
  have hkeyword : "struct" ∉ struct.visibility.words := by cases struct.visibility <;> decide
  have hbehind : record.tokens.map label = struct.visibility.words.map .word ++
      .word "struct" :: nameLabel struct.name :: listClause "extends" struct.parents := by
    rw [h]
    simp [labels]
  have hvisibility : Visibility.ofWords struct.visibility.words = struct.visibility := by
    cases struct.visibility <;> decide
  have hextends : .word "extends" ∉ struct.visibility.words.map Label.word ++
      [.word "struct", nameLabel struct.name] := by
    have hwords : "extends" ∉ struct.visibility.words := by cases struct.visibility <;> decide
    simpa [hwords] using ne_nameLabel hname (by decide)
  have hread := listedNames_listClause (p := (·.isKeyword "extends")) h
    (fun _ => isKeyword_of_not_mem hextends) (fun _ => isKeyword_of_eq)
    fun name hmem => ne_of_isFree (List.all_eq_true.1 hparents name hmem) (by decide)
  simp only [bare, ofHeader, Signature.wordBehind?_nameLabel hbehind hkeyword hname,
    texts_of_words (Signature.takeWhile_of_words hbehind hkeyword), hvisibility, hread]
  simp [Heading.bare, hgiven, hmembers, hmethods]

theorem Library.bare_ofHeader {library : Library} {globals : List GlobalVariable}
    {functions : List Function} {structs : List Struct}
    (h : record.tokens.map label = library.labels) (hname : library.name.any isFree = true)
    (hsetUp : library.setUp.all isFree = true)
    (hrequirements : library.requirements.all isFree = true)
    (hgiven : given.map CommentLine.bare = library.comments.map CommentLine.bare)
    (hglobals : globals.map GlobalVariable.bare = library.globals.map GlobalVariable.bare)
    (hfunctions : functions.map Function.bare = library.functions.map Function.bare)
    (hstructs : structs.map Struct.bare = library.structs.map Struct.bare) :
    ({ ofHeader record region with comments := given, globals, functions, structs }
      : Library).bare = library.bare := by
  have hnoFront : record.tokens.map label =
      [] ++ .word "library" :: nameLabel library.name :: _ := h
  obtain ⟨later, hafter, hlater⟩ := after?_of_labels
    (p := (·.isKeywordOf ["library", "library_once"])) hnoFront (by simp)
    fun _ htoken => by simp [isKeywordOf_of_word htoken]
  have hleading : leadingIdentifier? later = library.name := by
    obtain ⟨name, hsome, -⟩ := (Option.any_eq_true ..).1 hname
    rw [hsome] at hlater ⊢
    exact leadingIdentifier?_of_labels hlater
  have hinitializer : .word "initializer" ∉ [Label.word "library", nameLabel library.name] := by
    simpa using ne_nameLabel hname (by decide)
  have hnotRequired : .word "initializer" ∉ listClause "requires" library.requirements := by
    intro hmem
    rcases mem_listClause hmem with h | hmem
    · exact absurd h (by decide)
    · exact ne_of_isFree (List.all_eq_true.1 hrequirements _ hmem) (by decide) rfl
  have hsetUpRead := Signature.wordBehind?_clause h hinitializer hnotRequired
  -- What stands in front of the requirements
  let opening : List Label :=
    [.word "library", nameLabel library.name] ++ clause "initializer" library.setUp
  have hopening : record.tokens.map label = opening ++ listClause "requires" library.requirements :=
    h.trans (List.append_assoc ..).symm
  have hfront : ∀ word ∈ ["requires", "needs", "uses"], .word word ∉ opening := by
    intro word hword hmem
    have hreserved : word ∈ reservedWords ∧ word ≠ "library" ∧ word ≠ "initializer" :=
      (by decide : ∀ word ∈ ["requires", "needs", "uses"],
        word ∈ reservedWords ∧ word ≠ "library" ∧ word ≠ "initializer") word hword
    rcases List.mem_append.1 hmem with hmem | hmem
    · have hne := ne_nameLabel hname hreserved.1
      simp [hreserved, hne] at hmem
    · rcases mem_clause hmem with h | h
      · exact hreserved.2.2 h
      · exact ne_of_isFree ((Option.all_eq_true ..).1 hsetUp word h) hreserved.1 rfl
  have hread := listedNames_listClause (p := (·.isKeywordOf ["requires", "needs", "uses"]))
    hopening (fun _ => isKeywordOf_of_not_mem hfront)
    (fun _ htoken => by simp [isKeywordOf_of_word htoken])
    fun name hmem => ne_of_isFree (List.all_eq_true.1 hrequirements name hmem) (by decide)
  simp only [bare, ofHeader, hafter, hleading, hsetUpRead, hread]
  simp [Heading.bare, hgiven, hglobals, hfunctions, hstructs]

theorem TypeDeclaration.bare_ofLine {type : TypeDeclaration}
    (h : record.tokens.map label = type.labels) (hname : type.name.any isFree = true)
    (hgiven : given.map CommentLine.bare = type.comments.map CommentLine.bare) :
    ({ ofLine record with comments := given } : TypeDeclaration).bare = type.bare := by
  have hbehind : record.tokens.map label = ([] : List String).map .word ++
      .word "type" :: nameLabel type.name :: clause "extends" type.parent := by
    rw [h]
    rfl
  have hfront : .word "extends" ∉ [Label.word "type", nameLabel type.name] := by
    simpa using ne_nameLabel hname (by decide)
  have hclause : record.tokens.map label = [.word "type", nameLabel type.name] ++
      (clause "extends" type.parent ++ []) := by
    rw [h, List.append_nil]
    rfl
  simp only [bare, ofLine, Signature.wordBehind?_nameLabel hbehind (by simp) hname,
    Signature.wordBehind?_clause hclause hfront (by simp)]
  simp [Heading.bare, hgiven]

/-! ### Lines and blocks in a scope -/

/-- A variable line decides no role, whatever stands in front of its type. -/
theorem ofTokens_of_words {words : List String}
    (h : record.tokens.map label = words.map .word)
    (hwords : ∀ w ∈ words, w ∉ LineRole.decidingWords) :
    LineRole.ofTokens record.tokens = .other :=
  LineRole.ofTokens_eq_other fun w hw => hwords w (by simpa [h] using hw)

theorem VariableShape.not_mem_decidingWords {shape : VariableShape}
    (h : shape.isWritable isFree = true) : ∀ w ∈ shape.words, w ∉ LineRole.decidingWords := by
  intro w hw hmem
  have hreserved : ∀ w ∈ LineRole.decidingWords, w ∈ reservedWords ∧ w ≠ "array" := by decide
  rcases isFree_of_mem_words h hw with heq | hfree
  · exact (hreserved w hmem).2 heq
  · exact ne_of_isFree hfree (hreserved w hmem).1 rfl

theorem GlobalVariable.not_mem_decidingWords {v : GlobalVariable}
    (h : v.shape.isWritable isFree = true) : ∀ w ∈ v.words, w ∉ LineRole.decidingWords := by
  have hfront : ∀ w ∈ v.visibility.words ++ flagWords "constant" v.isConstant,
      w ∉ LineRole.decidingWords := by
    cases v.visibility <;> cases v.isConstant <;> decide
  rw [GlobalVariable.words, ← List.append_assoc]
  exact List.forall_mem_append.2 ⟨hfront, VariableShape.not_mem_decidingWords h⟩

theorem Member.not_mem_decidingWords {v : Member} (h : v.shape.isWritable isFree = true) :
    ∀ w ∈ v.words, w ∉ LineRole.decidingWords := by
  have hfront : ∀ w ∈ v.visibility.words ++ (v.binding.words ++
      (flagWords "constant" v.isConstant ++ flagWords "readonly" v.isReadonly)),
      w ∉ LineRole.decidingWords := by
    cases v.visibility <;> cases v.binding <;> cases v.isConstant <;> cases v.isReadonly <;>
      decide
  simp only [Member.words, ← List.append_assoc] at hfront ⊢
  exact List.forall_mem_append.2 ⟨hfront, VariableShape.not_mem_decidingWords h⟩

/-- A line that declares something by itself is no bracket and no comment, and declares it. -/
theorem LineWrites.bare_ofLine {scope : Scope} {comments : List CommentLine} {labels : List Label}
    {declared : Declarations} (h : LineWrites scope comments labels declared)
    (hlabels : record.tokens.map label = labels)
    (hgiven : given.map CommentLine.bare = comments.map CommentLine.bare) :
    ∃ role, LineRole.ofTokens record.tokens = role ∧ Outline.Bracket.ofRole? role = none ∧
      role ≠ .comment ∧
      (Declarations.ofLine scope role given record).bare = declared.bare := by
  cases h with
  | native hsignature =>
    rename_i native
    have hfront : ∀ w ∈ flagWords "constant" native.isConstant, w ∈ LineRole.nativeModifiers := by
      cases native.isConstant <;> decide
    have hrole : LineRole.ofTokens record.tokens = .native :=
      LineRole.ofTokens_of_native (hlabels.trans (Signature.labels_eq ..)) hfront
    -- A native is no bracket, and the line is read as a header
    exact ⟨.native, hrole, rfl, by decide, by
      simp [Declarations.ofLine, Declarations.bare, Declarations.none,
        Native.bare_ofLine hlabels hsignature hgiven]⟩
  | typeDeclaration hname hparent =>
    have hrole : LineRole.ofTokens record.tokens = .typeDeclaration :=
      LineRole.ofTokens_of_first hlabels rfl
    exact ⟨.typeDeclaration, hrole, rfl, by decide, by
      simp [Declarations.ofLine, Declarations.bare, Declarations.none,
        TypeDeclaration.bare_ofLine hlabels hname hgiven]⟩
  | globalVariable hshape =>
    -- None of the words decides a role, so that the line is tried as a variable
    have hrole := ofTokens_of_words hlabels (GlobalVariable.not_mem_decidingWords hshape)
    refine ⟨.other, hrole, rfl, by decide, ?_⟩
    simp [Declarations.ofLine, isGlobalLine_of_words hlabels,
      GlobalVariable.ofLine_of_words hlabels hshape, Declarations.bare, Declarations.none,
      GlobalVariable.bare, Heading.bare, hgiven]
  | localVariable hshape =>
    have hrole : LineRole.ofTokens record.tokens = .localVariable :=
      LineRole.ofTokens_of_first hlabels rfl
    obtain ⟨region, hread⟩ := LocalVariable.ofLine_of_words hlabels hshape
    refine ⟨.localVariable, hrole, rfl, by decide, ?_⟩
    simp [Declarations.ofLine, hread, Declarations.bare, Declarations.none,
      LocalVariable.bare, Heading.bare, hgiven]
  | member hshape =>
    have hrole := ofTokens_of_words hlabels (Member.not_mem_decidingWords hshape)
    refine ⟨.other, hrole, rfl, by decide, ?_⟩
    simp [Declarations.ofLine, isMemberLine_of_words hlabels hshape,
      Member.ofLine_of_words hlabels hshape, Declarations.bare, Declarations.none,
      Member.bare, Heading.bare, hgiven]

/-- A header opens a block of its kind. -/
theorem HeaderWrites.ofTokens {kind : BlockKind} {comments : List CommentLine}
    {labels : List Label} {inside declared : Declarations}
    (h : HeaderWrites kind comments labels inside declared)
    (hlabels : record.tokens.map label = labels) :
    LineRole.ofTokens record.tokens = .opens kind := by
  -- In front of a keyword only words stand that its role lets pass
  cases h with
  | globals => exact LineRole.ofTokens_of_first hlabels rfl
  | function =>
    rename_i function _
    have hfront : ∀ w ∈ function.visibility.words ++ flagWords "constant" function.isConstant,
        w ∈ LineRole.routineModifiers := by
      cases function.visibility <;> cases function.isConstant <;> decide
    exact LineRole.ofTokens_of_routine (hlabels.trans (Signature.labels_eq ..)) hfront rfl
  | method =>
    rename_i method _
    have hfront : ∀ w ∈ method.visibility.words ++ method.binding.words,
        w ∈ LineRole.routineModifiers := by
      cases method.visibility <;> cases method.binding <;> decide
    exact LineRole.ofTokens_of_routine (hlabels.trans (Signature.labels_eq ..)) hfront rfl
  | struct =>
    rename_i struct _ _
    have hfront : ∀ w ∈ struct.visibility.words, w ∈ LineRole.visibilityWords := by
      cases struct.visibility <;> decide
    exact LineRole.ofTokens_of_container (hlabels.trans (List.append_assoc ..)) hfront rfl
  | library =>
    have hnoFront : record.tokens.map label = ([] : List String).map .word ++
        .word "library" :: _ := hlabels
    exact LineRole.ofTokens_of_container hnoFront (by simp) rfl

/-- A block with the written header declares what is written, if it has inside what is written. -/
theorem HeaderWrites.bare_ofBlock {kind : BlockKind} {comments : List CommentLine}
    {labels : List Label} {inside declared inner : Declarations}
    (h : HeaderWrites kind comments labels inside declared)
    (hlabels : record.tokens.map label = labels)
    (hgiven : given.map CommentLine.bare = comments.map CommentLine.bare)
    (hinner : inner.bare = inside.bare) :
    (Declarations.ofBlock kind region (if kind.hasHeader then some record else none) given
      inner).bare = declared.bare := by
  -- A block takes from inside what its kind may hold
  have hglobals := congrArg Declarations.globals hinner
  have hlocals := congrArg Declarations.locals hinner
  have hmembers := congrArg Declarations.members hinner
  have hmethods := congrArg Declarations.methods hinner
  have hfunctions := congrArg Declarations.functions hinner
  have hstructs := congrArg Declarations.structs hinner
  cases h with
  | globals => simpa [Declarations.ofBlock, Declarations.bare, Declarations.none] using hglobals
  | function hsignature =>
    simp [Declarations.ofBlock, BlockKind.hasHeader, Declarations.bare, Declarations.none,
      Function.bare_ofHeader hlabels hsignature hgiven hlocals hglobals]
  | method hsignature =>
    simp [Declarations.ofBlock, BlockKind.hasHeader, Declarations.bare, Declarations.none,
      Method.bare_ofHeader hlabels hsignature hgiven hlocals hglobals]
  | struct hname hparents =>
    simp [Declarations.ofBlock, BlockKind.hasHeader, Declarations.bare, Declarations.none,
      Struct.bare_ofHeader hlabels hname hparents hgiven hmembers hmethods]
  | library hname hsetUp hrequirements =>
    simp [Declarations.ofBlock, BlockKind.hasHeader, Declarations.bare, Declarations.none,
      Library.bare_ofHeader hlabels hname hsetUp hrequirements hgiven hglobals hfunctions hstructs]

end JassOutline
