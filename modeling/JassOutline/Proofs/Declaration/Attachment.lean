import JassOutline.Proofs.Declaration.Nodes
import JassOutline.Proofs.Outline.Covering

/-!
# Which comments a declaration takes

A declaration takes the comment lines directly in front of its first line. What counts as directly
in front is settled by the stream that the outline is made of: the comments and the first line
follow each other there without a gap.

## Key results

- `Declarations.attached_ofNodes`: the declarations of nodes that stand in a stream
- `Program.attached_ofOutline`: the declarations of a stream, at any depth
-/

namespace JassOutline

/-! ### The headings of declarations -/

/-- The headings of a function and of what its body declares. -/
def Function.headings (function : Function) : List Heading :=
  function.toHeading ::
    (function.locals.map LocalVariable.toHeading ++ function.globals.map GlobalVariable.toHeading)

/-- The headings of a method and of what its body declares. -/
def Method.headings (method : Method) : List Heading :=
  method.toHeading ::
    (method.locals.map LocalVariable.toHeading ++ method.globals.map GlobalVariable.toHeading)

/-- The headings of a struct and of what it declares. -/
def Struct.headings (struct : Struct) : List Heading :=
  struct.toHeading ::
    (struct.members.map Member.toHeading ++ struct.methods.flatMap Method.headings)

/-- The headings of a library and of what it declares. -/
def Library.headings (library : Library) : List Heading :=
  library.toHeading ::
    (library.globals.map GlobalVariable.toHeading ++ library.functions.flatMap Function.headings ++
      library.structs.flatMap Struct.headings)

/-- The headings of all declarations, at any depth. -/
def Declarations.headings (declared : Declarations) : List Heading :=
  declared.natives.map Native.toHeading ++ declared.types.map TypeDeclaration.toHeading ++
    declared.globals.map GlobalVariable.toHeading ++ declared.functions.flatMap Function.headings ++
    declared.structs.flatMap Struct.headings ++ declared.libraries.flatMap Library.headings ++
    declared.members.map Member.toHeading ++ declared.methods.flatMap Method.headings ++
    declared.locals.map LocalVariable.toHeading

/-- The headings of all declarations of a program, at any depth. -/
def Program.headings (program : Program) : List Heading :=
  program.natives.map Native.toHeading ++ program.types.map TypeDeclaration.toHeading ++
    program.globals.map GlobalVariable.toHeading ++ program.functions.flatMap Function.headings ++
    program.structs.flatMap Struct.headings ++ program.libraries.flatMap Library.headings

namespace Declarations

variable {heading : Heading}

theorem mem_headings_append {a b : Declarations} :
    heading ∈ (a ++ b).headings ↔ heading ∈ a.headings ∨ heading ∈ b.headings := by
  change heading ∈ (append a b).headings ↔ _
  simp only [headings, append, List.map_append, List.flatMap_append, List.mem_append]
  grind

theorem mem_headings_ofDeclarations {source : Nat} {declared : Declarations}
    (h : heading ∈ (Program.ofDeclarations source declared).headings) :
    heading ∈ declared.headings := by
  simp only [Program.headings, Program.ofDeclarations, headings, List.mem_append] at h ⊢
  grind

end Declarations

/-! ### Where a declaration starts -/

theorem Token.line_of_mem_tokenizeFrom {line column : Nat} {text : List Char} {token : Token}
    (h : token ∈ tokenizeFrom line column text) : token.line = line := by
  fun_induction tokenizeFrom line column text with
  | case1 => cases h
  | case2 _ _ _ _ ih => exact ih h
  | case3 _ _ _ _ _ _ _ _ _ ih =>
    obtain rfl | h := List.mem_cons.1 h
    · rfl
    · exact ih h

/-- The tokens of a line stand on it. -/
theorem SourceLine.line_of_mem_tokens {record : SourceLine} {token : Token}
    (h : token ∈ record.tokens) : token.line = record.line :=
  Token.line_of_mem_tokenizeFrom h

/-- The comment of a line stands on it. -/
theorem CommentLine.line_ofLine (record : SourceLine) :
    (CommentLine.ofLine record).region.start.line = record.line := by
  unfold ofLine
  split
  · next token hfind => exact SourceLine.line_of_mem_tokens (List.mem_of_find?_eq_some hfind)
  · rfl

/-- The region is that of the line, or what is left of it from one of its tokens on. -/
def Region.EndsLine (region : Region) (record : SourceLine) : Prop :=
  region = record.region ∨ ∃ token ∈ record.tokens, region = ⟨token.start, record.region.stop⟩

theorem Region.EndsLine.line {region : Region} {record : SourceLine} (h : region.EndsLine record) :
    region.start.line = record.line := by
  obtain rfl | ⟨token, htoken, rfl⟩ := h
  · rfl
  · exact SourceLine.line_of_mem_tokens htoken

theorem Region.EndsLine.stop_eq {region : Region} {record : SourceLine}
    (h : region.EndsLine record) : region.stop = record.region.stop := by
  obtain rfl | ⟨token, -, rfl⟩ := h <;> rfl

theorem LocalVariable.endsLine_ofLine (record : SourceLine) :
    (LocalVariable.ofLine record).region.EndsLine record := by
  unfold ofLine
  split
  · exact .inl rfl
  · next token rest hrest =>
    have htoken : token ∈ record.tokens :=
      (List.dropWhile_suffix _).subset (hrest ▸ List.mem_cons_self)
    exact .inr ⟨token, htoken, rfl⟩

/-- The visibility is cut off the front of the tokens. -/
theorem dropVisibility_suffix (tokens : List Token) : (dropVisibility tokens).2 <:+ tokens := by
  unfold dropVisibility
  split
  · exact List.suffix_refl _
  · split
    · exact List.suffix_cons ..
    · exact List.suffix_refl _

theorem Member.dropBinding_suffix (tokens : List Token) : (dropBinding tokens).2 <:+ tokens := by
  unfold dropBinding
  split
  · exact List.suffix_refl _
  · split
    · exact List.suffix_cons ..
    · split
      · exact List.suffix_cons ..
      · exact List.suffix_refl _

theorem Member.dropFlags_suffix (flags : Flags) (tokens : List Token) :
    (dropFlags flags tokens).2 <:+ tokens := by
  fun_induction dropFlags flags tokens with
  | case1 => exact List.suffix_refl _
  | case2 _ _ _ _ ih => exact ih.trans (List.suffix_cons ..)
  | case3 _ _ _ _ _ ih => exact ih.trans (List.suffix_cons ..)
  | case4 => exact List.suffix_refl _

theorem Member.endsLine_ofLine (record : SourceLine) :
    (Member.ofLine record).region.EndsLine record := by
  unfold ofLine
  dsimp only
  split
  · exact .inl rfl
  · next token rest hrest =>
    have hsuffix := (dropFlags_suffix ⟨false, false⟩ _).trans
      ((dropBinding_suffix _).trans (dropVisibility_suffix record.tokens))
    have htoken : token ∈ record.tokens :=
      hsuffix.subset ((List.dropWhile_suffix _).subset (hrest ▸ List.mem_cons_self))
    exact .inr ⟨token, htoken, rfl⟩

/-- A library takes the region that it is given, whatever its header says. -/
theorem Library.region_ofHeader (header : SourceLine) (region : Region) :
    (Library.ofHeader header region).region = region := by
  unfold ofHeader
  dsimp only
  split <;> rfl

/-! ### Comments in a stream -/

/-- The comments are those of a run of comment lines of the stream, and the declaration starts on
the line behind the run. -/
def Heading.Attached (stream : List SourceLine) (heading : Heading) : Prop :=
  ∃ before run first after, stream = before ++ run ++ first :: after ∧
    (∀ record ∈ run, LineRole.ofLine record = .comment) ∧
    heading.comments = run.map CommentLine.ofLine ∧ heading.region.start.line = first.line

namespace Declarations

variable {heading : Heading} {comments : List CommentLine}

theorem heading_memberLine {record : SourceLine}
    (h : heading ∈ (ofLine .struct .other comments record).headings) :
    heading.comments = comments ∧ heading.region.start.line = record.line := by
  rw [ofLine] at h
  split at h
  · obtain rfl : heading = _ := by simpa [headings, none] using h
    exact ⟨rfl, (Member.endsLine_ofLine record).line⟩
  · simp [headings, none] at h

theorem heading_globalLine {record : SourceLine}
    (h : heading ∈ (ofLine .globals .other comments record).headings) :
    heading.comments = comments ∧ heading.region.start.line = record.line := by
  rw [ofLine] at h
  split at h
  · obtain rfl : heading = _ := by simpa [headings, none] using h
    exact ⟨rfl, rfl⟩
  · simp [headings, none] at h

/-- What a line declares takes the comments and starts on the line. -/
theorem heading_ofLine {scope : Scope} {role : LineRole} {record : SourceLine}
    (h : heading ∈ (ofLine scope role comments record).headings) :
    heading.comments = comments ∧ heading.region.start.line = record.line := by
  unfold ofLine at h
  split at h
  · obtain rfl : heading = _ := by simpa [headings, none] using h
    exact ⟨rfl, rfl⟩
  · obtain rfl : heading = _ := by simpa [headings, none] using h
    exact ⟨rfl, rfl⟩
  · obtain rfl : heading = _ := by simpa [headings, none] using h
    exact ⟨rfl, (LocalVariable.endsLine_ofLine record).line⟩
  -- A line may declare a member or a global variable whatever its first word says
  · exact heading_memberLine h
  · exact heading_memberLine h
  · exact heading_globalLine h
  · exact heading_globalLine h
  · exact heading_globalLine h
  · simp [headings, none] at h

theorem headings_function (function : Function) :
    { none with functions := [function] }.headings = function.headings := by
  simp [headings, none]

theorem headings_method (method : Method) :
    { none with methods := [method] }.headings = method.headings := by
  simp [headings, none]

theorem headings_struct (struct : Struct) :
    { none with structs := [struct] }.headings = struct.headings := by
  simp [headings, none]

theorem headings_library (library : Library) :
    { none with libraries := [library] }.headings = library.headings := by
  simp [headings, none]

/-- What a block declares takes the comments and starts where the block does, or it is declared
inside. -/
theorem heading_ofBlock {kind : BlockKind} {region : Region} {header? : Option SourceLine}
    {inner : Declarations} (h : heading ∈ (ofBlock kind region header? comments inner).headings) :
    (heading.comments = comments ∧ heading.region = region) ∨ heading ∈ inner.headings := by
  -- A block declares one thing with what is inside of it, but for `globals`, which only hands on
  -- its variables
  cases kind with
  | globals =>
    have hmem : heading ∈ inner.globals.map GlobalVariable.toHeading := by
      simpa [ofBlock, headings, none] using h
    simp only [headings, List.mem_append]
    grind
  | function =>
    rw [ofBlock, headings_function] at h
    obtain rfl | hinner := List.mem_cons.1 h
    · cases header? <;> exact .inl ⟨rfl, rfl⟩
    · simp only [List.mem_append] at hinner
      simp only [headings, List.mem_append]
      grind
  | method =>
    rw [ofBlock, headings_method] at h
    obtain rfl | hinner := List.mem_cons.1 h
    · cases header? <;> exact .inl ⟨rfl, rfl⟩
    · simp only [List.mem_append] at hinner
      simp only [headings, List.mem_append]
      grind
  | struct =>
    rw [ofBlock, headings_struct] at h
    obtain rfl | hinner := List.mem_cons.1 h
    · cases header? <;> exact .inl ⟨rfl, rfl⟩
    · simp only [List.mem_append] at hinner
      simp only [headings, List.mem_append]
      grind
  | library =>
    rw [ofBlock, headings_library] at h
    obtain rfl | hinner := List.mem_cons.1 h
    · refine .inl ⟨rfl, ?_⟩
      cases header? with
      | none => rfl
      | some header => exact Library.region_ofHeader header region
    · simp only [List.mem_append] at hinner
      simp only [headings, List.mem_append]
      grind

/-- What nodes declare, below comment lines that stand directly in front of them. -/
theorem attached_ofNodes {lines : List SourceLine} {nodes : List Node}
    (h : Outline.Covers lines nodes) (scope : Scope) (before run after : List SourceLine)
    (hrun : ∀ record ∈ run, LineRole.ofLine record = .comment)
    (hheading : heading ∈ (ofNodes scope false (run.map .ofLine) nodes).headings) :
    heading.Attached (before ++ run ++ (lines ++ after)) := by
  -- The induction is on how the nodes stand on the lines. In front of them stand lines that are
  -- done with, and then the comments that wait for a declaration
  induction h generalizing scope before run after with
  | nil => simp [ofNodes, headings, none] at hheading
  | @line record rest nodes _ ih =>
    by_cases hrole : LineRole.ofLine record = .comment
    · -- One more comment line stands in front of the other nodes
      have hmore : (run ++ [record]).map CommentLine.ofLine =
          run.map .ofLine ++ [.ofLine record] := by simp
      rw [ofNodes_comment hrole, ← hmore] at hheading
      have hrun' : ∀ line ∈ run ++ [record], LineRole.ofLine line = .comment :=
        List.forall_mem_append.2 ⟨hrun, List.forall_mem_singleton.2 hrole⟩
      have hattached := ih scope before _ after hrun' hheading
      simpa using hattached
    · rw [ofNodes_line rfl hrole, mem_headings_append] at hheading
      obtain hown | hother := hheading
      · obtain ⟨hcomments, hline⟩ := heading_ofLine hown
        exact ⟨before, run, record, rest ++ after, rfl, hrun, hcomments, hline⟩
      · have hattached := ih scope (before ++ run ++ [record]) [] after (by simp) hother
        simpa using hattached
  | @block kind region opener closer? inside rest children nodes hregion _ _ ihInside ih =>
    rw [ofNodes_block, mem_headings_append] at hheading
    obtain hown | hother := hheading
    · split at hown
      · obtain ⟨hcomments, hregionEq⟩ | hinner := heading_ofBlock hown
        · -- The block itself takes the comments in front of its opener
          refine ⟨before, run, opener, inside ++ closer?.toList ++ rest ++ after, ?_, hrun,
            hcomments, ?_⟩
          · simp
          · rw [hregionEq, hregion]
            rfl
        · have hattached := ihInside (.inside kind) (before ++ run ++ [opener]) []
            (closer?.toList ++ rest ++ after) (by simp) hinner
          simpa using hattached
      · simp [headings, none] at hown
    · have hattached := ih scope (before ++ run ++ (opener :: inside ++ closer?.toList)) [] after
        (by simp) hother
      simpa using hattached

end Declarations

/-- Each declaration of a stream takes the comments of the lines directly in front of it. -/
theorem Program.attached_ofOutline (source : Nat) (lines : List SourceLine) {heading : Heading}
    (h : heading ∈ (Program.ofOutline source (Outline.build source lines).1).headings) :
    heading.Attached lines := by
  have hattached := Declarations.attached_ofNodes (Outline.covers_build source lines) .program
    [] [] [] (by simp) (Declarations.mem_headings_ofDeclarations h)
  simpa using hattached

end JassOutline
