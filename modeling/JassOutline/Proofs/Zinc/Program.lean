import JassOutline.Proofs.Zinc.Notation

/-!
# Marks of whole programs

Every program that zinc can express has a plain writing, in which each item says its visibility
itself and an array of a body has one element. The conditions under which there is such a writing
are those of the relation, as a test.

## Key results

- `writes_programMarks`: a program that can be written is written by its marks
-/

namespace JassOutline.Zinc

/-! ### What can be written -/

/-- Whether an item in a section of the first visibility can have the second one. -/
def isShown (outer visibility : Visibility) : Bool :=
  visibility != .unmarked || outer == .unmarked

/-- Whether the global variable can be written in a section of the visibility. -/
def isWritableGlobal (outer : Visibility) (v : GlobalVariable) : Bool :=
  isShown outer v.visibility && v.shape.isWritable isFree

/-- Whether the locals of a routine can be written. It has no global variables. -/
def isWritableBody (locals : List LocalVariable) (globals : List GlobalVariable) : Bool :=
  globals.isEmpty && locals.all fun v => v.shape.isWritable isFree

/-- Whether the function can be written in a section of the visibility. -/
def isWritableFunction (outer : Visibility) (function : Function) : Bool :=
  isShown outer function.visibility && function.signature.isWritable isFree &&
    !function.isConstant && isWritableBody function.locals function.globals

/-- Whether the member can be written. -/
def isWritableMember (v : Member) : Bool :=
  v.shape.isWritable isFree && !v.isReadonly

/-- Whether the method can be written. The name of an operator may not be a parenthesis. -/
def isWritableMethod (method : Method) : Bool :=
  method.signature.isWritable isFree && method.name.all (· != "(") &&
    isWritableBody method.locals method.globals

/-- Whether the struct can be written in a section of the visibility. -/
def isWritableStruct (outer : Visibility) (struct : Struct) : Bool :=
  isShown outer struct.visibility && struct.name.any isFree && struct.parents.all isFree &&
    struct.members.all isWritableMember && struct.methods.all isWritableMethod

/-- Whether the library can be written. -/
def isWritableLibrary (library : Library) : Bool :=
  library.name.any isFree && library.requirements.all isFree &&
    library.setUp == setUpOf library.functions &&
    library.globals.all (isWritableGlobal .hidden) &&
    library.functions.all (isWritableFunction .hidden) &&
    library.structs.all (isWritableStruct .hidden)

/-- Whether zinc can express the program. -/
def isWritable (program : Program) : Bool :=
  program.natives.isEmpty && program.types.isEmpty &&
    program.globals.all (isWritableGlobal .unmarked) &&
    program.functions.all (isWritableFunction .unmarked) &&
    program.structs.all (isWritableStruct .unmarked) && program.libraries.all isWritableLibrary

/-! ### Marks -/

/-- A block below its comments. -/
def blockMarks (comments : List CommentLine) (labels : List Label) (inner : List Mark) :
    List Mark :=
  Mark.below comments labels ++ inner ++ [closing]

/-- The marks of a local variable. -/
def localMarks (v : LocalVariable) : List Mark :=
  Mark.below v.comments (localLabels v [⟨.number, "1"⟩])

/-- The marks of a global variable. -/
def globalMarks (v : GlobalVariable) : List Mark :=
  Mark.below v.comments (v.visibility.words.map .word ++ variableLabels v.isConstant v.shape)

/-- The marks of a function. -/
def functionMarks (function : Function) : List Mark :=
  blockMarks function.comments
    (function.visibility.words.map .word ++
      routineLabels "function" [nameLabel function.name] function.signature)
    (function.locals.flatMap localMarks)

/-- The marks of a member. -/
def memberMarks (v : Member) : List Mark :=
  Mark.below v.comments
    ((v.visibility.words ++ v.binding.words).map .word ++ variableLabels v.isConstant v.shape)

/-- The labels that name a method. What is no name is an operator. -/
def methodNameLabels (name : String) : List Label :=
  if isName name then [.word name] else [.word "operator", .sign name]

/-- The marks of a method. -/
def methodMarks (method : Method) : List Mark :=
  blockMarks method.comments
    ((method.visibility.words ++ method.binding.words).map .word ++
      routineLabels "method" (methodNameLabels (method.name.getD "")) method.signature)
    (method.locals.flatMap localMarks)

/-- The marks of a struct. -/
def structMarks (struct : Struct) : List Mark :=
  blockMarks struct.comments (struct.visibility.words.map .word ++ structLabels struct)
    (struct.members.flatMap memberMarks ++ struct.methods.flatMap methodMarks)

/-- The marks of a library. -/
def libraryMarks (library : Library) : List Mark :=
  blockMarks library.comments (libraryLabels library)
    (library.globals.flatMap globalMarks ++ library.functions.flatMap functionMarks ++
      library.structs.flatMap structMarks)

/-- The marks of a program. -/
def programMarks (program : Program) : List Mark :=
  program.globals.flatMap globalMarks ++ program.functions.flatMap functionMarks ++
    program.structs.flatMap structMarks ++ program.libraries.flatMap libraryMarks

/-! ### The marks write the program -/

theorem shows_words {outer visibility : Visibility} (h : isShown outer visibility = true) :
    Shows outer visibility visibility.words := by
  cases visibility with
  | unmarked =>
    obtain rfl : outer = .unmarked := by simpa [isShown] using h
    exact .inherited
  | hidden => exact .own rfl
  | exported => exact .own rfl

namespace ItemsWrite

variable {item : Visibility → List Mark → Declarations → Prop} {outer : Visibility}

theorem single {marks : List Mark} {declared : Declarations} (h : item outer marks declared) :
    ItemsWrite item outer marks declared := by
  have hrow : ItemsWrite item outer (marks ++ []) (declared ++ .none) := .item h .nil
  simpa using hrow

theorem append {marks rest : List Mark} {declared more : Declarations}
    (h : ItemsWrite item outer marks declared) (hrest : ItemsWrite item outer rest more) :
    ItemsWrite item outer (marks ++ rest) (declared ++ more) := by
  induction h with
  | nil => simpa using hrest
  | item hitem _ ih =>
    rw [List.append_assoc, Declarations.append_assoc]
    exact .item hitem (ih hrest)
  | group hword hinside _ _ ih =>
    have hgroup := ItemsWrite.group hword hinside (ih hrest)
    simpa [Declarations.append_assoc] using hgroup

/-- What each item of a list writes, the list writes together. -/
theorem flatMap {α : Type} {items : List α} {marks : α → List Mark}
    (declare : List α → Declarations) (hnil : declare [] = .none)
    (hcons : ∀ item items, declare (item :: items) = declare [item] ++ declare items)
    (h : ∀ i ∈ items, item outer (marks i) (declare [i])) :
    ItemsWrite item outer (items.flatMap marks) (declare items) :=
  Declarations.related_flatMap .nil .append declare hnil hcons fun i hi => .single (h i hi)

end ItemsWrite

/-- The variables of a body write it together. -/
theorem bodyWrites_flatMap {locals : List LocalVariable}
    (h : ∀ v ∈ locals, v.shape.isWritable isFree = true) :
    BodyWrites (locals.flatMap localMarks) locals := by
  induction locals with
  | nil => exact .nil
  | cons v locals ih =>
    rw [List.flatMap_cons]
    exact .cons (h v List.mem_cons_self) (by simp [IsSize, Label.sign])
      (ih fun v hv => h v (List.mem_cons_of_mem _ hv))

theorem bodyWrites_of_isWritable {locals : List LocalVariable} {globals : List GlobalVariable}
    (h : isWritableBody locals globals = true) :
    globals = [] ∧ BodyWrites (locals.flatMap localMarks) locals := by
  obtain ⟨hglobals, hlocals⟩ := Bool.and_eq_true_iff.1 h
  exact ⟨List.isEmpty_iff.1 hglobals, bodyWrites_flatMap (List.all_eq_true.1 hlocals)⟩

section

variable {outer : Visibility}

theorem writes_globalMarks {v : GlobalVariable} (h : isWritableGlobal outer v = true) :
    PlainItemWrites outer (globalMarks v) { Declarations.none with globals := [v] } := by
  obtain ⟨hshown, hshape⟩ := Bool.and_eq_true_iff.1 h
  exact .globalVariable (shows_words hshown) hshape

theorem writes_functionMarks {function : Function}
    (h : isWritableFunction outer function = true) :
    PlainItemWrites outer (functionMarks function)
      { Declarations.none with functions := [function] } := by
  simp only [isWritableFunction, Bool.and_eq_true, Bool.not_eq_true'] at h
  obtain ⟨⟨⟨hshown, hsignature⟩, hconstant⟩, hbody⟩ := h
  obtain ⟨hglobals, hlocals⟩ := bodyWrites_of_isWritable hbody
  exact .function (shows_words hshown) hsignature hconstant hglobals hlocals

theorem writes_memberMarks {v : Member} (h : isWritableMember v = true) :
    StructItemWrites .unmarked (memberMarks v) { Declarations.none with members := [v] } := by
  simp only [isWritableMember, Bool.and_eq_true, Bool.not_eq_true'] at h
  exact .member (shows_words (by simp [isShown])) h.1 h.2

theorem isMethodName_methodNameLabels {name : String} (h : name ≠ "(") :
    IsMethodName name (methodNameLabels name) := by
  unfold methodNameLabels
  split
  · exact .word
  · have hoperator : IsMethodName (String.join ([Label.sign name].map Label.text))
        (.word "operator" :: [Label.sign name]) := .operator (by simp [h, Label.sign])
    have hname : String.join ([Label.sign name].map Label.text) = name := by
      simp [Label.sign]
    rwa [hname] at hoperator

theorem writes_methodMarks {method : Method} (h : isWritableMethod method = true) :
    StructItemWrites .unmarked (methodMarks method)
      { Declarations.none with methods := [method] } := by
  simp only [isWritableMethod, Bool.and_eq_true] at h
  obtain ⟨⟨hsignature, hname⟩, hbody⟩ := h
  obtain ⟨hglobals, hlocals⟩ := bodyWrites_of_isWritable hbody
  obtain ⟨⟨text, htext, -⟩, -, -⟩ := Signature.isWritable_iff.1 hsignature
  have hmethod : method.name = some text := htext
  have hparen : text ≠ "(" := by simpa [hmethod] using hname
  have hlabels : IsMethodName text (methodNameLabels (method.name.getD "")) := by
    rw [hmethod]
    exact isMethodName_methodNameLabels hparen
  exact .method (shows_words (by simp [isShown])) hsignature hmethod hlabels hglobals hlocals

/-- The items of a struct are written by its members and methods. -/
theorem itemsWrite_structMarks {struct : Struct}
    (hmembers : struct.members.all isWritableMember = true)
    (hmethods : struct.methods.all isWritableMethod = true) :
    ItemsWrite StructItemWrites .unmarked
      (struct.members.flatMap memberMarks ++ struct.methods.flatMap methodMarks)
      { Declarations.none with members := struct.members, methods := struct.methods } := by
  have hfirst : ItemsWrite StructItemWrites .unmarked (struct.members.flatMap memberMarks)
      { Declarations.none with members := struct.members } :=
    .flatMap (fun members => { Declarations.none with members }) rfl (fun _ _ => rfl)
      fun v hv => writes_memberMarks (List.all_eq_true.1 hmembers v hv)
  have hsecond : ItemsWrite StructItemWrites .unmarked (struct.methods.flatMap methodMarks)
      { Declarations.none with methods := struct.methods } :=
    .flatMap (fun methods => { Declarations.none with methods }) rfl (fun _ _ => rfl)
      fun m hm => writes_methodMarks (List.all_eq_true.1 hmethods m hm)
  simpa [Declarations.append_eq, Declarations.none] using hfirst.append hsecond

theorem writes_structMarks {struct : Struct} (h : isWritableStruct outer struct = true) :
    PlainItemWrites outer (structMarks struct)
      { Declarations.none with structs := [struct] } := by
  simp only [isWritableStruct, Bool.and_eq_true] at h
  obtain ⟨⟨⟨⟨hshown, hname⟩, hparents⟩, hmembers⟩, hmethods⟩ := h
  exact .struct (shows_words hshown) hname hparents (itemsWrite_structMarks hmembers hmethods)

/-- Variables, functions and structs write a row together, in a section or in a program. -/
theorem related_units {R : List Mark → Declarations → Prop} (hnone : R [] .none)
    (happend : ∀ {marks rest declared more}, R marks declared → R rest more →
      R (marks ++ rest) (declared ++ more))
    (hitem : ∀ {marks declared}, PlainItemWrites outer marks declared → R marks declared)
    {globals : List GlobalVariable} {functions : List Function} {structs : List Struct}
    (hglobals : globals.all (isWritableGlobal outer) = true)
    (hfunctions : functions.all (isWritableFunction outer) = true)
    (hstructs : structs.all (isWritableStruct outer) = true) :
    R (globals.flatMap globalMarks ++ functions.flatMap functionMarks ++
        structs.flatMap structMarks)
      { Declarations.none with globals, functions, structs } := by
  have hfirst : R (globals.flatMap globalMarks) { Declarations.none with globals } :=
    Declarations.related_flatMap hnone happend
      (fun globals => { Declarations.none with globals }) rfl (fun _ _ => rfl)
      fun v hv => hitem (writes_globalMarks (List.all_eq_true.1 hglobals v hv))
  have hsecond : R (functions.flatMap functionMarks) { Declarations.none with functions } :=
    Declarations.related_flatMap hnone happend
      (fun functions => { Declarations.none with functions }) rfl (fun _ _ => rfl)
      fun f hf => hitem (writes_functionMarks (List.all_eq_true.1 hfunctions f hf))
  have hthird : R (structs.flatMap structMarks) { Declarations.none with structs } :=
    Declarations.related_flatMap hnone happend
      (fun structs => { Declarations.none with structs }) rfl (fun _ _ => rfl)
      fun s hs => hitem (writes_structMarks (List.all_eq_true.1 hstructs s hs))
  simpa [Declarations.append_eq, Declarations.none] using
    happend (happend hfirst hsecond) hthird

end

namespace Writes

theorem single {marks : List Mark} {declared : Declarations}
    (h : PlainItemWrites .unmarked marks declared) : Writes marks declared := by
  have hrow : Writes (marks ++ []) (declared ++ .none) := .item h .nil
  simpa using hrow

theorem append {marks rest : List Mark} {declared more : Declarations} (h : Writes marks declared)
    (hrest : Writes rest more) : Writes (marks ++ rest) (declared ++ more) := by
  induction h with
  | nil => simpa using hrest
  | item hitem _ ih =>
    rw [List.append_assoc, Declarations.append_assoc]
    exact .item hitem ih
  | library hname hrequirements hsetUp hitems _ ih =>
    have hlibrary := Writes.library hname hrequirements hsetUp hitems ih
    simpa [Declarations.append_assoc] using hlibrary

end Writes

theorem writes_libraryMarks {library : Library} (h : isWritableLibrary library = true) :
    Writes (libraryMarks library) { Declarations.none with libraries := [library] } := by
  simp only [isWritableLibrary, Bool.and_eq_true, beq_iff_eq] at h
  obtain ⟨⟨⟨⟨⟨hname, hrequirements⟩, hsetUp⟩, hglobals⟩, hfunctions⟩, hstructs⟩ := h
  have hitems := related_units (R := ItemsWrite PlainItemWrites .hidden) .nil .append .single
    hglobals hfunctions hstructs
  have hlibrary := Writes.library hname hrequirements hsetUp hitems .nil
  rwa [Declarations.append_none] at hlibrary

/-- A program that can be written is written by its marks. -/
theorem writes_programMarks {program : Program} (h : isWritable program = true) :
    Writes (programMarks program) program.declarations := by
  simp only [isWritable, Bool.and_eq_true] at h
  obtain ⟨⟨⟨⟨⟨hnatives, htypes⟩, hglobals⟩, hfunctions⟩, hstructs⟩, hlibraries⟩ := h
  -- A whole program has no section around its items, so that they stand in an unmarked one
  have hunits := related_units .nil .append Writes.single hglobals hfunctions hstructs
  have hlast : Writes (program.libraries.flatMap libraryMarks)
      { Declarations.none with libraries := program.libraries } :=
    Declarations.related_flatMap .nil .append
      (fun libraries => { Declarations.none with libraries }) rfl (fun _ _ => rfl)
      fun l hl => writes_libraryMarks (List.all_eq_true.1 hlibraries l hl)
  have hnoNatives : program.natives = [] := List.isEmpty_iff.1 hnatives
  have hnoTypes : program.types = [] := List.isEmpty_iff.1 htypes
  simpa [Declarations.append_eq, Declarations.none, Program.declarations, programMarks, hnoNatives,
    hnoTypes] using hunits.append hlast

end JassOutline.Zinc
