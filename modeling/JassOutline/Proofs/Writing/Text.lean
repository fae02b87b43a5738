import JassOutline.Program.Assembly
import JassOutline.Proofs.Writing.Bare
import JassOutline.Proofs.Writing.Notation

/-!
# Texts that write declarations

`Writes` relates the lines of a text to the declarations that they write, one construct a line, in
any order in which each kind of declaration keeps its own order, and with any indentation.
`Program.lines` is one such text.

## Key results

- `writes_lines`: a program that can be written is written by its lines
-/

namespace JassOutline

/-! ### The relation -/

/-- A line that declares something by itself in a scope: the comments above it, its labels and what
it declares. -/
inductive LineWrites : Scope → List CommentLine → List Label → Declarations → Prop where
  | native {native : Native} : native.signature.isWritable isFree = true →
    LineWrites .program native.comments (native.signature.labels "native")
      { Declarations.none with natives := [native] }
  | typeDeclaration {type : TypeDeclaration} :
    type.name.any isFree = true → type.parent.all isFree = true →
    LineWrites .program type.comments type.labels { Declarations.none with types := [type] }
  | globalVariable {v : GlobalVariable} : v.shape.isWritable isFree = true →
    LineWrites .globals v.comments (v.words.map .word) { Declarations.none with globals := [v] }
  | localVariable {v : LocalVariable} : v.shape.isWritable isFree = true →
    LineWrites .body v.comments (v.words.map .word) { Declarations.none with locals := [v] }
  | member {v : Member} : v.shape.isWritable isFree = true →
    LineWrites .struct v.comments (v.words.map .word) { Declarations.none with members := [v] }

/-- A line that opens a block of a kind: the comments above it, its labels, what the block has
inside and what it declares. A block of variables declares what it has inside. -/
inductive HeaderWrites :
    BlockKind → List CommentLine → List Label → Declarations → Declarations → Prop where
  | globals {globals : List GlobalVariable} :
    HeaderWrites .globals [] [.word "globals"] { Declarations.none with globals }
      { Declarations.none with globals }
  | function {function : Function} : function.signature.isWritable isFree = true →
    HeaderWrites .function function.comments (function.signature.labels "function")
      { Declarations.none with locals := function.locals, globals := function.globals }
      { Declarations.none with functions := [function] }
  | method {method : Method} : method.signature.isWritable isFree = true →
    HeaderWrites .method method.comments (method.signature.labels "method")
      { Declarations.none with locals := method.locals, globals := method.globals }
      { Declarations.none with methods := [method] }
  | struct {struct : Struct} : struct.name.any isFree = true → struct.parents.all isFree = true →
    HeaderWrites .struct struct.comments struct.labels
      { Declarations.none with members := struct.members, methods := struct.methods }
      { Declarations.none with structs := [struct] }
  | library {library : Library} : library.name.any isFree = true →
    library.setUp.all isFree = true → library.requirements.all isFree = true →
    HeaderWrites .library library.comments library.labels
      { Declarations.none with
        globals := library.globals, functions := library.functions, structs := library.structs }
      { Declarations.none with libraries := [library] }

/-- In a scope, the lines below the given comments write the declarations. -/
inductive Writes : Scope → List CommentLine → List (List Char) → Declarations → Prop where
  | nil {scope : Scope} : Writes scope [] [] .none
  | comment {scope : Scope} {comments : List CommentLine} {comment : CommentLine}
      {text : List Char} {rest : List (List Char)} {declared : Declarations} :
    isPlainComment comment.text = true → Spells [.comment comment.text] text →
    Writes scope (comments ++ [comment]) rest declared →
    Writes scope comments (text :: rest) declared
  | line {scope : Scope} {comments : List CommentLine} {labels : List Label} {text : List Char}
      {rest : List (List Char)} {declared more : Declarations} :
    LineWrites scope comments labels declared → Spells labels text →
    Writes scope [] rest more → Writes scope comments (text :: rest) (declared ++ more)
  | block {scope : Scope} {kind : BlockKind} {comments : List CommentLine} {labels : List Label}
      {opener closer : List Char} {body rest : List (List Char)}
      {inside declared more : Declarations} :
    scope.admits kind = true → HeaderWrites kind comments labels inside declared →
    Spells labels opener → Spells [.word kind.closer] closer →
    Writes (.inside kind) [] body inside → Writes scope [] rest more →
    Writes scope comments (opener :: body ++ closer :: rest) (declared ++ more)

/-- The lines as one text. -/
def unlines (lines : List (List Char)) : List Char :=
  lines.flatMap (· ++ ['\n'])

theorem Writes.append {scope : Scope} {comments : List CommentLine} {lines rest : List (List Char)}
    {declared more : Declarations} (h : Writes scope comments lines declared)
    (hrest : Writes scope [] rest more) :
    Writes scope comments (lines ++ rest) (declared ++ more) := by
  induction h with
  | nil => exact hrest
  | comment hplain hspells _ ih => exact .comment hplain hspells (ih hrest)
  | line hline hspells _ ih =>
    rw [Declarations.append_assoc]
    exact .line hline hspells (ih hrest)
  | block hadmits hheader hopener hcloser hbody _ _ ih =>
    rw [List.append_assoc, List.cons_append, Declarations.append_assoc]
    exact .block hadmits hheader hopener hcloser hbody (ih hrest)

/-! ### One text for every program -/

/-- The lines, indented by four spaces. -/
def indented (lines : List (List Char)) : List (List Char) :=
  lines.map ([' ', ' ', ' ', ' '] ++ ·)

theorem Spells.indented {labels : List Label} {text : List Char} (h : Spells labels text) :
    Spells labels ([' ', ' ', ' ', ' '] ++ text) := by
  obtain ⟨indent, hindent, rfl⟩ := h
  refine ⟨[' ', ' ', ' ', ' '] ++ indent, fun c hc => ?_, by simp⟩
  rcases List.mem_append.1 hc with hc | hc
  · exact .inl (by simpa using hc)
  · exact hindent c hc

theorem Writes.indented {scope : Scope} {comments : List CommentLine} {lines : List (List Char)}
    {declared : Declarations} (h : Writes scope comments lines declared) :
    Writes scope comments (indented lines) declared := by
  induction h with
  | nil => exact .nil
  | comment hplain hspells _ ih => exact .comment hplain hspells.indented ih
  | line hline hspells _ ih => exact .line hline hspells.indented ih
  | block hadmits hheader hopener hcloser _ _ ihBody ihRest =>
    rw [JassOutline.indented, List.map_append, List.map_cons, List.map_cons]
    exact .block hadmits hheader hopener.indented hcloser.indented ihBody ihRest

/-- The comments above a declaration. -/
def Heading.lines (heading : Heading) : List (List Char) :=
  heading.comments.map fun comment => Label.spell [.comment comment.text]

/-- A block of a kind below its comments. -/
def blockLines (kind : BlockKind) (heading : Heading) (labels : List Label)
    (body : List (List Char)) : List (List Char) :=
  heading.lines ++ Label.spell labels :: indented body ++ [Label.spell [.word kind.closer]]

/-- The lines of a native. -/
def Native.lines (native : Native) : List (List Char) :=
  native.toHeading.lines ++ [Label.spell (native.signature.labels "native")]

/-- The lines of a type. -/
def TypeDeclaration.lines (type : TypeDeclaration) : List (List Char) :=
  type.toHeading.lines ++ [Label.spell type.labels]

/-- The lines of a global variable. -/
def GlobalVariable.lines (v : GlobalVariable) : List (List Char) :=
  v.toHeading.lines ++ [Label.spell (v.words.map .word)]

/-- The lines of a local variable. -/
def LocalVariable.lines (v : LocalVariable) : List (List Char) :=
  v.toHeading.lines ++ [Label.spell (v.words.map .word)]

/-- The lines of a member. -/
def Member.lines (v : Member) : List (List Char) :=
  v.toHeading.lines ++ [Label.spell (v.words.map .word)]

/-- A block with global variables, if there are any. -/
def GlobalVariable.blockLines (globals : List GlobalVariable) : List (List Char) :=
  if globals.isEmpty then []
  else
    Label.spell [.word "globals"] :: indented (globals.flatMap lines) ++
      [Label.spell [.word "endglobals"]]

/-- The lines of a function. -/
def Function.lines (function : Function) : List (List Char) :=
  blockLines .function function.toHeading (function.signature.labels "function")
    (GlobalVariable.blockLines function.globals ++ function.locals.flatMap LocalVariable.lines)

/-- The lines of a method. -/
def Method.lines (method : Method) : List (List Char) :=
  blockLines .method method.toHeading (method.signature.labels "method")
    (GlobalVariable.blockLines method.globals ++ method.locals.flatMap LocalVariable.lines)

/-- The lines of a struct. -/
def Struct.lines (struct : Struct) : List (List Char) :=
  blockLines .struct struct.toHeading struct.labels
    (struct.members.flatMap Member.lines ++ struct.methods.flatMap Method.lines)

/-- The lines of a library. -/
def Library.lines (library : Library) : List (List Char) :=
  blockLines .library library.toHeading library.labels
    (GlobalVariable.blockLines library.globals ++
      (library.functions.flatMap Function.lines ++ library.structs.flatMap Struct.lines))

/-- The lines of a program. -/
def Program.lines (program : Program) : List (List Char) :=
  program.natives.flatMap Native.lines ++ program.types.flatMap TypeDeclaration.lines ++
    GlobalVariable.blockLines program.globals ++ program.functions.flatMap Function.lines ++
    program.structs.flatMap Struct.lines ++ program.libraries.flatMap Library.lines

/-! ### The text writes the program -/

namespace Writes

variable {scope : Scope} {heading : Heading} {labels : List Label} {declared inside : Declarations}

/-- Comments above a construct belong to it. -/
theorem comments {comments given : List CommentLine} {rest : List (List Char)}
    (hcomments : ∀ comment ∈ comments, isPlainComment comment.text = true)
    (h : Writes scope (given ++ comments) rest declared) :
    Writes scope given
      (comments.map (fun comment => Label.spell [.comment comment.text]) ++ rest) declared := by
  induction comments generalizing given with
  | nil => simpa using h
  | cons comment comments ih =>
    refine .comment (hcomments comment List.mem_cons_self) (spells_spell _) ?_
    apply ih (fun c hc => hcomments c (List.mem_cons_of_mem _ hc))
    rwa [List.append_assoc, List.singleton_append]

theorem comments_of_isWritable (h : heading.isWritable = true) :
    ∀ comment ∈ heading.comments, isPlainComment comment.text = true :=
  List.all_eq_true.1 (Bool.and_eq_true_iff.1 h).2

/-- A single line is written below its comments. -/
theorem single (hheading : heading.isWritable = true)
    (h : LineWrites scope heading.comments labels declared) :
    Writes scope [] (heading.lines ++ [Label.spell labels]) declared := by
  rw [← Declarations.append_none declared]
  exact .comments (comments_of_isWritable hheading) (.line h (spells_spell labels) .nil)

/-- A block is written below its comments around what it has inside. -/
theorem wrap {kind : BlockKind} {body : List (List Char)} (hadmits : scope.admits kind = true)
    (hheading : heading.isWritable = true)
    (h : HeaderWrites kind heading.comments labels inside declared)
    (hbody : Writes (.inside kind) [] body inside) :
    Writes scope [] (blockLines kind heading labels body) declared := by
  rw [← Declarations.append_none declared, blockLines, List.append_assoc, List.cons_append]
  refine .comments (comments_of_isWritable hheading) ?_
  exact .block hadmits h (spells_spell labels) (spells_spell _) hbody.indented .nil

/-- What each item of a list writes, the list writes together. -/
theorem flatMap {α : Type} {items : List α} {lines : α → List (List Char)}
    (declare : List α → Declarations) (hnil : declare [] = .none)
    (hcons : ∀ item items, declare (item :: items) = declare [item] ++ declare items)
    (h : ∀ item ∈ items, Writes scope [] (lines item) (declare [item])) :
    Writes scope [] (items.flatMap lines) (declare items) :=
  Declarations.related_flatMap .nil .append declare hnil hcons h

end Writes

theorem GlobalVariable.writes_blockLines (scope : Scope) {globals : List GlobalVariable}
    (hadmits : scope.admits .globals = true)
    (h : globals.all GlobalVariable.isWritable = true) :
    Writes scope [] (blockLines globals) { Declarations.none with globals } := by
  have hbody : Writes .globals [] (globals.flatMap lines) { Declarations.none with globals } :=
    .flatMap (fun globals => { Declarations.none with globals }) rfl (fun _ _ => rfl)
      fun v hv =>
        have hwritable := Bool.and_eq_true_iff.1 (List.all_eq_true.1 h v hv)
        .single hwritable.1 (.globalVariable hwritable.2)
  unfold blockLines
  split
  · next hempty =>
    obtain rfl := List.isEmpty_iff.1 hempty
    exact .nil
  · rw [← Declarations.append_none { Declarations.none with globals }]
    exact .block hadmits .globals (spells_spell _) (spells_spell _) hbody.indented .nil

theorem LocalVariable.writes_lines {v : LocalVariable} (h : v.isWritable = true) :
    Writes .body [] v.lines { Declarations.none with locals := [v] } :=
  have hwritable := Bool.and_eq_true_iff.1 h
  .single hwritable.1 (.localVariable hwritable.2)

theorem Member.writes_lines {v : Member} (h : v.isWritable = true) :
    Writes .struct [] v.lines { Declarations.none with members := [v] } :=
  have hwritable := Bool.and_eq_true_iff.1 h
  .single hwritable.1 (.member hwritable.2)

theorem Native.writes_lines {native : Native} (h : native.isWritable = true) :
    Writes .program [] native.lines { Declarations.none with natives := [native] } :=
  have hwritable := Bool.and_eq_true_iff.1 h
  .single hwritable.1 (.native hwritable.2)

theorem TypeDeclaration.writes_lines {type : TypeDeclaration} (h : type.isWritable = true) :
    Writes .program [] type.lines { Declarations.none with types := [type] } :=
  have hwritable := Bool.and_eq_true_iff.1 h
  .single hwritable.1 (.typeDeclaration (Bool.and_eq_true_iff.1 hwritable.1).1 hwritable.2)

/-- The body of a routine is written by its variables. -/
theorem writes_body {globals : List GlobalVariable} {locals : List LocalVariable}
    (hglobals : globals.all GlobalVariable.isWritable = true)
    (hlocals : locals.all LocalVariable.isWritable = true) :
    Writes .body [] (GlobalVariable.blockLines globals ++ locals.flatMap LocalVariable.lines)
      { Declarations.none with locals, globals } := by
  have hfirst := GlobalVariable.writes_blockLines .body rfl hglobals
  have hsecond : Writes .body [] (locals.flatMap LocalVariable.lines)
      { Declarations.none with locals } :=
    .flatMap (fun locals => { Declarations.none with locals }) rfl (fun _ _ => rfl)
      fun v hv => v.writes_lines (List.all_eq_true.1 hlocals v hv)
  simpa [Declarations.append_eq, Declarations.none] using hfirst.append hsecond

theorem Function.writes_lines {scope : Scope} {function : Function}
    (hadmits : scope.admits .function = true) (h : function.isWritable = true) :
    Writes scope [] function.lines { Declarations.none with functions := [function] } := by
  simp only [isWritable, Bool.and_eq_true] at h
  obtain ⟨⟨⟨hheading, hsignature⟩, hglobals⟩, hlocals⟩ := h
  exact .wrap hadmits hheading (.function hsignature) (writes_body hglobals hlocals)

theorem Method.writes_lines {method : Method} (h : method.isWritable = true) :
    Writes .struct [] method.lines { Declarations.none with methods := [method] } := by
  simp only [isWritable, Bool.and_eq_true] at h
  obtain ⟨⟨⟨hheading, hsignature⟩, hglobals⟩, hlocals⟩ := h
  exact .wrap rfl hheading (.method hsignature) (writes_body hglobals hlocals)

/-- Structs write their members and methods. -/
theorem Struct.writes_body {struct : Struct}
    (hmembers : struct.members.all Member.isWritable = true)
    (hmethods : struct.methods.all Method.isWritable = true) :
    Writes .struct [] (struct.members.flatMap Member.lines ++ struct.methods.flatMap Method.lines)
      { Declarations.none with members := struct.members, methods := struct.methods } := by
  have hfirst : Writes .struct [] (struct.members.flatMap Member.lines)
      { Declarations.none with members := struct.members } :=
    .flatMap (fun members => { Declarations.none with members }) rfl (fun _ _ => rfl)
      fun v hv => v.writes_lines (List.all_eq_true.1 hmembers v hv)
  have hsecond : Writes .struct [] (struct.methods.flatMap Method.lines)
      { Declarations.none with methods := struct.methods } :=
    .flatMap (fun methods => { Declarations.none with methods }) rfl (fun _ _ => rfl)
      fun m hm => m.writes_lines (List.all_eq_true.1 hmethods m hm)
  simpa [Declarations.append_eq, Declarations.none] using hfirst.append hsecond

theorem Struct.writes_lines {scope : Scope} {struct : Struct}
    (hadmits : scope.admits .struct = true) (h : struct.isWritable = true) :
    Writes scope [] struct.lines { Declarations.none with structs := [struct] } := by
  simp only [isWritable, Bool.and_eq_true] at h
  obtain ⟨⟨⟨hheading, hparents⟩, hmembers⟩, hmethods⟩ := h
  exact .wrap hadmits hheading (.struct (Bool.and_eq_true_iff.1 hheading).1 hparents)
    (writes_body hmembers hmethods)

/-- Where variables, functions and structs may stand, they write a scope together. -/
theorem writes_units (scope : Scope) {globals : List GlobalVariable} {functions : List Function}
    {structs : List Struct} (hadmits : scope.admits .globals = true)
    (hadmitsFunction : scope.admits .function = true)
    (hadmitsStruct : scope.admits .struct = true)
    (hglobals : globals.all GlobalVariable.isWritable = true)
    (hfunctions : functions.all Function.isWritable = true)
    (hstructs : structs.all Struct.isWritable = true) :
    Writes scope []
      (GlobalVariable.blockLines globals ++
        (functions.flatMap Function.lines ++ structs.flatMap Struct.lines))
      { Declarations.none with globals, functions, structs } := by
  have hfirst := GlobalVariable.writes_blockLines scope hadmits hglobals
  have hsecond : Writes scope [] (functions.flatMap Function.lines)
      { Declarations.none with functions } :=
    .flatMap (fun functions => { Declarations.none with functions }) rfl (fun _ _ => rfl)
      fun f hf => f.writes_lines hadmitsFunction (List.all_eq_true.1 hfunctions f hf)
  have hthird : Writes scope [] (structs.flatMap Struct.lines)
      { Declarations.none with structs } :=
    .flatMap (fun structs => { Declarations.none with structs }) rfl (fun _ _ => rfl)
      fun s hs => s.writes_lines hadmitsStruct (List.all_eq_true.1 hstructs s hs)
  simpa [Declarations.append_eq, Declarations.none] using hfirst.append (hsecond.append hthird)

theorem Library.writes_lines {library : Library} (h : library.isWritable = true) :
    Writes .program [] library.lines { Declarations.none with libraries := [library] } := by
  simp only [isWritable, Bool.and_eq_true] at h
  obtain ⟨⟨⟨⟨⟨hheading, hsetUp⟩, hrequirements⟩, hglobals⟩, hfunctions⟩, hstructs⟩ := h
  exact .wrap rfl hheading (.library (Bool.and_eq_true_iff.1 hheading).1 hsetUp hrequirements)
    (writes_units .library rfl rfl rfl hglobals hfunctions hstructs)

/-- A program that can be written is written by its lines. -/
theorem Program.writes_lines {program : Program} (h : program.isWritable = true) :
    Writes .program [] program.lines program.declarations := by
  simp only [isWritable, Bool.and_eq_true] at h
  obtain ⟨⟨⟨⟨⟨hnatives, htypes⟩, hglobals⟩, hfunctions⟩, hstructs⟩, hlibraries⟩ := h
  have hfirst : Writes .program [] (program.natives.flatMap Native.lines)
      { Declarations.none with natives := program.natives } :=
    .flatMap (fun natives => { Declarations.none with natives }) rfl (fun _ _ => rfl)
      fun n hn => n.writes_lines (List.all_eq_true.1 hnatives n hn)
  have hsecond : Writes .program [] (program.types.flatMap TypeDeclaration.lines)
      { Declarations.none with types := program.types } :=
    .flatMap (fun types => { Declarations.none with types }) rfl (fun _ _ => rfl)
      fun t ht => t.writes_lines (List.all_eq_true.1 htypes t ht)
  have hthird := writes_units .program rfl rfl rfl hglobals hfunctions hstructs
  have hfourth : Writes .program [] (program.libraries.flatMap Library.lines)
      { Declarations.none with libraries := program.libraries } :=
    .flatMap (fun libraries => { Declarations.none with libraries }) rfl
      (fun _ _ => rfl) fun l hl => l.writes_lines (List.all_eq_true.1 hlibraries l hl)
  have hall := hfirst.append (hsecond.append (hthird.append hfourth))
  simpa [Declarations.append_eq, Declarations.none, lines, declarations] using hall

end JassOutline
