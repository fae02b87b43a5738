import JassOutline.Proofs.BodyEdit.Outline
import JassOutline.Proofs.Declaration.Sites
import JassOutline.Proofs.Outline.Uncommented
import JassOutline.Proofs.Pairing.Declaration

/-!
# Programs that differ inside of one routine

The body of a function or method declares local variables line by line, and global variables in
blocks. Two texts that differ in inert lines of one body have programs that differ in the local
variables of one routine, and in places. A `RoutinePath` tells which routine that is: it follows the
blocks that are open in front of the lines that differ, and so it does not depend on these lines or
on what stands behind them.

## Key results

- `Declarations.clearLocals_around`, `Declarations.clearLocals_ofBlock`: the routine at a path
- `exists_leads`: what nodes declare that differ inside of a routine
- `Outline.build_bodyEdit`: the programs of two texts that differ in the body of a routine
-/

namespace JassOutline

open Outline

/-! ### Paths to routines -/

/-- Where a function or method stands among declarations. -/
inductive RoutinePath where
  | function (index : Nat)
  | method (index : Nat)
  | inStruct (index : Nat) (path : RoutinePath)
  | inLibrary (index : Nat) (path : RoutinePath)
  deriving DecidableEq, Repr

namespace Declarations

/-- The routine at the path, as a collection of its own. -/
def pick : RoutinePath → Declarations → Declarations
  | .function index, declared => { none with functions := declared.functions[index]?.toList }
  | .method index, declared => { none with methods := declared.methods[index]?.toList }
  | .inStruct index path, declared =>
    declared.structs[index]?.elim none fun struct =>
      pick path (Declaration.struct struct).inner
  | .inLibrary index path, declared =>
    declared.libraries[index]?.elim none fun library =>
      pick path (Declaration.library library).inner

/-- The declarations without the local variables of the routine at the path. -/
def clearLocalsAt : RoutinePath → Declarations → Declarations
  | .function index, declared =>
    { declared with
      functions := declared.functions.modify index fun function => { function with locals := [] } }
  | .method index, declared =>
    { declared with
      methods := declared.methods.modify index fun method => { method with locals := [] } }
  | .inStruct index path, declared =>
    { declared with
      structs := declared.structs.modify index fun struct =>
        -- The members of a struct hold no routine
        { struct with methods := (clearLocalsAt path (Declaration.struct struct).inner).methods } }
  | .inLibrary index path, declared =>
    { declared with
      libraries := declared.libraries.modify index fun library =>
        let inner := clearLocalsAt path (Declaration.library library).inner
        { library with functions := inner.functions, structs := inner.structs } }

/-- The declarations without the local variables of the routine, if there is a path to it. -/
def clearLocals (path? : Option RoutinePath) (declared : Declarations) : Declarations :=
  path?.elim declared fun path => declared.clearLocalsAt path

end Declarations

namespace RoutinePath

/-- The path to a routine inside of a block of the kind, given the path in the block and what is
declared in front of the block. Only structs and libraries keep the routines that they hold. -/
def around? (path : RoutinePath) (kind : BlockKind) (before : Declarations) : Option RoutinePath :=
  match kind with
  | .struct => some (.inStruct before.structs.length path)
  | .library => some (.inLibrary before.libraries.length path)
  | .globals | .function | .method => none

/-- The path to the routine that a block is, given what is declared in front of the block. -/
def ofBlock? (kind : BlockKind) (before : Declarations) : Option RoutinePath :=
  match kind with
  | .function => some (.function before.functions.length)
  | .method => some (.method before.methods.length)
  | .globals | .struct | .library => none

end RoutinePath

namespace Declarations

variable {path? : Option RoutinePath} {kind : BlockKind} {before inner behind : Declarations}
  {header? : Option SourceLine} {comments : List CommentLine}

/-- A struct holds what its scope collects. -/
theorem inner_struct {struct : Struct} (hinner : inner.restrict .struct = inner)
    (hmembers : struct.members = inner.members) (hmethods : struct.methods = inner.methods) :
    (Declaration.struct struct).inner = inner := by
  rw [Declaration.inner, hmembers, hmethods]
  exact hinner

/-- A library holds what its scope collects. -/
theorem inner_library {library : Library} (hinner : inner.restrict .library = inner)
    (hglobals : library.globals = inner.globals) (hfunctions : library.functions = inner.functions)
    (hstructs : library.structs = inner.structs) :
    (Declaration.library library).inner = inner := by
  rw [Declaration.inner, hglobals, hfunctions, hstructs]
  exact hinner

/-- Clearing a routine around a block clears it in the block. -/
theorem clearLocals_around (region : Region) (hinner : inner.restrict (.inside kind) = inner) :
    (before ++ (ofBlock kind region header? comments inner ++ behind)).clearLocals
        (path?.bind (·.around? kind before)) =
      before ++ (ofBlock kind region header? comments (inner.clearLocals path?) ++ behind) := by
  cases path? with
  | none => rfl
  | some path =>
    cases kind with
    -- These blocks keep variables only, and no path changes those
    | globals | function | method => cases path <;> rfl
    | struct =>
      have hmembers : (inner.clearLocalsAt path).members = inner.members := by cases path <;> rfl
      simp only [Option.bind_some, RoutinePath.around?, clearLocals, Option.elim_some,
        clearLocalsAt, append_eq, ofBlock, none, List.nil_append, List.cons_append,
        modify_length_append, hmembers]
      rw [inner_struct hinner rfl rfl]
    | library =>
      have hglobals : (inner.clearLocalsAt path).globals = inner.globals := by cases path <;> rfl
      simp only [Option.bind_some, RoutinePath.around?, clearLocals, Option.elim_some,
        clearLocalsAt, append_eq, ofBlock, none, List.nil_append, List.cons_append,
        modify_length_append, hglobals]
      rw [inner_library hinner rfl rfl rfl]

/-- The path around a block leads where the path in the block leads. -/
theorem pick_around {path outerPath : RoutinePath} (region : Region)
    (hinner : inner.restrict (.inside kind) = inner)
    (hpath : path.around? kind before = some outerPath) :
    (before ++ (ofBlock kind region header? comments inner ++ behind)).pick outerPath =
      inner.pick path := by
  cases kind with
  | globals | function | method => cases hpath
  | struct =>
    obtain rfl := Option.some.inj hpath
    simp only [pick, append_eq, ofBlock, none, List.nil_append, List.cons_append,
      List.getElem?_append_right, le_refl, Nat.sub_self, List.getElem?_cons_zero, Option.elim_some]
    rw [inner_struct hinner rfl rfl]
  | library =>
    obtain rfl := Option.some.inj hpath
    simp only [pick, append_eq, ofBlock, none, List.nil_append, List.cons_append,
      List.getElem?_append_right, le_refl, Nat.sub_self, List.getElem?_cons_zero, Option.elim_some]
    rw [inner_library hinner rfl rfl rfl]

/-- Clearing the routine of a block, the block declares what it does without local variables. -/
theorem clearLocals_ofBlock (region : Region) (hkind : kind = .function ∨ kind = .method) :
    (before ++ (ofBlock kind region header? comments inner ++ behind)).clearLocals
        (RoutinePath.ofBlock? kind before) =
      before ++ (ofBlock kind region header? comments { inner with locals := [] } ++ behind) := by
  obtain rfl | rfl := hkind <;>
    simp only [RoutinePath.ofBlock?, clearLocals, Option.elim_some, clearLocalsAt, append_eq,
      ofBlock, none, List.nil_append, List.cons_append, modify_length_append]

theorem pick_ofBlock {path : RoutinePath} (region : Region)
    (hpath : RoutinePath.ofBlock? kind before = some path) :
    (before ++ (ofBlock kind region header? comments inner ++ behind)).pick path =
      ofBlock kind region header? comments inner := by
  cases kind with
  | globals | struct | library => cases hpath
  | function | method =>
    obtain rfl := Option.some.inj hpath
    simp [pick, append_eq, ofBlock, none]

end Declarations

/-! ### Bodies -/

/-- The global variables that a node of a body declares. -/
def Node.bodyGlobals : Node → List GlobalVariable
  | .block .globals _ _ children => (Declarations.ofNodes .globals false [] children).globals
  | _ => []

open Declarations

/-- The global variables of a body are those of its blocks, whatever its lines say. -/
theorem Declarations.globals_ofNodes_body (comments : List CommentLine) (nodes : List Node) :
    (ofNodes .body false comments nodes).globals = nodes.flatMap Node.bodyGlobals := by
  -- The comments vary, but a globals block in a body does not take them
  induction nodes generalizing comments with
  | nil => rw [ofNodes]; rfl
  | cons node nodes ih =>
    cases node with
    | line record =>
      by_cases hrole : LineRole.ofLine record = .comment
      · rw [ofNodes_comment hrole, ih]
        rfl
      · -- Whatever the line is, it declares local variables at most
        have hline : (ofLine .body (LineRole.ofLine record) comments record).globals = [] := by
          cases LineRole.ofLine record <;> rfl
        rw [ofNodes_line rfl hrole, append_eq, hline, ih]
        rfl
    | block kind region isClosed children =>
      rw [ofNodes]
      cases kind with
      | globals =>
        simp only [Scope.admits, append_eq, ih, Block.header?]
        rfl
      | function | method | struct | library => exact ih []

/-- What a body declares besides its local variables. -/
theorem Declarations.withoutLocals_body (nodes : List Node) :
    { ofNodes .body false [] nodes with locals := [] } =
      { Declarations.none with globals := nodes.flatMap Node.bodyGlobals } := by
  rw [← globals_ofNodes_body [] nodes, ← restrict_ofNodes]
  rfl

section

variable {pairing : Pairing} {f : List CommentLine → List CommentLine}

/-- Bodies that differ in inert lines differ in their local variables only. -/
theorem Outline.Edited.sameDeclarations_body (hkeeps : pairing.Keeps f f)
    {before nodes nodes' : List Node} (h : Edited pairing before [] nodes nodes') :
    SameDeclarations f f { ofNodes .body false [] nodes with locals := [] }
      { ofNodes .body false [] nodes' with locals := [] } := by
  have hlines : ∀ body : List SourceLine, (body.map Node.line).flatMap Node.bodyGlobals = [] :=
    fun body => by
      rw [List.flatMap_map]
      exact List.flatMap_eq_nil_iff.2 fun _ _ => rfl
  cases h with
  | @here _ behind behind' _ _ _ _ hbehind =>
    -- What stands behind the lines is paired, so that it declares the same global variables
    have hsame : SameDeclarations f f
        { Declarations.none with globals := behind.flatMap Node.bodyGlobals }
        { Declarations.none with globals := behind'.flatMap Node.bodyGlobals } := by
      rw [← globals_ofNodes_body [] behind, ← globals_ofNodes_body [] behind']
      exact congrArg (fun declared => { Declarations.none with globals := declared.globals })
        (hbehind.bare_ofNodes hkeeps .body hkeeps.nil)
    have hfront : SameDeclarations f f
        { Declarations.none with globals := before.flatMap Node.bodyGlobals } _ := rfl
    -- The lines themselves declare none
    simp only [withoutLocals_body, List.flatMap_append, hlines, List.nil_append]
    exact hfront.append hsame

/-! ### Nodes -/

/-- A line says the same as itself. -/
theorem SourceLine.SaysSame.refl (record : SourceLine) : record.SaysSame record :=
  ⟨record, Token.trimsTo_tokenizeFrom .., Token.trimsTo_tokenizeFrom ..⟩

/-- What a block declares among other nodes. -/
theorem Declarations.exists_ofNodes_block (scope : Scope) (before : List Node) :
    ∃ comments, ∀ kind region isClosed (opener : SourceLine) children behind,
      ofNodes scope false [] (before ++
        .block kind region isClosed (headerNodes kind opener ++ children) :: behind) =
      ofNodes scope false [] before ++
        ((if scope.admits kind then
          ofBlock kind region (if kind.hasHeader then some opener else Option.none) comments
            (ofNodes (.inside kind) false [] children)
        else none) ++ ofNodes scope false [] behind) := by
  obtain ⟨comments, h⟩ := exists_ofNodes_append scope [] before
  exact ⟨comments, fun kind region isClosed opener children behind => by rw [h, ofNodes_block]⟩

/-- The collection holds what a block with the opening declares. -/
def Outline.Opening.Declares (opening : Opening) (declared : Declarations) : Prop :=
  ∃ stop comments inner, declared =
    .ofBlock opening.kind ⟨opening.opener.region.start, stop⟩ (some opening.opener) comments inner

/-- Nodes that differ inside of the frames declare the same apart from places, once the local
variables of the routine at the path are cleared. The routine is declared by a block with the
opening. -/
structure Leads (pairing : Pairing) (f : List CommentLine → List CommentLine) (scope : Scope)
    (before : List Node) (frames : List OpenBlock) (opening : Opening)
    (path? : Option RoutinePath) : Prop where
  same : ∀ {nodes nodes'}, Edited pairing before frames nodes nodes' →
    SameDeclarations f f ((ofNodes scope false [] nodes).clearLocals path?)
      ((ofNodes scope false [] nodes').clearLocals path?)
  declares : ∀ {nodes nodes'}, Edited pairing before frames nodes nodes' →
    ∀ path ∈ path?, opening.Declares ((ofNodes scope false [] nodes).pick path)

variable (hkeeps : pairing.Keeps f f) {frame : OpenBlock} {frames : List OpenBlock} {scope : Scope}
  {before inside : List Node}
  (hinside : frame.children.toList = headerNodes frame.kind frame.opener ++ inside)

include hkeeps hinside

/-- A block that its scope does not admit declares nothing. -/
theorem Leads.of_not_admitted (opening : Opening) (hadmits : scope.admits frame.kind = false) :
    Leads pairing f scope before (frame :: frames) opening none where
  same {_ _} h := by
    obtain ⟨_, _, _, _, _, _, _, rfl, rfl, -, hbehind⟩ := h.exists_block hinside
    obtain ⟨comments, hblock⟩ := exists_ofNodes_block scope before
    rw [hblock, hblock, hadmits]
    exact .append rfl (.append rfl (hbehind.bare_ofNodes hkeeps scope hkeeps.nil))
  declares _ _ hpath := by cases hpath

/-- What differs inside of a block differs in what the block declares. -/
theorem Leads.around {opening : Opening} {path? : Option RoutinePath}
    (hadmits : scope.admits frame.kind = true)
    (h : Leads pairing f (.inside frame.kind) inside frames opening path?) :
    Leads pairing f scope before (frame :: frames) opening
      (path?.bind (·.around? frame.kind (ofNodes scope false [] before))) where
  same {_ _} hedited := by
    obtain ⟨_, _, _, _, _, _, _, rfl, rfl, hheld, hbehind⟩ := hedited.exists_block hinside
    obtain ⟨comments, hblock⟩ := exists_ofNodes_block scope before
    have hcomments : SameComments f f comments comments := rfl
    have hframe := (SourceLine.SaysSame.refl frame.opener).ofBlock hcomments (h.same hheld)
    rw [hblock, hblock, if_pos hadmits, if_pos hadmits,
      clearLocals_around _ (restrict_ofNodes ..), clearLocals_around _ (restrict_ofNodes ..)]
    exact .append rfl (.append (hframe _ _ _) (hbehind.bare_ofNodes hkeeps scope hkeeps.nil))
  declares {_ _} hedited outerPath houter := by
    obtain ⟨_, _, _, _, _, _, _, rfl, rfl, hheld, -⟩ := hedited.exists_block hinside
    obtain ⟨comments, hblock⟩ := exists_ofNodes_block scope before
    -- Only the path in the block can lead here
    obtain ⟨path, hpath, haround⟩ := Option.bind_eq_some_iff.1 houter
    rw [hblock, if_pos hadmits, pick_around _ (restrict_ofNodes ..) haround]
    exact h.declares hheld path hpath

/-- What differs in the body of a routine are its local variables. -/
theorem Leads.ofBlock (hadmits : scope.admits frame.kind = true)
    (hkind : frame.kind = .function ∨ frame.kind = .method) :
    Leads pairing f scope before [frame] frame.opening
      (RoutinePath.ofBlock? frame.kind (ofNodes scope false [] before)) where
  same {_ _} hedited := by
    obtain ⟨_, _, _, _, _, _, _, rfl, rfl, hheld, hbehind⟩ := hedited.exists_block hinside
    obtain ⟨comments, hblock⟩ := exists_ofNodes_block scope before
    have hbody : Scope.inside frame.kind = .body := by
      obtain h | h := hkind <;> rw [h] <;> rfl
    have hcomments : SameComments f f comments comments := rfl
    have hframe := (SourceLine.SaysSame.refl frame.opener).ofBlock hcomments
      (hheld.sameDeclarations_body hkeeps)
    rw [hblock, hblock, if_pos hadmits, if_pos hadmits, clearLocals_ofBlock _ hkind,
      clearLocals_ofBlock _ hkind, hbody]
    exact .append rfl (.append (hframe _ _ _) (hbehind.bare_ofNodes hkeeps scope hkeeps.nil))
  declares {_ _} hedited path hpath := by
    obtain ⟨_, _, _, _, _, _, _, rfl, rfl, -, -⟩ := hedited.exists_block hinside
    obtain ⟨comments, hblock⟩ := exists_ofNodes_block scope before
    have hheader : frame.kind.hasHeader = true := by
      obtain h | h := hkind <;> rw [h] <;> rfl
    rw [hblock, if_pos hadmits, pick_ofBlock _ hpath, if_pos hheader]
    exact ⟨_, _, _, rfl⟩

omit hinside

/-- Whatever blocks are open around a routine, one path leads to it. -/
theorem exists_leads (hkind : frame.kind = .function ∨ frame.kind = .method)
    {outer : List OpenBlock} (hheaded : ∀ next ∈ outer ++ [frame], next.Headed) (scope : Scope)
    (before : List Node) :
    ∃ path?, Leads pairing f scope before (outer ++ [frame]) frame.opening path? := by
  -- The scope varies, as it is that of the block around in each step
  induction outer generalizing scope before with
  | nil =>
    obtain ⟨inside, hinside⟩ := hheaded frame (by simp)
    cases hadmits : scope.admits frame.kind with
    | false => exact ⟨_, .of_not_admitted hkeeps hinside frame.opening hadmits⟩
    | true => exact ⟨_, .ofBlock hkeeps hinside hadmits hkind⟩
  | cons next outer ih =>
    obtain ⟨inside, hinside⟩ := hheaded next (by simp)
    cases hadmits : scope.admits next.kind with
    | false => exact ⟨_, .of_not_admitted hkeeps hinside frame.opening hadmits⟩
    | true =>
      -- The path inside of this block goes on around it
      obtain ⟨path?, hpath⟩ :=
        ih (fun other hother => hheaded other (by simp [hother])) (.inside next.kind) inside
      exact ⟨_, .around hkeeps hinside hadmits hpath⟩

end

/-! ### Texts -/

/-- Lines with the same text answer to each other. -/
def Pairing.sameText : Pairing where
  drops := Function.const _ False
  pairs record record' := record'.text = record.text
  role_of_drops h := False.elim h
  role_eq h := (SameLine.of_text_eq h).role

theorem Pairing.lines_sameText {lines lines' : List SourceLine}
    (h : lines'.map SourceLine.text = lines.map SourceLine.text) :
    sameText.Lines lines lines' := by
  induction lines generalizing lines' with
  | nil =>
    obtain rfl := List.map_eq_nil_iff.1 h
    exact .nil
  | cons record rest ih =>
    obtain ⟨record', rest', rfl, hrecord, hrest⟩ := List.map_eq_cons_iff.1 h
    exact .pair hrecord (ih hrest)

/-- Apart from its place, the comment of a comment line depends on the text of the line only. -/
theorem CommentLine.bare_ofLine {record record' : SourceLine} (h : record'.text = record.text)
    (hrole : LineRole.ofLine record = .comment) :
    (ofLine record').bare = (ofLine record).bare := by
  have hsame := SameLine.of_text_eq h
  obtain ⟨token, rest, htokens, htoken⟩ := SourceLine.exists_tokens_of_comment hrole
  obtain ⟨token', rest', htokens', htoken'⟩ :=
    SourceLine.exists_tokens_of_comment (hsame.role.trans hrole)
  have htrims := hsame.tokens
  rw [htokens, htokens'] at htrims
  -- Both lines start with the comment, and it has the same text in both
  cases htrims with
  | cons hlabel _ =>
    rw [ofLine, ofLine, htokens, htokens', List.find?_cons_of_pos htoken,
      List.find?_cons_of_pos htoken']
    simp only [bare, Token.text_of_label_eq hlabel]

theorem Pairing.keeps_sameText : sameText.Keeps id id where
  saysSame h := ⟨_, (SameLine.of_text_eq h).tokens, Token.trimsTo_tokenizeFrom ..⟩
  nil := rfl
  drop := False.elim
  comment {record record' comments comments'} h hrole hcomments := by
    have hcomment := CommentLine.bare_ofLine h hrole
    have hgiven : comments'.map CommentLine.bare = comments.map CommentLine.bare := hcomments
    simp [SameComments, hgiven, hcomment]

namespace Program

/-- The routine at the path, as a collection of its own. -/
def pick (path : RoutinePath) (program : Program) : Declarations :=
  program.declarations.pick path

/-- The program without the local variables of the routine, if there is a path to it. -/
def clearLocals (path? : Option RoutinePath) (program : Program) : Program :=
  .ofDeclarations program.source (program.declarations.clearLocals path?)

/-- The program of an outline holds all that its nodes declare. -/
theorem declarations_ofOutline (source : Nat) (outline : Outline) :
    (ofOutline source outline).declarations = .ofNodes .program false [] outline.nodes :=
  restrict_ofNodes .program outline.nodes

end Program

namespace Outline

/-- Edits of a body stay in the body. Take lines behind which a function or method is the innermost
open block. Whatever inert lines come next and whatever lines behind those, one routine of the
program, if the program has it at all, is the one that the block declares. Other inert lines change
the local variables of that routine, and nothing else apart from places. The texts of the warnings
stay the same. -/
theorem build_bodyEdit (source : Nat) {before : List SourceLine} {opening : Opening}
    {outer : List Opening}
    (hopen : (before.foldl (Builder.feed source) .start).openings = opening :: outer)
    (hkind : opening.kind = .function ∨ opening.kind = .method) :
    ∃ path? : Option RoutinePath, ∀ {body body' behind behind' : List SourceLine},
      (∀ record ∈ body, record.IsInert) → (∀ record ∈ body', record.IsInert) →
      behind'.map SourceLine.text = behind.map SourceLine.text →
      (∀ path ∈ path?, opening.Declares
        ((Program.ofOutline source (build source (before ++ body ++ behind)).1).pick path)) ∧
      ((Program.ofOutline source (build source (before ++ body' ++ behind')).1).clearLocals
          path?).bare =
        ((Program.ofOutline source (build source (before ++ body ++ behind)).1).clearLocals
          path?).bare ∧
      (build source (before ++ body' ++ behind')).2.map Warning.message =
        (build source (before ++ body ++ behind)).2.map Warning.message ∧
      (build source (before ++ body' ++ behind')).2.map Warning.notes =
        (build source (before ++ body ++ behind)).2.map Warning.notes := by
  obtain ⟨frame, frames, hstack, rfl, -⟩ := List.map_eq_cons_iff.1 hopen
  have hheaded := Builder.headed_foldl_feed source before
  -- The path follows the open blocks from the outermost to the one with the opening
  have hframes : (before.foldl (Builder.feed source) .start).stack.reverse =
      frames.reverse ++ [frame] := by rw [hstack, List.reverse_cons]
  obtain ⟨path?, hpath⟩ := exists_leads Pairing.keeps_sameText hkind
    (fun next hnext => hheaded next (by rwa [← List.mem_reverse, hframes])) .program
    (before.foldl (Builder.feed source) .start).top.toList
  refine ⟨path?, fun {body body' behind behind'} hbody hbody' hbehind => ?_⟩
  have hlines := Pairing.lines_sameText hbehind
  have hedited := edited_build source hstack hbody hbody' hlines
  rw [hframes] at hedited
  have htexts := Warning.texts_eq (problems_edited source hstack hbody hbody' hlines)
  have hsame := hpath.same hedited
  rw [SameDeclarations, Declarations.mapComments_id] at hsame
  refine ⟨fun path hmem => ?_, ?_, htexts⟩
  · rw [Program.pick, Program.declarations_ofOutline]
    exact hpath.declares hedited path hmem
  · rw [Program.clearLocals, Program.clearLocals, Program.declarations_ofOutline,
      Program.declarations_ofOutline]
    exact congrArg (Program.ofDeclarations source) hsame

/-- A method whose body is edited: a statement makes way for a local variable and a comment. Behind
it come a globals block, another local variable, the end of the method, and a closing line that
closes nothing. Nothing closes the struct. -/
theorem build_bodyEdit_method :
    let lines := fun line offset (text : String) =>
      SourceLine.numbered line offset (SourceLine.linesOf text.toList)
    let header := SourceLine.ofChars "method m takes real x returns real\n".toList 1 9
    let before := lines 0 0 "struct P\nmethod m takes real x returns real\n"
    let body := lines 2 44 "return x\n"
    let body' := lines 2 44 "local real a // twice\n// Counts.\n"
    let rest := "globals\ninteger n\nendglobals\nlocal real b\nendmethod\nendglobals\n"
    let behind := lines 3 53 rest
    let behind' := lines 4 77 rest
    let program := Program.ofOutline 0 (build 0 (before ++ body ++ behind)).1
    let program' := Program.ofOutline 0 (build 0 (before ++ body' ++ behind')).1
    (before.foldl (Builder.feed 0) .start).openings.head? = some ⟨.method, header⟩ ∧
    (∀ record ∈ body, record.IsInert) ∧ (∀ record ∈ body', record.IsInert) ∧
    behind'.map SourceLine.text = behind.map SourceLine.text ∧
    program.allMethods.map (fun method => method.locals.map fun v => v.name) =
      [[some "b"]] ∧
    program'.allMethods.map (fun method => method.locals.map fun v => v.name) =
      [[some "a", some "b"]] ∧
    ∃ path?, (∀ path ∈ path?, (Opening.mk .method header).Declares (program.pick path)) ∧
      (program'.clearLocals path?).bare = (program.clearLocals path?).bare ∧
      (build 0 (before ++ body' ++ behind')).2.map Warning.message =
        (build 0 (before ++ body ++ behind)).2.map Warning.message ∧
      (build 0 (before ++ body' ++ behind')).2.map Warning.notes =
        (build 0 (before ++ body ++ behind)).2.map Warning.notes := by
  intro lines header before body body' rest behind behind' program program'
  have hopen : (before.foldl (Builder.feed 0) .start).openings = ⟨.method, header⟩ ::
      (before.foldl (Builder.feed 0) .start).openings.tail := by decide +kernel
  have hbody : ∀ record ∈ body, record.IsInert := by decide +kernel
  have hbody' : ∀ record ∈ body', record.IsInert := by decide +kernel
  have hbehind : behind'.map SourceLine.text = behind.map SourceLine.text := by decide +kernel
  obtain ⟨path?, hpath⟩ := build_bodyEdit 0 hopen (.inr rfl)
  exact ⟨by rw [hopen]; rfl, hbody, hbody', hbehind, by decide +kernel, by decide +kernel, path?,
    hpath hbody hbody' hbehind⟩

end Outline

end JassOutline
