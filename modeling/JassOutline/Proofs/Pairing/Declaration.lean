import JassOutline.Proofs.Declaration.Comments
import JassOutline.Proofs.Declaration.Nodes
import JassOutline.Proofs.Declaration.Trailing
import JassOutline.Proofs.Pairing.Outline

/-!
# Two outlines that declare the same

Lines that answer to each other may say the same apart from comments at their end. Two outlines of
such lines declare the same apart from places, and apart from the comments that stand above the
declarations. Those are compared after a map for each of the texts, so that a comment that one of
the texts lacks can be forgotten.

## Key results

- `Declarations.bare_ofLine`, `Declarations.bare_ofBlock`: what a line and a block declare
- `Pairing.Nodes.bare_ofNodes`: what all nodes declare
-/

namespace JassOutline

open Token Outline

/-- The comments are the same apart from places, each list after its own map. -/
def SameComments (f f' : List CommentLine → List CommentLine)
    (comments comments' : List CommentLine) : Prop :=
  (f' comments').map CommentLine.bare = (f comments).map CommentLine.bare

/-- The declarations are the same apart from places, after a map of the comments for each. -/
def SameDeclarations (f f' : List CommentLine → List CommentLine)
    (declared declared' : Declarations) : Prop :=
  (declared'.mapComments f').bare = (declared.mapComments f).bare

variable {f f' : List CommentLine → List CommentLine}

theorem SameDeclarations.append {a a' b b' : Declarations} (ha : SameDeclarations f f' a a')
    (hb : SameDeclarations f f' b b') : SameDeclarations f f' (a ++ b) (a' ++ b') := by
  rw [SameDeclarations, Declarations.mapComments_append, Declarations.bare_append, ha, hb,
    Declarations.mapComments_append, Declarations.bare_append]

namespace Declarations

/-! ### Lines and blocks -/

section

variable {record record' : SourceLine} {comments comments' : List CommentLine}

theorem bare_memberLine (h : TrimsTo record.tokens record'.tokens)
    (hcomments : SameComments f f' comments comments') :
    SameDeclarations f f' (ofLine .struct .other comments record)
      (ofLine .struct .other comments' record') := by
  rw [ofLine, ofLine, isMemberLine_trimsTo h]
  split
  · show { none with members := [{ (Member.ofLine record').bare with
        comments := (f' comments').map CommentLine.bare }] } = _
    rw [Member.bare_ofLine_trimsTo h, hcomments]
    rfl
  · rfl

theorem bare_globalLine (h : TrimsTo record.tokens record'.tokens)
    (hcomments : SameComments f f' comments comments') :
    SameDeclarations f f' (ofLine .globals .other comments record)
      (ofLine .globals .other comments' record') := by
  rw [ofLine, ofLine, isGlobalLine_trimsTo h]
  split
  · show { none with globals := [{ (GlobalVariable.ofLine record').bare with
        comments := (f' comments').map CommentLine.bare }] } = _
    rw [GlobalVariable.bare_ofLine_trimsTo h, hcomments]
    rfl
  · rfl

/-- What a line declares has the comments that are given, and everything else from its tokens. -/
theorem bare_ofLine (h : TrimsTo record.tokens record'.tokens)
    (hcomments : SameComments f f' comments comments') (scope : Scope) (role : LineRole) :
    SameDeclarations f f' (ofLine scope role comments record)
      (ofLine scope role comments' record') := by
  have hmember := bare_memberLine h hcomments
  have hglobal := bare_globalLine h hcomments
  unfold ofLine
  split
  · show { none with natives := [{ (Native.ofLine record').bare with
        comments := (f' comments').map CommentLine.bare }] } = _
    rw [Native.bare_ofLine_trimsTo h, hcomments]
    rfl
  · show { none with types := [{ (TypeDeclaration.ofLine record').bare with
        comments := (f' comments').map CommentLine.bare }] } = _
    rw [TypeDeclaration.bare_ofLine_trimsTo h, hcomments]
    rfl
  · show { none with locals := [{ (LocalVariable.ofLine record').bare with
        comments := (f' comments').map CommentLine.bare }] } = _
    rw [LocalVariable.bare_ofLine_trimsTo h, hcomments]
    rfl
  -- A line may declare a member or a global variable whatever its first word says
  · exact hmember
  · exact hmember
  · exact hglobal
  · exact hglobal
  · exact hglobal
  · rfl

/-- What a block declares has the comments that are given, and everything else from its header and
from what is declared inside. -/
theorem bare_ofBlock (h : TrimsTo record.tokens record'.tokens)
    (hcomments : SameComments f f' comments comments') {inner inner' : Declarations}
    (hinner : SameDeclarations f f' inner inner') (kind : BlockKind) (region region' : Region) :
    SameDeclarations f f'
      (ofBlock kind region (if kind.hasHeader then some record else Option.none) comments inner)
      (ofBlock kind region' (if kind.hasHeader then some record' else Option.none) comments'
        inner') := by
  -- Each kind of block keeps the declarations inside that it may hold
  cases kind with
  | globals => exact congrArg (fun d => { none with globals := d.globals }) hinner
  | function =>
    show { none with functions := [{ (Function.ofHeader record' region').bare with
        comments := (f' comments').map CommentLine.bare
        locals := (inner'.mapComments f').bare.locals
        globals := (inner'.mapComments f').bare.globals }] } = _
    rw [Function.bare_ofHeader_trimsTo region region' h, hcomments, hinner]
    rfl
  | method =>
    show { none with methods := [{ (Method.ofHeader record' region').bare with
        comments := (f' comments').map CommentLine.bare
        locals := (inner'.mapComments f').bare.locals
        globals := (inner'.mapComments f').bare.globals }] } = _
    rw [Method.bare_ofHeader_trimsTo region region' h, hcomments, hinner]
    rfl
  | struct =>
    show { none with structs := [{ (Struct.ofHeader record' region').bare with
        comments := (f' comments').map CommentLine.bare
        members := (inner'.mapComments f').bare.members
        methods := (inner'.mapComments f').bare.methods }] } = _
    rw [Struct.bare_ofHeader_trimsTo region region' h, hcomments, hinner]
    rfl
  | library =>
    show { none with libraries := [{ (Library.ofHeader record' region').bare with
        comments := (f' comments').map CommentLine.bare
        globals := (inner'.mapComments f').bare.globals
        functions := (inner'.mapComments f').bare.functions
        structs := (inner'.mapComments f').bare.structs }] } = _
    rw [Library.bare_ofHeader_trimsTo region region' h, hcomments, hinner]
    rfl

end

end Declarations

/-! ### Nodes -/

/-- Both lines say the same as a third one, apart from comments at their end. -/
def SourceLine.SaysSame (record record' : SourceLine) : Prop :=
  ∃ bare : SourceLine, TrimsTo record.tokens bare.tokens ∧ TrimsTo record'.tokens bare.tokens

/-- Lines that answer to each other say the same, and the maps of comments make the same of their
comments. -/
structure Pairing.Keeps (pairing : Pairing) (f f' : List CommentLine → List CommentLine) :
    Prop where
  saysSame : ∀ {record record'}, pairing.pairs record record' → record.SaysSame record'
  nil : SameComments f f' [] []
  drop : ∀ {record comments comments'}, pairing.drops record →
    SameComments f f' comments comments' →
    SameComments f f' (comments ++ [.ofLine record]) comments'
  comment : ∀ {record record' comments comments'}, pairing.pairs record record' →
    LineRole.ofLine record = .comment → SameComments f f' comments comments' →
    SameComments f f' (comments ++ [.ofLine record]) (comments' ++ [.ofLine record'])

section

variable {record record' : SourceLine} {comments comments' : List CommentLine}

theorem SourceLine.SaysSame.ofLine (h : record.SaysSame record')
    (hcomments : SameComments f f' comments comments') (scope : Scope) (role : LineRole) :
    SameDeclarations f f' (Declarations.ofLine scope role comments record)
      (Declarations.ofLine scope role comments' record') := by
  obtain ⟨bare, hbare, hbare'⟩ := h
  have hsame : SameComments f' f' comments' comments' := rfl
  exact (Declarations.bare_ofLine hbare' hsame scope role).symm.trans
    (Declarations.bare_ofLine hbare hcomments scope role)

theorem SourceLine.SaysSame.ofBlock (h : record.SaysSame record')
    (hcomments : SameComments f f' comments comments') {inner inner' : Declarations}
    (hinner : SameDeclarations f f' inner inner') (kind : BlockKind) (region region' : Region) :
    SameDeclarations f f'
      (.ofBlock kind region (if kind.hasHeader then some record else none) comments inner)
      (.ofBlock kind region' (if kind.hasHeader then some record' else none) comments' inner') := by
  obtain ⟨bare, hbare, hbare'⟩ := h
  have hsame : SameComments f' f' comments' comments' := rfl
  have hinner' : SameDeclarations f' f' inner' inner' := rfl
  exact (Declarations.bare_ofBlock hbare' hsame hinner' kind region' region').symm.trans
    (Declarations.bare_ofBlock hbare hcomments hinner kind region region')

end

/-- Nodes whose lines answer to each other declare the same. -/
theorem Pairing.Nodes.bare_ofNodes {pairing : Pairing} (hkeeps : pairing.Keeps f f')
    {nodes nodes' : List Node} (h : pairing.Nodes nodes nodes') (scope : Scope)
    {comments comments' : List CommentLine} (hcomments : SameComments f f' comments comments') :
    SameDeclarations f f' (.ofNodes scope false comments nodes)
      (.ofNodes scope false comments' nodes') := by
  -- The comments in front vary, as a comment line hands them on
  induction h generalizing scope comments comments' with
  | nil =>
    rw [Declarations.ofNodes, Declarations.ofNodes]
    rfl
  | comment hdrop _ ih =>
    rw [Declarations.ofNodes_comment (pairing.role_of_drops hdrop)]
    exact ih scope (hkeeps.drop hdrop hcomments)
  | @line record record' _ _ hline _ ih =>
    have hrole' := pairing.role_eq hline
    by_cases hrole : LineRole.ofLine record = .comment
    · rw [Declarations.ofNodes_comment hrole, Declarations.ofNodes_comment (hrole'.trans hrole)]
      exact ih scope (hkeeps.comment hline hrole hcomments)
    · rw [Declarations.ofNodes_line rfl hrole, Declarations.ofNodes_line hrole' hrole]
      exact ((hkeeps.saysSame hline).ofLine hcomments scope _).append (ih scope hkeeps.nil)
  | @block kind region region' _ _ _ _ _ _ _ hopener _ _ ihInside ih =>
    rw [Declarations.ofNodes_block, Declarations.ofNodes_block]
    have hinside := ihInside (.inside kind) hkeeps.nil
    refine SameDeclarations.append ?_ (ih scope hkeeps.nil)
    split
    · exact (hkeeps.saysSame hopener).ofBlock hcomments hinside kind region region'
    · rfl

end JassOutline
