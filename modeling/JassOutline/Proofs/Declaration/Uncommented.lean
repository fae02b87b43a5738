import JassOutline.Proofs.Outline.Uncommented
import JassOutline.Proofs.Pairing.Declaration

/-!
# Programs without their comments

Comments do not change what a text declares. The comment lines above a declaration are attached to
it, and a comment at the end of a line is passed over. Without its comments, a text has the same
program apart from comments and places, the same blocks and the same warnings.

## Key results

- `Uncomments.skeleton_ofNodes`: what two outlines declare that differ by comments only
- `Outline.build_uncommented`: the outline and the program of a text without its comments
-/

namespace JassOutline

open Outline Token

/-- The declarations without comments and without places. -/
def Declarations.skeleton (declared : Declarations) : Declarations :=
  (declared.mapComments fun _ => []).bare

/-- Forgetting all comments, a line declares the same with and without the comments at its end. -/
theorem Pairing.keeps_uncommenting :
    Pairing.uncommenting.Keeps (fun _ => []) (fun _ => []) where
  saysSame h := ⟨_, h.tokens, trimsTo_tokenizeFrom ..⟩
  nil := rfl
  drop _ _ := rfl
  comment _ _ _ := rfl

/-- Comments change neither what the nodes declare nor where they declare it. -/
theorem Uncomments.skeleton_ofNodes {nodes nodes' : List Node} (h : Uncomments nodes nodes')
    (scope : Scope) (comments comments' : List CommentLine) :
    (Declarations.ofNodes scope false comments' nodes').skeleton =
      (Declarations.ofNodes scope false comments nodes).skeleton :=
  Pairing.Nodes.bare_ofNodes Pairing.keeps_uncommenting h scope rfl

/-- Comments do not influence what is read. Take a text whose lines are those of another one, but
without the lines that are comments and without the comments at the end of lines. Both texts have
the same program apart from comments and places, the same blocks, and the same warnings in the same
order. -/
theorem Outline.build_uncommented (source : Nat) {lines lines' : List SourceLine}
    (h : lines'.map SourceLine.text = (SourceLine.uncommentAll lines).map SourceLine.text) :
    (Program.ofOutline source (build source lines').1).withoutComments.bare =
      (Program.ofOutline source (build source lines).1).withoutComments.bare ∧
    Node.shapes (build source lines').1.nodes = Node.shapes (build source lines).1.nodes ∧
    (build source lines').2.map Warning.message = (build source lines).2.map Warning.message ∧
    (build source lines').2.map Warning.notes = (build source lines).2.map Warning.notes := by
  have hnodes := uncomments_build source h
  refine ⟨?_, hnodes.shapes, Warning.texts_eq (problems_uncommented source h)⟩
  exact congrArg (Program.ofDeclarations source) (hnodes.skeleton_ofNodes .program [] [])

/-- A struct with comments above it, behind each of its lines and behind a stray closer. -/
theorem Outline.build_uncommented_point :
    let lines := SourceLine.segment ("// A point.\nstruct Point // in the plane\n" ++
      "  integer x // first\n  // then\nendstruct // done\nendglobals // of nothing\n").toList
    let lines' := SourceLine.segment
      "struct Point \n  integer x \nendstruct \nendglobals \n".toList
    (Program.ofOutline 0 (build 0 lines).1).structs.map (fun struct =>
      (struct.name, struct.members.map fun member => member.name)) =
        [(some "Point", [some "x"])] ∧
    lines'.map SourceLine.text = (SourceLine.uncommentAll lines).map SourceLine.text ∧
    (Program.ofOutline 0 (build 0 lines').1).withoutComments.bare =
      (Program.ofOutline 0 (build 0 lines).1).withoutComments.bare ∧
    Node.shapes (build 0 lines').1.nodes = Node.shapes (build 0 lines).1.nodes ∧
    (build 0 lines').2.map Warning.message = (build 0 lines).2.map Warning.message ∧
    (build 0 lines').2.map Warning.notes = (build 0 lines).2.map Warning.notes :=
  ⟨by decide +kernel, by decide +kernel, build_uncommented 0 (by decide +kernel)⟩

end JassOutline
