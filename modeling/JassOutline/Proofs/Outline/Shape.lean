import JassOutline.Proofs.Outline.Content

/-!
# Shapes of outlines

The shape of an outline is what is left of it without its lines and without places: the kinds of
its blocks, how they are nested, and which of them are closed.

## Key results

- `Node.shapes_append`, `Node.shapes_headerNodes`: the shape of nodes, part by part
-/

namespace JassOutline

/-- A block without its lines and its place. -/
structure BlockShape where
  kind : BlockKind
  isClosed : Bool
  /-- The shapes of the blocks inside, in the order of the text. -/
  inside : List BlockShape
  deriving Repr

namespace Node

mutual

/-- The shape of a node, if it is a block. -/
def shape? : Node → Option BlockShape
  | .line _ => none
  | .block kind _ isClosed children => some ⟨kind, isClosed, shapes children⟩

/-- The shapes of the blocks among the nodes. -/
def shapes : List Node → List BlockShape
  | [] => []
  | node :: rest => node.shape?.toList ++ shapes rest

end

theorem shapes_append (a b : List Node) : shapes (a ++ b) = shapes a ++ shapes b := by
  induction a with
  | nil => rfl
  | cons node a ih => simp [shapes, ih]

theorem shapes_headerNodes (kind : BlockKind) (record : SourceLine) :
    shapes (Outline.headerNodes kind record) = [] := by
  unfold Outline.headerNodes
  split <;> rfl

end Node

end JassOutline
