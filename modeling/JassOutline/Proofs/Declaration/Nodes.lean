import JassOutline.Program.Assembly
import JassOutline.Proofs.Outline.Content

/-!
# What nodes declare

`Declarations.ofNodes` goes through the nodes of an outline one by one. A comment line is kept for
the next node, any other line declares what it does in its scope, and a block what its header and
its body say.

## Key results

- `ofNodes_comment`, `ofNodes_line`, `ofNodes_block`: one equation for each sort of node
- `blocks_ofLine`: what takes a block comes from no line
- `exists_ofNodes_append`: what nodes declare that stand behind others
-/

namespace JassOutline.Declarations

variable {scope : Scope} {record : SourceLine} {given : List CommentLine} {nodes : List Node}

theorem ofNodes_comment (h : LineRole.ofLine record = .comment) :
    ofNodes scope false given (.line record :: nodes) =
      ofNodes scope false (given ++ [.ofLine record]) nodes := by
  rw [ofNodes]
  simp [h]

theorem ofNodes_line {role : LineRole} (h : LineRole.ofLine record = role)
    (hrole : role ≠ .comment) :
    ofNodes scope false given (.line record :: nodes) =
      ofLine scope role given record ++ ofNodes scope false [] nodes := by
  rw [ofNodes]
  cases role <;> simp_all

/-- No line declares what takes a block. -/
theorem blocks_ofLine (scope : Scope) (role : LineRole) (comments : List CommentLine)
    (record : SourceLine) :
    (ofLine scope role comments record).functions = [] ∧
      (ofLine scope role comments record).methods = [] ∧
      (ofLine scope role comments record).structs = [] ∧
      (ofLine scope role comments record).libraries = [] := by
  cases scope <;> cases role <;> simp only [ofLine, none, and_self]
  all_goals split <;> simp

/-- A block declares what its header and the nodes behind it say, if its scope admits it. -/
theorem ofNodes_block (kind : BlockKind) (region : Region) (isClosed : Bool)
    (children : List Node) :
    ofNodes scope false given
        (.block kind region isClosed (Outline.headerNodes kind record ++ children) :: nodes) =
      (if scope.admits kind then
        ofBlock kind region (if kind.hasHeader then some record else Option.none) given
          (ofNodes (.inside kind) false [] children)
      else none) ++ ofNodes scope false [] nodes := by
  rw [ofNodes]
  split
  · cases kind <;> simp [Outline.headerNodes, BlockKind.hasHeader, Block.header?, ofNodes]
  · rw [none_append]

/-- What nodes declare behind others depends on the others only through comments that wait for a
declaration. -/
theorem exists_ofNodes_append (scope : Scope) (given : List CommentLine) (before : List Node) :
    ∃ pending, ∀ nodes, ofNodes scope false given (before ++ nodes) =
      ofNodes scope false given before ++ ofNodes scope false pending nodes := by
  induction before generalizing given with
  | nil => exact ⟨given, fun nodes => by rw [ofNodes, none_append]; rfl⟩
  | cons node before ih =>
    cases node with
    | line record =>
      by_cases hrole : LineRole.ofLine record = .comment
      · obtain ⟨pending, h⟩ := ih (given ++ [.ofLine record])
        refine ⟨pending, fun nodes => ?_⟩
        rw [List.cons_append, ofNodes_comment hrole, ofNodes_comment hrole, h]
      · obtain ⟨pending, h⟩ := ih []
        refine ⟨pending, fun nodes => ?_⟩
        rw [List.cons_append, ofNodes_line rfl hrole, ofNodes_line rfl hrole, h, append_assoc]
    | block kind region isClosed children =>
      obtain ⟨pending, h⟩ := ih []
      refine ⟨pending, fun nodes => ?_⟩
      rw [List.cons_append, ofNodes, ofNodes]
      split
      · rw [h, append_assoc]
      · exact h nodes

end JassOutline.Declarations
