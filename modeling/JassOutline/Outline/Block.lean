import JassOutline.Outline.BlockKind
import JassOutline.SourceLine

/-!
# Blocks

An outline is a tree. Its leaves are lines, and its inner nodes are blocks, which hold the line
that opens them, if their kind keeps it, and then what they contain.

Bridge lemmas: `Block.header?_eq_some` says when a block has a header line, and
`Block.header_body` that nothing but the header is left out of the body.
-/

namespace JassOutline

/-- A line, or a block with what it holds. -/
inductive Node where
  | line (record : SourceLine)
  | block (kind : BlockKind) (region : Region) (isClosed : Bool) (children : List Node)
  deriving Repr

/-- A structural unit of a source text. -/
structure Block where
  kind : BlockKind
  /-- From the line that opens the block to the line that closes it, or to the last line it holds
  if none does. -/
  region : Region
  isClosed : Bool
  /-- What the block holds, in the order of the text. -/
  children : List Node
  deriving Repr

/-- A whole text as a tree. -/
structure Outline where
  region : Region
  nodes : List Node
  deriving Repr

namespace Node

/-- The node that holds a block. -/
def ofBlock (b : Block) : Node :=
  .block b.kind b.region b.isClosed b.children

/-- Where the node lies. -/
def region : Node → Region
  | .line record => record.region
  | .block _ region _ _ => region

mutual

/-- The lines of a node from top to bottom. -/
def lines : Node → List SourceLine
  | .line record => [record]
  | .block _ _ _ children => linesOfAll children

/-- The lines of a list of nodes from top to bottom. -/
def linesOfAll : List Node → List SourceLine
  | [] => []
  | node :: rest => node.lines ++ linesOfAll rest

end

mutual

/-- The blocks of a node, each before those inside it. -/
def blocks : Node → List Block
  | .line _ => []
  | .block kind region isClosed children =>
    ⟨kind, region, isClosed, children⟩ :: blocksOfAll children

/-- The blocks of a list of nodes, each before those inside it. -/
def blocksOfAll : List Node → List Block
  | [] => []
  | node :: rest => node.blocks ++ blocksOfAll rest

end

end Node

namespace Block

/-- The line that opens the block, if blocks of its kind keep it. -/
def header? (b : Block) : Option SourceLine :=
  if b.kind.hasHeader then
    match b.children with
    | .line record :: _ => some record
    | _ => none
  else none

/-- What the block holds besides its header. -/
def body (b : Block) : List Node :=
  if b.header?.isSome then b.children.tail else b.children

theorem header?_eq_some {b : Block} {record : SourceLine} :
    b.header? = some record ↔
      b.kind.hasHeader = true ∧ ∃ rest, b.children = .line record :: rest := by
  unfold header?
  split
  · next hkind =>
    split
    · next hchildren => simp [hkind, hchildren, eq_comm]
    · next hother =>
      simp only [hkind, true_and, reduceCtorEq, false_iff, not_exists]
      exact fun rest h => hother record rest h
  · next hkind => simp [hkind]

theorem header_body {b : Block} {record : SourceLine} (h : b.header? = some record) :
    b.children = .line record :: b.body := by
  obtain ⟨_, rest, hchildren⟩ := header?_eq_some.1 h
  rw [body, h, hchildren]
  rfl

end Block

end JassOutline
