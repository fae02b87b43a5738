import JassOutline.Outline.Block
import JassOutline.Outline.LineRole
import JassOutline.Warning

/-!
# Nesting lines into blocks

`Outline.build` reads a stream of lines and keeps a stack of the blocks that are open. A line that
opens a block puts it onto the stack, and a line that closes the innermost open block takes it off
and makes it a child of what is open around it. A closing line of any other kind is kept as an
ordinary line, with a warning. What is still open at the end is taken off the stack then.
-/

namespace JassOutline.Outline

/-- A block whose end has not been met. -/
structure OpenBlock where
  kind : BlockKind
  /-- The line that opens the block. -/
  opener : SourceLine
  /-- The end of what the block holds so far. -/
  stop : Position
  children : Array Node

namespace OpenBlock

/-- The block that the line opens. -/
def ofLine (kind : BlockKind) (record : SourceLine) : OpenBlock where
  kind
  opener := record
  stop := record.region.stop
  children := if kind.hasHeader then #[.line record] else #[]

/-- The block with one more line, with which it ends so far. -/
def addLine (frame : OpenBlock) (record : SourceLine) : OpenBlock :=
  { frame with stop := record.region.stop, children := frame.children.push (.line record) }

/-- The block with one more block in it. -/
def addBlock (frame : OpenBlock) (b : Block) : OpenBlock :=
  { frame with
    stop := max frame.stop b.region.stop
    children := frame.children.push (.ofBlock b) }

/-- The block, ended at a closing line. -/
def close (frame : OpenBlock) (record : SourceLine) : Block :=
  ⟨frame.kind, ⟨frame.opener.region.start, record.region.stop⟩, true, frame.children.toList⟩

/-- The block, ended where the text ends. -/
def abandon (frame : OpenBlock) : Block :=
  ⟨frame.kind, ⟨frame.opener.region.start, frame.stop⟩, false, frame.children.toList⟩

end OpenBlock

/-- What has been read of a stream of lines. -/
structure Builder where
  /-- The blocks that are open, innermost first. -/
  stack : List OpenBlock
  /-- What lies outside of every block. -/
  top : Array Node
  warnings : Array Warning

namespace Builder

/-- Nothing has been read. -/
def start : Builder := ⟨[], #[], #[]⟩

/-- A line goes to the innermost open block. -/
def addLine (builder : Builder) (record : SourceLine) : Builder :=
  match builder.stack with
  | [] => { builder with top := builder.top.push (.line record) }
  | inner :: outer => { builder with stack := inner.addLine record :: outer }

/-- A block goes to the innermost block of the given stack. -/
def attach (builder : Builder) (stack : List OpenBlock) (b : Block) : Builder :=
  match stack with
  | [] => { builder with stack := [], top := builder.top.push (.ofBlock b) }
  | inner :: outer => { builder with stack := inner.addBlock b :: outer }

/-- Records a warning. -/
def warn (builder : Builder) (warning : Warning) : Builder :=
  { builder with warnings := builder.warnings.push warning }

/-- A closing line of the given kind. -/
def close (source : Nat) (builder : Builder) (kind : BlockKind) (record : SourceLine) : Builder :=
  match builder.stack with
  | [] => (builder.warn (.onLine (.closerUnmatched kind) record source)).addLine record
  | inner :: outer =>
    if inner.kind = kind then builder.attach outer (inner.close record)
    else
      (builder.warn (.onLine (.closerMismatched kind inner.kind) record source)).addLine record

/-- The next line of the stream. -/
def feed (source : Nat) (builder : Builder) (record : SourceLine) : Builder :=
  match LineRole.ofLine record with
  | .opens kind => { builder with stack := .ofLine kind record :: builder.stack }
  | .closes kind => builder.close source kind record
  | _ => builder.addLine record

/-- Takes the open blocks off the stack at the end of the stream. `inner?` is the block that the
one before was left as. -/
def abandonAll (source : Nat) (builder : Builder) (inner? : Option Block) :
    List OpenBlock → Builder
  | [] =>
    match inner? with
    | none => { builder with stack := [] }
    | some inner => builder.attach [] inner
  | frame :: outer =>
    -- The block that was left inside becomes the last child of the one around it
    let left := (inner?.elim frame frame.addBlock).abandon
    abandonAll source
      (builder.warn (.onLine (.blockNeverClosed frame.kind) frame.opener source)) (some left) outer

/-- The end of the stream. -/
def finish (source : Nat) (builder : Builder) : Builder :=
  builder.abandonAll source none builder.stack

end Builder

/-- From the first of the nodes to the last. -/
def regionOfAll (nodes : List Node) : Region :=
  match nodes.head?, nodes.getLast? with
  | some first, some last => first.region.hull last.region
  | _, _ => .empty

/-- The tree of a stream of lines and the warnings about it. -/
def build (source : Nat) (lines : List SourceLine) : Outline × List Warning :=
  let builder := (lines.foldl (Builder.feed source) .start).finish source
  let nodes := builder.top.toList
  (⟨regionOfAll nodes, nodes⟩, builder.warnings.toList)

end JassOutline.Outline
