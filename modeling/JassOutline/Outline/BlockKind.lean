/-!
# Kinds of blocks

The structural units that a source text nests into each other, the words they open and close with,
and whether the line that opens one belongs to it.
-/

namespace JassOutline

/-- The kinds of blocks a source text is made of. -/
inductive BlockKind where
  | globals
  | function
  | method
  | struct
  | library
  deriving DecidableEq, Repr, Inhabited

namespace BlockKind

/-- The word for the kind, with which its blocks open. -/
def word : BlockKind → String
  | globals => "globals"
  | function => "function"
  | method => "method"
  | struct => "struct"
  | library => "library"

/-- The keyword that closes a block of the kind. -/
def closer : BlockKind → String
  | globals => "endglobals"
  | function => "endfunction"
  | method => "endmethod"
  | struct => "endstruct"
  | library => "endlibrary"

/-- Whether the line that opens a block says more than its kind and is kept in the block. -/
def hasHeader : BlockKind → Bool
  | function | method | struct | library => true
  | globals => false

end BlockKind

end JassOutline
