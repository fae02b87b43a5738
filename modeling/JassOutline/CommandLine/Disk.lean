/-!
# Files and directories

What a command reads is a `FileTree`: files with their bytes, and directories with named trees.
`FileTree.find` follows a path, part by part, and fails as an operating system does: at the first
part that cannot be looked up.
-/

namespace JassOutline.CommandLine

/-- A file or a directory with all that is in it. -/
inductive FileTree where
  | file (bytes : ByteArray)
  | directory (entries : List (String × FileTree))

/-- Why a path cannot be read as a text. -/
inductive ReadError where
  | notFound
  | notDirectory
  | isDirectory
  | nameTooLong
  | denied
  | invalidText
  /-- Any other reason, in words. -/
  | other (message : String)
  deriving DecidableEq, Repr

/-- The sentence for an error. -/
def ReadError.message : ReadError → String
  | notFound => "No such file or directory (os error 2)"
  | notDirectory => "Not a directory (os error 20)"
  | isDirectory => "Is a directory (os error 21)"
  | nameTooLong => "File name too long (os error 36)"
  | denied => "Permission denied (os error 13)"
  | invalidText => "stream did not contain valid UTF-8"
  | other message => message

/-- The greatest number of bytes in one part of a path. -/
def longestName : Nat := 255

/-- The greatest number of bytes in a path. -/
def longestPath : Nat := 4095

namespace FileTree

/-- Follows the parts of a path. `outer` holds the directories around the tree, innermost first.
What lies around the outermost directory is not known and is taken for empty. -/
def follow (tree : FileTree) (outer : List FileTree) : List String → Except ReadError FileTree
  | [] => .ok tree
  | part :: parts =>
    match tree with
    | file _ => .error .notDirectory
    | directory entries =>
      if part = "" ∨ part = "." then follow (directory entries) outer parts
      else if part = ".." then
        match outer with
        | [] => follow (directory []) [] parts
        | parent :: outer => follow parent outer parts
      else if longestName < part.utf8ByteSize then .error .nameTooLong
      else
        match entries.lookup part with
        | none => .error .notFound
        | some inner => follow inner (directory entries :: outer) parts

/-- What stands at a path. Paths that start with a slash lead out of the tree. -/
def find (tree : FileTree) (path : String) : Except ReadError FileTree :=
  if path = "" then .error .notFound
  else if longestPath < path.utf8ByteSize then .error .nameTooLong
  else
    let tree := if path.toList.head? = some '/' then directory [] else tree
    tree.follow [] (path.splitOn "/")

/-- The text of a file. -/
def text : FileTree → Except ReadError String
  | directory _ => .error .isDirectory
  | file bytes =>
    match String.fromUTF8? bytes with
    | some text => .ok text
    | none => .error .invalidText

/-- The tree with one more file at a path of plain names. -/
def insert (tree : FileTree) (path : List String) (bytes : ByteArray) : FileTree :=
  match path with
  | [] => file bytes
  | part :: parts =>
    let entries :=
      match tree with
      | file _ => []
      | directory entries => entries
    let inner := (entries.lookup part).getD (directory [])
    directory (entries.filter (·.1 != part) ++ [(part, inner.insert parts bytes)])

end FileTree

/-- What a command can see of the files around it: what stands at each path. -/
structure Disk where
  find : String → Except ReadError FileTree

namespace Disk

/-- The text at a path. -/
def read (disk : Disk) (path : String) : Except ReadError String :=
  (disk.find path).bind FileTree.text

end Disk

end JassOutline.CommandLine
