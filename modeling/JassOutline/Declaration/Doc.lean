import JassOutline.Declaration
import JassOutline.Text.Blank

/-!
# Documentation

The comment lines above a declaration document it. A line that opens with `@param` describes a
parameter, one that opens with `@deprecated` marks the declaration, and every other line that is
not empty is free text.
-/

namespace JassOutline

open Text

/-- The description of a parameter. -/
structure ParameterDoc where
  name : String
  description : String
  deriving DecidableEq, Repr, Inhabited

/-- What a comment line says. -/
inductive DocLine where
  | nothing
  | text (line : String)
  | parameter (doc : ParameterDoc)
  | deprecated
  deriving DecidableEq, Repr

namespace DocLine

/-- The text of a comment without its slashes and without blanks around it. -/
def content (comment : List Char) : List Char :=
  let text := trim comment
  trim ((dropLeading? ['/', '/'] text).getD text)

/-- What follows `@param`: a name up to the first blank, and a description. -/
def ofParameterTag (rest : List Char) : DocLine :=
  let rest := trimStart rest
  if rest.isEmpty then .nothing
  else
    .parameter {
      name := String.ofList (rest.takeWhile (!isBlank ·))
      description := String.ofList (trim (rest.dropWhile (!isBlank ·))) }

/-- What a comment says. -/
def ofComment (comment : List Char) : DocLine :=
  let text := content comment
  match dropLeading? "@param".toList text with
  | some rest => ofParameterTag rest
  | none =>
    if startsWith "@deprecated".toList text then .deprecated
    else if text.isEmpty then .nothing
    else .text (String.ofList text)

end DocLine

/-- The documentation of a declaration. -/
structure Doc where
  /-- The lines of free text. -/
  contents : List String
  parameters : List ParameterDoc
  isDeprecated : Bool
  deriving DecidableEq, Repr, Inhabited

namespace Doc

/-- No documentation. -/
def empty : Doc := ⟨[], [], false⟩

/-- The documentation with one more line before it. -/
def add (line : DocLine) (doc : Doc) : Doc :=
  match line with
  | .nothing => doc
  | .text line => { doc with contents := line :: doc.contents }
  | .parameter entry => { doc with parameters := entry :: doc.parameters }
  | .deprecated => { doc with isDeprecated := true }

/-- The documentation that a list of comments makes up. -/
def ofComments (comments : List CommentLine) : Doc :=
  comments.foldr (fun comment => add (.ofComment comment.text.toList)) empty

/-- The first description of the parameter. -/
def parameter? (doc : Doc) (name : String) : Option ParameterDoc :=
  doc.parameters.find? fun entry => entry.name == name

/-- Whether nothing is documented. -/
def isEmpty (doc : Doc) : Bool :=
  doc.contents.isEmpty && doc.parameters.isEmpty && !doc.isDeprecated

end Doc

end JassOutline
