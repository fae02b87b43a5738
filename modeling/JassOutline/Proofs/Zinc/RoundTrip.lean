import JassOutline.Proofs.Zinc.Library
import JassOutline.Proofs.Zinc.Program

/-!
# Reading back written zinc

The marks of a written program are found in its tokens, comments and all, and the program is read
from them up to places.

## Key results

- `Writes.mark_ofTokens`: the lexemes of a written program have its marks
- `parse_written`: the round trip
-/

namespace JassOutline.Zinc

open Lexeme

/-! ### Lexemes of written programs -/

/-- None of the labels is a comment. -/
def IsCode (labels : List Label) : Prop := ∀ l ∈ labels, l.kind ≠ .comment

@[simp] theorem isCode_nil : IsCode [] := by simp [IsCode]

@[simp] theorem isCode_cons {l : Label} {labels : List Label} :
    IsCode (l :: labels) ↔ l.kind ≠ .comment ∧ IsCode labels :=
  List.forall_mem_cons

@[simp] theorem isCode_append {front back : List Label} :
    IsCode (front ++ back) ↔ IsCode front ∧ IsCode back :=
  List.forall_mem_append

@[simp] theorem kind_word (text : String) : (Label.word text).kind = .identifier := rfl

@[simp] theorem kind_sign (text : String) : (Label.sign text).kind = .operator := rfl

@[simp] theorem isCode_words (words : List String) : IsCode (words.map .word) := by
  intro l hl
  obtain ⟨word, -, rfl⟩ := List.mem_map.1 hl
  simp

@[simp] theorem isCode_listClause (keyword : String) (names : List String) :
    IsCode (listClause keyword names) :=
  forall_mem_listClause (by simp) (by simp) fun _ _ => by simp

@[simp] theorem isCode_variableLabels (isConstant : Bool) (shape : VariableShape) :
    IsCode (variableLabels isConstant shape) := by
  simp only [variableLabels, isCode_append, isCode_words, true_and]
  simp

theorem isCode_routineLabels (keyword : String) {name : List Label} (hname : IsCode name)
    (signature : Signature) : IsCode (routineLabels keyword name signature) := by
  have hparameters : IsCode (listed (signature.parameters.map Parameter.labels)) := by
    refine forall_mem_listed (by simp) fun item hitem => ?_
    obtain ⟨parameter, -, rfl⟩ := List.mem_map.1 hitem
    exact isCode_words [parameter.type, parameter.name.getD ""]
  have hresult : IsCode (resultLabels signature.returns) := by
    cases signature.returns <;> simp [resultLabels]
  simp [routineLabels, hname, hparameters, hresult]

theorem isCode_of_isMethodName {text : String} {labels : List Label}
    (h : IsMethodName text labels) : IsCode labels := by
  cases h with
  | word => simp
  | operator hlabels => exact isCode_cons.2 ⟨by simp, fun l hl => (hlabels l hl).2⟩

@[simp] theorem label_closing : closing.label = .sign "\x7d" := rfl

theorem BodyWrites.isCode {marks : List Mark} {locals : List LocalVariable}
    (h : BodyWrites marks locals) : IsCode (marks.map Mark.label) := by
  induction h with
  | nil => exact isCode_nil
  | @cons v size rest locals _ hsize _ ih =>
    -- A size is arbitrary apart from this
    have hsizeLabels : IsCode (sizeLabels v.isArray size) := by
      unfold sizeLabels
      split
      · have hinner : IsCode size := fun l hl => (hsize l hl).2
        simp [hinner]
      · exact isCode_nil
    rw [List.map_append, Mark.label_below]
    refine isCode_append.2 ⟨?_, ih⟩
    simp [localLabels, hsizeLabels]

theorem StructItemWrites.isCode {outer : Visibility} {marks : List Mark} {declared : Declarations}
    (h : StructItemWrites outer marks declared) : IsCode (marks.map Mark.label) := by
  cases h with
  | member =>
    rw [Mark.label_below]
    simp
  | method _ _ _ hname _ hbody =>
    have hroutine := isCode_routineLabels "method" (isCode_of_isMethodName hname)
    simp [Mark.label_below, hroutine, hbody.isCode]

theorem ItemsWrite.isCode {item : Visibility → List Mark → Declarations → Prop}
    (hitem : ∀ {outer marks declared}, item outer marks declared → IsCode (marks.map Mark.label))
    {outer : Visibility} {marks : List Mark} {declared : Declarations}
    (h : ItemsWrite item outer marks declared) : IsCode (marks.map Mark.label) := by
  induction h with
  | nil => exact isCode_nil
  | item h _ ih => simp [hitem h, ih]
  | group _ _ _ ihInside ihRest => simp [Mark.plain, ihInside, ihRest]

theorem PlainItemWrites.isCode {outer : Visibility} {marks : List Mark} {declared : Declarations}
    (h : PlainItemWrites outer marks declared) : IsCode (marks.map Mark.label) := by
  cases h with
  | globalVariable =>
    rw [Mark.label_below]
    simp
  | @function function _ _ _ _ _ _ hbody =>
    have hname : IsCode [nameLabel function.name] := by simp [nameLabel]
    have hroutine := isCode_routineLabels "function" hname
    simp [Mark.label_below, hroutine, hbody.isCode]
  | struct _ _ _ hitems =>
    simp [Mark.label_below, structLabels, nameLabel, hitems.isCode StructItemWrites.isCode]

/-- No lexeme of a written program is a comment. -/
theorem Writes.isCode {marks : List Mark} {declared : Declarations} (h : Writes marks declared) :
    IsCode (marks.map Mark.label) := by
  induction h with
  | nil => exact isCode_nil
  | item hitem _ ih => simp [hitem.isCode, ih]
  | library _ _ _ hitems _ ih =>
    simp [Mark.label_below, libraryLabels, nameLabel, hitems.isCode PlainItemWrites.isCode, ih]

/-- The lexemes of a written program have its marks. -/
theorem Writes.mark_ofTokens {marks : List Mark} {declared : Declarations}
    (h : Writes marks declared) {tokens : List Token}
    (htokens : tokens.map Token.label = marks.flatMap Mark.labels) :
    (ofTokens tokens).map mark = marks := by
  refine Lexeme.mark_ofTokens htokens fun m hm => ?_
  exact h.isCode m.label (List.mem_map_of_mem hm)

/-! ### The round trip -/

/-- The tokens of a written program are read as the program, up to places. -/
theorem parse_of_writes {program : Program} {marks : List Mark}
    (h : Writes marks program.declarations) {tokens : List Token}
    (htokens : tokens.map Token.label = marks.flatMap Mark.labels) :
    ∃ read, parse tokens = .ok read ∧ read.bare = { program.bare with source := 0 } := by
  obtain ⟨declared, hread, hbare⟩ := declarations_of_writes h (h.mark_ofTokens htokens)
  refine ⟨.ofDeclarations 0 declared, by simp [parse, hread, bind, Except.bind], ?_⟩
  rw [Declarations.bare_ofDeclarations, hbare]
  rfl

/-- Every program that zinc can express has a row of marks, and whatever marks write it, their
tokens are read as it, up to places. -/
theorem parse_written (program : Program) (h : isWritable program = true) :
    Writes (programMarks program) program.declarations ∧
      ∀ marks, Writes marks program.declarations →
        ∀ tokens : List Token, tokens.map Token.label = marks.flatMap Mark.labels →
          ∃ read, parse tokens = .ok read ∧ read.bare = { program.bare with source := 0 } :=
  ⟨writes_programMarks h, fun _ hwrites _ => parse_of_writes hwrites⟩

/-- A library with a set-up function and a struct with an operator, and a constant. -/
def specimen : Program where
  natives := []
  functions := []
  globals := [⟨⟨some "LIMIT", [⟨"// at most", .empty⟩], .empty⟩, .unmarked, true, some "integer",
    false⟩]
  structs := []
  libraries := [
    { name := some "Quest", comments := [⟨"// the quests", .empty⟩], region := .empty
      setUp := some "onInit", requirements := ["Table", "Timer"]
      globals := [⟨⟨some "count", [], .empty⟩, .hidden, false, some "integer", true⟩]
      functions := [
        { name := some "onInit", comments := [], region := .empty, visibility := .hidden
          isConstant := false, parameters := [], returns := none
          locals := [⟨⟨some "i", [⟨"//", .empty⟩], .empty⟩, false, some "integer", true⟩]
          globals := [] }]
      structs := [
        { name := some "Item", comments := [], region := .empty, visibility := .exported
          parents := ["Base"]
          members := [⟨⟨some "cost", [], .empty⟩, .hidden, .static, true, false, some "real", true⟩]
          methods := [
            { name := some "<", comments := [], region := .empty, visibility := .unmarked
              binding := .stub, returns := some "boolean", locals := [], globals := []
              parameters := [⟨"Item", some "other", .empty⟩] }] }] }]
  types := []
  source := 0

/-- A token with the label, at the start of a text. -/
def tokenOf (l : Label) : Token := ⟨l.kind, l.text, 0, 0, 0⟩

theorem parse_written_specimen :
    isWritable specimen = true ∧
      ∃ read, parse (((programMarks specimen).flatMap Mark.labels).map tokenOf) = .ok read ∧
        read.bare = specimen.bare := by
  have h : isWritable specimen = true := by decide
  obtain ⟨hwrites, hread⟩ := parse_written specimen h
  have htokens : (((programMarks specimen).flatMap Mark.labels).map tokenOf).map Token.label =
      (programMarks specimen).flatMap Mark.labels := by
    rw [List.map_map]
    exact List.map_id _
  exact ⟨h, hread _ hwrites _ htokens⟩

end JassOutline.Zinc
