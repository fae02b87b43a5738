import JassOutline.Document
import JassOutline.Proofs.Lookup.Storage
import JassOutline.Proofs.Zinc.Incremental

/-!
# What a look-up finds in a source text

The methods of the zinc dialect have no globals blocks, so the zinc blocks of a text add nothing to
what its methods store. A look-up by name then misses exactly the variables of the globals blocks
inside of methods, in the program of a text as in that program with the zinc declarations behind it.

## Key results

- `Zinc.methodGlobals_of_parse`: no method of a zinc program stores a variable
- `Document.globalsNamed_perm`: what a look-up finds, and when it finds all there is
-/

namespace JassOutline

namespace Zinc

/-! ### What a reader yields -/

/-- Whatever is read has the property. -/
def Yields (P : α → Prop) (reading : Reading α) : Prop :=
  ∀ value rest, reading = .ok (value, rest) → P value

namespace Yields

variable {P : α → Prop}

theorem ok {value : α} {rest : List Lexeme} (h : P value) :
    Yields P (.ok (value, rest) : Reading α) := by
  rintro _ _ ⟨⟩
  exact h

theorem error {e : ZincError} : Yields P (.error e : Reading α) := by
  rintro _ _ ⟨⟩

theorem bind {Q : β → Prop} {reading : Reading α} {next : α × List Lexeme → Reading β}
    (h : Yields P reading) (hnext : ∀ value rest, P value → Yields Q (next (value, rest))) :
    Yields Q (reading.bind next) := by
  cases reading with
  | error e => exact error
  | ok pair => exact hnext pair.1 pair.2 (h pair.1 pair.2 rfl)

/-- What was read before may be anything. -/
theorem behind {Q : β → Prop} {reading : Reading α} {next : α × List Lexeme → Reading β}
    (hnext : ∀ value rest, Yields Q (next (value, rest))) : Yields Q (reading.bind next) := by
  have hanything : Yields (fun _ => True) reading := fun _ _ _ => trivial
  exact hanything.bind fun value rest _ => hnext value rest

end Yields

/-! ### Methods without variables of their own -/

/-- No method among the declarations stores a global variable, at any depth. -/
structure NothingInMethods (declared : Declarations) : Prop where
  methods : declared.methods.flatMap Method.globals = []
  structs : declared.structs.flatMap Struct.methodGlobals = []
  libraries : declared.libraries.flatMap (·.structs.flatMap Struct.methodGlobals) = []

namespace NothingInMethods

theorem none : NothingInMethods .none := ⟨rfl, rfl, rfl⟩

theorem append {a b : Declarations} (ha : NothingInMethods a) (hb : NothingInMethods b) :
    NothingInMethods (a ++ b) where
  methods := List.flatMap_append.trans (by rw [ha.methods, hb.methods, List.append_nil])
  structs := List.flatMap_append.trans (by rw [ha.structs, hb.structs, List.append_nil])
  libraries := List.flatMap_append.trans (by rw [ha.libraries, hb.libraries, List.append_nil])

end NothingInMethods

theorem yields_method (visibility : Visibility) (binding : Binding) (comments : List CommentLine)
    (keyword : Token) (lexemes : List Lexeme) :
    Yields (fun declared => declared.globals = [])
      (method visibility binding comments keyword lexemes) := by
  refine .behind fun _ _ => ?_
  refine .behind fun _ _ => ?_
  refine .behind fun _ _ => ?_
  exact .behind fun _ _ => .ok rfl

theorem yields_structItemBody (visibility : Visibility) (binding : Binding)
    (comments : List CommentLine) (lexemes : List Lexeme) :
    Yields NothingInMethods (structItemBody visibility binding comments lexemes) := by
  unfold structItemBody
  split
  · exact .error
  · split
    · refine (yields_method _ _ _ _ _).bind fun declared _ hmethod => .ok ⟨?_, rfl, rfl⟩
      simp [hmethod]
    split
    · exact .ok .none
    split
    · exact .behind fun _ _ => .ok .none
    · exact .behind fun _ _ => .ok ⟨rfl, rfl, rfl⟩

theorem yields_structItem (visibility : Visibility) (comments : List CommentLine)
    (lexemes : List Lexeme) :
    Yields NothingInMethods (structItem visibility comments lexemes) :=
  yields_structItemBody _ _ _ _

theorem yields_items {item : Visibility → List CommentLine → List Lexeme → Reading Declarations}
    (hitem : ∀ visibility comments, Consumes (item visibility comments))
    (hyields : ∀ visibility comments lexemes,
      Yields NothingInMethods (item visibility comments lexemes))
    (visibility : Visibility) (outer : List Visibility) (lexemes : List Lexeme) :
    Yields (fun read => NothingInMethods read.1) (items item hitem visibility outer lexemes) := by
  fun_induction items item hitem visibility outer lexemes with
  | case1 => exact .error
  | case2 => exact .ok .none
  -- A brace that closes a section and a section that opens store nothing
  | case3 _ _ _ _ _ _ ih => exact ih
  | case4 _ _ _ _ _ _ _ _ ih => exact ih
  | case5 => exact .error
  | case6 _ _ _ _ _ _ _ _ hread ih =>
    -- One item, and the items behind it
    exact ih.bind fun _ _ hmore => .ok ((hyields _ _ _ _ _ hread).append hmore)

theorem yields_struct (visibility : Visibility) (comments : List CommentLine) (keyword : Token)
    (lexemes : List Lexeme) :
    Yields (fun declared => declared.methodGlobals = [])
      (struct visibility comments keyword lexemes) := by
  refine .behind fun _ _ => ?_
  refine .behind fun _ _ => ?_
  refine .behind fun _ _ => ?_
  refine .behind fun _ _ => ?_
  refine (yields_items _ yields_structItem _ _ _).bind fun _ _ hinner => ?_
  exact .ok hinner.methods

theorem yields_plainItem (visibility : Visibility) (comments : List CommentLine)
    (lexemes : List Lexeme) :
    Yields NothingInMethods (plainItem visibility comments lexemes) := by
  unfold plainItem
  split
  · exact .error
  · split
    · exact .ok .none
    split
    · exact .error
    split
    · exact .error
    split
    · refine (yields_struct _ _ _ _).bind fun declared _ hstruct => .ok ⟨rfl, ?_, rfl⟩
      simp [hstruct]
    split
    · exact .behind fun _ _ => .ok ⟨rfl, rfl, rfl⟩
    split
    · exact .behind fun _ _ => .ok .none
    · exact .behind fun _ _ => .ok ⟨rfl, rfl, rfl⟩

theorem yields_library (comments : List CommentLine) (keyword : Token) (lexemes : List Lexeme) :
    Yields (fun declared => declared.structs.flatMap Struct.methodGlobals = [])
      (library comments keyword lexemes) := by
  refine .behind fun _ _ => ?_
  refine .behind fun _ _ => ?_
  refine .behind fun _ _ => ?_
  refine (yields_items _ (fun _ _ _ => yields_plainItem _ _ _) _ _ _).bind fun _ _ hinner => ?_
  exact .ok hinner.structs

theorem yields_topItemBody (visibility : Visibility) (comments : List CommentLine)
    (lexemes : List Lexeme) :
    Yields NothingInMethods (topItemBody visibility comments lexemes) := by
  unfold topItemBody
  split
  · exact yields_plainItem _ _ _
  · split
    · refine (yields_library _ _ _).bind fun declared _ hlibrary => .ok ⟨rfl, rfl, ?_⟩
      simp [hlibrary]
    · exact yields_plainItem _ _ _

theorem yields_topItem (comments : List CommentLine) (lexemes : List Lexeme) :
    Yields NothingInMethods (topItem comments lexemes) :=
  yields_topItemBody _ _ _

theorem nothingInMethods_of_declarations {lexemes : List Lexeme} {declared : Declarations}
    (h : declarations lexemes = .ok declared) : NothingInMethods declared := by
  fun_induction declarations lexemes generalizing declared with
  | case1 =>
    cases h
    exact .none
  | case2 => cases h
  | case3 lexeme behind first rest hread ih =>
    -- What one item stores, and what those behind it do
    cases hmore : declarations rest with
    | error e =>
      rw [hmore] at h
      cases h
    | ok more =>
      rw [hmore] at h
      cases h
      exact (yields_topItem _ _ _ _ hread).append (ih hmore)

/-- No method of a zinc program stores a variable. -/
theorem methodGlobals_of_parse {tokens : List Token} {program : Program}
    (h : parse tokens = .ok program) : program.methodGlobals = [] := by
  obtain ⟨declared, hread, rfl⟩ := declarations_of_parse h
  have hnothing := nothingInMethods_of_declarations hread
  rw [Program.methodGlobals, Program.allStructs, List.flatMap_append, List.flatMap_assoc]
  exact List.append_eq_nil_iff.2 ⟨hnothing.structs, hnothing.libraries⟩

end Zinc

namespace Document

/-- The programs of a text: the one outside of zinc blocks, and the same with the declarations of
the zinc blocks behind it, if they can be read. -/
def programs (document : Document) : List Program :=
  document.program ::
    match document.zincProgram with
    | .ok zinc => [document.program.merge zinc]
    | .error _ => []

/-- The variables of the globals blocks inside of methods. -/
def methodGlobals (document : Document) : List GlobalVariable :=
  Node.globalsUnder [.struct, .method, .globals] document.outline.nodes ++
    Node.globalsUnder [.library, .struct, .method, .globals] document.outline.nodes

/-- Both programs of a text store the same variables in methods. -/
theorem methodGlobals_of_mem_programs {document : Document} {program : Program}
    (h : program ∈ document.programs) : program.methodGlobals = document.methodGlobals := by
  have hprogram : document.program.methodGlobals = document.methodGlobals :=
    Program.methodGlobals_ofOutline document.source document.outline
  rw [programs] at h
  rcases List.mem_cons.1 h with rfl | hmerged
  · exact hprogram
  · split at hmerged
    · -- The zinc blocks can be read, and they add nothing
      next zinc hzinc =>
      rw [List.mem_singleton.1 hmerged, Program.methodGlobals_merge
        (Zinc.methodGlobals_of_parse hzinc), hprogram]
    · cases hmerged

/-- In every program of a text, a look-up by name finds each variable as often as it is stored
under the name, except for those of globals blocks inside of methods, and it finds nothing else. So
it finds all there is if and only if no globals block inside of a method declares the name. -/
theorem globalsNamed_perm (source : Nat) (limit? : Option Nat) (text : List Char) (name : String)
    (program : Program) (h : program ∈ (read source limit? text).programs) :
    (program.globalsNamed name ++
        Program.named GlobalVariable.toHeading name (read source limit? text).methodGlobals).Perm
      (Program.named GlobalVariable.toHeading name program.storedGlobals) ∧
    ((program.globalsNamed name).Perm
        (Program.named GlobalVariable.toHeading name program.storedGlobals) ↔
      ∀ v ∈ (read source limit? text).methodGlobals, v.name ≠ some name) := by
  rw [← methodGlobals_of_mem_programs h]
  exact ⟨program.globalsNamed_append_perm name, program.globalsNamed_perm_iff name⟩

/-- A variable in a method, and one of another name in a zinc block. -/
def countersText : List Char :=
  ("struct s\nmethod m\nglobals\ninteger misses\nendglobals\nendmethod\nendstruct\n" ++
    "//! zinc\ninteger hits;\n//! endzinc\n").toList

/-- The program of the zinc block. -/
def hitCounter : Program :=
  { Program.empty 0 with
    globals := [{ name := some "hits", comments := [], region := .onLine 8 0 12
                  visibility := .unmarked, isConstant := false, type := some "integer"
                  isArray := false }] }

theorem globalsNamed_perm_counters :
    (read 0 none countersText).program.merge hitCounter ∈ (read 0 none countersText).programs ∧
    (((read 0 none countersText).program.merge hitCounter).globalsNamed "hits").Perm
      (Program.named GlobalVariable.toHeading "hits"
        ((read 0 none countersText).program.merge hitCounter).storedGlobals) := by
  have hzinc : (read 0 none countersText).zincProgram = .ok hitCounter := by decide +kernel
  have hmem : (read 0 none countersText).program.merge hitCounter ∈
      (read 0 none countersText).programs := by
    simp [programs, hzinc]
  -- What the method stores has another name
  have hother : ∀ v ∈ (read 0 none countersText).methodGlobals, v.name ≠ some "hits" := by
    decide +kernel
  exact ⟨hmem, (globalsNamed_perm 0 none countersText "hits" _ hmem).2.2 hother⟩

/-- A variable in a method, and nothing else. -/
def methodCounterText : List Char :=
  ("struct s\nmethod m takes nothing returns nothing\nglobals\ninteger hits\nendglobals\n" ++
    "endmethod\nendstruct\n").toList

/-- The variable of the method is stored, and a look-up of its name finds nothing. -/
theorem globalsNamed_methodCounter :
    (read 0 none methodCounterText).program ∈ (read 0 none methodCounterText).programs ∧
    (Program.named GlobalVariable.toHeading "hits"
      (read 0 none methodCounterText).program.storedGlobals).length = 1 ∧
    (read 0 none methodCounterText).program.globalsNamed "hits" = [] := by
  decide +kernel

end Document

end JassOutline
