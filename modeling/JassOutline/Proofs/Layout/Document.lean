import JassOutline.Proofs.Layout.Declaration
import JassOutline.Proofs.Place.Attachment
import JassOutline.Proofs.Place.Document

/-!
# How the regions of a text nest

The lines of a text without invocations of macros follow each other, and so the regions of its
outline and of what it declares nest. Functions do not overlap, and a look-up by position finds the
one that there is. A macro that is invoked puts its own lines, with their places, among the others,
and all of this may fail then.

## Key results

- `Document.inOrder_outlined`: the lines that the outline is made of
- `Outline.regions_nest`: the outline and the program of lines that follow each other
-/

namespace JassOutline

/-- The regions of an outline nest. A block reaches from its opener to its closer or the last line,
its children lie within it, one above the other, and the region of the outline covers everything. -/
structure Outline.RegionsNest (outline : Outline) (lines : List SourceLine) : Prop where
  spansLines : ∀ b ∈ Node.blocksOfAll outline.nodes, b.SpansLines lines
  within : ∀ b ∈ Node.blocksOfAll outline.nodes,
    ∀ child ∈ b.children, child.region.Within b.region
  above : ∀ b ∈ Node.blocksOfAll outline.nodes,
    b.children.Pairwise fun child next => child.region.Above next.region
  outermostWithin : ∀ node ∈ outline.nodes, node.region.Within outline.region
  outermostAbove : outline.nodes.Pairwise fun node next => node.region.Above next.region

/-- The regions of a program nest. The parts of a declaration lie within it, functions do not
overlap, nor do methods, and what is found around a position is what there is. -/
structure Program.RegionsNest (program : Program) : Prop where
  natives : ∀ native ∈ program.natives, native.region.Holds native.parts
  functions : ∀ function ∈ program.allFunctions, function.region.Holds function.parts
  methods : ∀ method ∈ program.allMethods, method.region.Holds method.parts
  structs : ∀ struct ∈ program.allStructs, struct.region.Holds struct.parts
  libraries : ∀ library ∈ program.libraries, library.region.Holds library.parts
  functionsApart : program.allFunctions.Pairwise fun f g => f.region.Apart g.region
  methodsApart : program.allMethods.Pairwise fun m n => m.region.Apart n.region
  functionAt : ∀ p function, program.functionAt p = some function ↔
    function ∈ program.allFunctions ∧ function.region.contains p = true
  methodAt : ∀ p method, program.methodAt p = some method ↔
    method ∈ program.allMethods ∧ method.region.contains p = true

namespace Program

/-- Among declarations that do not overlap, the narrowest around a position is the only one. -/
theorem around?_eq_some_iff {heading : α → Heading} {p : Position} {declarations : List α}
    {declaration : α}
    (h : declarations.Pairwise fun a b => (heading a).region.Apart (heading b).region) :
    around? heading p declarations = some declaration ↔
      declaration ∈ declarations ∧ (heading declaration).region.contains p = true := by
  have hmem := @List.mem_filter _ (fun a => (heading a).region.contains p) declarations declaration
  have hapart := h.filter fun a => (heading a).region.contains p
  have hcontains : ∀ a ∈ declarations.filter fun a => (heading a).region.contains p,
      (heading a).region.contains p = true := fun a ha => (List.mem_filter.1 ha).2
  rw [around?, ← hmem]
  generalize declarations.filter (fun a => (heading a).region.contains p) = found at *
  match found with
  | [] => simp [narrowest?]
  | [only] => simp [narrowest?, eq_comm]
  | first :: second :: rest =>
    -- The position would lie in two regions that are apart
    have hfirst := (List.pairwise_cons.1 hapart).1 second (by simp)
    exact absurd ⟨hcontains first (by simp), hcontains second (by simp)⟩ (hfirst p)

variable (source : Nat) {declared : Declarations} {outer : Region}

/-! ### From collections to programs -/

theorem functions_of_isWithin (h : declared.IsWithin outer) :
    ∀ function ∈ (ofDeclarations source declared).allFunctions,
      function.region.Holds function.parts := by
  refine List.forall_mem_append.2 ⟨fun function hfunction => (h.functions function hfunction).2, ?_⟩
  intro function hfunction
  obtain ⟨library, hlibrary, hmem⟩ := List.mem_flatMap.1 hfunction
  exact (h.libraries library hlibrary).2.1 function hmem

theorem structs_of_isWithin (h : declared.IsWithin outer) :
    ∀ struct ∈ (ofDeclarations source declared).allStructs,
      struct.region.Holds struct.parts ∧
        ∀ method ∈ struct.methods, method.region.Holds method.parts := by
  refine List.forall_mem_append.2 ⟨fun struct hstruct => (h.structs struct hstruct).2, ?_⟩
  intro struct hstruct
  obtain ⟨library, hlibrary, hmem⟩ := List.mem_flatMap.1 hstruct
  exact (h.libraries library hlibrary).2.2 struct hmem

theorem methods_of_isWithin (h : declared.IsWithin outer) :
    ∀ method ∈ (ofDeclarations source declared).allMethods,
      method.region.Holds method.parts := by
  intro method hmethod
  obtain ⟨struct, hstruct, hmem⟩ := List.mem_flatMap.1 hmethod
  exact (structs_of_isWithin source h struct hstruct).2 method hmem

theorem functions_pairwise (h : declared.routines.Pairwise Region.Apart) :
    (ofDeclarations source declared).allFunctions.Pairwise fun f g =>
      f.region.Apart g.region := by
  refine List.pairwise_map.1 (h.sublist ?_)
  rw [Declarations.routines, ← List.map_append, List.append_assoc, List.append_assoc]
  exact List.sublist_append_left ..

theorem methods_pairwise (h : declared.routines.Pairwise Region.Apart) :
    (ofDeclarations source declared).allMethods.Pairwise fun m n => m.region.Apart n.region := by
  refine List.pairwise_map.1 (h.sublist ?_)
  rw [Declarations.routines, allMethods, allStructs, List.flatMap_append, List.map_append]
  refine List.Sublist.trans ?_ (List.sublist_append_left ..)
  exact (List.sublist_append_right ..).append (List.Sublist.refl _)

/-- What a tree declares, if the regions of the tree nest. -/
theorem regionsNest_ofOutline {outline : Outline} (h : Node.Nested outline.nodes) :
    (ofOutline source outline).RegionsNest := by
  have hwithin := Declarations.isWithin_ofNodes h .program false [] h.within_regionOfAll
  have hapart := (Declarations.spread_routines_ofNodes h .program false []).apart
  have hfunctions := functions_pairwise source hapart
  have hmethods := methods_pairwise source hapart
  exact {
    natives := hwithin.natives
    functions := functions_of_isWithin source hwithin
    methods := methods_of_isWithin source hwithin
    structs := fun struct hstruct => (structs_of_isWithin source hwithin struct hstruct).1
    libraries := fun library hlibrary => (hwithin.libraries library hlibrary).1
    functionsApart := hfunctions
    methodsApart := hmethods
    functionAt := fun p function => around?_eq_some_iff hfunctions
    methodAt := fun p method => around?_eq_some_iff hmethods }

end Program

/-- The outline of lines that follow each other. -/
theorem Outline.regionsNest_build (source : Nat) {lines : List SourceLine}
    (h : SourceLine.InOrder lines) : (build source lines).1.RegionsNest lines := by
  have hfills := fillsToEnd_build source lines
  have hnested := hfills.nested h
  exact {
    spansLines := fun b hb => hfills.spansLines h hb []
    within := fun b hb => (hnested.block_children b hb).1
    above := fun b hb => (hnested.block_children b hb).2
    outermostWithin := hnested.within_regionOfAll
    outermostAbove := hnested.pairwise }

/-! ### The lines of a text -/

theorem SourceLine.fitsText_of_mem_numbered {line offset : Nat} {texts : List (List Char)}
    {record : SourceLine} (h : record ∈ numbered line offset texts) : record.FitsText := by
  induction texts generalizing line offset with
  | nil => simp [numbered] at h
  | cons text rest ih =>
    rcases List.mem_cons.1 h with rfl | hrest
    · exact fitsText_ofChars text line offset
    · exact ih hrest

namespace Document

variable (source : Nat) (limit? : Option Nat) (text : List Char)

/-- Every line that the outline is made of fits its text, if it comes from a macro as well. -/
theorem fitsText_of_mem_outlined {record : SourceLine}
    (h : record ∈ (read source limit? text).outlined) : record.FitsText := by
  have hexpanded : record ∈ (read source limit? text).expanded :=
    ZincBlock.extract_sublist.subset h
  have hlines : record ∈ (read source limit? text).lines := by
    simp [lines, hexpanded]
  rcases (comes_read source limit? text).1 record hlines with hsegment | hmacro
  · exact SourceLine.fitsText_of_mem_numbered hsegment
  · obtain ⟨definition, hdefinition, line, hline, changed, rfl⟩ := hmacro
    have hbody := mem_segment_of_mem_body source limit? text hdefinition hline
    exact (SourceLine.fitsText_of_mem_numbered hbody).withText changed

/-- Without invocations of macros the lines of the outline follow each other. -/
theorem inOrder_outlined
    (h : ∀ record ∈ SourceLine.segment (BlockComment.blank text),
      Directive.ofLine? record ≠ some .macroRun) :
    SourceLine.InOrder (read source limit? text).outlined where
  increasing := (SourceLine.pairwise_numbered 0 0 _).1.sublist (sublist_outlined limit? h)
  fits := fun _ => fitsText_of_mem_outlined source limit? text

end Document

/-- If the lines of a stream follow each other in the source, the regions of its outline and of what
it declares nest. The lines of a text without invocations of macros do, so for such a text this is
true of its outline and of its program. -/
theorem Outline.regions_nest (source : Nat) :
    (∀ lines, SourceLine.InOrder lines → (build source lines).1.RegionsNest lines ∧
      (Program.ofOutline source (build source lines).1).RegionsNest) ∧
    ∀ limit? text,
      (∀ record ∈ SourceLine.segment (BlockComment.blank text),
        Directive.ofLine? record ≠ some .macroRun) →
      SourceLine.InOrder (Document.read source limit? text).outlined ∧
      (Document.read source limit? text).outline.RegionsNest
        (Document.read source limit? text).outlined ∧
      (Document.read source limit? text).program.RegionsNest := by
  have hbuild : ∀ lines, SourceLine.InOrder lines →
      (build source lines).1.RegionsNest lines ∧
        (Program.ofOutline source (build source lines).1).RegionsNest := fun lines h =>
    ⟨regionsNest_build source h,
      Program.regionsNest_ofOutline source ((fillsToEnd_build source lines).nested h)⟩
  refine ⟨hbuild, fun limit? text h => ?_⟩
  have horder := Document.inOrder_outlined source limit? text h
  exact ⟨horder, hbuild _ horder⟩

/-- A function with a block of global variables inside, and a function that nothing closes. -/
def nestedText : List Char :=
  ("function f takes unit u\nglobals\nreal g\nendglobals\nendfunction\n" ++
    "function h\n local real k").toList

/-- The regions of a text in which one function follows another, and what surrounds a position. -/
theorem Outline.regions_nest_text :
    (∀ record ∈ SourceLine.segment (BlockComment.blank nestedText),
      Directive.ofLine? record ≠ some .macroRun) ∧
    (Document.read 0 none nestedText).program.allFunctions.map (fun f => (f.name, f.region)) =
      [(some "f", ⟨⟨0, 0⟩, ⟨4, 12⟩⟩), (some "h", ⟨⟨5, 0⟩, ⟨6, 13⟩⟩)] ∧
    ((Document.read 0 none nestedText).program.functionAt ⟨2, 4⟩).bind (·.name) = some "f" ∧
    ((Document.read 0 none nestedText).outline.RegionsNest
        (Document.read 0 none nestedText).outlined ∧
      (Document.read 0 none nestedText).program.RegionsNest) ∧
    (build 0 (Document.read 0 none nestedText).outlined).1.RegionsNest
      (Document.read 0 none nestedText).outlined := by
  have hruns : ∀ record ∈ SourceLine.segment (BlockComment.blank nestedText),
      Directive.ofLine? record ≠ some .macroRun := by decide +kernel
  have hread := (regions_nest 0).2 none nestedText hruns
  exact ⟨hruns, by decide +kernel, by decide +kernel, hread.2, ((regions_nest 0).1 _ hread.1).1⟩

end JassOutline
