import JassOutline.Proofs.Place.Stages
import Mathlib.Data.List.Forall2

/-!
# Two streams parted side by side

Two streams are paired line by line, by a relation that lines with the same directive fulfil. A
stage that parts a stream looks at its directives only. It parts both streams at the same places and
finds the same problems, and what it parts them into is paired again.

## Key results

- `MacroTable.extract_pairs`: the definitions of macros of both streams
- `ZincBlock.extract_pairs`: the zinc blocks of both streams
-/

namespace JassOutline

/-- Lines that are paired hold the same directive. -/
def KeepsDirectives (R : SourceLine → SourceLine → Prop) : Prop :=
  ∀ record record', R record record' → Directive.ofLine? record' = Directive.ofLine? record

variable {R : SourceLine → SourceLine → Prop} {record record' : SourceLine}
  {lines lines' : List SourceLine} {source : Nat}

section

variable {p : SourceLine → Bool} (hp : ∀ record record', R record record' → p record' = p record)

include hp

theorem forall₂_takeWhile (h : List.Forall₂ R lines lines') :
    List.Forall₂ R (lines.takeWhile p) (lines'.takeWhile p) := by
  induction h with
  | nil => exact .nil
  | @cons record record' _ _ hrecord _ ih =>
    rw [List.takeWhile_cons, List.takeWhile_cons, hp _ _ hrecord]
    split
    · exact .cons hrecord ih
    · exact .nil

theorem forall₂_dropWhile (h : List.Forall₂ R lines lines') :
    List.Forall₂ R (lines.dropWhile p) (lines'.dropWhile p) := by
  induction h with
  | nil => exact .nil
  | @cons record record' _ _ hrecord hrest ih =>
    rw [List.dropWhile_cons, List.dropWhile_cons, hp _ _ hrecord]
    split
    · exact ih
    · exact .cons hrecord hrest

theorem forall₂_filter (h : List.Forall₂ R lines lines') :
    List.Forall₂ R (lines.filter p) (lines'.filter p) :=
  List.rel_filter (fun _ _ hrecord => by simp only [hp _ _ hrecord]) h

end

/-! ### Definitions of macros -/

namespace MacroTable

section

variable {known : List String} {rest later : List SourceLine} {closer : SourceLine}

/-- Nothing ends the definition. -/
theorem extractFrom_unended (h : Directive.ofLine? record = some .macroStart)
    (hstop : rest.dropWhile (!isBoundary ·) = []) :
    extractFrom source known (record :: rest) =
      let body := rest.takeWhile (!isBoundary ·)
      let definition := definition? record body (lastStop record body)
      ⟨⟨definition.toList⟩, [], namelessWarnings source record definition ++
        .onLine .macroNeverClosed record source ::
          duplicateWarnings source record known definition⟩ := by
  rw [extractFrom, h]
  dsimp only
  split
  · rfl
  · next hcons => simp [hstop] at hcons

/-- The definition is closed. -/
theorem extractFrom_closed (h : Directive.ofLine? record = some .macroStart)
    (hstop : rest.dropWhile (!isBoundary ·) = closer :: later)
    (hend : Directive.ofLine? closer = some .macroEnd) :
    extractFrom source known (record :: rest) =
      let definition := definition? record (rest.takeWhile (!isBoundary ·)) closer.region.stop
      let next := extractFrom source (known ++ (definition.map TextMacro.name).toList) later
      ⟨⟨definition.toList ++ next.table.macros⟩, next.remaining,
        namelessWarnings source record definition ++
          duplicateWarnings source record known definition ++ next.warnings⟩ := by
  rw [extractFrom, h]
  dsimp only
  split
  · next hnil => simp [hstop] at hnil
  · next hcons =>
    obtain ⟨rfl, rfl⟩ := List.cons.inj (hcons.symm.trans hstop)
    rw [if_pos hend]

/-- The next definition ends this one. -/
theorem extractFrom_reopened (h : Directive.ofLine? record = some .macroStart)
    (hstop : rest.dropWhile (!isBoundary ·) = closer :: later)
    (hend : Directive.ofLine? closer ≠ some .macroEnd) :
    extractFrom source known (record :: rest) =
      let body := rest.takeWhile (!isBoundary ·)
      let definition := definition? record body (lastStop record body)
      let next :=
        extractFrom source (known ++ (definition.map TextMacro.name).toList) (closer :: later)
      ⟨⟨definition.toList ++ next.table.macros⟩, next.remaining,
        namelessWarnings source record definition ++
          .onLine .macroOpenAtNext record source ::
            (duplicateWarnings source record known definition ++ next.warnings)⟩ := by
  rw [extractFrom, h]
  dsimp only
  split
  · next hnil => simp [hstop] at hnil
  · next hcons =>
    obtain ⟨rfl, rfl⟩ := List.cons.inj (hcons.symm.trans hstop)
    rw [if_neg hend]

theorem extractFrom_end (h : Directive.ofLine? record = some .macroEnd) :
    extractFrom source known (record :: rest) =
      let next := extractFrom source known rest
      { next with warnings := .onLine .macroEndUnmatched record source :: next.warnings } := by
  rw [extractFrom, h]

theorem extractFrom_line (hstart : Directive.ofLine? record ≠ some .macroStart)
    (hend : Directive.ofLine? record ≠ some .macroEnd) :
    extractFrom source known (record :: rest) =
      let next := extractFrom source known rest
      { next with remaining := record :: next.remaining } := by
  rw [extractFrom]
  split
  · next h => exact absurd h hstart
  · next h => exact absurd h hend
  · rfl

end

end MacroTable

/-- Two definitions of the same name and parameters, whose lines are paired. -/
structure TextMacro.Pairs (R : SourceLine → SourceLine → Prop)
    (definition definition' : TextMacro) : Prop where
  name : definition'.name = definition.name
  parameters : definition'.parameters = definition.parameters
  body : List.Forall₂ R definition.body definition'.body

theorem TextMacro.Pairs.imp {S : SourceLine → SourceLine → Prop}
    {definition definition' : TextMacro} (h : Pairs R definition definition')
    (himp : ∀ record record', R record record' → S record record') :
    Pairs S definition definition' :=
  ⟨h.name, h.parameters, h.body.imp himp⟩

/-- Definitions that are paired have the same names and parameters. -/
theorem TextMacro.signatures_eq {macros macros' : List TextMacro}
    (h : List.Forall₂ (Pairs R) macros macros') :
    macros'.map (fun definition => (definition.name, definition.parameters)) =
      macros.map (fun definition => (definition.name, definition.parameters)) := by
  induction h with
  | nil => rfl
  | cons hdefinition _ ih =>
    rw [List.map_cons, List.map_cons, ih, hdefinition.name, hdefinition.parameters]

namespace MacroTable

/-- Two streams are parted into definitions and lines that are paired, with the same problems. -/
structure Extraction.Pairs (R : SourceLine → SourceLine → Prop)
    (extraction extraction' : Extraction) : Prop where
  macros : List.Forall₂ (TextMacro.Pairs R) extraction.table.macros extraction'.table.macros
  remaining : List.Forall₂ R extraction.remaining extraction'.remaining
  problems : extraction'.warnings.map Warning.problem = extraction.warnings.map Warning.problem

theorem isBoundary_eq (hdirective : Directive.ofLine? record' = Directive.ofLine? record) :
    isBoundary record' = isBoundary record := by
  rw [isBoundary, isBoundary, hdirective]

section

theorem definition?_pairs {header header' : SourceLine} {body body' : List SourceLine}
    (hsignature : TextMacro.signature? header' = TextMacro.signature? header)
    (hbody : List.Forall₂ R body body') (stop stop' : Position) :
    Option.Rel (TextMacro.Pairs R) (definition? header body stop)
      (definition? header' body' stop') := by
  rw [definition?, definition?, hsignature]
  cases TextMacro.signature? header with
  | none => exact .none
  | some signature => exact .some ⟨rfl, rfl, hbody⟩

variable {definition? definition?' : Option TextMacro}
  (h : Option.Rel (TextMacro.Pairs R) definition? definition?')

include h

theorem forall₂_toList :
    List.Forall₂ (TextMacro.Pairs R) definition?.toList definition?'.toList := by
  cases h with
  | some hpairs => exact .cons hpairs .nil
  | none => exact .nil

theorem names_eq : definition?'.map TextMacro.name = definition?.map TextMacro.name := by
  cases h with
  | some hpairs => rw [Option.map_some, Option.map_some, hpairs.name]
  | none => rfl

theorem problems_namelessWarnings (header header' : SourceLine) :
    (namelessWarnings source header' definition?').map Warning.problem =
      (namelessWarnings source header definition?).map Warning.problem := by
  cases h <;> rfl

theorem problems_duplicateWarnings (header header' : SourceLine) (known : List String) :
    (duplicateWarnings source header' known definition?').map Warning.problem =
      (duplicateWarnings source header known definition?).map Warning.problem := by
  cases h with
  | some hpairs =>
    rw [duplicateWarnings, duplicateWarnings, hpairs.name]
    split <;> rfl
  | none => rfl

end

/-- Both streams are parted at the same places. -/
theorem extractFrom_pairs (hdirective : KeepsDirectives R)
    (hsignature : ∀ record record', R record record' →
      Directive.ofLine? record = some .macroStart →
        TextMacro.signature? record' = TextMacro.signature? record)
    (known : List String) :
    ∀ lines', List.Forall₂ R lines lines' →
      (extractFrom source known lines).Pairs R (extractFrom source known lines') := by
  have hboundary : ∀ record record', R record record' →
      (!isBoundary record') = !isBoundary record := fun _ _ h => by
    rw [isBoundary_eq (hdirective _ _ h)]
  -- The induction follows the first stream; at each line the paired one takes the same branch,
  -- since its directive is the same
  fun_induction extractFrom source known lines with
  | case1 =>
    -- No lines
    intro lines' h
    obtain rfl := List.forall₂_nil_left_iff.1 h
    rw [extractFrom]
    exact ⟨.nil, .nil, rfl⟩
  | case2 known record rest hstart body hstop definition =>
    -- Nothing ends the definition: all further lines are its body in both streams
    intro lines' h
    obtain ⟨record', rest', hrecord, hrest, rfl⟩ := List.forall₂_cons_left_iff.1 h
    have hstop' := forall₂_dropWhile hboundary hrest
    rw [hstop, List.forall₂_nil_left_iff] at hstop'
    have hdefinition := definition?_pairs (hsignature _ _ hrecord hstart)
      (forall₂_takeWhile hboundary hrest) (lastStop record body)
      (lastStop record' (rest'.takeWhile (!isBoundary ·)))
    rw [extractFrom_unended ((hdirective _ _ hrecord).trans hstart) hstop']
    refine ⟨forall₂_toList hdefinition, .nil, ?_⟩
    simp only [List.map_append, List.map_cons, problems_namelessWarnings hdefinition record record',
      problems_duplicateWarnings hdefinition record record', Warning.onLine, definition, body]
  | case3 known record rest hstart body closer later hstop hend definition next ih =>
    -- The next boundary closes the definition
    intro lines' h
    obtain ⟨record', rest', hrecord, hrest, rfl⟩ := List.forall₂_cons_left_iff.1 h
    have hstop' := forall₂_dropWhile hboundary hrest
    rw [hstop, List.forall₂_cons_left_iff] at hstop'
    obtain ⟨closer', later', hcloser, hlater, hstop'⟩ := hstop'
    have hdefinition := definition?_pairs (hsignature _ _ hrecord hstart)
      (forall₂_takeWhile hboundary hrest) closer.region.stop closer'.region.stop
    -- Behind the line that closes the definition both go on with the same names
    have hnext := ih _ hlater
    rw [extractFrom_closed ((hdirective _ _ hrecord).trans hstart) hstop'
      ((hdirective _ _ hcloser).trans hend)]
    simp only [names_eq hdefinition]
    refine ⟨List.rel_append (forall₂_toList hdefinition) hnext.macros, hnext.remaining, ?_⟩
    simp only [List.map_append, problems_namelessWarnings hdefinition record record',
      problems_duplicateWarnings hdefinition record record', hnext.problems, next, definition, body]
  | case4 known record rest hstart body closer later hstop hend definition next ih =>
    -- The next boundary is a header, and the definition ends in front of it
    intro lines' h
    obtain ⟨record', rest', hrecord, hrest, rfl⟩ := List.forall₂_cons_left_iff.1 h
    have hstop' := forall₂_dropWhile hboundary hrest
    rw [hstop, List.forall₂_cons_left_iff] at hstop'
    obtain ⟨closer', later', hcloser, hlater, hstop'⟩ := hstop'
    have hdefinition := definition?_pairs (hsignature _ _ hrecord hstart)
      (forall₂_takeWhile hboundary hrest) (lastStop record body)
      (lastStop record' (rest'.takeWhile (!isBoundary ·)))
    -- The line that opens the next definition is read again by both
    have hnext := ih _ (.cons hcloser hlater)
    rw [extractFrom_reopened ((hdirective _ _ hrecord).trans hstart) hstop'
      (hdirective _ _ hcloser ▸ hend)]
    simp only [names_eq hdefinition]
    refine ⟨List.rel_append (forall₂_toList hdefinition) hnext.macros, hnext.remaining, ?_⟩
    simp only [List.map_append, List.map_cons, problems_namelessWarnings hdefinition record record',
      problems_duplicateWarnings hdefinition record record', hnext.problems, Warning.onLine, next,
      definition, body]
  | case5 known record rest hend next ih =>
    -- A closing line that closes nothing
    intro lines' h
    obtain ⟨record', rest', hrecord, hrest, rfl⟩ := List.forall₂_cons_left_iff.1 h
    have hnext := ih _ hrest
    rw [extractFrom_end ((hdirective _ _ hrecord).trans hend)]
    exact ⟨hnext.macros, hnext.remaining,
      congrArg (Problem.macroEndUnmatched :: ·) hnext.problems⟩
  | case6 known record rest next hstart hend ih =>
    -- A line outside every definition remains
    intro lines' h
    obtain ⟨record', rest', hrecord, hrest, rfl⟩ := List.forall₂_cons_left_iff.1 h
    have hnext := ih _ hrest
    rw [extractFrom_line (hdirective _ _ hrecord ▸ hstart) (hdirective _ _ hrecord ▸ hend)]
    exact ⟨hnext.macros, .cons hrecord hnext.remaining, hnext.problems⟩

theorem extract_pairs (hdirective : KeepsDirectives R)
    (hsignature : ∀ record record', R record record' →
      Directive.ofLine? record = some .macroStart →
        TextMacro.signature? record' = TextMacro.signature? record)
    (h : List.Forall₂ R lines lines') :
    (extract source lines).Pairs R (extract source lines') :=
  extractFrom_pairs hdirective hsignature [] _ h

end MacroTable

/-! ### Zinc blocks -/

namespace ZincBlock

/-- Two streams are parted into blocks and lines that are paired, with the same problems. -/
structure Extraction.Pairs (R : SourceLine → SourceLine → Prop)
    (extraction extraction' : Extraction) : Prop where
  blocks : List.Forall₂ (fun b b' => List.Forall₂ R b.lines b'.lines) extraction.blocks
    extraction'.blocks
  remaining : List.Forall₂ R extraction.remaining extraction'.remaining
  problems : extraction'.warnings.map Warning.problem = extraction.warnings.map Warning.problem

section

variable {rest later : List SourceLine} {closer : SourceLine}

theorem extract_unended (h : Directive.ofLine? record = some .zincStart)
    (hstop : rest.dropWhile (!isDirective .zincEnd ·) = []) :
    extract source (record :: rest) =
      let inside := rest.takeWhile (!isDirective .zincEnd ·)
      ⟨[ofInside record inside false (inside.getLastD record).region.stop], [],
        nestedWarnings source inside ++ [.onLine .zincNeverClosed record source]⟩ := by
  rw [extract, h]
  dsimp only
  split
  · rfl
  · next hcons => simp [hstop] at hcons

theorem extract_closed (h : Directive.ofLine? record = some .zincStart)
    (hstop : rest.dropWhile (!isDirective .zincEnd ·) = closer :: later) :
    extract source (record :: rest) =
      let inside := rest.takeWhile (!isDirective .zincEnd ·)
      let next := extract source later
      ⟨ofInside record inside true closer.region.stop :: next.blocks, next.remaining,
        nestedWarnings source inside ++ next.warnings⟩ := by
  rw [extract, h]
  dsimp only
  split
  · next hnil => simp [hstop] at hnil
  · next hcons =>
    obtain ⟨rfl, rfl⟩ := List.cons.inj (hcons.symm.trans hstop)
    rfl

theorem extract_end (h : Directive.ofLine? record = some .zincEnd) :
    extract source (record :: rest) =
      let next := extract source rest
      { next with warnings := .onLine .zincEndUnmatched record source :: next.warnings } := by
  rw [extract, h]

theorem extract_line (hstart : Directive.ofLine? record ≠ some .zincStart)
    (hend : Directive.ofLine? record ≠ some .zincEnd) :
    extract source (record :: rest) =
      let next := extract source rest
      { next with remaining := record :: next.remaining } := by
  rw [extract]
  split
  · next h => exact absurd h hstart
  · next h => exact absurd h hend
  · rfl

end

theorem isDirective_eq (hdirective : KeepsDirectives R) (directive : Directive) :
    ∀ record record', R record record' →
      isDirective directive record' = isDirective directive record := fun _ _ h => by
  rw [isDirective, isDirective, hdirective _ _ h]

theorem problems_nestedWarnings (hdirective : KeepsDirectives R) {inside inside' : List SourceLine}
    (h : List.Forall₂ R inside inside') :
    (nestedWarnings source inside').map Warning.problem =
      (nestedWarnings source inside).map Warning.problem := by
  have hnested := forall₂_filter (isDirective_eq hdirective .zincStart) h
  have hconst : ∀ lines : List SourceLine,
      (lines.map fun record => Warning.onLine .zincNested record source).map Warning.problem =
        List.replicate lines.length .zincNested := fun lines => by
    rw [List.map_map]
    exact List.map_const'
  rw [nestedWarnings, nestedWarnings, hconst, hconst, hnested.length_eq]

/-- Both streams are parted at the same places. -/
theorem extract_pairs (hdirective : KeepsDirectives R) :
    ∀ lines', List.Forall₂ R lines lines' →
      (extract source lines).Pairs R (extract source lines') := by
  have hclosed : ∀ record record', R record record' →
      (!isDirective .zincEnd record') = !isDirective .zincEnd record := fun _ _ h => by
    rw [isDirective_eq hdirective _ _ _ h]
  have hopened : ∀ record record', R record record' →
      (!isDirective .zincStart record') = !isDirective .zincStart record := fun _ _ h => by
    rw [isDirective_eq hdirective _ _ _ h]
  fun_induction extract source lines with
  | case1 =>
    -- No lines
    intro lines' h
    obtain rfl := List.forall₂_nil_left_iff.1 h
    rw [extract]
    exact ⟨.nil, .nil, rfl⟩
  | case2 record rest hstart inside hstop =>
    -- Nothing closes the block
    intro lines' h
    obtain ⟨record', rest', hrecord, hrest, rfl⟩ := List.forall₂_cons_left_iff.1 h
    have hinside := forall₂_takeWhile hclosed hrest
    have hstop' := forall₂_dropWhile hclosed hrest
    rw [hstop, List.forall₂_nil_left_iff] at hstop'
    rw [extract_unended ((hdirective _ _ hrecord).trans hstart) hstop']
    refine ⟨.cons (forall₂_filter hopened hinside) .nil, .nil, ?_⟩
    simp only [List.map_append, problems_nestedWarnings hdirective hinside, inside]
    rfl
  | case3 record rest hstart inside closer later hstop next ih =>
    -- The block up to the line that closes it
    intro lines' h
    obtain ⟨record', rest', hrecord, hrest, rfl⟩ := List.forall₂_cons_left_iff.1 h
    have hinside := forall₂_takeWhile hclosed hrest
    have hstop' := forall₂_dropWhile hclosed hrest
    rw [hstop, List.forall₂_cons_left_iff] at hstop'
    obtain ⟨closer', later', hcloser, hlater, hstop'⟩ := hstop'
    have hnext := ih _ hlater
    rw [extract_closed ((hdirective _ _ hrecord).trans hstart) hstop']
    refine ⟨.cons (forall₂_filter hopened hinside) hnext.blocks, hnext.remaining, ?_⟩
    simp only [List.map_append, problems_nestedWarnings hdirective hinside, hnext.problems, next,
      inside]
  | case4 record rest hend next ih =>
    -- A closing line that closes nothing
    intro lines' h
    obtain ⟨record', rest', hrecord, hrest, rfl⟩ := List.forall₂_cons_left_iff.1 h
    have hnext := ih _ hrest
    rw [extract_end ((hdirective _ _ hrecord).trans hend)]
    exact ⟨hnext.blocks, hnext.remaining,
      congrArg (Problem.zincEndUnmatched :: ·) hnext.problems⟩
  | case5 record rest next hstart hend ih =>
    -- A line outside every block remains
    intro lines' h
    obtain ⟨record', rest', hrecord, hrest, rfl⟩ := List.forall₂_cons_left_iff.1 h
    have hnext := ih _ hrest
    rw [extract_line (hdirective _ _ hrecord ▸ hstart) (hdirective _ _ hrecord ▸ hend)]
    exact ⟨hnext.blocks, .cons hrecord hnext.remaining, hnext.problems⟩

end ZincBlock

end JassOutline
