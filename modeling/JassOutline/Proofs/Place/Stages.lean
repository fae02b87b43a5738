import JassOutline.Document
import JassOutline.Proofs.Expansion.Pieces
import JassOutline.Proofs.Outline.Diagnostics

/-!
# Where the lines of each stage come from

No stage makes up a line. What a stage passes on, keeps or warns about are lines of the stream it
reads, and the expansion of macros changes only the text of a line of a macro. A property of lines
that does not depend on their text therefore passes through all stages.

## Key results

- `MacroTable.extract_forall`, `ZincBlock.extract_forall`, `Outline.build_forall`: the stages that
  part a stream
- `Expansion.forall_run`: what an invocation produces and warns about
- `Expansion.mem_of_passed`, `Expansion.fromMacro_of_produced`, `Expansion.expand_forall`: the lines
  of an expanded stream
-/

namespace JassOutline

/-- The warning points at a line with the property. -/
def Warning.PointsAt (P : SourceLine → Prop) (source : Nat) (warning : Warning) : Prop :=
  ∃ record, P record ∧ warning = .onLine warning.problem record source

theorem Warning.pointsAt_onLine {P : SourceLine → Prop} {record : SourceLine} (h : P record)
    (problem : Problem) (source : Nat) : (onLine problem record source).PointsAt P source :=
  ⟨record, h, rfl⟩

variable {P : SourceLine → Prop} {source : Nat} {lines : List SourceLine}

/-! ### Cutting a stream

A definition and a zinc block reach from the line that opens them to the first line of some kind. -/

theorem forall_mem_takeWhile {record : SourceLine} {rest : List SourceLine}
    (h : ∀ line ∈ record :: rest, P line) (p : SourceLine → Bool) :
    ∀ line ∈ rest.takeWhile p, P line := fun line hline =>
  h line (List.mem_cons_of_mem _ ((List.takeWhile_prefix p).subset hline))

theorem forall_mem_of_dropWhile {record : SourceLine} {rest later : List SourceLine}
    (h : ∀ line ∈ record :: rest, P line) {p : SourceLine → Bool}
    (hlater : rest.dropWhile p = later) : ∀ line ∈ later, P line := fun line hline =>
  h line (List.mem_cons_of_mem _ ((List.dropWhile_suffix p).subset (hlater ▸ hline)))

/-! ### Definitions of macros -/

namespace MacroTable

/-- Every line of the extraction has the property. -/
structure Extraction.Forall (P : SourceLine → Prop) (source : Nat) (extraction : Extraction) :
    Prop where
  body : ∀ definition ∈ extraction.table.macros, ∀ record ∈ definition.body, P record
  remaining : ∀ record ∈ extraction.remaining, P record
  warnings : ∀ warning ∈ extraction.warnings, warning.PointsAt P source

theorem Extraction.forall_empty : (⟨⟨[]⟩, [], []⟩ : Extraction).Forall P source :=
  ⟨by simp, by simp, by simp⟩

/-- A definition in front of what follows it. -/
theorem Extraction.Forall.define {next : Extraction} (hnext : next.Forall P source)
    (header : SourceLine) {body : List SourceLine} (hbody : ∀ record ∈ body, P record)
    (stop : Position) {warnings : List Warning}
    (hwarnings : ∀ warning ∈ warnings, warning.PointsAt P source) :
    Extraction.Forall P source
      ⟨⟨(definition? header body stop).toList ++ next.table.macros⟩, next.remaining, warnings⟩ := by
  refine ⟨?_, hnext.remaining, hwarnings⟩
  intro definition hdefinition record hrecord
  rcases List.mem_append.1 hdefinition with hdefinition | hdefinition
  · obtain ⟨signature, -, rfl⟩ :=
      Option.map_eq_some_iff.1 (Option.mem_toList.1 hdefinition)
    exact hbody record hrecord
  · exact hnext.body definition hdefinition record hrecord

theorem namelessWarnings_pointsAt {header : SourceLine} (h : P header)
    (definition? : Option TextMacro) :
    ∀ warning ∈ namelessWarnings source header definition?, warning.PointsAt P source := by
  unfold namelessWarnings
  split
  · exact List.forall_mem_singleton.2 (Warning.pointsAt_onLine h ..)
  · simp

theorem duplicateWarnings_pointsAt {header : SourceLine} (h : P header) (known : List String)
    (definition? : Option TextMacro) :
    ∀ warning ∈ duplicateWarnings source header known definition?, warning.PointsAt P source := by
  unfold duplicateWarnings
  split
  · simp
  · split
    · exact List.forall_mem_singleton.2 (Warning.pointsAt_onLine h ..)
    · simp

theorem extractFrom_forall (h : ∀ record ∈ lines, P record) (known : List String) :
    (extractFrom source known lines).Forall P source := by
  fun_induction extractFrom source known lines with
  | case1 => exact Extraction.forall_empty
  | case2 known record rest _ body hstop definition =>
    -- Nothing ends the definition: it holds all further lines
    have hrecord := h record List.mem_cons_self
    have hbody : ∀ line ∈ body, P line := forall_mem_takeWhile h _
    have hwarnings := List.forall_mem_append.2
      ⟨namelessWarnings_pointsAt hrecord definition, List.forall_mem_cons.2
        ⟨Warning.pointsAt_onLine hrecord .macroNeverClosed source,
          duplicateWarnings_pointsAt hrecord known definition⟩⟩
    simpa using Extraction.forall_empty.define record hbody (lastStop record body) hwarnings
  | case3 known record rest _ body closer later hstop _ definition next ih =>
    -- The line that ends the definition is used up
    have hrecord := h record List.mem_cons_self
    have hbody : ∀ line ∈ body, P line := forall_mem_takeWhile h _
    have hnext := ih (List.forall_mem_cons.1 (forall_mem_of_dropWhile h hstop)).2
    exact hnext.define record hbody _ (List.forall_mem_append.2 ⟨List.forall_mem_append.2
      ⟨namelessWarnings_pointsAt hrecord definition,
        duplicateWarnings_pointsAt hrecord known definition⟩, hnext.warnings⟩)
  | case4 known record rest _ body closer later hstop _ definition next ih =>
    -- The line that ends the definition is read again
    have hrecord := h record List.mem_cons_self
    have hbody : ∀ line ∈ body, P line := forall_mem_takeWhile h _
    have hnext := ih (forall_mem_of_dropWhile h hstop)
    exact hnext.define record hbody _ (List.forall_mem_append.2
      ⟨namelessWarnings_pointsAt hrecord definition, List.forall_mem_cons.2
        ⟨Warning.pointsAt_onLine hrecord .macroOpenAtNext source, List.forall_mem_append.2
          ⟨duplicateWarnings_pointsAt hrecord known definition, hnext.warnings⟩⟩⟩)
  | case5 known record rest _ next ih =>
    -- The warning points at the stray line itself
    obtain ⟨hrecord, hrest⟩ := List.forall_mem_cons.1 h
    have hnext := ih hrest
    exact ⟨hnext.body, hnext.remaining,
      List.forall_mem_cons.2 ⟨Warning.pointsAt_onLine hrecord .., hnext.warnings⟩⟩
  | case6 known record rest next _ _ ih =>
    -- An ordinary line remains
    obtain ⟨hrecord, hrest⟩ := List.forall_mem_cons.1 h
    have hnext := ih hrest
    exact ⟨hnext.body, List.forall_mem_cons.2 ⟨hrecord, hnext.remaining⟩, hnext.warnings⟩

/-- Taking out definitions, lines of the stream become lines of macros or remain. -/
theorem extract_forall (h : ∀ record ∈ lines, P record) :
    (extract source lines).Forall P source :=
  extractFrom_forall h []

end MacroTable

/-! ### Zinc blocks -/

namespace ZincBlock

/-- Every line of the extraction has the property. -/
structure Extraction.Forall (P : SourceLine → Prop) (source : Nat) (extraction : Extraction) :
    Prop where
  lines : ∀ b ∈ extraction.blocks, ∀ record ∈ b.lines, P record
  remaining : ∀ record ∈ extraction.remaining, P record
  warnings : ∀ warning ∈ extraction.warnings, warning.PointsAt P source

theorem nestedWarnings_pointsAt {inside : List SourceLine} (h : ∀ record ∈ inside, P record) :
    ∀ warning ∈ nestedWarnings source inside, warning.PointsAt P source := by
  intro warning hwarning
  obtain ⟨record, hrecord, rfl⟩ := List.mem_map.1 hwarning
  exact Warning.pointsAt_onLine (h record (List.mem_filter.1 hrecord).1) ..

/-- Taking out zinc blocks, lines of the stream become lines of blocks or remain. -/
theorem extract_forall (h : ∀ record ∈ lines, P record) :
    (extract source lines).Forall P source := by
  fun_induction extract source lines with
  | case1 => exact ⟨by simp, by simp, by simp⟩
  | case2 record rest _ inside hstop =>
    -- Nothing closes the block, and the warning is on its first line
    have hinside : ∀ line ∈ inside, P line := forall_mem_takeWhile h _
    refine ⟨?_, by simp, List.forall_mem_append.2 ⟨nestedWarnings_pointsAt hinside,
      List.forall_mem_singleton.2 (Warning.pointsAt_onLine (h record List.mem_cons_self) ..)⟩⟩
    exact List.forall_mem_singleton.2 fun line hline => hinside line (List.mem_filter.1 hline).1
  | case3 record rest _ inside closer later hstop next ih =>
    -- The line that closes the block is used up
    have hinside : ∀ line ∈ inside, P line := forall_mem_takeWhile h _
    have hnext := ih (List.forall_mem_cons.1 (forall_mem_of_dropWhile h hstop)).2
    refine ⟨?_, hnext.remaining,
      List.forall_mem_append.2 ⟨nestedWarnings_pointsAt hinside, hnext.warnings⟩⟩
    exact List.forall_mem_cons.2
      ⟨fun line hline => hinside line (List.mem_filter.1 hline).1, hnext.lines⟩
  | case4 record rest _ next ih =>
    -- A stray line that closes nothing
    obtain ⟨hrecord, hrest⟩ := List.forall_mem_cons.1 h
    have hnext := ih hrest
    exact ⟨hnext.lines, hnext.remaining,
      List.forall_mem_cons.2 ⟨Warning.pointsAt_onLine hrecord .., hnext.warnings⟩⟩
  | case5 record rest next _ _ ih =>
    -- An ordinary line remains
    obtain ⟨hrecord, hrest⟩ := List.forall_mem_cons.1 h
    have hnext := ih hrest
    exact ⟨hnext.lines, List.forall_mem_cons.2 ⟨hrecord, hnext.remaining⟩, hnext.warnings⟩

end ZincBlock

/-! ### The outline -/

namespace Outline

open Node

/-- Only a line of the stream opens a block. -/
theorem opener_foldl_openingsAfter {openings : List Opening}
    (hopenings : ∀ opening ∈ openings, P opening.opener) (h : ∀ record ∈ lines, P record) :
    ∀ opening ∈ lines.foldl openingsAfter openings, P opening.opener := by
  induction lines generalizing openings with
  | nil => exact hopenings
  | cons record rest ih =>
    obtain ⟨hrecord, hrest⟩ := List.forall_mem_cons.1 h
    refine ih ?_ hrest
    unfold openingsAfter
    split
    · exact List.forall_mem_cons.2 ⟨hrecord, hopenings⟩
    · split
      · exact fun opening hopening => hopenings opening (List.mem_of_mem_tail hopening)
      · exact hopenings
    · exact hopenings

theorem stray?_pointsAt {arrival : Arrival} (h : P arrival.record) {warning : Warning}
    (hstray : arrival.stray? source = some warning) : warning.PointsAt P source := by
  unfold Arrival.stray? at hstray
  split at hstray
  · split at hstray
    · exact Option.some.inj hstray ▸ Warning.pointsAt_onLine h ..
    · cases hstray
  · cases hstray

/-- The leaves of the tree are lines of the stream, and so is what is warned about. -/
theorem build_forall (h : ∀ record ∈ lines, P record) :
    (∀ record ∈ linesOfAll (build source lines).1.nodes, P record) ∧
      ∀ warning ∈ (build source lines).2, warning.PointsAt P source := by
  have harrivals : ∀ arrival ∈ arrivals [] lines, P arrival.record := fun arrival harrival =>
    h _ (record_arrivals [] lines ▸ List.mem_map_of_mem harrival)
  constructor
  · have hlines := Builder.lines_foldl_feed source .start lines
    rw [nodes_build, linesOfAll_append, Builder.lines_leftOpen, ← linesOfAll_append, Option.toList,
      List.map_nil, List.append_nil]
    intro record hrecord
    have hleaf := hlines ▸ hrecord
    obtain ⟨arrival, harrival, rfl⟩ := List.mem_map.1 hleaf
    exact harrivals arrival (List.mem_filter.1 harrival).1
  · rw [warnings_build, Builder.warnings_foldl_feed, Builder.openings_foldl_feed]
    refine List.forall_mem_append.2 ⟨List.forall_mem_append.2 ⟨by simp [Builder.start], ?_⟩, ?_⟩
    · intro warning hwarning
      obtain ⟨arrival, harrival, hstray⟩ := List.mem_filterMap.1 hwarning
      exact stray?_pointsAt (harrivals arrival harrival) hstray
    · intro warning hwarning
      obtain ⟨opening, hopening, rfl⟩ := List.mem_map.1 hwarning
      exact Warning.pointsAt_onLine
        (opener_foldl_openingsAfter (List.forall_mem_nil _) h opening hopening) ..

end Outline

/-! ### Expansion -/

namespace Expansion

variable {context : Context}

/-- The line is a line of a macro with another text. -/
def FromMacro (table : MacroTable) (record : SourceLine) : Prop :=
  ∃ definition ∈ table.macros, ∃ line ∈ definition.body, ∃ text, record = line.withText text

theorem fromMacro_instantiate {table : MacroTable} {definition : TextMacro} {name : String}
    (h : table.find? name = some definition) (arguments : List String) :
    ∀ record ∈ definition.instantiate arguments, FromMacro table record := by
  intro record hrecord
  obtain ⟨line, hline, rfl⟩ := List.mem_map.1 hrecord
  exact ⟨definition, MacroTable.mem_of_find? h, line, hline, _, rfl⟩

/-- The lines of the output are lines of macros, and what is warned about are these or lines with
the property. -/
structure Output.Forall (P : SourceLine → Prop) (context : Context) (output : Output) : Prop where
  lines : ∀ record ∈ output.lines, FromMacro context.table record
  warnings : ∀ warning ∈ output.warnings, warning.PointsAt
    (fun record => P record ∨ FromMacro context.table record) context.source

namespace Output.Forall

theorem silent (progress : Progress) : (Output.silent progress).Forall P context :=
  ⟨List.forall_mem_nil _, List.forall_mem_nil _⟩

theorem warn {site : SourceLine} (h : P site) (problem : Problem) (progress : Progress) :
    (Output.warn (.onLine problem site context.source) progress).Forall P context :=
  ⟨List.forall_mem_nil _,
    List.forall_mem_singleton.2 (Warning.pointsAt_onLine (.inl h) problem context.source)⟩

theorem append {first rest : Output} (hfirst : first.Forall (FromMacro context.table) context)
    (hrest : rest.Forall P context) : (first.append rest).Forall P context := by
  refine ⟨List.forall_mem_append.2 ⟨hfirst.lines, hrest.lines⟩,
    List.forall_mem_append.2 ⟨fun warning hwarning => ?_, hrest.warnings⟩⟩
  obtain ⟨record, hrecord, hwarning⟩ := hfirst.warnings warning hwarning
  exact ⟨record, .inr (or_self_iff.1 hrecord), hwarning⟩

theorem cons {record : SourceLine} {rest : Output} (hrecord : FromMacro context.table record)
    (hrest : rest.Forall P context) : (Output.cons record rest).Forall P context :=
  ⟨List.forall_mem_cons.2 ⟨hrecord, hrest.lines⟩, hrest.warnings⟩

theorem stop {site : SourceLine} (h : P site) (progress : Progress) :
    (context.stop site progress).Forall P context := by
  unfold Context.stop
  split
  · exact silent progress
  · exact warn h .expansionLimit _

end Output.Forall

/-- What an invocation produces are lines of macros, and it warns about these or about itself. -/
theorem forall_run (context : Context) :
    (∀ active invocation progress P, P invocation.site →
      (run context active invocation progress).Forall P context) ∧
    ∀ active site lines progress P, P site →
      (∀ record ∈ lines, FromMacro context.table record) →
        (replay context active site lines progress).Forall P context := by
  apply run_induction
  case optional =>
    intro active invocation progress hfind hoptional P hsite
    rw [run_undefined hfind, if_pos hoptional]
    exact .silent progress
  case undefined =>
    intro active invocation progress hfind hoptional P hsite
    rw [run_undefined hfind, if_neg hoptional]
    exact .warn hsite _ progress
  case recursive =>
    intro active invocation progress definition hfind hactive P hsite
    rw [run_recursive hfind hactive]
    exact .warn hsite _ progress
  case start =>
    intro active invocation progress definition hfind hactive ih P hsite
    rw [run_start hfind hactive]
    exact ih P hsite (fromMacro_instantiate hfind invocation.arguments)
  case nil =>
    intro active site progress P hsite hlines
    rw [replay_nil]
    exact .silent progress
  case nested =>
    -- A nested invocation is itself a line of a macro
    intro active site progress record rest hrun ihrun ihrest P hsite hlines
    obtain ⟨hrecord, hrest⟩ := List.forall_mem_cons.1 hlines
    rw [replay_invocation hrun]
    exact .append (ihrun _ hrecord) (ihrest P hsite hrest)
  case spent =>
    intro active site progress record rest hline hspent P hsite hlines
    rw [replay_spent hline hspent]
    exact .stop hsite progress
  case line =>
    intro active site progress record rest hline hspent ih P hsite hlines
    obtain ⟨hrecord, hrest⟩ := List.forall_mem_cons.1 hlines
    rw [replay_line hline hspent]
    exact .cons hrecord (ih P hsite hrest)

/-- A line that passed is a line of the stream. -/
theorem mem_of_passed {lines : List SourceLine} {record : SourceLine}
    (h : .passed record ∈ pieces context lines) : record ∈ lines := by
  have hpassed : .passed record ∈ (pieces context lines).filter (!·.isProduced) :=
    List.mem_filter.2 ⟨h, rfl⟩
  rw [passed_pieces] at hpassed
  obtain ⟨line, hline, hrecord⟩ := List.mem_map.1 hpassed
  exact Piece.passed.inj hrecord ▸ (List.mem_filter.1 hline).1

theorem fromMacro_of_producedFrom {lines : List SourceLine} {progress : Progress}
    {record : SourceLine} (h : .produced record ∈ piecesFrom context progress lines) :
    FromMacro context.table record := by
  induction lines generalizing progress with
  | nil => cases h
  | cons line rest ih =>
    by_cases hrun : Directive.ofLine? line = some .macroRun
    · rw [piecesFrom_invocation hrun] at h
      rcases List.mem_append.1 h with h | h
      · obtain ⟨produced, hproduced, heq⟩ := List.mem_map.1 h
        have hforall := (forall_run context).1 [] (.ofLine line) progress (fun _ => True) trivial
        exact Piece.produced.inj heq ▸ hforall.lines produced hproduced
      · exact ih h
    · rw [piecesFrom_line hrun] at h
      exact ih ((List.mem_cons.1 h).resolve_left (by simp))

/-- A line that was produced is a line of a macro with another text. -/
theorem fromMacro_of_produced {lines : List SourceLine} {record : SourceLine}
    (h : .produced record ∈ pieces context lines) : FromMacro context.table record :=
  fromMacro_of_producedFrom h

/-- What the expansion warns about are lines of the stream and lines of macros. -/
theorem warnings_expandFrom_pointsAt {lines : List SourceLine} (h : ∀ record ∈ lines, P record)
    (progress : Progress) :
    ∀ warning ∈ (expandFrom context progress lines).warnings, warning.PointsAt
      (fun record => P record ∨ FromMacro context.table record) context.source := by
  induction lines generalizing progress with
  | nil => exact List.forall_mem_nil _
  | cons line rest ih =>
    obtain ⟨hline, hrest⟩ := List.forall_mem_cons.1 h
    by_cases hrun : Directive.ofLine? line = some .macroRun
    · rw [expandFrom_invocation hrun]
      exact List.forall_mem_append.2
        ⟨((forall_run context).1 [] (.ofLine line) progress P hline).warnings, ih hrest _⟩
    · rw [expandFrom_line hrun]
      exact ih hrest progress

/-- A property of the lines of the stream and of the macros that does not depend on their text is
one of the expanded stream. -/
theorem expand_forall {lines : List SourceLine} (h : ∀ record ∈ lines, P record)
    (hmacros : ∀ record, FromMacro context.table record → P record) :
    (∀ record ∈ (expand context lines).lines, P record) ∧
      ∀ warning ∈ (expand context lines).warnings, warning.PointsAt P context.source := by
  constructor
  · intro record hrecord
    rw [← record_pieces] at hrecord
    obtain ⟨piece, hpiece, rfl⟩ := List.mem_map.1 hrecord
    cases piece with
    | passed record => exact h record (mem_of_passed hpiece)
    | produced record => exact hmacros record (fromMacro_of_produced hpiece)
  · intro warning hwarning
    obtain ⟨record, hrecord, hpoints⟩ := warnings_expandFrom_pointsAt h .start warning hwarning
    exact ⟨record, hrecord.elim id (hmacros record), hpoints⟩

end Expansion

end JassOutline
