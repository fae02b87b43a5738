import JassOutline.Proofs.Pairing.Stages
import Mathlib.Data.List.TakeWhile

/-!
# Taking definitions out in one pass

`MacroTable.extract` cuts a stream at the lines that open and close definitions. A `Pass` takes the
stream line by line instead. It keeps the definition that is open, which has a body only if its
header has a name, and what it has found so far.

## Key results

- `Pass.feed_interrupt`: a header ends the definition in front of it
- `Pass.foldl_feed_body`: lines that neither open nor close a definition
- `Pass.run_eq`: a pass over the lines finds what `extract` does
-/

namespace JassOutline.MacroTable

theorem isBoundary_iff {record : SourceLine} :
    isBoundary record = true ↔
      Directive.ofLine? record = some .macroStart ∨ Directive.ofLine? record = some .macroEnd := by
  unfold isBoundary
  split <;> simp_all

/-- The next line that is no body line is a boundary. -/
theorem isBoundary_of_dropWhile {rest later : List SourceLine} {closer : SourceLine}
    (h : rest.dropWhile (!isBoundary ·) = closer :: later) : isBoundary closer = true := by
  have hhead := List.head?_dropWhile_not (!isBoundary ·) rest
  rw [h] at hhead
  simpa using hhead

/-- What has been found in the lines read so far. -/
structure Pass where
  /-- The header of the open definition, and the definition if the header has a name. -/
  current? : Option (SourceLine × Option TextMacro)
  macros : List TextMacro
  remaining : List SourceLine
  warnings : List Warning

namespace Pass

/-- Nothing has been read. -/
def start : Pass := ⟨none, [], [], []⟩

/-- Adds warnings. -/
def warn (pass : Pass) (warnings : List Warning) : Pass :=
  { pass with warnings := pass.warnings ++ warnings }

/-- Puts a definition into the table, if it has a name. -/
def register (source : Nat) (pass : Pass) (header : SourceLine) (definition? : Option TextMacro) :
    Pass :=
  { pass with
    current? := none
    macros := pass.macros ++ definition?.toList
    warnings := pass.warnings ++
      duplicateWarnings source header (pass.macros.map TextMacro.name) definition? }

/-- Ends the open definition at a place where nothing closes it. -/
def interrupt (source : Nat) (problem : Problem) (pass : Pass) : Pass :=
  match pass.current? with
  | none => pass
  | some (header, definition?) =>
    (pass.warn [.onLine problem header source]).register source header definition?

/-- The open definition with one more line. -/
def extend (record : SourceLine) (definition : TextMacro) : TextMacro :=
  { definition with
    body := definition.body ++ [record]
    region := definition.region.withStop record.region.stop }

/-- The open definition with its closing line. -/
def close (closer : SourceLine) (definition : TextMacro) : TextMacro :=
  { definition with region := definition.region.withStop closer.region.stop }

/-- Reads one line. -/
def feed (source : Nat) (pass : Pass) (record : SourceLine) : Pass :=
  match Directive.ofLine? record with
  | some .macroStart =>
    let definition? := definition? record [] record.region.stop
    let pass := pass.interrupt source .macroOpenAtNext
    { pass with
      current? := some (record, definition?)
      warnings := pass.warnings ++ namelessWarnings source record definition? }
  | some .macroEnd =>
    match pass.current? with
    | some (header, definition?) => pass.register source header (definition?.map (close record))
    | none => pass.warn [.onLine .macroEndUnmatched record source]
  | _ =>
    match pass.current? with
    | some (header, definition?) =>
      { pass with current? := some (header, definition?.map (extend record)) }
    | none => { pass with remaining := pass.remaining ++ [record] }

/-- What has been found when the stream is at its end. -/
def finish (source : Nat) (pass : Pass) : Extraction :=
  let pass := pass.interrupt source .macroNeverClosed
  ⟨⟨pass.macros⟩, pass.remaining, pass.warnings⟩

/-- Takes the definitions out of a stream of lines. -/
def run (source : Nat) (lines : List SourceLine) : Extraction :=
  (lines.foldl (feed source) start).finish source

/-- What is found behind the lines read so far. -/
def followedBy (pass : Pass) (extraction : Extraction) : Extraction :=
  ⟨⟨pass.macros ++ extraction.table.macros⟩, pass.remaining ++ extraction.remaining,
    pass.warnings ++ extraction.warnings⟩

variable {source : Nat} {pass : Pass} {record header : SourceLine} {body rest : List SourceLine}

theorem interrupt_of_none (h : pass.current? = none) (problem : Problem) :
    pass.interrupt source problem = pass := by
  rw [interrupt, h]

theorem current?_interrupt (problem : Problem) :
    (pass.interrupt source problem).current? = none := by
  rw [interrupt]
  split
  · assumption
  · rfl

/-- A header ends the definition that is open in front of it. -/
theorem feed_interrupt (h : Directive.ofLine? record = some .macroStart) :
    feed source (pass.interrupt source .macroOpenAtNext) record = feed source pass record := by
  rw [feed, feed, h]
  dsimp only
  rw [interrupt_of_none (current?_interrupt _)]

theorem feed_header (h : Directive.ofLine? record = some .macroStart)
    (hnone : pass.current? = none) :
    feed source pass record =
      { pass with
        current? := some (record, definition? record [] record.region.stop)
        warnings := pass.warnings ++
          namelessWarnings source record (definition? record [] record.region.stop) } := by
  rw [feed, h]
  dsimp only
  rw [interrupt_of_none hnone]

/-- A definition that nothing has closed grows with each line. -/
theorem extend_definition? (header : SourceLine) (body : List SourceLine) (record : SourceLine)
    (stop : Position) :
    (definition? header body stop).map (extend record) =
      definition? header (body ++ [record]) record.region.stop := by
  rw [definition?, definition?, Option.map_map]
  rfl

theorem close_definition? (header : SourceLine) (body : List SourceLine) (closer : SourceLine)
    (stop : Position) :
    (definition? header body stop).map (close closer) =
      definition? header body closer.region.stop := by
  rw [definition?, definition?, Option.map_map]
  rfl

/-- A line that neither opens nor closes a definition. -/
theorem feed_line (h : isBoundary record = false) :
    feed source pass record =
      match pass.current? with
      | some (header, definition?) =>
        { pass with current? := some (header, definition?.map (extend record)) }
      | none => { pass with remaining := pass.remaining ++ [record] } := by
  rw [← Bool.not_eq_true, isBoundary_iff, not_or] at h
  rw [feed]
  split
  · next hstart => exact absurd hstart h.1
  · next hend => exact absurd hend h.2
  · rfl

theorem feed_outside (h : isBoundary record = false) (hnone : pass.current? = none) :
    feed source pass record = { pass with remaining := pass.remaining ++ [record] } := by
  rw [feed_line h, hnone]

/-- Such lines go into the body of the open definition. -/
theorem foldl_feed_body (hbody : ∀ record ∈ body, isBoundary record = false)
    (front : List SourceLine)
    (h : pass.current? = some (header, definition? header front (lastStop header front))) :
    body.foldl (feed source) pass =
      { pass with current? := some (header, definition? header (front ++ body)
        (lastStop header (front ++ body))) } := by
  induction body generalizing pass front with
  | nil => rw [List.append_nil, List.foldl_nil, ← h]
  | cons record body ih =>
    obtain ⟨hrecord, hrest⟩ := List.forall_mem_cons.1 hbody
    have hstop : record.region.stop = lastStop header (front ++ [record]) := by
      rw [lastStop, List.getLastD_concat]
    rw [List.foldl_cons, feed_line hrecord, h]
    dsimp only
    rw [extend_definition?, hstop, ih hrest (front ++ [record]) rfl, List.append_assoc,
      List.singleton_append]

/-- Whether a header has a name is told by the header alone. -/
theorem namelessWarnings_definition? (source : Nat) (header : SourceLine)
    (body body' : List SourceLine) (stop stop' : Position) :
    namelessWarnings source header (definition? header body stop) =
      namelessWarnings source header (definition? header body' stop') := by
  rw [definition?, definition?]
  cases TextMacro.signature? header <;> rfl

/-- A header and the lines up to the next boundary. -/
theorem foldl_feed_definition (hstart : Directive.ofLine? header = some .macroStart)
    (hbody : ∀ record ∈ body, isBoundary record = false) (hnone : pass.current? = none) :
    (header :: body).foldl (feed source) pass =
      { pass with
        current? := some (header, definition? header body (lastStop header body))
        warnings := pass.warnings ++
          namelessWarnings source header (definition? header body (lastStop header body)) } := by
  rw [List.foldl_cons, feed_header hstart hnone,
    namelessWarnings_definition? source header [] body _ (lastStop header body)]
  exact foldl_feed_body hbody [] rfl

/-- The line that closes the open definition. -/
theorem feed_end {definition? : Option TextMacro} (h : Directive.ofLine? record = some .macroEnd)
    (hcurrent : pass.current? = some (header, definition?)) :
    feed source pass record = pass.register source header (definition?.map (close record)) := by
  rw [feed, h]
  dsimp only
  rw [hcurrent]

theorem feed_unmatched (h : Directive.ofLine? record = some .macroEnd)
    (hnone : pass.current? = none) :
    feed source pass record = pass.warn [.onLine .macroEndUnmatched record source] := by
  rw [feed, h]
  dsimp only
  rw [hnone]

/-- Where a definition ends that nothing closes, the pass goes on without it. -/
theorem interrupt_of_some {definition? : Option TextMacro} (problem : Problem)
    (h : pass.current? = some (header, definition?)) :
    pass.interrupt source problem =
      (pass.warn [.onLine problem header source]).register source header definition? := by
  rw [interrupt, h]

theorem names_toList (definition? : Option TextMacro) :
    definition?.toList.map TextMacro.name = (definition?.map TextMacro.name).toList := by
  cases definition? <;> rfl

theorem eq_append_of_dropWhile {behind : List SourceLine}
    (hstop : rest.dropWhile (!isBoundary ·) = behind) :
    rest = rest.takeWhile (!isBoundary ·) ++ behind := by
  rw [← hstop, List.takeWhile_append_dropWhile]

/-- A pass over lines in front of which no definition is open. -/
theorem finish_foldl_feed (lines : List SourceLine) (known : List String) :
    ∀ pass : Pass, pass.current? = none → pass.macros.map TextMacro.name = known →
      (lines.foldl (feed source) pass).finish source =
        pass.followedBy (extractFrom source known lines) := by
  have hbody : ∀ rest : List SourceLine, ∀ record ∈ rest.takeWhile (!isBoundary ·),
      isBoundary record = false := fun rest record hmem => by
    simpa using List.mem_takeWhile_imp hmem
  -- The pass carries what was found so far; the induction is on how `extractFrom` parts the lines,
  -- with any pass that has no definition open and knows the same names
  fun_induction extractFrom source known lines with
  | case1 known =>
    -- At the end of the stream nothing is open
    intro pass hnone hknown
    rw [List.foldl_nil, finish, interrupt_of_none hnone, followedBy]
    simp
  | case2 known record rest hstart body hstop definition =>
    -- The definition is open when the stream ends, and `finish` interrupts it
    intro pass hnone hknown
    have hrest : rest = body := (eq_append_of_dropWhile hstop).trans (List.append_nil _)
    have hplain : ∀ record ∈ body, isBoundary record = false := hbody rest
    rw [hrest, foldl_feed_definition hstart hplain hnone, finish, interrupt_of_some _ rfl]
    simp [followedBy, register, warn, hknown, definition]
  | case3 known record rest hstart body closer later hstop hend definition next ih =>
    -- The closing line registers the definition, and the pass goes on with its name known
    intro pass hnone hknown
    have hrest : rest = body ++ closer :: later := eq_append_of_dropWhile hstop
    have hplain : ∀ record ∈ body, isBoundary record = false := hbody rest
    have hnameless : namelessWarnings source record (definition? record body (lastStop record body))
        = namelessWarnings source record definition :=
      namelessWarnings_definition? source record body _ _ _
    rw [hrest, ← List.cons_append, List.foldl_append, foldl_feed_definition hstart hplain hnone,
      List.foldl_cons, feed_end hend rfl, close_definition?, ih _ rfl]
    · simp [followedBy, register, hknown, hnameless, next, definition]
    · simp [register, hknown, names_toList, definition]
  | case4 known record rest hstart body closer later hstop hend definition next ih =>
    -- The next header interrupts the definition before it opens its own
    intro pass hnone hknown
    have hrest : rest = body ++ closer :: later := eq_append_of_dropWhile hstop
    have hplain : ∀ record ∈ body, isBoundary record = false := hbody rest
    have hagain : Directive.ofLine? closer = some .macroStart :=
      (isBoundary_iff.1 (isBoundary_of_dropWhile hstop)).resolve_right hend
    rw [hrest, ← List.cons_append, List.foldl_append, foldl_feed_definition hstart hplain hnone,
      List.foldl_cons, ← feed_interrupt hagain, ← List.foldl_cons, interrupt_of_some _ rfl,
      ih _ rfl]
    · simp [followedBy, register, warn, hknown, next, definition]
    · simp [register, warn, hknown, names_toList, definition]
  | case5 known record rest hend next ih =>
    -- A closing line that closes nothing
    intro pass hnone hknown
    rw [List.foldl_cons, feed_unmatched hend hnone, ih (pass.warn _) hnone hknown]
    simp [followedBy, warn, next]
  | case6 known record rest next hstart hend ih =>
    -- A line outside every definition remains
    intro pass hnone hknown
    have hplain : isBoundary record = false :=
      Bool.eq_false_iff.2 fun hmark => (isBoundary_iff.1 hmark).elim hstart hend
    rw [List.foldl_cons, feed_outside hplain hnone,
      ih { pass with remaining := pass.remaining ++ [record] } hnone hknown]
    simp [followedBy, next]

/-- A pass over a stream of lines finds what there is. -/
theorem run_eq (source : Nat) (lines : List SourceLine) :
    run source lines = extract source lines := by
  rw [run, finish_foldl_feed lines [] start rfl rfl]
  simp [followedBy, start, extract]

end Pass

end JassOutline.MacroTable
