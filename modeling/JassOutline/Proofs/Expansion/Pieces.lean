import JassOutline.TextMacro.Expansion

/-!
# Where the lines of an expanded stream come from

A line of an expanded stream is either a line of the stream itself or was produced by a macro. The
output of `expand` does not tell the two apart. `pieces` does, and is `expand` otherwise.

## Key results

- `record_pieces`: the pieces hold the lines of the output
- `passed_pieces`: the lines of the stream that are no invocations pass, in their order
-/

namespace JassOutline.Expansion

/-- A line of an expanded stream and where it comes from. -/
inductive Piece where
  /-- A line of the stream. -/
  | passed (record : SourceLine)
  /-- A line that a macro produced. -/
  | produced (record : SourceLine)
  deriving DecidableEq, Repr

namespace Piece

/-- The line itself. -/
def record : Piece → SourceLine
  | passed record => record
  | produced record => record

/-- Whether a macro produced the line. -/
def isProduced : Piece → Bool
  | passed _ => false
  | produced _ => true

@[simp] theorem record_passed (line : SourceLine) : (passed line).record = line := rfl

@[simp] theorem record_produced (line : SourceLine) : (produced line).record = line := rfl

@[simp] theorem isProduced_passed (line : SourceLine) : (passed line).isProduced = false := rfl

@[simp] theorem isProduced_produced (line : SourceLine) : (produced line).isProduced = true := rfl

/-- All lines that a macro produced are produced lines. -/
theorem filter_produced (lines : List SourceLine) :
    (lines.map produced).filter isProduced = lines.map produced := by
  simp

theorem filter_not_produced (lines : List SourceLine) :
    (lines.map produced).filter (!·.isProduced) = [] := by
  simp

theorem record_map_produced (lines : List SourceLine) :
    (lines.map produced).map record = lines := by
  induction lines with
  | nil => rfl
  | cons line lines ih => rw [List.map_cons, List.map_cons, ih, record_produced]

end Piece

/-- Whether the line invokes a macro. -/
def isInvocation (record : SourceLine) : Bool :=
  Directive.ofLine? record = some .macroRun

/-- What the lines of a stream turn into. -/
def piecesFrom (context : Context) (progress : Progress) : List SourceLine → List Piece
  | [] => []
  | record :: rest =>
    if isInvocation record then
      let expanded := run context [] (.ofLine record) progress
      expanded.lines.map .produced ++ piecesFrom context expanded.progress rest
    else .passed record :: piecesFrom context progress rest

/-- What the lines of a stream turn into, from the first one on. -/
def pieces (context : Context) (lines : List SourceLine) : List Piece :=
  piecesFrom context .start lines

variable {context : Context}

/-- Without an invocation every line passes. -/
theorem expandFrom_of_plain {lines : List SourceLine}
    (h : ∀ record ∈ lines, Directive.ofLine? record ≠ some .macroRun) (progress : Progress) :
    expandFrom context progress lines = ⟨lines, [], progress⟩ := by
  induction lines with
  | nil => rfl
  | cons record rest ih =>
    obtain ⟨hrecord, hrest⟩ := List.forall_mem_cons.1 h
    rw [expandFrom_line hrecord, ih hrest]
    rfl

theorem piecesFrom_invocation {record : SourceLine}
    (h : Directive.ofLine? record = some .macroRun) (progress : Progress)
    (rest : List SourceLine) :
    piecesFrom context progress (record :: rest) =
      (run context [] (.ofLine record) progress).lines.map .produced ++
        piecesFrom context (run context [] (.ofLine record) progress).progress rest := by
  rw [piecesFrom, if_pos (by simpa [isInvocation] using h)]

theorem piecesFrom_line {record : SourceLine} (h : Directive.ofLine? record ≠ some .macroRun)
    (progress : Progress) (rest : List SourceLine) :
    piecesFrom context progress (record :: rest) =
      .passed record :: piecesFrom context progress rest := by
  rw [piecesFrom, if_neg (by simpa [isInvocation] using h)]

theorem record_piecesFrom (progress : Progress) (lines : List SourceLine) :
    (piecesFrom context progress lines).map Piece.record =
      (expandFrom context progress lines).lines := by
  induction lines generalizing progress with
  | nil => rfl
  | cons record rest ih =>
    by_cases hrun : Directive.ofLine? record = some .macroRun
    · rw [piecesFrom_invocation hrun, expandFrom_invocation hrun, List.map_append, ih,
        Piece.record_map_produced]
      rfl
    · rw [piecesFrom_line hrun, expandFrom_line hrun, List.map_cons, ih]
      rfl

theorem passed_piecesFrom (progress : Progress) (lines : List SourceLine) :
    (piecesFrom context progress lines).filter (!·.isProduced) =
      (lines.filter (!isInvocation ·)).map .passed := by
  induction lines generalizing progress with
  | nil => rfl
  | cons record rest ih =>
    by_cases hrun : Directive.ofLine? record = some .macroRun
    · rw [piecesFrom_invocation hrun, List.filter_append, Piece.filter_not_produced, ih]
      simp [isInvocation, hrun]
    · have hpasses : (!isInvocation record) = true := by simpa [isInvocation] using hrun
      rw [piecesFrom_line hrun, List.filter_cons, List.filter_cons, if_pos hpasses, if_pos (by rfl),
        ih, List.map_cons]

/-- The pieces hold the lines of the output. -/
theorem record_pieces (lines : List SourceLine) :
    (pieces context lines).map Piece.record = (expand context lines).lines :=
  record_piecesFrom .start lines

/-- The lines of the stream that are no invocations pass, in their order. -/
theorem passed_pieces (lines : List SourceLine) :
    (pieces context lines).filter (!·.isProduced) =
      (lines.filter (!isInvocation ·)).map .passed :=
  passed_piecesFrom .start lines

end JassOutline.Expansion
