import JassOutline.Proofs.Expansion.Pieces

/-!
# The limit of an expansion

A limit on the number of lines that macros may produce cuts an expansion off. What is produced
under the limit is what would be produced without it, as far as the limit admits, and the lines of
the stream are not touched. The limit is warned about once, if anything was cut off.

## Key results

- `Cuts`: how an output under a limit relates to the output without one, and `Cuts.append`: the
  relation goes through from one output to the next
- `cuts_run`: the relation holds of every invocation
- `pieces_limited`: the effect of a limit on a whole stream
-/

namespace JassOutline.Expansion

/-- The same context with another limit, or with none. -/
def Context.withLimit (context : Context) (limit? : Option Nat) : Context :=
  { context with limit? }

/-- Whether the warning says that the limit was reached. -/
def isLimitWarning (warning : Warning) : Bool :=
  warning.problem = .expansionLimit

/-- Only the given number of lines that macros produced is left. -/
def keepProduced : Nat → List Piece → List Piece
  | _, [] => []
  | count, .passed record :: rest => .passed record :: keepProduced count rest
  | 0, .produced _ :: rest => keepProduced 0 rest
  | count + 1, .produced record :: rest => .produced record :: keepProduced count rest

theorem keepProduced_append (count : Nat) (lines : List SourceLine) (rest : List Piece) :
    keepProduced count (lines.map .produced ++ rest) =
      (lines.take count).map .produced ++ keepProduced (count - lines.length) rest := by
  induction lines generalizing count with
  | nil => simp
  | cons record lines ih => cases count <;> simp [keepProduced, ih]

theorem countP_keepProduced (count : Nat) (pieces : List Piece) :
    (keepProduced count pieces).countP Piece.isProduced =
      min count (pieces.countP Piece.isProduced) := by
  induction pieces generalizing count with
  | nil => simp [keepProduced]
  | cons piece rest ih =>
    cases piece with
    | passed record =>
      rw [keepProduced, List.countP_cons, List.countP_cons, ih]
      rfl
    | produced record =>
      cases count with
      | zero => simpa [keepProduced] using ih 0
      | succ count =>
        rw [keepProduced, List.countP_cons, List.countP_cons, ih, if_pos (by rfl)]
        omega

/-! ### One output under a limit -/

/-- How the output under a limit, given what has been produced before, relates to the output
without a limit. -/
structure Cuts (limit : Nat) (progress : Progress) (limited unlimited : Output) : Prop where
  lines : limited.lines = unlimited.lines.take (limit - progress.produced)
  produced : limited.progress.produced = progress.produced + limited.lines.length
  limitReported : limited.progress.limitReported =
    (progress.limitReported || decide (limit - progress.produced < unlimited.lines.length))
  /-- The limit is reported where it cuts something off and was not reported before. -/
  limitWarnings : limited.warnings.countP isLimitWarning =
    if progress.limitReported = false ∧ limit - progress.produced < unlimited.lines.length then 1
    else 0
  otherWarnings : (limited.warnings.filter (!isLimitWarning ·)).Sublist unlimited.warnings
  unlimitedWarnings : unlimited.warnings.countP isLimitWarning = 0

namespace Cuts

variable {limit : Nat} {progress progress' : Progress} {a b a' b' : Output}

theorem silent (limit : Nat) (progress progress' : Progress) :
    Cuts limit progress (.silent progress) (.silent progress') := by
  constructor <;> simp [Output.silent]

theorem warn (limit : Nat) {warning : Warning} (h : isLimitWarning warning = false)
    (progress progress' : Progress) :
    Cuts limit progress (.warn warning progress) (.warn warning progress') := by
  constructor <;> simp [Output.warn, h]

/-- The limit admits a line. -/
theorem line (record : SourceLine) (h : progress.produced < limit) :
    Cuts limit progress ⟨[record], [], progress.count⟩ ⟨[record], [], progress'.count⟩ := by
  obtain ⟨room, hroom⟩ : ∃ room, limit - progress.produced = room + 1 :=
    ⟨limit - progress.produced - 1, by omega⟩
  constructor <;> simp [Progress.count, hroom]

theorem produced_le (h : Cuts limit progress a a') (hle : progress.produced ≤ limit) :
    a.progress.produced ≤ limit := by
  have hlength := congrArg List.length h.lines
  rw [List.length_take] at hlength
  have hproduced := h.produced
  omega

/-- What an output has left of the room. -/
theorem room_eq (h : Cuts limit progress a a') :
    limit - a.progress.produced = limit - progress.produced - a'.lines.length := by
  have hlength := congrArg List.length h.lines
  rw [List.length_take] at hlength
  have hproduced := h.produced
  omega

theorem append (h : Cuts limit progress a a') (hle : progress.produced ≤ limit)
    (hrest : Cuts limit a.progress b b') :
    Cuts limit progress (a.append b) (a'.append b') := by
  have hproduced := h.produced
  have hlines := hrest.lines
  have hreported := hrest.limitReported
  have hwarnings := hrest.limitWarnings
  rw [h.room_eq] at hlines hreported hwarnings
  rw [h.limitReported] at hreported hwarnings
  refine ⟨?_, ?_, ?_, ?_, ?_, ?_⟩
  · show a.lines ++ b.lines = _
    rw [h.lines, hlines]
    exact (List.take_append ..).symm
  · have hrestProduced := hrest.produced
    show b.progress.produced = progress.produced + (a.lines ++ b.lines).length
    rw [List.length_append]
    omega
  · show b.progress.limitReported = _
    rw [hreported]
    show _ = (progress.limitReported ||
      decide (limit - progress.produced < (a'.lines ++ b'.lines).length))
    rw [List.length_append, Bool.or_assoc, ← Bool.decide_or]
    congr 2
    exact propext (by omega)
  · show (a.warnings ++ b.warnings).countP isLimitWarning =
      if progress.limitReported = false ∧
        limit - progress.produced < (a'.lines ++ b'.lines).length then 1 else 0
    rw [List.countP_append, h.limitWarnings, hwarnings, List.length_append]
    -- The second output reports the limit only if the first one did not
    cases progress.limitReported with
    | true => simp
    | false =>
      simp only [true_and, Bool.false_or, decide_eq_false_iff_not]
      split <;> split <;> split <;> omega
  · show ((a.warnings ++ b.warnings).filter (!isLimitWarning ·)).Sublist
      (a'.warnings ++ b'.warnings)
    rw [List.filter_append]
    exact h.otherWarnings.append hrest.otherWarnings
  · show (a'.warnings ++ b'.warnings).countP isLimitWarning = 0
    rw [List.countP_append, h.unlimitedWarnings, hrest.unlimitedWarnings]

end Cuts

variable {context : Context} {limit : Nat}

theorem cons_eq_append (record : SourceLine) (progress : Progress) (output : Output) :
    Output.cons record output = Output.append ⟨[record], [], progress⟩ output := rfl

theorem isSpent_withLimit_some (progress : Progress) :
    (context.withLimit (some limit)).isSpent progress = decide (limit ≤ progress.produced) := by
  simp [Context.isSpent, Context.withLimit]

theorem not_isSpent_withLimit_none (progress : Progress) :
    ¬(context.withLimit none).isSpent progress = true := by
  simp [Context.isSpent, Context.withLimit]

/-- Where the limit is reached, the rest of a replay is cut off, however it goes on. -/
theorem cuts_stop {progress : Progress} (hspent : limit ≤ progress.produced)
    (site : SourceLine) {unlimited : Output} (hlines : unlimited.lines ≠ [])
    (hwarnings : unlimited.warnings.countP isLimitWarning = 0) :
    Cuts limit progress (context.stop site progress) unlimited := by
  have hroom : limit - progress.produced = 0 := by omega
  have hpos : 0 < unlimited.lines.length := List.length_pos_iff.2 hlines
  unfold Context.stop
  split
  · next hreported =>
    constructor <;> simp [Output.silent, hroom, hreported, hwarnings]
  · next hreported =>
    constructor <;>
      simp [Output.warn, hroom, hreported, hpos, hwarnings, isLimitWarning, Warning.onLine]

/-- No warning about the limit is given without one. -/
theorem unlimitedWarnings_run (context : Context) :
    (∀ active invocation progress,
      ((run (context.withLimit none) active invocation progress).warnings.countP
        isLimitWarning) = 0) ∧
    ∀ active site lines progress,
      ((replay (context.withLimit none) active site lines progress).warnings.countP
        isLimitWarning) = 0 := by
  apply run_induction
  case optional =>
    intro active invocation progress hfind hoptional
    rw [run_undefined hfind, if_pos hoptional]
    rfl
  case undefined =>
    intro active invocation progress hfind hoptional
    rw [run_undefined hfind, if_neg hoptional]
    rfl
  case recursive =>
    intro active invocation progress definition hfind hactive
    rw [run_recursive hfind hactive]
    rfl
  case start =>
    intro active invocation progress definition hfind hactive ih
    rw [run_start hfind hactive]
    exact ih
  case nil =>
    intro active site progress
    rw [replay_nil]
    rfl
  case nested =>
    intro active site progress record rest hrun ihrun ihrest
    -- The warnings of the nested invocation stand in front of those of the rest
    rw [replay_invocation hrun]
    show (_ ++ _ : List Warning).countP isLimitWarning = 0
    rw [List.countP_append, ihrun, ihrest]
  case spent =>
    intro active site progress record rest hline hspent
    exact absurd hspent (not_isSpent_withLimit_none progress)
  case line =>
    intro active site progress record rest hline hspent ih
    rw [replay_line hline hspent]
    exact ih

/-- What an invocation produces under a limit is what it produces without one, cut off where the
limit is reached. -/
theorem cuts_run (context : Context) (limit : Nat) :
    (∀ active invocation progress, progress.produced ≤ limit → ∀ progress',
      Cuts limit progress (run (context.withLimit (some limit)) active invocation progress)
        (run (context.withLimit none) active invocation progress')) ∧
    ∀ active site lines progress, progress.produced ≤ limit → ∀ progress',
      Cuts limit progress (replay (context.withLimit (some limit)) active site lines progress)
        (replay (context.withLimit none) active site lines progress') := by
  apply run_induction
  case optional =>
    intro active invocation progress hfind hoptional hle progress'
    rw [run_undefined hfind, @run_undefined (context.withLimit none) _ _ hfind,
      if_pos hoptional, if_pos hoptional]
    exact .silent limit progress progress'
  case undefined =>
    intro active invocation progress hfind hoptional hle progress'
    rw [run_undefined hfind, @run_undefined (context.withLimit none) _ _ hfind,
      if_neg hoptional, if_neg hoptional]
    exact .warn limit rfl progress progress'
  case recursive =>
    intro active invocation progress definition hfind hactive hle progress'
    rw [run_recursive hfind hactive,
      @run_recursive (context.withLimit none) _ _ _ hfind hactive]
    exact .warn limit rfl progress progress'
  case start =>
    intro active invocation progress definition hfind hactive ih hle progress'
    rw [run_start hfind hactive, @run_start (context.withLimit none) _ _ _ hfind hactive]
    exact ih hle progress'
  case nil =>
    intro active site progress hle progress'
    rw [replay_nil, replay_nil]
    exact .silent limit progress progress'
  case nested =>
    intro active site progress record rest hrun ihrun ihrest hle progress'
    rw [replay_invocation hrun, replay_invocation hrun]
    have hnested := ihrun hle progress'
    exact hnested.append hle (ihrest (hnested.produced_le hle) _)
  case spent =>
    -- The limited replay stops here, and the unlimited one goes on with this very line
    intro active site progress record rest hline hspent hle progress'
    rw [replay_spent hline hspent]
    rw [isSpent_withLimit_some, decide_eq_true_eq] at hspent
    refine cuts_stop hspent site ?_ ((unlimitedWarnings_run context).2 ..)
    rw [replay_line hline (not_isSpent_withLimit_none progress')]
    simp [Output.cons]
  case line =>
    intro active site progress record rest hline hspent ih hle progress'
    rw [replay_line hline hspent, replay_line hline (not_isSpent_withLimit_none progress'),
      cons_eq_append record progress.count, cons_eq_append record progress'.count]
    rw [isSpent_withLimit_some, decide_eq_true_eq, Nat.not_le] at hspent
    exact (Cuts.line record hspent).append hle (ih hspent progress'.count)

/-! ### A whole stream under a limit -/

/-- The output of a stream without the lines that passed. -/
def producedFrom (context : Context) (progress : Progress) (lines : List SourceLine) : Output :=
  { expandFrom context progress lines with
    lines := ((piecesFrom context progress lines).filter Piece.isProduced).map Piece.record }

theorem producedFrom_invocation {record : SourceLine}
    (h : Directive.ofLine? record = some .macroRun) (progress : Progress)
    (rest : List SourceLine) :
    producedFrom context progress (record :: rest) =
      (run context [] (.ofLine record) progress).append
        (producedFrom context (run context [] (.ofLine record) progress).progress rest) := by
  simp only [producedFrom, Output.append, expandFrom_invocation h, piecesFrom_invocation h,
    List.filter_append, List.map_append, Piece.filter_produced, Piece.record_map_produced]

theorem producedFrom_line {record : SourceLine} (h : Directive.ofLine? record ≠ some .macroRun)
    (progress : Progress) (rest : List SourceLine) :
    producedFrom context progress (record :: rest) = producedFrom context progress rest := by
  simp only [producedFrom, expandFrom_line h, piecesFrom_line h, Output.cons]
  rfl

theorem cuts_producedFrom (lines : List SourceLine) {progress : Progress}
    (hle : progress.produced ≤ limit) (progress' : Progress) :
    Cuts limit progress (producedFrom (context.withLimit (some limit)) progress lines)
      (producedFrom (context.withLimit none) progress' lines) := by
  induction lines generalizing progress progress' with
  | nil => exact .silent limit progress progress'
  | cons record rest ih =>
    by_cases hrun : Directive.ofLine? record = some .macroRun
    · rw [producedFrom_invocation hrun, producedFrom_invocation hrun]
      have hfirst := (cuts_run context limit).1 [] (.ofLine record) progress hle progress'
      exact hfirst.append hle (ih (hfirst.produced_le hle) _)
    · rw [producedFrom_line hrun, producedFrom_line hrun]
      exact ih hle progress'

theorem piecesFrom_limited (lines : List SourceLine) {progress : Progress}
    (hle : progress.produced ≤ limit) (progress' : Progress) :
    piecesFrom (context.withLimit (some limit)) progress lines =
      keepProduced (limit - progress.produced)
        (piecesFrom (context.withLimit none) progress' lines) := by
  induction lines generalizing progress progress' with
  | nil => rfl
  | cons record rest ih =>
    by_cases hrun : Directive.ofLine? record = some .macroRun
    · have hfirst := (cuts_run context limit).1 [] (.ofLine record) progress hle progress'
      rw [piecesFrom_invocation hrun, piecesFrom_invocation hrun, keepProduced_append,
        ih (hfirst.produced_le hle)
          (run (context.withLimit none) [] (.ofLine record) progress').progress,
        hfirst.room_eq, hfirst.lines]
    · rw [piecesFrom_line hrun, piecesFrom_line hrun, ih hle progress']
      rfl

theorem length_producedFrom (context : Context) (progress : Progress) (lines : List SourceLine) :
    (producedFrom context progress lines).lines.length =
      (piecesFrom context progress lines).countP Piece.isProduced := by
  rw [producedFrom, List.length_map, List.countP_eq_length_filter]

/-- A limit cuts off the lines that macros would produce beyond it and leaves everything else in its
place. It is warned about once if there are such lines, and otherwise not at all. The other
warnings are some of those given without a limit. -/
theorem pieces_limited (context : Context) (limit : Nat) (lines : List SourceLine) :
    (∀ limit?, (pieces (context.withLimit limit?) lines).map Piece.record =
        (expand (context.withLimit limit?) lines).lines ∧
      (pieces (context.withLimit limit?) lines).filter (!·.isProduced) =
        (lines.filter (!isInvocation ·)).map .passed) ∧
    pieces (context.withLimit (some limit)) lines =
      keepProduced limit (pieces (context.withLimit none) lines) ∧
    (pieces (context.withLimit (some limit)) lines).countP Piece.isProduced =
      min limit ((pieces (context.withLimit none) lines).countP Piece.isProduced) ∧
    (expand (context.withLimit (some limit)) lines).warnings.countP isLimitWarning =
      (if limit < (pieces (context.withLimit none) lines).countP Piece.isProduced then 1 else 0) ∧
    (expand (context.withLimit none) lines).warnings.countP isLimitWarning = 0 ∧
    ((expand (context.withLimit (some limit)) lines).warnings.filter (!isLimitWarning ·)).Sublist
      (expand (context.withLimit none) lines).warnings := by
  have hstart : Progress.start.produced ≤ limit := Nat.zero_le limit
  have hpieces := @piecesFrom_limited context limit lines _ hstart .start
  have hcuts := @cuts_producedFrom context limit lines _ hstart .start
  have hwarnings := hcuts.limitWarnings
  rw [length_producedFrom] at hwarnings
  simp only [Progress.start, Nat.sub_zero, true_and] at hwarnings
  refine ⟨fun limit? => ⟨record_pieces lines, passed_pieces lines⟩, hpieces, ?_,
    hwarnings, hcuts.unlimitedWarnings, hcuts.otherWarnings⟩
  rw [pieces, hpieces, countP_keepProduced]
  rfl

end JassOutline.Expansion
