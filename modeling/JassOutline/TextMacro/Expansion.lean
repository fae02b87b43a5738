import JassOutline.TextMacro.Invocation

/-!
# Expansion of text macros

`Expansion.expand` replaces each invocation in a stream of lines by the lines of its macro. Lines
of a macro may be invocations themselves. A macro that is being replayed is never started again,
so a replay ends: the number of macros not being replayed falls with every nested invocation, and
within one replay the number of remaining lines falls. An optional limit bounds the number of
lines that macros produce.

Bridge lemmas: `Context.idle_lt_of_start` says that the measure falls, and `run_undefined`,
`run_recursive`, `run_start`, `replay_invocation`, `replay_spent` and `replay_line` say what one
step of a replay does. `run_induction` has a case for each of them.
-/

namespace JassOutline.Expansion

/-- What stays the same while a text is expanded. -/
structure Context where
  table : MacroTable
  /-- The number of lines that macros may produce. -/
  limit? : Option Nat
  source : Nat

/-- What earlier replays leave for later ones. -/
structure Progress where
  /-- The number of lines that macros have produced. -/
  produced : Nat
  limitReported : Bool
  deriving DecidableEq, Repr

namespace Progress

/-- Nothing has been produced. -/
def start : Progress := ⟨0, false⟩

/-- One more line has been produced. -/
def count (progress : Progress) : Progress :=
  { progress with produced := progress.produced + 1 }

end Progress

/-- The lines that a part of the stream turns into, with the warnings it gives. -/
structure Output where
  lines : List SourceLine
  warnings : List Warning
  progress : Progress
  deriving DecidableEq, Repr

namespace Output

/-- Nothing is produced. -/
def silent (progress : Progress) : Output := ⟨[], [], progress⟩

/-- Nothing is produced, and a line is warned about. -/
def warn (warning : Warning) (progress : Progress) : Output := ⟨[], [warning], progress⟩

/-- One line is followed by an output. -/
def cons (record : SourceLine) (rest : Output) : Output :=
  { rest with lines := record :: rest.lines }

/-- One output after another. -/
def append (first rest : Output) : Output :=
  ⟨first.lines ++ rest.lines, first.warnings ++ rest.warnings, rest.progress⟩

end Output

namespace Context

/-- Whether the limit admits no further line. -/
def isSpent (context : Context) (progress : Progress) : Bool :=
  context.limit?.any (· ≤ progress.produced)

/-- What the replay ends with when the limit admits no further line. The first time, the
invocation is warned about. -/
def stop (context : Context) (site : SourceLine) (progress : Progress) : Output :=
  if progress.limitReported then .silent progress
  else
    .warn (.onLine .expansionLimit site context.source) { progress with limitReported := true }

/-- The number of macros that are not being replayed. -/
def idle (context : Context) (active : List String) : Nat :=
  (context.table.macros.filter fun definition => !active.contains definition.name).length

theorem idle_lt_of_start {context : Context} {active : List String} {name : String}
    {definition : TextMacro} (h : context.table.find? name = some definition)
    (hactive : active.contains name = false) :
    context.idle (name :: active) < context.idle active := by
  have hmem : definition ∈ context.table.macros.filter fun d => !active.contains d.name :=
    List.mem_filter.2 ⟨MacroTable.mem_of_find? h, by rw [MacroTable.name_find? h, hactive]; rfl⟩
  have hsplit : (context.table.macros.filter fun d => !(name :: active).contains d.name) =
      (context.table.macros.filter fun d => !active.contains d.name).filter
        fun d => !(d.name == name) := by
    rw [List.filter_filter]
    exact congrArg (List.filter · _) (funext fun d => by rw [List.contains_cons, Bool.not_or])
  rw [idle, idle, hsplit]
  refine List.length_filter_lt_length_iff_exists.2 ⟨definition, hmem, ?_⟩
  simp [MacroTable.name_find? h]

end Context

mutual

/-- The output of an invocation while the given macros are being replayed. -/
def run (context : Context) (active : List String) (invocation : Invocation)
    (progress : Progress) : Output :=
  match _hfind : context.table.find? invocation.name with
  | none =>
    if invocation.isOptional then .silent progress
    else .warn (.onLine (.macroUndefined invocation.name) invocation.site context.source) progress
  | some definition =>
    -- A macro inside its own replay would never end
    if _hactive : active.contains invocation.name then
      .warn (.onLine (.macroRecursive invocation.name) invocation.site context.source) progress
    else
      replay context (invocation.name :: active) invocation.site
        (definition.instantiate invocation.arguments) progress
termination_by (context.idle active, 0)
decreasing_by
  exact Prod.Lex.left _ _ (Context.idle_lt_of_start _hfind (by simpa using _hactive))

/-- The output of lines of a macro that was invoked at the given line. -/
def replay (context : Context) (active : List String) (site : SourceLine)
    (lines : List SourceLine) (progress : Progress) : Output :=
  match lines with
  | [] => .silent progress
  | record :: rest =>
    -- An invocation is no line of the output, so the limit does not stop it
    if Directive.ofLine? record = some .macroRun then
      let nested := run context active (.ofLine record) progress
      nested.append (replay context active site rest nested.progress)
    else if context.isSpent progress then context.stop site progress
    else .cons record (replay context active site rest progress.count)
termination_by (context.idle active, lines.length + 1)
decreasing_by
  all_goals exact Prod.Lex.right _ (by simp)

end

section

variable {context : Context} {active : List String} {invocation : Invocation}
  {definition : TextMacro} {site record : SourceLine} {rest : List SourceLine}

theorem run_undefined (h : context.table.find? invocation.name = none) (progress : Progress) :
    run context active invocation progress =
      if invocation.isOptional then .silent progress
      else
        .warn (.onLine (.macroUndefined invocation.name) invocation.site context.source)
          progress := by
  rw [run]
  split
  · rfl
  · next hfind => simp [h] at hfind

theorem run_recursive (h : context.table.find? invocation.name = some definition)
    (hactive : active.contains invocation.name = true) (progress : Progress) :
    run context active invocation progress =
      .warn (.onLine (.macroRecursive invocation.name) invocation.site context.source)
        progress := by
  rw [run]
  split
  · next hfind => simp [h] at hfind
  · rw [dif_pos hactive]

theorem run_start (h : context.table.find? invocation.name = some definition)
    (hactive : ¬active.contains invocation.name = true) (progress : Progress) :
    run context active invocation progress =
      replay context (invocation.name :: active) invocation.site
        (definition.instantiate invocation.arguments) progress := by
  rw [run]
  split
  · next hfind => simp [h] at hfind
  · next found hfind =>
    obtain rfl : found = definition := Option.some.inj (hfind.symm.trans h)
    rw [dif_neg hactive]

@[simp] theorem replay_nil (progress : Progress) :
    replay context active site [] progress = .silent progress := by
  rw [replay]

theorem replay_invocation (h : Directive.ofLine? record = some .macroRun) (progress : Progress) :
    replay context active site (record :: rest) progress =
      (run context active (.ofLine record) progress).append
        (replay context active site rest
          (run context active (.ofLine record) progress).progress) := by
  rw [replay, if_pos h]

theorem replay_spent (h : Directive.ofLine? record ≠ some .macroRun) {progress : Progress}
    (hspent : context.isSpent progress = true) :
    replay context active site (record :: rest) progress = context.stop site progress := by
  rw [replay, if_neg h, if_pos hspent]

theorem replay_line (h : Directive.ofLine? record ≠ some .macroRun) {progress : Progress}
    (hspent : ¬context.isSpent progress = true) :
    replay context active site (record :: rest) progress =
      .cons record (replay context active site rest progress.count) := by
  rw [replay, if_neg h, if_neg hspent]

end

/-- Induction on invocations and on the lines they replay, with a case for each way either can
go. -/
theorem run_induction {context : Context} {runs : List String → Invocation → Progress → Prop}
    {replays : List String → SourceLine → List SourceLine → Progress → Prop}
    (optional : ∀ active invocation progress, context.table.find? invocation.name = none →
      invocation.isOptional = true → runs active invocation progress)
    (undefined : ∀ active invocation progress, context.table.find? invocation.name = none →
      ¬invocation.isOptional = true → runs active invocation progress)
    (recursive : ∀ active invocation progress definition,
      context.table.find? invocation.name = some definition →
        active.contains invocation.name = true → runs active invocation progress)
    (start : ∀ active invocation progress definition,
      context.table.find? invocation.name = some definition →
        ¬active.contains invocation.name = true →
          replays (invocation.name :: active) invocation.site
            (definition.instantiate invocation.arguments) progress →
              runs active invocation progress)
    (nil : ∀ active site progress, replays active site [] progress)
    (nested : ∀ active site progress record rest, Directive.ofLine? record = some .macroRun →
      runs active (.ofLine record) progress →
        replays active site rest (run context active (.ofLine record) progress).progress →
          replays active site (record :: rest) progress)
    (spent : ∀ active site progress record rest, ¬Directive.ofLine? record = some .macroRun →
      context.isSpent progress = true → replays active site (record :: rest) progress)
    (line : ∀ active site progress record rest, ¬Directive.ofLine? record = some .macroRun →
      ¬context.isSpent progress = true → replays active site rest progress.count →
        replays active site (record :: rest) progress) :
    (∀ active invocation progress, runs active invocation progress) ∧
      ∀ active site lines progress, replays active site lines progress :=
  run.mutual_induct context runs replays optional undefined recursive start nil nested spent line

/-- The output of a stream of lines. Lines that are no invocations pass. -/
def expandFrom (context : Context) (progress : Progress) : List SourceLine → Output
  | [] => .silent progress
  | record :: rest =>
    if Directive.ofLine? record = some .macroRun then
      let expanded := run context [] (.ofLine record) progress
      expanded.append (expandFrom context expanded.progress rest)
    else .cons record (expandFrom context progress rest)

theorem expandFrom_invocation {context : Context} {record : SourceLine}
    (h : Directive.ofLine? record = some .macroRun) (progress : Progress)
    (rest : List SourceLine) :
    expandFrom context progress (record :: rest) =
      (run context [] (.ofLine record) progress).append
        (expandFrom context (run context [] (.ofLine record) progress).progress rest) := by
  rw [expandFrom, if_pos h]

theorem expandFrom_line {context : Context} {record : SourceLine}
    (h : Directive.ofLine? record ≠ some .macroRun) (progress : Progress)
    (rest : List SourceLine) :
    expandFrom context progress (record :: rest) =
      .cons record (expandFrom context progress rest) := by
  rw [expandFrom, if_neg h]

/-- The stream with every invocation replaced. -/
def expand (context : Context) (lines : List SourceLine) : Output :=
  expandFrom context .start lines

end JassOutline.Expansion
