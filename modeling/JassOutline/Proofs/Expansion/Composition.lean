import JassOutline.Proofs.Expansion.Limit
import JassOutline.Proofs.Expansion.Machine

/-!
# Expansion line by line

Without a limit the invocations of a stream have nothing to do with each other: each line turns
into what it would turn into if it stood alone. What earlier invocations leave for later ones is
the count of the lines that macros have produced and whether the limit was reported, and without a
limit neither is ever looked at.

## Key results

- `restamps_run`: without a limit an invocation yields the same whatever was produced before, and
  the number of the source only marks its warnings
- `not_isInvocation_run`: no invocation is left in what an invocation yields
- `expand_append`: the expansion of a stream is put together from those of its parts
-/

namespace JassOutline.Expansion

/-- The same context for a text with another number. -/
def Context.forSource (context : Context) (source : Nat) : Context :=
  { context with source }

/-- The warning about the same line of a text with another number. -/
def restamp (source : Nat) (warning : Warning) : Warning :=
  { warning with source }

variable {context : Context}

/-! ### What was produced before -/

/-- The second output has the lines of the first one and its warnings, those with the number of
another source. -/
structure Restamps (source : Nat) (a b : Output) : Prop where
  lines : b.lines = a.lines
  warnings : b.warnings = a.warnings.map (restamp source)

namespace Restamps

variable {source : Nat} {a b a' b' : Output}

theorem silent (progress progress' : Progress) :
    Restamps source (.silent progress) (.silent progress') :=
  ⟨rfl, rfl⟩

theorem warn (problem : Problem) (site : SourceLine) (number : Nat)
    (progress progress' : Progress) :
    Restamps source (.warn (.onLine problem site number) progress)
      (.warn (.onLine problem site source) progress') :=
  ⟨rfl, rfl⟩

theorem append (h : Restamps source a a') (hrest : Restamps source b b') :
    Restamps source (a.append b) (a'.append b') := by
  constructor
  · show a'.lines ++ b'.lines = a.lines ++ b.lines
    rw [h.lines, hrest.lines]
  · show a'.warnings ++ b'.warnings = (a.warnings ++ b.warnings).map (restamp source)
    rw [h.warnings, hrest.warnings, List.map_append]

theorem cons (record : SourceLine) (h : Restamps source a a') :
    Restamps source (.cons record a) (.cons record a') :=
  ⟨congrArg (record :: ·) h.lines, h.warnings⟩

end Restamps

/-- Without a limit an invocation yields the same lines and the same warnings whatever has been
produced before. The number of the source stands in the warnings and nowhere else. -/
theorem restamps_run (context : Context) (source : Nat) :
    (∀ active invocation progress progress',
      Restamps source (run (context.withLimit none) active invocation progress)
        (run ((context.withLimit none).forSource source) active invocation progress')) ∧
    ∀ active site lines progress progress',
      Restamps source (replay (context.withLimit none) active site lines progress)
        (replay ((context.withLimit none).forSource source) active site lines progress') := by
  -- One case for each way a call of `run` or `replay` can go
  apply run_induction
  case optional =>
    intro active invocation progress hfind hoptional progress'
    rw [run_undefined hfind,
      @run_undefined ((context.withLimit none).forSource source) _ _ hfind, if_pos hoptional,
      if_pos hoptional]
    exact .silent progress progress'
  case undefined =>
    intro active invocation progress hfind hoptional progress'
    rw [run_undefined hfind,
      @run_undefined ((context.withLimit none).forSource source) _ _ hfind, if_neg hoptional,
      if_neg hoptional]
    exact .warn _ _ _ progress progress'
  case recursive =>
    intro active invocation progress definition hfind hactive progress'
    rw [run_recursive hfind hactive,
      @run_recursive ((context.withLimit none).forSource source) _ _ _ hfind hactive]
    exact .warn _ _ _ progress progress'
  case start =>
    intro active invocation progress definition hfind hactive ih progress'
    rw [run_start hfind hactive,
      @run_start ((context.withLimit none).forSource source) _ _ _ hfind hactive]
    exact ih progress'
  case nil =>
    intro active site progress progress'
    rw [replay_nil, replay_nil]
    exact .silent progress progress'
  case nested =>
    -- What the nested invocation leaves differs, and the rest of the replay does not mind
    intro active site progress record rest hrun ihrun ihrest progress'
    rw [replay_invocation hrun, replay_invocation hrun]
    exact (ihrun progress').append (ihrest _)
  case spent =>
    -- Without a limit nothing is ever spent
    intro active site progress record rest hline hspent progress'
    exact absurd hspent (not_isSpent_withLimit_none progress)
  case line =>
    intro active site progress record rest hline hspent ih progress'
    have hspent' : ¬((context.withLimit none).forSource source).isSpent progress' = true :=
      @not_isSpent_withLimit_none context progress'
    rw [replay_line hline hspent, replay_line hline hspent']
    exact (ih _).cons record

theorem restamps_expandFrom (source : Nat) (lines : List SourceLine)
    (progress progress' : Progress) :
    Restamps source (expandFrom (context.withLimit none) progress lines)
      (expandFrom ((context.withLimit none).forSource source) progress' lines) := by
  induction lines generalizing progress progress' with
  | nil => exact .silent progress progress'
  | cons record rest ih =>
    by_cases hrun : Directive.ofLine? record = some .macroRun
    · rw [expandFrom_invocation hrun, expandFrom_invocation hrun]
      exact ((restamps_run context source).1 ..).append (ih ..)
    · rw [expandFrom_line hrun, expandFrom_line hrun]
      exact (ih ..).cons record

/-- Without a limit a stream turns into the same lines, with the same warnings, whatever has been
produced before. -/
theorem expandFrom_progress (lines : List SourceLine) (progress progress' : Progress) :
    (expandFrom (context.withLimit none) progress lines).lines =
        (expandFrom (context.withLimit none) progress' lines).lines ∧
      (expandFrom (context.withLimit none) progress lines).warnings =
        (expandFrom (context.withLimit none) progress' lines).warnings := by
  have h := @restamps_expandFrom context context.source lines progress' progress
  have h' := @restamps_expandFrom context context.source lines progress' progress'
  exact ⟨h.lines.trans h'.lines.symm, h.warnings.trans h'.warnings.symm⟩

/-! ### Streams -/

/-- With or without a limit, the second part of a stream is expanded behind the first one. -/
theorem expandFrom_append (progress : Progress) (front back : List SourceLine) :
    expandFrom context progress (front ++ back) =
      (expandFrom context progress front).append
        (expandFrom context (expandFrom context progress front).progress back) := by
  induction front generalizing progress with
  | nil => rfl
  | cons record rest ih =>
    rw [List.cons_append]
    by_cases hrun : Directive.ofLine? record = some .macroRun
    · rw [expandFrom_invocation hrun, expandFrom_invocation hrun, ih, Output.append_assoc]
      rfl
    · rw [expandFrom_line hrun, expandFrom_line hrun, ih]
      rfl

theorem lines_expand_append (front back : List SourceLine) :
    (expand (context.withLimit none) (front ++ back)).lines =
      (expand (context.withLimit none) front).lines ++
        (expand (context.withLimit none) back).lines := by
  rw [expand, expandFrom_append, expand, expand, (expandFrom_progress back .start _).1]
  rfl

theorem warnings_expand_append (front back : List SourceLine) :
    (expand (context.withLimit none) (front ++ back)).warnings =
      (expand (context.withLimit none) front).warnings ++
        (expand (context.withLimit none) back).warnings := by
  rw [expand, expandFrom_append, expand, expand, (expandFrom_progress back .start _).2]
  rfl

/-- A function of streams that goes through their parts goes through their lines. -/
theorem eq_flatMap_of_append (yield : List SourceLine → List α) (hnil : yield [] = [])
    (happend : ∀ front back, yield (front ++ back) = yield front ++ yield back)
    (lines : List SourceLine) : yield lines = lines.flatMap fun record => yield [record] := by
  induction lines with
  | nil => exact hnil
  | cons record rest ih =>
    rw [List.flatMap_cons, ← ih]
    exact happend [record] rest

theorem expand_single (record : SourceLine) :
    expand context [record] =
      if isInvocation record then run context [] (.ofLine record) .start
      else ⟨[record], [], .start⟩ := by
  by_cases hrun : Directive.ofLine? record = some .macroRun
  · rw [expand, expandFrom_invocation hrun, if_pos (by simpa [isInvocation] using hrun)]
    exact Output.append_silent _
  · rw [expand, expandFrom_line hrun, if_neg (by simpa [isInvocation] using hrun)]
    rfl

/-! ### Invocations in the output -/

/-- Whatever the lines of a macro turn into when their parameters are replaced: those that are
invocations then are replayed and not kept, at every depth. -/
theorem not_isInvocation_run (context : Context) :
    (∀ active invocation progress,
      ∀ record ∈ (run context active invocation progress).lines, isInvocation record = false) ∧
    ∀ active site lines progress,
      ∀ record ∈ (replay context active site lines progress).lines,
        isInvocation record = false := by
  -- Only the last case keeps a line, and it does so because the line is no invocation
  apply run_induction
  case optional =>
    intro active invocation progress hfind hoptional
    rw [run_undefined hfind, if_pos hoptional]
    exact List.forall_mem_nil _
  case undefined =>
    intro active invocation progress hfind hoptional
    rw [run_undefined hfind, if_neg hoptional]
    exact List.forall_mem_nil _
  case recursive =>
    intro active invocation progress definition hfind hactive
    rw [run_recursive hfind hactive]
    exact List.forall_mem_nil _
  case start =>
    intro active invocation progress definition hfind hactive ih
    rw [run_start hfind hactive]
    exact ih
  case nil =>
    intro active site progress
    rw [replay_nil]
    exact List.forall_mem_nil _
  case nested =>
    intro active site progress record rest hrun ihrun ihrest
    rw [replay_invocation hrun]
    exact List.forall_mem_append.2 ⟨ihrun, ihrest⟩
  case spent =>
    intro active site progress record rest hline hspent
    rw [replay_spent hline hspent, Context.stop]
    split <;> exact List.forall_mem_nil _
  case line =>
    intro active site progress record rest hline hspent ih
    rw [replay_line hline hspent]
    exact List.forall_mem_cons.2 ⟨by simpa [isInvocation] using hline, ih⟩

theorem not_isInvocation_expandFrom (progress : Progress) (lines : List SourceLine) :
    ∀ record ∈ (expandFrom context progress lines).lines, isInvocation record = false := by
  induction lines generalizing progress with
  | nil => exact List.forall_mem_nil _
  | cons record rest ih =>
    by_cases hrun : Directive.ofLine? record = some .macroRun
    · rw [expandFrom_invocation hrun]
      exact List.forall_mem_append.2 ⟨(not_isInvocation_run context).1 _ _ _, ih _⟩
    · rw [expandFrom_line hrun]
      exact List.forall_mem_cons.2 ⟨by simpa [isInvocation] using hrun, ih _⟩

/-! ### Composition -/

/-- Without a limit the expansion of two streams, one behind the other, is that of the first and
then that of the second, and so are the warnings. Hence a stream turns into what its lines turn
into, each taken alone: an invocation is replaced by what it yields at the start of a text, which
the number of the source does not change, and every other line passes as it is. With or without a
limit, no invocation is left in the output. -/
theorem expand_append (context : Context) :
    (∀ front back,
      (expand (context.withLimit none) (front ++ back)).lines =
          (expand (context.withLimit none) front).lines ++
            (expand (context.withLimit none) back).lines ∧
        (expand (context.withLimit none) (front ++ back)).warnings =
          (expand (context.withLimit none) front).warnings ++
            (expand (context.withLimit none) back).warnings) ∧
    (∀ lines,
      (expand (context.withLimit none) lines).lines =
          lines.flatMap (fun record => (expand (context.withLimit none) [record]).lines) ∧
        (expand (context.withLimit none) lines).warnings =
          lines.flatMap (fun record => (expand (context.withLimit none) [record]).warnings)) ∧
    (∀ record, expand (context.withLimit none) [record] =
      if isInvocation record then run (context.withLimit none) [] (.ofLine record) .start
      else ⟨[record], [], .start⟩) ∧
    (∀ source record,
      (expand ((context.withLimit none).forSource source) [record]).lines =
          (expand (context.withLimit none) [record]).lines ∧
        (expand ((context.withLimit none).forSource source) [record]).warnings =
          (expand (context.withLimit none) [record]).warnings.map (restamp source)) ∧
    ∀ limit? lines,
      (expand (context.withLimit limit?) lines).lines.filter isInvocation = [] := by
  refine ⟨fun front back => ⟨lines_expand_append front back, warnings_expand_append front back⟩,
    fun lines => ⟨?_, ?_⟩, expand_single, fun source record => ?_, fun limit? lines => ?_⟩
  · exact eq_flatMap_of_append (fun lines => (expand _ lines).lines) rfl lines_expand_append lines
  · exact eq_flatMap_of_append (fun lines => (expand _ lines).warnings) rfl warnings_expand_append
      lines
  · have h := @restamps_expandFrom context source [record] .start .start
    exact ⟨h.lines, h.warnings⟩
  · refine List.filter_eq_nil_iff.2 fun record hrecord => ?_
    rw [not_isInvocation_expandFrom .start lines record hrecord]
    exact Bool.false_ne_true

end JassOutline.Expansion
