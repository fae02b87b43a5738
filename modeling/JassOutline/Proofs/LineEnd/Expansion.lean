import JassOutline.Proofs.Expansion.Machine
import JassOutline.Proofs.LineEnd.Substitution

/-!
# Expanding lines that differ in their ends

Two streams that are alike are expanded in the same steps. `Machine.Alike` relates two expansions
under way: whatever line the one reads, the other one reads a line that is alike, and what they have
turned their lines into is alike.

## Key results

- `Machine.Alike.step`: one step keeps two machines alike
- `Machine.Alike.exists_reaches`: a run keeps two machines alike
- `expand_alike`: the expanded streams and their warnings
- `Machine.mem_trace`, `Machine.output_after`: the states and the output of a machine, computed
-/

namespace JassOutline.Expansion

variable {isOpen : Nat → Bool}

/-- Two contexts with the same limit and with definitions that are alike. -/
structure Context.Alike (isOpen : Nat → Bool) (context context' : Context) : Prop where
  macros : List.Forall₂ (TextMacro.Pairs (SourceLine.Alike isOpen)) context.table.macros
    context'.table.macros
  limit?_eq : context'.limit? = context.limit?

/-- Two outputs with lines that are alike, the same problems and the same progress. -/
structure Output.Alike (isOpen : Nat → Bool) (output output' : Output) : Prop where
  lines : List.Forall₂ (SourceLine.Alike isOpen) output.lines output'.lines
  problems : output'.warnings.map Warning.problem = output.warnings.map Warning.problem
  progress : output'.progress = output.progress

/-- Two machines that have lines to read that are alike, and have made the same of what they have
read. -/
structure Machine.Alike (isOpen : Nat → Bool) (machine machine' : Machine) : Prop where
  stream : List.Forall₂ (SourceLine.Alike isOpen) machine.stream machine'.stream
  replays : List.Forall₂
    (fun replay replay' => List.Forall₂ (SourceLine.Alike isOpen) replay.lines replay'.lines)
    machine.replays machine'.replays
  active : machine'.active = machine.active
  output : machine.output.Alike isOpen machine'.output

/-! ### Outputs -/

namespace Output.Alike

variable {output output' rest rest' : Output}

theorem silent (progress : Progress) :
    Output.Alike isOpen (Output.silent progress) (Output.silent progress) :=
  ⟨.nil, rfl, rfl⟩

theorem warn (problem : Problem) (site site' : SourceLine) (source source' : Nat)
    (progress : Progress) :
    Output.Alike isOpen (Output.warn (.onLine problem site source) progress)
      (Output.warn (.onLine problem site' source') progress) :=
  ⟨.nil, rfl, rfl⟩

theorem cons {record record' : SourceLine} (hrecord : record.Alike isOpen record')
    (h : output.Alike isOpen output') :
    (Output.cons record output).Alike isOpen (Output.cons record' output') :=
  ⟨.cons hrecord h.lines, h.problems, h.progress⟩

theorem append (h : output.Alike isOpen output') (hrest : rest.Alike isOpen rest') :
    (output.append rest).Alike isOpen (output'.append rest') where
  lines := List.rel_append h.lines hrest.lines
  problems := by
    rw [Output.append, Output.append, List.map_append, List.map_append, h.problems, hrest.problems]
  progress := hrest.progress

end Output.Alike

/-! ### Contexts -/

namespace Context.Alike

variable {context context' : Context} (h : context.Alike isOpen context')

include h

theorem find? (name : String) :
    Option.Rel (TextMacro.Pairs (SourceLine.Alike isOpen)) (context.table.find? name)
      (context'.table.find? name) := by
  have hmacros := h.macros
  rw [MacroTable.find?, MacroTable.find?]
  generalize context.table.macros = macros, context'.table.macros = macros' at hmacros
  induction hmacros with
  | nil => exact .none
  | @cons definition definition' _ _ hdefinition _ ih =>
    rw [List.find?_cons, List.find?_cons, hdefinition.name]
    split
    · exact .some hdefinition
    · exact ih

theorem isSpent (progress : Progress) : context'.isSpent progress = context.isSpent progress := by
  rw [Context.isSpent, h.limit?_eq, Context.isSpent]

omit h in
theorem stop (context context' : Context) (site site' : SourceLine) (progress : Progress) :
    (context.stop site progress).Alike isOpen (context'.stop site' progress) := by
  rw [Context.stop, Context.stop]
  split
  · exact .silent progress
  · exact .warn ..

end Context.Alike

/-! ### Machines -/

namespace Machine.Alike

variable {context context' : Context} {machine machine' : Machine}

theorem start {lines lines' : List SourceLine}
    (h : List.Forall₂ (SourceLine.Alike isOpen) lines lines') :
    (Machine.start lines).Alike isOpen (.start lines') :=
  ⟨h, .nil, rfl, .silent .start⟩

theorem put (h : machine.Alike isOpen machine') {output output' : Output}
    (houtput : output.Alike isOpen output') :
    (machine.put output).Alike isOpen (machine'.put output') :=
  ⟨h.stream, h.replays, h.active, h.output.append houtput⟩

/-- Both machines read lines that are alike next, or none. -/
theorem next? (h : machine.Alike isOpen machine') :
    Option.Rel (fun next next' => next.1.Alike isOpen next'.1 ∧ next.2.Alike isOpen next'.2)
      machine.next? machine'.next? := by
  obtain ⟨stream, replays, active, output⟩ := machine
  obtain ⟨stream', replays', active', output'⟩ := machine'
  obtain ⟨hstream, hreplays, hactive, houtput⟩ := h
  cases hreplays with
  | nil =>
    cases hstream with
    | nil => exact .none
    | cons hrecord hrest => exact .some ⟨hrecord, hrest, .nil, hactive, houtput⟩
  | @cons replay replay' _ _ hreplay houter =>
    obtain ⟨site, lines⟩ := replay
    obtain ⟨site', lines'⟩ := replay'
    cases hreplay with
    | nil => exact .none
    | cons hrecord hrest =>
      exact .some ⟨hrecord, hstream, .cons hrest houter, hactive, houtput⟩

/-- The same request does the same to both machines. -/
theorem invoke (h : machine.Alike isOpen machine') (hcontext : context.Alike isOpen context')
    {invocation : Invocation} (site' : SourceLine)
    (harguments : ∀ argument ∈ invocation.arguments, ∀ c ∈ argument.toList,
      Text.isLineBreak c = false) :
    (machine.invoke context invocation).Alike isOpen
      (machine'.invoke context' { invocation with site := site' }) := by
  have hfind := hcontext.find? invocation.name
  unfold Machine.invoke
  rw [h.active, h.output.progress]
  generalize context.table.find? invocation.name = definition? at hfind
  dsimp only
  generalize context'.table.find? invocation.name = definition?' at hfind
  cases hfind with
  | none =>
    dsimp only
    split
    · exact h
    · exact h.put (.warn ..)
  | some hdefinition =>
    dsimp only
    split
    · exact h.put (.warn ..)
    · exact ⟨h.stream, .cons (hdefinition.instantiate harguments) h.replays, rfl, h.output⟩

/-- Both machines keep the lines they have read, or both drop the rest of a replay. -/
theorem keep (h : machine.Alike isOpen machine') (hcontext : context.Alike isOpen context')
    {record record' : SourceLine} (hrecord : record.Alike isOpen record') :
    (machine.keep context record).Alike isOpen (machine'.keep context' record') := by
  have hreplays := h.replays
  unfold Machine.keep
  rw [h.output.progress, hcontext.isSpent]
  generalize machine.replays = replays at hreplays
  generalize machine'.replays = replays' at hreplays
  cases hreplays with
  | nil => exact h.put (.cons hrecord (.silent _))
  | @cons replay replay' outer outer' _ houter =>
    dsimp only
    split
    · have hdropped : Machine.Alike isOpen
          { machine with replays := { replay with lines := [] } :: outer }
          { machine' with replays := { replay' with lines := [] } :: outer' } :=
        ⟨h.stream, .cons .nil houter, h.active, h.output⟩
      exact hdropped.put (Context.Alike.stop ..)
    · exact h.put (.cons hrecord (.silent _))

theorem leave? (h : machine.Alike isOpen machine') :
    Option.Rel (Machine.Alike isOpen) machine.leave? machine'.leave? := by
  have hreplays := h.replays
  unfold Machine.leave?
  generalize machine.replays = replays at hreplays
  generalize machine'.replays = replays' at hreplays
  cases hreplays with
  | nil => exact .none
  | cons _ houter => exact .some ⟨h.stream, houter, congrArg List.tail h.active, h.output⟩

/-- One step keeps two machines alike, or both have come to their end. -/
theorem step (h : machine.Alike isOpen machine') (hcontext : context.Alike isOpen context')
    (hclosed : ∀ record behind, machine.next? = some (record, behind) →
      Directive.ofLine? record = some .macroRun →
        ∀ token ∈ TextMacro.directiveTokens record, token.isClosed = true) :
    Option.Rel (Machine.Alike isOpen) (machine.step context) (machine'.step context') := by
  have hnext := h.next?
  unfold Machine.step
  generalize machine'.next? = next?' at hnext
  generalize hread : machine.next? = next? at hnext
  cases hnext with
  | none => exact h.leave?
  | @some next next' hboth =>
    obtain ⟨record, behind⟩ := next
    obtain ⟨record', behind'⟩ := next'
    obtain ⟨hrecord, hbehind⟩ := hboth
    dsimp only at hrecord hbehind ⊢
    rw [hrecord.directive]
    split
    · next hrun =>
      rw [hrecord.invocation (hclosed record behind hread hrun)]
      exact .some (hbehind.invoke hcontext record' hrecord.isLineBreak_arguments)
    · exact .some (hbehind.keep hcontext hrecord)

/-- A run keeps two machines alike. -/
theorem exists_reaches (h : machine.Alike isOpen machine')
    (hcontext : context.Alike isOpen context')
    (hclosed : ∀ reached, Reaches context machine reached → ∀ record behind,
      reached.next? = some (record, behind) → Directive.ofLine? record = some .macroRun →
        ∀ token ∈ TextMacro.directiveTokens record, token.isClosed = true)
    {last : Machine} (hlast : Reaches context machine last) :
    ∃ last', Reaches context' machine' last' ∧ last.Alike isOpen last' := by
  induction hlast with
  | refl => exact ⟨machine', .refl, h⟩
  | @tail reached last hreached hstep ih =>
    obtain ⟨reached', hreached', halike⟩ := ih
    have hsteps := halike.step hcontext (hclosed reached hreached)
    rw [hstep] at hsteps
    generalize hstep' : reached'.step context' = after? at hsteps
    cases hsteps with
    | some hafter => exact ⟨_, hreached'.tail hstep', hafter⟩

end Machine.Alike

/-- A machine that has come to its end reaches no other state. -/
theorem Machine.eq_of_step_eq_none {context : Context} {machine reached : Machine}
    (hend : machine.step context = none) (h : Reaches context machine reached) :
    machine = reached := by
  cases h using Relation.ReflTransGen.head_induction_on with
  | refl => rfl
  | head hstep _ => simp [hend] at hstep

/-- A machine comes to one end only. -/
theorem Machine.eq_of_reaches {context : Context} {machine last last' : Machine}
    (h : Reaches context machine last) (hend : last.step context = none)
    (h' : Reaches context machine last') (hend' : last'.step context = none) : last = last' := by
  have hunique : Relator.RightUnique fun machine after : Machine =>
      machine.step context = some after := fun _ _ _ hb hc =>
    Option.some.inj (hb.symm.trans hc)
  rcases Relation.ReflTransGen.total_of_right_unique hunique h h' with hreaches | hreaches
  · exact eq_of_step_eq_none hend hreaches
  · exact (eq_of_step_eq_none hend' hreaches).symm

/-- Two streams that are alike are expanded to streams that are alike, with the same problems, if
the literals of the invocations that are read are closed. -/
theorem expand_alike {context context' : Context} (hcontext : context.Alike isOpen context')
    {lines lines' : List SourceLine} (h : List.Forall₂ (SourceLine.Alike isOpen) lines lines')
    (hclosed : ∀ machine, Machine.Reaches context (.start lines) machine → ∀ record behind,
      machine.next? = some (record, behind) → Directive.ofLine? record = some .macroRun →
        ∀ token ∈ TextMacro.directiveTokens record, token.isClosed = true) :
    (expand context lines).Alike isOpen (expand context' lines') := by
  have hlast : Machine.Reaches context (.start lines) _ := Machine.reaches_expandFrom lines _
  have hlast' : Machine.Reaches context' (.start lines') _ := Machine.reaches_expandFrom lines' _
  obtain ⟨reached, hreached, halike⟩ :=
    (Machine.Alike.start h).exists_reaches hcontext hclosed hlast
  -- The second machine has come to its end as well
  have hstuck := halike.step hcontext (hclosed _ hlast)
  have hend : reached.step context' = none := by
    generalize reached.step context' = after? at hstuck
    cases hstuck
    rfl
  have hreached' := Machine.eq_of_reaches hlast' rfl hreached hend
  have houtput := halike.output
  rw [← hreached'] at houtput
  exact houtput

/-! ### Running a machine -/

namespace Machine

variable {context : Context}

/-- The machine after the given number of steps, or at its end. -/
def after (context : Context) : Nat → Machine → Machine
  | 0, machine => machine
  | steps + 1, machine => (machine.step context).elim machine (after context steps)

/-- The states that a machine goes through in the given number of steps. -/
def trace (context : Context) : Nat → Machine → List Machine
  | 0, machine => [machine]
  | steps + 1, machine => machine :: (machine.step context).elim [] (trace context steps)

theorem reaches_after (steps : Nat) (machine : Machine) :
    Reaches context machine (machine.after context steps) := by
  induction steps generalizing machine with
  | zero => exact .refl
  | succ steps ih =>
    rw [after]
    cases hstep : machine.step context with
    | none => exact .refl
    | some next => exact .of_step hstep (ih next)

/-- A machine that has come to its end has gone through no other states. -/
theorem mem_trace {steps : Nat} {machine reached : Machine}
    (hend : (machine.after context steps).step context = none)
    (h : Reaches context machine reached) : reached ∈ machine.trace context steps := by
  induction steps generalizing machine with
  | zero =>
    rw [← eq_of_step_eq_none hend h]
    exact List.mem_singleton_self _
  | succ steps ih =>
    cases h using Relation.ReflTransGen.head_induction_on with
    | refl => exact List.mem_cons_self
    | head hstep hrest =>
      rw [after, hstep] at hend
      rw [trace, hstep]
      exact List.mem_cons_of_mem _ (ih hend hrest)

/-- A machine that has come to its end has put out the expanded stream. -/
theorem output_after {steps : Nat} {lines : List SourceLine}
    (hend : ((start lines).after context steps).step context = none) :
    ((start lines).after context steps).output = expand context lines := by
  have hlast : Reaches context (start lines) _ := reaches_expandFrom lines _
  rw [eq_of_reaches (reaches_after steps _) hend hlast rfl]
  rfl

end Machine

end JassOutline.Expansion
