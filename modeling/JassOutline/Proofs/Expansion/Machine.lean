import Mathlib.Data.List.Dedup
import Mathlib.Data.List.Perm.Subperm
import Mathlib.Logic.Relation
import JassOutline.TextMacro.Expansion

/-!
# Expansion step by step

A `Machine` is an expansion under way. It holds the replays that have not ended and, apart from
them, the stack of the names being replayed, which grows where a replay starts and shrinks where
one ends. One step reads one line or ends one replay. The machine and `expand` do the same, so
that whatever holds in every state of the machine holds at every moment of an expansion.

## Key results

- `Machine.IsSound.step`: what one step preserves, `Machine.IsSound.reaches`: what a run preserves
- `Machine.reaches_run`: an invocation leaves the machine as it was, but for its output
- `expand_halts`: every expansion ends, and the stack of names stays sound and balanced
-/

namespace JassOutline.Expansion

/-- A replay that has been started and has not ended. -/
structure Replay where
  /-- The line that invoked the macro. -/
  site : SourceLine
  /-- The lines of the macro that have not been read. -/
  lines : List SourceLine

/-- An expansion under way. -/
structure Machine where
  /-- The lines of the stream that have not been read. -/
  stream : List SourceLine
  /-- The replays that have not ended, innermost first. -/
  replays : List Replay
  /-- The names of the macros being replayed, the one started last first. -/
  active : List String
  /-- What the lines read so far have turned into. -/
  output : Output

namespace Output

@[simp] theorem append_silent (output : Output) :
    output.append (silent output.progress) = output := by
  simp [append, silent]

theorem append_assoc (a b c : Output) : (a.append b).append c = a.append (b.append c) := by
  simp [append]

end Output

namespace Machine

/-! ### Steps -/

/-- Nothing has been read. -/
def start (lines : List SourceLine) : Machine := ⟨lines, [], [], .silent .start⟩

/-- An output follows what there is. -/
def put (machine : Machine) (output : Output) : Machine :=
  { machine with output := machine.output.append output }

/-- The line to be read next, and the machine behind it. -/
def next? (machine : Machine) : Option (SourceLine × Machine) :=
  match machine.replays, machine.stream with
  | [], [] => none
  | [], record :: rest => some (record, { machine with stream := rest })
  | ⟨_, []⟩ :: _, _ => none
  | ⟨site, record :: rest⟩ :: outer, _ =>
    some (record, { machine with replays := ⟨site, rest⟩ :: outer })

/-- An invocation starts a replay, or is dropped. -/
def invoke (context : Context) (machine : Machine) (invocation : Invocation) : Machine :=
  match context.table.find? invocation.name with
  | none =>
    if invocation.isOptional then machine
    else
      machine.put (.warn (.onLine (.macroUndefined invocation.name) invocation.site context.source)
        machine.output.progress)
  | some definition =>
    if machine.active.contains invocation.name then
      machine.put (.warn (.onLine (.macroRecursive invocation.name) invocation.site context.source)
        machine.output.progress)
    else
      { machine with
        replays :=
          ⟨invocation.site, definition.instantiate invocation.arguments⟩ :: machine.replays
        active := invocation.name :: machine.active }

/-- A line that is no invocation is kept. Where the limit admits no further line of a macro, the
lines that are left of the replay are dropped instead. -/
def keep (context : Context) (machine : Machine) (record : SourceLine) : Machine :=
  match machine.replays with
  | [] => machine.put (.cons record (.silent machine.output.progress))
  | replay :: outer =>
    if context.isSpent machine.output.progress then
      { machine with replays := { replay with lines := [] } :: outer }.put
        (context.stop replay.site machine.output.progress)
    else machine.put (.cons record (.silent machine.output.progress.count))

/-- The innermost replay ends, if there is one. -/
def leave? (machine : Machine) : Option Machine :=
  match machine.replays with
  | [] => none
  | _ :: outer => some { machine with replays := outer, active := machine.active.tail }

/-- The machine after one more line, or after the end of a replay that has no line left. Without
replays and lines there is no step. -/
def step (context : Context) (machine : Machine) : Option Machine :=
  match machine.next? with
  | some (record, behind) =>
    if Directive.ofLine? record = some .macroRun then
      some (behind.invoke context (.ofLine record))
    else some (behind.keep context record)
  | none => machine.leave?

/-- The second machine is the first one after any number of steps. -/
def Reaches (context : Context) : Machine → Machine → Prop :=
  Relation.ReflTransGen fun machine after => machine.step context = some after

/-! ### A run of the machine -/

variable {context : Context}

theorem Reaches.of_step {machine after last : Machine} (h : machine.step context = some after)
    (hlast : Reaches context after last) : Reaches context machine last :=
  Relation.ReflTransGen.head h hlast

/-- Reading a line takes it from the stream or from a replay, and touches nothing else. -/
theorem reads_of_next? {machine behind : Machine} {record : SourceLine}
    (hnext : machine.next? = some (record, behind)) :
    behind.active = machine.active ∧ behind.output = machine.output ∧
      behind.replays.length = machine.replays.length := by
  unfold next? at hnext
  split at hnext
  · exact nomatch hnext
  · obtain ⟨-, rfl⟩ := Prod.mk.inj (Option.some.inj hnext)
    exact ⟨rfl, rfl, rfl⟩
  · exact nomatch hnext
  · next hreplays =>
    obtain ⟨-, rfl⟩ := Prod.mk.inj (Option.some.inj hnext)
    refine ⟨rfl, rfl, ?_⟩
    rw [hreplays]
    rfl

/-- A replay in a machine that otherwise is the given one. -/
def inReplay (machine : Machine) (name : String) (site : SourceLine) (lines : List SourceLine) :
    Machine :=
  { machine with replays := ⟨site, lines⟩ :: machine.replays, active := name :: machine.active }

theorem next?_inReplay (machine : Machine) (name : String) (site record : SourceLine)
    (rest : List SourceLine) :
    (machine.inReplay name site (record :: rest)).next? =
      some (record, machine.inReplay name site rest) := rfl

/-- A replay without lines ends, and takes its name off the stack. -/
theorem step_inReplay_nil (machine : Machine) (name : String) (site : SourceLine) :
    (machine.inReplay name site []).step context = some machine := rfl

@[simp] theorem put_silent (machine : Machine) :
    machine.put (.silent machine.output.progress) = machine := by
  simp [put]

theorem put_put (machine : Machine) (a b : Output) :
    (machine.put a).put b = machine.put (a.append b) := by
  simp [put, Output.append_assoc]

theorem step_invocation {machine behind : Machine} {record : SourceLine}
    (hnext : machine.next? = some (record, behind))
    (hrun : Directive.ofLine? record = some .macroRun) :
    machine.step context = some (behind.invoke context (.ofLine record)) := by
  simp [step, hnext, hrun]

theorem step_line {machine behind : Machine} {record : SourceLine}
    (hnext : machine.next? = some (record, behind))
    (hline : Directive.ofLine? record ≠ some .macroRun) :
    machine.step context = some (behind.keep context record) := by
  simp [step, hnext, hline]

/-- Where the limit is reached, the rest of the replay is dropped. -/
theorem keep_spent (machine : Machine) (name : String) (site record : SourceLine)
    (rest : List SourceLine) (hspent : context.isSpent machine.output.progress = true) :
    (machine.inReplay name site rest).keep context record =
      (machine.put (context.stop site machine.output.progress)).inReplay name site [] := by
  simp [keep, inReplay, put, hspent]

theorem keep_line (machine : Machine) (name : String) (site record : SourceLine)
    (rest : List SourceLine) (hspent : ¬context.isSpent machine.output.progress = true) :
    (machine.inReplay name site rest).keep context record =
      (machine.put (.cons record (.silent machine.output.progress.count))).inReplay name site
        rest := by
  simp [keep, inReplay, put, hspent]

/-- A machine that has read an invocation comes back to where it stands, with the output of the
invocation: whatever way the invocation ends, the stack is what it was. -/
theorem reaches_run (machine : Machine) (invocation : Invocation) :
    Reaches context (machine.invoke context invocation)
      (machine.put (run context machine.active invocation machine.output.progress)) := by
  -- The statement about a replay says the same of a machine that has a name more on its stack
  suffices h :
      (∀ active invocation progress, ∀ machine : Machine, machine.active = active →
        machine.output.progress = progress →
          Reaches context (machine.invoke context invocation)
            (machine.put (run context active invocation progress))) ∧
      ∀ active site lines progress, ∀ (machine : Machine) (name : String),
        name :: machine.active = active → machine.output.progress = progress →
          Reaches context (machine.inReplay name site lines)
            (machine.put (replay context active site lines progress)) from
    h.1 _ invocation _ machine rfl rfl
  apply run_induction
  case optional =>
    rintro active invocation progress hfind hoptional machine rfl rfl
    rw [run_undefined hfind, invoke, hfind]
    simp only [hoptional, if_true, put_silent]
    exact .refl
  case undefined =>
    rintro active invocation progress hfind hoptional machine rfl rfl
    rw [run_undefined hfind, invoke, hfind]
    simp only [hoptional, Bool.false_eq_true, if_false]
    exact .refl
  case recursive =>
    rintro active invocation progress definition hfind hactive machine rfl rfl
    rw [run_recursive hfind hactive, invoke, hfind]
    simp only [hactive, if_true]
    exact .refl
  case start =>
    rintro active invocation progress definition hfind hactive ih machine rfl rfl
    rw [run_start hfind hactive, invoke, hfind]
    simp only [hactive, Bool.false_eq_true, if_false]
    exact ih machine invocation.name rfl rfl
  case nil =>
    rintro active site progress machine name rfl rfl
    rw [replay_nil, put_silent]
    exact .single (step_inReplay_nil machine name site)
  case nested =>
    -- The nested invocation runs in front of what is left of the replay
    rintro active site progress record rest hrun ihrun ihrest machine name rfl rfl
    rw [replay_invocation hrun, ← put_put]
    refine .of_step (step_invocation (next?_inReplay machine name site record rest) hrun)
      ((ihrun (machine.inReplay name site rest) rfl rfl).trans ?_)
    exact ihrest (machine.put _) name rfl rfl
  case spent =>
    rintro active site progress record rest hline hspent machine name rfl rfl
    rw [replay_spent hline hspent]
    refine .of_step (step_line (next?_inReplay machine name site record rest) hline) ?_
    rw [keep_spent machine name site record rest hspent]
    exact .single (step_inReplay_nil _ name site)
  case line =>
    rintro active site progress record rest hline hspent ih machine name rfl rfl
    rw [replay_line hline hspent]
    refine .of_step (step_line (next?_inReplay machine name site record rest) hline) ?_
    rw [keep_line machine name site record rest hspent]
    have hput := ih (machine.put (.cons record (.silent machine.output.progress.count))) name
      rfl rfl
    rwa [put_put] at hput

/-- A machine outside of every replay reads the rest of its stream. -/
theorem reaches_expandFrom (lines : List SourceLine) (output : Output) :
    Reaches context ⟨lines, [], [], output⟩
      ⟨[], [], [], output.append (expandFrom context output.progress lines)⟩ := by
  induction lines generalizing output with
  | nil =>
    rw [expandFrom, Output.append_silent]
    exact .refl
  | cons record rest ih =>
    have hnext : next? ⟨record :: rest, [], [], output⟩ = some (record, ⟨rest, [], [], output⟩) :=
      rfl
    by_cases hrun : Directive.ofLine? record = some .macroRun
    · rw [expandFrom_invocation hrun, ← Output.append_assoc]
      exact .of_step (step_invocation hnext hrun) ((reaches_run _ _).trans (ih _))
    · rw [expandFrom_line hrun]
      have hrest := ih (output.append (.cons record (.silent output.progress)))
      rw [Output.append_assoc] at hrest
      exact .of_step (step_line hnext hrun) hrest

/-! ### The stack of names -/

/-- The stack holds the names of as many macros as there are replays, each of them once. -/
structure IsSound (context : Context) (machine : Machine) : Prop where
  nodup : machine.active.Nodup
  isDefined : ∀ name ∈ machine.active, (context.table.find? name).isSome = true
  length_eq : machine.active.length = machine.replays.length

theorem isSound_start (lines : List SourceLine) : IsSound context (start lines) where
  nodup := List.nodup_nil
  isDefined := fun _ h => absurd h List.not_mem_nil
  length_eq := rfl

namespace IsSound

variable {machine behind after : Machine}

theorem put (h : IsSound context machine) (output : Output) :
    IsSound context (machine.put output) :=
  ⟨h.nodup, h.isDefined, h.length_eq⟩

theorem next? (h : IsSound context machine) {record : SourceLine}
    (hnext : machine.next? = some (record, behind)) : IsSound context behind := by
  obtain ⟨hactive, -, hlength⟩ := reads_of_next? hnext
  refine ⟨hactive ▸ h.nodup, hactive ▸ h.isDefined, ?_⟩
  rw [hactive, hlength]
  exact h.length_eq

/-- An invocation puts a name onto the stack only if the name is defined and not there yet. -/
theorem invoke (h : IsSound context machine) (invocation : Invocation) :
    IsSound context (machine.invoke context invocation) := by
  unfold Machine.invoke
  split
  · split
    · exact h
    · exact h.put _
  · next definition hfind =>
    split
    · exact h.put _
    · next hactive =>
      have hmem : invocation.name ∉ machine.active := by simpa using hactive
      refine ⟨List.nodup_cons.2 ⟨hmem, h.nodup⟩, ?_, congrArg (· + 1) h.length_eq⟩
      rintro name (_ | ⟨_, hname⟩)
      · rw [hfind]
        rfl
      · exact h.isDefined name hname

theorem keep (h : IsSound context machine) (record : SourceLine) :
    IsSound context (machine.keep context record) := by
  unfold Machine.keep
  split
  · exact h.put _
  · next hreplays =>
    split
    · exact ⟨h.nodup, h.isDefined, by simpa [Machine.put, hreplays] using h.length_eq⟩
    · exact h.put _

/-- The end of a replay takes off the name that its start put on. -/
theorem leave? (h : IsSound context machine) (hleave : machine.leave? = some after) :
    IsSound context after := by
  unfold Machine.leave? at hleave
  split at hleave
  · exact nomatch hleave
  · next hreplays =>
    obtain rfl := Option.some.inj hleave
    refine ⟨h.nodup.tail, fun name hname => h.isDefined name (List.mem_of_mem_tail hname), ?_⟩
    have hlength := h.length_eq
    rw [hreplays, List.length_cons] at hlength
    rw [List.length_tail, hlength]
    rfl

/-- One step keeps the stack sound. -/
theorem step (h : IsSound context machine) (hstep : machine.step context = some after) :
    IsSound context after := by
  unfold Machine.step at hstep
  split at hstep
  · next record behind hnext =>
    have hbehind := h.next? hnext
    split at hstep
    · obtain rfl := Option.some.inj hstep
      exact hbehind.invoke _
    · obtain rfl := Option.some.inj hstep
      exact hbehind.keep _
  · exact h.leave? hstep

/-- A run keeps the stack sound. -/
theorem reaches (h : IsSound context machine) (hreaches : Reaches context machine after) :
    IsSound context after := by
  induction hreaches with
  | refl => exact h
  | tail _ hstep ih => exact ih.step hstep

theorem exists_definition (h : IsSound context machine) {name : String}
    (hname : name ∈ machine.active) :
    ∃ definition ∈ context.table.macros, definition.name = name := by
  obtain ⟨definition, hfind⟩ := Option.isSome_iff_exists.1 (h.isDefined name hname)
  exact ⟨definition, MacroTable.mem_of_find? hfind, MacroTable.name_find? hfind⟩

/-- Replays are nested no deeper than there are different names. -/
theorem length_replays_le (h : IsSound context machine) :
    machine.replays.length ≤ (context.table.macros.map TextMacro.name).dedup.length := by
  have hsubset : machine.active ⊆ (context.table.macros.map TextMacro.name).dedup := by
    intro name hname
    obtain ⟨definition, hmem, rfl⟩ := h.exists_definition hname
    exact List.mem_dedup.2 (List.mem_map_of_mem hmem)
  rw [← h.length_eq]
  exact (h.nodup.subperm hsubset).length_le

end IsSound

/-- An invocation of a macro that is being replayed is dropped in one step, with a warning. -/
theorem step_recursive {machine behind : Machine} (h : IsSound context machine)
    {record : SourceLine} (hnext : machine.next? = some (record, behind))
    (hrun : Directive.ofLine? record = some .macroRun)
    (hactive : (Invocation.ofLine record).name ∈ machine.active) :
    machine.step context = some (behind.put (.warn
      (.onLine (.macroRecursive (Invocation.ofLine record).name) record context.source)
      behind.output.progress)) := by
  obtain ⟨definition, hfind⟩ := Option.isSome_iff_exists.1 (h.isDefined _ hactive)
  have hcontains : behind.active.contains (Invocation.ofLine record).name = true := by
    rw [(reads_of_next? hnext).1]
    simpa using hactive
  rw [step_invocation hnext hrun, invoke, hfind]
  simp only [hcontains, if_true]
  rfl

end Machine

/-- Every expansion ends, with the output of `expand` and with nothing on the stack of names. At
every moment the names on the stack are different names of the table, one for each replay that has
not ended, so that replays are nested no deeper than there are names. However an invocation ends,
it leaves the stack and the replays as it found them, and an invocation of a macro whose name is
on the stack does nothing but warn once. -/
theorem expand_halts (context : Context) (lines : List SourceLine) :
    (∃ last, Machine.Reaches context (.start lines) last ∧ last.step context = none ∧
      last.active = [] ∧ last.output = expand context lines) ∧
    ∀ machine, Machine.Reaches context (.start lines) machine →
      machine.active.Nodup ∧
      (∀ name ∈ machine.active, ∃ definition ∈ context.table.macros, definition.name = name) ∧
      machine.active.length = machine.replays.length ∧
      machine.replays.length ≤ (context.table.macros.map TextMacro.name).dedup.length ∧
      ∀ record behind, machine.next? = some (record, behind) →
        Directive.ofLine? record = some .macroRun →
        (∃ after, Machine.Reaches context machine after ∧
          after.active = machine.active ∧
          after.replays = behind.replays ∧
          after.stream = behind.stream ∧
          after.output = machine.output.append
            (run context machine.active (.ofLine record) machine.output.progress)) ∧
        ((Invocation.ofLine record).name ∈ machine.active →
          ∃ after, machine.step context = some after ∧
            after.active = machine.active ∧
            after.replays = behind.replays ∧
            after.stream = behind.stream ∧
            after.output = machine.output.append (.warn
              (.onLine (.macroRecursive (Invocation.ofLine record).name) record context.source)
              machine.output.progress)) := by
  refine ⟨⟨_, Machine.reaches_expandFrom lines (.silent .start), rfl, rfl, rfl⟩, ?_⟩
  intro machine hreaches
  have hsound := (@Machine.isSound_start context lines).reaches hreaches
  refine ⟨hsound.nodup, fun name => hsound.exists_definition, hsound.length_eq,
    hsound.length_replays_le, ?_⟩
  intro record behind hnext hrun
  obtain ⟨hactive, houtput, -⟩ := Machine.reads_of_next? hnext
  constructor
  · have hback := @Machine.reaches_run context behind (.ofLine record)
    refine ⟨_, .of_step (Machine.step_invocation hnext hrun) hback, hactive, rfl, rfl, ?_⟩
    rw [← hactive, ← houtput]
    rfl
  · intro hmem
    refine ⟨_, Machine.step_recursive hsound hnext hrun hmem, hactive, rfl, rfl, ?_⟩
    rw [← houtput]
    rfl

end JassOutline.Expansion
