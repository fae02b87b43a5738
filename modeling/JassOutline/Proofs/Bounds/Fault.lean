/-!
# Faults

The readers of this library take lists apart, and a list that is taken apart has no outside. A
reader that goes by positions can miss: it may cut a list behind its end, take a count below zero,
or go round in a loop without getting on. Each of these is a `Fault`. `Checked.loop` is the
loop that all such readers are written with.

## Key results

- `Checked.loop_eq`: one round of a loop
- `Fault.behind_of_le`, `Fault.upTo_of_le`, `Fault.between_of_le`: where a list may be cut
-/

namespace JassOutline

/-- What a reader that goes by positions can do wrong. -/
inductive Fault where
  /-- A cut behind the end of what is read, or in the middle of a character. -/
  | outside
  /-- A count that is taken below zero. -/
  | belowZero
  /-- A round of a loop after which no less is ahead than before it. -/
  | stuck
  deriving DecidableEq, Repr

/-- A computation that changes a state and may fail. -/
abbrev Checked (τ ε : Type) := StateT τ (Except ε)

/-- Goes round after round from the given state on. A round may start others, each of which has to
have less ahead. -/
def rounds (stuck : ε) (ahead : σ → Nat) (round : (σ → Except ε β) → σ → Except ε β) (s : σ) :
    Except ε β :=
  round (fun later => if ahead later < ahead s then rounds stuck ahead round later
    else .error stuck) s
termination_by ahead s

namespace Checked

/-- Goes round after round. A round that starts another one must have left less ahead. -/
def loop {τ ε β : Type} (stuck : ε) (ahead : τ → Nat)
    (round : (σ → Checked τ ε β) → σ → Checked τ ε β) (s : σ) : Checked τ ε β := fun state =>
  rounds stuck (fun pair : σ × τ => ahead pair.2)
    (fun again pair => round (fun later after => again (later, after)) pair.1 pair.2) (s, state)

variable {τ ε α β : Type}

/-- One round of a loop. -/
theorem loop_eq (stuck : ε) (ahead : τ → Nat) (round : (σ → Checked τ ε β) → σ → Checked τ ε β)
    (s : σ) (state : τ) :
    loop stuck ahead round s state =
      round (fun later after =>
        if ahead after < ahead state then loop stuck ahead round later after else .error stuck)
        s state := by
  show rounds .. = _
  rw [rounds]
  rfl

/-- A computation goes on from where the one before it ended. -/
theorem bind_of_eq {x : Checked τ ε α} {state after : τ} {value : α}
    (h : x state = .ok (value, after)) (next : α → Checked τ ε β) :
    (x >>= next) state = next value after := by
  show (x state).bind _ = _
  rw [h]
  rfl

theorem bind_of_error {x : Checked τ ε α} {state : τ} {e : ε} (h : x state = .error e)
    (next : α → Checked τ ε β) : (x >>= next) state = .error e := by
  show (x state).bind _ = _
  rw [h]
  rfl

end Checked

namespace Fault

/-- The items from a position on. -/
def behind (items : List α) (start : Nat) : Except Fault (List α) :=
  if start ≤ items.length then .ok (items.drop start) else .error .outside

/-- The items in front of a position. -/
def upTo (items : List α) (stop : Nat) : Except Fault (List α) :=
  if stop ≤ items.length then .ok (items.take stop) else .error .outside

/-- The items from one position to another. -/
def between (items : List α) (start stop : Nat) : Except Fault (List α) :=
  if start ≤ stop then do behind (← upTo items stop) start else .error .outside

/-- A count less one. -/
def lower : Nat → Except Fault Nat
  | 0 => .error .belowZero
  | count + 1 => .ok count

/-- Where nothing faults, the next cut is made. -/
theorem ok_bind (value : α) (next : α → Except Fault β) : (Except.ok value >>= next) = next value :=
  rfl

theorem behind_of_le {items : List α} {start : Nat} (h : start ≤ items.length) :
    behind items start = .ok (items.drop start) := by
  rw [behind, if_pos h]

theorem behind_cons (first : α) (rest : List α) : behind (first :: rest) 1 = .ok rest :=
  behind_of_le (Nat.succ_le_succ (Nat.zero_le _))

theorem upTo_of_le {items : List α} {stop : Nat} (h : stop ≤ items.length) :
    upTo items stop = .ok (items.take stop) := by
  rw [upTo, if_pos h]

theorem between_of_le {items : List α} {start stop : Nat} (hstart : start ≤ stop)
    (hstop : stop ≤ items.length) :
    between items start stop = .ok ((items.take stop).drop start) := by
  have hlength : start ≤ (items.take stop).length := by
    rw [List.length_take]
    omega
  rw [between, if_pos hstart, upTo_of_le hstop]
  exact behind_of_le hlength

end Fault

end JassOutline
