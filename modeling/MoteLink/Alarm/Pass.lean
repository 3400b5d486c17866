import MoteLink.Alarm.Basic

/-!
# Passes

A pass fires the alarms whose deadline has come, in order. An alarm is idle and out of the queue
by the time its action runs, so that the action may schedule it anew; what is scheduled during a
pass waits for the next one.
-/

namespace MoteLink

variable {κ σ : Type}

/-- What actions do, to a context of type `σ` and to the alarms. -/
abbrev Action (κ σ : Type) := κ → AlarmId → Nat → σ × Alarms κ → Except Halt (σ × Alarms κ)

/-- What is to be done with the alarm at the head of the queue. -/
inductive Head (κ : Type) where
  /-- Nothing is due. -/
  | done
  /-- The number has no place in the queue, for no alarm is scheduled under it. -/
  | stray (id : AlarmId)
  | due (id : AlarmId) (r : Registration κ)
  deriving DecidableEq, Repr

namespace Alarms

/-- The alarm at the head of the queue fires if its deadline has come and it was not scheduled
    during the current pass. -/
def head (a : Alarms κ) (now : Tick) : Head κ :=
  match a.queue with
  | [] => .done
  | id :: _ =>
    match a.get? id with
    | none => .stray id
    | some r =>
      match r.state with
      | .idle => .stray id
      | .scheduled deadline =>
        if Tick.isAfter deadline now || r.pass == a.pass then .done else .due id r

/-- The alarms as an action finds them that is fired by `id`. -/
def release (a : Alarms κ) (id : AlarmId) : Alarms κ :=
  (a.modify id fun r => { r with state := .idle }).unlink id

/-- Fire due alarms, in at most `rounds` rounds, and count them from `fired` on. -/
def fireDue (act : Action κ σ) (now : Tick) :
    Nat → Nat → σ × Alarms κ → Except Halt (Nat × σ × Alarms κ)
  | 0, _, _ => .error .outOfSteps
  | rounds + 1, fired, (ctx, a) =>
    match a.head now with
    | .done => .ok (fired, ctx, a)
    | .stray id => fireDue act now rounds fired (ctx, a.unlink id)
    | .due id r =>
      match act r.action id r.arg (ctx, a.release id) with
      | .error halt => .error halt
      | .ok s => fireDue act now rounds (fired + 1) s

/-- Begin another pass. -/
def beginPass (a : Alarms κ) : Alarms κ :=
  { a with pass := a.pass + 1 }

/-- A pass of at most `rounds` rounds. -/
def passWithin (rounds : Nat) (act : Action κ σ) (now : Tick) (s : σ × Alarms κ) :
    Except Halt (Nat × σ × Alarms κ) :=
  fireDue act now rounds 0 (s.1, s.2.beginPass)

/-- A pass at `now`, with the number of alarms fired. Each round takes an alarm out of the queue
    that was there before, so long as actions begin no passes of their own. -/
def process (act : Action κ σ) (now : Tick) (s : σ × Alarms κ) :
    Except Halt (Nat × σ × Alarms κ) :=
  passWithin (s.2.queue.length + 1) act now s

end Alarms

end MoteLink
