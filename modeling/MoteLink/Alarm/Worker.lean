import MoteLink.Alarm.Pass

/-!
# Alarms behind a lock

An interrupt and a worker share the alarms. Neither waits for the other: whoever finds the alarms
taken is refused. The interrupt raises a flag when alarms are due, and the worker takes the flag
and runs a pass.
-/

namespace MoteLink

/-- A value that one holder at a time may use. -/
structure Guarded (α : Type) where
  value : α
  locked : Bool := false
  deriving DecidableEq, Repr

namespace Guarded

variable {α β : Type}

/-- The value as it is while someone holds it. -/
def hold (g : Guarded α) : Guarded α := { g with locked := true }

/-- The value after its holder has let go of it. -/
def free (g : Guarded α) : Guarded α := { g with locked := false }

/-- Use the value, unless someone holds it. -/
def lock? (g : Guarded α) (use : α → β × α) : Option (β × Guarded α) :=
  if g.locked then none
  else
    let (result, value) := use g.value
    some (result, { value })

end Guarded

/-- Alarms shared by an interrupt and a worker, and the flag between the two. -/
structure Worker (κ : Type) where
  alarms : Guarded (Alarms κ)
  raised : Bool := false
  deriving DecidableEq, Repr

namespace Worker

variable {κ σ : Type}

def raise (w : Worker κ) : Worker κ := { w with raised := true }

/-- Lower the flag and tell whether it was up. -/
def take (w : Worker κ) : Bool × Worker κ := (w.raised, { w with raised := false })

/-- Raise the flag if an alarm is due, and tell so. Held alarms count as not due. -/
def signalReady (w : Worker κ) (now : Tick) : Bool × Worker κ :=
  match w.alarms.lock? fun a => (a.hasReady now, a) with
  | some (true, _) => (true, w.raise)
  | _ => (false, w)

/-- Run a pass of at most `rounds` rounds if the flag is up, lowering it first. Held alarms are
    left alone. -/
def runPendingWithin (rounds : Nat) (act : Action κ σ) (now : Tick) (ctx : σ) (w : Worker κ) :
    Except Halt (Nat × σ × Worker κ) :=
  match w.take with
  | (false, w) => .ok (0, ctx, w)
  | (true, w) =>
    if w.alarms.locked then .ok (0, ctx, w)
    else
      match Alarms.passWithin rounds act now (ctx, w.alarms.value) with
      | .error halt => .error halt
      | .ok (fired, ctx, value) => .ok (fired, ctx, { w with alarms := { value } })

/-- Run a pass if the flag is up. -/
def runPending (act : Action κ σ) (now : Tick) (ctx : σ) (w : Worker κ) :
    Except Halt (Nat × σ × Worker κ) :=
  w.runPendingWithin (w.alarms.value.queue.length + 1) act now ctx

end Worker

end MoteLink
