import MoteLink.Halt
import MoteLink.Tick

/-!
# Alarms

A table of alarms and the queue of those that are scheduled, by deadline and, where deadlines are
equal, by the order of scheduling. Each alarm is bound to an action and an argument for it;
actions are named by labels `κ`, and what a label does is told to the pass that fires it.
-/

namespace MoteLink

/-- Number of an alarm, counted from zero in the order of registration. -/
abbrev AlarmId := UInt8

/-- An alarm is idle or scheduled for a deadline. -/
inductive AlarmState where
  | idle
  | scheduled (deadline : Tick)
  deriving DecidableEq, Repr, Inhabited

/-- Why a request to the alarm table is refused. -/
inductive AlarmError where
  /-- No further alarm can be registered. -/
  | tableFull
  | unknown (id : AlarmId)
  deriving DecidableEq, Repr

/-- One registered alarm. -/
structure Registration (κ : Type) where
  action : κ
  arg : Nat
  state : AlarmState := .idle
  /-- The pass in which the alarm was scheduled last. -/
  pass : UInt32 := 0
  deriving DecidableEq, Repr

/-- An alarm table with room for `capacity` alarms. -/
structure Alarms (κ : Type) where
  capacity : Nat
  registered : List (Registration κ) := []
  /-- The scheduled alarms in the order in which they will fire. -/
  queue : List AlarmId := []
  /-- Number of the current pass. -/
  pass : UInt32 := 0
  deriving DecidableEq, Repr

namespace Alarms

variable {κ : Type}

def get? (a : Alarms κ) (id : AlarmId) : Option (Registration κ) :=
  a.registered[id.toNat]?

/-- Change one registration. -/
def modify (a : Alarms κ) (id : AlarmId) (f : Registration κ → Registration κ) : Alarms κ :=
  { a with registered := a.registered.modify id.toNat f }

def state (a : Alarms κ) (id : AlarmId) : Except AlarmError AlarmState :=
  match a.get? id with
  | none => .error (.unknown id)
  | some r => .ok r.state

/-- Deadline of an alarm, if it is scheduled. -/
def deadline? (a : Alarms κ) (id : AlarmId) : Option Tick :=
  match a.get? id with
  | some { state := .scheduled deadline, .. } => some deadline
  | _ => none

def isScheduled (a : Alarms κ) (id : AlarmId) : Bool :=
  (a.deadline? id).isSome

/-- Deadline of the alarm that fires next. -/
def nextDeadline (a : Alarms κ) : Option Tick :=
  a.queue.head?.bind a.deadline?

/-- Some alarm is scheduled. -/
def hasPending (a : Alarms κ) : Bool :=
  !a.queue.isEmpty

/-- The deadline of the alarm that fires next has come. -/
def hasReady (a : Alarms κ) (now : Tick) : Bool :=
  a.nextDeadline.any fun deadline => Tick.hasReached deadline now

/-- Register an alarm, idle at first. There are never more alarms than numbers for them. -/
def register (a : Alarms κ) (action : κ) (arg : Nat) : Except AlarmError (AlarmId × Alarms κ) :=
  let count := a.registered.length
  if 255 < count ∨ a.capacity ≤ count then .error .tableFull
  else .ok (UInt8.ofNat count, { a with registered := a.registered ++ [{ action, arg }] })

/-- Put an alarm into a queue behind every alarm that is not after `deadline`, as seen from the
    end of the queue. -/
def insertByDeadline (a : Alarms κ) (id : AlarmId) (deadline : Tick) (queue : List AlarmId) :
    List AlarmId :=
  let isLater (other : AlarmId) : Bool :=
    Tick.isAfter ((a.deadline? other).getD deadline) deadline
  let later := queue.reverse.takeWhile isLater
  (queue.reverse.dropWhile isLater).reverse ++ id :: later.reverse

/-- Put an alarm into the queue; a queue without room stays as it is. -/
def link (a : Alarms κ) (id : AlarmId) (deadline : Tick) : Alarms κ :=
  if a.queue.length < a.capacity then { a with queue := a.insertByDeadline id deadline a.queue }
  else a

/-- Take an alarm out of the queue. -/
def unlink (a : Alarms κ) (id : AlarmId) : Alarms κ :=
  { a with queue := a.queue.erase id }

/-- Schedule an alarm for a deadline, in place of the deadline that it may have. -/
def scheduleAt (a : Alarms κ) (id : AlarmId) (deadline : Tick) : Except AlarmError (Alarms κ) :=
  match a.get? id with
  | none => .error (.unknown id)
  | some r =>
    let a := a.modify id fun r => { r with state := .scheduled deadline, pass := a.pass }
    let a := if r.state = .idle then a else a.unlink id
    .ok (a.link id deadline)

/-- Schedule an alarm for `delay` ticks after `now`. -/
def schedule (a : Alarms κ) (now : Tick) (id : AlarmId) (delay : UInt32) :
    Except AlarmError (Alarms κ) :=
  a.scheduleAt id (now + delay)

/-- Make an alarm idle. -/
def cancel (a : Alarms κ) (id : AlarmId) : Except AlarmError (Alarms κ) :=
  match a.get? id with
  | none => .error (.unknown id)
  | some r =>
    if r.state = .idle then .ok a
    else .ok ((a.modify id fun r => { r with state := .idle }).unlink id)

/-- Make an alarm idle and bind it to another action. -/
def rebind (a : Alarms κ) (id : AlarmId) (action : κ) (arg : Nat) :
    Except AlarmError (Alarms κ) :=
  match a.cancel id with
  | .error e => .error e
  | .ok a => .ok (a.modify id fun r => { r with action, arg })

theorem hasPending_iff (a : Alarms κ) : a.hasPending = true ↔ a.queue ≠ [] := by
  simp [hasPending]

theorem length_registered_modify (a : Alarms κ) (id : AlarmId)
    (f : Registration κ → Registration κ) :
    (a.modify id f).registered.length = a.registered.length := by
  simp [modify]

end Alarms

end MoteLink
