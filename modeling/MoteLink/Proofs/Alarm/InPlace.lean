import MoteLink.Proofs.Alarm.History

/-!
# Requests in place

A request changes the alarm table in place, step by step, and what it has changed before it is
refused stays changed. No request is refused after its first change, so a request that is refused
leaves the table as it was.
-/

namespace MoteLink

variable {κ : Type}

/-- Steps that change an alarm table, up to one that is refused. -/
abbrev InPlace (κ : Type) := EStateM AlarmError (Alarms κ)

namespace InPlace

open Alarms

def find (id : AlarmId) : InPlace κ (Registration κ) := do
  match (← get).get? id with
  | none => throw (.unknown id)
  | some r => return r

def register (action : κ) (arg : Nat) : InPlace κ Unit := do
  if 255 < (← get).registered.length then throw .tableFull
  if (← get).capacity ≤ (← get).registered.length then throw .tableFull
  modify fun a => { a with registered := a.registered ++ [{ action, arg }] }

def scheduleAt (id : AlarmId) (deadline : Tick) : InPlace κ Unit := do
  let pass := (← get).pass
  let r ← find id
  modify (Alarms.modify · id fun r => { r with state := .scheduled deadline, pass })
  if r.state ≠ .idle then modify (Alarms.unlink · id)
  modify (Alarms.link · id deadline)

def cancel (id : AlarmId) : InPlace κ Unit := do
  let r ← find id
  if r.state = .idle then return
  modify (Alarms.modify · id fun r => { r with state := .idle })
  modify (Alarms.unlink · id)

def rebind (id : AlarmId) (action : κ) (arg : Nat) : InPlace κ Unit := do
  cancel id
  let _ ← find id
  modify (Alarms.modify · id fun r => { r with action, arg })

def ask : Request κ → InPlace κ Unit
  | .register action arg => register action arg
  | .rebind id action arg => rebind id action arg
  | .schedule now id delay => scheduleAt id (now + delay)
  | .scheduleAt id deadline => scheduleAt id deadline
  | .cancel id => cancel id

/-- What is left of `a` in place: the new table, or `a` itself after a refusal. -/
def leaves (a : Alarms κ) :
    Except AlarmError (Alarms κ) → EStateM.Result AlarmError (Alarms κ) Unit
  | .ok a' => .ok () a'
  | .error e => .error e a

theorem run_find (a : Alarms κ) (id : AlarmId) :
    (find id).run a =
      match a.get? id with
      | none => .error (.unknown id) a
      | some r => .ok r a := by
  unfold find
  cases found : a.get? id with
  | none =>
    simp only [EStateM.run_bind, EStateM.run_get, found]
    rfl
  | some r => simp [found]

theorem run_register (a : Alarms κ) (action : κ) (arg : Nat) :
    (register action arg).run a = leaves a ((a.register action arg).map Prod.snd) := by
  unfold register Alarms.register
  by_cases numbered : 255 < a.registered.length
  · simp [numbered, leaves, Except.map]
  · by_cases full : a.capacity ≤ a.registered.length <;>
      simp [numbered, full, leaves, Except.map]

theorem run_scheduleAt (a : Alarms κ) (id : AlarmId) (deadline : Tick) :
    (scheduleAt id deadline).run a = leaves a (a.scheduleAt id deadline) := by
  unfold scheduleAt Alarms.scheduleAt
  simp only [EStateM.run_bind, EStateM.run_get, run_find]
  cases a.get? id with
  | none => rfl
  | some r => by_cases idle : r.state = .idle <;> simp [idle, leaves]

theorem run_cancel (a : Alarms κ) (id : AlarmId) :
    (cancel id).run a = leaves a (a.cancel id) := by
  unfold cancel Alarms.cancel
  rw [EStateM.run_bind, run_find]
  cases a.get? id with
  | none => rfl
  | some r => by_cases idle : r.state = .idle <;> simp [idle, leaves]

theorem run_rebind (a : Alarms κ) (id : AlarmId) (action : κ) (arg : Nat) :
    (rebind id action arg).run a = leaves a (a.rebind id action arg) := by
  unfold rebind Alarms.rebind
  rw [EStateM.run_bind, run_cancel]
  cases cancelled : a.cancel id with
  | error e => rfl
  | ok idle =>
    -- What was cancelled is found again, so the second step is not refused.
    have sets := sets_cancel cancelled
    have known : (idle.get? id).isSome := by
      rw [isSome_get?_iff, sets.count, ← isSome_get?_iff]
      exact sets.known
    obtain ⟨r, found⟩ := Option.isSome_iff_exists.mp known
    simp [leaves, run_find, found]

theorem run_ask (a : Alarms κ) (r : Request κ) : (ask r).run a = leaves a (a.ask r) := by
  cases r with
  | register action arg => exact run_register a action arg
  | rebind id action arg => exact run_rebind a id action arg
  | schedule now id delay => exact run_scheduleAt a id (now + delay)
  | scheduleAt id deadline => exact run_scheduleAt a id deadline
  | cancel id => exact run_cancel a id

end InPlace

end MoteLink
