import MoteLink.Proofs.Alarm.History
import MoteLink.Proofs.Clock

/-!
# Alarms under another clock

Ticks mean something only by their distance from each other. If the clock is set forward by `k`
ticks, and every deadline with it, then an alarm table does what it did before: `shift k` goes with
every operation on it. Ticks may pass zero on either clock, and no deadline has to be near.
-/

namespace MoteLink

variable {κ σ : Type}

def AlarmState.shift (k : Tick) : AlarmState → AlarmState
  | .idle => .idle
  | .scheduled deadline => .scheduled (deadline + k)

def Registration.shift (k : Tick) (r : Registration κ) : Registration κ :=
  { r with state := r.state.shift k }

def Head.shift (k : Tick) : Head κ → Head κ
  | .due id r => .due id (r.shift k)
  | h => h

theorem Registration.idle_shift_iff {k : Tick} {r : Registration κ} :
    (r.shift k).state = .idle ↔ r.state = .idle := by
  unfold shift
  cases r.state <;> simp [AlarmState.shift]

namespace Alarms

variable {k now deadline : Tick} {a : Alarms κ} {id : AlarmId}

/-- The table with every deadline `k` ticks later. -/
def shift (k : Tick) (a : Alarms κ) : Alarms κ :=
  { a with registered := a.registered.map (Registration.shift k) }

def Request.shift (k : Tick) : Request κ → Request κ
  | .schedule now id delay => .schedule (now + k) id delay
  | .scheduleAt id deadline => .scheduleAt id (deadline + k)
  | r => r

@[simp] theorem capacity_shift : (a.shift k).capacity = a.capacity := rfl

@[simp] theorem queue_shift : (a.shift k).queue = a.queue := rfl

@[simp] theorem pass_shift : (a.shift k).pass = a.pass := rfl

@[simp] theorem length_registered_shift :
    (a.shift k).registered.length = a.registered.length := by
  simp [shift]

@[simp] theorem get?_shift : (a.shift k).get? id = (a.get? id).map (Registration.shift k) := by
  simp [shift, get?]

@[simp] theorem deadline?_shift : (a.shift k).deadline? id = (a.deadline? id).map (· + k) := by
  unfold deadline?
  rw [get?_shift]
  rcases a.get? id with - | ⟨action, arg, - | deadline, pass⟩ <;> rfl

/-! ## Looking -/

@[simp] theorem nextDeadline_shift : (a.shift k).nextDeadline = a.nextDeadline.map (· + k) := by
  unfold nextDeadline
  rw [queue_shift]
  cases a.queue.head? with
  | none => rfl
  | some id => exact deadline?_shift

@[simp] theorem hasReady_shift : (a.shift k).hasReady (now + k) = a.hasReady now := by
  unfold hasReady
  rw [nextDeadline_shift]
  cases a.nextDeadline with
  | none => rfl
  | some deadline => exact Tick.hasReached_add deadline now k

theorem head_shift : (a.shift k).head (now + k) = (a.head now).shift k := by
  unfold head
  rw [queue_shift]
  cases a.queue with
  | nil => rfl
  | cons id rest =>
    simp only [get?_shift]
    rcases a.get? id with - | ⟨action, arg, - | deadline, pass⟩
    · rfl
    · rfl
    · simp only [Option.map_some, Registration.shift, AlarmState.shift, Tick.isAfter_add,
        pass_shift]
      split <;> rfl

/-! ## Changing -/

/-- A change that goes with the clock may be made before or after the clock is set. -/
theorem modify_shift {f f' : Registration κ → Registration κ}
    (goes : ∀ r, f' (r.shift k) = (f r).shift k) :
    (a.shift k).modify id f' = (a.modify id f).shift k := by
  simp only [modify, shift, Alarms.mk.injEq, true_and, and_true]
  apply List.ext_getElem?
  intro place
  simp only [List.getElem?_modify, List.getElem?_map]
  cases a.registered[place]? with
  | none => rfl
  | some r => by_cases here : id.toNat = place <;> simp [here, goes]

theorem insertByDeadline_shift {queue : List AlarmId} :
    (a.shift k).insertByDeadline id (deadline + k) queue =
      a.insertByDeadline id deadline queue := by
  have same (other : AlarmId) :
      Tick.isAfter (((a.shift k).deadline? other).getD (deadline + k)) (deadline + k) =
        Tick.isAfter ((a.deadline? other).getD deadline) deadline := by
    rw [deadline?_shift]
    cases a.deadline? other with
    | none => exact Tick.isAfter_add deadline deadline k
    | some other => exact Tick.isAfter_add other deadline k
  simp only [insertByDeadline, same]

theorem link_shift : (a.shift k).link id (deadline + k) = (a.link id deadline).shift k := by
  unfold link
  rw [queue_shift, capacity_shift, insertByDeadline_shift]
  split <;> rfl

theorem unlink_shift : (a.shift k).unlink id = (a.unlink id).shift k := rfl

theorem release_shift : (a.shift k).release id = (a.release id).shift k := by
  unfold release
  rw [← unlink_shift, modify_shift]
  intro r
  rfl

theorem register_shift {action : κ} {arg : Nat} :
    (a.shift k).register action arg =
      (a.register action arg).map fun (id, a) => (id, a.shift k) := by
  unfold register
  simp only [length_registered_shift, capacity_shift]
  split
  · rfl
  · simp [shift, Except.map, Registration.shift, AlarmState.shift]

theorem scheduleAt_shift :
    (a.shift k).scheduleAt id (deadline + k) = (a.scheduleAt id deadline).map (shift k) := by
  unfold scheduleAt
  rw [get?_shift]
  cases a.get? id with
  | none => rfl
  | some r =>
    have booked : (a.shift k).modify id
        (fun r => { r with state := .scheduled (deadline + k), pass := a.pass }) =
        (a.modify id fun r => { r with state := .scheduled deadline, pass := a.pass }).shift k := by
      apply modify_shift
      intro r
      rfl
    simp only [Option.map_some, pass_shift, booked, Except.map]
    by_cases idle : r.state = .idle
    · rw [if_pos (Registration.idle_shift_iff.mpr idle), if_pos idle, link_shift]
    · rw [if_neg (mt Registration.idle_shift_iff.mp idle), if_neg idle, unlink_shift, link_shift]

theorem schedule_shift {delay : UInt32} :
    (a.shift k).schedule (now + k) id delay = (a.schedule now id delay).map (shift k) := by
  rw [schedule, schedule, Tick.add_wait, scheduleAt_shift]

theorem cancel_shift : (a.shift k).cancel id = (a.cancel id).map (shift k) := by
  unfold cancel
  rw [get?_shift]
  cases a.get? id with
  | none => rfl
  | some r =>
    simp only [Option.map_some]
    by_cases idle : r.state = .idle
    · rw [if_pos (Registration.idle_shift_iff.mpr idle), if_pos idle]
      rfl
    · rw [if_neg (mt Registration.idle_shift_iff.mp idle), if_neg idle]
      exact congrArg Except.ok release_shift

theorem rebind_shift {action : κ} {arg : Nat} :
    (a.shift k).rebind id action arg = (a.rebind id action arg).map (shift k) := by
  unfold rebind
  rw [cancel_shift]
  cases a.cancel id with
  | error e => rfl
  | ok idle =>
    apply congrArg Except.ok
    apply modify_shift
    intro r
    rfl

/-- A request that comes later by `k` ticks has the same answer and leaves the same table, but for
    the clock. -/
theorem ask_shift {r : Request κ} : (a.shift k).ask (r.shift k) = (a.ask r).map (shift k) := by
  cases r with
  | register action arg =>
    simp only [ask, Request.shift, register_shift]
    cases a.register action arg <;> rfl
  | rebind id action arg => exact rebind_shift
  | schedule now id delay => exact schedule_shift
  | scheduleAt id deadline => exact scheduleAt_shift
  | cancel id => exact cancel_shift

/-! ## Passes -/

section Passes

variable {act act' : Action κ σ} {R : σ → σ → Prop}

/-- Contexts that belong together, with alarms that differ by the clock. -/
def Beside (k : Tick) (R : σ → σ → Prop) (s s' : σ × Alarms κ) : Prop :=
  R s.1 s'.1 ∧ s'.2 = s.2.shift k

/-- Two families of actions do the same, the one `k` ticks later than the other. -/
def Action.Alike (k : Tick) (R : σ → σ → Prop) (act act' : Action κ σ) : Prop :=
  ∀ label id arg s s', Beside k R s s' →
    Agree (Beside k R) (act label id arg s) (act' label id arg s')

/-- The same alarms fire, in the same order. -/
theorem fireDue_shift (alike : Action.Alike k R act act') (rounds fired : Nat)
    {s s' : σ × Alarms κ} (beside : Beside k R s s') :
    Agree (fun first second => first.1 = second.1 ∧ Beside k R first.2 second.2)
      (fireDue act now rounds fired s) (fireDue act' (now + k) rounds fired s') := by
  induction rounds generalizing fired s s' with
  | zero => exact .halt _
  | succ rounds ih =>
    obtain ⟨ctx, a⟩ := s
    obtain ⟨ctx', _⟩ := s'
    obtain ⟨same, rfl⟩ := beside
    simp only [fireDue, head_shift]
    cases a.head now with
    | done => exact .ok ⟨rfl, same, rfl⟩
    | stray id => exact ih fired ⟨same, unlink_shift⟩
    | due id r =>
      have released : Beside k R (ctx, a.release id) (ctx', (a.shift k).release id) :=
        ⟨same, release_shift⟩
      simp only [Head.shift, Registration.shift]
      rcases (alike r.action id r.arg _ _ released).ok_or_halt with
        ⟨t, t', acted, acted', beside⟩ | ⟨h, halts, halts'⟩
      · rw [acted, acted']
        exact ih (fired + 1) beside
      · rw [halts, halts']
        exact .halt h

theorem passWithin_shift (alike : Action.Alike k R act act') (rounds : Nat)
    {s s' : σ × Alarms κ} (beside : Beside k R s s') :
    Agree (fun first second => first.1 = second.1 ∧ Beside k R first.2 second.2)
      (passWithin rounds act now s) (passWithin rounds act' (now + k) s') := by
  apply fireDue_shift alike
  exact ⟨beside.1, congrArg beginPass beside.2⟩

end Passes

end Alarms

end MoteLink
