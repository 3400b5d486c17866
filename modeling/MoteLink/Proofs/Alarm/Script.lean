import MoteLink.Proofs.Alarm.Shift

/-!
# Programs on an alarm table

A program asks things of an alarm table, looks at it and runs passes, and goes on as it is answered.
Actions are such programs themselves, and may run passes of their own. Two programs that do the same
at times that differ by `k` ticks are answered the same, and leave the same alarms behind but for
the `k` ticks.
-/

namespace MoteLink

variable {κ σ : Type}

namespace Alarms

/-- The number that the alarm goes by, if the request is granted, and the table after it. -/
def reply (a : Alarms κ) (r : Request κ) : Except AlarmError AlarmId × Alarms κ :=
  match a.ask r with
  | .error e => (.error e, a)
  | .ok after => (.ok (r.target?.getD (.ofNat a.registered.length)), after)

end Alarms

open Alarms

/-- What a program does next with the alarms, and how it goes on from there. -/
inductive Script (κ σ : Type) where
  | done (ctx : σ)
  | request (r : Request κ) (next : Except AlarmError AlarmId → Script κ σ)
  | nextDeadline (next : Option Tick → Script κ σ)
  | hasReady (now : Tick) (next : Bool → Script κ σ)
  /-- A pass. Its actions find the context, and it comes back with the number of those that
      fired. -/
  | process (now : Tick) (ctx : σ) (next : Nat → σ → Script κ σ)

/-- Something that a program does, or that a pass does for it. -/
inductive Note (κ : Type) where
  | request (r : Request κ) (reply : Except AlarmError AlarmId)
  | nextDeadline (deadline : Option Tick)
  | hasReady (now : Tick) (isReady : Bool)
  | enterPass (now : Tick)
  | fire (id : AlarmId) (label : κ) (arg : Nat)
  | leavePass (now : Tick) (count : Nat)

/-- What has been done so far, oldest first, each with the table as it was then. -/
abbrev AlarmLog (κ : Type) := List (Note κ × Alarms κ)

namespace Script

/-- Follow a program through, each pass in at most `rounds` rounds. -/
def run (act : Action κ (σ × AlarmLog κ)) (rounds : Nat) :
    Script κ σ → AlarmLog κ → Alarms κ → Except Halt ((σ × AlarmLog κ) × Alarms κ)
  | .done ctx, log, a => .ok ((ctx, log), a)
  | .request r next, log, a =>
    (next (a.reply r).1).run act rounds
      (log ++ [(.request r (a.reply r).1, (a.reply r).2)]) (a.reply r).2
  | .nextDeadline next, log, a =>
    (next a.nextDeadline).run act rounds (log ++ [(.nextDeadline a.nextDeadline, a)]) a
  | .hasReady now next, log, a =>
    (next (a.hasReady now)).run act rounds (log ++ [(.hasReady now (a.hasReady now), a)]) a
  | .process now ctx next, log, a =>
    match passWithin rounds act now ((ctx, log ++ [(.enterPass now, a)]), a) with
    | .error halt => .error halt
    | .ok (count, (ctx, log), a) =>
      (next count ctx).run act rounds (log ++ [(.leavePass now count, a)]) a

/-- The actions that these programs are. Passes may be run within passes to the given depth. -/
def act (program : κ → AlarmId → Nat → σ → Script κ σ) (rounds : Nat) :
    Nat → Action κ (σ × AlarmLog κ)
  | 0 => fun _ _ _ _ => .error .outOfSteps
  | depth + 1 => fun label id arg ((ctx, log), a) =>
    (program label id arg ctx).run (act program rounds depth) rounds
      (log ++ [(.fire id label arg, a)]) a

end Script

/-! ## Programs under another clock -/

def Note.shift (k : Tick) : Note κ → Note κ
  | .request r reply => .request (r.shift k) reply
  | .nextDeadline deadline => .nextDeadline (deadline.map (· + k))
  | .hasReady now isReady => .hasReady (now + k) isReady
  | .enterPass now => .enterPass (now + k)
  | .fire id label arg => .fire id label arg
  | .leavePass now count => .leavePass (now + k) count

/-- The same has been done, `k` ticks later. -/
def AlarmLog.shift (k : Tick) (log : AlarmLog κ) : AlarmLog κ :=
  log.map fun (note, a) => (note.shift k, a.shift k)

theorem AlarmLog.shift_concat {k : Tick} {log : AlarmLog κ} {note : Note κ} {a : Alarms κ} :
    AlarmLog.shift k (log ++ [(note, a)]) = log.shift k ++ [(note.shift k, a.shift k)] := by
  simp [shift]

theorem Alarms.reply_shift {k : Tick} {a : Alarms κ} {r : Request κ} :
    (a.shift k).reply (r.shift k) = ((a.reply r).1, (a.reply r).2.shift k) := by
  have target : (r.shift k).target? = r.target? := by
    cases r <;> rfl
  unfold reply
  rw [ask_shift, target, length_registered_shift]
  cases a.ask r <;> rfl

namespace Script

variable {k : Tick} {R : σ → σ → Prop}

/-- The second program makes the same calls as the first, with every clock value and every absolute
    deadline `k` ticks later. So it does after any answer, which shows deadlines `k` ticks later. -/
inductive Shifted (k : Tick) (R : σ → σ → Prop) : Script κ σ → Script κ σ → Prop
  | done {ctx ctx' : σ} (same : R ctx ctx') : Shifted k R (.done ctx) (.done ctx')
  | request (r : Request κ) {next next' : Except AlarmError AlarmId → Script κ σ}
      (rest : ∀ reply, Shifted k R (next reply) (next' reply)) :
      Shifted k R (.request r next) (.request (r.shift k) next')
  | nextDeadline {next next' : Option Tick → Script κ σ}
      (rest : ∀ deadline, Shifted k R (next deadline) (next' (deadline.map (· + k)))) :
      Shifted k R (.nextDeadline next) (.nextDeadline next')
  | hasReady (now : Tick) {next next' : Bool → Script κ σ}
      (rest : ∀ isReady, Shifted k R (next isReady) (next' isReady)) :
      Shifted k R (.hasReady now next) (.hasReady (now + k) next')
  | process (now : Tick) {ctx ctx' : σ} {next next' : Nat → σ → Script κ σ} (same : R ctx ctx')
      (rest : ∀ count ctx ctx', R ctx ctx' → Shifted k R (next count ctx) (next' count ctx')) :
      Shifted k R (.process now ctx next) (.process (now + k) ctx' next')

/-- Contexts that belong together, with logs that differ by the clock. -/
def Kept (k : Tick) (R : σ → σ → Prop) (s s' : σ × AlarmLog κ) : Prop :=
  R s.1 s'.1 ∧ s'.2 = s.2.shift k

/-- What the steps of two programs keep, their runs keep, if the actions do the same as well. -/
theorem run_shifted {act act' : Action κ (σ × AlarmLog κ)} (rounds : Nat)
    (alike : Action.Alike k (Kept k R) act act') {script script' : Script κ σ}
    (shifted : Shifted k R script script') (log : AlarmLog κ) (a : Alarms κ) :
    Agree (Beside k (Kept k R)) (script.run act rounds log a)
      (script'.run act' rounds (log.shift k) (a.shift k)) := by
  induction shifted generalizing log a with
  | done same => exact .ok ⟨⟨same, rfl⟩, rfl⟩
  | request r rest ih =>
    rw [run, run, reply_shift]
    have later := ih (a.reply r).1 (log ++ [(.request r (a.reply r).1, (a.reply r).2)])
      (a.reply r).2
    rwa [AlarmLog.shift_concat] at later
  | nextDeadline rest ih =>
    rw [run, run, nextDeadline_shift]
    have later := ih a.nextDeadline (log ++ [(.nextDeadline a.nextDeadline, a)]) a
    rwa [AlarmLog.shift_concat] at later
  | hasReady now rest ih =>
    rw [run, run, hasReady_shift]
    have later := ih (a.hasReady now) (log ++ [(.hasReady now (a.hasReady now), a)]) a
    rwa [AlarmLog.shift_concat] at later
  | @process now ctx ctx' next next' same rest ih =>
    have logged : AlarmLog.shift k (log ++ [(.enterPass now, a)]) =
        log.shift k ++ [(.enterPass (now + k), a.shift k)] := AlarmLog.shift_concat
    have entered : Beside k (Kept k R) ((ctx, log ++ [(.enterPass now, a)]), a)
        ((ctx', log.shift k ++ [(.enterPass (now + k), a.shift k)]), a.shift k) :=
      ⟨⟨same, logged.symm⟩, rfl⟩
    rw [run, run]
    rcases (passWithin_shift alike rounds entered).ok_or_halt with
      ⟨⟨count, ⟨c, l⟩, b⟩, ⟨_, ⟨c', _⟩, _⟩, passed, passed', rfl, ⟨same, rfl⟩, rfl⟩ |
      ⟨h, halts, halts'⟩
    · rw [passed, passed']
      have later := ih count c c' same (l ++ [(.leavePass now count, b)]) b
      rwa [AlarmLog.shift_concat] at later
    · rw [halts, halts']
      exact .halt h

variable {program program' : κ → AlarmId → Nat → σ → Script κ σ}

theorem act_shifted (rounds depth : Nat)
    (same : ∀ label id arg ctx ctx', R ctx ctx' →
      Shifted k R (program label id arg ctx) (program' label id arg ctx')) :
    Action.Alike k (Kept k R) (act program rounds depth) (act program' rounds depth) := by
  induction depth with
  | zero =>
    intro label id arg s s' beside
    exact .halt _
  | succ depth ih =>
    rintro label id arg ⟨⟨ctx, log⟩, a⟩ ⟨⟨ctx', _⟩, _⟩ ⟨⟨related, rfl⟩, rfl⟩
    have fired := run_shifted rounds ih (same label id arg ctx ctx' related)
      (log ++ [(.fire id label arg, a)]) a
    rwa [AlarmLog.shift_concat] at fired

/-- Let a second program, and the actions that it sets off, make the same calls as a first one and
    its actions, with every clock value and every absolute deadline `k` ticks later. Then it halts
    just where the first one does, and otherwise does the same, `k` ticks later: the same alarms
    fire in the same order in each pass, passes count the same alarms, what is asked is answered the
    same, and at any time the tables differ only by `k` ticks in each deadline. -/
theorem shifted_of_run
    (actions : ∀ label id arg ctx ctx', R ctx ctx' →
      Shifted k R (program label id arg ctx) (program' label id arg ctx'))
    {script script' : Script κ σ} (shifted : Shifted k R script script')
    (capacity rounds depth : Nat) :
    Agree (fun s s' => R s.1.1 s'.1.1 ∧ s'.1.2 = s.1.2.shift k ∧ s'.2 = s.2.shift k)
      (script.run (act program rounds depth) rounds [] { capacity })
      (script'.run (act program' rounds depth) rounds [] { capacity }) := by
  have alike := act_shifted rounds depth actions
  have together := run_shifted rounds alike shifted [] { capacity }
  apply together.mono
  rintro s s' ⟨⟨related, log⟩, alarms⟩
  exact ⟨related, log, alarms⟩

/-- An alarm that is set anew, for 40 ticks after `start`, when it fires. -/
def snooze (start : Tick) : Nat → AlarmId → Nat → Unit → Script Nat Unit :=
  fun _ id _ ctx => .request (.scheduleAt id (start + 40)) fun _ => .done ctx

/-- Such an alarm is set for 10 ticks after `start`, and a pass is run 10 ticks later. -/
def routine (start : Tick) : Script Nat Unit :=
  .request (.register 0 7) fun _ =>
  .request (.schedule start 0 10) fun _ =>
  .process (start + 20) () fun _ _ =>
  .hasReady (start + 20) fun _ =>
  .nextDeadline fun _ => .done ()

/-- The routine fires its alarm, and does so as well where the clock passes zero between deadline
    and pass. -/
theorem shifted_of_run_wrapped :
    ((routine 100).run (act (snooze 100) 3 1) 3 [] { capacity := 2 }).map
        (fun s => s.1.2.map Prod.fst) =
      .ok [.request (.register 0 7) (.ok 0), .request (.schedule 100 0 10) (.ok 0),
        .enterPass 120, .fire 0 0 7, .request (.scheduleAt 0 140) (.ok 0), .leavePass 120 1,
        .hasReady 120 false, .nextDeadline (some 140)] ∧
    Agree (fun s s' => s.1.1 = s'.1.1 ∧ s'.1.2 = s.1.2.shift 0xffffff90 ∧
        s'.2 = s.2.shift 0xffffff90)
      ((routine 100).run (act (snooze 100) 3 1) 3 [] { capacity := 2 })
      ((routine 0xfffffff4).run (act (snooze 0xfffffff4) 3 1) 3 [] { capacity := 2 }) := by
  constructor
  · rfl
  · apply shifted_of_run
    · intro label id arg ctx ctx' same
      exact .request (.scheduleAt id 140) fun _ => .done same
    · refine .request (.register 0 7) fun _ => .request (.schedule 100 0 10) fun _ =>
        .process 120 rfl fun _ _ _ _ => .hasReady 120 fun _ => .nextDeadline fun _ => .done rfl

end Script

end MoteLink
