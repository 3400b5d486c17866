import MoteLink.Node.Basic
import MoteLink.Proofs.Alarm.Firing
import MoteLink.Proofs.Link.Ledger
import MoteLink.Proofs.Link.Waiting
import MoteLink.Radio.Bench

/-!
# Outcomes on their way to the application

An outcome waits at the link until the stack collects it, and then with the stack until the
application fetches it. A pass of a node collects when the link's alarm fires and at no other time.
So an outcome that a frame from the radio brings about stays at the link if that alarm is not due:
the alarm is set anew at the end of the pass, and to none if the link has nothing else to do.
-/

namespace MoteLink

open Link

/-- The forwarder asks the link for one packet at most. -/
theorem Forwarder.link_forward {α μ ε : Type} (f : Forwarder α)
    (submit : μ → Descriptor → Bytes → Except ε UInt8 × μ) (link : μ) (ctx : α) (now : Tick)
    (d : Descriptor) (payload : Bytes) :
    (f.forward submit link ctx now d payload).2.1 = link ∨
      ∃ sent, (f.forward submit link ctx now d payload).2.1 = (submit link sent payload).2 := by
  unfold forward
  split
  · exact .inr ⟨d, rfl⟩
  · split
    · exact .inl rfl
    · split
      · exact .inl rfl
      · exact .inr ⟨f.relayed now d, rfl⟩

variable {ρ γ α κ ε : Type}

namespace Stack

variable {s s' s'' : Stack ρ γ α}

/-- On the way from `s` to `s'` the stack has collected `collected`, and what waited at the link of
    `s` was collected first or still waits in front. -/
structure Moves (s : Stack ρ γ α) (collected : List Outcome) (s' : Stack ρ γ α) : Prop where
  outcomes : s'.outcomes = s.outcomes.pushAll collected
  waiting : s.link.waiting <+: collected ++ s'.link.waiting

namespace Moves

theorem refl (s : Stack ρ γ α) : s.Moves [] s := ⟨rfl, List.prefix_refl s.link.waiting⟩

theorem trans {first second : List Outcome} (start : s.Moves first s')
    (next : s'.Moves second s'') : s.Moves (first ++ second) s'' := by
  refine ⟨?_, ?_⟩
  · rw [next.outcomes, start.outcomes, Fifo.pushAll_append]
  · rw [List.append_assoc]
    exact start.waiting.trans ((List.prefix_append_right_inj first).mpr next.waiting)

end Moves

/-- On the way from `s` to `s'` frames are taken in and packets are sent, and nothing is
    collected. -/
structure Hears (s s' : Stack ρ γ α) : Prop where
  outcomes : s'.outcomes = s.outcomes
  link : s.link.Unpolled s'.link

namespace Hears

theorem refl (s : Stack ρ γ α) : s.Hears s := ⟨rfl, .refl s.link⟩

theorem trans (first : s.Hears s') (second : s'.Hears s'') : s.Hears s'' :=
  ⟨second.outcomes.trans first.outcomes, first.link.trans second.link⟩

theorem moves (heard : s.Hears s') : s.Moves [] s' :=
  ⟨heard.outcomes, heard.link.extends_waiting⟩

end Hears

variable [Transceiver ρ ε]

/-! ## Frames from the radio -/

theorem hears_forward (s : Stack ρ γ α) (d : Descriptor) (payload : Bytes) :
    s.Hears (s.forward d payload).2 := by
  refine ⟨rfl, ?_⟩
  change s.link.Unpolled (s.forwarder.forward submit s.link s.app s.clock d payload).2.1
  rcases s.forwarder.link_forward submit s.link s.app s.clock d payload with same | ⟨sent, asked⟩
  · rw [same]
    exact .refl s.link
  · rw [asked]
    exact s.link.unpolled_submit sent payload

theorem hears_handleFrame (s : Stack ρ γ α) (frame : Bytes) :
    s.Hears (s.handleFrame frame).2 := by
  have heard : s.Hears { s with link := (s.link.receive frame).2 } :=
    ⟨rfl, s.link.unpolled_receive frame⟩
  unfold handleFrame
  split <;> rename_i received <;> rw [received] at heard
  · exact heard
  · exact heard.trans (hears_forward _ _ _)

theorem hears_of_takeFrame {count count' : Nat} {r : Except (LinkError ε) Bool}
    (taken : takeFrame (count, s) = .ok (r, count', s')) : s.Hears s' := by
  have fetched (radio : ρ) : s.Hears { s with link := s.link.setRadio radio } :=
    ⟨rfl, s.link.unpolled_setRadio radio⟩
  rw [takeFrame] at taken
  split at taken
  · cases taken
  · cases taken
    exact fetched _
  · cases taken
    exact fetched _
  · cases taken
    exact (fetched _).trans (hears_handleFrame _ _)

theorem hears_of_drainRadio [Backlog ρ] {r : Except (LinkError ε) Nat}
    (drained : s.drainRadio = .ok (r, s')) : s.Hears s' := by
  have keep (t : Nat × Stack ρ γ α) (r : Except (LinkError ε) Bool) (t' : Nat × Stack ρ γ α)
      (heard : s.Hears t.2) (taken : takeFrame t = .ok (r, t')) : s.Hears t'.2 :=
    heard.trans (hears_of_takeFrame taken)
  unfold drainRadio at drained
  split at drained <;> rename_i settled
  · cases drained
  · cases drained
    exact settle_invariant keep (.refl s) settled
  · cases drained
    exact settle_invariant keep (.refl s) settled

/-! ## Collecting -/

variable [RandomSource γ]

/-- A stack that makes no progress has nothing left to collect. -/
theorem moves_of_collectOne {r : Except (LinkError ε) Bool} (taken : s.collectOne = .ok (r, s')) :
    (∃ collected, s.Moves collected s') ∧ (r = .ok false → s'.link.waiting = []) := by
  unfold collectOne at taken
  split at taken <;> rename_i polled
  · cases taken
  · cases taken
    exact ⟨⟨[], rfl, (fetches_of_poll polled).front⟩, nofun⟩
  · cases taken
    have fetched := fetches_of_poll polled
    exact ⟨⟨[], rfl, fetched.front⟩, fun _ => fetched.rest rfl⟩
  · rename_i outcome link
    cases taken
    exact ⟨⟨[outcome], rfl, (fetches_of_poll polled).front⟩, nofun⟩

/-- Unless sensing fails, nothing is left to collect afterwards. -/
theorem moves_of_service {r : Except (LinkError ε) Unit} (served : s.service = .ok (r, s')) :
    (∃ collected, s.Moves collected s') ∧ (r = .ok () → s'.link.waiting = []) := by
  have keep (t : Stack ρ γ α) (r : Except (LinkError ε) Bool) (t' : Stack ρ γ α)
      (moved : ∃ collected, s.Moves collected t) (taken : t.collectOne = .ok (r, t')) :
      ∃ collected, s.Moves collected t' := by
    obtain ⟨first, start⟩ := moved
    obtain ⟨second, next⟩ := (moves_of_collectOne taken).1
    exact ⟨first ++ second, start.trans next⟩
  refine ⟨settle_invariant keep ⟨[], .refl s⟩ served, ?_⟩
  -- The last round made no progress, so the link told no outcome in it.
  rintro rfl
  obtain ⟨last, -, rests⟩ := settle_eq_ok keep ⟨[], .refl s⟩ served
  exact (moves_of_collectOne rests).2 rfl

end Stack

namespace Node

/-- Asked again and again, the node tells these outcomes and no others. -/
def Tells : List Outcome → Node ρ γ α κ → Prop
  | [], n => n.takeOutcome.1 = none
  | outcome :: rest, n => n.takeOutcome.1 = some outcome ∧ Tells rest n.takeOutcome.2

theorem tells_items (n : Node ρ γ α κ) : Tells n.stack.outcomes.items n := by
  generalize held : n.stack.outcomes.items = items
  have first : n.takeOutcome.1 = items.head? := held ▸ n.stack.outcomes.pop_fst
  induction items generalizing n with
  | nil => exact first
  | cons outcome rest ih =>
    have left : n.takeOutcome.2.stack.outcomes.items = rest := by
      have popped := n.stack.outcomes.items_pop
      rwa [held] at popped
    exact ⟨first, ih n.takeOutcome.2 left (left ▸ n.takeOutcome.2.stack.outcomes.pop_fst)⟩

/-! ## A pass -/

variable [Transceiver ρ ε] [RandomSource γ] {n n' : Node ρ γ α κ}
  {app : κ → AlarmId → Nat → Stack ρ γ α × Alarms (Duty κ) →
    Except Halt (Stack ρ γ α × Alarms (Duty κ))}

/-- The link's alarm collects what waits. -/
theorem service_of_act {id : AlarmId} {arg : Nat} {before after : Stack ρ γ α × Alarms (Duty κ)}
    (acted : act app .link id arg before = .ok after) :
    ∃ r, before.1.service = .ok (r, after.1) := by
  obtain ⟨stack, alarms⟩ := before
  rw [act] at acted
  split at acted <;> rename_i served
  · cases acted
  · cases acted
    exact ⟨_, served⟩

variable [Backlog ρ] {drained : Stack ρ γ α} {shots : List (Shot (Duty κ) (Stack ρ γ α))}

/-- A pass that leaves the stack as `drained` when the radio is drained and then fires these
    alarms. -/
structure Passes (app : κ → AlarmId → Nat → Stack ρ γ α × Alarms (Duty κ) →
      Except Halt (Stack ρ γ α × Alarms (Duty κ)))
    (n : Node ρ γ α κ) (drained : Stack ρ γ α) (shots : List (Shot (Duty κ) (Stack ρ γ α)))
    (n' : Node ρ γ α κ) : Prop where
  drains : ∃ r, n.stack.drainRadio = .ok (r, drained)
  fires : ∃ alarms, Alarms.Fires (act app) drained.clock shots (drained, n.alarms.beginPass)
    (n'.stack, alarms)

theorem passes_of_process {result : Except (LinkError ε) Nat}
    (processed : n.process app = .ok (result, n')) :
    ∃ drained shots, n.Passes app drained shots n' := by
  unfold process at processed
  split at processed <;> rename_i drains
  · cases processed
  · split at processed <;> rename_i fired
    · cases processed
    · cases processed
      obtain ⟨shots, fires, -⟩ := Alarms.fires_of_process fired
      exact ⟨_, shots, ⟨_, drains⟩, _, fires⟩

namespace Passes

/-- No outcome is left at the link just where one of the alarms has left none, or none was there to
    begin with. -/
theorem waiting_iff (pass : n.Passes app drained shots n')
    (served : ∀ shot ∈ shots, shot.label = .link →
      ∃ rested, shot.before.1.service = .ok (.ok (), rested))
    (quiet : ∀ shot ∈ shots, shot.label ≠ .link → shot.before.1.link.waiting = [] →
      shot.after.1.link.waiting = []) :
    n'.stack.link.waiting = [] ↔ drained.link.waiting = [] ∨
      ∃ shot ∈ shots, shot.label = .link ∨ shot.after.1.link.waiting = [] := by
  obtain ⟨alarms, fires⟩ := pass.fires
  -- The link's alarm leaves nothing, whatever it finds; the others keep what it has achieved.
  have emptied : ∀ shot ∈ shots, shot.label = .link → shot.after.1.link.waiting = [] := by
    intro shot fired isLink
    obtain ⟨rested, ok⟩ := served shot fired isLink
    have acted := fires.acted shot fired
    rw [isLink] at acted
    obtain ⟨r, collects⟩ := service_of_act acted
    rw [ok] at collects
    cases collects
    exact (Stack.moves_of_service ok).2 rfl
  have keep : ∀ shot ∈ shots, shot.before.1.link.waiting = [] →
      shot.after.1.link.waiting = [] := by
    intro shot fired
    by_cases isLink : shot.label = .link
    · exact fun _ => emptied shot fired isLink
    · exact quiet shot fired isLink
  rw [fires.holds_iff (p := fun stack => stack.link.waiting = []) keep]
  refine or_congr_right ⟨?_, ?_⟩
  · rintro ⟨shot, fired, none⟩
    exact ⟨shot, fired, .inr none⟩
  · rintro ⟨shot, fired, isLink | none⟩
    · exact ⟨shot, fired, emptied shot fired isLink⟩
    · exact ⟨shot, fired, none⟩

/-- What the alarms have collected is with the stack, in order. -/
theorem moves (pass : n.Passes app drained shots n')
    (kept : ∀ shot ∈ shots, shot.label ≠ .link →
      ∃ collected, shot.before.1.Moves collected shot.after.1) :
    ∃ collected, drained.Moves collected n'.stack := by
  obtain ⟨alarms, fires⟩ := pass.fires
  refine fires.relates (R := fun s s' => ∃ collected, Stack.Moves s collected s') ?_ ?_ ?_
  · exact fun s => ⟨[], .refl s⟩
  · rintro s s' s'' ⟨first, start⟩ ⟨second, next⟩
    exact ⟨first ++ second, start.trans next⟩
  · intro shot fired
    by_cases isLink : shot.label = .link
    · have acted := fires.acted shot fired
      rw [isLink] at acted
      obtain ⟨r, collects⟩ := service_of_act acted
      exact (Stack.moves_of_service collects).1
    · exact kept shot fired isLink

end Passes

/-- After a pass outcomes are left at the link just where some waited there once the radio was
    drained and no alarm of the pass has collected them. -/
theorem collected_of_process {result : Except (LinkError ε) Nat}
    (processed : n.process app = .ok (result, n')) :
    ∃ drained shots, n.Passes app drained shots n' ∧ n.stack.Hears drained ∧
      ((∀ shot ∈ shots, shot.label = .link →
          ∃ rested, shot.before.1.service = .ok (.ok (), rested)) →
        (∀ shot ∈ shots, shot.label ≠ .link → shot.before.1.link.waiting = [] →
          shot.after.1.link.waiting = []) →
        (n'.stack.link.waiting = [] ↔ drained.link.waiting = [] ∨
          ∃ shot ∈ shots, shot.label = .link ∨ shot.after.1.link.waiting = [])) ∧
      ((∀ shot ∈ shots, shot.label ≠ .link →
          ∃ collected, shot.before.1.Moves collected shot.after.1) →
        ∃ collected, drained.link.waiting <+: collected ++ n'.stack.link.waiting ∧
          (n.stack.outcomes.items.length + collected.length ≤ n.stack.outcomes.capacity →
            Tells (n.stack.outcomes.items ++ collected) n')) := by
  obtain ⟨drained, shots, pass⟩ := passes_of_process processed
  obtain ⟨r, drains⟩ := pass.drains
  have heard := Stack.hears_of_drainRadio drains
  refine ⟨drained, shots, pass, heard, pass.waiting_iff, fun kept => ?_⟩
  obtain ⟨collected, moved⟩ := pass.moves kept
  refine ⟨collected, moved.waiting, fun room => ?_⟩
  have outcomes : n'.stack.outcomes = n.stack.outcomes.pushAll collected :=
    (heard.moves.trans moved).outcomes
  rw [← Fifo.items_pushAll room, ← outcomes]
  exact n'.tells_items

/-- A node whose link never backs off, on a radio that always hears a clear channel. -/
def benchNode (method : Method) : Except AlarmError (Node Bench StepGenerator Unit Unit) :=
  new (.new method 1 { address := .short 1, maxInitialBackoff := 0 } {} ⟨0, 0⟩)
    { config := { address := .short 1 }, capacity := 0 } () 1

/-- An application that does nothing when its alarms fire. -/
def idle : Unit → AlarmId → Nat → Stack Bench StepGenerator Unit × Alarms (Duty Unit) →
    Except Halt (Stack Bench StepGenerator Unit × Alarms (Duty Unit)) :=
  fun _ _ _ s => .ok s

/-- A packet is sent in a pass, and the link's alarm, which fires in it, leaves nothing behind. -/
theorem collected_of_process_sent :
    ∃ fresh sends rests : Node Bench StepGenerator Unit Unit,
      benchNode .carrierSense = .ok fresh ∧
        (fresh.atTick 5).send (.short 2) [7] = (.ok 1, sends) ∧
        sends.process idle = .ok (.ok 1, rests) ∧ rests.stack.link.waiting = [] ∧
        rests.takeOutcome.1 = some (.sent 1 (.short 2)) := by
  obtain ⟨fresh, sends, rests, drained, shot, built, sent, processed, told, drains, isLink, served,
      last, fires⟩ :
      ∃ fresh sends rests drained shot,
        benchNode .carrierSense = .ok fresh ∧
          (fresh.atTick 5).send (.short 2) [7] = (.ok 1, sends) ∧
          sends.process idle = .ok (.ok 1, rests) ∧
          rests.takeOutcome.1 = some (.sent 1 (.short 2)) ∧
          sends.stack.drainRadio = .ok (.ok 0, drained) ∧ shot.label = .link ∧
          (∃ rested, shot.before.1.service = .ok (.ok (), rested)) ∧
          ∃ last, Alarms.Fires (act idle) drained.clock [shot]
            (drained, sends.alarms.beginPass) last :=
    ⟨_, _, _, _, _, rfl, rfl, rfl, rfl, rfl, rfl, ⟨_, rfl⟩, _, .due rfl rfl (.done rfl)⟩
  refine ⟨fresh, sends, rests, built, sent, processed, ?_, told⟩
  obtain ⟨other, shots, pass, -, waiting, -⟩ := collected_of_process processed
  obtain ⟨⟨r, again⟩, alarms, fired⟩ := pass
  cases drains.symm.trans again
  obtain ⟨rfl, -⟩ := fires.unique fired
  refine (waiting ?_ ?_).mpr (.inr ⟨shot, List.mem_singleton_self shot, .inl isLink⟩)
  · intro each member _
    rw [List.mem_singleton.mp member]
    exact served
  · intro each member isApp
    rw [List.mem_singleton.mp member] at isApp
    exact absurd isLink isApp

/-- The acknowledgement of a packet arrives before the deadline of the link's alarm, which therefore
    does not fire. The outcome is left at the link, and no wake-up is left to collect it. Taken in
    by `receive`, the same acknowledgement has its outcome collected at once. -/
theorem stranded_of_ack :
    ∃ fresh sends awaits strands prompt : Node Bench StepGenerator Unit Unit,
      benchNode .acknowledged = .ok fresh ∧
        (fresh.atTick 5).send (.short 2) [7] = (.ok 1, sends) ∧
        sends.process idle = .ok (.ok 1, awaits) ∧
        (awaits.mapRadio fun r => r.inject [0xa4, 0x40, 2, 0, 1, 0, 1]).process idle =
          .ok (.ok 0, strands) ∧
        strands.stack.link.waiting = [.sent 1 (.short 2)] ∧ strands.takeOutcome.1 = none ∧
        strands.nextWakeup = none ∧
        awaits.receive [0xa4, 0x40, 2, 0, 1, 0, 1] = .ok (.ok none, prompt) ∧
        prompt.stack.link.waiting = [] ∧ prompt.takeOutcome.1 = some (.sent 1 (.short 2)) :=
  ⟨_, _, _, _, _, rfl, rfl, rfl, rfl, rfl, rfl, rfl, rfl, rfl, rfl⟩

end Node

end MoteLink
