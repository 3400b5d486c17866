import Mathlib.Logic.Function.Basic
import MoteLink.Proofs.Link.Acknowledged.Invariant
import MoteLink.Proofs.Link.Acknowledged.Life
import MoteLink.Proofs.Link.Ledger

/-!
# Places and their stages

The slot in a place and the phase of the link tell the stage at which the place is. An incident
moves one place along at most, since only one packet is in flight and the phase concerns no other.
-/

namespace MoteLink.Link

/-! ## Stages of the places -/

/-- Stage of a place, in the given phase of the link. -/
def Slot.stage (phase : AckPhase) : Slot → Stage
  | .idle => .vacant
  | .queued p => .ready p.untried 0
  | .inFlight p =>
    match phase with
    | .awaitingAck expiry => .awaiting p.untried (p.attempts.toNat - 1) expiry
    | _ => .ready p.untried p.attempts.toNat

theorem Slot.stage_congr {slot : Slot} (grounded : ∀ p, slot ≠ .inFlight p)
    (phase phase' : AckPhase) : slot.stage phase = slot.stage phase' := by
  cases slot with
  | idle => rfl
  | queued p => rfl
  | inFlight p => exact absurd rfl (grounded p)

theorem Slot.stage_ne_over (slot : Slot) (phase : AckPhase) (p : Packet)
    (reason : Option FailureReason) : slot.stage phase ≠ .over p reason := by
  intro same
  cases slot with
  | idle => cases same
  | queued q => cases same
  | inFlight q => cases phase <;> cases same

/-- Only the wait for an acknowledgement makes a difference to a stage. -/
theorem Slot.stage_of_unawaited {phase phase' : AckPhase} (slot : Slot)
    (before : ∀ expiry, phase ≠ .awaitingAck expiry)
    (after : ∀ expiry, phase' ≠ .awaitingAck expiry) : slot.stage phase' = slot.stage phase := by
  cases slot with
  | idle => rfl
  | queued p => rfl
  | inFlight p =>
    cases phase <;> cases phase' <;> first
      | rfl
      | exact absurd rfl (before _)
      | exact absurd rfl (after _)

/-- No other place than that of the packet in flight has one in flight. -/
theorem Outbox.ne_inFlight_of_ne {o : Outbox} {i j : Nat} {p : Packet}
    (one : o.flying.length ≤ 1) (found : o.slots[i]? = some (.inFlight p)) (other : j ≠ i)
    (q : Packet) : o.slots[j]?.getD .idle ≠ .inFlight q := by
  intro second
  let freed : Outbox := { o with slots := o.slots.set i .idle }
  have emptied : Replaces i (.inFlight p) .idle o.slots freed.slots := ⟨found, rfl⟩
  have gone : o.flying.Perm (p :: freed.flying) := Outbox.flying_perm emptied
  have count := gone.length_eq
  rw [List.length_cons] at count
  have none_left : freed.flying = [] := List.length_eq_zero_iff.mp (by omega)
  have there : freed.slots[j]? = some (.inFlight q) := by
    have untouched : freed.slots[j]? = o.slots[j]? := List.getElem?_set_ne (Ne.symm other)
    rw [untouched]
    cases at_j : o.slots[j]? with
    | none =>
      rw [at_j] at second
      cases second
    | some slot =>
      rw [at_j] at second
      exact congrArg some second
  have member : q ∈ freed.flying := Outbox.mem_flying.mpr (List.mem_of_getElem? there)
  rw [none_left] at member
  cases member

theorem Outbox.ne_inFlight_of_nil {o : Outbox} (grounded : o.flying = []) (j : Nat)
    (q : Packet) : o.slots[j]?.getD .idle ≠ .inFlight q := by
  intro there
  cases at_j : o.slots[j]? with
  | none =>
    rw [at_j] at there
    cases there
  | some slot =>
    rw [at_j] at there
    obtain rfl : slot = .inFlight q := there
    have member : q ∈ o.flying := Outbox.mem_flying.mpr (List.mem_of_getElem? at_j)
    rw [grounded] at member
    cases member

/-! ## What happens in the places -/

namespace Stage

/-- What the entries, all made at `now`, tell of each place leads it from one stage to the other. -/
def Tracks (c : Config) (now : Tick) (stage : Nat → Stage) (entries : List Entry)
    (stage' : Nat → Stage) : Prop :=
  ∀ i, Leads c (stage i) (placeLog i now entries) (stage' i)

namespace Tracks

variable {c : Config} {now : Tick} {stage stage₁ stage' : Nat → Stage} {first second : List Entry}
  {i : Nat} {s : Stage} {incident : Incident}

theorem nothing (same : stage' = stage) : Tracks c now stage [] stage' := by
  rw [same]
  exact fun i => .nil

theorem trans (earlier : Tracks c now stage first stage₁)
    (later : Tracks c now stage₁ second stage') : Tracks c now stage (first ++ second) stage' := by
  intro i
  rw [placeLog_append]
  exact (earlier i).trans (later i)

/-- What happens in one place moves it along, and no other. -/
theorem single (step : Step c now (stage i) incident (stage' i)) (still : incident.started? = none)
    (elsewhere : ∀ j, j ≠ i → stage' j = stage j) :
    Tracks c now stage [⟨some i, incident⟩] stage' := by
  intro j
  by_cases here : j = i
  · rw [here, placeLog_self i now still]
    exact .single step
  · rw [placeLog_of_ne now incident here, elsewhere j here]
    exact .nil

theorem update (step : Step c now (stage i) incident s) (still : incident.started? = none) :
    Tracks c now stage [⟨some i, incident⟩] (Function.update stage i s) := by
  refine single ?_ still fun j other => Function.update_of_ne other s stage
  rw [Function.update_self]
  exact step

theorem started (place : Option Nat) (p : Packet) (same : stage' = stage) :
    Tracks c now stage [⟨place, .started p⟩] stage' := by
  intro i
  rw [placeLog_started, same]
  exact .nil

theorem replied (t : Transmission) (same : stage' = stage) :
    Tracks c now stage [⟨none, .replied t⟩] stage' := by
  intro i
  rw [placeLog_replied, same]
  exact .nil

end Tracks

end Stage

/-! ## The places of a link -/

namespace Acknowledged

variable {ρ γ ε : Type}

/-- Stage of a place of the link. -/
def stageAt (m : Acknowledged ρ γ) (i : Nat) : Stage :=
  (m.outbox.slots[i]?.getD .idle).stage m.phase

theorem stageAt_of_slot {m : Acknowledged ρ γ} {i : Nat} {slot : Slot}
    (found : m.outbox.slots[i]? = some slot) : m.stageAt i = slot.stage m.phase := by
  rw [stageAt, found]
  rfl

/-- The packet in flight is in the one place that can wait for an acknowledgement. -/
theorem stageAt_of_awaitingAck {m : Acknowledged ρ γ} {i : Nat} {p : Packet} {expiry : Tick}
    (phase : m.phase = .awaitingAck expiry) (found : m.outbox.inFlight? = some (i, p)) :
    m.stageAt i = .awaiting p.untried (p.attempts.toNat - 1) expiry := by
  rw [stageAt_of_slot (Outbox.slot_of_inFlight? found), phase]
  rfl

theorem stageAt_of_replaces {m m' : Acknowledged ρ γ} {i : Nat} {old new : Slot}
    (replaced : Replaces i old new m.outbox.slots m'.outbox.slots) :
    m'.stageAt i = new.stage m'.phase := by
  obtain ⟨below, -⟩ := List.getElem?_eq_some_iff.mp replaced.found
  have there : m'.outbox.slots[i]? = some new := by
    rw [replaced.changed]
    exact List.getElem?_set_self below
  exact stageAt_of_slot there

/-- A change in one place does not show at another one, if nothing is in flight there. -/
theorem stageAt_of_ne {m m' : Acknowledged ρ γ} {i j : Nat} {old new : Slot}
    (replaced : Replaces i old new m.outbox.slots m'.outbox.slots) (other : j ≠ i)
    (still : m'.phase = m.phase ∨ ∀ p, m.outbox.slots[j]?.getD .idle ≠ .inFlight p) :
    m'.stageAt j = m.stageAt j := by
  have untouched : m'.outbox.slots[j]? = m.outbox.slots[j]? := by
    rw [replaced.changed]
    exact List.getElem?_set_ne (Ne.symm other)
  rw [stageAt, stageAt, untouched]
  rcases still with phase | grounded
  · rw [phase]
  · exact Slot.stage_congr grounded _ _

/-- A change of phase does not show where nothing is in flight. -/
theorem stageAt_of_grounded {m m' : Acknowledged ρ γ} {i : Nat}
    (slots : m'.outbox.slots = m.outbox.slots)
    (grounded : ∀ p, m.outbox.slots[i]?.getD .idle ≠ .inFlight p) : m'.stageAt i = m.stageAt i := by
  rw [stageAt, stageAt, slots]
  exact Slot.stage_congr grounded _ _

section Places

variable {m m' : Acknowledged ρ γ} {i : Nat} {p : Packet} {now : Tick}

/-- A place that waits for an acknowledgement is that of the packet in flight. -/
theorem inFlight_of_stageAt {failures : Nat} {expiry : Tick} {q : Packet}
    (waits : m.stageAt i = .awaiting q failures expiry) :
    m.phase = .awaitingAck expiry ∧
      ∃ p, m.outbox.slots[i]? = some (.inFlight p) ∧ q = p.untried := by
  unfold stageAt at waits
  cases at_i : m.outbox.slots[i]? with
  | none =>
    rw [at_i] at waits
    cases waits
  | some slot =>
    rw [at_i] at waits
    cases slot with
    | idle => cases waits
    | queued p => cases waits
    | inFlight p =>
      cases phase : m.phase with
      | awaitingAck expiry' =>
        rw [phase] at waits
        cases waits
        exact ⟨rfl, p, rfl, rfl⟩
      | idle =>
        rw [phase] at waits
        cases waits
      | backoff expiry' busy =>
        rw [phase] at waits
        cases waits
      | retryWait expiry' =>
        rw [phase] at waits
        cases waits

/-- One place at most waits for an acknowledgement. -/
theorem Served.place_eq_of_awaiting (served : m.Served) {j failures failures' : Nat} {q : Packet}
    {expiry expiry' : Tick} (waits : m.stageAt j = .awaiting q failures expiry)
    (waits' : m.stageAt i = .awaiting p failures' expiry') : j = i := by
  obtain ⟨-, q', there, -⟩ := inFlight_of_stageAt waits
  obtain ⟨-, p', here, -⟩ := inFlight_of_stageAt waits'
  by_contra other
  have alone := Outbox.ne_inFlight_of_ne served.length_flying_le here other q'
  rw [there] at alone
  exact alone rfl

theorem stageAt_learn (m : Acknowledged ρ γ) (a : Address) : (m.learn a).stageAt = m.stageAt := by
  funext i
  rw [stageAt, stageAt, outbox_learn, phase_learn]

theorem stageAt_ne_over (m : Acknowledged ρ γ) (i : Nat) (p : Packet)
    (reason : Option FailureReason) : m.stageAt i ≠ .over p reason :=
  Slot.stage_ne_over _ _ p reason

/-- Where nothing is held all places are vacant. -/
theorem stageAt_of_idle (idle : ∀ slot ∈ m.outbox.slots, slot = .idle) (i : Nat) :
    m.stageAt i = .vacant := by
  unfold stageAt
  cases at_i : m.outbox.slots[i]? with
  | none => rfl
  | some slot =>
    rw [idle slot (List.mem_of_getElem? at_i)]
    rfl

/-- What changes in one place moves it along, and no other. -/
theorem tracks_of_replaces {c : Config} {old new : Slot} {incident : Incident}
    (replaced : Replaces i old new m.outbox.slots m'.outbox.slots)
    (step : Stage.Step c now (old.stage m.phase) incident (new.stage m'.phase))
    (still : incident.started? = none)
    (alone : m'.phase = m.phase ∨
      ∀ j, j ≠ i → ∀ p, m.outbox.slots[j]?.getD .idle ≠ .inFlight p) :
    Stage.Tracks c now m.stageAt [⟨some i, incident⟩] m'.stageAt := by
  rw [← stageAt_of_slot replaced.found, ← stageAt_of_replaces replaced] at step
  refine .single step still fun j other => stageAt_of_ne replaced other ?_
  rcases alone with phase | grounded
  · exact .inl phase
  · exact .inr (grounded j other)

/-- A packet that is taken up is where it was before its first attempt. -/
theorem stageAt_of_startNext {outbox : Outbox} (served : m.Served)
    (started : m.outbox.startNext now = some (i, outbox)) (station : Station ρ γ) (expiry : Tick) :
    stageAt { m with station, outbox, phase := .backoff expiry 0 } = m.stageAt := by
  obtain ⟨grounded, p, promoted, -, -⟩ := Outbox.startNext_eq_some started
  funext j
  by_cases here : j = i
  · have after : stageAt { m with station, outbox, phase := .backoff expiry 0 } i = _ :=
      stageAt_of_replaces promoted
    have fresh : p.attempts = 0 :=
      served.untried p (Outbox.mem_queued.mpr (List.mem_of_getElem? promoted.found))
    rw [here, after, stageAt_of_slot promoted.found]
    change Stage.ready p.untried p.attempts.toNat = Stage.ready p.untried 0
    rw [fresh]
    rfl
  · exact stageAt_of_ne promoted here (.inr (Outbox.ne_inFlight_of_nil grounded j))

/-- Only the wait for an acknowledgement shows in the places. -/
theorem stageAt_of_unawaited {phase : AckPhase} (station : Station ρ γ)
    (before : ∀ expiry, m.phase ≠ .awaitingAck expiry)
    (after : ∀ expiry, phase ≠ .awaitingAck expiry) :
    stageAt { m with station, phase } = m.stageAt :=
  funext fun _ => Slot.stage_of_unawaited _ before after

end Places

end Acknowledged

end MoteLink.Link
