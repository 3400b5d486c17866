import MoteLink.Link.Acknowledged
import MoteLink.Proofs.Link.Outbox
import MoteLink.Proofs.Link.Station

/-!
# Steps of an acknowledged link

`Transition` lists everything that one step can do to a link whose packet in flight, if its phase
asks for one, is there. No case of it is without that packet: the branches in which it is missing
are not taken. `transition_of_step` reads the cases off the step function once, so that no later
proof has to open it.
-/

namespace MoteLink.Link

/-- The packet after one more attempt. -/
def Packet.tried (p : Packet) : Packet := { p with attempts := p.attempts + 1 }

/-- Attempts that a packet gets in all: one, even where none is configured. -/
def Config.attemptLimit (c : Config) : Nat := max 1 c.maxAttempts.toNat

theorem Config.attemptLimit_le (c : Config) : c.attemptLimit ≤ 255 := by
  have := c.maxAttempts.toNat_lt
  unfold attemptLimit
  omega

/-- The packets in flight are those that the phase calls for. -/
def AckPhase.Fits (c : Config) : AckPhase → List Packet → Prop
  | .idle, flying => flying = []
  | .backoff _ busy, flying =>
    busy ≤ c.maxBusyAssessments ∧ ∃ p, flying = [p] ∧ p.attempts.toNat < c.attemptLimit
  | .awaitingAck _, flying =>
    ∃ p, flying = [p] ∧ 1 ≤ p.attempts.toNat ∧ p.attempts.toNat ≤ c.attemptLimit ∧
      p.needsAck = true
  | .retryWait _, flying =>
    ∃ p, flying = [p] ∧ 1 ≤ p.attempts.toNat ∧ p.attempts < c.maxAttempts

namespace Acknowledged

variable {ρ γ ε : Type}

/-- What is in flight fits the phase, and nothing that is queued has been tried. -/
structure Served (m : Acknowledged ρ γ) : Prop where
  fits : m.phase.Fits m.station.config m.outbox.flying
  untried : ∀ p ∈ m.outbox.queued, p.attempts = 0

theorem Served.flying_of_idle {m : Acknowledged ρ γ} (served : m.Served) (quiet : m.phase = .idle) :
    m.outbox.flying = [] := by
  have fits := served.fits
  rw [quiet] at fits
  exact fits

theorem Served.inFlight?_of_phase {m : Acknowledged ρ γ} (served : m.Served)
    (active : m.phase ≠ .idle) :
    ∃ i p, m.outbox.inFlight? = some (i, p) ∧ m.outbox.flying = [p] := by
  have fits := served.fits
  have one : ∃ p, m.outbox.flying = [p] := by
    cases phase : m.phase with
    | idle => exact absurd phase active
    | backoff expiry busy =>
      rw [phase] at fits
      obtain ⟨-, p, flying, -⟩ := fits
      exact ⟨p, flying⟩
    | awaitingAck expiry =>
      rw [phase] at fits
      obtain ⟨p, flying, -⟩ := fits
      exact ⟨p, flying⟩
    | retryWait expiry =>
      rw [phase] at fits
      obtain ⟨p, flying, -⟩ := fits
      exact ⟨p, flying⟩
  obtain ⟨p, flying⟩ := one
  obtain ⟨i, found⟩ := Outbox.inFlight?_of_flying flying
  exact ⟨i, p, found, flying⟩

theorem Served.length_flying_le {m : Acknowledged ρ γ} (served : m.Served) :
    m.outbox.flying.length ≤ 1 := by
  by_cases quiet : m.phase = .idle
  · rw [served.flying_of_idle quiet]
    exact Nat.zero_le 1
  · obtain ⟨i, p, -, one⟩ := served.inFlight?_of_phase quiet
    rw [one]
    exact Nat.le_refl 1

theorem Served.idle_of_flying {m : Acknowledged ρ γ} (served : m.Served)
    (grounded : m.outbox.flying = []) : m.phase = .idle := by
  by_contra active
  obtain ⟨i, p, -, flying⟩ := served.inFlight?_of_phase active
  rw [grounded] at flying
  cases flying

/-- The link after the packet in place `i` has been let go. -/
def released (m : Acknowledged ρ γ) (i : Nat) (outcome : Outcome) : Acknowledged ρ γ :=
  { m with
    phase := .idle
    outbox := { m.outbox with slots := m.outbox.slots.set i .idle }
    station := m.station.emit outcome }

/-- The link after `slot` has been freed. If its packet was in flight the link comes to rest. -/
def without (m : Acknowledged ρ γ) (slot : Slot) (outbox : Outbox) : Acknowledged ρ γ :=
  { m with outbox, phase := if slot.inFlight?.isSome then .idle else m.phase }

/-- What becomes of the packet `p` in place `i` when an attempt on it has failed. -/
inductive Setback (now : Tick) (m : Acknowledged ρ γ) (i : Nat) (p : Packet)
    (reason : FailureReason) : Acknowledged ρ γ → Prop
  | again (left : p.attempts < m.station.config.maxAttempts) :
      Setback now m i p reason
        { m with phase := .retryWait (now + m.station.config.retryBackoff p.attempts) }
  | giveUp (spent : m.station.config.maxAttempts ≤ p.attempts) :
      Setback now m i p reason (m.released i (p.outcome (some reason)))

/-- One attempt on the packet `p` in place `i`. -/
inductive Attempt [Transceiver ρ ε] (now : Tick) (m : Acknowledged ρ γ) (i : Nat) (p : Packet) :
    Acknowledged ρ γ → Prop
  | refused {e : LinkError ε} {station : Station ρ γ} {m' : Acknowledged ρ γ}
      (sent : m.station.transmit p.descriptor p.payload = (.error e, station))
      (setback : Setback now { m with station, outbox := m.outbox.setInFlight p.tried } i p.tried
        .radio m') : Attempt now m i p m'
  | await {length : Nat} {station : Station ρ γ}
      (sent : m.station.transmit (ε := ε) p.descriptor p.payload = (.ok length, station))
      (asks : p.needsAck = true) :
      Attempt now m i p
        { m with
          station
          outbox := m.outbox.setInFlight p.tried
          phase := .awaitingAck (now + station.config.ackTimeout) }
  | done {length : Nat} {station : Station ρ γ}
      (sent : m.station.transmit (ε := ε) p.descriptor p.payload = (.ok length, station))
      (silent : p.needsAck = false) :
      Attempt now m i p
        (released { m with station, outbox := m.outbox.setInFlight p.tried } i (p.outcome none))

/-- Everything that one step at `now` can do, and whether another one may follow. -/
inductive Transition [Transceiver ρ ε] [RandomSource γ] (now : Tick) (m : Acknowledged ρ γ) :
    Except (LinkError ε) Bool → Acknowledged ρ γ → Prop
  | rest (quiet : m.phase = .idle) (early : m.outbox.startNext now = none) :
      Transition now m (.ok false) m
  | start {i : Nat} {outbox : Outbox} {expiry : Tick} {station : Station ρ γ}
      (quiet : m.phase = .idle) (started : m.outbox.startNext now = some (i, outbox))
      (drawn : m.station.firstBackoff now = .ok (expiry, station)) :
      Transition now m (.ok true) { m with station, outbox, phase := .backoff expiry 0 }
  | deaf {expiry : Tick} {busy : UInt8} {e : LinkError ε} {station : Station ρ γ}
      (phase : m.phase = .backoff expiry busy)
      (sensed : m.station.Sensed expiry busy now (.error e) station) :
      Transition now m (.error e) { m with station }
  | hold {expiry expiry' : Tick} {busy busy' : UInt8} {station : Station ρ γ}
      (phase : m.phase = .backoff expiry busy)
      (sensed : m.station.Sensed (ε := ε) expiry busy now (.ok (.pending expiry' busy')) station) :
      Transition now m (.ok false) { m with station, phase := .backoff expiry' busy' }
  | attempt {expiry : Tick} {busy : UInt8} {station : Station ρ γ} {i : Nat} {p : Packet}
      {m' : Acknowledged ρ γ} (phase : m.phase = .backoff expiry busy)
      (sensed : m.station.Sensed (ε := ε) expiry busy now (.ok .clear) station)
      (found : m.outbox.inFlight? = some (i, p))
      (attempted : Attempt now { m with station } i p m') : Transition now m (.ok true) m'
  | await {expiry : Tick} (phase : m.phase = .awaitingAck expiry)
      (early : Tick.hasReached expiry now = false) : Transition now m (.ok false) m
  | timeout {expiry : Tick} {i : Nat} {p : Packet} {m' : Acknowledged ρ γ}
      (phase : m.phase = .awaitingAck expiry) (passed : Tick.hasReached expiry now = true)
      (found : m.outbox.inFlight? = some (i, p)) (setback : Setback now m i p .ackTimeout m') :
      Transition now m (.ok true) m'
  | pause {expiry : Tick} (phase : m.phase = .retryWait expiry)
      (early : Tick.hasReached expiry now = false) : Transition now m (.ok false) m
  | retry {expiry : Tick} (phase : m.phase = .retryWait expiry)
      (passed : Tick.hasReached expiry now = true) :
      Transition now m (.ok true) { m with phase := .backoff now 0 }

/-- What a received acknowledgement can do. -/
inductive Acknowledgement (m : Acknowledged ρ γ) (ack : Descriptor) : Acknowledged ρ γ → Prop
  | unexpected (phase : ∀ expiry, m.phase ≠ .awaitingAck expiry) : Acknowledgement m ack m
  | mismatch {expiry : Tick} {i : Nat} {p : Packet} (phase : m.phase = .awaitingAck expiry)
      (found : m.outbox.inFlight? = some (i, p))
      (other : ¬(p.descriptor.seq = ack.seq ∧ p.descriptor.nextHop = ack.prevHop)) :
      Acknowledgement m ack m
  | matching {expiry : Tick} {i : Nat} {p : Packet} (phase : m.phase = .awaitingAck expiry)
      (found : m.outbox.inFlight? = some (i, p)) (seq : p.descriptor.seq = ack.seq)
      (sender : p.descriptor.nextHop = ack.prevHop) :
      Acknowledgement m ack (m.released i (p.outcome none))

/-! ## Reading the cases off the step function -/

variable {m m' : Acknowledged ρ γ} {now : Tick} {i : Nat} {p : Packet}

theorem cancel_eq (m : Acknowledged ρ γ) (seq : UInt8) :
    m.cancel seq = ((m.outbox.remove seq).isSome,
      ((m.outbox.remove seq).map fun entry => m.without entry.1 entry.2).getD m) := by
  unfold cancel
  cases removed : m.outbox.remove seq with
  | none => rfl
  | some entry =>
    obtain ⟨slot, outbox⟩ := entry
    cases slot <;> rfl

theorem finish_eq_released (found : m.outbox.inFlight? = some (i, p))
    (reason : Option FailureReason) : m.finish reason = m.released i (p.outcome reason) := by
  have completed := Outbox.complete_of_inFlight? found
  simp only [finish, completed, released]

theorem setback_of_attemptFailed (found : m.outbox.inFlight? = some (i, p))
    (reason : FailureReason) : Setback now m i p reason (m.attemptFailed reason now) := by
  unfold attemptFailed
  simp only [found, Option.map_some, Option.getD_some]
  by_cases spent : m.station.config.maxAttempts ≤ p.attempts
  · rw [if_pos spent, finish_eq_released found]
    exact .giveUp spent
  · rw [if_neg spent]
    exact .again (UInt8.not_le.mp spent)

theorem acknowledgement_of_handleAck (served : m.Served) (ack : Descriptor) :
    Acknowledgement m ack (m.handleAck ack) := by
  unfold handleAck
  split
  · rename_i expiry phase
    obtain ⟨i, p, found, -⟩ := served.inFlight?_of_phase (by rw [phase]; nofun)
    by_cases matching : m.isAckedBy ack = true
    · rw [if_pos matching, finish_eq_released found]
      simp only [isAckedBy, found, Bool.and_eq_true, beq_iff_eq] at matching
      exact .matching phase found matching.1 matching.2
    · rw [if_neg matching]
      simp only [isAckedBy, found, Bool.and_eq_true, beq_iff_eq] at matching
      exact .mismatch phase found matching
  · rename_i other
    exact .unexpected other

section Stepping

variable [Transceiver ρ ε]

theorem attempt_of_attempt (found : m.outbox.inFlight? = some (i, p))
    (attempted : m.attempt now = .ok m') : Attempt now m i p m' := by
  have kept := Outbox.inFlight?_setInFlight found p.tried
  unfold attempt at attempted
  simp only [found] at attempted
  by_cases full : p.attempts = 255
  · rw [if_pos full] at attempted
    cases attempted
  rw [if_neg full] at attempted
  split at attempted <;> rename_i station sent
  · cases attempted
    exact .refused sent (setback_of_attemptFailed kept .radio)
  · by_cases asks : p.needsAck = true
    · have tried : Packet.needsAck { p with attempts := p.attempts + 1 } = true := asks
      rw [if_pos tried] at attempted
      cases attempted
      exact .await sent asks
    · have tried : ¬Packet.needsAck { p with attempts := p.attempts + 1 } = true := asks
      rw [if_neg tried] at attempted
      cases attempted
      have finished := finish_eq_released
        (m := { m with station, outbox := m.outbox.setInFlight p.tried }) kept none
      exact finished ▸ .done sent (by simpa using asks)

theorem transition_of_step [RandomSource γ] {r : Except (LinkError ε) Bool} (served : m.Served)
    (taken : step now m = .ok (r, m')) : Transition now m r m' := by
  unfold step at taken
  cases phase : m.phase with
  | idle =>
    simp only [phase] at taken
    split at taken <;> rename_i started
    · cases taken
      exact .rest phase started
    · split at taken <;> rename_i drawn
      · cases taken
      · cases taken
        exact .start phase started drawn
  | backoff expiry busy =>
    obtain ⟨i, p, found, -⟩ := served.inFlight?_of_phase (by rw [phase]; nofun)
    simp only [phase] at taken
    split at taken <;> rename_i assessed
    · cases taken
    · rename_i station
      have same : ({ m with station } : Acknowledged ρ γ) =
          { m with station, phase := .backoff expiry busy } := by rw [← phase]
      cases taken
      exact same ▸ .deaf phase (Station.sensed_of_assess assessed)
    · cases taken
      exact .hold phase (Station.sensed_of_assess assessed)
    · split at taken <;> rename_i attempted
      · cases taken
      · cases taken
        exact .attempt phase (Station.sensed_of_assess assessed) found
          (attempt_of_attempt found attempted)
  | awaitingAck expiry =>
    obtain ⟨i, p, found, -⟩ := served.inFlight?_of_phase (by rw [phase]; nofun)
    simp only [phase] at taken
    split at taken <;> rename_i passed
    · cases taken
      exact .timeout phase passed found (setback_of_attemptFailed found .ackTimeout)
    · cases taken
      exact .await phase (by simpa using passed)
  | retryWait expiry =>
    simp only [phase] at taken
    split at taken <;> rename_i passed
    · cases taken
      exact .retry phase passed
    · cases taken
      exact .pause phase (by simpa using passed)

/-- Where no further step follows the wait for an acknowledgement is not over. -/
theorem Transition.waits_of_last [RandomSource γ] {r : Except (LinkError ε) Bool}
    (taken : Transition now m r m') (last : r ≠ .ok true) {expiry : Tick}
    (waits : m'.phase = .awaitingAck expiry) : Tick.hasReached expiry now = false := by
  cases taken with
  | rest quiet early =>
    rw [quiet] at waits
    cases waits
  | start quiet started drawn => exact absurd rfl last
  | deaf phase sensed =>
    rw [phase] at waits
    cases waits
  | hold phase sensed => cases waits
  | attempt phase sensed found attempted => exact absurd rfl last
  | await phase early =>
    rw [phase] at waits
    cases waits
    exact early
  | timeout phase passed found setback => exact absurd rfl last
  | pause phase early =>
    rw [phase] at waits
    cases waits
  | retry phase passed => exact absurd rfl last

/-- A step that no other one follows leaves the places alone. -/
theorem Transition.outbox_of_last [RandomSource γ] {r : Except (LinkError ε) Bool}
    (taken : Transition now m r m') (last : r ≠ .ok true) : m'.outbox = m.outbox := by
  cases taken with
  | rest quiet early => rfl
  | start quiet started drawn => exact absurd rfl last
  | deaf phase sensed => rfl
  | hold phase sensed => rfl
  | attempt phase sensed found attempted => exact absurd rfl last
  | await phase early => rfl
  | timeout phase passed found setback => exact absurd rfl last
  | pause phase early => rfl
  | retry phase passed => exact absurd rfl last

end Stepping

end Acknowledged

end MoteLink.Link
