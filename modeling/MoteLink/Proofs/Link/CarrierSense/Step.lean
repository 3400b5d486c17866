import MoteLink.Link.CarrierSense
import MoteLink.Proofs.Link.Outbox
import MoteLink.Proofs.Link.Run
import MoteLink.Proofs.Link.Station

/-!
# Steps and calls of a carrier-sensing link

`Transition` lists everything that one step can do to a link whose packet in flight is there in the
phase that asks for one, and `Performs` lists what each call does.
-/

namespace MoteLink.Link

/-- The packets in flight are those that the phase calls for. -/
def CarrierPhase.Fits (c : Config) : CarrierPhase → List Packet → Prop
  | .idle, flying => flying = []
  | .backoff _ busy, flying => busy ≤ c.maxBusyAssessments ∧ ∃ p, flying = [p]

namespace CarrierSense

variable {ρ γ ε : Type}

/-- What is in flight fits the phase. -/
def Served (m : CarrierSense ρ γ) : Prop := m.phase.Fits m.station.config m.outbox.flying

theorem Served.flying_of_idle {m : CarrierSense ρ γ} (served : m.Served) (quiet : m.phase = .idle) :
    m.outbox.flying = [] := by
  unfold Served at served
  rw [quiet] at served
  exact served

theorem Served.flying_of_backoff {m : CarrierSense ρ γ} {expiry : Tick} {busy : UInt8}
    (served : m.Served) (phase : m.phase = .backoff expiry busy) :
    busy ≤ m.station.config.maxBusyAssessments ∧
      ∃ i p, m.outbox.inFlight? = some (i, p) ∧ m.outbox.flying = [p] := by
  unfold Served at served
  rw [phase] at served
  obtain ⟨within, p, flying⟩ := served
  obtain ⟨i, found⟩ := Outbox.inFlight?_of_flying flying
  exact ⟨within, i, p, found, flying⟩

theorem Served.length_flying_le {m : CarrierSense ρ γ} (served : m.Served) :
    m.outbox.flying.length ≤ 1 := by
  cases phase : m.phase with
  | idle =>
    rw [served.flying_of_idle phase]
    exact Nat.zero_le 1
  | backoff expiry busy =>
    obtain ⟨-, i, p, -, one⟩ := served.flying_of_backoff phase
    rw [one]
    exact Nat.le_refl 1

theorem Served.idle_of_flying {m : CarrierSense ρ γ} (served : m.Served)
    (grounded : m.outbox.flying = []) : m.phase = .idle := by
  cases phase : m.phase with
  | idle => rfl
  | backoff expiry busy =>
    obtain ⟨-, i, p, -, flying⟩ := served.flying_of_backoff phase
    rw [grounded] at flying
    cases flying

/-- The link after the packet in place `i` has been let go. -/
def released (m : CarrierSense ρ γ) (i : Nat) (outcome : Outcome) : CarrierSense ρ γ :=
  { m with
    phase := .idle
    outbox := { m.outbox with slots := m.outbox.slots.set i .idle }
    station := m.station.emit outcome }

/-- The link after `slot` has been freed. If its packet was in flight the link comes to rest. -/
def without (m : CarrierSense ρ γ) (slot : Slot) (outbox : Outbox) : CarrierSense ρ γ :=
  { m with outbox, phase := if slot.inFlight?.isSome then .idle else m.phase }

/-- The one attempt on the packet `p` in place `i`. -/
inductive Attempt [Transceiver ρ ε] (m : CarrierSense ρ γ) (i : Nat) (p : Packet) :
    Option FailureReason → CarrierSense ρ γ → Prop
  | refused {e : LinkError ε} {station : Station ρ γ}
      (sent : m.station.transmit p.descriptor p.payload = (.error e, station)) :
      Attempt m i p (some .radio) (released { m with station } i (p.outcome (some .radio)))
  | done {length : Nat} {station : Station ρ γ}
      (sent : m.station.transmit (ε := ε) p.descriptor p.payload = (.ok length, station)) :
      Attempt m i p none (released { m with station } i (p.outcome none))

/-- Everything that one step at `now` can do, and whether another one may follow. -/
inductive Transition [Transceiver ρ ε] [RandomSource γ] (now : Tick) (m : CarrierSense ρ γ) :
    Except (LinkError ε) Bool → CarrierSense ρ γ → Prop
  | rest (quiet : m.phase = .idle) (early : m.outbox.startNext now = none) :
      Transition now m (.ok false) m
  | start {i : Nat} {outbox : Outbox} {expiry : Tick} {station : Station ρ γ}
      (quiet : m.phase = .idle) (started : m.outbox.startNext now = some (i, outbox))
      (drawn : m.station.firstBackoff now = .ok (expiry, station)) :
      Transition now m (.ok true) { m with station, outbox, phase := .backoff expiry 0 }
  | deaf {expiry : Tick} {busy : UInt8} {e : LinkError ε} {station : Station ρ γ}
      (phase : m.phase = .backoff expiry busy)
      (sensed : m.station.Sensed expiry busy now (.error e) station) :
      Transition now m (.error e) { m with station }
  | hold {expiry expiry' : Tick} {busy busy' : UInt8} {station : Station ρ γ}
      (phase : m.phase = .backoff expiry busy)
      (sensed : m.station.Sensed (ε := ε) expiry busy now (.ok (.pending expiry' busy')) station) :
      Transition now m (.ok false) { m with station, phase := .backoff expiry' busy' }
  | attempt {expiry : Tick} {busy : UInt8} {station : Station ρ γ} {i : Nat} {p : Packet}
      {reason : Option FailureReason} {m' : CarrierSense ρ γ}
      (phase : m.phase = .backoff expiry busy)
      (sensed : m.station.Sensed (ε := ε) expiry busy now (.ok .clear) station)
      (found : m.outbox.inFlight? = some (i, p))
      (attempted : Attempt (ε := ε) { m with station } i p reason m') :
      Transition now m (.ok true) m'

/-- What a call answers and what it does to the link. -/
inductive Performs [Transceiver ρ ε] [RandomSource γ] (m : CarrierSense ρ γ) (now : Tick) :
    Call → Answer ε → CarrierSense ρ γ → Prop
  | submit {call : Call} {d : Descriptor} {payload : Bytes}
      (submits : (Link.carrierSense m).submission? call = some (d, payload)) :
      Performs m now call (.submitted (m.submit d payload).1) (m.submit (ε := ε) d payload).2
  | receive (frame : Bytes) : Performs m now (.receive frame) (.received (m.receive frame).1) m
  | poll {result : Except (LinkError ε) (Option Outcome)} {m' : CarrierSense ρ γ}
      (polled : m.poll now = .ok (result, m')) : Performs m now .poll (.polled result) m'
  | cancel (seq : UInt8) :
      Performs m now (.cancel seq) (.cancelled (m.cancel seq).1) (m.cancel seq).2

/-! ## Reading the cases off the functions -/

theorem cancel_eq (m : CarrierSense ρ γ) (seq : UInt8) :
    m.cancel seq = ((m.outbox.remove seq).isSome,
      ((m.outbox.remove seq).map fun entry => m.without entry.1 entry.2).getD m) := by
  unfold cancel
  cases removed : m.outbox.remove seq with
  | none => rfl
  | some entry =>
    obtain ⟨slot, outbox⟩ := entry
    cases slot <;> rfl

/-- A submission leaves the phase alone. -/
theorem submitted_submit (m : CarrierSense ρ γ) (d : Descriptor) (payload : Bytes) :
    m.station.Submitted (ε := ε) m.outbox d payload (m.submit d payload).1
        (m.submit (ε := ε) d payload).2.station (m.submit (ε := ε) d payload).2.outbox ∧
      (m.submit (ε := ε) d payload).2.phase = m.phase := by
  unfold submit
  split <;> rename_i prepared
  · exact ⟨.unfit prepared, rfl⟩
  · split <;> rename_i placed
    · exact ⟨.full prepared placed, rfl⟩
    · exact ⟨.accepted prepared placed, rfl⟩

variable [Transceiver ρ ε] {m m' : CarrierSense ρ γ} {now : Tick} {i : Nat} {p : Packet}

theorem attempt_of_release (found : m.outbox.inFlight? = some (i, p)) :
    ∃ reason, Attempt (ε := ε) m i p reason m.release := by
  have completed := Outbox.complete_of_inFlight? found
  unfold release
  simp only [completed]
  split <;> rename_i station sent
  · exact ⟨some .radio, .refused sent⟩
  · exact ⟨none, .done sent⟩

variable [RandomSource γ]

theorem transition_of_step {r : Except (LinkError ε) Bool} (served : m.Served)
    (taken : step now m = .ok (r, m')) : Transition now m r m' := by
  unfold step at taken
  cases phase : m.phase with
  | idle =>
    simp only [phase] at taken
    split at taken <;> rename_i started
    · cases taken
      exact .rest phase started
    · split at taken <;> rename_i drawn
      · cases taken
      · cases taken
        exact .start phase started drawn
  | backoff expiry busy =>
    obtain ⟨-, i, p, found, -⟩ := served.flying_of_backoff phase
    simp only [phase] at taken
    split at taken <;> rename_i assessed
    · cases taken
    · rename_i station
      have same : ({ m with station } : CarrierSense ρ γ) =
          { m with station, phase := .backoff expiry busy } := by rw [← phase]
      cases taken
      exact same ▸ .deaf phase (Station.sensed_of_assess assessed)
    · cases taken
      exact .hold phase (Station.sensed_of_assess assessed)
    · rename_i station
      cases taken
      have there : ({ m with station, phase := .backoff expiry busy } :
        CarrierSense ρ γ).outbox.inFlight? = some (i, p) := found
      obtain ⟨reason, attempted⟩ := attempt_of_release (ε := ε) there
      have same : ({ m with station } : CarrierSense ρ γ) =
          { m with station, phase := .backoff expiry busy } := by rw [← phase]
      exact .attempt phase (Station.sensed_of_assess assessed) found (same ▸ attempted)

theorem perform_poll_eq_ok {now : Tick} {result : Except (LinkError ε) (Option Outcome)}
    {m' : CarrierSense ρ γ} (polled : m.poll now = .ok (result, m')) :
    (Link.carrierSense m).perform now .poll = .ok (.polled result, .carrierSense m') := by
  simp only [perform, Link.poll, polled, Except.map]
  rfl

theorem perform_poll_eq_error {now : Tick} {halt : Halt}
    (halted : m.poll (ε := ε) now = .error halt) :
    (Link.carrierSense m).perform (ε := ε) now .poll = .error halt := by
  simp only [perform, Link.poll, halted, Except.map]

/-- A step that no other one follows leaves the places alone. -/
theorem Transition.outbox_of_last {r : Except (LinkError ε) Bool} (taken : Transition now m r m')
    (last : r ≠ .ok true) : m'.outbox = m.outbox := by
  cases taken with
  | rest quiet early => rfl
  | start quiet started drawn => exact absurd rfl last
  | deaf phase sensed => rfl
  | hold phase sensed => rfl
  | attempt phase sensed found attempted => exact absurd rfl last

theorem performs_of_perform {call : Call} {answer : Answer ε} {after : Link ρ γ}
    (performed : (Link.carrierSense m).perform now call = .ok (answer, after)) :
    ∃ m', after = .carrierSense m' ∧ Performs m now call answer m' := by
  cases call with
  | send dst payload =>
    cases performed
    exact ⟨_, rfl, .submit rfl⟩
  | submit d payload =>
    cases performed
    exact ⟨_, rfl, .submit rfl⟩
  | receive frame =>
    cases performed
    exact ⟨_, rfl, .receive frame⟩
  | poll =>
    cases polled : m.poll now with
    | error halt =>
      rw [perform_poll_eq_error polled] at performed
      cases performed
    | ok result =>
      rw [perform_poll_eq_ok polled] at performed
      cases performed
      exact ⟨_, rfl, .poll polled⟩
  | cancel seq =>
    cases performed
    exact ⟨_, rfl, .cancel seq⟩

/-- What a poll does: it settles, and unless sensing has failed it fetches an outcome. -/
theorem settle_of_poll {result : Except (LinkError ε) (Option Outcome)}
    (polled : m.poll now = .ok (result, m')) :
    (∃ e, settle (step now) m.pollRounds m = .ok (.error e, m') ∧ result = .error e) ∨
      ∃ rested : CarrierSense ρ γ,
        settle (step (ε := ε) now) m.pollRounds m = .ok (.ok (), rested) ∧
        result = .ok rested.station.takeOutcome.1 ∧
        m' = { rested with station := rested.station.takeOutcome.2 } := by
  unfold poll at polled
  split at polled <;> rename_i settled
  · cases polled
  · cases polled
    exact .inl ⟨_, settled, rfl⟩
  · cases polled
    exact .inr ⟨_, settled, rfl, rfl⟩

end CarrierSense

end MoteLink.Link
