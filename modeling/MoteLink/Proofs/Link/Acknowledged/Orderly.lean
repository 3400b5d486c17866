import MoteLink.Proofs.Link.Acknowledged.Invariant
import MoteLink.Radio.Bench

/-!
# Runs of an acknowledged link

From its start on, whatever is asked of the link in whatever order and whatever the radio does, the
link is orderly: one packet at most is in flight, its phase says so, and the counters of that packet
stay within their bounds. No call halts on the way, and no step looks in vain for the packet in
flight.
-/

namespace MoteLink.Link

namespace Acknowledged

variable {ρ γ ε : Type}

/-- How the places and the phase of an acknowledged link go together. -/
structure Orderly (m : Acknowledged ρ γ) : Prop where
  one : m.outbox.flying.length ≤ 1
  idle : m.phase = .idle ↔ m.outbox.flying = []
  untried : ∀ p ∈ m.outbox.queued, p.attempts = 0
  backoff : ∀ expiry busy, m.phase = .backoff expiry busy →
    busy ≤ m.station.config.maxBusyAssessments ∧
      ∀ p ∈ m.outbox.flying, p.attempts.toNat < m.station.config.attemptLimit
  awaitingAck : ∀ expiry, m.phase = .awaitingAck expiry → ∀ p ∈ m.outbox.flying,
    1 ≤ p.attempts.toNat ∧ p.attempts.toNat ≤ m.station.config.attemptLimit ∧
      p.descriptor.flags.ackRequested = true ∧ p.descriptor.nextHop.isBroadcast = false
  retryWait : ∀ expiry, m.phase = .retryWait expiry → ∀ p ∈ m.outbox.flying,
    1 ≤ p.attempts.toNat ∧ p.attempts < m.station.config.maxAttempts

theorem Served.orderly {m : Acknowledged ρ γ} (served : m.Served) : m.Orderly := by
  have fits := served.fits
  constructor
  case one => exact served.length_flying_le
  case idle =>
    constructor
    · exact served.flying_of_idle
    · exact served.idle_of_flying
  case untried => exact served.untried
  case backoff =>
    intro expiry busy phase
    rw [phase] at fits
    obtain ⟨within, p, flying, left⟩ := fits
    refine ⟨within, fun q member => ?_⟩
    rw [flying, List.mem_singleton] at member
    rw [member]
    exact left
  case awaitingAck =>
    intro expiry phase q member
    rw [phase] at fits
    obtain ⟨p, flying, tried, within, asks⟩ := fits
    rw [flying, List.mem_singleton] at member
    rw [member]
    rw [Packet.needsAck, Bool.and_eq_true, Bool.not_eq_true'] at asks
    exact ⟨tried, within, asks.1, asks.2⟩
  case retryWait =>
    intro expiry phase q member
    rw [phase] at fits
    obtain ⟨p, flying, tried, left⟩ := fits
    rw [flying, List.mem_singleton] at member
    rw [member]
    exact ⟨tried, left⟩

variable [Transceiver ρ ε] [RandomSource γ]

/-- The second state comes from the first one by steps at `now`. Every state that a poll passes
    through is of this kind. -/
inductive Reaches (now : Tick) (m : Acknowledged ρ γ) : Acknowledged ρ γ → Prop
  | here : Reaches now m m
  | step {m' after : Acknowledged ρ γ} {r : Except (LinkError ε) Bool} (reached : Reaches now m m')
      (taken : m'.step now = .ok (r, after)) : Reaches now m after

theorem Reaches.servedBy {c : Config} {now : Tick} {m m' : Acknowledged ρ γ}
    (reached : Reaches now m m') (served : ServedBy c m) : ServedBy c m' := by
  induction reached with
  | here => exact served
  | step reached taken ih => exact servedBy_step ih taken

/-- All through a run the link is served. -/
theorem servedBy_of_run {capacity : Nat} {config : Config} {radio : ρ} {rng : γ}
    {history : List (Event ρ ε)} {link : Link ρ γ}
    (run : Run (.new .acknowledged capacity config radio rng) history link) :
    ∃ m, link = .acknowledged m ∧ ServedBy config m := by
  refine run.invariant (fun link => ∃ m, link = .acknowledged m ∧ ServedBy config m)
    ⟨_, rfl, servedBy_new capacity config radio rng⟩ ?_ ?_
  · rintro _ radio ⟨m, rfl, served⟩
    exact ⟨_, rfl, served.withStation rfl⟩
  · rintro _ now call answer after ⟨m, rfl, served⟩ performed
    obtain ⟨m', rfl, performs⟩ := performs_of_perform performed
    exact ⟨m', rfl, servedBy_performs performs served⟩

/-- A call of a served link has an answer, unless the bound on the backoff is missing. -/
theorem perform_isOk {m : Acknowledged ρ γ} (served : m.Served)
    (bounded : m.station.config.maxInitialBackoff ≠ Tick.longest) (now : Tick) (call : Call) :
    ∃ (answer : Answer ε) (after : Link ρ γ),
      (Link.acknowledged m).perform now call = .ok (answer, after) := by
  cases call with
  | send dst payload => exact ⟨_, _, rfl⟩
  | submit d payload => exact ⟨_, _, rfl⟩
  | receive frame => exact ⟨_, _, rfl⟩
  | poll =>
    cases polled : m.poll (ε := ε) now with
    | error halt => exact absurd (poll_eq_error served polled).2 bounded
    | ok result => exact ⟨_, _, perform_poll_eq_ok polled⟩
  | cancel seq => exact ⟨_, _, rfl⟩

/-- Whatever has been asked of an acknowledged link, it is orderly, in the middle of a poll as well
    as between two calls. The next call has an answer whatever it is; every step of a poll is one of
    the listed transitions, and so is every acknowledgement: the packet in flight is there whenever
    it is looked for, and no counter leaves its word. -/
theorem orderly_of_run {capacity : Nat} {config : Config} {radio : ρ} {rng : γ}
    {history : List (Event ρ ε)} {link : Link ρ γ}
    (bounded : config.maxInitialBackoff < Tick.longest)
    (run : Run (.new .acknowledged capacity config radio rng) history link) :
    ∃ m, link = .acknowledged m ∧ m.station.config = config ∧ m.Orderly ∧
      ∀ (radio : ρ) (now : Tick),
        (∀ call, ∃ (answer : Answer ε) (after : Link ρ γ),
          (link.setRadio radio).perform now call = .ok (answer, after)) ∧
        ∀ m', Reaches now { m with station.radio := radio } m' →
          m'.station.config = config ∧ m'.Orderly ∧
          (∃ r after, m'.step now = .ok (r, after) ∧ Transition now m' r after) ∧
          ∀ a ack, Acknowledgement (m'.learn a) ack ((m'.learn a).handleAck ack) := by
  have finite : config.maxInitialBackoff ≠ Tick.longest := UInt32.ne_of_lt bounded
  obtain ⟨m, rfl, served⟩ := servedBy_of_run run
  refine ⟨m, rfl, served.config, served.orderly, fun radio now => ?_⟩
  have tuned : ServedBy config { m with station.radio := radio } :=
    ⟨served.toServed.withStation rfl, served.config⟩
  refine ⟨perform_isOk tuned.toServed (served.config ▸ finite) now, fun m' reached => ?_⟩
  have there := reached.servedBy tuned
  refine ⟨there.config, there.orderly, ?_, fun a =>
    acknowledgement_of_handleAck (served_learn there.toServed a)⟩
  cases taken : m'.step (ε := ε) now with
  | error halt =>
    have missing := (step_eq_error there.toServed taken).2
    rw [there.config] at missing
    exact absurd missing finite
  | ok result => exact ⟨result.1, result.2, rfl, transition_of_step there.toServed taken⟩

/-- A packet that asks for an acknowledgement has been sent and waits for it. -/
theorem orderly_of_run_awaitingAck :
    ∃ (history : List (Event Bench BenchError)) (m : Acknowledged Bench StepGenerator),
      Run (.new .acknowledged 2 { address := .short 1, maxInitialBackoff := 0 } {} ⟨0, 0⟩) history
        (.acknowledged m) ∧ m.phase = .awaitingAck 205 ∧ m.Orderly := by
  have run : Run (ε := BenchError)
      (.new .acknowledged 2 { address := .short 1, maxInitialBackoff := 0 } ({} : Bench)
        (⟨0, 0⟩ : StepGenerator)) _ (.acknowledged _) :=
    run_of_replay [(5, id, .send (.short 2) [7]), (5, id, .poll)] rfl
  obtain ⟨m, same, -, orderly, -⟩ := orderly_of_run (by decide) run
  cases same
  exact ⟨_, _, run, rfl, orderly⟩

end Acknowledged

end MoteLink.Link
