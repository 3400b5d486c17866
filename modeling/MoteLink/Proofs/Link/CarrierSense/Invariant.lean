import MoteLink.Proofs.Link.CarrierSense.Step

/-!
# The state machine of a carrier-sensing link

Every step and every call keeps the packet in flight in agreement with the phase. With that a poll
halts only where the bound on the backoff is missing, and has as many rounds as it can need.
-/

namespace MoteLink.Link

namespace CarrierSense

variable {ρ γ ε : Type} {m m' : CarrierSense ρ γ} {now : Tick} {i : Nat} {p : Packet}

/-- Served, with the given configuration. -/
structure ServedBy (c : Config) (m : CarrierSense ρ γ) : Prop where
  served : m.Served
  config : m.station.config = c

/-- Of the station only its configuration matters. -/
theorem ServedBy.withStation {c : Config} {station : Station ρ γ} (served : ServedBy c m)
    (same : station.config = m.station.config) : ServedBy c { m with station } := by
  refine ⟨?_, same.trans served.config⟩
  have fits := served.served
  unfold Served at fits ⊢
  rw [← same] at fits
  exact fits

/-- Nothing is left in flight when the packet in flight is let go. -/
theorem served_released (found : m.outbox.inFlight? = some (i, p)) (one : m.outbox.flying = [p])
    (outcome : Outcome) : Served (m.released i outcome) := by
  have freed : Replaces i (.inFlight p) .idle m.outbox.slots
      (m.released i outcome).outbox.slots := ⟨Outbox.slot_of_inFlight? found, rfl⟩
  have gone : m.outbox.flying.Perm (p :: (m.released i outcome).outbox.flying) :=
    Outbox.flying_perm freed
  rw [one] at gone
  exact List.nil_perm.mp ((List.perm_cons p).mp gone)

/-! ## Steps -/

section Steps

variable [Transceiver ρ ε]

theorem Attempt.settings_eq {reason : Option FailureReason}
    (attempted : Attempt (ε := ε) m i p reason m') :
    m'.station.config = m.station.config ∧ m'.station.seq = m.station.seq := by
  cases attempted with
  | refused sent =>
    have books := Station.sameBooks_of_transmit sent
    exact ⟨books.config, books.seq⟩
  | done sent =>
    have books := Station.sameBooks_of_transmit sent
    exact ⟨books.config, books.seq⟩

theorem Attempt.served {reason : Option FailureReason}
    (attempted : Attempt (ε := ε) m i p reason m') (found : m.outbox.inFlight? = some (i, p))
    (one : m.outbox.flying = [p]) : m'.Served := by
  cases attempted with
  | @refused e station sent => exact served_released (m := { m with station }) found one _
  | @done length station sent => exact served_released (m := { m with station }) found one _

variable [RandomSource γ] {r : Except (LinkError ε) Bool}

/-- Steps keep the configuration and take no sequence number. -/
theorem Transition.settings_eq (taken : Transition now m r m') :
    m'.station.config = m.station.config ∧ m'.station.seq = m.station.seq := by
  cases taken with
  | rest quiet early => exact ⟨rfl, rfl⟩
  | start quiet started drawn =>
    have books := Station.sameBooks_firstBackoff drawn
    exact ⟨books.config, books.seq⟩
  | deaf phase sensed => exact ⟨sensed.sameBooks.config, sensed.sameBooks.seq⟩
  | hold phase sensed => exact ⟨sensed.sameBooks.config, sensed.sameBooks.seq⟩
  | attempt phase sensed found attempted =>
    have books := sensed.sameBooks
    obtain ⟨config, seq⟩ := attempted.settings_eq
    exact ⟨config.trans books.config, seq.trans books.seq⟩

theorem Transition.served (taken : Transition now m r m') (served : m.Served) : m'.Served := by
  cases taken with
  | rest quiet early => exact served
  | @start i outbox expiry station quiet started drawn =>
    obtain ⟨grounded, p, promoted, due, -⟩ := Outbox.startNext_eq_some started
    have flown : (p :: m.outbox.flying).Perm outbox.flying := Outbox.flying_perm promoted
    rw [grounded] at flown
    exact ⟨UInt8.zero_le, p, (List.singleton_perm.mp flown).symm⟩
  | deaf phase sensed =>
    have kept : ServedBy m.station.config m := ⟨served, rfl⟩
    exact (kept.withStation sensed.sameBooks.config).served
  | hold phase sensed =>
    obtain ⟨within, i, p, found, one⟩ := served.flying_of_backoff phase
    have bound := sensed.busy_le within
    rw [← sensed.sameBooks.config] at bound
    exact ⟨bound, p, one⟩
  | attempt phase sensed found attempted =>
    obtain ⟨-, j, q, found', one⟩ := served.flying_of_backoff phase
    obtain rfl : q = _ := Outbox.eq_of_flying one found
    exact attempted.served found one

theorem servedBy_step {c : Config} (served : ServedBy c m) (taken : step now m = .ok (r, m')) :
    ServedBy c m' := by
  have transition := transition_of_step served.served taken
  exact ⟨transition.served served.served, transition.settings_eq.1.trans served.config⟩

/-- Only a missing bound on the backoff makes a step halt. -/
theorem step_eq_error {halt : Halt} (halted : step (ε := ε) now m = .error halt) :
    halt = .overflow ∧ m.station.config.maxInitialBackoff = Tick.longest := by
  unfold step at halted
  split at halted
  · split at halted
    · cases halted
    · split at halted <;> rename_i drawn
      · cases halted
        exact Station.firstBackoff_eq_error drawn
      · cases halted
  · split at halted <;> rename_i assessed
    · cases halted
      exact Station.assess_eq_error assessed
    · cases halted
    · cases halted
    · cases halted

end Steps

/-! ## A poll ends -/

/-- Steps that can follow at one tick at most: two for each packet that is queued, and one for the
    packet in flight. -/
def budget (m : CarrierSense ρ γ) : Nat :=
  2 * m.outbox.queued.length +
    match m.phase with
    | .idle => 0
    | .backoff _ _ => 1

/-- A poll is given more rounds than the packets held can use up. -/
theorem budget_lt_pollRounds (served : m.Served) : m.budget < m.pollRounds := by
  have held : m.outbox.held = m.outbox.flying.length + m.outbox.queued.length := by
    rw [m.outbox.held_eq_length_packets, ← m.outbox.perm_flying_append_queued.length_eq,
      List.length_append]
  unfold budget pollRounds
  cases phase : m.phase with
  | idle =>
    rw [held]
    simp only
    omega
  | backoff expiry busy =>
    obtain ⟨-, i, p, -, one⟩ := served.flying_of_backoff phase
    rw [held, one, List.length_singleton]
    simp only
    omega

section Polls

variable [Transceiver ρ ε]

theorem Attempt.queued_eq {reason : Option FailureReason}
    (attempted : Attempt (ε := ε) m i p reason m') (found : m.outbox.inFlight? = some (i, p)) :
    m'.outbox.queued = m.outbox.queued := by
  have freed : Replaces i (.inFlight p) .idle m.outbox.slots (m.outbox.slots.set i .idle) :=
    ⟨Outbox.slot_of_inFlight? found, rfl⟩
  have stays : (m.outbox.slots.set i .idle).filterMap Slot.queued? = m.outbox.queued :=
    freed.filterMap_eq rfl
  cases attempted with
  | refused sent => exact stays
  | done sent => exact stays

theorem Attempt.phase_eq {reason : Option FailureReason}
    (attempted : Attempt (ε := ε) m i p reason m') : m'.phase = .idle := by
  cases attempted <;> rfl

variable [RandomSource γ]

theorem Transition.budget_lt (taken : Transition (ε := ε) now m (.ok true) m') :
    m'.budget < m.budget := by
  generalize result : Except.ok true = r at taken
  cases taken with
  | rest quiet early => cases result
  | @start i outbox expiry station quiet started drawn =>
    obtain ⟨-, p, promoted, -, -⟩ := Outbox.startNext_eq_some started
    have left : m.outbox.queued.Perm (p :: outbox.queued) := Outbox.queued_perm promoted
    have one_less := left.length_eq
    rw [List.length_cons] at one_less
    simp only [budget, quiet]
    omega
  | deaf phase sensed => cases result
  | hold phase sensed => cases result
  | attempt phase sensed found attempted =>
    have stays := attempted.queued_eq found
    simp only [budget, phase, attempted.phase_eq, stays]
    omega

theorem servedBy_poll {c : Config} {result : Except (LinkError ε) (Option Outcome)}
    (served : ServedBy c m) (polled : m.poll now = .ok (result, m')) : ServedBy c m' := by
  have keep (s : CarrierSense ρ γ) (r : Except (LinkError ε) Bool) (s' : CarrierSense ρ γ)
      (inv : ServedBy c s) (taken : step now s = .ok (r, s')) : ServedBy c s' :=
    servedBy_step inv taken
  obtain ⟨e, settled, -⟩ | ⟨rested, settled, -, rfl⟩ := settle_of_poll polled
  · exact settle_invariant keep served settled
  · have kept := settle_invariant keep served settled
    exact kept.withStation rfl

/-- A poll halts only for a missing bound on the backoff. Its rounds do not run out. -/
theorem poll_eq_error {halt : Halt} (served : m.Served)
    (halted : m.poll (ε := ε) now = .error halt) :
    halt = .overflow ∧ m.station.config.maxInitialBackoff = Tick.longest := by
  unfold poll at halted
  split at halted <;> rename_i settled
  · cases halted
    have first : ServedBy m.station.config m := ⟨served, rfl⟩
    obtain ⟨s, kept, stopped⟩ := settle_eq_error (ServedBy m.station.config) budget
      (fun s r s' inv taken => servedBy_step inv taken)
      (fun s s' inv taken => (transition_of_step inv.served taken).budget_lt)
      first (budget_lt_pollRounds served) settled
    rw [← kept.config]
    exact step_eq_error stopped
  · cases halted
  · cases halted

end Polls

/-! ## Calls -/

theorem served_submit {c : Config} (served : ServedBy c m) (d : Descriptor) (payload : Bytes) :
    ServedBy c (m.submit (ε := ε) d payload).2 := by
  obtain ⟨submitted, phase⟩ := m.submitted_submit (ε := ε) d payload
  have config := submitted.books.1
  refine ⟨?_, config.trans served.config⟩
  unfold Served
  rw [config, phase, submitted.outbox.1]
  exact served.served

theorem served_cancel {c : Config} (served : ServedBy c m) (seq : UInt8) :
    ServedBy c (m.cancel seq).2 := by
  have fits := served.served
  unfold cancel
  cases removed : m.outbox.remove seq with
  | none => exact served
  | some entry =>
    obtain ⟨slot, outbox⟩ := entry
    rcases Outbox.remove_cases removed with ⟨q, rfl, flying, -⟩ | ⟨q, rfl, fewer, -⟩
    · unfold Served at fits
      rw [← flying] at fits
      exact ⟨fits, served.config⟩
    · have one := served.served.length_flying_le
      have grounded : outbox.flying = [] := List.length_eq_zero_iff.mp (by omega)
      exact ⟨grounded, served.config⟩

theorem servedBy_performs [Transceiver ρ ε] [RandomSource γ] {c : Config} {call : Call}
    {answer : Answer ε} (performed : Performs m now call answer m') (served : ServedBy c m) :
    ServedBy c m' := by
  cases performed with
  | submit submits => exact served_submit served _ _
  | receive frame => exact served
  | poll polled => exact servedBy_poll served polled
  | cancel seq => exact served_cancel served seq

/-! ## At the start -/

theorem servedBy_new (capacity : Nat) (config : Config) (radio : ρ) (rng : γ) :
    ServedBy config
      { station := { config, radio, rng }, outbox := .empty capacity : CarrierSense ρ γ } :=
  ⟨Outbox.flying_empty capacity, rfl⟩

end CarrierSense

end MoteLink.Link
