import MoteLink.Proofs.Link.Acknowledged.Call

/-!
# The state machine of an acknowledged link

Places and phase are two pieces of state. `Served` says how they go together; every step, every
call and so every run keeps it. With it no step can halt but for a missing bound on the backoff,
and a poll has as many rounds as it can need.
-/

namespace MoteLink.Link

namespace Acknowledged

variable {ρ γ ε : Type} {m m' : Acknowledged ρ γ} {now : Tick} {i : Nat} {p : Packet}

/-! ## Steps keep the link served -/

/-- Of the station only its configuration matters. -/
theorem Served.withStation {station : Station ρ γ} (served : m.Served)
    (same : station.config = m.station.config) : Served { m with station } := by
  refine ⟨?_, served.untried⟩
  have fits := served.fits
  rw [← same] at fits
  exact fits

/-- Nothing is left in flight when the packet in flight is let go. -/
theorem served_released (found : m.outbox.inFlight? = some (i, p)) (one : m.outbox.flying = [p])
    (untried : ∀ q ∈ m.outbox.queued, q.attempts = 0) (outcome : Outcome) :
    Served (m.released i outcome) := by
  have freed : Replaces i (.inFlight p) .idle m.outbox.slots
      (m.released i outcome).outbox.slots := ⟨Outbox.slot_of_inFlight? found, rfl⟩
  have gone : m.outbox.flying.Perm (p :: (m.released i outcome).outbox.flying) :=
    Outbox.flying_perm freed
  have stays : m.outbox.queued.Perm (m.released i outcome).outbox.queued :=
    Outbox.queued_perm freed
  refine ⟨?_, fun q member => untried q (stays.mem_iff.mpr member)⟩
  rw [one] at gone
  exact List.nil_perm.mp ((List.perm_cons p).mp gone)

theorem queued_released (found : m.outbox.inFlight? = some (i, p)) (outcome : Outcome) :
    (m.released i outcome).outbox.queued = m.outbox.queued := by
  have freed : Replaces i (.inFlight p) .idle m.outbox.slots
      (m.released i outcome).outbox.slots := ⟨Outbox.slot_of_inFlight? found, rfl⟩
  exact freed.filterMap_eq rfl

theorem Setback.served {reason : FailureReason} (setback : Setback now m i p reason m')
    (found : m.outbox.inFlight? = some (i, p)) (one : m.outbox.flying = [p])
    (tried : 1 ≤ p.attempts.toNat) (untried : ∀ q ∈ m.outbox.queued, q.attempts = 0) :
    m'.Served := by
  cases setback with
  | again left => exact ⟨⟨p, one, tried, left⟩, untried⟩
  | giveUp spent => exact served_released found one untried _

theorem Setback.queued_eq {reason : FailureReason} (setback : Setback now m i p reason m')
    (found : m.outbox.inFlight? = some (i, p)) : m'.outbox.queued = m.outbox.queued := by
  cases setback with
  | again left => rfl
  | giveUp spent => exact queued_released found _

theorem toNat_tried (below : p.attempts.toNat < 255) :
    p.tried.attempts.toNat = p.attempts.toNat + 1 := by
  simp only [Packet.tried, UInt8.toNat_add, UInt8.reduceToNat]
  omega

/-- Another attempt is counted at the packet in flight and nowhere else. -/
theorem tried_inFlight (found : m.outbox.inFlight? = some (i, p)) (one : m.outbox.flying = [p]) :
    (m.outbox.setInFlight p.tried).inFlight? = some (i, p.tried) ∧
      (m.outbox.setInFlight p.tried).flying = [p.tried] ∧
      (m.outbox.setInFlight p.tried).queued = m.outbox.queued := by
  have counted := Outbox.slots_setInFlight found p.tried
  have moved : (p.tried :: m.outbox.flying).Perm (p :: (m.outbox.setInFlight p.tried).flying) :=
    Outbox.flying_perm counted
  rw [one] at moved
  have single := (List.perm_cons p).mp ((List.Perm.swap p.tried p []).trans moved)
  exact ⟨Outbox.inFlight?_setInFlight found p.tried, (List.singleton_perm.mp single).symm,
    counted.filterMap_eq rfl⟩

theorem Attempt.queued_eq [Transceiver ρ ε] (attempted : Attempt (ε := ε) now m i p m')
    (found : m.outbox.inFlight? = some (i, p)) : m'.outbox.queued = m.outbox.queued := by
  have there := Outbox.inFlight?_setInFlight found p.tried
  have stays : (m.outbox.setInFlight p.tried).queued = m.outbox.queued :=
    (Outbox.slots_setInFlight found p.tried).filterMap_eq rfl
  cases attempted with
  | refused sent setback => exact (setback.queued_eq there).trans stays
  | await sent asks => exact stays
  | @done length station sent silent =>
    have gone := queued_released
      (m := { m with station, outbox := m.outbox.setInFlight p.tried }) there (p.outcome none)
    exact gone.trans stays

theorem Attempt.served [Transceiver ρ ε] (attempted : Attempt now m i p m')
    (found : m.outbox.inFlight? = some (i, p)) (one : m.outbox.flying = [p])
    (left : p.attempts.toNat < m.station.config.attemptLimit)
    (untried : ∀ q ∈ m.outbox.queued, q.attempts = 0) : m'.Served := by
  obtain ⟨found', one', queued⟩ := tried_inFlight found one
  have limit := m.station.config.attemptLimit_le
  have counted := toNat_tried (p := p) (by omega)
  rw [← queued] at untried
  cases attempted with
  | refused sent setback => exact setback.served found' one' (by omega) untried
  | await sent asks =>
    have same := Station.sameBooks_of_transmit sent
    refine ⟨⟨p.tried, one', by omega, ?_, asks⟩, untried⟩
    rw [same.config]
    omega
  | done sent silent => exact served_released found' one' untried _

variable [Transceiver ρ ε] [RandomSource γ] {r : Except (LinkError ε) Bool}

theorem Transition.served (taken : Transition now m r m') (served : m.Served) : m'.Served := by
  have fits := served.fits
  cases taken with
  | rest quiet early => exact served
  | @start i outbox expiry station quiet started drawn =>
    obtain ⟨grounded, p, promoted, due, -⟩ := Outbox.startNext_eq_some started
    have flown : (p :: m.outbox.flying).Perm outbox.flying := Outbox.flying_perm promoted
    have left : m.outbox.queued.Perm (p :: outbox.queued) := Outbox.queued_perm promoted
    rw [grounded] at flown
    have fresh : p.attempts = 0 := served.untried p (left.mem_iff.mpr List.mem_cons_self)
    refine ⟨⟨UInt8.zero_le, p, (List.singleton_perm.mp flown).symm, ?_⟩, ?_⟩
    · rw [fresh]
      exact Nat.lt_of_lt_of_le Nat.zero_lt_one (Nat.le_max_left _ _)
    · intro q member
      exact served.untried q (left.mem_iff.mpr (List.mem_cons_of_mem p member))
  | deaf phase sensed => exact served.withStation sensed.sameBooks.config
  | hold phase sensed =>
    rw [phase] at fits
    obtain ⟨within, p, one, left⟩ := fits
    have same := sensed.sameBooks
    refine ⟨⟨?_, p, one, ?_⟩, served.untried⟩
    · rw [same.config]
      exact sensed.busy_le within
    · rw [same.config]
      exact left
  | attempt phase sensed found attempted =>
    rw [phase] at fits
    obtain ⟨-, q, one, left⟩ := fits
    obtain rfl : q = _ := Outbox.eq_of_flying one found
    have same := sensed.sameBooks
    exact attempted.served found one (same.config ▸ left) served.untried
  | await phase early => exact served
  | timeout phase passed found setback =>
    rw [phase] at fits
    obtain ⟨q, one, tried, -⟩ := fits
    obtain rfl : q = _ := Outbox.eq_of_flying one found
    exact setback.served found one tried served.untried
  | pause phase early => exact served
  | retry phase passed =>
    rw [phase] at fits
    obtain ⟨p, one, tried, left⟩ := fits
    refine ⟨⟨UInt8.zero_le, p, one, ?_⟩, served.untried⟩
    exact Nat.lt_of_lt_of_le (UInt8.lt_iff_toNat_lt.mp left) (Nat.le_max_right _ _)

/-! ## Steps keep the configuration and take no sequence number -/

omit [Transceiver ρ ε] [RandomSource γ] in
theorem Setback.settings_eq {reason : FailureReason} (setback : Setback now m i p reason m') :
    m'.station.config = m.station.config ∧ m'.station.seq = m.station.seq := by
  cases setback <;> exact ⟨rfl, rfl⟩

omit [RandomSource γ] in
theorem Attempt.settings_eq (attempted : Attempt now m i p m') :
    m'.station.config = m.station.config ∧ m'.station.seq = m.station.seq := by
  cases attempted with
  | refused sent setback =>
    have books := Station.sameBooks_of_transmit sent
    obtain ⟨config, seq⟩ := setback.settings_eq
    exact ⟨config.trans books.config, seq.trans books.seq⟩
  | await sent asks =>
    have books := Station.sameBooks_of_transmit sent
    exact ⟨books.config, books.seq⟩
  | done sent silent =>
    have books := Station.sameBooks_of_transmit sent
    exact ⟨books.config, books.seq⟩

theorem Transition.settings_eq (taken : Transition now m r m') :
    m'.station.config = m.station.config ∧ m'.station.seq = m.station.seq := by
  cases taken with
  | rest quiet early => exact ⟨rfl, rfl⟩
  | start quiet started drawn =>
    have books := Station.sameBooks_firstBackoff drawn
    exact ⟨books.config, books.seq⟩
  | deaf phase sensed => exact ⟨sensed.sameBooks.config, sensed.sameBooks.seq⟩
  | hold phase sensed => exact ⟨sensed.sameBooks.config, sensed.sameBooks.seq⟩
  | attempt phase sensed found attempted =>
    have books := sensed.sameBooks
    obtain ⟨config, seq⟩ := attempted.settings_eq
    exact ⟨config.trans books.config, seq.trans books.seq⟩
  | await phase early => exact ⟨rfl, rfl⟩
  | timeout phase passed found setback => exact setback.settings_eq
  | pause phase early => exact ⟨rfl, rfl⟩
  | retry phase passed => exact ⟨rfl, rfl⟩

/-! ## A poll ends -/

/-- Attempts that the packet in flight still has. -/
def triesLeft (m : Acknowledged ρ γ) : Nat :=
  match m.outbox.flying with
  | [] => 0
  | p :: _ => m.station.config.attemptLimit - p.attempts.toNat

/-- Steps that can follow at one tick at most: up to three for each attempt that is left. -/
def budget (m : Acknowledged ρ γ) : Nat :=
  3 * m.station.config.attemptLimit * m.outbox.queued.length +
    match m.phase with
    | .idle => 0
    | .backoff _ _ => 3 * m.triesLeft - 1
    | .awaitingAck _ => 3 * m.triesLeft + 1
    | .retryWait _ => 3 * m.triesLeft

omit [Transceiver ρ ε] [RandomSource γ] in
theorem triesLeft_of_flying (one : m.outbox.flying = [p]) :
    m.triesLeft = m.station.config.attemptLimit - p.attempts.toNat := by
  simp only [triesLeft, one]

omit [Transceiver ρ ε] [RandomSource γ] in
/-- Letting a packet go leaves the budget of those that are queued. -/
theorem budget_released (found : m.outbox.inFlight? = some (i, p)) (outcome : Outcome) :
    (m.released i outcome).budget =
      3 * m.station.config.attemptLimit * m.outbox.queued.length := by
  have stays := queued_released found outcome
  have untouched : (m.released i outcome).station.config = m.station.config := rfl
  simp only [budget, stays, untouched]
  rfl

omit [Transceiver ρ ε] [RandomSource γ] in
theorem Setback.budget_le {reason : FailureReason} (setback : Setback now m i p reason m')
    (found : m.outbox.inFlight? = some (i, p)) :
    m'.budget ≤ 3 * m.station.config.attemptLimit * m.outbox.queued.length + 3 * m.triesLeft := by
  cases setback with
  | again left => exact Nat.le_refl _
  | giveUp spent =>
    rw [budget_released found]
    omega

omit [RandomSource γ] in
theorem Attempt.budget_lt (attempted : Attempt now m i p m')
    (found : m.outbox.inFlight? = some (i, p)) (one : m.outbox.flying = [p])
    (left : p.attempts.toNat < m.station.config.attemptLimit) :
    m'.budget <
      3 * m.station.config.attemptLimit * m.outbox.queued.length + (3 * m.triesLeft - 1) := by
  obtain ⟨found', one', queued⟩ := tried_inFlight found one
  have limit := m.station.config.attemptLimit_le
  have counted := toNat_tried (p := p) (by omega)
  have tries := triesLeft_of_flying one
  cases attempted with
  | @refused e station m' sent setback =>
    have same := Station.sameBooks_of_transmit sent
    have bound := setback.budget_le found'
    have later := triesLeft_of_flying (m := { m with
      station, outbox := m.outbox.setInFlight p.tried }) one'
    simp only [queued, same.config] at bound later
    omega
  | @await length station sent asks =>
    have same := Station.sameBooks_of_transmit sent
    have later := triesLeft_of_flying (m := { m with
      station, outbox := m.outbox.setInFlight p.tried
      phase := .awaitingAck (now + station.config.ackTimeout) }) one'
    simp only [same.config] at later
    simp only [budget, queued, same.config, later]
    omega
  | done sent silent =>
    have same := Station.sameBooks_of_transmit sent
    rw [budget_released found']
    simp only [queued, same.config]
    omega

theorem Transition.budget_lt (taken : Transition (ε := ε) now m (.ok true) m') (served : m.Served) :
    m'.budget < m.budget := by
  generalize result : Except.ok true = r at taken
  have fits := served.fits
  cases taken with
  | rest quiet early => cases result
  | @start i outbox expiry station quiet started drawn =>
    obtain ⟨grounded, p, promoted, due, -⟩ := Outbox.startNext_eq_some started
    have flown : (p :: m.outbox.flying).Perm outbox.flying := Outbox.flying_perm promoted
    have left : m.outbox.queued.Perm (p :: outbox.queued) := Outbox.queued_perm promoted
    rw [grounded] at flown
    have same := Station.sameBooks_firstBackoff drawn
    have tries := triesLeft_of_flying (m := { m with
      station, outbox, phase := .backoff expiry 0 }) (List.singleton_perm.mp flown).symm
    have one_less := left.length_eq
    have positive : 1 ≤ m.station.config.attemptLimit := Nat.le_max_left _ _
    simp only [same.config] at tries
    simp only [budget, quiet, tries, same.config, one_less, List.length_cons, Nat.mul_succ]
    omega
  | deaf phase sensed => cases result
  | hold phase sensed => cases result
  | attempt phase sensed found attempted =>
    rw [phase] at fits
    obtain ⟨-, q, one, left⟩ := fits
    obtain rfl : q = _ := Outbox.eq_of_flying one found
    have same := sensed.sameBooks
    have less := attempted.budget_lt found one (same.config ▸ left)
    simp only [triesLeft, same.config] at less
    simp only [budget, phase, triesLeft]
    exact less
  | await phase early => cases result
  | timeout phase passed found setback =>
    rw [phase] at fits
    obtain ⟨q, one, tried, -⟩ := fits
    obtain rfl : q = _ := Outbox.eq_of_flying one found
    have bound := setback.budget_le found
    simp only [budget, phase] at bound ⊢
    omega
  | pause phase early => cases result
  | retry phase passed =>
    rw [phase] at fits
    obtain ⟨p, one, tried, left⟩ := fits
    have tries := triesLeft_of_flying one
    have below : p.attempts.toNat < m.station.config.attemptLimit :=
      Nat.lt_of_lt_of_le (UInt8.lt_iff_toNat_lt.mp left) (Nat.le_max_right _ _)
    have later : ({ m with phase := .backoff now 0 } : Acknowledged ρ γ).triesLeft = m.triesLeft :=
      rfl
    simp only [budget, phase, later]
    omega

omit [Transceiver ρ ε] [RandomSource γ] in
/-- A poll is given more rounds than the packets held can use up. -/
theorem budget_lt_pollRounds (served : m.Served) : m.budget < m.pollRounds := by
  have fits := served.fits
  have held : m.outbox.held = m.outbox.flying.length + m.outbox.queued.length := by
    rw [m.outbox.held_eq_length_packets, ← m.outbox.perm_flying_append_queued.length_eq,
      List.length_append]
  have share (p : Packet) (one : m.outbox.flying = [p]) :
      m.pollRounds = 3 * m.station.config.attemptLimit * m.outbox.queued.length +
        3 * m.station.config.attemptLimit + 1 := by
    rw [pollRounds, held, one, List.length_singleton, Nat.mul_add, Nat.mul_one,
      Nat.add_comm (3 * _)]
    rfl
  cases phase : m.phase with
  | idle =>
    rw [phase] at fits
    have grounded : m.outbox.flying = [] := fits
    rw [pollRounds, held, grounded]
    simp only [budget, phase, List.length_nil, Nat.zero_add, Config.attemptLimit]
    omega
  | backoff expiry busy =>
    rw [phase] at fits
    obtain ⟨-, p, one, left⟩ := fits
    rw [share p one]
    simp only [budget, phase, triesLeft_of_flying one]
    omega
  | awaitingAck expiry =>
    rw [phase] at fits
    obtain ⟨p, one, tried, -⟩ := fits
    have positive : 1 ≤ m.station.config.attemptLimit := Nat.le_max_left _ _
    rw [share p one]
    simp only [budget, phase, triesLeft_of_flying one]
    omega
  | retryWait expiry =>
    rw [phase] at fits
    obtain ⟨p, one, tried, -⟩ := fits
    rw [share p one]
    simp only [budget, phase, triesLeft_of_flying one]
    omega

/-- Only a missing bound on the backoff makes a step halt: no counter is ever full. -/
theorem step_eq_error {halt : Halt} (served : m.Served)
    (halted : step (ε := ε) now m = .error halt) :
    halt = .overflow ∧ m.station.config.maxInitialBackoff = Tick.longest := by
  have fits := served.fits
  unfold step at halted
  cases phase : m.phase with
  | idle =>
    simp only [phase] at halted
    split at halted
    · cases halted
    · split at halted <;> rename_i drawn
      · cases halted
        exact Station.firstBackoff_eq_error drawn
      · cases halted
  | backoff expiry busy =>
    rw [phase] at fits
    obtain ⟨-, p, one, left⟩ := fits
    obtain ⟨i, found⟩ := Outbox.inFlight?_of_flying one
    simp only [phase] at halted
    split at halted <;> rename_i assessed
    · cases halted
      exact Station.assess_eq_error assessed
    · cases halted
    · cases halted
    · split at halted <;> rename_i attempted
      · have limit := m.station.config.attemptLimit_le
        have room : p.attempts ≠ 255 := by
          rintro full
          rw [full] at left
          have top : (255 : UInt8).toNat = 255 := rfl
          omega
        simp only [attempt, found, room, ↓reduceIte] at attempted
        split at attempted
        · cases attempted
        · split at attempted <;> cases attempted
      · cases halted
  | awaitingAck expiry =>
    simp only [phase] at halted
    split at halted <;> cases halted
  | retryWait expiry =>
    simp only [phase] at halted
    split at halted <;> cases halted

/-! ## Calls keep the link served -/

omit [Transceiver ρ ε] [RandomSource γ] in
theorem served_submit (served : m.Served) (d : Descriptor) (payload : Bytes) :
    (m.submit (ε := ε) d payload).2.Served ∧
      (m.submit (ε := ε) d payload).2.station.config = m.station.config := by
  obtain ⟨submitted, phase⟩ := m.submitted_submit (ε := ε) d payload
  obtain ⟨flying, queued⟩ := submitted.outbox
  have config := submitted.books.1
  refine ⟨⟨?_, fun q member => ?_⟩, config⟩
  · rw [config, phase, flying]
    exact served.fits
  · rcases queued q member with older | fresh
    · exact served.untried q older
    · exact fresh

omit [Transceiver ρ ε] [RandomSource γ] in
theorem served_cancel (served : m.Served) (seq : UInt8) :
    (m.cancel seq).2.Served ∧ (m.cancel seq).2.station = m.station := by
  unfold cancel
  cases removed : m.outbox.remove seq with
  | none => exact ⟨served, rfl⟩
  | some entry =>
    obtain ⟨slot, outbox⟩ := entry
    rcases Outbox.remove_cases removed with ⟨q, rfl, flying, left⟩ | ⟨q, rfl, fewer, queued⟩
    · have fits := served.fits
      rw [← flying] at fits
      have untried : ∀ r ∈ outbox.queued, r.attempts = 0 := by
        intro r member
        exact served.untried r (left.mem_iff.mpr (List.mem_cons_of_mem q member))
      exact ⟨⟨fits, untried⟩, rfl⟩
    · have one := served.length_flying_le
      have grounded : outbox.flying = [] := List.length_eq_zero_iff.mp (by omega)
      have untried := served.untried
      rw [← queued] at untried
      exact ⟨⟨grounded, untried⟩, rfl⟩

omit [Transceiver ρ ε] [RandomSource γ] in
theorem Acknowledgement.served {ack : Descriptor} (noted : Acknowledgement m ack m')
    (served : m.Served) : m'.Served ∧ m'.station.config = m.station.config := by
  cases noted with
  | unexpected phase => exact ⟨served, rfl⟩
  | mismatch phase found other => exact ⟨served, rfl⟩
  | matching phase found seq sender =>
    obtain ⟨j, q, found', one⟩ := served.inFlight?_of_phase (by rw [phase]; nofun)
    obtain rfl : q = _ := Outbox.eq_of_flying one found
    exact ⟨served_released found one served.untried _, rfl⟩

omit [Transceiver ρ ε] [RandomSource γ] in
theorem served_learn (served : m.Served) (a : Address) : (m.learn a).Served := by
  refine ⟨?_, ?_⟩
  · rw [phase_learn, station_learn, outbox_learn]
    exact served.fits
  · rw [outbox_learn]
    exact served.untried

omit [RandomSource γ] in
theorem Reception.served {frame : Bytes} {delivery : Option Delivery}
    (received : Reception m frame delivery m') (served : m.Served) :
    m'.Served ∧ m'.station.config = m.station.config := by
  cases received with
  | ignored unheard => exact ⟨served, rfl⟩
  | @acknowledgement d heard isAck =>
    have learned := served_learn served d.descriptor.prevHop
    have noted := (acknowledgement_of_handleAck learned d.descriptor).served learned
    rwa [station_learn] at noted
  | @answered d heard isData asks here =>
    have same := (m.station.sameBooks_sendAck (ε := ε) d.descriptor).config
    refine ⟨(served_learn served _).withStation ?_, same⟩
    rw [station_learn]
    exact same
  | delivered heard isData silent =>
    exact ⟨served_learn served _, by rw [station_learn]⟩

/-! ## Polls -/

/-- Served, with the given configuration. -/
structure ServedBy (c : Config) (m : Acknowledged ρ γ) : Prop extends Served m where
  config : m.station.config = c

omit [Transceiver ρ ε] [RandomSource γ] in
theorem ServedBy.withStation {c : Config} {station : Station ρ γ} (served : ServedBy c m)
    (same : station.config = m.station.config) : ServedBy c { m with station } :=
  ⟨served.toServed.withStation same, same.trans served.config⟩

theorem servedBy_step {c : Config} {m m' : Acknowledged ρ γ} {r : Except (LinkError ε) Bool}
    (served : ServedBy c m) (taken : step now m = .ok (r, m')) : ServedBy c m' := by
  have transition := transition_of_step served.toServed taken
  exact ⟨transition.served served.toServed, transition.settings_eq.1.trans served.config⟩

/-- What a poll does: it settles, and unless sensing has failed it fetches an outcome. -/
theorem settle_of_poll {result : Except (LinkError ε) (Option Outcome)}
    (polled : m.poll now = .ok (result, m')) :
    (∃ e, settle (step now) m.pollRounds m = .ok (.error e, m') ∧ result = .error e) ∨
      ∃ rested : Acknowledged ρ γ,
        settle (step (ε := ε) now) m.pollRounds m = .ok (.ok (), rested) ∧
        result = .ok rested.station.takeOutcome.1 ∧
        m' = { rested with station := rested.station.takeOutcome.2 } := by
  unfold poll at polled
  split at polled <;> rename_i settled
  · cases polled
  · cases polled
    exact .inl ⟨_, settled, rfl⟩
  · cases polled
    exact .inr ⟨_, settled, rfl, rfl⟩

theorem servedBy_poll {c : Config} {result : Except (LinkError ε) (Option Outcome)}
    (served : ServedBy c m) (polled : m.poll now = .ok (result, m')) : ServedBy c m' := by
  have keep (s : Acknowledged ρ γ) (r : Except (LinkError ε) Bool) (s' : Acknowledged ρ γ)
      (inv : ServedBy c s) (taken : step now s = .ok (r, s')) : ServedBy c s' :=
    servedBy_step inv taken
  obtain ⟨e, settled, -⟩ | ⟨rested, settled, -, rfl⟩ := settle_of_poll polled
  · exact settle_invariant keep served settled
  · have kept := settle_invariant keep served settled
    exact kept.withStation rfl

/-- A poll halts only for a missing bound on the backoff. Its rounds do not run out. -/
theorem poll_eq_error {halt : Halt} (served : m.Served)
    (halted : m.poll (ε := ε) now = .error halt) :
    halt = .overflow ∧ m.station.config.maxInitialBackoff = Tick.longest := by
  unfold poll at halted
  split at halted <;> rename_i settled
  · cases halted
    have first : ServedBy m.station.config m := ⟨served, rfl⟩
    obtain ⟨s, kept, stopped⟩ := settle_eq_error (ServedBy m.station.config) budget
      (fun s r s' inv taken => servedBy_step inv taken)
      (fun s s' inv taken => (transition_of_step inv.toServed taken).budget_lt inv.toServed)
      first (budget_lt_pollRounds served) settled
    rw [← kept.config]
    exact step_eq_error kept.toServed stopped
  · cases halted
  · cases halted

/-! ## From the start on -/

theorem servedBy_performs {c : Config} {m m' : Acknowledged ρ γ} {now : Tick} {call : Call}
    {answer : Answer ε} (performed : Performs m now call answer m') (served : ServedBy c m) :
    ServedBy c m' := by
  cases performed with
  | submit submits =>
    obtain ⟨kept, same⟩ := served_submit (ε := ε) served.toServed _ _
    exact ⟨kept, same.trans served.config⟩
  | receive received =>
    obtain ⟨kept, same⟩ := received.served served.toServed
    exact ⟨kept, same.trans served.config⟩
  | poll polled => exact servedBy_poll served polled
  | cancel seq =>
    obtain ⟨kept, same⟩ := served_cancel served.toServed seq
    exact ⟨kept, same ▸ served.config⟩

omit [Transceiver ρ ε] [RandomSource γ] in
theorem servedBy_new (capacity : Nat) (config : Config) (radio : ρ) (rng : γ) :
    ServedBy config
      { station := { config, radio, rng }, outbox := .empty capacity : Acknowledged ρ γ } := by
  refine ⟨⟨Outbox.flying_empty capacity, fun p member => ?_⟩, rfl⟩
  rw [Outbox.queued_empty] at member
  cases member

end Acknowledged

end MoteLink.Link
