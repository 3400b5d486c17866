import MoteLink.Proofs.Header.Layout
import MoteLink.Proofs.Link.Acknowledged.Places
import MoteLink.Proofs.Link.CallLog.Logged
import MoteLink.Proofs.Link.CallLog.Pace

/-!
# The log of an acknowledged link

What a link that sends a packet again does is entered under the place of the packet. The entries
account for all that has changed, they lead each place from one stage to the next, and whatever is
entered, the phase still remembers when the next attempt may be made.
-/

namespace MoteLink.Link

/-- What a poll at `now` does in a place where `p` waits for an acknowledgement until `expiry`:
    nothing before that tick, and from then on the first thing is that the wait is over. -/
structure Prompt (now expiry : Tick) (p : Packet) (log : List (Tick × Incident)) : Prop where
  early : Tick.hasReached expiry now = false → log = []
  late : Tick.hasReached expiry now = true → ∃ later, log = (now, .expired p) :: later

/-- What the entries of a call at `now` tell of the places: they lead them from one stage to the
    next, an acknowledgement that is waited for is heeded, and a poll ends a wait when its time has
    come. -/
structure Staged {ρ γ : Type} (station : Station (Recorder ρ) γ) (now : Tick)
    (stage : Nat → Stage) (call : Call) (entries : List Entry) (stage' : Nat → Stage) : Prop where
  tracks : Stage.Tracks station.config now stage entries stage'
  heeds : ∀ frame d i p failures expiry, call = .receive frame → station.listen frame = some d →
    stage i = .awaiting p failures expiry → p.AckedBy d.descriptor →
      entries = [⟨some i, .acked p d.descriptor⟩, ⟨some i, .ended p none⟩]
  prompt : ∀ i p failures expiry, call = .poll → stage i = .awaiting p failures expiry →
    Prompt now expiry p (placeLog i now entries)

section Staging

variable {ρ γ : Type} {station other : Station (Recorder ρ) γ} {now : Tick}
  {stage stage' : Nat → Stage} {call : Call} {entries : List Entry}

theorem Staged.congr (staged : Staged station now stage call entries stage')
    (config : station.config = other.config) : Staged other now stage call entries stage' := by
  obtain ⟨tracks, heeds, prompt⟩ := staged
  rw [config] at tracks
  rw [Station.listen_congr config] at heeds
  exact ⟨tracks, heeds, prompt⟩

/-- Only frames and polls meet with packets that wait. -/
theorem Stage.Tracks.staged (tracks : Stage.Tracks station.config now stage entries stage')
    (unheard : ∀ frame, call ≠ .receive frame) (unpolled : call ≠ .poll) :
    Staged station now stage call entries stage' :=
  ⟨tracks, fun frame _ _ _ _ _ received => absurd received (unheard frame),
    fun _ _ _ _ polled => absurd polled unpolled⟩

end Staging

namespace Acknowledged

variable {ρ γ ε : Type} {c : Config} {m m' m₁ : Acknowledged (Recorder ρ) γ}
  {line line' line₁ : Line} {time : Nat} {i : Nat} {p : Packet} {log : List (Nat × Incident)}
  {entries more : List Entry} {pre pre₁ : List (Nat × Incident) → Prop}
  {stage stage₁ : Nat → Stage}

def view (m : Acknowledged (Recorder ρ) γ) (line : Line) : View ρ γ := ⟨m.station, m.outbox, line⟩

/-! ## Keeping the pace -/

/-- The attempts of the log have been allowed, and the phase remembers when the next one is. -/
structure Paces (c : Config) (time : Nat) (log : List (Nat × Incident)) (line : Line)
    (m : Acknowledged (Recorder ρ) γ) : Prop where
  pacing : Pacing c log line.flying
  timed : m.phase.Timed c time (latestTries log)

theorem Paces.later {time' : Nat} (paces : Paces c time log line m) (later : time ≤ time') :
    Paces c time' log line m :=
  ⟨paces.pacing, paces.timed.later later⟩

/-- Without an attempt the pace is kept, in the same phase or at rest. -/
theorem Paces.quiet {incidents : List Incident} (paces : Paces c time log line m)
    (quiet : ∀ incident ∈ incidents, incident.isQuiet = true)
    (stays : ∀ p, line'.flying = some p → line.flying = some p)
    (phase : m'.phase = m.phase ∨ m'.phase = .idle) :
    Paces c time (log ++ stamp time incidents) line' m' := by
  refine ⟨paces.pacing.quiet quiet stays, ?_⟩
  rw [latestTries_quiet quiet]
  rcases phase with same | rested
  · rw [same]
    exact paces.timed
  · rw [rested]
    trivial

/-- The entries account for the change from one link to another, they lead the places on from the
    given stages, and the pace is kept where the log before was as `pre` says. -/
structure Moves (c : Config) (time : Nat) (pre : List (Nat × Incident) → Prop)
    (stage : Nat → Stage) (m : Acknowledged (Recorder ρ) γ) (line : Line) (entries : List Entry)
    (m' : Acknowledged (Recorder ρ) γ) (line' : Line) : Prop where
  logged : Logged time (m.view line) entries (m'.view line')
  own : ∀ entry ∈ entries, entry.isOwn = true
  tracks : Stage.Tracks c (.ofNat time) stage entries m'.stageAt
  paces : c.Paceable → ∀ log, pre log →
    Paces c time (log ++ stamp time (incidentsOf entries)) line' m'

/-- What is entered first makes ready for what comes after. -/
theorem Moves.after (next : Moves c time pre₁ stage₁ m₁ line₁ more m' line')
    (first : Logged time (m.view line) entries (m₁.view line₁))
    (own : ∀ entry ∈ entries, entry.isOwn = true)
    (tracks : Stage.Tracks c (.ofNat time) stage entries stage₁)
    (turn : c.Paceable → ∀ log, pre log → pre₁ (log ++ stamp time (incidentsOf entries))) :
    Moves c time pre stage m line (entries ++ more) m' line' := by
  constructor
  case logged => exact first.trans next.logged
  case own => exact List.forall_mem_append.mpr ⟨own, next.own⟩
  case tracks => exact tracks.trans next.tracks
  case paces =>
    intro paceable log before
    rw [incidentsOf_append, stamp_append, ← List.append_assoc]
    exact next.paces paceable _ (turn paceable log before)

/-- Nothing is entered. -/
theorem Moves.still {station : Station (Recorder ρ) γ} {phase : AckPhase}
    (holds : m.outbox.Holds line) (record : station.record = m.station.record)
    (outcomes : station.outcomes = m.station.outcomes)
    (places : stageAt { m with station, phase } = m.stageAt)
    (timed : c.Paceable → ∀ log, Paces c time log line m → phase.Timed c time (latestTries log)) :
    Moves c time (fun log => Paces c time log line m) m.stageAt m line []
      { m with station, phase } line := by
  constructor
  case logged => exact logged_nothing time holds record outcomes
  case own => exact List.forall_mem_nil _
  case tracks => exact .nothing places
  case paces =>
    intro paceable log paces
    rw [show stamp time (incidentsOf []) = [] from rfl, List.append_nil]
    exact ⟨paces.pacing, timed paceable log paces⟩

/-! ## Steps -/

section Steps

theorem moves_released (c : Config) (time : Nat) (holds : m.outbox.Holds line)
    (found : m.outbox.inFlight? = some (i, p)) (reason : Option FailureReason)
    (here : stage i = .over p.untried reason) (elsewhere : ∀ j, j ≠ i → stage j = m.stageAt j) :
    Moves c time (fun log => Pacing c log line.flying) stage m line
      [⟨some i, .ended p.untried reason⟩] (m.released i (p.outcome reason)) line.land := by
  have there := Outbox.slot_of_inFlight? found
  have freed : Replaces i (.inFlight p) .idle m.outbox.slots
      (m.released i (p.outcome reason)).outbox.slots := ⟨there, rfl⟩
  constructor
  case logged => exact logged_finish time holds found reason
  case own => exact List.forall_mem_singleton.mpr rfl
  case tracks =>
    refine .single ?_ rfl fun j other => ?_
    · rw [here, stageAt_of_replaces freed]
      exact .finish
    · rw [elsewhere j other]
      have alone := Outbox.ne_inFlight_of_ne holds.length_flying_le there other
      exact stageAt_of_ne freed other (.inr alone)
  case paces =>
    intro paceable log pacing
    refine ⟨pacing.quiet (List.forall_mem_singleton.mpr rfl) ?_, trivial⟩
    intro q flies
    cases flies

/-- When the last attempt has failed the link waits before the next one, or gives the packet up. -/
theorem Setback.moves {reason : FailureReason} {failures : Nat}
    (setback : Setback (.ofNat time) m i p reason m') (config : m.station.config = c)
    (holds : m.outbox.Holds line) (found : m.outbox.inFlight? = some (i, p))
    (counted : p.attempts.toNat = failures + 1)
    (here : stage i = Stage.afterFailure c p.untried failures reason)
    (elsewhere : ∀ j, j ≠ i → stage j = m.stageAt j) :
    ∃ entries line', Moves c time
      (fun log => Pacing c log line.flying ∧ HasFailed c (latestTries log) time) stage m line
      entries m' line' := by
  have flies := holds.flying_of_inFlight? found
  have there := Outbox.slot_of_inFlight? found
  subst config
  cases setback with
  | again left =>
    have below : failures + 1 < m.station.config.attemptLimit := by
      rw [← counted]
      exact Nat.lt_of_lt_of_le (UInt8.lt_iff_toNat_lt.mp left) (Nat.le_max_right _ _)
    refine ⟨[], line, logged_nothing time holds rfl rfl, List.forall_mem_nil _, .nothing ?_, ?_⟩
    · funext j
      by_cases same : j = i
      · rw [same, here, Stage.afterFailure, if_pos below, ← counted]
        exact stageAt_of_slot (m := { m with
          phase := .retryWait (.ofNat time + m.station.config.retryBackoff p.attempts) }) there
      · rw [elsewhere j same]
        have alone := Outbox.ne_inFlight_of_ne holds.length_flying_le there same
        exact stageAt_of_grounded rfl alone
    rintro paceable log ⟨pacing, failed⟩
    rw [show stamp time (incidentsOf []) = [] from rfl, List.append_nil]
    exact ⟨pacing, AckPhase.timed_retryWait paceable failed (pacing.counted p flies) left⟩
  | giveUp spent =>
    have above : ¬failures + 1 < m.station.config.attemptLimit := by
      have enough := UInt8.le_iff_toNat_le.mp spent
      unfold Config.attemptLimit
      omega
    rw [Stage.afterFailure, if_neg above] at here
    have released := moves_released m.station.config time holds found _ here elsewhere
    refine ⟨_, _, released.logged, released.own, released.tracks, ?_⟩
    rintro paceable log ⟨pacing, -⟩
    exact released.paces paceable log pacing

/-- The attempt is counted in the place of the packet. -/
theorem holds_tried (holds : m.outbox.Holds line) (found : m.outbox.inFlight? = some (i, p)) :
    (m.outbox.setInFlight p.tried).Holds (line.refit p.tried) := by
  have ticket : (m.outbox.setInFlight p.tried).nextTicket = m.outbox.nextTicket := by
    simp only [Outbox.setInFlight, found]
  exact holds.refit (holds.flying_of_inFlight? found) ticket
    (Outbox.slots_setInFlight found p.tried)

/-- No other place is touched as long as the phase stays. -/
theorem stageAt_tried (found : m.outbox.inFlight? = some (i, p)) (station : Station (Recorder ρ) γ)
    (s : Stage) {j : Nat} (other : j ≠ i) : Function.update m.stageAt i s j =
      stageAt { m with station, outbox := m.outbox.setInFlight p.tried } j := by
  have same : stageAt { m with station, outbox := m.outbox.setInFlight p.tried } j = _ :=
    stageAt_of_ne (Outbox.slots_setInFlight found p.tried) other (.inl rfl)
  rw [Function.update_of_ne other, same]

/-- Once the packet has been handed to the radio the attempt is the latest one. -/
theorem pacing_tried (pacing : Pacing c log line.flying)
    (allowed : Allowed c (latestTries log) time)
    (flies : line.flying = some p) (few : p.attempts.toNat < 255) (taken : Bool) :
    let log' := log ++ stamp time (incidentsOf [⟨some i, .handed p.untried taken⟩])
    Pacing c log' (line.refit p.tried).flying ∧
      latestTries log' = latestTries log ++ [⟨time, p.untried, taken⟩] := by
  rw [flies] at pacing
  exact ⟨pacing.hand allowed (toNat_tried few), latestTries_concat _ _ _⟩

variable [Transceiver ρ ε]

theorem logged_tried (time : Nat) (taken : Bool) {result : Except (LinkError ε) Nat}
    {station : Station (Recorder ρ) γ} (holds : m.outbox.Holds line)
    (tidy : line.Tidy) (found : m.outbox.inFlight? = some (i, p))
    (sent : m.station.transmit p.descriptor p.payload = (result, station))
    (told : result.isOk = taken) :
    Logged time (m.view line) [⟨some i, .handed p.untried taken⟩]
      ⟨station, m.outbox.setInFlight p.tried, line.refit p.tried⟩ := by
  have flies := holds.flying_of_inFlight? found
  have sound : p.descriptor.layoutError? = none :=
    tidy.sound p (List.mem_append_left _ (Option.mem_toList.mpr flies))
  rw [← told]
  exact logged_hand time holds found sound sent rfl (holds_tried holds found)

/-- One attempt, which is allowed. -/
theorem Attempt.moves (attempted : Attempt (ε := ε) (.ofNat time) m i p m')
    (config : m.station.config = c) (holds : m.outbox.Holds line) (tidy : line.Tidy)
    (found : m.outbox.inFlight? = some (i, p)) (left : p.attempts.toNat < c.attemptLimit)
    (ready : m.stageAt i = .ready p.untried p.attempts.toNat) :
    ∃ entries line', Moves c time
      (fun log => Pacing c log line.flying ∧ Allowed c (latestTries log) time) m.stageAt m line
      entries m' line' := by
  have few : p.attempts.toNat < 255 := Nat.lt_of_lt_of_le left c.attemptLimit_le
  have flies := holds.flying_of_inFlight? found
  have found' := Outbox.inFlight?_setInFlight found p.tried
  have own (taken : Bool) :
      ∀ entry ∈ [Entry.mk (some i) (.handed p.untried taken)], entry.isOwn = true :=
    List.forall_mem_singleton.mpr rfl
  cases attempted with
  | @refused e station m' sent setback =>
    have books := Station.sameBooks_of_transmit sent
    obtain ⟨entries, line', next⟩ := setback.moves (books.config.trans config)
      (holds_tried holds found) found' (toNat_tried few) (Function.update_self i _ m.stageAt)
      fun j => stageAt_tried found station _
    have failed : Stage.Step c (.ofNat time) (m.stageAt i) (.handed p.untried false)
        (Stage.afterFailure c p.untried p.attempts.toNat .radio) := by
      rw [ready]
      exact .refuse
    have handed := logged_tried time false holds tidy found sent rfl
    refine ⟨_, line', next.after handed (own false) (.update failed rfl) ?_⟩
    rintro paceable log ⟨pacing, allowed⟩
    obtain ⟨pacing', latest⟩ := pacing_tried (i := i) pacing allowed flies few false
    exact ⟨pacing', ⟨time, p.untried, false⟩, by rw [latest, List.getLast?_concat],
      Nat.le_refl time⟩
  | @await length station sent asks =>
    have books := Station.sameBooks_of_transmit sent
    have there := Outbox.slot_of_inFlight? found
    have replaced := Outbox.slots_setInFlight found p.tried
    refine ⟨_, line.refit p.tried, logged_tried time true holds tidy found sent rfl, own true,
      .single ?_ rfl ?_, ?_⟩
    · have after : stageAt { m with
          station
          outbox := m.outbox.setInFlight p.tried
          phase := .awaitingAck (.ofNat time + station.config.ackTimeout) } i = _ :=
        stageAt_of_replaces replaced
      have failures : p.tried.attempts.toNat - 1 = p.attempts.toNat := by
        rw [toNat_tried few, Nat.add_sub_cancel]
      rw [ready, after, Slot.stage, failures, books.config, config]
      exact .await asks
    · intro j other
      have alone := Outbox.ne_inFlight_of_ne holds.length_flying_le there other
      exact stageAt_of_ne replaced other (.inr alone)
    · rintro paceable log ⟨pacing, allowed⟩
      obtain ⟨pacing', latest⟩ := pacing_tried (i := i) pacing allowed flies few true
      refine ⟨pacing', ?_⟩
      show (AckPhase.awaitingAck (.ofNat time + station.config.ackTimeout)).Timed c time
        (latestTries (log ++ stamp time (incidentsOf [⟨some i, .handed p.untried true⟩])))
      rw [latest, books.config, config]
      exact AckPhase.timed_awaitingAck c time p.untried
  | @done length station sent silent =>
    have released := moves_released c time
      (m := { m with station, outbox := m.outbox.setInFlight p.tried }) (holds_tried holds found)
      found' none (Function.update_self i (.over p.untried none) m.stageAt)
      fun j => stageAt_tried found station _
    have taken : Stage.Step c (.ofNat time) (m.stageAt i) (.handed p.untried true)
        (.over p.untried none) := by
      rw [ready]
      exact .send silent
    have handed := logged_tried time true holds tidy found sent rfl
    refine ⟨_, _, released.after handed (own true) (.update taken rfl) ?_⟩
    rintro paceable log ⟨pacing, allowed⟩
    exact (pacing_tried pacing allowed flies few true).1

variable [RandomSource γ] {r : Except (LinkError ε) Bool}

theorem Transition.moves (taken : Transition (.ofNat time) m r m') (served : ServedBy c m)
    (holds : m.outbox.Holds line) (tidy : line.Tidy) :
    ∃ entries line',
      Moves c time (fun log => Paces c time log line m) m.stageAt m line entries m' line' := by
  have fits := served.fits
  have config := served.config
  cases taken with
  | rest quiet early =>
    exact ⟨[], line, .still holds rfl rfl rfl fun _ _ paces => paces.timed⟩
  | @start i outbox expiry station quiet started drawn =>
    have record := Station.record_of_firstBackoff drawn
    have outcomes := (Station.sameBooks_firstBackoff drawn).outcomes
    have places := stageAt_of_startNext served.toServed started station expiry
    obtain ⟨p, member, logged⟩ := logged_start holds started record outcomes
    refine ⟨_, _, logged, List.forall_mem_singleton.mpr rfl, .started _ p places, ?_⟩
    intro paceable log paces
    refine ⟨paces.pacing.start (tidy.untried p member), ?_⟩
    show Allowed c (latestTries (log ++ [(time, .started p)])) time
    rw [latestTries_concat]
    exact allowed_nil
  | @deaf expiry busy e station phase sensed =>
    exact ⟨[], line, .still holds sensed.record_eq sensed.sameBooks.outcomes rfl
      fun _ _ paces => paces.timed⟩
  | hold phase sensed =>
    refine ⟨[], line, .still holds sensed.record_eq sensed.sameBooks.outcomes
      (stageAt_of_unawaited _ (by rw [phase]; nofun) nofun) ?_⟩
    intro paceable log paces
    have timed := paces.timed
    rw [phase] at timed
    exact timed
  | @attempt expiry busy station i p m' phase sensed found attempted =>
    rw [phase] at fits
    obtain ⟨-, q, one, left⟩ := fits
    obtain rfl : q = p := Outbox.eq_of_flying one found
    have books := sensed.sameBooks
    have ready : m.stageAt i = .ready q.untried q.attempts.toNat := by
      rw [stageAt_of_slot (Outbox.slot_of_inFlight? found), phase]
      rfl
    have heard := logged_nothing time holds sensed.record_eq books.outcomes
    obtain ⟨entries, line', next⟩ := attempted.moves (books.config.trans config) holds tidy found
      (config ▸ left) ready
    refine ⟨_, line', next.after heard (List.forall_mem_nil _) (.nothing rfl) ?_⟩
    intro paceable log paces
    have timed := paces.timed
    rw [phase] at timed
    rw [show stamp time (incidentsOf []) = [] from rfl, List.append_nil]
    exact ⟨paces.pacing, timed⟩
  | await phase early =>
    exact ⟨[], line, .still holds rfl rfl rfl fun _ _ paces => paces.timed⟩
  | @timeout expiry i p m' phase passed found setback =>
    rw [phase] at fits
    obtain ⟨q, one, tried, -⟩ := fits
    obtain rfl : q = p := Outbox.eq_of_flying one found
    have expired : Stage.Step c (.ofNat time) (m.stageAt i) (.expired q.untried)
        (Stage.afterFailure c q.untried (q.attempts.toNat - 1) .ackTimeout) := by
      rw [stageAt_of_awaitingAck phase found]
      exact .expire passed
    obtain ⟨entries, line', next⟩ := setback.moves config holds found
      (Nat.sub_add_cancel tried).symm (Function.update_self i _ m.stageAt)
      fun j other => Function.update_of_ne other _ m.stageAt
    have waited := logged_expire time holds found m.station
    refine ⟨_, line', next.after waited (List.forall_mem_singleton.mpr rfl)
      (.update expired rfl) ?_⟩
    intro paceable log paces
    have timed := paces.timed
    rw [phase] at timed
    have quiet : ∀ incident ∈ incidentsOf [⟨some i, .expired q.untried⟩],
        incident.isQuiet = true := List.forall_mem_singleton.mpr rfl
    refine ⟨paces.pacing.quiet quiet fun q flies => flies, ?_⟩
    rw [latestTries_quiet quiet]
    exact timed.hasFailed paceable passed
  | pause phase early =>
    exact ⟨[], line, .still holds rfl rfl rfl fun _ _ paces => paces.timed⟩
  | @retry expiry phase passed =>
    rw [phase] at fits
    obtain ⟨p, one, -, left⟩ := fits
    have flies : line.flying = some p := by
      obtain ⟨i, found⟩ := Outbox.inFlight?_of_flying one
      exact holds.flying_of_inFlight? found
    refine ⟨[], line, .still holds rfl rfl
      (stageAt_of_unawaited _ (by rw [phase]; nofun) nofun) ?_⟩
    intro paceable log paces
    have timed := paces.timed
    rw [phase] at timed
    refine timed.allowed paceable ?_ passed
    rw [paces.pacing.counted p flies, ← config]
    exact Nat.le_of_lt (UInt8.lt_iff_toNat_lt.mp left)

theorem moves_settle {rounds : Nat} {r : Except (LinkError ε) Unit} (served : ServedBy c m)
    (holds : m.outbox.Holds line) (tidy : line.Tidy)
    (settled : settle (step (.ofNat time)) rounds m = .ok (r, m')) :
    ∃ entries line',
      Moves c time (fun log => Paces c time log line m) m.stageAt m line entries m' line' := by
  let inv (s : Acknowledged (Recorder ρ) γ) : Prop :=
    ServedBy c s ∧ ∃ entries line',
      Moves c time (fun log => Paces c time log line m) m.stageAt m line entries s line'
  have keep (s : Acknowledged (Recorder ρ) γ) (r : Except (LinkError ε) Bool)
      (s' : Acknowledged (Recorder ρ) γ) (sofar : inv s)
      (taken : step (.ofNat time) s = .ok (r, s')) : inv s' := by
    obtain ⟨served, entries, line', moves⟩ := sofar
    have transition := transition_of_step served.toServed taken
    obtain ⟨more, line'', next⟩ :=
      transition.moves served moves.logged.holds (moves.logged.tidy tidy)
    exact ⟨servedBy_step served taken, _, line'',
      next.after moves.logged moves.own moves.tracks moves.paces⟩
  have start : inv m := ⟨served, [], line, .still holds rfl rfl rfl fun _ _ paces => paces.timed⟩
  exact (settle_invariant keep start settled).2

/-- A poll does not leave a wait behind that is over. -/
theorem waits_of_settle {rounds : Nat} {r : Except (LinkError ε) Unit} {now expiry : Tick}
    (served : ServedBy c m) (settled : settle (step now) rounds m = .ok (r, m'))
    (waits : m'.phase = .awaitingAck expiry) : Tick.hasReached expiry now = false := by
  have keep (s : Acknowledged (Recorder ρ) γ) (r : Except (LinkError ε) Bool)
      (s' : Acknowledged (Recorder ρ) γ) (kept : ServedBy c s) (taken : step now s = .ok (r, s')) :
      ServedBy c s' := servedBy_step kept taken
  obtain ⟨last, r', kept, taken, ends, -⟩ := settle_last keep served settled
  exact (transition_of_step kept.toServed taken).waits_of_last ends waits

omit [Transceiver ρ ε] [RandomSource γ] in
/-- What a link does by itself to a packet that waits for an acknowledgement begins with the end of
    the wait. -/
theorem prompt_of_leads {now expiry : Tick} {failures : Nat}
    (leads : Stage.Leads c (.awaiting p failures expiry) (placeLog i now entries) (m'.stageAt i))
    (own : ∀ entry ∈ entries, entry.isOwn = true)
    (waits : ∀ expiry, m'.phase = .awaitingAck expiry → Tick.hasReached expiry now = false) :
    Prompt now expiry p (placeLog i now entries) := by
  cases told : placeLog i now entries with
  | nil =>
    rw [told] at leads
    have early := waits expiry (inFlight_of_stageAt leads.eq_of_nil).1
    exact ⟨fun _ => rfl, fun passed => absurd passed (by simp [early])⟩
  | cons first later =>
    obtain ⟨time, incident⟩ := first
    have among : (time, incident) ∈ placeLog i now entries := by
      rw [told]
      exact List.mem_cons_self
    obtain ⟨rfl, there, -⟩ := mem_placeLog.mp among
    have mine := own _ there
    rw [told] at leads
    obtain ⟨s, step, -⟩ := leads.of_cons
    cases step with
    | expire passed => exact ⟨fun early => absurd passed (by simp [early]), fun _ => ⟨later, rfl⟩⟩
    | ack answers => cases mine
    | cancelAwaiting => cases mine

end Steps

/-! ## Calls -/

/-- The entries of a call account for all that it has done, and the pace is kept. -/
structure Entered (c : Config) (time : Nat) (m : Acknowledged (Recorder ρ) γ) (line : Line)
    (call : Call) (answer : Answer ε) (entries : List Entry) (m' : Acknowledged (Recorder ρ) γ)
    (line' : Line) : Prop where
  written : Written (.acknowledged m) call answer entries
  logged : LoggedCall time (m.view line) answer entries (m'.view line')
  staged : Staged m.station (.ofNat time) m.stageAt call entries m'.stageAt
  paces : c.Paceable → ∀ log, Paces c time log line m →
    Paces c time (log ++ stamp time (incidentsOf entries)) line' m'

variable {call : Call} {answer : Answer ε}

/-- A call that makes no attempt keeps the phase or leaves the link at rest. -/
theorem entered_of_quiet (other : call ≠ .poll)
    (silent : ∀ outcome, answer ≠ .polled (.ok outcome))
    (written : Written (.acknowledged m) call answer entries)
    (logged : Logged time (m.view line) entries (m'.view line'))
    (staged : Staged m.station (.ofNat time) m.stageAt call entries m'.stageAt)
    (phase : m'.phase = m.phase ∨ m'.phase = .idle) :
    Entered c time m line call answer entries m' line' := by
  refine ⟨written, logged.call silent, staged, ?_⟩
  intro paceable log paces
  have quiet : ∀ incident ∈ incidentsOf entries, incident.isQuiet = true :=
    List.forall_mem_map.mpr (written.quiet other)
  refine paces.quiet quiet (fun p flies => logged.leads.flying_of_quiet ?_ flies) phase
  exact List.forall_mem_map.mpr quiet

theorem entered_submit {d : Descriptor} {payload : Bytes} (holds : m.outbox.Holds line)
    (submits : (Link.acknowledged m).submission? call = some (d, payload)) :
    ∃ entries line', Entered c time m line call (.submitted (m.submit (ε := ε) d payload).1)
      entries (m.submit (ε := ε) d payload).2 line' := by
  obtain ⟨submitted, phase⟩ := m.submitted_submit (ε := ε) d payload
  obtain ⟨entries, line', written, logged, placed⟩ :=
    logged_submitted time holds submits submitted
  have other : call ≠ .poll := by
    rintro rfl
    cases submits
  have unheard (frame : Bytes) : call ≠ .receive frame := by
    rintro rfl
    cases submits
  refine ⟨entries, line', entered_of_quiet other nofun written logged ?_ (.inl phase)⟩
  refine Stage.Tracks.staged ?_ unheard other
  rcases placed with ⟨rfl, same⟩ | ⟨i, p, rfl, untried, sound, replaced⟩
  · refine .nothing (funext fun j => ?_)
    rw [stageAt, stageAt, same, phase]
  · refine tracks_of_replaces replaced ?_ rfl (.inl phase)
    have fresh := Packet.untried_of_attempts untried
    show Stage.Step _ _ .vacant (.accepted p) (.ready p.untried 0)
    rw [fresh]
    exact .accept sound

theorem entered_cancel (holds : m.outbox.Holds line) (tidy : line.Tidy) (seq : UInt8) :
    ∃ entries line', Entered (ε := ε) c time m line (.cancel seq) (.cancelled (m.cancel seq).1)
      entries (m.cancel seq).2 line' := by
  rw [cancel_eq]
  cases removed : m.outbox.remove seq with
  | none =>
    have nothing := logged_nothing time (s := m.station) holds rfl rfl
    have tracks : Stage.Tracks m.station.config (.ofNat time) m.stageAt [] m.stageAt :=
      .nothing rfl
    exact ⟨[], line, entered_of_quiet nofun nofun (.missed seq) nothing
      (tracks.staged nofun nofun) (.inl rfl)⟩
  | some entry =>
    obtain ⟨slot, outbox⟩ := entry
    obtain ⟨i, p, line', carries, shown, freed, logged⟩ :=
      logged_removed time m.station holds tidy removed
    have written : Written (ε := ε) (.acknowledged m) (.cancel seq) (.cancelled true)
        [⟨some i, .cancelled p.untried⟩] := .cancelled carries
    cases slot with
    | idle => cases shown
    | queued q =>
      obtain rfl : q = p := Option.some.inj shown
      have tracks : Stage.Tracks m.station.config (.ofNat time) m.stageAt
          [⟨some i, .cancelled q.untried⟩] (m.without (.queued q) outbox).stageAt :=
        tracks_of_replaces freed .cancelReady rfl (.inl rfl)
      exact ⟨_, line', entered_of_quiet nofun nofun written logged (tracks.staged nofun nofun)
        (.inl rfl)⟩
    | inFlight q =>
      obtain rfl : q = p := Option.some.inj shown
      have alone (j : Nat) (other : j ≠ i) :=
        Outbox.ne_inFlight_of_ne holds.length_flying_le freed.found other
      have step : Stage.Step m.station.config (.ofNat time) ((Slot.inFlight q).stage m.phase)
          (.cancelled q.untried) .vacant := by
        cases m.phase with
        | idle => exact .cancelReady
        | backoff expiry busy => exact .cancelReady
        | awaitingAck expiry => exact .cancelAwaiting
        | retryWait expiry => exact .cancelReady
      have tracks : Stage.Tracks m.station.config (.ofNat time) m.stageAt
          [⟨some i, .cancelled q.untried⟩] (m.without (.inFlight q) outbox).stageAt :=
        tracks_of_replaces freed step rfl (.inr alone)
      exact ⟨_, line', entered_of_quiet nofun nofun written logged (tracks.staged nofun nofun)
        (.inr rfl)⟩

/-! ## Frames -/

theorem view_learn (m : Acknowledged (Recorder ρ) γ) (a : Address) (line : Line) :
    (m.learn a).view line = m.view line := by
  rw [view, view, station_learn, outbox_learn]

/-- A frame that is no acknowledgement changes no stage. -/
theorem staged_of_data {frame : Bytes} (tracks : Stage.Tracks m.station.config (.ofNat time)
      m.stageAt entries m'.stageAt)
    (data : ∀ d, m.station.listen frame = some d → d.descriptor.flags.isAck = false) :
    Staged m.station (.ofNat time) m.stageAt (.receive frame) entries m'.stageAt := by
  refine ⟨tracks, ?_, fun _ _ _ _ polled => nomatch polled⟩
  intro frame' d i p failures expiry same heard waits answers
  obtain rfl := Call.receive.inj same
  have isAck := answers.isAck
  rw [data d heard] at isAck
  cases isAck

/-- An acknowledgement ends the flight of the packet that waits for it, or does nothing. -/
theorem entered_acknowledgement {frame : Bytes} {d : Delivery} (served : m.Served)
    (holds : m.outbox.Holds line) (heard : m.station.listen frame = some d)
    (isAck : d.descriptor.flags.isAck = true)
    (noted : Acknowledgement (m.learn d.descriptor.prevHop) d.descriptor m') :
    ∃ entries line',
      Entered (ε := ε) c time m line (.receive frame) (.received none) entries m' line' := by
  have phase := m.phase_learn d.descriptor.prevHop
  have places := m.stageAt_learn d.descriptor.prevHop
  -- Nothing waits for the acknowledgement.
  have unwanted (same : m' = m.learn d.descriptor.prevHop)
      (other : ∀ i p failures expiry, m.stageAt i = .awaiting p failures expiry →
        ¬p.AckedBy d.descriptor) :
      ∃ entries line',
        Entered (ε := ε) c time m line (.receive frame) (.received none) entries m' line' := by
    subst same
    have logged : Logged time (m.view line) [] ((m.learn d.descriptor.prevHop).view line) := by
      rw [view_learn]
      exact logged_nothing time holds rfl rfl
    refine ⟨[], line, entered_of_quiet nofun nofun (.unwanted heard isAck) logged
      ⟨.nothing places, ?_, fun _ _ _ _ polled => nomatch polled⟩ (.inl phase)⟩
    intro frame' d' i p failures expiry received heard' waits answers
    obtain rfl := Call.receive.inj received
    obtain rfl := Option.some.inj (heard.symm.trans heard')
    exact absurd answers (other i p failures expiry waits)
  cases noted with
  | unexpected idle =>
    refine unwanted rfl fun i p failures expiry waits => ?_
    rw [phase] at idle
    exact absurd (inFlight_of_stageAt waits).1 (idle expiry)
  | @mismatch expiry i p waiting found other =>
    refine unwanted rfl fun j q failures expiry' waits answers => ?_
    rw [phase] at waiting
    rw [outbox_learn] at found
    have here := stageAt_of_awaitingAck waiting found
    obtain rfl := served.place_eq_of_awaiting waits here
    rw [here] at waits
    cases waits
    exact other ⟨answers.seq, answers.sender⟩
  | @matching expiry i p waiting found seq sender =>
    rw [phase] at waiting
    rw [outbox_learn] at found
    have answers : p.untried.AckedBy d.descriptor := ⟨isAck, seq, sender⟩
    have here := stageAt_of_awaitingAck waiting found
    have acked : Stage.Step m.station.config (.ofNat time) (m.stageAt i)
        (.acked p.untried d.descriptor) (.over p.untried none) := by
      rw [here]
      exact .ack answers
    have held : (m.learn d.descriptor.prevHop).outbox.Holds line := by rwa [outbox_learn]
    have there : (m.learn d.descriptor.prevHop).outbox.inFlight? = some (i, p) := by
      rwa [outbox_learn]
    have finished := moves_released m.station.config time held there none
      (Function.update_self i (.over p.untried none) m.stageAt)
      fun j other => by rw [Function.update_of_ne other, places]
    have logged := (logged_ack time holds found m.station d.descriptor).trans
      (m.view_learn d.descriptor.prevHop line ▸ finished.logged)
    refine ⟨_, _, entered_of_quiet nofun nofun (.acked heard answers) logged
      ⟨(Stage.Tracks.update acked rfl).trans finished.tracks, ?_,
        fun _ _ _ _ polled => nomatch polled⟩ (.inr rfl)⟩
    intro frame' d' j q failures expiry' received heard' waits answers'
    obtain rfl := Call.receive.inj received
    obtain rfl := Option.some.inj (heard.symm.trans heard')
    obtain rfl := served.place_eq_of_awaiting waits here
    rw [here] at waits
    cases waits
    rfl

section Performing

variable [Transceiver ρ ε]

theorem entered_reception {frame : Bytes} {delivery : Option Delivery} (served : m.Served)
    (holds : m.outbox.Holds line) (received : Reception (ε := ε) m frame delivery m') :
    ∃ entries line',
      Entered (ε := ε) c time m line (.receive frame) (.received delivery) entries m' line' := by
  cases received with
  | ignored unheard =>
    have nothing := logged_nothing time (s := m.station) holds rfl rfl
    refine ⟨[], line, entered_of_quiet nofun nofun (.ignored unheard) nothing
      (staged_of_data (.nothing rfl) ?_) (.inl rfl)⟩
    intro d heard
    cases unheard.symm.trans heard
  | @acknowledgement d heard isAck =>
    have knows := served_learn served d.descriptor.prevHop
    have answer := acknowledgement_of_handleAck knows d.descriptor
    exact entered_acknowledgement served holds heard isAck answer
  | @answered d heard isData asks here =>
    have found := (m.station.listen_eq_some_iff.mp heard).1
    have fits : (m.station.ackFor d.descriptor).layoutError? = none :=
      m.station.layoutError?_ackFor (Descriptor.layoutError?_of_read? found) here
    obtain ⟨taken, replied⟩ := logged_reply (ε := ε) (s := m.station) time holds fits
    have logged : Logged time (m.view line)
        [⟨none, .replied ⟨(m.station.ackFor d.descriptor).headerBytes, [], taken⟩⟩]
        (view { m.learn d.descriptor.prevHop with
          station := (m.station.sendAck (ε := ε) d.descriptor).2 } line) := by
      simp only [view, outbox_learn]
      exact replied
    refine ⟨_, line, entered_of_quiet nofun nofun (.answered heard isData asks here) logged
      (staged_of_data (.replied _ (m.stageAt_learn _)) ?_) (.inl (m.phase_learn _))⟩
    intro d' heard'
    obtain rfl := Option.some.inj (heard.symm.trans heard')
    exact isData
  | @delivered d heard isData silent =>
    have learned : Logged time (m.view line) [] ((m.learn d.descriptor.prevHop).view line) := by
      rw [view_learn]
      exact logged_nothing time holds rfl rfl
    refine ⟨[], line, entered_of_quiet nofun nofun (.delivered heard isData) learned
      (staged_of_data (.nothing (m.stageAt_learn _)) ?_) (.inl (m.phase_learn _))⟩
    intro d' heard'
    obtain rfl := Option.some.inj (heard.symm.trans heard')
    exact isData

variable [RandomSource γ]

/-- What a poll does is entered, whatever it tells. -/
theorem staged_of_settle {rounds : Nat} {r : Except (LinkError ε) Unit} (served : ServedBy c m)
    (settled : settle (step (.ofNat time)) rounds m = .ok (r, m'))
    (moves : Moves c time pre m.stageAt m line entries m' line') :
    Staged m.station (.ofNat time) m.stageAt .poll entries m'.stageAt := by
  refine ⟨served.config ▸ moves.tracks, fun _ _ _ _ _ _ received => (nomatch received), ?_⟩
  intro i p failures expiry polled waits
  have leads := moves.tracks i
  rw [waits] at leads
  exact prompt_of_leads leads moves.own fun _ => waits_of_settle served settled

/-- All that a call does is entered. -/
theorem entered_of_performs (served : ServedBy c m) (holds : m.outbox.Holds line)
    (tidy : line.Tidy) (performs : Performs m (.ofNat time) call answer m') :
    ∃ entries line', Entered c time m line call answer entries m' line' := by
  cases performs with
  | submit submits => exact entered_submit holds submits
  | receive received => exact entered_reception served.toServed holds received
  | poll polled =>
    obtain ⟨e, settled, rfl⟩ | ⟨rested, settled, rfl, rfl⟩ := settle_of_poll polled
    · obtain ⟨entries, line', moves⟩ := moves_settle served holds tidy settled
      exact ⟨entries, line', .polled moves.own, moves.logged.call nofun,
        staged_of_settle served settled moves, moves.paces⟩
    · obtain ⟨entries, line', moves⟩ := moves_settle served holds tidy settled
      have staged := staged_of_settle served settled moves
      refine ⟨entries, line', .polled moves.own, moves.logged.poll, staged, ?_⟩
      intro paceable log paces
      have kept := moves.paces paceable log paces
      exact ⟨kept.pacing, kept.timed⟩
  | cancel seq => exact entered_cancel holds tidy seq

end Performing

end Acknowledged

end MoteLink.Link
