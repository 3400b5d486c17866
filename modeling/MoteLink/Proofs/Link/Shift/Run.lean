import MoteLink.Proofs.Link.Queueing
import MoteLink.Proofs.Link.Shift.Outbox
import MoteLink.Radio.Bench

/-!
# Links under another clock

A link that senses the channel keeps ticks in two places: the send times of its packets, and the end
of the wait that its phase stands for. If the clock is set forward by `k` ticks, and these ticks
with it, then every operation of the link does what it did before, so a run that takes place `k`
ticks later is the same run.
-/

namespace MoteLink

namespace Link

variable {ρ γ ε : Type} {k now : Tick} {d : Descriptor} {payload : Bytes}

def Access.shift (k : Tick) : Access → Access
  | .pending expiry busy => .pending (expiry + k) busy
  | .clear => .clear

def CarrierPhase.shift (k : Tick) : CarrierPhase → CarrierPhase
  | .idle => .idle
  | .backoff expiry busy => .backoff (expiry + k) busy

def AckPhase.shift (k : Tick) : AckPhase → AckPhase
  | .idle => .idle
  | .backoff expiry busy => .backoff (expiry + k) busy
  | .awaitingAck expiry => .awaitingAck (expiry + k)
  | .retryWait expiry => .retryWait (expiry + k)

namespace Station

variable {s : Station ρ γ}

/-- A packet is checked without regard to its send time. -/
theorem prepare_shift : s.prepare (ε := ε) (d.shift k) payload =
    Prod.map (Except.map (Packet.shift k)) id (s.prepare d payload) := by
  have told (seq : UInt8) : ({ d.shift k with seq } : Descriptor).encodedLength =
      ({ d with seq } : Descriptor).encodedLength := rfl
  simp only [prepare, show (d.shift k).addresses = d.addresses from rfl,
    show (d.shift k).seq = d.seq from rfl, told]
  generalize (if d.seq = 0 then s.nextSeq else (d.seq, s)) = numbered
  obtain ⟨seq, s'⟩ := numbered
  split
  · rfl
  · dsimp only
    cases ({ d with seq } : Descriptor).encodedLength with
    | error e => rfl
    | ok headerLength =>
      by_cases long : s'.frameLimit < headerLength + payload.length
      · simp only [if_pos long]
        rfl
      · simp only [if_neg long]
        rfl

variable [RandomSource γ]

theorem firstBackoff_shift :
    s.firstBackoff (now + k) = (s.firstBackoff now).map (Prod.map (· + k) id) := by
  unfold firstBackoff
  rcases s.drawBackoff with halt | ⟨backoff, s⟩
  · rfl
  · simp only [Except.map, Prod.map, Tick.add_wait, id]

theorem backOffAgain_shift {busy : UInt8} : s.backOffAgain busy (now + k) =
    (s.backOffAgain busy now).map (Prod.map (Access.shift k) id) := by
  unfold backOffAgain
  rcases s.drawBackoff with halt | ⟨backoff, s⟩
  · rfl
  · by_cases full : busy = 255
    · simp only [if_pos full, Except.map]
    · simp only [if_neg full, Except.map, Prod.map, Access.shift, Tick.add_wait, id]

theorem assess_shift [Transceiver ρ ε] {expiry : Tick} {busy : UInt8} :
    s.assess (ε := ε) (expiry + k) busy (now + k) =
      (s.assess expiry busy now).map (Prod.map (Except.map (Access.shift k)) id) := by
  unfold assess
  rw [Tick.hasReached_add]
  by_cases early : (!Tick.hasReached expiry now) = true
  · rw [if_pos early, if_pos early]
    rfl
  · rw [if_neg early, if_neg early]
    rcases s.channelClear (ε := ε) with ⟨e | - | -, s⟩
    · rfl
    · by_cases regardless : s.config.maxBusyAssessments ≤ busy
      · simp only [if_pos regardless]
        rfl
      · simp only [if_neg regardless, backOffAgain_shift]
        rcases s.backOffAgain busy now with halt | ⟨access, s⟩
        · rfl
        · rfl
    · rfl

end Station

namespace CarrierSense

variable {m : CarrierSense ρ γ}

def shift (k : Tick) (m : CarrierSense ρ γ) : CarrierSense ρ γ :=
  { m with outbox := m.outbox.shift k, phase := m.phase.shift k }

theorem station_shift : (m.shift k).station = m.station := rfl

theorem outbox_shift : (m.shift k).outbox = m.outbox.shift k := rfl

theorem submit_shift : (m.shift k).submit (ε := ε) (d.shift k) payload =
    Prod.map id (shift k) (m.submit d payload) := by
  unfold submit
  rw [station_shift, Station.prepare_shift]
  rcases m.station.prepare (ε := ε) d payload with ⟨e | p, station⟩
  · rfl
  · simp only [Prod.map, Except.map, outbox_shift,
      Outbox.accept_shift]
    rcases m.outbox.accept p with p | ⟨i, outbox⟩
    · rfl
    · rfl

theorem nextDeadline_shift :
    (m.shift k).nextDeadline (now + k) = (m.nextDeadline now).map (· + k) := by
  unfold nextDeadline shift
  cases m.phase with
  | idle => exact Outbox.nextSendAt_shift
  | backoff expiry busy => rfl

variable [Transceiver ρ ε]

theorem release_shift (m : CarrierSense ρ γ) :
    (m.shift k).release (ε := ε) = (m.release (ε := ε)).shift k := by
  simp only [release, outbox_shift, Outbox.complete_shift]
  rcases m.outbox.complete with - | ⟨p, outbox⟩
  · rfl
  · have sent : m.station.transmit (ε := ε) (p.shift k).descriptor (p.shift k).payload =
        m.station.transmit p.descriptor p.payload := rfl
    simp only [Option.map_some, station_shift, sent]
    rcases m.station.transmit (ε := ε) p.descriptor p.payload with ⟨e | -, station⟩
    · rfl
    · rfl

variable [RandomSource γ]

theorem step_shift (m : CarrierSense ρ γ) :
    step (ε := ε) (now + k) (m.shift k) = (step now m).map (Prod.map id (shift k)) := by
  obtain ⟨station, outbox, phase⟩ := m
  cases phase with
  | idle =>
    simp only [step, shift, CarrierPhase.shift, Outbox.startNext_shift]
    rcases outbox.startNext now with - | ⟨i, outbox⟩
    · rfl
    · simp only [Option.map_some, Station.firstBackoff_shift]
      rcases station.firstBackoff now with halt | ⟨expiry, station⟩
      · rfl
      · rfl
  | backoff expiry busy =>
    simp only [step, shift, CarrierPhase.shift, Station.assess_shift]
    rcases station.assess (ε := ε) expiry busy now with
      halt | ⟨e | ⟨expiry, busy⟩ | -, station⟩
    · rfl
    · rfl
    · rfl
    · have released := release_shift (ε := ε) (k := k)
        { station, outbox, phase := .backoff expiry busy }
      simp only [Except.map, Prod.map, Access.shift, id]
      rw [← released]
      rfl

end CarrierSense

namespace Acknowledged

variable {m : Acknowledged ρ γ}

def shift (k : Tick) (m : Acknowledged ρ γ) : Acknowledged ρ γ :=
  { m with outbox := m.outbox.shift k, phase := m.phase.shift k }

theorem station_shift : (m.shift k).station = m.station := rfl

theorem outbox_shift : (m.shift k).outbox = m.outbox.shift k := rfl

theorem submit_shift : (m.shift k).submit (ε := ε) (d.shift k) payload =
    Prod.map id (shift k) (m.submit d payload) := by
  unfold submit
  rw [station_shift, Station.prepare_shift]
  rcases m.station.prepare (ε := ε) d payload with ⟨e | p, station⟩
  · rfl
  · simp only [Prod.map, Except.map, outbox_shift, Outbox.accept_shift]
    rcases m.outbox.accept p with p | ⟨i, outbox⟩
    · rfl
    · rfl

theorem nextDeadline_shift :
    (m.shift k).nextDeadline (now + k) = (m.nextDeadline now).map (· + k) := by
  unfold nextDeadline shift
  cases m.phase with
  | idle => exact Outbox.nextSendAt_shift
  | backoff expiry busy => rfl
  | awaitingAck expiry => rfl
  | retryWait expiry => rfl

theorem finish_shift (m : Acknowledged ρ γ) (reason : Option FailureReason) :
    (m.shift k).finish reason = (m.finish reason).shift k := by
  simp only [finish, outbox_shift, Outbox.complete_shift]
  rcases m.outbox.complete with - | ⟨p, outbox⟩
  · rfl
  · rfl

theorem attemptFailed_shift (now : Tick) (m : Acknowledged ρ γ) (reason : FailureReason) :
    (m.shift k).attemptFailed reason (now + k) = (m.attemptFailed reason now).shift k := by
  have attempts : ((m.outbox.shift k).inFlight?.map fun entry => entry.2.attempts) =
      m.outbox.inFlight?.map fun entry => entry.2.attempts := by
    rw [Outbox.inFlight?_shift, Option.map_map]
    rfl
  simp only [attemptFailed, outbox_shift, attempts, station_shift, finish_shift]
  split
  · rfl
  · simp only [shift, AckPhase.shift, Tick.add_wait]

theorem handleAck_shift (ack : Descriptor) :
    (m.shift k).handleAck ack = (m.handleAck ack).shift k := by
  have acked : (m.shift k).isAckedBy ack = m.isAckedBy ack := by
    simp only [isAckedBy, outbox_shift, Outbox.inFlight?_shift]
    rcases m.outbox.inFlight? with - | ⟨i, p⟩
    · rfl
    · rfl
  unfold handleAck
  rw [acked, finish_shift]
  obtain ⟨station, outbox, phase, neighbours⟩ := m
  cases phase with
  | awaitingAck expiry =>
    simp only [shift, AckPhase.shift]
    split <;> rfl
  | idle => rfl
  | backoff expiry busy => rfl
  | retryWait expiry => rfl

theorem learn_shift (a : Address) : (m.shift k).learn a = (m.learn a).shift k := by
  simp only [learn, show (m.shift k).neighbours = m.neighbours from rfl]
  split <;> rfl

variable [Transceiver ρ ε]

theorem receive_shift {frame : Bytes} :
    (m.shift k).receive frame = Prod.map id (shift k) (m.receive frame) := by
  simp only [receive, station_shift]
  cases m.station.listen frame with
  | none => rfl
  | some delivery =>
    simp only [learn_shift, handleAck_shift, station_shift]
    split
    · rfl
    · split <;> rfl

theorem attempt_shift (now : Tick) (m : Acknowledged ρ γ) :
    (m.shift k).attempt (ε := ε) (now + k) = (m.attempt (ε := ε) now).map (shift k) := by
  simp only [attempt, outbox_shift, Outbox.inFlight?_shift]
  rcases m.outbox.inFlight? with - | ⟨i, p⟩
  · rfl
  · simp only [Option.map_some, show (p.shift k).attempts = p.attempts from rfl]
    by_cases full : p.attempts = 255
    · rw [if_pos full, if_pos full]
      rfl
    · rw [if_neg full, if_neg full]
      have tried : (m.outbox.shift k).setInFlight { p.shift k with attempts := p.attempts + 1 } =
          (m.outbox.setInFlight { p with attempts := p.attempts + 1 }).shift k :=
        Outbox.setInFlight_shift (p := { p with attempts := p.attempts + 1 })
      have sent : m.station.transmit (ε := ε) (p.shift k).descriptor (p.shift k).payload =
          m.station.transmit p.descriptor p.payload := rfl
      have asks : ({ p.shift k with attempts := p.attempts + 1 } : Packet).needsAck =
          ({ p with attempts := p.attempts + 1 } : Packet).needsAck := rfl
      simp only [station_shift, sent, tried, asks]
      rcases m.station.transmit (ε := ε) p.descriptor p.payload with ⟨e | n, station⟩
      · exact congrArg Except.ok (attemptFailed_shift (k := k) now
          { m with station, outbox := m.outbox.setInFlight _ } .radio)
      · dsimp only
        split
        · simp only [Except.map, shift, AckPhase.shift, Tick.add_wait]
        · exact congrArg Except.ok (finish_shift (k := k)
            { m with station, outbox := m.outbox.setInFlight _ } none)

variable [RandomSource γ]

theorem step_shift (m : Acknowledged ρ γ) :
    step (ε := ε) (now + k) (m.shift k) = (step now m).map (Prod.map id (shift k)) := by
  obtain ⟨station, outbox, phase, neighbours⟩ := m
  cases phase with
  | idle =>
    simp only [step, shift, AckPhase.shift, Outbox.startNext_shift]
    rcases outbox.startNext now with - | ⟨i, outbox⟩
    · rfl
    · simp only [Option.map_some, Station.firstBackoff_shift]
      rcases station.firstBackoff now with halt | ⟨expiry, station⟩
      · rfl
      · rfl
  | backoff expiry busy =>
    simp only [step, shift, AckPhase.shift, Station.assess_shift]
    rcases station.assess (ε := ε) expiry busy now with
      halt | ⟨e | ⟨expiry, busy⟩ | -, station⟩
    · rfl
    · rfl
    · rfl
    · have attempted := attempt_shift (ε := ε) (k := k) now
        { station, outbox, phase := .backoff expiry busy, neighbours }
      simp only [shift, AckPhase.shift] at attempted
      simp only [Except.map, Prod.map, Access.shift, id, attempted]
      rcases attempt (ε := ε) _ now with halt | m
      · rfl
      · rfl
  | awaitingAck expiry =>
    have failed := attemptFailed_shift (k := k) now
      { station, outbox, phase := .awaitingAck expiry, neighbours } .ackTimeout
    simp only [shift, AckPhase.shift] at failed
    simp only [step, shift, AckPhase.shift, Tick.hasReached_add, failed]
    split <;> rfl
  | retryWait expiry =>
    simp only [step, shift, AckPhase.shift, Tick.hasReached_add]
    split <;> rfl

end Acknowledged

/-! ## Runs -/

/-- The link with every tick that it keeps `k` ticks later. -/
def shift (k : Tick) : Link ρ γ → Link ρ γ
  | .carrierSense m => .carrierSense (m.shift k)
  | .acknowledged m => .acknowledged (m.shift k)
  | link => link

/-- The same call, with a submitted packet's send time `k` ticks later. -/
def Call.shift (k : Tick) : Call → Call
  | .submit d payload => .submit (d.shift k) payload
  | call => call

/-- The same call with the same answer, `k` ticks later. -/
def Event.shift (k : Tick) (event : Event ρ ε) : Event ρ ε :=
  { event with now := event.now + k, call := event.call.shift k }

theorem shift_new (method : Method) (capacity : Nat) (config : Config) (radio : ρ) (rng : γ) :
    (new method capacity config radio rng).shift k = new method capacity config radio rng := by
  cases method with
  | passThrough => rfl
  | carrierSense => simp [new, shift, CarrierSense.shift, Outbox.shift_empty, CarrierPhase.shift]
  | acknowledged => simp [new, shift, Acknowledged.shift, Outbox.shift_empty, AckPhase.shift]
  | timeSlot => rfl

theorem station_shift (link : Link ρ γ) : (link.shift k).station = link.station := by
  cases link <;> rfl

theorem setStation_shift (link : Link ρ γ) (s : Station ρ γ) :
    (link.shift k).setStation s = (link.setStation s).shift k := by
  cases link <;> rfl

theorem setRadio_shift (link : Link ρ γ) (radio : ρ) :
    (link.shift k).setRadio radio = (link.setRadio radio).shift k := by
  cases link <;> rfl

namespace Queueing

variable {c : Config} {link : Link ρ γ}

theorem outbox_shift (queueing : Queueing c link) :
    (link.shift k).outbox = link.outbox.shift k := by
  cases queueing <;> rfl

theorem nextDeadline_shift (queueing : Queueing c link) :
    (link.shift k).nextDeadline (now + k) = (link.nextDeadline now).map (· + k) := by
  cases queueing with
  | carrierSense served => exact CarrierSense.nextDeadline_shift
  | acknowledged served => exact Acknowledged.nextDeadline_shift

theorem cancel_shift (queueing : Queueing c link) (seq : UInt8) :
    (link.shift k).cancel seq = Prod.map id (shift k) (link.cancel seq) := by
  rw [cancel_eq, cancel_eq, queueing.outbox_shift, Outbox.remove_shift]
  rcases link.outbox.remove seq with - | ⟨slot, outbox⟩
  · rfl
  · cases queueing <;> cases slot <;> rfl

variable [Transceiver ρ ε]

theorem submit_shift (queueing : Queueing c link) :
    (link.shift k).submit (ε := ε) (d.shift k) payload =
      Prod.map id (shift k) (link.submit d payload) := by
  cases queueing with
  | carrierSense served =>
    simp only [submit, shift, CarrierSense.submit_shift]
    rfl
  | acknowledged served =>
    simp only [submit, shift, Acknowledged.submit_shift]
    rfl

theorem receive_shift (queueing : Queueing c link) (frame : Bytes) :
    (link.shift k).receive (ε := ε) frame = Prod.map id (shift k) (link.receive frame) := by
  cases queueing with
  | carrierSense served => rfl
  | acknowledged served =>
    simp only [receive, shift, Acknowledged.receive_shift]
    rfl

variable [RandomSource γ]

theorem step_shift (now : Tick) (queueing : Queueing c link) :
    (link.shift k).step (ε := ε) (now + k) = (link.step now).map (Prod.map id (shift k)) := by
  cases queueing with
  | @carrierSense m served =>
    simp only [Link.step, shift, CarrierSense.step_shift]
    rcases CarrierSense.step (ε := ε) now m with halt | ⟨r, m⟩ <;> rfl
  | @acknowledged m served =>
    simp only [Link.step, shift, Acknowledged.step_shift]
    rcases Acknowledged.step (ε := ε) now m with halt | ⟨r, m⟩ <;> rfl

theorem poll_shift (queueing : Queueing c link) :
    (link.shift k).poll (ε := ε) (now + k) = (link.poll now).map (Prod.map id (shift k)) := by
  have rounds : (link.shift k).pollRounds = link.pollRounds := by
    cases queueing <;> simp only [shift, pollRounds, CarrierSense.pollRounds,
      Acknowledged.pollRounds, CarrierSense.outbox_shift, Acknowledged.outbox_shift,
      Acknowledged.station_shift, Outbox.held_shift]
  have settled := settle_map (Queueing c) (shift k) (fun _ _ _ kept taken => kept.step taken)
    (fun _ => step_shift (ε := ε) now) queueing link.pollRounds
  rw [poll_eq, poll_eq, rounds, settled]
  rcases settle (Link.step (ε := ε) now) link.pollRounds link with halt | ⟨e | -, rested⟩
  · rfl
  · rfl
  · simp only [Except.map, Prod.map, station_shift, setStation_shift, id]

/-- A call that is made `k` ticks later is answered the same and changes the link alike. -/
theorem perform_shift {call : Call} (now : Tick) (queueing : Queueing c link)
    (explicit : ∀ dst payload, call ≠ .send dst payload) :
    (link.shift k).perform (ε := ε) (now + k) (call.shift k) =
      (link.perform now call).map (Prod.map id (shift k)) := by
  cases call with
  | send dst payload => exact absurd rfl (explicit dst payload)
  | submit d payload =>
    simp only [Link.perform, Call.shift, queueing.submit_shift]
    rfl
  | receive frame =>
    simp only [Link.perform, Call.shift, queueing.receive_shift]
    rfl
  | poll =>
    simp only [Link.perform, Call.shift, queueing.poll_shift]
    rcases link.poll (ε := ε) now with halt | ⟨result, after⟩ <;> rfl
  | cancel seq =>
    simp only [Link.perform, Call.shift, queueing.cancel_shift]
    rfl

end Queueing

variable [Transceiver ρ ε] [RandomSource γ]

/-- The calls of a run, made `k` ticks later. The medium does to the radio what it did before. -/
def later (k : Tick) (calls : List (Tick × (ρ → ρ) × Call)) : List (Tick × (ρ → ρ) × Call) :=
  calls.map fun (now, medium, call) => (now + k, medium, call.shift k)

theorem replay_shift {c : Config} {calls : List (Tick × (ρ → ρ) × Call)} {link : Link ρ γ}
    (queueing : Queueing c link)
    (explicit : ∀ entry ∈ calls, ∀ dst payload, entry.2.2 ≠ .send dst payload) :
    (link.shift k).replay (ε := ε) (later k calls) =
      (link.replay calls).map fun (history, last) =>
        (history.map (Event.shift k), last.shift k) := by
  induction calls generalizing link with
  | nil => rfl
  | cons first rest ih =>
    obtain ⟨now, medium, call⟩ := first
    obtain ⟨own, others⟩ := List.forall_mem_cons.mp explicit
    have radio : (link.shift k).radio = link.radio := congrArg Station.radio link.station_shift
    have found := queueing.setRadio (medium link.radio)
    have performed := found.perform_shift (ε := ε) (k := k) now own
    rw [later, List.map_cons, replay, replay]
    simp only [radio, setRadio_shift, performed]
    cases answered : (link.setRadio (medium link.radio)).perform (ε := ε) now call with
    | error halt => rfl
    | ok result =>
      obtain ⟨answer, after⟩ := result
      have next := ih (found.perform answered).1 others
      simp only [Except.map, Prod.map, id]
      rw [← later, next]
      rcases after.replay (ε := ε) rest with halt | ⟨history, last⟩
      · rfl
      · rfl

/-- Let a link that senses the channel, with or without acknowledgements, go through the same calls
    twice, once `k` ticks later than the other time, and let the packets that are submitted be sent
    `k` ticks later. Both runs halt or neither does. If they do not, all calls are answered the same
    and find the radio in the same state, so the same frames have been transmitted. In the end
    radio, random source, outcomes and neighbours are the same, all ticks that the link keeps are
    `k` ticks later, and so is its next deadline. -/
theorem shifted_of_replay {method : Method}
    (queues : method = .carrierSense ∨ method = .acknowledged) (capacity : Nat) (config : Config)
    (radio : ρ) (rng : γ) (k : Tick) {calls : List (Tick × (ρ → ρ) × Call)}
    (explicit : ∀ entry ∈ calls, ∀ dst payload, entry.2.2 ≠ .send dst payload) :
    Agree (fun (first second : List (Event ρ ε) × Link ρ γ) =>
        second.1 = first.1.map (Event.shift k) ∧ second.2 = first.2.shift k ∧
        second.2.station = first.2.station ∧
        ∀ now, second.2.nextDeadline (now + k) = (first.2.nextDeadline now).map (· + k))
      ((new method capacity config radio rng).replay calls)
      ((new method capacity config radio rng).replay (later k calls)) := by
  have fresh := Queueing.new queues capacity config radio rng
  have same := replay_shift (ε := ε) (k := k) fresh explicit
  rw [shift_new] at same
  rw [same]
  cases replayed : (new method capacity config radio rng).replay (ε := ε) calls with
  | error halt => exact .halt halt
  | ok result =>
    obtain ⟨history, last⟩ := result
    have queueing := (queueing_of_run queues (run_of_replay calls replayed)).1
    exact .ok ⟨rfl, rfl, last.station_shift, fun now => queueing.nextDeadline_shift⟩

/-- A packet is submitted ahead of its send time, sent after a backoff, and not acknowledged. -/
def unanswered : List (Tick × (Bench → Bench) × Call) :=
  [(100, id, .submit { dst := .short 2, sendAt := 105, flags := { ackRequested := true } } [7]),
    (104, id, .poll), (105, id, .poll), (108, id, .poll), (308, id, .poll)]

/-- On the second clock, which is 256 ticks behind, zero is passed before the last poll. -/
theorem shifted_of_replay_unanswered :
    ((new .acknowledged 2 { address := .short 1 } ({} : Bench) (⟨3, 5⟩ : StepGenerator)).replay
        unanswered).map (fun result => (result.2.radio.sent, result.2.nextDeadline 308)) =
      .ok ([[0xa3, 0x80, 2, 0, 1, 7]], some 408) ∧
    Agree (fun (first second : List (Event Bench BenchError) × Link Bench StepGenerator) =>
        second.1 = first.1.map (Event.shift 0xffffff00) ∧ second.2 = first.2.shift 0xffffff00 ∧
        second.2.station = first.2.station ∧ ∀ now,
          second.2.nextDeadline (now + 0xffffff00) =
            (first.2.nextDeadline now).map (· + 0xffffff00))
      ((new .acknowledged 2 { address := .short 1 } {} ⟨3, 5⟩).replay unanswered)
      ((new .acknowledged 2 { address := .short 1 } {} ⟨3, 5⟩).replay
        (later 0xffffff00 unanswered)) := by
  constructor
  · rfl
  · apply shifted_of_replay (.inr rfl)
    simp [unanswered]

end Link

end MoteLink
