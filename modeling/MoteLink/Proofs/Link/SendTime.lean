import MoteLink.Proofs.Link.Queueing
import MoteLink.Proofs.Link.TimeSlot
import MoteLink.Radio.Bench

/-!
# The send time of a plain send

A packet sent without a send time gets tick zero for one. Ticks are compared by the shorter way
round, so tick zero has come only in the first half of every turn of the clock: there the next poll
takes the packet up, and in the second half it leaves the packet where it is.
-/

namespace MoteLink

theorem Tick.hasReached_zero (now : Tick) : Tick.hasReached 0 now = true ↔ now < 0x80000000 := by
  have distance : now - 0 = now := by
    apply UInt32.toBitVec_inj.mp
    simp
  simp [Tick.hasReached, Tick.isAfter, distance]

namespace Link

variable {ρ γ ε : Type} {now : Tick} {p : Packet}

/-! ## A link with one fresh packet -/

section Steps

variable [Transceiver ρ ε] [RandomSource γ] {r : Except (LinkError ε) Bool}

theorem CarrierSense.Transition.queued_eq_nil {m m' : CarrierSense ρ γ}
    (taken : Transition now m r m') (empty : m.outbox.queued = []) : m'.outbox.queued = [] := by
  cases taken with
  | rest quiet early => exact empty
  | start quiet started drawn =>
    rw [Outbox.startNext_of_queued_nil empty] at started
    cases started
  | deaf phase sensed => exact empty
  | hold phase sensed => exact empty
  | attempt phase sensed found attempted => exact (attempted.queued_eq found).trans empty

theorem Acknowledged.Transition.queued_eq_nil {m m' : Acknowledged ρ γ}
    (taken : Transition now m r m') (empty : m.outbox.queued = []) : m'.outbox.queued = [] := by
  cases taken with
  | rest quiet early => exact empty
  | start quiet started drawn =>
    rw [Outbox.startNext_of_queued_nil empty] at started
    cases started
  | deaf phase sensed => exact empty
  | hold phase sensed => exact empty
  | attempt phase sensed found attempted => exact (attempted.queued_eq found).trans empty
  | await phase early => exact empty
  | timeout phase passed found setback => exact (setback.queued_eq found).trans empty
  | pause phase early => exact empty
  | retry phase passed => exact empty

/-- No step queues a packet. -/
theorem Queueing.queued_eq_nil {c : Config} {link after : Link ρ γ} (queueing : Queueing c link)
    (taken : link.step now = .ok (r, after)) (empty : link.outbox.queued = []) :
    after.outbox.queued = [] := by
  cases stepped_of_step taken with
  | passThrough m => cases queueing
  | timeSlot m => cases queueing
  | carrierSense stepped =>
    exact (CarrierSense.transition_of_step queueing.served stepped).queued_eq_nil empty
  | acknowledged stepped =>
    exact (Acknowledged.transition_of_step queueing.served stepped).queued_eq_nil empty

end Steps

/-- Nothing is going on in a link with an outbox but that the packet `p` is queued. -/
structure Fresh (c : Config) (p : Packet) (link : Link ρ γ) : Prop where
  queueing : Queueing c link
  grounded : link.outbox.flying = []
  one : link.outbox.queued = [p]

namespace Fresh

variable {c : Config} {link : Link ρ γ}

theorem setRadio (fresh : Fresh c p link) (radio : ρ) : Fresh c p (link.setRadio radio) := by
  constructor
  case queueing => exact fresh.queueing.setRadio radio
  case grounded =>
    rw [outbox_setRadio]
    exact fresh.grounded
  case one =>
    rw [outbox_setRadio]
    exact fresh.one

variable [Transceiver ρ ε] [RandomSource γ] (fresh : Fresh c p link)
include fresh

/-- The first step takes the packet up once its send time has come. -/
theorem queued_of_step {r : Except (LinkError ε) Bool} {after : Link ρ γ}
    (due : Tick.hasReached p.descriptor.sendAt now = true)
    (taken : link.step now = .ok (r, after)) : after.outbox.queued = [] := by
  have ready := Outbox.startNext_ne_none fresh.one fresh.grounded due
  obtain ⟨⟨i, o⟩, started⟩ := Option.ne_none_iff_exists'.mp ready
  have left := Outbox.queued_of_startNext fresh.one started
  rw [fresh.queueing.step_of_grounded fresh.grounded, started] at taken
  dsimp only at taken
  split at taken
  · cases taken
  · cases taken
    rw [fresh.queueing.outbox_launched]
    exact left

/-- A poll takes the packet up once its send time has come, where a backoff can be drawn. -/
theorem poll_of_due (due : Tick.hasReached p.descriptor.sendAt now = true)
    (bounded : c.maxInitialBackoff ≠ Tick.longest) :
    ∃ (answer : Answer ε) (last : Link ρ γ),
      link.perform now .poll = .ok (answer, last) ∧ last.outbox.queued = [] := by
  rcases polled : link.poll (ε := ε) now with halt | ⟨result, last⟩
  · exact absurd (fresh.queueing.poll_eq_error polled).2 bounded
  obtain ⟨r, rested, settled, ends⟩ := settle_of_poll polled
  let empty (link : Link ρ γ) : Prop := Queueing c link ∧ link.outbox.queued = []
  have first (r : Except (LinkError ε) Bool) (t : Link ρ γ) (taken : link.step now = .ok (r, t)) :
      empty t := ⟨fresh.queueing.step taken, fresh.queued_of_step due taken⟩
  have keep (s : Link ρ γ) (r : Except (LinkError ε) Bool) (t : Link ρ γ) (before : empty s)
      (taken : s.step now = .ok (r, t)) : empty t :=
    ⟨before.1.step taken, before.1.queued_eq_nil taken before.2⟩
  have kept : empty rested := settle_after_first first keep settled
  refine ⟨.polled result, last, perform_poll polled, ?_⟩
  cases ends with
  | failed e => exact kept.2
  | fetched =>
    rw [outbox_setStation]
    exact kept.2

/-- Where no backoff can be drawn the poll halts. -/
theorem poll_of_unbounded (due : Tick.hasReached p.descriptor.sendAt now = true)
    (unbounded : c.maxInitialBackoff = Tick.longest) :
    link.perform (ε := ε) now .poll = .error .overflow := by
  have ready := Outbox.startNext_ne_none fresh.one fresh.grounded due
  rw [perform, poll_of_halt (fresh.queueing.step_of_longest fresh.grounded unbounded ready)]
  rfl

/-- A poll changes nothing but the outcomes while the packet has to wait. -/
theorem poll_of_early (early : Tick.hasReached p.descriptor.sendAt now = false) :
    ∃ (answer : Answer ε) (last : Link ρ γ),
      link.perform now .poll = .ok (answer, last) ∧ last.outbox = link.outbox ∧
        last.radio = link.radio := by
  have waits := Outbox.startNext_eq_none fresh.one early
  have polled := poll_of_rest (fresh.queueing.step_of_none (ε := ε) fresh.grounded waits)
  refine ⟨_, _, perform_poll polled, link.outbox_setStation _, ?_⟩
  rw [radio, station_setStation]
  rfl

/-- A poll takes the packet up just where its send time has come and a backoff can be drawn. -/
theorem poll_iff :
    (∃ (answer : Answer ε) (last : Link ρ γ),
      link.perform now .poll = .ok (answer, last) ∧ last.outbox.queued = []) ↔
      Tick.hasReached p.descriptor.sendAt now = true ∧ c.maxInitialBackoff ≠ Tick.longest := by
  constructor
  · rintro ⟨answer, last, performed, left⟩
    by_cases due : Tick.hasReached p.descriptor.sendAt now = true
    · refine ⟨due, fun unbounded => ?_⟩
      rw [fresh.poll_of_unbounded due unbounded] at performed
      cases performed
    · obtain ⟨_, _, again, same, -⟩ := fresh.poll_of_early (ε := ε) (by simpa using due)
      rw [performed] at again
      cases again
      rw [same, fresh.one] at left
      cases left
  · rintro ⟨due, bounded⟩
    exact fresh.poll_of_due due bounded

end Fresh

/-- What a plain send puts into the queue. -/
structure Plain (dst : Address) (payload : Bytes) (p : Packet) : Prop where
  dst : p.descriptor.dst = dst
  payload : p.payload = payload
  sendAt : p.descriptor.sendAt = 0
  layout : p.descriptor.layoutError? = none

theorem Plain.due_iff {dst : Address} {payload : Bytes} (plain : Plain dst payload p) :
    Tick.hasReached p.descriptor.sendAt now = true ↔ now < 0x80000000 := by
  rw [plain.sendAt, Tick.hasReached_zero]

theorem Plain.early {dst : Address} {payload : Bytes} (plain : Plain dst payload p)
    (late : 0x80000000 ≤ now) : Tick.hasReached p.descriptor.sendAt now = false := by
  rw [← Bool.not_eq_true, plain.due_iff]
  exact UInt32.not_lt.mpr late

theorem plain_of_prepare {s s' : Station ρ γ} {dst : Address} {payload : Bytes} {asks : Bool}
    (prepared : s.prepare (ε := ε) (s.localDescriptor dst asks) payload = (.ok p, s')) :
    Plain dst payload p := by
  obtain ⟨seq, headerLength, rfl, encoded, -⟩ := Station.prepare_eq_ok prepared
  exact ⟨rfl, rfl, rfl, (Descriptor.encodedLength_eq_ok_iff.mp encoded).1⟩

theorem Station.Submitted.queued_eq {s s' : Station ρ γ} {o o' : Outbox} {dst : Address}
    {payload : Bytes} {asks : Bool} {seq : UInt8} (free : o.held = 0)
    (submitted : s.Submitted (ε := ε) o (s.localDescriptor dst asks) payload (.ok seq) s' o') :
    ∃ p, Plain dst payload p ∧ o'.queued = [p] ∧ o'.flying = [] := by
  rw [Outbox.held_eq_length_packets, List.length_eq_zero_iff] at free
  have parts := o.perm_flying_append_queued
  rw [free, List.perm_nil, List.append_eq_nil_iff] at parts
  cases submitted with
  | @accepted p s' i o' prepared placed =>
    obtain ⟨replaced, -⟩ := Outbox.accept_eq_ok placed
    have queued : (_ :: o.queued).Perm o'.queued := Outbox.queued_perm replaced
    have flying : o'.flying = o.flying := replaced.filterMap_eq rfl
    rw [parts.2] at queued
    have plain := plain_of_prepare prepared
    exact ⟨{ p with ticket := o.nextTicket },
      ⟨plain.dst, plain.payload, plain.sendAt, plain.layout⟩,
      (List.singleton_perm.mp queued).symm, flying.trans parts.1⟩

/-- After a plain send to a link that holds nothing the packet is all that there is. -/
theorem fresh_of_send [Transceiver ρ ε] [RandomSource γ] {c : Config} {link after : Link ρ γ}
    {dst : Address} {payload : Bytes} {seq : UInt8} (queueing : Queueing c link)
    (free : link.held = 0)
    (sent : link.perform (ε := ε) now (.send dst payload) = .ok (.submitted (.ok seq), after)) :
    ∃ p, Plain dst payload p ∧ Fresh c p after := by
  obtain ⟨result, same, submitted⟩ := queueing.submitted rfl sent
  cases same
  rw [← held_outbox] at free
  obtain ⟨p, plain, one, grounded⟩ := submitted.queued_eq free
  exact ⟨p, plain, (queueing.perform sent).1, grounded, one⟩

/-! ## A time slot with one fresh packet -/

namespace TimeSlot

variable [Transceiver ρ ε] [RandomSource γ] {m : TimeSlot ρ γ}

/-- After a plain send the packet waits. -/
theorem pending_of_send {link : Link ρ γ} {dst : Address} {payload : Bytes} {seq : UInt8}
    (sent : (Link.timeSlot m).perform (ε := ε) now (.send dst payload) =
      .ok (.submitted (.ok seq), link)) :
    ∃ p station, Plain dst payload p ∧ station.config = m.station.config ∧
      link = .timeSlot { station, pending := some p } := by
  have made : (Answer.submitted (m.send (ε := ε) dst payload).1,
      Link.timeSlot (m.send (ε := ε) dst payload).2) = (.submitted (.ok seq), link) :=
    Except.ok.inj sent
  obtain ⟨answered, rfl⟩ := Prod.mk.inj made
  obtain ⟨p, station, prepared, stored⟩ :=
    submit_eq_ok (Prod.ext (Answer.submitted.inj answered) rfl)
  have config := (Station.sameBooks_of_prepare prepared).1
  exact ⟨p, station, plain_of_prepare prepared, config, congrArg Link.timeSlot stored⟩

/-- A poll tells nothing of a packet whose send time has not come. -/
theorem perform_poll_of_early (waiting : m.pending = some p)
    (early : Tick.hasReached p.descriptor.sendAt now = false) :
    ∃ (answer : Answer ε) (last : Link ρ γ),
      (Link.timeSlot m).perform now .poll = .ok (answer, last) ∧
        last.outbox = (Link.timeSlot m).outbox ∧ last.radio = m.station.radio := by
  have held_back := release_of_early (ε := ε) waiting (show m.isReady p now = false by
    rw [isReady, early, Bool.false_and])
  have kept : (m.release (ε := ε) now).pending = m.pending := by rw [held_back]
  have untouched : (m.release (ε := ε) now).station.radio = m.station.radio := by rw [held_back]
  have pending : (m.poll (ε := ε) now).2.pending = m.pending := kept
  refine ⟨_, .timeSlot (m.poll (ε := ε) now).2, rfl, ?_, untouched⟩
  simp only [outbox, pending]

/-- A poll in the node's slot hands over a packet whose send time has come. -/
theorem perform_poll_of_due (waiting : m.pending = some p)
    (sound : p.descriptor.layoutError? = none)
    (due : Tick.hasReached p.descriptor.sendAt now = true)
    (slot : m.station.config.inOwnSlot now = true) :
    ∃ (answer : Answer ε) (last : Link ρ γ),
      (Link.timeSlot m).perform now .poll = .ok (answer, last) ∧ last.outbox.queued = [] ∧
        last.radio = (Transceiver.send m.station.radio p.descriptor.headerBytes p.payload).2 := by
  obtain ⟨gone, handed⟩ := release_of_ready (ε := ε) waiting (show m.isReady p now = true by
    rw [isReady, due, slot, Bool.true_and]) sound
  have pending : (m.poll (ε := ε) now).2.pending = none := gone
  refine ⟨_, .timeSlot (m.poll (ε := ε) now).2, rfl, ?_, handed⟩
  simp only [outbox, pending]
  rfl

/-- A poll in the node's slot hands over a plain packet just in the first half of the turn of the
    clock. -/
theorem poll_iff_of_plain {dst : Address} {payload : Bytes}
    (waiting : m.pending = some p) (plain : Plain dst payload p)
    (slot : m.station.config.inOwnSlot now = true) :
    (∃ (answer : Answer ε) (last : Link ρ γ),
      (Link.timeSlot m).perform now .poll = .ok (answer, last) ∧ last.outbox.queued = [] ∧
        last.radio = (Transceiver.send m.station.radio p.descriptor.headerBytes payload).2) ↔
      now < 0x80000000 := by
  constructor
  · rintro ⟨answer, last, polled, left, -⟩
    by_contra late
    have early := plain.early (UInt32.not_lt.mp late)
    obtain ⟨_, _, again, same, -⟩ := perform_poll_of_early (ε := ε) waiting early
    rw [polled] at again
    cases again
    have still : (Link.timeSlot m).outbox.queued = [p] := by
      simp only [outbox, waiting]
      rfl
    rw [same, still] at left
    cases left
  · intro first
    rw [← plain.payload]
    exact perform_poll_of_due waiting plain.layout (plain.due_iff.mpr first) slot

end TimeSlot

/-! ## Polls after a plain send -/

section Runs

variable [Transceiver ρ ε] [RandomSource γ] {method : Method} {capacity : Nat} {config : Config}
  {start_radio : ρ} {rng : γ} {history : List (Event ρ ε)} {link after : Link ρ γ} {radio : ρ}
  {dst : Address} {payload : Bytes} {seq : UInt8}

/-- A poll at the tick of a plain send takes the packet up just in the first half of the turn of the
    clock, where a link with an outbox can draw a backoff and a time-slot link is in its slot. In
    the second half it leaves the packet and the radio alone. -/
theorem poll_of_send (buffers : method ≠ .passThrough)
    (run : Run (.new method capacity config start_radio rng) history link) (free : link.held = 0)
    (sent : (link.setRadio radio).perform (ε := ε) now (.send dst payload) =
      .ok (.submitted (.ok seq), after)) :
    ∃ p, Plain dst payload p ∧ after.outbox.queued = [p] ∧ ∀ radio',
      (method ≠ .timeSlot →
        ((∃ (answer : Answer ε) (last : Link ρ γ),
            (after.setRadio radio').perform now .poll = .ok (answer, last) ∧
              last.outbox.queued = []) ↔
          now < 0x80000000 ∧ config.maxInitialBackoff ≠ Tick.longest)) ∧
      (method = .timeSlot → config.inOwnSlot now = true →
        ((∃ (answer : Answer ε) (last : Link ρ γ),
            (after.setRadio radio').perform now .poll = .ok (answer, last) ∧
              last.outbox.queued = [] ∧
              last.radio = (Transceiver.send radio' p.descriptor.headerBytes payload).2) ↔
          now < 0x80000000)) ∧
      (0x80000000 ≤ now →
        ∃ (answer : Answer ε) (last : Link ρ γ),
          (after.setRadio radio').perform now .poll = .ok (answer, last) ∧
            last.outbox = after.outbox ∧ last.radio = radio') := by
  by_cases slotted : method = .timeSlot
  · subst slotted
    obtain ⟨m, rfl, same⟩ := TimeSlot.config_of_run run
    obtain ⟨p, station, plain, unchanged, rfl⟩ := TimeSlot.pending_of_send sent
    have config_eq : station.config = config := unchanged.trans same
    refine ⟨p, plain, rfl, ?_⟩
    intro radio'
    let waiting : TimeSlot ρ γ := { station := { station with radio := radio' }, pending := some p }
    have stored : waiting.pending = some p := rfl
    refine ⟨fun other => absurd rfl other, ?_, ?_⟩
    · intro _ slot
      exact TimeSlot.poll_iff_of_plain stored plain (config_eq ▸ slot)
    · intro late
      exact TimeSlot.perform_poll_of_early stored (plain.early late)
  · have queues : method = .carrierSense ∨ method = .acknowledged := by
      cases method with
      | passThrough => exact absurd rfl buffers
      | carrierSense => exact .inl rfl
      | acknowledged => exact .inr rfl
      | timeSlot => exact absurd rfl slotted
    have queueing := (queueing_of_run queues run).1.setRadio radio
    have still_free : (link.setRadio radio).held = 0 := by
      rw [← held_outbox, outbox_setRadio, held_outbox, free]
    obtain ⟨p, plain, fresh⟩ := fresh_of_send queueing still_free sent
    refine ⟨p, plain, fresh.one, ?_⟩
    intro radio'
    refine ⟨?_, fun slot => absurd slot slotted, ?_⟩
    · intro _
      rw [(fresh.setRadio radio').poll_iff, plain.due_iff]
    · intro late
      obtain ⟨answer, last, polled, outbox, untouched⟩ :=
        (fresh.setRadio radio').poll_of_early (ε := ε) (plain.early late)
      rw [outbox_setRadio] at outbox
      rw [radio_setRadio] at untouched
      exact ⟨answer, last, polled, outbox, untouched⟩

end Runs

/-- A link that has done nothing yet, on a radio that hears nothing. -/
def freshLink : Link Bench StepGenerator :=
  .new .carrierSense 1 { address := .short 1, maxInitialBackoff := 0 } {} ⟨0, 0⟩

/-- At tick 5 a packet is taken up at once. -/
theorem poll_of_send_early :
    ∃ (after last : Link Bench StepGenerator) (answer : Answer BenchError),
      (freshLink.setRadio {}).perform (ε := BenchError) 5 (.send (.short 2) [7]) =
          .ok (.submitted (.ok 1), after) ∧
        (after.setRadio {}).perform 5 .poll = .ok (answer, last) ∧ last.outbox.queued = [] := by
  have sent : (freshLink.setRadio {}).perform (ε := BenchError) 5 (.send (.short 2) [7]) =
      .ok (.submitted (.ok 1), .carrierSense _) := rfl
  obtain ⟨p, plain, one, polls⟩ := poll_of_send (by decide) .start rfl sent
  obtain ⟨answer, last, polled, left⟩ := ((polls {}).1 (by decide)).mpr ⟨by decide, by decide⟩
  exact ⟨_, last, answer, sent, polled, left⟩

/-- Half a turn of the clock later the same packet stays in the queue. -/
theorem held_back_half_turn :
    ∃ (after last : Link Bench StepGenerator) (answer : Answer BenchError),
      freshLink.perform (ε := BenchError) 0x80000000 (.send (.short 2) [7]) =
          .ok (.submitted (.ok 1), after) ∧
        after.perform 0x80000000 .poll = .ok (answer, last) ∧ last.outbox.queued.length = 1 :=
  ⟨_, _, _, rfl, rfl, rfl⟩

end Link

end MoteLink
