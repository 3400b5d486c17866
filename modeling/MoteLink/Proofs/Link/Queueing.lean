import MoteLink.Proofs.Link.Ledger
import MoteLink.Proofs.Link.Methods

/-!
# Links that queue their packets

The two access methods with an outbox, carrier sense with and without acknowledgements, keep the
same ledger: a step resolves the packet in flight or leaves the ledger alone, and a call does one of
the things that `Ledger.Posts` lists.
-/

namespace MoteLink

namespace Link

open Ledger (Resolves Posts)

variable {ρ γ ε : Type} {now : Tick} {i : Nat} {p : Packet}

/-! ## Carrier sense -/

namespace CarrierSense

variable {m m' : CarrierSense ρ γ}

def ledger (m : CarrierSense ρ γ) : Ledger := .of m.station m.outbox

section Steps

variable [Transceiver ρ ε]

theorem Attempt.resolves {reason : Option FailureReason}
    (attempted : Attempt (ε := ε) m i p reason m') (found : m.outbox.inFlight? = some (i, p)) :
    Resolves [⟨p.untried, reason⟩] m.ledger m'.ledger := by
  have freed : Replaces i (.inFlight p) .idle m.outbox.slots (m.outbox.slots.set i .idle) :=
    ⟨Outbox.slot_of_inFlight? found, rfl⟩
  cases attempted with
  | refused sent =>
    exact Ledger.resolves_release { m.outbox with slots := m.outbox.slots.set i .idle } freed
      rfl (Station.sameBooks_of_transmit sent).outcomes
  | done sent =>
    exact Ledger.resolves_release { m.outbox with slots := m.outbox.slots.set i .idle } freed
      rfl (Station.sameBooks_of_transmit sent).outcomes

variable [RandomSource γ]

theorem Transition.resolves {r : Except (LinkError ε) Bool} (taken : Transition now m r m') :
    ∃ resolved, Resolves resolved m.ledger m'.ledger := by
  cases taken with
  | rest quiet early => exact ⟨[], .refl _⟩
  | @start i outbox expiry station quiet started drawn =>
    obtain ⟨-, p, promoted, -, ticket⟩ := Outbox.startNext_eq_some started
    have same : Ledger.of station outbox = m.ledger :=
      Ledger.of_replace promoted rfl ticket (Station.sameBooks_firstBackoff drawn).outcomes
    exact ⟨[], .of_eq same⟩
  | deaf phase sensed => exact ⟨[], .of_eq (Ledger.of_sameBooks sensed.sameBooks)⟩
  | hold phase sensed => exact ⟨[], .of_eq (Ledger.of_sameBooks sensed.sameBooks)⟩
  | @attempt expiry busy station i p reason m' phase sensed found attempted =>
    have sense : ledger { m with station } = m.ledger := Ledger.of_sameBooks sensed.sameBooks
    exact ⟨_, sense ▸ attempted.resolves found⟩

end Steps

end CarrierSense

/-! ## Carrier sense with acknowledgements -/

namespace Acknowledged

variable {m m' : Acknowledged ρ γ}

def ledger (m : Acknowledged ρ γ) : Ledger := .of m.station m.outbox

@[simp] theorem ledger_learn (m : Acknowledged ρ γ) (a : Address) :
    (m.learn a).ledger = m.ledger := by
  rw [ledger, station_learn, outbox_learn, ledger]

theorem resolves_released (found : m.outbox.inFlight? = some (i, p))
    (reason : Option FailureReason) :
    Resolves [⟨p.untried, reason⟩] m.ledger (m.released i (p.outcome reason)).ledger := by
  have freed : Replaces i (.inFlight p) .idle m.outbox.slots (m.outbox.slots.set i .idle) :=
    ⟨Outbox.slot_of_inFlight? found, rfl⟩
  exact Ledger.resolves_release { m.outbox with slots := m.outbox.slots.set i .idle } freed
    rfl rfl

theorem Setback.resolves {reason : FailureReason} (setback : Setback now m i p reason m')
    (found : m.outbox.inFlight? = some (i, p)) :
    ∃ resolved, Resolves resolved m.ledger m'.ledger := by
  cases setback with
  | again left => exact ⟨[], .refl _⟩
  | giveUp spent => exact ⟨_, resolves_released found (some reason)⟩

theorem Acknowledgement.resolves {ack : Descriptor} (noted : Acknowledgement m ack m') :
    ∃ resolved, Resolves resolved m.ledger m'.ledger := by
  cases noted with
  | unexpected phase => exact ⟨[], .refl _⟩
  | mismatch phase found other => exact ⟨[], .refl _⟩
  | matching phase found seq sender => exact ⟨_, resolves_released found none⟩

section Steps

variable [Transceiver ρ ε]

/-- The count of attempts is not in the ledger. -/
theorem ledger_tried {station : Station ρ γ} (same : m.station.SameBooks station)
    (found : m.outbox.inFlight? = some (i, p)) (phase : AckPhase) :
    ledger { m with station, outbox := m.outbox.setInFlight p.tried, phase } = m.ledger := by
  refine Ledger.of_replace (Outbox.slots_setInFlight found p.tried) rfl ?_ same.outcomes
  simp only [Outbox.setInFlight, found]

theorem Attempt.resolves (attempted : Attempt (ε := ε) now m i p m')
    (found : m.outbox.inFlight? = some (i, p)) :
    ∃ resolved, Resolves resolved m.ledger m'.ledger := by
  have there := Outbox.inFlight?_setInFlight found p.tried
  cases attempted with
  | refused sent setback =>
    rw [← ledger_tried (Station.sameBooks_of_transmit sent) found]
    exact setback.resolves there
  | await sent asks =>
    exact ⟨[], .of_eq (ledger_tried (Station.sameBooks_of_transmit sent) found _)⟩
  | @done length station sent silent =>
    rw [← ledger_tried (Station.sameBooks_of_transmit sent) found m.phase]
    exact ⟨_, resolves_released (m := { m with station, outbox := m.outbox.setInFlight p.tried })
      there none⟩

theorem Reception.resolves {frame : Bytes} {delivery : Option Delivery} (served : m.Served)
    (received : Reception m frame delivery m') :
    ∃ resolved, Resolves resolved m.ledger m'.ledger := by
  cases received with
  | ignored unheard => exact ⟨[], .refl _⟩
  | @acknowledgement d heard isAck =>
    have noted := acknowledgement_of_handleAck (served_learn served d.descriptor.prevHop)
      d.descriptor
    rw [← m.ledger_learn d.descriptor.prevHop]
    exact noted.resolves
  | @answered d heard isData asks here =>
    refine ⟨[], .of_eq ?_⟩
    rw [← m.ledger_learn d.descriptor.prevHop]
    refine Ledger.of_sameBooks ?_
    rw [station_learn]
    exact m.station.sameBooks_sendAck d.descriptor
  | delivered heard isData silent => exact ⟨[], .of_eq (m.ledger_learn _)⟩

variable [RandomSource γ]

theorem Transition.resolves {r : Except (LinkError ε) Bool} (taken : Transition now m r m') :
    ∃ resolved, Resolves resolved m.ledger m'.ledger := by
  cases taken with
  | rest quiet early => exact ⟨[], .refl _⟩
  | @start i outbox expiry station quiet started drawn =>
    obtain ⟨-, p, promoted, -, ticket⟩ := Outbox.startNext_eq_some started
    have same : Ledger.of station outbox = m.ledger :=
      Ledger.of_replace promoted rfl ticket (Station.sameBooks_firstBackoff drawn).outcomes
    exact ⟨[], .of_eq same⟩
  | deaf phase sensed => exact ⟨[], .of_eq (Ledger.of_sameBooks sensed.sameBooks)⟩
  | hold phase sensed => exact ⟨[], .of_eq (Ledger.of_sameBooks sensed.sameBooks)⟩
  | @attempt expiry busy station i p m' phase sensed found attempted =>
    have sense : ledger { m with station } = m.ledger := Ledger.of_sameBooks sensed.sameBooks
    exact sense ▸ attempted.resolves found
  | await phase early => exact ⟨[], .refl _⟩
  | timeout phase passed found setback => exact setback.resolves found
  | pause phase early => exact ⟨[], .refl _⟩
  | retry phase passed => exact ⟨[], .refl _⟩

end Steps

end Acknowledged

/-! ## Links of either kind -/

def ledger (link : Link ρ γ) : Ledger := .of link.station link.outbox

theorem card_held_ledger (link : Link ρ γ) : link.ledger.held.card = link.held := by
  rw [ledger, Ledger.card_held_of, held_outbox]

theorem ledger_setStation (link : Link ρ γ) (s : Station ρ γ) :
    (link.setStation s).ledger = .of s link.outbox := by
  rw [ledger, station_setStation, outbox_setStation]

@[simp] theorem ledger_setRadio (link : Link ρ γ) (radio : ρ) :
    (link.setRadio radio).ledger = link.ledger := by
  cases link <;> rfl

theorem posts_cancel (entered : Call → Answer ε → Option Packet) (link : Link ρ γ) (seq : UInt8) :
    Posts entered link.ledger (.cancel seq) (.cancelled (link.cancel seq).1)
      (link.cancel seq).2.ledger := by
  rw [cancel_eq]
  cases removed : link.outbox.remove seq with
  | none => exact .missed seq
  | some entry =>
    dsimp only
    rw [ledger, ledger, station_without, outbox_without removed]
    exact Ledger.posts_remove entered link.station removed

/-- The link with a packet in flight that waits for its first backoff. -/
def launched (station : Station ρ γ) (outbox : Outbox) (expiry : Tick) : Link ρ γ → Link ρ γ
  | .carrierSense _ => .carrierSense { station, outbox, phase := .backoff expiry 0 }
  | .acknowledged m => .acknowledged { m with station, outbox, phase := .backoff expiry 0 }
  | link => link

/-- A link with an outbox and the given configuration, whose packet in flight fits its phase. -/
inductive Queueing (c : Config) : Link ρ γ → Prop
  | carrierSense {m : CarrierSense ρ γ} (served : CarrierSense.ServedBy c m) :
      Queueing c (.carrierSense m)
  | acknowledged {m : Acknowledged ρ γ} (served : Acknowledged.ServedBy c m) :
      Queueing c (.acknowledged m)

namespace Queueing

variable {c : Config} {link after : Link ρ γ}

theorem new {method : Method} (queues : method = .carrierSense ∨ method = .acknowledged)
    (capacity : Nat) (config : Config) (radio : ρ) (rng : γ) :
    Queueing config (.new method capacity config radio rng) := by
  rcases queues with rfl | rfl
  · exact .carrierSense (CarrierSense.servedBy_new capacity config radio rng)
  · exact .acknowledged (Acknowledged.servedBy_new capacity config radio rng)

theorem served (queueing : Queueing c link) : link.Served := by
  cases queueing with
  | carrierSense served => exact served.served
  | acknowledged served => exact served.toServed

theorem config_eq (queueing : Queueing c link) : link.station.config = c := by
  cases queueing with
  | carrierSense served => exact served.config
  | acknowledged served => exact served.config

theorem setRadio (queueing : Queueing c link) (radio : ρ) : Queueing c (link.setRadio radio) := by
  cases queueing with
  | carrierSense served => exact .carrierSense (served.withStation rfl)
  | acknowledged served => exact .acknowledged (served.withStation rfl)

variable [Transceiver ρ ε] [RandomSource γ] {call : Call} {answer : Answer ε}

/-- A call keeps a queueing link queueing, and by the same method. -/
theorem perform (queueing : Queueing c link)
    (performed : link.perform now call = .ok (answer, after)) :
    Queueing c after ∧ after.method = link.method := by
  cases queueing with
  | carrierSense served =>
    obtain ⟨m', rfl, performs⟩ := CarrierSense.performs_of_perform performed
    exact ⟨.carrierSense (CarrierSense.servedBy_performs performs served), rfl⟩
  | acknowledged served =>
    obtain ⟨m', rfl, performs⟩ := Acknowledged.performs_of_perform performed
    exact ⟨.acknowledged (Acknowledged.servedBy_performs performs served), rfl⟩

theorem step {r : Except (LinkError ε) Bool} (queueing : Queueing c link)
    (taken : link.step now = .ok (r, after)) : Queueing c after := by
  cases stepped_of_step taken with
  | passThrough m => cases queueing
  | timeSlot m => cases queueing
  | carrierSense stepped =>
    cases queueing with
    | carrierSense served => exact .carrierSense (CarrierSense.servedBy_step served stepped)
  | acknowledged stepped =>
    cases queueing with
    | acknowledged served => exact .acknowledged (Acknowledged.servedBy_step served stepped)

/-- A submission to a link with an outbox. -/
theorem submitted {d : Descriptor} {payload : Bytes} (queueing : Queueing c link)
    (submits : link.submission? call = some (d, payload))
    (performed : link.perform now call = .ok (answer, after)) :
    ∃ result, answer = .submitted result ∧
      link.station.Submitted (ε := ε) link.outbox d payload result after.station after.outbox := by
  rw [perform_of_submission? submits] at performed
  cases performed
  cases queueing with
  | @carrierSense m served => exact ⟨_, rfl, (m.submitted_submit d payload).1⟩
  | @acknowledged m served => exact ⟨_, rfl, (m.submitted_submit d payload).1⟩

omit [RandomSource γ] in
theorem resolves_receive (queueing : Queueing c link) (frame : Bytes) :
    ∃ resolved, Resolves resolved link.ledger (link.receive (ε := ε) frame).2.ledger := by
  cases queueing with
  | @carrierSense m served => exact ⟨[], .refl _⟩
  | @acknowledged m served => exact (m.reception_receive frame).resolves served.toServed

theorem resolves_step {r : Except (LinkError ε) Bool} (queueing : Queueing c link)
    (taken : link.step now = .ok (r, after)) :
    ∃ resolved, Resolves resolved link.ledger after.ledger := by
  cases stepped_of_step taken with
  | passThrough m => cases queueing
  | timeSlot m => cases queueing
  | carrierSense stepped =>
    exact (CarrierSense.transition_of_step queueing.served stepped).resolves
  | acknowledged stepped =>
    exact (Acknowledged.transition_of_step queueing.served stepped).resolves

/-- A poll resolves packets, and then it fetches an outcome. -/
theorem posts_poll (entered : Call → Answer ε → Option Packet)
    {result : Except (LinkError ε) (Option Outcome)} (queueing : Queueing c link)
    (polled : link.poll now = .ok (result, after)) :
    Posts entered link.ledger .poll (.polled result) after.ledger := by
  obtain ⟨r, rested, settled, ends⟩ := settle_of_poll polled
  obtain ⟨resolved, resolves⟩ := Resolves.of_settle (Queueing c)
    (fun s r s' kept taken => kept.step taken) (fun s r s' kept taken => kept.resolves_step taken)
    queueing settled
  cases ends with
  | failed e => exact .failed resolves
  | fetched =>
    rw [ledger_setStation]
    exact .fetched resolves

theorem posts (queueing : Queueing c link)
    (performed : link.perform now call = .ok (answer, after)) :
    Posts link.accepted? link.ledger call answer after.ledger := by
  cases submits : link.submission? call with
  | some packet =>
    obtain ⟨result, rfl, submitted⟩ := queueing.submitted submits performed
    exact Ledger.posts_submitted submits submitted
  | none =>
    cases call with
    | send dst payload | submit d payload => cases submits
    | receive frame =>
      cases performed
      obtain ⟨resolved, resolves⟩ := queueing.resolves_receive (ε := ε) frame
      exact .received resolves
    | poll =>
      obtain ⟨result, rfl, polled⟩ := exists_poll_of_perform performed
      exact queueing.posts_poll _ polled
    | cancel seq =>
      cases performed
      exact link.posts_cancel _ seq

/-- A poll halts only for a missing bound on the backoff. Its rounds do not run out. -/
theorem poll_eq_error {halt : Halt} (queueing : Queueing c link)
    (halted : link.poll (ε := ε) now = .error halt) :
    halt = .overflow ∧ c.maxInitialBackoff = Tick.longest := by
  cases queueing with
  | @carrierSense m served =>
    rw [← served.config]
    rcases polled : m.poll (ε := ε) now with halt' | result <;> rw [poll, polled] at halted <;>
      cases halted
    exact CarrierSense.poll_eq_error served.served polled
  | @acknowledged m served =>
    rw [← served.config]
    rcases polled : m.poll (ε := ε) now with halt' | result <;> rw [poll, polled] at halted <;>
      cases halted
    exact Acknowledged.poll_eq_error served.toServed polled

/-- Where backoffs can be drawn every poll returns. -/
theorem polls (queueing : Queueing c link) (bounded : c.maxInitialBackoff ≠ Tick.longest)
    (now : Tick) : ∃ answer after, link.perform (ε := ε) now .poll = .ok (answer, after) := by
  cases polled : link.poll (ε := ε) now with
  | error halt => exact absurd (queueing.poll_eq_error polled).2 bounded
  | ok told => exact ⟨_, _, perform_poll polled⟩

/-! ### At rest -/

omit [Transceiver ρ ε] [RandomSource γ] in
theorem nextDeadline_of_grounded (queueing : Queueing c link) (grounded : link.outbox.flying = []) :
    link.nextDeadline now = link.outbox.nextSendAt now := by
  cases queueing with
  | @carrierSense m served =>
    show m.nextDeadline now = _
    rw [CarrierSense.nextDeadline, served.served.idle_of_flying grounded]
    rfl
  | @acknowledged m served =>
    show m.nextDeadline now = _
    rw [Acknowledged.nextDeadline, served.toServed.idle_of_flying grounded]
    rfl

/-- Where nothing is in flight a step starts the next packet, if one is due. -/
theorem step_of_grounded (queueing : Queueing c link) (grounded : link.outbox.flying = []) :
    link.step (ε := ε) now =
      match link.outbox.startNext now with
      | none => .ok (.ok false, link)
      | some (_, outbox) =>
        match link.station.firstBackoff now with
        | .error halt => .error halt
        | .ok (expiry, station) => .ok (.ok true, link.launched station outbox expiry) := by
  cases queueing with
  | @carrierSense m served =>
    have quiet := served.served.idle_of_flying grounded
    simp only [Link.step, CarrierSense.step, quiet, outbox, station]
    rcases m.outbox.startNext now with - | ⟨i, outbox⟩
    · rfl
    · dsimp only
      rcases m.station.firstBackoff now with halt | ⟨expiry, station⟩ <;> rfl
  | @acknowledged m served =>
    have quiet := served.toServed.idle_of_flying grounded
    simp only [Link.step, Acknowledged.step, quiet, outbox, station]
    rcases m.outbox.startNext now with - | ⟨i, outbox⟩
    · rfl
    · dsimp only
      rcases m.station.firstBackoff now with halt | ⟨expiry, station⟩ <;> rfl

omit [Transceiver ρ ε] [RandomSource γ] in
theorem outbox_launched (queueing : Queueing c link) (station : Station ρ γ) (outbox : Outbox)
    (expiry : Tick) : (link.launched station outbox expiry).outbox = outbox := by
  cases queueing <;> rfl

/-- Where no packet is due either the link rests. -/
theorem step_of_none (queueing : Queueing c link) (grounded : link.outbox.flying = [])
    (early : link.outbox.startNext now = none) :
    link.step (ε := ε) now = .ok (.ok false, link) := by
  rw [queueing.step_of_grounded grounded, early]

theorem outbox_of_last {r : Except (LinkError ε) Bool} (queueing : Queueing c link)
    (taken : link.step now = .ok (r, after)) (last : r ≠ .ok true) :
    after.outbox = link.outbox := by
  cases stepped_of_step taken with
  | passThrough m => rfl
  | timeSlot m => cases queueing
  | carrierSense stepped =>
    exact (CarrierSense.transition_of_step queueing.served stepped).outbox_of_last last
  | acknowledged stepped =>
    exact (Acknowledged.transition_of_step queueing.served stepped).outbox_of_last last

/-- A poll that leaves nothing in flight leaves no packet that is due. -/
theorem startNext_of_poll {result : Except (LinkError ε) (Option Outcome)}
    (queueing : Queueing c link) (polled : link.poll now = .ok (result, after))
    (grounded : after.outbox.flying = []) : after.outbox.startNext now = none := by
  obtain ⟨r, rested, settled, ends⟩ := settle_of_poll polled
  rw [ends.outbox_eq] at grounded ⊢
  obtain ⟨final, r', kept, taken, last, -⟩ :=
    settle_last (fun _ _ _ kept taken => Queueing.step kept taken) queueing settled
  rw [kept.outbox_of_last taken last] at grounded ⊢
  rw [kept.step_of_grounded grounded] at taken
  split at taken
  · assumption
  · split at taken <;> cases taken
    exact absurd rfl last

/-- With the longest backoff, for which none can be drawn, no packet is ever started. -/
theorem step_of_longest (queueing : Queueing c link) (grounded : link.outbox.flying = [])
    (longest : c.maxInitialBackoff = Tick.longest) (ready : link.outbox.startNext now ≠ none) :
    link.step (ε := ε) now = .error .overflow := by
  obtain ⟨entry, started⟩ := Option.ne_none_iff_exists'.mp ready
  rw [← queueing.config_eq] at longest
  rw [queueing.step_of_grounded grounded, started]
  simp only [Station.firstBackoff_of_longest now longest]

end Queueing

/-- All through a run a link with an outbox stays one, by the same method. -/
theorem queueing_of_run [Transceiver ρ ε] [RandomSource γ] {method : Method}
    (queues : method = .carrierSense ∨ method = .acknowledged) {capacity : Nat} {config : Config}
    {radio : ρ} {rng : γ} {history : List (Event ρ ε)} {link : Link ρ γ}
    (run : Run (.new method capacity config radio rng) history link) :
    Queueing config link ∧ link.method = method := by
  refine run.invariant (fun link => Queueing config link ∧ link.method = method) ?_ ?_ ?_
  · exact ⟨.new queues capacity config radio rng, method_new method capacity config radio rng⟩
  · rintro link radio ⟨queueing, same⟩
    refine ⟨queueing.setRadio radio, ?_⟩
    rw [setRadio, method_setStation, same]
  · rintro link now call answer after ⟨queueing, same⟩ performed
    obtain ⟨kept, stays⟩ := queueing.perform performed
    exact ⟨kept, stays.trans same⟩

end Link

end MoteLink
