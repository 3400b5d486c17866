import Mathlib.Data.List.Infix
import MoteLink.Proofs.Link.Methods

/-!
# Outcomes that wait at a link

Whatever is done to a link, in whatever state it is, the outcomes that wait to be fetched keep their
order, and new ones are put behind them. Only a poll takes one away, the oldest; a poll that tells
none leaves none. Carrier sense without acknowledgements and time slots put new ones there only when
they are polled.
-/

namespace MoteLink

theorem Fifo.prefix_push {α : Type} (q : Fifo α) (a : α) : q.items <+: (q.push a).items := by
  by_cases room : q.items.length < q.capacity
  · rw [q.items_push_of_lt a room]
    exact List.prefix_append q.items [a]
  · rw [q.push_of_full a (Nat.not_lt.mp room)]

namespace Link

variable {ρ γ ε : Type}

namespace Station

/-- The outcomes of `s` still wait in `s'`, in front of all others. -/
def Extends (s s' : Station ρ γ) : Prop := s.outcomes.items <+: s'.outcomes.items

namespace Extends

variable {s s' s'' : Station ρ γ}

theorem of_eq (same : s'.outcomes = s.outcomes) : s.Extends s' := by
  rw [Extends, same]

theorem refl (s : Station ρ γ) : s.Extends s := .of_eq rfl

theorem trans (first : s.Extends s') (second : s'.Extends s'') : s.Extends s'' :=
  List.IsPrefix.trans first second

theorem emit (same : s'.outcomes = s.outcomes) (outcome : Outcome) :
    s.Extends (s'.emit outcome) := by
  rw [Extends, outcomes_emit, same]
  exact s.outcomes.prefix_push outcome

end Extends

/-- Outcomes are fetched from the front. -/
theorem items_takeOutcome (s : Station ρ γ) :
    s.outcomes.items = s.takeOutcome.1.toList ++ s.takeOutcome.2.outcomes.items := by
  change s.outcomes.items = s.outcomes.pop.1.toList ++ s.outcomes.pop.2.items
  rw [Fifo.pop_fst, Fifo.items_pop]
  cases s.outcomes.items <;> rfl

theorem items_of_takeOutcome_eq_none {s : Station ρ γ} (nothing : s.takeOutcome.1 = none) :
    s.takeOutcome.2.outcomes.items = [] := by
  change s.outcomes.pop.1 = none at nothing
  change s.outcomes.pop.2.items = []
  rw [Fifo.pop_fst, List.head?_eq_none_iff] at nothing
  rw [Fifo.items_pop, nothing]
  rfl

/-- What a poll with this result tells. -/
def told : Except (LinkError ε) (Option Outcome) → List Outcome
  | .error _ => []
  | .ok outcome => outcome.toList

/-- What is told was in front, and none is told only where none is left. -/
structure Fetches (result : Except (LinkError ε) (Option Outcome)) (s s' : Station ρ γ) :
    Prop where
  front : s.outcomes.items <+: told result ++ s'.outcomes.items
  rest : result = .ok none → s'.outcomes.items = []

namespace Fetches

variable {s s' : Station ρ γ}

theorem failed (e : LinkError ε) (extended : s.Extends s') : Fetches (.error e) s s' :=
  ⟨extended, nofun⟩

theorem take (extended : s.Extends s') :
    Fetches (ε := ε) (.ok s'.takeOutcome.1) s s'.takeOutcome.2 := by
  refine ⟨?_, fun nothing => items_of_takeOutcome_eq_none (Except.ok.inj nothing)⟩
  rw [told, ← s'.items_takeOutcome]
  exact extended

end Fetches

end Station

open Station (Extends Fetches)

/-! ## Passing through -/

theorem PassThrough.extends_submit [Transceiver ρ ε] (m : PassThrough ρ γ) (d : Descriptor)
    (payload : Bytes) : m.station.Extends (m.submit (ε := ε) d payload).2.station := by
  unfold submit
  split
  · exact .refl m.station
  · have same :=
      m.station.nextSeq.2.sameBooks_onRadio fun r => Transceiver.send (ε := ε) r [] payload
    dsimp only
    split <;> rename_i requested <;> rw [requested] at same
    · exact .of_eq same.outcomes
    · exact .emit same.outcomes _

/-! ## Time slots -/

namespace TimeSlot

variable (m : TimeSlot ρ γ)

theorem outcomes_submit (d : Descriptor) (payload : Bytes) :
    (m.submit (ε := ε) d payload).2.station.outcomes = m.station.outcomes := by
  unfold submit
  split
  · rfl
  · split <;> rename_i prepared
    · exact (Station.sameBooks_of_prepare prepared).2
    · exact (Station.sameBooks_of_prepare prepared).2

theorem extends_release [Transceiver ρ ε] (now : Tick) :
    m.station.Extends (m.release (ε := ε) now).station := by
  unfold release
  split
  · exact .refl m.station
  · split
    · split <;> rename_i sent
      · exact .emit (Station.sameBooks_of_transmit sent).outcomes _
      · exact .emit (Station.sameBooks_of_transmit sent).outcomes _
    · exact .refl m.station

end TimeSlot

/-! ## Carrier sense -/

namespace CarrierSense

variable {m m' : CarrierSense ρ γ} {now : Tick}

variable [Transceiver ρ ε]

theorem extends_release (m : CarrierSense ρ γ) :
    m.station.Extends (m.release (ε := ε)).station := by
  unfold release
  dsimp only
  split
  · exact .refl m.station
  · split <;> rename_i sent
    · exact .emit (Station.sameBooks_of_transmit sent).outcomes _
    · exact .emit (Station.sameBooks_of_transmit sent).outcomes _

variable [RandomSource γ]

theorem extends_step {r : Except (LinkError ε) Bool} (taken : step now m = .ok (r, m')) :
    m.station.Extends m'.station := by
  unfold step at taken
  split at taken
  · split at taken
    · cases taken
      exact .refl m.station
    · split at taken <;> rename_i drawn
      · cases taken
      · cases taken
        exact .of_eq (Station.sameBooks_firstBackoff drawn).outcomes
  · split at taken <;> rename_i assessed
    · cases taken
    · cases taken
      exact .of_eq (Station.sensed_of_assess assessed).sameBooks.outcomes
    · cases taken
      exact .of_eq (Station.sensed_of_assess assessed).sameBooks.outcomes
    · rename_i station
      cases taken
      have sensed : m.station.Extends station :=
        .of_eq (Station.sensed_of_assess assessed).sameBooks.outcomes
      exact sensed.trans (extends_release (ε := ε) { m with station })

end CarrierSense

/-! ## Carrier sense with acknowledgements -/

namespace Acknowledged

variable {m m' : Acknowledged ρ γ} {now : Tick}

theorem extends_finish (m : Acknowledged ρ γ) (reason : Option FailureReason) :
    m.station.Extends (m.finish reason).station := by
  unfold finish
  dsimp only
  split
  · exact .refl m.station
  · exact .emit rfl _

theorem extends_attemptFailed (m : Acknowledged ρ γ) (reason : FailureReason) (now : Tick) :
    m.station.Extends (m.attemptFailed reason now).station := by
  unfold attemptFailed
  dsimp only
  split
  · exact m.extends_finish (some reason)
  · exact .refl m.station

theorem extends_handleAck (m : Acknowledged ρ γ) (ack : Descriptor) :
    m.station.Extends (m.handleAck ack).station := by
  unfold handleAck
  split
  · split
    · exact m.extends_finish none
    · exact .refl m.station
  · exact .refl m.station

variable [Transceiver ρ ε]

theorem Reception.extends {frame : Bytes} {delivery : Option Delivery}
    (received : Reception m frame delivery m') : m.station.Extends m'.station := by
  cases received with
  | ignored unheard => exact .refl m.station
  | @acknowledgement d heard isAck =>
    have noted := (m.learn d.descriptor.prevHop).extends_handleAck d.descriptor
    rwa [station_learn] at noted
  | @answered d heard isData asks here =>
    exact .of_eq (m.station.sameBooks_sendAck d.descriptor).outcomes
  | delivered heard isData silent =>
    rw [station_learn]
    exact .refl m.station

theorem extends_attempt (attempted : m.attempt now = .ok m') :
    m.station.Extends m'.station := by
  unfold attempt at attempted
  split at attempted
  · cases attempted
    exact .refl m.station
  · split at attempted
    · cases attempted
    · dsimp only at attempted
      split at attempted <;> rename_i sent
      · cases attempted
        refine Extends.trans ?_ (extends_attemptFailed _ .radio now)
        exact .of_eq (Station.sameBooks_of_transmit sent).outcomes
      · split at attempted
        · cases attempted
          exact .of_eq (Station.sameBooks_of_transmit sent).outcomes
        · cases attempted
          refine Extends.trans ?_ (extends_finish _ none)
          exact .of_eq (Station.sameBooks_of_transmit sent).outcomes

variable [RandomSource γ]

theorem extends_step {r : Except (LinkError ε) Bool} (taken : step now m = .ok (r, m')) :
    m.station.Extends m'.station := by
  unfold step at taken
  split at taken
  · split at taken
    · cases taken
      exact .refl m.station
    · split at taken <;> rename_i drawn
      · cases taken
      · cases taken
        exact .of_eq (Station.sameBooks_firstBackoff drawn).outcomes
  · split at taken <;> rename_i assessed
    · cases taken
    · cases taken
      exact .of_eq (Station.sensed_of_assess assessed).sameBooks.outcomes
    · cases taken
      exact .of_eq (Station.sensed_of_assess assessed).sameBooks.outcomes
    · split at taken <;> rename_i attempted
      · cases taken
      · cases taken
        have sensed := Extends.of_eq (Station.sensed_of_assess assessed).sameBooks.outcomes
        exact sensed.trans (extends_attempt attempted)
  · split at taken
    · cases taken
      exact m.extends_attemptFailed .ackTimeout now
    · cases taken
      exact .refl m.station
  · split at taken
    · cases taken
      exact .refl m.station
    · cases taken
      exact .refl m.station

end Acknowledged

/-! ## Links -/

/-- The outcomes that wait to be fetched, oldest first. -/
def waiting (link : Link ρ γ) : List Outcome := link.station.outcomes.items

/-- The method completes packets when it is polled and at no other time. -/
def Method.completesOnPoll : Method → Bool
  | .carrierSense => true
  | .timeSlot => true
  | .passThrough => false
  | .acknowledged => false

/-- What becomes of the outcomes that wait when a link is not polled. -/
structure Unpolled (link link' : Link ρ γ) : Prop where
  method : link'.method = link.method
  extends_waiting : link.waiting <+: link'.waiting
  waiting_eq : link.method.completesOnPoll = true → link'.waiting = link.waiting

namespace Unpolled

variable {link link' link'' : Link ρ γ}

theorem of_eq (method : link'.method = link.method) (waiting : link'.waiting = link.waiting) :
    link.Unpolled link' := by
  refine ⟨method, ?_, fun _ => waiting⟩
  rw [waiting]

theorem refl (link : Link ρ γ) : link.Unpolled link := .of_eq rfl rfl

theorem trans (first : link.Unpolled link') (second : link'.Unpolled link'') :
    link.Unpolled link'' := by
  refine ⟨second.method.trans first.method, first.extends_waiting.trans second.extends_waiting, ?_⟩
  intro late
  exact (second.waiting_eq (first.method ▸ late)).trans (first.waiting_eq late)

end Unpolled

theorem unpolled_setRadio (link : Link ρ γ) (radio : ρ) : link.Unpolled (link.setRadio radio) := by
  cases link with
  | _ m => exact .of_eq rfl rfl

variable [Transceiver ρ ε] {link link' : Link ρ γ} {now : Tick}

theorem unpolled_submit (link : Link ρ γ) (d : Descriptor) (payload : Bytes) :
    link.Unpolled (link.submit (ε := ε) d payload).2 := by
  cases link with
  | passThrough m => exact ⟨rfl, m.extends_submit d payload, nofun⟩
  | carrierSense m =>
    exact .of_eq rfl (congrArg Fifo.items (m.submitted_submit d payload).1.books.2)
  | acknowledged m =>
    exact .of_eq rfl (congrArg Fifo.items (m.submitted_submit d payload).1.books.2)
  | timeSlot m => exact .of_eq rfl (congrArg Fifo.items (m.outcomes_submit d payload))

/-- Only an acknowledgement completes a packet. -/
theorem unpolled_receive (link : Link ρ γ) (frame : Bytes) :
    link.Unpolled (link.receive frame).2 := by
  cases link with
  | passThrough m => exact .refl _
  | carrierSense m => exact .refl _
  | acknowledged m => exact ⟨rfl, (m.reception_receive frame).extends, nofun⟩
  | timeSlot m => exact .refl _

variable [RandomSource γ]

theorem extends_step {r : Except (LinkError ε) Bool} (taken : link.step now = .ok (r, link')) :
    link.station.Extends link'.station := by
  cases stepped_of_step taken with
  | passThrough m => exact .refl m.station
  | carrierSense stepped => exact CarrierSense.extends_step stepped
  | acknowledged stepped => exact Acknowledged.extends_step stepped
  | timeSlot m => exact m.extends_release (ε := ε) now

/-- Whatever a poll does first, it fetches from what waits then. -/
theorem fetches_of_poll {result : Except (LinkError ε) (Option Outcome)}
    (polled : link.poll now = .ok (result, link')) :
    Fetches result link.station link'.station := by
  obtain ⟨r, rested, extended, ends⟩ := exists_rested_of_poll
    (fun rested => link.station.Extends rested.station)
    (fun _ _ _ sofar taken => sofar.trans (extends_step taken)) (.refl link.station) polled
  cases ends with
  | failed e => exact .failed e extended
  | fetched =>
    rw [station_setStation]
    exact .take extended

end Link

end MoteLink
