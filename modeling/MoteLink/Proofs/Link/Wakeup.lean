import Mathlib.Data.Prod.Lex
import MoteLink.Proofs.Link.Deadline
import MoteLink.Proofs.Link.Queueing
import MoteLink.Radio.Bench
import MoteLink.Radio.Tally

/-!
# What a poll finds to do

The next deadline of a link with an outbox tells whether a poll has work: before the deadline a poll
leaves the link as it is, and from the deadline on it makes a request of the radio or leaves another
phase behind. The phases are counted upwards for that, so that no sequence of steps without a
request leads back to the phase that it has started from.
-/

namespace MoteLink

/-- But for the one tick half a turn away, the ticks ahead are those past the middle by rank. -/
theorem Tick.hasReached_eq_false_iff {t now : Tick} (apart : t - now ≠ 0x80000000) :
    hasReached t now = false ↔ 0x80000000 < rank now t := by
  have ht := t.toNat_lt
  have hnow := now.toNat_lt
  have distance : (t - now).toNat ≠ 0x80000000 := fun same => apart (UInt32.toNat_inj.mp same)
  rw [UInt32.toNat_sub] at distance
  simp only [hasReached, isAfter, rank, Bool.not_eq_false', decide_eq_true_eq,
    UInt32.le_iff_toNat_le, UInt32.lt_iff_toNat_lt, UInt32.toNat_add, UInt32.toNat_sub,
    UInt32.reduceToNat]
  omega

/-- What the first step raises and no step lowers is higher at the end. -/
theorem settle_lt {σ ε α : Type} [Preorder α] {step : σ → Except Halt (Except ε Bool × σ)}
    {I : σ → Prop} {score : σ → α} {rounds : Nat} {s s' : σ} {r : Except ε Unit} (start : I s)
    (keep : ∀ s r s', I s → step s = .ok (r, s') → I s')
    (rises : ∀ s r s', I s → step s = .ok (r, s') → score s ≤ score s')
    (first : ∀ r t, step s = .ok (r, t) → score s < score t)
    (settled : settle step rounds s = .ok (r, s')) : score s < score s' := by
  let higher (t : σ) : Prop := I t ∧ score s < score t
  have begins (r : Except ε Bool) (t : σ) (taken : step s = .ok (r, t)) : higher t :=
    ⟨keep s r t start taken, first r t taken⟩
  have stays (t : σ) (r : Except ε Bool) (u : σ) (above : higher t) (taken : step t = .ok (r, u)) :
      higher u :=
    ⟨keep t r u above.1 taken, lt_of_lt_of_le above.2 (rises t r u above.1 taken)⟩
  have ends : higher s' := settle_after_first begins stays settled
  exact ends.2

namespace Link

variable {ρ γ ε : Type} {now : Tick}

/-! ## The queue -/

/-- From the next send time on a packet is put in flight. -/
theorem Outbox.startNext_of_nextSendAt {o : Outbox} {deadline : Tick} (grounded : o.flying = [])
    (next : o.nextSendAt now = some deadline) (reached : Tick.hasReached deadline now = true) :
    o.startNext now ≠ none := by
  intro idle
  have ahead := isAfter_of_nextSendAt grounded idle next
  simp [Tick.hasReached, ahead] at reached

/-- Before the next send time no packet is put in flight. -/
theorem Outbox.startNext_of_early {o : Outbox}
    (apart : ∀ p ∈ o.queued, p.descriptor.sendAt - now ≠ 0x80000000)
    (early : ∀ deadline, o.nextSendAt now = some deadline →
      Tick.hasReached deadline now = false) : o.startNext now = none := by
  apply startNext_eq_none_iff.mpr
  right
  intro p member
  cases next : o.nextSendAt now with
  | none =>
    have empty : o.queued = [] := by
      simpa [nextSendAt, firstMin?_eq_none] using next
    rw [empty] at member
    cases member
  | some deadline =>
    obtain ⟨among, atLeast⟩ := firstMin?_isMin next
    obtain ⟨q, queued, rfl⟩ := List.mem_map.mp among
    have first := (Tick.hasReached_eq_false_iff (apart q queued)).mp (early _ next)
    have later := atLeast _ (List.mem_map_of_mem member)
    exact (Tick.hasReached_eq_false_iff (apart p member)).mpr (UInt32.lt_of_lt_of_le first later)

theorem Station.takeOutcome_of_quiet {s : Station ρ γ} (quiet : s.outcomes.items = []) :
    s.takeOutcome = (none, s) := by
  simp only [takeOutcome, Fifo.pop_nil quiet]

/-! ## Requests of the radio -/

/-- The requests made of the station's radio. -/
def Station.requests (s : Station (Tally ρ) γ) : Nat := s.radio.requests

section Requests

variable [Transceiver ρ ε] {s s' : Station (Tally ρ) γ} {busy : UInt8} {expiry : Tick}

theorem Station.requests_lt_of_channelClear {answer : Except (LinkError ε) Bool}
    (heard : s.channelClear = (answer, s')) : s.requests < s'.requests := by
  have counted : (s.channelClear (ε := ε)).2.requests = s.requests + 1 := rfl
  rw [heard] at counted
  exact counted ▸ Nat.lt_succ_self _

theorem Station.requests_le_of_transmit {d : Descriptor} {payload : Bytes}
    {result : Except (LinkError ε) Nat} (sent : s.transmit d payload = (result, s')) :
    s.requests ≤ s'.requests := by
  unfold transmit at sent
  split at sent
  · cases sent
    exact Nat.le_refl _
  · cases sent
    exact Nat.le_succ _

variable [RandomSource γ]

/-- Once the backoff is over the radio is asked whether the channel is clear. -/
theorem Station.Sensed.requests_lt {answer : Except (LinkError ε) Access}
    (sensed : s.Sensed expiry busy now answer s') (reached : Tick.hasReached expiry now = true) :
    s.requests < s'.requests := by
  cases sensed with
  | early before =>
    rw [reached] at before
    cases before
  | deaf passed heard => exact requests_lt_of_channelClear heard
  | clear passed heard => exact requests_lt_of_channelClear heard
  | regardless passed heard spent => exact requests_lt_of_channelClear heard
  | again passed heard left drawn =>
    have same := congrArg Tally.requests (radio_of_backOffAgain drawn)
    exact Nat.lt_of_lt_of_eq (requests_lt_of_channelClear heard) same.symm

/-- Sensing leaves the station as it is, and goes on waiting, or asks the radio. -/
theorem Station.Sensed.requests_cases {answer : Except (LinkError ε) Access}
    (sensed : s.Sensed expiry busy now answer s') :
    s.requests < s'.requests ∨
      Tick.hasReached expiry now = false ∧ answer = .ok (.pending expiry busy) ∧ s' = s := by
  by_cases reached : Tick.hasReached expiry now = true
  · exact .inl (sensed.requests_lt reached)
  · right
    have early : Tick.hasReached expiry now = false := by simpa using reached
    cases sensed with
    | early before => exact ⟨before, rfl, rfl⟩
    | deaf passed heard => exact absurd passed reached
    | clear passed heard => exact absurd passed reached
    | regardless passed heard spent => exact absurd passed reached
    | again passed heard left drawn => exact absurd passed reached

end Requests

/-! ## Progress -/

/-- How far a link has come without a request of the radio. -/
def CarrierPhase.progress : CarrierPhase → Nat
  | .idle => 0
  | .backoff _ _ => 1

/-- How far a link has come without a request of the radio. -/
def AckPhase.progress : AckPhase → Nat
  | .awaitingAck _ => 0
  | .idle => 1
  | .retryWait _ => 1
  | .backoff _ _ => 2

/-- The phase that a link with an outbox is in. -/
def phase? : Link ρ γ → Option (CarrierPhase ⊕ AckPhase)
  | .carrierSense m => some (.inl m.phase)
  | .acknowledged m => some (.inr m.phase)
  | _ => none

/-- How far the phase of the link has come. -/
def progress (link : Link ρ γ) : Nat :=
  (link.phase?.map (Sum.elim CarrierPhase.progress AckPhase.progress)).getD 0

/-- The requests made of the link's radio. -/
def requests (link : Link (Tally ρ) γ) : Nat := link.station.requests

/-- Requests made and, where these are the same, how far the phase has come. -/
def score (link : Link (Tally ρ) γ) : Nat ×ₗ Nat := toLex (link.requests, link.progress)

/-- The poll has had work: the link is in another phase, or a request has been made of the radio. -/
def Works (link after : Link (Tally ρ) γ) : Prop :=
  after.phase? ≠ link.phase? ∨ link.requests < after.requests

/-- The link has no deadline, or one that lies ahead. -/
def Early (now : Tick) (link : Link ρ γ) : Prop :=
  ∀ deadline, link.nextDeadline now = some deadline → Tick.hasReached deadline now = false

section Scores

variable {link after : Link (Tally ρ) γ}

theorem score_lt_of_requests (asked : link.requests < after.requests) :
    link.score < after.score :=
  Prod.Lex.toLex_lt_toLex.mpr (.inl asked)

theorem score_lt_of_progress (same : link.requests = after.requests)
    (further : link.progress < after.progress) : link.score < after.score :=
  Prod.Lex.toLex_lt_toLex.mpr (.inr ⟨same, further⟩)

/-- Progress is a request or a change of the phase. -/
theorem works_of_score_lt (higher : link.score < after.score) : link.Works after := by
  rcases Prod.Lex.toLex_lt_toLex.mp higher with asked | ⟨-, further⟩
  · exact .inr asked
  · left
    intro same
    have still : after.progress = link.progress := by rw [progress, same, progress]
    exact absurd further (still ▸ Nat.lt_irrefl _)

end Scores

/-! ### Steps with a packet in flight -/

section Flying

variable [Transceiver ρ ε]

theorem CarrierSense.Attempt.requests_le {m m' : CarrierSense (Tally ρ) γ} {i : Nat} {p : Packet}
    {reason : Option FailureReason} (attempted : Attempt (ε := ε) m i p reason m') :
    m.station.requests ≤ m'.station.requests := by
  cases attempted with
  | @refused e station sent =>
    show m.station.requests ≤ station.requests
    exact Station.requests_le_of_transmit sent
  | @done length station sent =>
    show m.station.requests ≤ station.requests
    exact Station.requests_le_of_transmit sent

theorem Acknowledged.Setback.requests_eq {m m' : Acknowledged (Tally ρ) γ} {i : Nat} {p : Packet}
    {reason : FailureReason} (setback : Setback now m i p reason m') :
    m'.station.requests = m.station.requests ∧ m'.phase.progress = 1 := by
  cases setback with
  | again left => exact ⟨rfl, rfl⟩
  | giveUp spent => exact ⟨rfl, rfl⟩

theorem Acknowledged.Attempt.requests_le {m m' : Acknowledged (Tally ρ) γ} {i : Nat} {p : Packet}
    (attempted : Attempt (ε := ε) now m i p m') : m.station.requests ≤ m'.station.requests := by
  cases attempted with
  | @refused e station m' sent setback =>
    rw [setback.requests_eq.1]
    show m.station.requests ≤ station.requests
    exact Station.requests_le_of_transmit sent
  | @await length station sent asks =>
    show m.station.requests ≤ station.requests
    exact Station.requests_le_of_transmit sent
  | @done length station sent silent =>
    show m.station.requests ≤ station.requests
    exact Station.requests_le_of_transmit sent

variable [RandomSource γ] {r : Except (LinkError ε) Bool}

theorem CarrierSense.Transition.score_cases {m m' : CarrierSense (Tally ρ) γ}
    (busy : m.phase ≠ .idle) (taken : Transition now m r m') :
    (Link.carrierSense m).score < (Link.carrierSense m').score ∨
      (Link.carrierSense m').score = (Link.carrierSense m).score ∧
        (Link.carrierSense m).Early now := by
  cases taken with
  | rest quiet early => exact absurd quiet busy
  | start quiet started drawn => exact absurd quiet busy
  | deaf phase sensed =>
    rcases sensed.requests_cases with asked | ⟨-, waits, -⟩
    · exact .inl (score_lt_of_requests asked)
    · cases waits
  | hold phase sensed =>
    rcases sensed.requests_cases with asked | ⟨before, waits, rfl⟩
    · exact .inl (score_lt_of_requests asked)
    · cases waits
      refine .inr ⟨by simp only [score, requests, progress, phase?, phase, Link.station], ?_⟩
      intro deadline next
      simp only [Link.nextDeadline, nextDeadline, phase] at next
      cases next
      exact before
  | attempt phase sensed found attempted =>
    rcases sensed.requests_cases with asked | ⟨-, waits, -⟩
    · exact .inl (score_lt_of_requests (Nat.lt_of_lt_of_le asked attempted.requests_le))
    · cases waits

theorem Acknowledged.Transition.score_cases {m m' : Acknowledged (Tally ρ) γ}
    (busy : m.phase ≠ .idle) (taken : Transition now m r m') :
    (Link.acknowledged m).score < (Link.acknowledged m').score ∨
      (Link.acknowledged m').score = (Link.acknowledged m).score ∧
        (Link.acknowledged m).Early now := by
  cases taken with
  | rest quiet early => exact absurd quiet busy
  | start quiet started drawn => exact absurd quiet busy
  | deaf phase sensed =>
    rcases sensed.requests_cases with asked | ⟨-, waits, -⟩
    · exact .inl (score_lt_of_requests asked)
    · cases waits
  | hold phase sensed =>
    rcases sensed.requests_cases with asked | ⟨before, waits, rfl⟩
    · exact .inl (score_lt_of_requests asked)
    · cases waits
      refine .inr ⟨by simp only [score, requests, progress, phase?, phase, Link.station], ?_⟩
      intro deadline next
      simp only [Link.nextDeadline, nextDeadline, phase] at next
      cases next
      exact before
  | attempt phase sensed found attempted =>
    rcases sensed.requests_cases with asked | ⟨-, waits, -⟩
    · exact .inl (score_lt_of_requests (Nat.lt_of_lt_of_le asked attempted.requests_le))
    · cases waits
  | await phase before | pause phase before =>
    refine .inr ⟨rfl, ?_⟩
    intro deadline next
    simp only [Link.nextDeadline, nextDeadline, phase] at next
    cases next
    exact before
  | timeout phase passed found setback =>
    obtain ⟨same, further⟩ := setback.requests_eq
    refine .inl (score_lt_of_progress same.symm ?_)
    show m.phase.progress < m'.phase.progress
    rw [further, phase]
    exact Nat.zero_lt_one
  | retry phase passed =>
    refine .inl (score_lt_of_progress rfl ?_)
    show m.phase.progress < 2
    rw [phase]
    exact Nat.one_lt_two

end Flying

/-! ### Polls -/

namespace Queueing

variable {c : Config}

theorem progress_launched {link : Link ρ γ} (queueing : Queueing c link)
    (grounded : link.outbox.flying = []) (station : Station ρ γ) (outbox : Outbox) (expiry : Tick) :
    link.progress < (link.launched station outbox expiry).progress := by
  cases queueing with
  | @carrierSense m served =>
    show m.phase.progress < 1
    rw [served.served.idle_of_flying grounded]
    exact Nat.zero_lt_one
  | @acknowledged m served =>
    show m.phase.progress < 2
    rw [served.toServed.idle_of_flying grounded]
    exact Nat.one_lt_two

variable [Transceiver ρ ε] [RandomSource γ]

/-- A step that finds the deadline passed makes progress; any other one may rest. -/
theorem score_cases {link after : Link (Tally ρ) γ} {r : Except (LinkError ε) Bool}
    (queueing : Queueing c link) (taken : link.step now = .ok (r, after)) :
    link.score < after.score ∨ after.score = link.score ∧ link.Early now := by
  by_cases grounded : link.outbox.flying = []
  · rw [queueing.step_of_grounded grounded] at taken
    split at taken <;> rename_i started
    · cases taken
      refine .inr ⟨rfl, ?_⟩
      intro deadline next
      rw [queueing.nextDeadline_of_grounded grounded] at next
      by_contra reached
      exact Outbox.startNext_of_nextSendAt grounded next (by simpa using reached) started
    · split at taken <;> rename_i drawn
      · cases taken
      · cases taken
        refine .inl (score_lt_of_progress ?_ (queueing.progress_launched grounded _ _ _))
        have same := congrArg Tally.requests (Station.radio_of_firstBackoff drawn)
        cases queueing <;> exact same.symm
  · cases stepped_of_step taken with
    | passThrough m => cases queueing
    | timeSlot m => cases queueing
    | carrierSense stepped =>
      have served : CarrierSense.Served _ := queueing.served
      exact (CarrierSense.transition_of_step served stepped).score_cases
        fun quiet => grounded (served.flying_of_idle quiet)
    | acknowledged stepped =>
      have served : Acknowledged.Served _ := queueing.served
      exact (Acknowledged.transition_of_step served stepped).score_cases
        fun quiet => grounded (served.flying_of_idle quiet)

/-- A poll from the deadline on makes progress. -/
theorem score_lt_of_poll {link after : Link (Tally ρ) γ} {deadline : Tick}
    {result : Except (LinkError ε) (Option Outcome)} (queueing : Queueing c link)
    (next : link.nextDeadline now = some deadline) (reached : Tick.hasReached deadline now = true)
    (polled : link.poll now = .ok (result, after)) : link.score < after.score := by
  obtain ⟨r, rested, settled, ends⟩ := settle_of_poll polled
  have higher : link.score < rested.score := by
    refine settle_lt (I := Queueing c) queueing (fun _ _ _ kept taken => kept.step taken) ?_ ?_
      settled
    · intro s r t kept taken
      rcases kept.score_cases taken with higher | ⟨same, -⟩
      · exact higher.le
      · exact same.ge
    · intro r t taken
      rcases queueing.score_cases taken with higher | ⟨-, early⟩
      · exact higher
      · have before := early deadline next
        rw [reached] at before
        cases before
  cases ends with
  | failed e => exact higher
  | fetched =>
    have same : (rested.setStation rested.station.takeOutcome.2).score = rested.score := by
      cases rested <;> rfl
    rw [same]
    exact higher

/-- A step before the deadline finds nothing to do. -/
theorem step_of_early {link : Link ρ γ} (queueing : Queueing c link)
    (apart : ∀ p ∈ link.outbox.queued, p.descriptor.sendAt - now ≠ 0x80000000)
    (early : link.Early now) : link.step (ε := ε) now = .ok (.ok false, link) := by
  by_cases grounded : link.outbox.flying = []
  · have ahead := early
    unfold Early at ahead
    rw [queueing.nextDeadline_of_grounded grounded] at ahead
    exact queueing.step_of_none grounded (Outbox.startNext_of_early apart ahead)
  · cases queueing with
    | @carrierSense m served =>
      have rests : m.step (ε := ε) now = .ok (.ok false, m) := by
        unfold CarrierSense.step
        cases phase : m.phase with
        | idle => exact absurd (served.served.flying_of_idle phase) grounded
        | backoff expiry busy =>
          have before := early expiry (by
            simp only [Link.nextDeadline, CarrierSense.nextDeadline, phase])
          simp only [Station.assess_of_early busy before, ← phase]
      rw [Link.step, rests]
      rfl
    | @acknowledged m served =>
      have rests : m.step (ε := ε) now = .ok (.ok false, m) := by
        unfold Acknowledged.step
        cases phase : m.phase with
        | idle => exact absurd (served.toServed.flying_of_idle phase) grounded
        | backoff expiry busy =>
          have before := early expiry (by
            simp only [Link.nextDeadline, Acknowledged.nextDeadline, phase])
          simp only [Station.assess_of_early busy before, ← phase]
        | awaitingAck expiry | retryWait expiry =>
          have before := early expiry (by
            simp only [Link.nextDeadline, Acknowledged.nextDeadline, phase])
          simp [before]
      rw [Link.step, rests]
      rfl

end Queueing

/-! ## With the longest backoff -/

theorem flying_cancel {link : Link ρ γ} (grounded : link.outbox.flying = []) (seq : UInt8) :
    (link.cancel seq).2.outbox.flying = [] := by
  rw [cancel_eq]
  cases removed : link.outbox.remove seq with
  | none => exact grounded
  | some entry =>
    dsimp only
    rw [outbox_without removed]
    rcases Outbox.remove_cases removed with ⟨p, -, same, -⟩ | ⟨p, -, fewer, -⟩
    · exact same.trans grounded
    · rw [grounded] at fewer
      cases fewer

theorem Acknowledged.Reception.phase_eq [Transceiver ρ ε] {m m' : Acknowledged ρ γ} {frame : Bytes}
    {delivery : Option Delivery} (quiet : m.phase = .idle)
    (received : Reception m frame delivery m') : m'.phase = .idle := by
  cases received with
  | ignored unheard => exact quiet
  | @acknowledgement d heard isAck =>
    have learned : (m.learn d.descriptor.prevHop).phase = .idle := by rw [phase_learn, quiet]
    simp only [handleAck, learned]
  | answered heard isData asks here =>
    show (m.learn _).phase = .idle
    rw [phase_learn, quiet]
  | delivered heard isData silent => rw [phase_learn, quiet]

theorem Queueing.flying_receive [Transceiver ρ ε] {c : Config} {link : Link ρ γ}
    (queueing : Queueing c link) (grounded : link.outbox.flying = []) (frame : Bytes) :
    (link.receive (ε := ε) frame).2.outbox.flying = [] := by
  cases queueing with
  | @carrierSense m served => exact grounded
  | @acknowledged m served =>
    have received := m.reception_receive (ε := ε) frame
    have quiet := received.phase_eq (served.toServed.idle_of_flying grounded)
    exact (received.served served.toServed).1.flying_of_idle quiet

/-- A link with an outbox of either kind that has never started a packet if it is configured for
    the longest backoff, for which none can be drawn. -/
structure Pollable (c : Config) (link : Link ρ γ) : Prop where
  queueing : Queueing c link
  unstarted : c.maxInitialBackoff = Tick.longest → link.outbox.flying = []

namespace Pollable

variable {c : Config} {link after : Link ρ γ}

theorem new {method : Method} (queues : method = .carrierSense ∨ method = .acknowledged)
    (capacity : Nat) (config : Config) (radio : ρ) (rng : γ) :
    Pollable config (.new method capacity config radio rng) := by
  refine ⟨.new queues capacity config radio rng, fun _ => ?_⟩
  rcases queues with rfl | rfl <;> exact Outbox.flying_empty capacity

theorem setRadio (pollable : Pollable c link) (radio : ρ) : Pollable c (link.setRadio radio) := by
  refine ⟨pollable.queueing.setRadio radio, ?_⟩
  rw [outbox_setRadio]
  exact pollable.unstarted

variable [Transceiver ρ ε] [RandomSource γ]

theorem step {r : Except (LinkError ε) Bool} (pollable : Pollable c link)
    (taken : link.step now = .ok (r, after)) : Pollable c after := by
  refine ⟨pollable.queueing.step taken, fun longest => ?_⟩
  have grounded := pollable.unstarted longest
  cases started : link.outbox.startNext now with
  | none =>
    rw [pollable.queueing.step_of_none grounded started] at taken
    cases taken
    exact grounded
  | some entry =>
    rw [pollable.queueing.step_of_longest grounded longest (started ▸ Option.some_ne_none _)]
      at taken
    cases taken

theorem perform {call : Call} {answer : Answer ε} (pollable : Pollable c link)
    (performed : link.perform now call = .ok (answer, after)) : Pollable c after := by
  have kept := (pollable.queueing.perform performed).1
  cases submits : link.submission? call with
  | some packet =>
    obtain ⟨result, -, submitted⟩ := pollable.queueing.submitted submits performed
    exact ⟨kept, fun longest => submitted.outbox.1.trans (pollable.unstarted longest)⟩
  | none =>
    cases call with
    | send dst payload | submit d payload => cases submits
    | receive frame =>
      cases performed
      exact ⟨kept, fun longest =>
        pollable.queueing.flying_receive (pollable.unstarted longest) frame⟩
    | poll =>
      obtain ⟨result, -, polled⟩ := exists_poll_of_perform performed
      obtain ⟨r, rested, reached, ends⟩ := exists_rested_of_poll (Pollable c)
        (fun _ _ _ sofar taken => sofar.step taken) pollable polled
      cases ends with
      | failed e => exact reached
      | fetched =>
        refine ⟨kept, ?_⟩
        rw [outbox_setStation]
        exact reached.unstarted
    | cancel seq =>
      cases performed
      exact ⟨kept, fun longest => flying_cancel (pollable.unstarted longest) seq⟩

theorem poll_of_early (pollable : Pollable c link) (quiet : link.station.outcomes.items = [])
    (apart : ∀ p ∈ link.outbox.queued, p.descriptor.sendAt - now ≠ 0x80000000)
    (early : link.Early now) : link.poll (ε := ε) now = .ok (.ok none, link) := by
  rw [poll_of_rest (pollable.queueing.step_of_early apart early),
    Station.takeOutcome_of_quiet quiet, setStation_station]

theorem poll_of_longest (pollable : Pollable c link) {deadline : Tick}
    (longest : c.maxInitialBackoff = Tick.longest) (next : link.nextDeadline now = some deadline)
    (reached : Tick.hasReached deadline now = true) :
    link.poll (ε := ε) now = .error .overflow := by
  have grounded := pollable.unstarted longest
  rw [pollable.queueing.nextDeadline_of_grounded grounded] at next
  have ready := Outbox.startNext_of_nextSendAt grounded next reached
  exact poll_of_halt (pollable.queueing.step_of_longest grounded longest ready)

/-- Where a backoff can be drawn a poll from the deadline on returns and has had work. -/
theorem works {link : Link (Tally ρ) γ} (pollable : Pollable c link) {deadline : Tick}
    (bounded : c.maxInitialBackoff ≠ Tick.longest)
    (next : link.nextDeadline now = some deadline) (reached : Tick.hasReached deadline now = true) :
    ∃ result after, link.poll (ε := ε) now = .ok (result, after) ∧ link.Works after := by
  rcases polled : link.poll (ε := ε) now with halt | ⟨result, after⟩
  · exact absurd (pollable.queueing.poll_eq_error polled).2 bounded
  · exact ⟨result, after, rfl,
      works_of_score_lt (pollable.queueing.score_lt_of_poll next reached polled)⟩

end Pollable

variable [Transceiver ρ ε] [RandomSource γ] {method : Method} {capacity : Nat} {config : Config}

/-- All through a run a link with an outbox can be told when to be polled. -/
theorem pollable_of_run {start : ρ} {rng : γ} {history : List (Event ρ ε)} {link : Link ρ γ}
    (queues : method = .carrierSense ∨ method = .acknowledged)
    (run : Run (.new method capacity config start rng) history link) : Pollable config link := by
  refine run.invariant (Pollable config) (.new queues capacity config start rng) ?_ ?_
  · intro link radio pollable
    exact pollable.setRadio radio
  · intro link now call answer after pollable performed
    exact pollable.perform performed

variable {radio : Tally ρ} {rng : γ} {history : List (Event (Tally ρ) ε)} {link : Link (Tally ρ) γ}

/-- A link that has an outbox and no outcome to tell, in any state that a run can bring it to and
    over any radio, at a tick from which no queued packet is due in exactly half a turn. Where the
    link has no deadline, or one that lies ahead, a poll tells nothing and leaves all of the link as
    it is. Once the deadline has passed a poll returns and has had work; with the longest backoff,
    for which none can be drawn, it never returns. -/
theorem poll_of_deadline (queues : method = .carrierSense ∨ method = .acknowledged)
    (run : Run (ε := ε) (.new method capacity config radio rng) history link) (found : Tally ρ)
    (now : Tick) (quiet : link.station.outcomes.items = [])
    (apart : ∀ p ∈ link.outbox.queued, p.descriptor.sendAt - now ≠ 0x80000000) :
    ((∀ deadline, (link.setRadio found).nextDeadline now = some deadline →
        Tick.hasReached deadline now = false) →
      (link.setRadio found).poll (ε := ε) now = .ok (.ok none, link.setRadio found)) ∧
    ∀ deadline, (link.setRadio found).nextDeadline now = some deadline →
      Tick.hasReached deadline now = true →
      ((∃ result after, (link.setRadio found).poll (ε := ε) now = .ok (result, after) ∧
        (link.setRadio found).Works after) ↔ config.maxInitialBackoff ≠ Tick.longest) := by
  have pollable := (pollable_of_run queues run).setRadio found
  refine ⟨?_, ?_⟩
  · intro early
    have still : (link.setRadio found).station.outcomes.items = [] := by
      rw [setRadio, station_setStation]
      exact quiet
    rw [← outbox_setRadio link found] at apart
    exact pollable.poll_of_early still apart early
  · intro deadline next passed
    constructor
    · rintro ⟨result, after, polled, -⟩ longest
      rw [pollable.poll_of_longest longest next passed] at polled
      cases polled
    · intro bounded
      exact pollable.works bounded next passed

/-- A link with one place whose backoffs have the given bound, on a radio that counts. -/
def countedLink (method : Method) (maxInitialBackoff : UInt32) : Link (Tally Bench) StepGenerator :=
  .new method 1 { address := .short 1, maxInitialBackoff } { radio := {} } ⟨0, 0⟩

/-- A packet to be sent at tick 9 is left alone at tick 5 and taken up at tick 9. -/
theorem poll_of_deadline_later :
    ∃ (history : List (Event (Tally Bench) BenchError)) (link : Link (Tally Bench) StepGenerator),
      Run (countedLink .acknowledged 30) history link ∧ link.nextDeadline 5 = some 9 ∧
        link.poll 5 = .ok (.ok none, link) ∧ link.nextDeadline 9 = some 9 ∧
        ∃ result after, link.poll (ε := BenchError) 9 = .ok (result, after) ∧ link.Works after := by
  have run : Run (ε := BenchError) (countedLink .acknowledged 30) _ (.acknowledged _) :=
    run_of_replay [(5, id, .submit { dst := .short 2, sendAt := 9 } [7])] rfl
  have before := (poll_of_deadline (.inr rfl) run { radio := {} } 5 rfl (by decide)).1
  have since := (poll_of_deadline (.inr rfl) run { radio := {} } 9 rfl (by decide)).2
  refine ⟨_, _, run, rfl, before ?_, rfl, (since 9 rfl (by decide)).mpr (by decide)⟩
  intro deadline next
  cases next
  decide

/-- With the longest backoff a packet is due and the poll that the deadline asks for halts. -/
theorem halts_of_longest_backoff :
    ∃ (history : List (Event (Tally Bench) BenchError)) (link : Link (Tally Bench) StepGenerator),
      Run (countedLink .carrierSense 0xffffffff) history link ∧
        link.station.outcomes.items = [] ∧
        (∀ p ∈ link.outbox.queued, p.descriptor.sendAt - 0 ≠ 0x80000000) ∧
        link.nextDeadline 0 = some 0 ∧ Tick.hasReached 0 0 = true ∧
        link.poll (ε := BenchError) 0 = .error .overflow := by
  have run : Run (ε := BenchError) (countedLink .carrierSense 0xffffffff) _ (.carrierSense _) :=
    run_of_replay [(0, id, .send (.short 2) [7])] rfl
  exact ⟨_, _, run, rfl, by decide, rfl, by decide, rfl⟩

end Link

end MoteLink
