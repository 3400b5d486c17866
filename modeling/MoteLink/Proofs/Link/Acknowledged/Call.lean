import MoteLink.Proofs.Link.Acknowledged.Step
import MoteLink.Proofs.Link.Run

/-!
# Calls of an acknowledged link

`Performs` lists what each call does to an acknowledged link and `Reception` what a frame does.
A plain `send` is no case of its own: it submits a descriptor that the link makes up.
-/

namespace MoteLink.Link

namespace Acknowledged

variable {ρ γ ε : Type} [Transceiver ρ ε]

/-- What a received frame brings and what it does to the link. -/
inductive Reception (m : Acknowledged ρ γ) (frame : Bytes) :
    Option Delivery → Acknowledged ρ γ → Prop
  | ignored (unheard : m.station.listen frame = none) : Reception m frame none m
  | acknowledgement {d : Delivery} (heard : m.station.listen frame = some d)
      (isAck : d.descriptor.flags.isAck = true) :
      Reception m frame none ((m.learn d.descriptor.prevHop).handleAck d.descriptor)
  | answered {d : Delivery} (heard : m.station.listen frame = some d)
      (isData : d.descriptor.flags.isAck = false)
      (asks : d.descriptor.flags.ackRequested = true)
      (here : d.descriptor.nextHop = m.station.config.address) :
      Reception m frame (some d)
        { m.learn d.descriptor.prevHop with station := (m.station.sendAck d.descriptor).2 }
  | delivered {d : Delivery} (heard : m.station.listen frame = some d)
      (isData : d.descriptor.flags.isAck = false)
      (silent : ¬(d.descriptor.flags.ackRequested = true ∧
        d.descriptor.nextHop = m.station.config.address)) :
      Reception m frame (some d) (m.learn d.descriptor.prevHop)

/-- What a call answers and what it does to the link. -/
inductive Performs [RandomSource γ] (m : Acknowledged ρ γ) (now : Tick) :
    Call → Answer ε → Acknowledged ρ γ → Prop
  | submit {call : Call} {d : Descriptor} {payload : Bytes}
      (submits : (Link.acknowledged m).submission? call = some (d, payload)) :
      Performs m now call (.submitted (m.submit d payload).1) (m.submit (ε := ε) d payload).2
  | receive {frame : Bytes} {delivery : Option Delivery} {m' : Acknowledged ρ γ}
      (received : Reception m frame delivery m') :
      Performs m now (.receive frame) (.received delivery) m'
  | poll {result : Except (LinkError ε) (Option Outcome)} {m' : Acknowledged ρ γ}
      (polled : m.poll now = .ok (result, m')) : Performs m now .poll (.polled result) m'
  | cancel (seq : UInt8) :
      Performs m now (.cancel seq) (.cancelled (m.cancel seq).1) (m.cancel seq).2

variable {m : Acknowledged ρ γ}

@[simp] theorem station_learn (m : Acknowledged ρ γ) (a : Address) :
    (m.learn a).station = m.station := by
  unfold learn
  split <;> rfl

@[simp] theorem outbox_learn (m : Acknowledged ρ γ) (a : Address) :
    (m.learn a).outbox = m.outbox := by
  unfold learn
  split <;> rfl

@[simp] theorem phase_learn (m : Acknowledged ρ γ) (a : Address) :
    (m.learn a).phase = m.phase := by
  unfold learn
  split <;> rfl

omit [Transceiver ρ ε] in
/-- A submission leaves the phase alone. -/
theorem submitted_submit (m : Acknowledged ρ γ) (d : Descriptor) (payload : Bytes) :
    m.station.Submitted (ε := ε) m.outbox d payload (m.submit d payload).1
        (m.submit (ε := ε) d payload).2.station (m.submit (ε := ε) d payload).2.outbox ∧
      (m.submit (ε := ε) d payload).2.phase = m.phase := by
  unfold submit
  split <;> rename_i prepared
  · exact ⟨.unfit prepared, rfl⟩
  · split <;> rename_i placed
    · exact ⟨.full prepared placed, rfl⟩
    · exact ⟨.accepted prepared placed, rfl⟩

theorem reception_receive (m : Acknowledged ρ γ) (frame : Bytes) :
    Reception m frame (m.receive frame).1 (m.receive frame).2 := by
  unfold receive
  cases heard : m.station.listen frame with
  | none => exact .ignored heard
  | some d =>
    by_cases isAck : d.descriptor.flags.isAck = true
    · simp only [isAck, ↓reduceIte]
      exact .acknowledgement heard isAck
    · simp only [isAck, Bool.false_eq_true, ↓reduceIte, station_learn]
      by_cases answer : d.descriptor.flags.ackRequested &&
          d.descriptor.nextHop == m.station.config.address
      · rw [if_pos answer]
        rw [Bool.and_eq_true, beq_iff_eq] at answer
        exact .answered heard (by simpa using isAck) answer.1 answer.2
      · rw [if_neg answer]
        rw [Bool.and_eq_true, beq_iff_eq] at answer
        exact .delivered heard (by simpa using isAck) answer

variable [RandomSource γ]

theorem perform_poll_eq_ok {now : Tick} {result : Except (LinkError ε) (Option Outcome)}
    {m' : Acknowledged ρ γ} (polled : m.poll now = .ok (result, m')) :
    (Link.acknowledged m).perform now .poll = .ok (.polled result, .acknowledged m') := by
  simp only [perform, Link.poll, polled, Except.map]
  rfl

theorem perform_poll_eq_error {now : Tick} {halt : Halt}
    (halted : m.poll (ε := ε) now = .error halt) :
    (Link.acknowledged m).perform (ε := ε) now .poll = .error halt := by
  simp only [perform, Link.poll, halted, Except.map]

theorem performs_of_perform {now : Tick} {call : Call} {answer : Answer ε} {after : Link ρ γ}
    (performed : (Link.acknowledged m).perform now call = .ok (answer, after)) :
    ∃ m', after = .acknowledged m' ∧ Performs m now call answer m' := by
  cases call with
  | send dst payload =>
    cases performed
    exact ⟨_, rfl, .submit rfl⟩
  | submit d payload =>
    cases performed
    exact ⟨_, rfl, .submit rfl⟩
  | receive frame =>
    cases performed
    exact ⟨_, rfl, .receive (m.reception_receive frame)⟩
  | poll =>
    cases polled : m.poll now with
    | error halt =>
      rw [perform_poll_eq_error polled] at performed
      cases performed
    | ok result =>
      rw [perform_poll_eq_ok polled] at performed
      cases performed
      exact ⟨_, rfl, .poll polled⟩
  | cancel seq =>
    cases performed
    exact ⟨_, rfl, .cancel seq⟩

end Acknowledged

end MoteLink.Link
