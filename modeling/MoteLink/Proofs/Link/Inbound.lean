import MoteLink.Proofs.Header.Canonical
import MoteLink.Proofs.Link.Acknowledged.Call
import MoteLink.Proofs.Link.Recording
import MoteLink.Radio.Bench

/-!
# What a frame brings

Whatever a link has been through, and whichever of the addressed methods it uses, its address alone
says what a frame brings. Taking a frame in changes nothing in a link that does not acknowledge. One
that does asks its radio for one transmission where it delivers a packet that was sent to it and
asks for that, and for none otherwise.
-/

namespace MoteLink

/-- The payload is what stands behind the header. -/
theorem Descriptor.payload_of_read? {frame payload : Bytes} {d : Descriptor}
    (found : read? frame = some (d, payload)) : payload = frame.drop d.headerLength := by
  obtain ⟨told, rfl, length, -⟩ := rewritten_of_read? found
  rw [← length, List.drop_left]

namespace Link

variable {ρ σ τ γ δ ζ ε η θ : Type}

/-- What a frame brings to the node with this address: the packet that it tells, if that is for the
    node or for all and acknowledges nothing. -/
def inbound? (address : Address) (frame : Bytes) : Option Delivery :=
  match Descriptor.decode frame with
  | .error _ => none
  | .ok (d, n) =>
    if (d.nextHop = address ∨ d.nextHop.isBroadcast = true) ∧ d.flags.isAck = false then
      some { descriptor := d, payload := frame.drop n }
    else none

namespace Station

/-- What has been heard, without the acknowledgements. -/
theorem filter_listen (s : Station ρ γ) (frame : Bytes) :
    ((s.listen frame).filter fun d => !d.descriptor.flags.isAck) =
      inbound? s.config.address frame := by
  unfold listen inbound? Descriptor.decode
  cases found : Descriptor.read? frame with
  | none => rfl
  | some read =>
    obtain ⟨d, payload⟩ := read
    obtain rfl := Descriptor.payload_of_read? found
    have heard := s.hears_iff d.nextHop
    by_cases here : s.hears d.nextHop = true
    · simp only [here, heard.mp here, ↓reduceIte, true_and]
      cases isAck : d.flags.isAck <;> simp [isAck]
    · simp only [here, mt heard.mpr here, false_and, ↓reduceIte, Bool.false_eq_true]
      rfl

/-- The transmission answers a packet: it is an acknowledgement with no payload, and whoever hears
    it reads that it is for the node by which the packet has come, from this one, with the packet's
    sequence number. -/
structure Answers (s : Station ρ γ) (d : Descriptor) (t : Transmission) : Prop where
  encoded : (s.ackFor d).encodeWithin maxHeaderLength = .ok t.header
  payload : t.payload = []
  decoded : ∃ ack, Descriptor.decode t.frame = .ok (ack, t.header.length) ∧
    ack.flags.isAck = true ∧ ack.seq = d.seq ∧ ack.nextHop = d.prevHop ∧
    ack.prevHop = s.config.address

/-- What has been read off a frame for this node can be acknowledged. -/
theorem answers_ackFor (s : Station ρ γ) {frame payload : Bytes} {d : Descriptor}
    (found : Descriptor.read? frame = some (d, payload)) (here : d.nextHop = s.config.address)
    (taken : Bool) : s.Answers d ⟨(s.ackFor d).headerBytes, [], taken⟩ := by
  have sound := s.layoutError?_ackFor (Descriptor.layoutError?_of_read? found) here
  constructor
  case encoded =>
    exact Descriptor.encodeWithin_eq_ok_iff.mpr
      ⟨sound, Descriptor.length_headerBytes_le sound, rfl⟩
  case payload => rfl
  case decoded =>
    refine ⟨(s.ackFor d).onAir (s.ackFor d).headerBytes.length, ?_, rfl, rfl, ?_, ?_⟩
    · rw [Descriptor.decode, Transmission.frame, Descriptor.read?_headerBytes sound]
      rfl
    · exact Address.orElse_unspecified d.prevHop
    · exact Address.orElse_unspecified s.config.address

end Station

namespace Acknowledged

theorem radio_handleAck (m : Acknowledged ρ γ) (ack : Descriptor) :
    (m.handleAck ack).station.radio = m.station.radio := by
  have finished : (m.finish none).station.radio = m.station.radio := by
    unfold finish
    dsimp only
    split <;> rfl
  unfold handleAck
  split
  · split
    · exact finished
    · rfl
  · rfl

/-- What is done to the radio when a frame comes in that brings this: a packet that was sent to this
    node and asks for it is answered, and nothing else is. -/
structure Replies [Transceiver ρ ε] (s s' : Station (Recorder ρ) γ) (delivery : Option Delivery) :
    Prop where
  once : ∀ d, delivery = some d → d.descriptor.flags.ackRequested = true →
    d.descriptor.nextHop = s.config.address → ∃ t, s.Answers d.descriptor t ∧
      s'.record = s.record ++ [t] ∧
      s'.radio = (Transceiver.send (ε := ε) s.radio t.header t.payload).2
  never : (∀ d, delivery = some d → ¬(d.descriptor.flags.ackRequested = true ∧
    d.descriptor.nextHop = s.config.address)) → s'.radio = s.radio

/-- Of what the link does with a frame only the answer reaches the radio. -/
theorem Reception.replies [Transceiver ρ ε] {m m' : Acknowledged (Recorder ρ) γ} {frame : Bytes}
    {delivery : Option Delivery} (received : Reception (ε := ε) m frame delivery m') :
    delivery = inbound? m.station.config.address frame ∧
      Replies (ε := ε) m.station m'.station delivery := by
  rw [← m.station.filter_listen frame]
  cases received with
  | ignored unheard =>
    rw [unheard]
    exact ⟨rfl, fun _ => nofun, fun _ => rfl⟩
  | @acknowledgement d heard isAck =>
    rw [heard, Option.filter_some_neg (by simp [isAck])]
    refine ⟨rfl, fun _ => nofun, fun _ => ?_⟩
    rw [radio_handleAck, station_learn]
  | @answered d heard isData asks here =>
    rw [heard, Option.filter_some_pos (by simp [isData])]
    obtain ⟨found, -⟩ := m.station.listen_eq_some_iff.mp heard
    have sound := m.station.layoutError?_ackFor (Descriptor.layoutError?_of_read? found) here
    refine ⟨rfl, ?_, fun silent => absurd ⟨asks, here⟩ (silent d rfl)⟩
    rintro _ ⟨⟩ - -
    exact ⟨_, m.station.answers_ackFor found here _, Station.record_sendAck (ε := ε) sound,
      m.station.radio_transmit (ε := ε) sound []⟩
  | @delivered d heard isData silent =>
    rw [heard, Option.filter_some_pos (by simp [isData])]
    refine ⟨rfl, ?_, fun _ => by rw [station_learn]⟩
    rintro _ ⟨⟩ asks here
    exact absurd ⟨asks, here⟩ silent

end Acknowledged

section Agreement

variable [Transceiver ρ ε] [Transceiver σ η] [Transceiver τ θ] [RandomSource γ] [RandomSource δ]
  [RandomSource ζ]

/-- Three links with one address, each with another method and in any state, answer to a frame that
    it brings the same, and none of them fails. Only the one that acknowledges changes, and of what
    happens to its radio `Replies` tells all. -/
theorem receive_eq_inbound {address : Address} {a : CarrierSense ρ γ}
    {b : Acknowledged (Recorder σ) δ} {c : TimeSlot τ ζ}
    (carrierAddress : a.station.config.address = address)
    (ackAddress : b.station.config.address = address)
    (slotAddress : c.station.config.address = address) (now : Tick) (frame : Bytes) :
    (Link.carrierSense a).perform (ε := ε) now (.receive frame) =
        .ok (.received (inbound? address frame), .carrierSense a) ∧
      (Link.timeSlot c).perform (ε := θ) now (.receive frame) =
        .ok (.received (inbound? address frame), .timeSlot c) ∧
      ∃ b' : Acknowledged (Recorder σ) δ,
        (Link.acknowledged b).perform (ε := η) now (.receive frame) =
          .ok (.received (inbound? address frame), .acknowledged b') ∧
        Acknowledged.Replies (ε := η) b.station b'.station (inbound? address frame) := by
  have first := a.station.filter_listen frame
  have third := c.station.filter_listen frame
  obtain ⟨second, replies⟩ := (b.reception_receive (ε := η) frame).replies
  rw [carrierAddress] at first
  rw [slotAddress] at third
  rw [ackAddress] at second
  rw [second] at replies
  refine ⟨?_, ?_, (b.receive (ε := η) frame).2, ?_, replies⟩
  · rw [← first]
    rfl
  · rw [← third]
    rfl
  · rw [← second]
    rfl

/-- A packet that node 3 has relayed from node 1 and that asks to be acknowledged. -/
def relayedFrame : Bytes :=
  Descriptor.headerBytes
      { src := .short 1, dst := .short 7, hopSrc := .short 3, seq := 9,
        flags := { ackRequested := true } } ++ [1, 2, 3]

/-- The packet is delivered by all three, and the acknowledgement goes to node 3. -/
theorem receive_eq_inbound_relayed :
    let a : CarrierSense Bench StepGenerator :=
      { station := { config := { address := .short 7 }, radio := {}, rng := ⟨0, 0⟩ },
        outbox := .empty 1 }
    let b : Acknowledged (Recorder Bench) StepGenerator :=
      { station := { config := { address := .short 7 }, radio := ⟨{}, []⟩, rng := ⟨0, 0⟩ },
        outbox := .empty 1 }
    let c : TimeSlot Bench StepGenerator :=
      { station := { config := { address := .short 7 }, radio := {}, rng := ⟨0, 0⟩ } }
    ∃ delivery b', inbound? (.short 7) relayedFrame = some delivery ∧
      delivery.payload = [1, 2, 3] ∧
      (Link.carrierSense a).perform (ε := BenchError) 0 (.receive relayedFrame) =
        .ok (.received (some delivery), .carrierSense a) ∧
      (Link.timeSlot c).perform (ε := BenchError) 0 (.receive relayedFrame) =
        .ok (.received (some delivery), .timeSlot c) ∧
      (Link.acknowledged b).perform (ε := BenchError) 0 (.receive relayedFrame) =
        .ok (.received (some delivery), .acknowledged b') ∧
      ∃ t ack, b'.station.record = [t] ∧
        Descriptor.decode t.frame = .ok (ack, t.header.length) ∧ ack.nextHop = .short 3 := by
  intro a b c
  obtain ⟨first, third, b', second, replies⟩ := receive_eq_inbound (a := a) (b := b) (c := c)
    (ε := BenchError) (η := BenchError) (θ := BenchError) rfl rfl rfl 0 relayedFrame
  obtain ⟨t, answers, written, -⟩ := replies.once _ rfl rfl rfl
  obtain ⟨ack, decoded, -, -, next, -⟩ := answers.decoded
  exact ⟨_, b', rfl, rfl, first, third, second, t, ack, written, decoded, next⟩

end Agreement

end Link

end MoteLink
