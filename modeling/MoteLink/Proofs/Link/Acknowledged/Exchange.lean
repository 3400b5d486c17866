import MoteLink.Proofs.Link.Acknowledged.Orderly
import MoteLink.Proofs.Link.CallLog.Run

/-!
# The exchange of a packet for its acknowledgement

A packet on its way to a neighbour is answered, and the answer ends the wait at its sender. Two
headers are written and two are read on the way, by nodes that share nothing but the frames: the
addresses must survive both, whichever of them are long and whichever are left out.
-/

namespace MoteLink.Link

/-! ## A packet that waits has been handed to the radio -/

theorem Stage.Leads.handed_of_awaiting {c : Config} {log : List (Tick × Incident)} {p : Packet}
    {failures : Nat} {expiry : Tick}
    (leads : Stage.Leads c .vacant log (.awaiting p failures expiry)) :
    ∃ sent, (sent, .handed p true) ∈ log := by
  generalize wait : Stage.awaiting p failures expiry = s at leads
  cases leads with
  | nil => cases wait
  | @snoc log mid _ entry earlier last =>
    obtain ⟨now, incident⟩ := entry
    cases last with
    | await asks =>
      cases wait
      exact ⟨now, List.mem_append_right _ (List.mem_singleton_self _)⟩
    | refuse =>
      unfold afterFailure at wait
      split at wait <;> cases wait
    | expire passed =>
      unfold afterFailure at wait
      split at wait <;> cases wait
    | _ => cases wait

/-! ## Hearing and answering -/

namespace Station

variable {ρ γ : Type} (s : Station ρ γ) {d : Descriptor}

theorem hears_address : s.hears s.config.address = true := by
  simp [hears]

/-- A node hears what goes to its address, as it has been sent but for what stays in the sender. -/
theorem listen_headerBytes (sound : d.layoutError? = none) (here : d.nextHop = s.config.address)
    (payload : Bytes) :
    s.listen (d.headerBytes ++ payload) = some ⟨d.onAir d.headerBytes.length, payload⟩ := by
  rw [listen_eq_some_iff]
  refine ⟨Descriptor.read?_headerBytes sound payload, ?_⟩
  change s.hears d.nextHop = true
  rw [here]
  exact s.hears_address

end Station

namespace Acknowledged

section Calls

variable {ρ γ ε : Type} {m : Acknowledged ρ γ} {expiry : Tick} {i : Nat} {p : Packet}
  {ack : Descriptor}

/-- The acknowledgement that a packet waits for makes the link let go of it. -/
theorem handleAck_of_acked (phase : m.phase = .awaitingAck expiry)
    (found : m.outbox.inFlight? = some (i, p)) (answers : p.AckedBy ack) :
    m.handleAck ack = m.released i (p.outcome none) := by
  have matching : m.isAckedBy ack = true := by
    simp only [isAckedBy, found, answers.seq, answers.sender, BEq.rfl, Bool.and_self]
  simp only [handleAck, phase, matching, ↓reduceIte]
  exact finish_eq_released found none

variable [Transceiver ρ ε] {frame : Bytes} {d : Delivery}

theorem receive_of_ack (heard : m.station.listen frame = some d)
    (isAck : d.descriptor.flags.isAck = true) :
    m.receive frame = (none, (m.learn d.descriptor.prevHop).handleAck d.descriptor) := by
  simp only [receive, heard, isAck, ↓reduceIte]

theorem receive_of_asks (heard : m.station.listen frame = some d)
    (isData : d.descriptor.flags.isAck = false) (asks : d.descriptor.flags.ackRequested = true)
    (here : d.descriptor.nextHop = m.station.config.address) :
    m.receive frame = (some d, { m.learn d.descriptor.prevHop with
      station := (m.station.sendAck d.descriptor).2 }) := by
  simp only [receive, heard, isData, asks, here, station_learn, Bool.false_eq_true, ↓reduceIte,
    BEq.rfl, Bool.and_self]

end Calls

variable {ρ σ γ δ ε ε' : Type} [Transceiver ρ ε] [Transceiver σ ε'] [RandomSource γ]
  {capacity : Nat} {config : Config} {radio : ρ} {rng : γ} {i : Nat} {p : Packet} {expiry : Tick}

/-- The packet in flight has been handed to the radio while the link waits for its
    acknowledgement. -/
theorem transmission_mem_record {a : Acknowledged (Recorder ρ) γ}
    {history : List (Event (Recorder ρ) ε)}
    (recording : Recording (.new .acknowledged capacity config ⟨radio, []⟩ rng) history
      (.acknowledged a))
    (phase : a.phase = .awaitingAck expiry) (found : a.outbox.inFlight? = some (i, p)) :
    p.transmission true ∈ a.station.record := by
  obtain ⟨records, line, log, trueTo⟩ := exists_log_of_recording (.inr rfl) recording
  have leads : Stage.Leads config _ (courseAt i records) (a.stageAt i) := log.stages rfl i
  rw [stageAt_new, stageAt_of_awaitingAck phase found] at leads
  obtain ⟨sent, handed⟩ := Stage.Leads.handed_of_awaiting leads
  obtain ⟨⟨record, among, -, there⟩, -⟩ := mem_courseAt.mp handed
  have told : a.station.record = _ := trueTo.record
  rw [told]
  exact List.mem_filterMap.mpr ⟨_, mem_timeline.mpr ⟨record, among, rfl, some i, there⟩, rfl⟩

/-- A link that waits for an acknowledgement has transmitted its packet. A node with the address of
    the packet's next hop, in whatever state, delivers the payload on receiving that frame and
    answers with one frame, which makes the link let go of the packet and tell that it is sent. -/
theorem exchange_of_recording {a : Acknowledged (Recorder ρ) γ}
    {history : List (Event (Recorder ρ) ε)}
    (recording : Recording (.new .acknowledged capacity config ⟨radio, []⟩ rng) history
      (.acknowledged a))
    (phase : a.phase = .awaitingAck expiry) (found : a.outbox.inFlight? = some (i, p))
    (mine : p.descriptor.prevHop = config.address) (isData : p.descriptor.flags.isAck = false)
    (room : a.station.outcomes.items.length < a.station.outcomes.capacity)
    (b : Acknowledged (Recorder σ) δ) (neighbour : b.station.config.address = p.descriptor.nextHop)
    (accepts : (Transceiver.send (ε := ε') b.station.radio
      (b.station.ackFor p.descriptor).headerBytes []).1.isOk = true) :
    p.transmission true ∈ a.station.record ∧
      ∃ delivery b' answer a',
        b.receive (p.transmission true).frame = (some delivery, b') ∧
        delivery.payload = p.payload ∧
        b'.station.record = b.station.record ++ [answer] ∧ answer.taken = true ∧
        a.receive answer.frame = (none, a') ∧
        a'.station.radio = a.station.radio ∧ a'.phase = .idle ∧
        a'.outbox.slots = a.outbox.slots.set i .idle ∧
        a'.station.outcomes.items =
          a.station.outcomes.items ++ [.sent p.descriptor.seq p.descriptor.nextHop] := by
  refine ⟨transmission_mem_record recording phase found, ?_⟩
  obtain ⟨records, line, log, -⟩ := exists_log_of_recording (.inr rfl) recording
  have holds := log.holds (holds_new (.inr rfl) capacity config ⟨radio, []⟩ rng)
  have flies := holds.flying_of_inFlight? found
  have sound : p.descriptor.layoutError? = none :=
    (log.leads.tidy Line.tidy_empty).sound p (List.mem_append_left _ (Option.mem_toList.mpr flies))
  obtain ⟨m, same, kept⟩ := servedBy_of_run recording.run
  cases same
  have asks : p.descriptor.flags.ackRequested = true := by
    have fits := kept.fits
    rw [phase] at fits
    obtain ⟨q, one, -, -, needed⟩ := fits
    obtain rfl := Outbox.eq_of_flying one found
    rw [Packet.needsAck, Bool.and_eq_true] at needed
    exact needed.1
  -- The neighbour hears the packet and answers it.
  have heard := b.station.listen_headerBytes sound neighbour.symm p.payload
  have received := receive_of_asks (ε := ε') heard isData asks neighbour.symm
  let ack := b.station.ackFor p.descriptor
  have fits : ack.layoutError? = none := b.station.layoutError?_ackFor sound neighbour.symm
  have written := Station.record_sendAck (ε := ε') (s := b.station) (d := p.descriptor) fits
  rw [accepts] at written
  -- The answer is heard in turn, and is what the packet waits for.
  have back : ack.nextHop = a.station.config.address :=
    mine.trans (congrArg Config.address kept.config.symm)
  have confirmed := receive_of_ack (ε := ε) (a.station.listen_headerBytes fits back []) rfl
  have answers : p.AckedBy (ack.onAir ack.headerBytes.length) := ⟨rfl, rfl, neighbour.symm⟩
  have learned := a.phase_learn ack.prevHop
  have acked := handleAck_of_acked (m := a.learn ack.prevHop) (learned.trans phase)
    (by rw [outbox_learn]; exact found) answers
  change _ = (none, (a.learn ack.prevHop).handleAck (ack.onAir ack.headerBytes.length)) at confirmed
  rw [acked] at confirmed
  refine ⟨_, _, _, _, received, rfl, written, rfl, confirmed, ?_, rfl, ?_, ?_⟩
  · change (a.learn ack.prevHop).station.radio = a.station.radio
    rw [station_learn]
  · change (a.learn ack.prevHop).outbox.slots.set i .idle = _
    rw [outbox_learn]
  · change ((a.learn ack.prevHop).station.outcomes.push (p.outcome none)).items = _
    rw [station_learn]
    exact Fifo.items_push_of_lt _ room

/-- A link that has accepted nothing yet. -/
def fresh (capacity : Nat) (config : Config) (radio : Recorder ρ) (rng : γ) :
    Acknowledged (Recorder ρ) γ where
  station := { config, radio, rng }
  outbox := .empty capacity

/-- A node with a long address sends a packet to node 9 by way of node 2, which acknowledges it. -/
theorem exchange_of_recording_relayed :
    ∃ (history : List (Event (Recorder Bench) BenchError))
      (a a' b' : Acknowledged (Recorder Bench) StepGenerator) (delivery : Delivery)
      (packet answer : Transmission),
      Recording (.new .acknowledged 1
        { address := .long #v[1, 2, 3, 4, 5, 6, 7, 8], longAddresses := true,
          maxInitialBackoff := 0 } ⟨{}, []⟩ ⟨0, 0⟩) history (.acknowledged a) ∧
      a.station.record = [packet] ∧
      (fresh 1 { address := .short 2 } ⟨{}, []⟩ ⟨0, 0⟩).receive packet.frame =
        (some delivery, b') ∧
      delivery.payload = [7] ∧ b'.station.record = [answer] ∧
      a.receive answer.frame = (none, a') ∧ a'.phase = .idle ∧
      a'.station.outcomes.items = [.sent 1 (.short 2)] := by
  have recording : Recording (ε := BenchError) (.new .acknowledged 1
      { address := .long #v[1, 2, 3, 4, 5, 6, 7, 8], longAddresses := true,
        maxInitialBackoff := 0 } (⟨{}, []⟩ : Recorder Bench) (⟨0, 0⟩ : StepGenerator)) _ _ :=
    recording_of_replay [
      (5, id, .submit
        { src := .long #v[1, 2, 3, 4, 5, 6, 7, 8], dst := .short 9, hopDst := .short 2,
          flags := { isLocal := true, ackRequested := true } } [7]),
      (5, id, .poll)] rfl
  obtain ⟨-, delivery, b', answer, a', received, payload, written, -, confirmed, -, idle, -,
      told⟩ :=
    exchange_of_recording (i := 0) recording (rfl : _ = AckPhase.awaitingAck 205) rfl rfl rfl
      (by decide)
      (fresh 1 { address := .short 2 } (⟨{}, []⟩ : Recorder Bench) (⟨0, 0⟩ : StepGenerator)) rfl rfl
  exact ⟨_, _, a', b', delivery, _, answer, recording, rfl, received, payload, written, confirmed,
    idle, told⟩

end Acknowledged

end MoteLink.Link
