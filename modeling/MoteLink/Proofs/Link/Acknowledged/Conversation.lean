import MoteLink.Proofs.Link.Acknowledged.Numbering
import MoteLink.Proofs.Link.CallLog.Origins

/-!
# Two nodes and a channel

Two acknowledged links call and are called in any order. The channel between them may lose, delay,
repeat and reorder what their radios were asked to transmit, but it brings nothing else. Every frame
on it names the node that it comes from; so an acknowledgement that ends a wait at one node comes
from the other one, which has answered, and delivered, the packet with that sequence number.
-/

namespace MoteLink.Link

variable {ρ σ γ δ ε ε' : Type}

/-! ## What a node transmits -/

/-- The packet has been accepted by a plain `send` of the history. -/
structure SentIn (s : Station ρ γ) (history : List (Event ρ ε)) (p : Packet) : Prop where
  asked : ∃ event ∈ history, event.call = .send p.descriptor.dst p.payload ∧
    event.answer = .submitted (.ok p.descriptor.seq)
  plain : ∃ seq headerLength, p.descriptor =
    { s.localDescriptor p.descriptor.dst true with seq, headerLength }
  sound : p.descriptor.layoutError? = none

namespace SentIn

variable {s : Station ρ γ} {history : List (Event ρ ε)} {p : Packet}

theorem prevHop (sent : SentIn s history p) : p.descriptor.prevHop = s.config.address := by
  obtain ⟨seq, headerLength, plain⟩ := sent.plain
  rw [plain]
  rfl

theorem nextHop (sent : SentIn s history p) : p.descriptor.nextHop = p.descriptor.dst := by
  obtain ⟨seq, headerLength, plain⟩ := sent.plain
  rw [plain]
  rfl

theorem isData (sent : SentIn s history p) : p.descriptor.flags.isAck = false := by
  obtain ⟨seq, headerLength, plain⟩ := sent.plain
  rw [plain]
  rfl

/-- A packet to one node asks for an acknowledgement, where the configuration says so. -/
theorem needsAck (sent : SentIn s history p) (unicast : s.config.ackUnicast = true)
    (single : p.descriptor.dst.isBroadcast = false) : p.needsAck = true := by
  obtain ⟨seq, headerLength, plain⟩ := sent.plain
  have asks := congrArg (fun d : Descriptor => d.flags.ackRequested) plain
  simp only [Station.localDescriptor, unicast, single] at asks
  rw [Packet.needsAck, sent.nextHop, asks, single]
  rfl

end SentIn

/-- The frame's contents have been delivered, and are to be answered. -/
structure Answers (s : Station ρ γ) (history : List (Event ρ ε)) (d : Delivery) : Prop where
  asked : ∃ event ∈ history, ∃ frame, event.call = .receive frame ∧
    event.answer = .received (some d) ∧ s.listen frame = some d
  isData : d.descriptor.flags.isAck = false
  here : d.descriptor.nextHop = s.config.address

/-- What a node that submits packets by `send` only has transmitted: packets and answers. -/
inductive Transmits (s : Station ρ γ) (history : List (Event ρ ε)) : Transmission → Prop
  | packet {p : Packet} (taken : Bool) (sent : SentIn s history p) :
      Transmits s history (p.transmission taken)
  | answer {d : Delivery} (taken : Bool) (answers : Answers s history d) :
      Transmits s history ⟨(s.ackFor d.descriptor).headerBytes, [], taken⟩

namespace Transmits

variable {s : Station ρ γ} {history : List (Event ρ ε)} {t : Transmission} {d : Descriptor}
  {payload : Bytes}

/-- What can be read from a frame on the record. -/
theorem read_cases (transmits : Transmits s history t)
    (found : Descriptor.read? t.frame = some (d, payload)) :
    (∃ p, SentIn s history p ∧ d = p.descriptor.onAir p.descriptor.headerBytes.length ∧
        payload = p.payload) ∨
      ∃ delivery headerLength, Answers s history delivery ∧
        d = (s.ackFor delivery.descriptor).onAir headerLength := by
  cases transmits with
  | @packet p taken sent =>
    have written := Descriptor.read?_headerBytes sent.sound p.payload
    rw [show (p.transmission taken).frame = p.descriptor.headerBytes ++ p.payload from rfl,
      written] at found
    cases found
    exact .inl ⟨p, sent, rfl, rfl⟩
  | @answer delivery taken answers =>
    obtain ⟨event, member, frame, call, told, heard⟩ := answers.asked
    obtain ⟨read, -⟩ := s.listen_eq_some_iff.mp heard
    have sound := s.layoutError?_ackFor (Descriptor.layoutError?_of_read? read) answers.here
    have written := Descriptor.read?_headerBytes sound []
    rw [Transmission.frame, written] at found
    cases found
    exact .inr ⟨delivery, _, answers, rfl⟩

/-- Every frame names the node that has transmitted it. -/
theorem prevHop_eq (transmits : Transmits s history t)
    (found : Descriptor.read? t.frame = some (d, payload)) : d.prevHop = s.config.address := by
  rcases transmits.read_cases found with ⟨p, sent, rfl, -⟩ | ⟨delivery, headerLength, -, rfl⟩
  · exact sent.prevHop
  · rfl

/-- A frame that is no acknowledgement carries a packet. -/
theorem packet_of_isData (transmits : Transmits s history t)
    (found : Descriptor.read? t.frame = some (d, payload)) (isData : d.flags.isAck = false) :
    ∃ p, SentIn s history p ∧ p.descriptor.seq = d.seq ∧ p.payload = payload := by
  rcases transmits.read_cases found with ⟨p, sent, rfl, rfl⟩ | ⟨delivery, headerLength, -, rfl⟩
  · exact ⟨p, sent, rfl, rfl⟩
  · cases isData

/-- An acknowledgement goes back to where a delivered packet has come from. -/
theorem answer_of_isAck (transmits : Transmits s history t)
    (found : Descriptor.read? t.frame = some (d, payload)) (isAck : d.flags.isAck = true) :
    ∃ delivery, Answers s history delivery ∧ delivery.descriptor.seq = d.seq ∧
      delivery.descriptor.prevHop = d.nextHop := by
  rcases transmits.read_cases found with ⟨p, sent, rfl, -⟩ | ⟨delivery, headerLength, answers, rfl⟩
  · have isData := sent.isData
    have same : p.descriptor.flags.isAck = true := isAck
    rw [isData] at same
    cases same
  · exact ⟨delivery, answers, rfl, rfl⟩

end Transmits

section OneNode

variable [Transceiver ρ ε] [RandomSource γ] {capacity : Nat} {config : Config} {radio : ρ} {rng : γ}
  {records : List (CallRecord (Recorder ρ) ε Entry)} {reached : Lined ρ γ} {i : Nat} {now : Tick}
  {p : Packet}

/-- What a log says to be accepted has been sent, if there are no other submissions. -/
theorem CallLog.sentIn
    (log : CallLog (.new .acknowledged capacity config ⟨radio, []⟩ rng) records reached)
    (plain : ∀ event ∈ records.map CallRecord.event, ∀ d payload, event.call ≠ .submit d payload)
    (accepted : (now, .accepted p) ∈ courseAt i records) :
    SentIn (new .acknowledged capacity config (⟨radio, []⟩ : Recorder ρ) rng).station
      (records.map CallRecord.event) p := by
  obtain ⟨⟨record, among, -, there⟩, -⟩ := Link.mem_courseAt.mp accepted
  obtain ⟨sound, d, headerLength, submits, told, laid⟩ :=
    (log.written_of_mem among).accepted_origin there
  have member := List.mem_map_of_mem (f := CallRecord.event) among
  have only := plain record.event member
  cases call : record.event.call with
  | send dst payload =>
    rw [call] at submits
    cases submits
    have same : p.descriptor.dst = dst := by rw [laid]; rfl
    refine ⟨⟨record.event, member, ?_, told⟩, ⟨p.descriptor.seq, headerLength, ?_⟩, sound⟩
    · rw [same]
      exact call
    · rw [same]
      exact laid
  | submit d' payload => exact absurd call (only d' payload)
  | receive frame =>
    rw [call] at submits
    cases submits
  | poll =>
    rw [call] at submits
    cases submits
  | cancel seq =>
    rw [call] at submits
    cases submits

/-- Whatever happens to a packet happens to one that has been sent. -/
theorem CallLog.sentIn_of_mem {incident : Incident}
    (log : CallLog (.new .acknowledged capacity config ⟨radio, []⟩ rng) records reached)
    (plain : ∀ event ∈ records.map CallRecord.event, ∀ d payload, event.call ≠ .submit d payload)
    (member : (now, incident) ∈ courseAt i records) (concerns : incident.packet? = some p) :
    SentIn (new .acknowledged capacity config (⟨radio, []⟩ : Recorder ρ) rng).station
      (records.map CallRecord.event) p := by
  have leads := log.stages rfl i
  rw [stageAt_new] at leads
  obtain ⟨earlier, accepted⟩ := Stage.Leads.accepted_of_mem leads member concerns
  exact log.sentIn plain accepted

/-- All that stands on the record is a packet sent or an answer given. -/
theorem CallLog.transmits
    (log : CallLog (.new .acknowledged capacity config ⟨radio, []⟩ rng) records reached)
    (plain : ∀ event ∈ records.map CallRecord.event, ∀ d payload, event.call ≠ .submit d payload)
    {t : Transmission} (member : t ∈ reached.link.record) :
    Transmits (new .acknowledged capacity config (⟨radio, []⟩ : Recorder ρ) rng).station
      (records.map CallRecord.event) t := by
  rw [log.trueTo.record] at member
  obtain ⟨⟨time, incident⟩, among, shown⟩ := List.mem_filterMap.mp member
  cases incident with
  | handed p taken =>
    cases shown
    obtain ⟨i, now, there⟩ := log.mem_courseAt among rfl nofun
    exact .packet taken (log.sentIn_of_mem plain there rfl)
  | replied t =>
    cases shown
    obtain ⟨record, there, -, place, entered⟩ := mem_timeline.mp among
    obtain ⟨frame, d, call, told, heard, isData, here, taken, rfl⟩ :=
      (log.written_of_mem there).reply_origin entered
    exact .answer taken ⟨⟨_, List.mem_map_of_mem there, frame, call, told, heard⟩, isData, here⟩
  | _ => cases shown

/-- A packet to one node that is told to be sent has been acknowledged by that node. -/
theorem CallLog.acked_of_told {seq : UInt8} {dst : Address}
    (log : CallLog (.new .acknowledged capacity config ⟨radio, []⟩ rng) records reached)
    (plain : ∀ event ∈ records.map CallRecord.event, ∀ d payload, event.call ≠ .submit d payload)
    (unicast : config.ackUnicast = true) (single : dst.isBroadcast = false)
    (told : .sent seq dst ∈ (records.map CallRecord.event).filterMap Event.fetched? ++
      reached.link.station.outcomes.items) :
    ∃ p, SentIn (new .acknowledged capacity config (⟨radio, []⟩ : Recorder ρ) rng).station
        (records.map CallRecord.event) p ∧ p.descriptor.seq = seq ∧ p.descriptor.dst = dst ∧
      ∃ event ∈ records.map CallRecord.event, ∃ frame d, event.call = .receive frame ∧
        (new .acknowledged capacity config (⟨radio, []⟩ : Recorder ρ) rng).station.listen frame =
          some d ∧ p.AckedBy d.descriptor := by
  obtain ⟨time, p, reason, ended, outcome⟩ := log.outcome_origin rfl told
  obtain ⟨i, now, there⟩ := log.mem_courseAt ended rfl nofun
  have sent := log.sentIn_of_mem plain there rfl
  have leads := log.stages rfl i
  rw [stageAt_new] at leads
  cases reason with
  | some reason => cases outcome
  | none =>
    obtain ⟨rfl, rfl⟩ := Outcome.sent.inj outcome
    rw [sent.nextHop] at single
    have asks := sent.needsAck unicast single
    rcases Stage.Leads.cause_of_ended leads there with silent | ⟨later, ack, acked, answers⟩
    · rw [asks] at silent
      cases silent
    · obtain ⟨⟨record, among, -, entered⟩, -⟩ := Link.mem_courseAt.mp acked
      obtain ⟨frame, d, call, heard, rfl⟩ := (log.written_of_mem among).acked_origin entered
      exact ⟨p, sent, rfl, sent.nextHop.symm, _, List.mem_map_of_mem among, frame, d, call, heard,
        answers⟩

end OneNode

/-! ## Both nodes -/

/-- One of two radios with these records was asked to transmit the frame. -/
def OnAir (first second : List Transmission) (frame : Bytes) : Prop :=
  ∃ t ∈ first ++ second, t.frame = frame

theorem OnAir.append {first second : List Transmission} {frame : Bytes}
    (known : OnAir first second frame) (more more' : List Transmission) :
    OnAir (first ++ more) (second ++ more') frame := by
  obtain ⟨t, member, same⟩ := known
  refine ⟨t, ?_, same⟩
  rcases List.mem_append.mp member with left | right
  · exact List.mem_append_left _ (List.mem_append_left _ left)
  · exact List.mem_append_right _ (List.mem_append_left _ right)

section OnAir

variable {s : Station ρ γ} {s' : Station σ δ} {history : List (Event ρ ε)}
  {history' : List (Event σ ε')} {first second : List Transmission} {frame : Bytes} {d : Delivery}

/-- An acknowledgement that has come from the other node answers a packet delivered there. -/
theorem answer_of_onAir (onAir : OnAir first second frame)
    (mine : ∀ t ∈ first, Transmits s history t) (others : ∀ t ∈ second, Transmits s' history' t)
    (apart : s.config.address ≠ s'.config.address) (heard : s.listen frame = some d)
    (isAck : d.descriptor.flags.isAck = true)
    (sender : d.descriptor.prevHop = s'.config.address) :
    ∃ delivery, Answers s' history' delivery ∧ delivery.descriptor.seq = d.descriptor.seq ∧
      delivery.descriptor.prevHop = d.descriptor.nextHop := by
  obtain ⟨read, -⟩ := s.listen_eq_some_iff.mp heard
  obtain ⟨t, member, rfl⟩ := onAir
  rcases List.mem_append.mp member with here | there
  · have own := (mine t here).prevHop_eq read
    exact absurd (own.symm.trans sender) apart
  · exact (others t there).answer_of_isAck read isAck

/-- A packet delivered at the other node that has not come from there has been sent by this one. -/
theorem packet_of_onAir (onAir : OnAir first second frame)
    (mine : ∀ t ∈ first, Transmits s history t) (others : ∀ t ∈ second, Transmits s' history' t)
    (heard : s'.listen frame = some d) (isData : d.descriptor.flags.isAck = false)
    (sender : d.descriptor.prevHop ≠ s'.config.address) :
    ∃ p, SentIn s history p ∧ p.descriptor.seq = d.descriptor.seq ∧ p.payload = d.payload := by
  obtain ⟨read, -⟩ := s'.listen_eq_some_iff.mp heard
  obtain ⟨t, member, rfl⟩ := onAir
  rcases List.mem_append.mp member with here | there
  · exact (mine t here).packet_of_isData read isData
  · exact absurd ((others t there).prevHop_eq read) sender

end OnAir

theorem setRadio_radio (link : Link ρ γ) : link.setRadio link.radio = link := by
  cases link <;> rfl

section TwoNodes

variable [Transceiver ρ ε] [Transceiver σ ε'] [RandomSource γ] [RandomSource δ]

/-- Calls of two links in any order. Each one finds the record of its radio untouched, and a frame
    that is received is one that either radio was asked to transmit before. -/
inductive Conversation (home : Link (Recorder ρ) γ) (peer : Link (Recorder σ) δ) :
    List (Event (Recorder ρ) ε ⊕ Event (Recorder σ) ε') → Link (Recorder ρ) γ →
      Link (Recorder σ) δ → Prop
  | start : Conversation home peer [] home peer
  | here {history : List (Event (Recorder ρ) ε ⊕ Event (Recorder σ) ε')}
      {link after : Link (Recorder ρ) γ} {other : Link (Recorder σ) δ}
      (event : Event (Recorder ρ) ε) (earlier : Conversation home peer history link other)
      (untouched : event.radio.record = link.record)
      (carried : ∀ frame, event.call = .receive frame → OnAir link.record other.record frame)
      (performed : (link.setRadio event.radio).perform event.now event.call =
        .ok (event.answer, after)) :
      Conversation home peer (history ++ [.inl event]) after other
  | there {history : List (Event (Recorder ρ) ε ⊕ Event (Recorder σ) ε')}
      {link : Link (Recorder ρ) γ} {other after : Link (Recorder σ) δ}
      (event : Event (Recorder σ) ε') (earlier : Conversation home peer history link other)
      (untouched : event.radio.record = other.record)
      (carried : ∀ frame, event.call = .receive frame → OnAir link.record other.record frame)
      (performed : (other.setRadio event.radio).perform event.now event.call =
        .ok (event.answer, after)) :
      Conversation home peer (history ++ [.inr event]) link after

namespace Conversation

variable {home link : Link (Recorder ρ) γ} {peer other : Link (Recorder σ) δ}
  {history : List (Event (Recorder ρ) ε ⊕ Event (Recorder σ) ε')}

/-- Each node for itself has a recording. -/
theorem left (conversation : Conversation home peer history link other) :
    Recording home (history.filterMap Sum.getLeft?) link := by
  induction conversation with
  | start => exact .start
  | here event earlier untouched carried performed ih =>
    rw [List.filterMap_append]
    exact ih.call event untouched performed
  | there event earlier untouched carried performed ih =>
    rw [List.filterMap_append]
    exact (List.append_nil _).symm ▸ ih

theorem right (conversation : Conversation home peer history link other) :
    Recording peer (history.filterMap Sum.getRight?) other := by
  induction conversation with
  | start => exact .start
  | here event earlier untouched carried performed ih =>
    rw [List.filterMap_append]
    exact (List.append_nil _).symm ▸ ih
  | there event earlier untouched carried performed ih =>
    rw [List.filterMap_append]
    exact ih.call event untouched performed

/-- A call that finds the radio as the link has left it. -/
theorem call {answer : Answer ε} {after : Link (Recorder ρ) γ}
    (earlier : Conversation home peer history link other) (now : Tick) (what : Call)
    (carried : ∀ frame, what = .receive frame → OnAir link.record other.record frame)
    (performed : link.perform now what = .ok (answer, after)) :
    Conversation home peer (history ++ [.inl ⟨now, link.radio, what, answer⟩]) after other := by
  refine earlier.here ⟨now, link.radio, what, answer⟩ rfl carried ?_
  rw [setRadio_radio]
  exact performed

theorem reply {answer : Answer ε'} {after : Link (Recorder σ) δ}
    (earlier : Conversation home peer history link other) (now : Tick) (what : Call)
    (carried : ∀ frame, what = .receive frame → OnAir link.record other.record frame)
    (performed : other.perform now what = .ok (answer, after)) :
    Conversation home peer (history ++ [.inr ⟨now, other.radio, what, answer⟩]) link after := by
  refine earlier.there ⟨now, other.radio, what, answer⟩ rfl carried ?_
  rw [setRadio_radio]
  exact performed

end Conversation

namespace Acknowledged

variable {capacity capacity' : Nat} {config config' : Config} {radio : ρ} {radio' : σ} {rng : γ}
  {rng' : δ} {link : Link (Recorder ρ) γ} {other : Link (Recorder σ) δ}
  {history : List (Event (Recorder ρ) ε ⊕ Event (Recorder σ) ε')} {frame : Bytes}

/-- Every frame received stands on the record of one of the two radios. -/
theorem onAir_of_conversation
    (conversation : Conversation (.new .acknowledged capacity config ⟨radio, []⟩ rng)
      (.new .acknowledged capacity' config' ⟨radio', []⟩ rng') history link other)
    (received : (∃ event ∈ history.filterMap Sum.getLeft?, event.call = .receive frame) ∨
      ∃ event ∈ history.filterMap Sum.getRight?, event.call = .receive frame) :
    OnAir link.record other.record frame := by
  induction conversation with
  | start => rcases received with ⟨event, member, -⟩ | ⟨event, member, -⟩ <;> cases member
  | @here history link after other event earlier untouched carried performed ih =>
    obtain ⟨more, grown⟩ := record_of_perform (.inr rfl) earlier.left untouched performed
    have before : OnAir link.record other.record frame := by
      simp only [List.filterMap_append, List.mem_append] at received
      rcases received with ⟨event', old | last, call⟩ | ⟨event', old | last, call⟩
      · exact ih (.inl ⟨event', old, call⟩)
      · cases List.mem_singleton.mp last
        exact carried frame call
      · exact ih (.inr ⟨event', old, call⟩)
      · cases last
    have later := before.append more []
    rwa [← grown, List.append_nil] at later
  | @there history link other after event earlier untouched carried performed ih =>
    obtain ⟨more, grown⟩ := record_of_perform (.inr rfl) earlier.right untouched performed
    have before : OnAir link.record other.record frame := by
      simp only [List.filterMap_append, List.mem_append] at received
      rcases received with ⟨event', old | last, call⟩ | ⟨event', old | last, call⟩
      · exact ih (.inl ⟨event', old, call⟩)
      · cases last
      · exact ih (.inr ⟨event', old, call⟩)
      · cases List.mem_singleton.mp last
        exact carried frame call
    have later := before.append [] more
    rwa [← grown, List.append_nil] at later

/-- Between two nodes that submit packets by `send` only, at most 255 of them at the one in
    question, and whose addresses differ, no success is told without ground: when an outcome says
    that a packet to the other node is sent, the other node has delivered its payload. This holds at
    every moment of a conversation, hence at the one at which the outcome appears. -/
theorem delivered_of_conversation {seq : UInt8}
    (conversation : Conversation (.new .acknowledged capacity config ⟨radio, []⟩ rng)
      (.new .acknowledged capacity' config' ⟨radio', []⟩ rng') history link other)
    (unicast : config.ackUnicast = true) (apart : config.address ≠ config'.address)
    (single : config'.address.isBroadcast = false)
    (plain : ∀ event ∈ history.filterMap Sum.getLeft?, ∀ d payload, event.call ≠ .submit d payload)
    (plain' : ∀ event ∈ history.filterMap Sum.getRight?, ∀ d payload,
      event.call ≠ .submit d payload)
    (few : ((history.filterMap Sum.getLeft?).countP fun event => event.call.submits) ≤ 255)
    (told : .sent seq config'.address ∈
      (history.filterMap Sum.getLeft?).filterMap Event.fetched? ++ link.station.outcomes.items) :
    ∃ payload,
      (∃ event ∈ history.filterMap Sum.getLeft?, event.call = .send config'.address payload ∧
        event.answer = .submitted (.ok seq)) ∧
      (∀ event ∈ history.filterMap Sum.getLeft?, event.answer = .submitted (.ok seq) →
        event.call = .send config'.address payload) ∧
      ∃ event ∈ history.filterMap Sum.getRight?, ∃ frame delivery, event.call = .receive frame ∧
        event.answer = .received (some delivery) ∧ delivery.payload = payload := by
  obtain ⟨records, line, log, ⟨lefts⟩⟩ := exists_log_of_recording (.inr rfl) conversation.left
  obtain ⟨records', line', log', ⟨rights⟩⟩ := exists_log_of_recording (.inr rfl) conversation.right
  have numbered := numbered_of_run conversation.left.run plain few
  have mine (t : Transmission) (member : t ∈ link.record) :=
    log.transmits (lefts ▸ plain) member
  have others (t : Transmission) (member : t ∈ other.record) :=
    log'.transmits (rights ▸ plain') member
  -- The packet has been acknowledged, by an answer of the other node,
  have acknowledged := log.acked_of_told (lefts ▸ plain) unicast single (lefts ▸ told)
  rw [lefts] at mine acknowledged
  rw [rights] at others
  obtain ⟨p, sent, rfl, dst, event, member, frame, d, call, heard, answers⟩ := acknowledged
  have sender : d.descriptor.prevHop = config'.address := by
    rw [← answers.sender, sent.nextHop, dst]
  obtain ⟨delivery, answered, sameSeq, back⟩ := answer_of_onAir
    (onAir_of_conversation conversation (.inl ⟨event, member, call⟩)) mine others apart heard
    answers.isAck sender
  -- which has delivered a packet of this one
  obtain ⟨event', member', frame', call', told', heard'⟩ := answered.asked
  have origin : delivery.descriptor.prevHop ≠ config'.address := by
    obtain ⟨-, hears⟩ := (Station.listen_eq_some_iff _).mp heard
    intro own
    rw [← back, own, Station.hears, single, Bool.or_false, beq_iff_eq] at hears
    exact apart hears.symm
  obtain ⟨q, sent', sameSeq', payload⟩ := packet_of_onAir
    (onAir_of_conversation conversation (.inr ⟨event', member', call'⟩)) mine others heard'
    answered.isData origin
  -- with the same number, which is therefore the same packet.
  obtain ⟨asked, among, sends, accepted⟩ := sent.asked
  obtain ⟨asked', among', sends', accepted'⟩ := sent'.asked
  rw [sameSeq', sameSeq, ← answers.seq] at accepted'
  obtain rfl := numbered.eq_of_seq among among' accepted accepted'
  have samePayload : q.payload = p.payload := by
    rw [sends] at sends'
    exact (Call.send.inj sends').2.symm
  rw [dst] at sends
  refine ⟨p.payload, ⟨asked, among, sends, accepted⟩, ?_, event', member', frame', delivery, call',
    told', payload.symm.trans samePayload⟩
  intro other there acceptedThere
  rw [numbered.eq_of_seq there among acceptedThere accepted]
  exact sends

/-- Node 1 sends a packet, which arrives twice. It takes note of the first of the answers. -/
theorem delivered_of_conversation_repeated :
    ∃ (history : List (Event (Recorder Bench) BenchError ⊕ Event (Recorder Bench) BenchError))
      (link other : Link (Recorder Bench) StepGenerator),
      Conversation
        (.new .acknowledged 1 { address := .short 1, maxInitialBackoff := 0 } ⟨{}, []⟩ ⟨0, 0⟩)
        (.new .acknowledged 1 { address := .short 2, maxInitialBackoff := 0 } ⟨{}, []⟩ ⟨0, 0⟩)
        history link other ∧
      (history.filterMap Sum.getLeft?).filterMap Event.fetched? = [.sent 1 (.short 2)] ∧
      ∃ event ∈ history.filterMap Sum.getRight?, ∃ frame delivery, event.call = .receive frame ∧
        event.answer = .received (some delivery) ∧ delivery.payload = [7] := by
  have quiet : Conversation
      (.new .acknowledged 1 { address := .short 1, maxInitialBackoff := 0 }
        (⟨{}, []⟩ : Recorder Bench) (⟨0, 0⟩ : StepGenerator))
      (.new .acknowledged 1 { address := .short 2, maxInitialBackoff := 0 }
        (⟨{}, []⟩ : Recorder Bench) (⟨0, 0⟩ : StepGenerator))
      ([] : List (Event (Recorder Bench) BenchError ⊕ Event (Recorder Bench) BenchError)) _ _ :=
    .start
  have asked := quiet.call 5 (.send (.short 2) [7]) (fun _ => nofun) rfl
  have sent := asked.call 5 .poll (fun _ => nofun) rfl
  have heard := sent.reply 6 (.receive [0xa4, 0x80, 1, 0, 2, 0, 1, 7])
    (fun _ same => ⟨_, List.mem_cons_self, Call.receive.inj same⟩) rfl
  have again := heard.reply 7 (.receive [0xa4, 0x80, 1, 0, 2, 0, 1, 7])
    (fun _ same => ⟨_, List.mem_cons_self, Call.receive.inj same⟩) rfl
  have acked := again.call 8 (.receive [0xa4, 0x40, 2, 0, 1, 0, 1])
    (fun _ same => ⟨_, List.mem_cons_of_mem _ List.mem_cons_self, Call.receive.inj same⟩) rfl
  have told := acked.call 9 .poll (fun _ => nofun) rfl
  obtain ⟨payload, -, sends, delivered⟩ := delivered_of_conversation told rfl (by decide) rfl
    (List.forall_mem_cons.mpr ⟨fun _ _ => nofun, List.forall_mem_cons.mpr ⟨fun _ _ => nofun,
      List.forall_mem_cons.mpr ⟨fun _ _ => nofun, List.forall_mem_singleton.mpr fun _ _ => nofun⟩⟩⟩)
    (List.forall_mem_cons.mpr ⟨fun _ _ => nofun, List.forall_mem_singleton.mpr fun _ _ => nofun⟩)
    (by decide) List.mem_cons_self
  have same := sends _ List.mem_cons_self rfl
  cases same
  exact ⟨_, _, _, told, rfl, delivered⟩

end Acknowledged

end TwoNodes

end MoteLink.Link
