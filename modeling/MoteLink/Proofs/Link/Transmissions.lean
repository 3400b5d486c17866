import MoteLink.Proofs.Header.Layout
import MoteLink.Proofs.Link.Acknowledged.Numbering
import MoteLink.Proofs.Link.Admission

/-!
# What a link transmits

All through a run the packets held have passed the check, and so has everything that stands in the
record: packets accepted, payloads passed through and answers to packets received. No frame is
longer than the station's limit or than a radio takes.
-/

namespace MoteLink

namespace Link

variable {ρ γ ε : Type} {p : Packet} {now : Tick} [Transceiver ρ ε] [RandomSource γ]

/-! ## What may be transmitted -/

/-- What a link may hand to its radio, after the calls of the history: the frame of a packet that it
    has accepted, laid out as the check has found it; where it passes payloads through, a payload
    submitted; and where it acknowledges, the answer to a packet received. -/
inductive Admitted (start : Link (Recorder ρ) γ) (history : List (Event (Recorder ρ) ε)) :
    Transmission → Prop
  | packet {event : Event (Recorder ρ) ε} {p : Packet} {t : Transmission} (member : event ∈ history)
      (enters : start.accepted? event.call event.answer = some p)
      (encoded : p.descriptor.encodeWithin maxHeaderLength = .ok t.header)
      (length : t.header.length = p.descriptor.headerLength) (payload : t.payload = p.payload)
      (short : t.frame.length ≤ min start.station.config.bufferSize maxFrameLength)
      (method : start.method ≠ .passThrough) : Admitted start history t
  | bare {event : Event (Recorder ρ) ε} {d : Descriptor} {t : Transmission}
      (member : event ∈ history) (submits : start.submission? event.call = some (d, t.payload))
      (header : t.header = [])
      (short : t.frame.length ≤ min start.station.config.bufferSize maxFrameLength)
      (method : start.method = .passThrough) : Admitted start history t
  | answer {event : Event (Recorder ρ) ε} {frame : Bytes} {d : Delivery} {t : Transmission}
      (member : event ∈ history) (received : event.call = .receive frame)
      (heard : start.station.listen frame = some d)
      (header : (start.station.ackFor d.descriptor).encodeWithin maxHeaderLength = .ok t.header)
      (payload : t.payload = []) (short : t.frame.length ≤ 13)
      (method : start.method = .acknowledged) : Admitted start history t

namespace Admitted

variable {start : Link (Recorder ρ) γ} {history : List (Event (Recorder ρ) ε)} {t : Transmission}

omit [Transceiver ρ ε] [RandomSource γ] in
theorem mono (admitted : Admitted start history t) (event : Event (Recorder ρ) ε) :
    Admitted start (history ++ [event]) t := by
  cases admitted with
  | packet member enters encoded length payload short method =>
    exact .packet (List.mem_append_left _ member) enters encoded length payload short method
  | bare member submits header short method =>
    exact .bare (List.mem_append_left _ member) submits header short method
  | answer member received heard header payload short method =>
    exact .answer (List.mem_append_left _ member) received heard header payload short method

omit [Transceiver ρ ε] [RandomSource γ] in
theorem length_le (admitted : Admitted start history t) : t.frame.length ≤ maxFrameLength := by
  cases admitted with
  | packet member enters encoded length payload short method =>
    exact Nat.le_trans short (Nat.min_le_right _ _)
  | bare member submits header short method => exact Nat.le_trans short (Nat.min_le_right _ _)
  | answer member received heard header payload short method =>
    exact Nat.le_trans short (by decide)

end Admitted

/-- A packet that has been accepted in the history and fits. -/
structure Stored (start : Link (Recorder ρ) γ) (history : List (Event (Recorder ρ) ε))
    (p : Packet) : Prop where
  accepted : ∃ event ∈ history, start.accepted? event.call event.answer =
    some { descriptor := p.descriptor, payload := p.payload }
  fits : p.Fits start.station.config
  method : start.method ≠ .passThrough

/-- The radio has refused a packet with this number and this next hop. -/
structure Refused (start : Link (Recorder ρ) γ) (history : List (Event (Recorder ρ) ε))
    (record : List Transmission) (seq : UInt8) (dst : Address) : Prop where
  packet : ∃ p, Stored start history p ∧ p.descriptor.seq = seq ∧ p.descriptor.nextHop = dst ∧
    p.transmission false ∈ record

section Invariant

variable {start link after : Link (Recorder ρ) γ} {history : List (Event (Recorder ρ) ε)}
  {record record' : List Transmission} {seq : UInt8} {dst : Address}

omit [Transceiver ρ ε] [RandomSource γ]

theorem Stored.admitted (stored : Stored start history p) (taken : Bool) :
    Admitted start history (p.transmission taken) := by
  obtain ⟨event, member, enters⟩ := stored.accepted
  exact .packet member enters stored.fits.encodeWithin stored.fits.length_header rfl
    (stored.fits.length_frame taken) stored.method

theorem Stored.mono (stored : Stored start history p) (event : Event (Recorder ρ) ε) :
    Stored start (history ++ [event]) p := by
  obtain ⟨⟨earlier, member, enters⟩, fits, method⟩ := stored
  exact ⟨⟨earlier, List.mem_append_left _ member, enters⟩, fits, method⟩

theorem Refused.written (refused : Refused start history record seq dst)
    (grows : record ⊆ record') : Refused start history record' seq dst := by
  obtain ⟨p, stored, sameSeq, sameHop, member⟩ := refused
  exact ⟨p, stored, sameSeq, sameHop, grows member⟩

theorem Refused.mono (refused : Refused start history record seq dst)
    (event : Event (Recorder ρ) ε) : Refused start (history ++ [event]) record seq dst := by
  obtain ⟨p, stored, sameSeq, sameHop, member⟩ := refused
  exact ⟨p, stored.mono event, sameSeq, sameHop, member⟩

/-- All that the link holds and all that it has transmitted has passed the check, and where the
    radio is blamed it has refused. -/
structure Vouched (start : Link (Recorder ρ) γ) (history : List (Event (Recorder ρ) ε))
    (link : Link (Recorder ρ) γ) : Prop where
  served : link.Served
  stored : ∀ i p, link.outbox.contentAt? i = some p → Stored start history p
  record : ∀ t ∈ link.record, Admitted start history t
  blamed : ∀ seq dst,
    .failed seq dst .radio ∈ history.filterMap Event.fetched? ++ link.station.outcomes.items →
      Refused start history link.record seq dst

/-- A medium leaves the record alone. -/
theorem Vouched.setRadio {radio : Recorder ρ} (vouched : Vouched start history link)
    (untouched : radio.record = link.record) : Vouched start history (link.setRadio radio) := by
  have same : (link.setRadio radio).record = link.record := by
    rw [Link.setRadio, Link.record, station_setStation]
    exact untouched
  constructor
  case served => exact vouched.served.setRadio radio
  case stored =>
    rw [outbox_setRadio]
    exact vouched.stored
  case record =>
    rw [same]
    exact vouched.record
  case blamed =>
    rw [same, Link.setRadio, station_setStation]
    exact vouched.blamed

/-- What a call has to show for what it leaves: packets held before or accepted by it, transmissions
    that may be made, and outcomes that waited before. -/
theorem Vouched.call (vouched : Vouched start history link) (event : Event (Recorder ρ) ε)
    (served : after.Served)
    (stored : ∀ i p, after.outbox.contentAt? i = some p →
      link.outbox.contentAt? i = some p ∨ Stored start (history ++ [event]) p)
    (grows : link.record ⊆ after.record)
    (written : ∀ t ∈ after.record, t ∈ link.record ∨ Admitted start (history ++ [event]) t)
    (left : ∀ seq dst,
      .failed seq dst .radio ∈ event.fetched?.toList ++ after.station.outcomes.items →
        .failed seq dst .radio ∈ link.station.outcomes.items) :
    Vouched start (history ++ [event]) after := by
  constructor
  case served => exact served
  case stored =>
    intro i p content
    rcases stored i p content with earlier | entered
    · exact (vouched.stored i p earlier).mono event
    · exact entered
  case record =>
    intro t member
    rcases written t member with earlier | admitted
    · exact (vouched.record t earlier).mono event
    · exact admitted
  case blamed =>
    intro seq dst known
    rw [List.filterMap_append, filterMap_singleton, List.append_assoc] at known
    have before : .failed seq dst .radio ∈
        history.filterMap Event.fetched? ++ link.station.outcomes.items := by
      rcases List.mem_append.mp known with told | waits
      · exact List.mem_append_left _ told
      · exact List.mem_append_right _ (left seq dst waits)
    exact ((vouched.blamed seq dst before).written grows).mono event

theorem vouched_new (method : Method) (capacity : Nat) (config : Config) (radio : ρ) (rng : γ) :
    Vouched (ε := ε) (.new method capacity config ⟨radio, []⟩ rng) []
      (.new method capacity config ⟨radio, []⟩ rng) := by
  constructor
  case served => exact served_new method capacity config _ rng
  case stored =>
    intro i p content
    rw [contentAt?_new] at content
    cases content
  case record =>
    intro t member
    cases method <;> cases member
  case blamed =>
    intro seq dst known
    cases method <;> cases known

end Invariant

/-! ## Steps of a poll -/

section Steps

variable {start link before after : Link (Recorder ρ) γ} {history : List (Event (Recorder ρ) ε)}

/-- A step transmits nothing but a packet held, and it blames the radio only for refusing that. -/
theorem Vouched.step (vouched : Vouched start history link) (step : Step now link after) :
    Vouched start history after := by
  have keeps := step.keeps vouched.served
  have effect := step.effect vouched.served fun i p content =>
    (vouched.stored i p content).fits.sound
  constructor
  case served => exact step.served vouched.served
  case stored => exact fun i p content => vouched.stored i p (keeps i p content)
  case record =>
    cases effect with
    | silent record spares still =>
      rw [record]
      exact vouched.record
    | transmits turn content record told still =>
      rw [record]
      intro t member
      rcases List.mem_append.mp member with earlier | last
      · exact vouched.record t earlier
      · rw [List.mem_singleton.mp last]
        exact (vouched.stored _ _ content).admitted _
  case blamed =>
    intro seq dst known
    rcases List.mem_append.mp known with told | waits
    · exact (vouched.blamed seq dst (List.mem_append_left _ told)).written effect.grows
    · rcases effect.cause waits with waited | ⟨i, p, content, rfl, rfl, record⟩
      · exact (vouched.blamed seq dst (List.mem_append_right _ waited)).written effect.grows
      · refine ⟨p, vouched.stored i p content, rfl, rfl, ?_⟩
        rw [record]
        exact List.mem_append_right _ (List.mem_singleton_self _)

theorem Vouched.steps (vouched : Vouched start history link) (steps : Steps now link after) :
    Vouched start history after := by
  induction steps with
  | refl => exact vouched
  | tail earlier step ih => exact ih.step step

/-- The link waits for another attempt only because the radio has refused the last one. -/
theorem Vouched.refused_of_retries (vouched : Vouched start history before)
    (step : Step now before after) (retries : Retries before after) :
    ∃ p, Stored start history p ∧ after.record = before.record ++ [p.transmission false] := by
  cases step.effect vouched.served fun i p content => (vouched.stored i p content).fits.sound with
  | silent record spares still => exact absurd retries still
  | @transmits i p taken turn content record told still =>
    cases taken with
    | true => exact absurd retries (still rfl)
    | false => exact ⟨p, vouched.stored i p content, record⟩

end Steps

/-! ## What the other calls do -/

section Calls

variable {link : Link (Recorder ρ) γ} {d : Descriptor} {payload : Bytes}

omit [RandomSource γ]

/-- A payload that is passed through is handed to the radio at once, if it fits. -/
theorem PassThrough.effect_submit (m : PassThrough (Recorder ρ) γ) (d : Descriptor)
    (payload : Bytes) :
    Spares m.station.outcomes (m.submit (ε := ε) d payload).2.station.outcomes ∧
      ((m.submit (ε := ε) d payload).2.station.record = m.station.record ∨
        payload.length ≤ m.station.frameLimit ∧
          ∃ taken, (m.submit (ε := ε) d payload).2.station.record =
            m.station.record ++ [⟨[], payload, taken⟩]) := by
  unfold submit
  by_cases long : m.station.frameLimit < payload.length
  · rw [if_pos long]
    exact ⟨.inl rfl, .inl rfl⟩
  · rw [if_neg long]
    have written := Recorder.record_send (ε := ε) m.station.radio [] payload
    dsimp only
    split <;> rename_i station asked
    all_goals
      have radio : station.radio = (Transceiver.send (ε := ε) m.station.radio [] payload).2 :=
        congrArg (fun asked => asked.2.radio) asked.symm
      have outcomes : station.outcomes = m.station.outcomes :=
        congrArg (fun asked => asked.2.outcomes) asked.symm
      rw [← radio] at written
    · exact ⟨.inl outcomes, .inr ⟨Nat.not_lt.mp long, _, written⟩⟩
    · refine ⟨.inr ⟨_, congrArg (Fifo.push · _) outcomes, ?_⟩,
        .inr ⟨Nat.not_lt.mp long, _, written⟩⟩
      intro seq dst same
      cases same

omit [Transceiver ρ ε] in
theorem TimeSlot.record_submit (m : TimeSlot (Recorder ρ) γ) (d : Descriptor) (payload : Bytes) :
    (m.submit (ε := ε) d payload).2.station.record = m.station.record := by
  unfold submit
  split
  · rfl
  · split <;> rename_i prepared
    · exact Station.record_of_prepare prepared
    · exact Station.record_of_prepare prepared

/-- A submission transmits nothing, unless payloads are passed through. -/
theorem effect_submit (link : Link (Recorder ρ) γ) (d : Descriptor) (payload : Bytes) :
    Spares link.station.outcomes (link.submit (ε := ε) d payload).2.station.outcomes ∧
      ((link.submit (ε := ε) d payload).2.record = link.record ∨
        link.method = .passThrough ∧ payload.length ≤ link.station.frameLimit ∧
          ∃ taken, (link.submit (ε := ε) d payload).2.record =
            link.record ++ [⟨[], payload, taken⟩]) := by
  have unwritten {s s' : Station (Recorder ρ) γ} {o o' : Outbox}
      {result : Except (LinkError ε) UInt8} (submitted : s.Submitted o d payload result s' o') :
      s'.record = s.record := by
    cases submitted with
    | unfit prepared | full prepared refused | accepted prepared placed =>
      exact Station.record_of_prepare prepared
  cases link with
  | passThrough m =>
    obtain ⟨spares, written⟩ := m.effect_submit (ε := ε) d payload
    exact ⟨spares, written.imp id fun written => ⟨rfl, written⟩⟩
  | carrierSense m =>
    have submitted := (m.submitted_submit (ε := ε) d payload).1
    exact ⟨.inl submitted.books.2, .inl (unwritten submitted)⟩
  | acknowledged m =>
    have submitted := (m.submitted_submit (ε := ε) d payload).1
    exact ⟨.inl submitted.books.2, .inl (unwritten submitted)⟩
  | timeSlot m => exact ⟨.inl (m.outcomes_submit d payload), .inl (m.record_submit d payload)⟩

/-- A frame that comes in for this node is answered at most. -/
theorem Acknowledged.Reception.effect {m m' : Acknowledged (Recorder ρ) γ} {frame : Bytes}
    {delivery : Option Delivery} (served : m.Served)
    (received : Reception (ε := ε) m frame delivery m') :
    Spares m.station.outcomes m'.station.outcomes ∧
      (m'.station.record = m.station.record ∨
        ∃ d taken, m.station.listen frame = some d ∧
          (m.station.ackFor d.descriptor).layoutError? = none ∧
          m'.station.record =
            m.station.record ++ [⟨(m.station.ackFor d.descriptor).headerBytes, [], taken⟩]) := by
  cases received with
  | ignored unheard => exact ⟨.inl rfl, .inl rfl⟩
  | @acknowledgement d heard isAck =>
    have learned := m.station_learn d.descriptor.prevHop
    have noted := acknowledgement_of_handleAck (served_learn served d.descriptor.prevHop)
      d.descriptor
    rw [← learned]
    generalize (m.learn d.descriptor.prevHop).handleAck d.descriptor = m' at noted ⊢
    cases noted with
    | unexpected phase => exact ⟨.inl rfl, .inl rfl⟩
    | mismatch phase found other => exact ⟨.inl rfl, .inl rfl⟩
    | matching phase found seq sender =>
      refine ⟨.inr ⟨_, rfl, ?_⟩, .inl rfl⟩
      intro seq dst same
      cases same
  | @answered d heard isData asks here =>
    obtain ⟨read, -⟩ := m.station.listen_eq_some_iff.mp heard
    have sound := m.station.layoutError?_ackFor (Descriptor.layoutError?_of_read? read) here
    exact ⟨.inl (m.station.sameBooks_sendAck d.descriptor).outcomes,
      .inr ⟨d, _, heard, sound, Station.record_sendAck (ε := ε) sound⟩⟩
  | delivered heard isData silent =>
    rw [station_learn]
    exact ⟨.inl rfl, .inl rfl⟩

theorem effect_receive (served : link.Served) (frame : Bytes) :
    Spares link.station.outcomes (link.receive (ε := ε) frame).2.station.outcomes ∧
      ((link.receive (ε := ε) frame).2.record = link.record ∨
        link.method = .acknowledged ∧ ∃ d taken, link.station.listen frame = some d ∧
          (link.station.ackFor d.descriptor).layoutError? = none ∧
          (link.receive (ε := ε) frame).2.record =
            link.record ++ [⟨(link.station.ackFor d.descriptor).headerBytes, [], taken⟩]) := by
  cases link with
  | passThrough m => exact ⟨.inl rfl, .inl rfl⟩
  | carrierSense m => exact ⟨.inl rfl, .inl rfl⟩
  | timeSlot m => exact ⟨.inl rfl, .inl rfl⟩
  | acknowledged m =>
    obtain ⟨spares, written⟩ := (m.reception_receive (ε := ε) frame).effect served
    exact ⟨spares, written.imp id fun answered => ⟨rfl, answered⟩⟩

end Calls

/-! ## All through a run -/

section Settings

variable {ρ : Type} [Transceiver ρ ε] {link after : Link ρ γ} {call : Call} {answer : Answer ε}

/-- No call changes the method or the configuration. -/
theorem settings_of_perform (served : link.Served)
    (performed : link.perform now call = .ok (answer, after)) :
    after.method = link.method ∧ after.station.config = link.station.config := by
  cases link with
  | carrierSense m =>
    obtain ⟨kept, same⟩ := (Queueing.carrierSense ⟨served, rfl⟩).perform performed
    exact ⟨same, kept.config_eq⟩
  | acknowledged m =>
    obtain ⟨kept, same⟩ := (Queueing.acknowledged ⟨served, rfl⟩).perform performed
    exact ⟨same, kept.config_eq⟩
  | timeSlot m =>
    obtain ⟨m', rfl, same⟩ := TimeSlot.config_of_perform performed
    exact ⟨rfl, same⟩
  | passThrough m =>
    have submitted (d : Descriptor) (payload : Bytes) :
        (m.submit (ε := ε) d payload).2.station.config = m.station.config := by
      unfold PassThrough.submit
      split
      · rfl
      · dsimp only
        split <;> rename_i station asked
        · exact congrArg (fun asked => asked.2.config) asked.symm
        · exact congrArg (fun asked => asked.2.config) asked.symm
    cases call with
    | send dst payload =>
      cases performed
      exact ⟨rfl, submitted _ payload⟩
    | submit d payload =>
      cases performed
      exact ⟨rfl, submitted d payload⟩
    | receive | poll | cancel =>
      cases performed
      exact ⟨rfl, rfl⟩

omit [RandomSource γ] in
/-- Where payloads are passed through none is held. -/
theorem method_ne_of_content {i : Nat} (content : link.outbox.contentAt? i = some p) :
    link.method ≠ .passThrough := by
  cases link with
  | passThrough m => cases content
  | carrierSense | acknowledged | timeSlot => nofun

/-- Only a poll comes to wait for another attempt. -/
theorem not_retries_of_perform (served : link.Served) (other : call ≠ .poll)
    (performed : link.perform now call = .ok (answer, after)) : ¬Retries link after := by
  rintro ⟨rfl, rfl, listening, waiting⟩
  rename_i m m' expiry expiry' busy
  have kept : m'.phase = m.phase ∨ m'.phase = .idle := by
    obtain ⟨last, same, performs⟩ := Acknowledged.performs_of_perform performed
    cases same
    cases performs with
    | submit submits => exact .inl (m.submitted_submit (ε := ε) _ _).2
    | receive received =>
      cases received with
      | ignored unheard => exact .inl rfl
      | @acknowledgement d heard isAck =>
        have noted := Acknowledged.acknowledgement_of_handleAck
          (Acknowledged.served_learn served d.descriptor.prevHop) d.descriptor
        rw [← m.phase_learn d.descriptor.prevHop]
        generalize (m.learn d.descriptor.prevHop).handleAck d.descriptor = m' at noted ⊢
        cases noted with
        | unexpected phase | mismatch phase found other => exact .inl rfl
        | matching phase found seq sender => exact .inr rfl
      | answered heard isData asks here => exact .inl (m.phase_learn _)
      | delivered heard isData silent => exact .inl (m.phase_learn _)
    | poll polled => exact absurd rfl other
    | cancel seq =>
      unfold Acknowledged.cancel
      split
      · exact .inl rfl
      · exact .inr rfl
      · exact .inl rfl
  rw [waiting, listening] at kept
  rcases kept with same | same <;> cases same

end Settings

section Run

variable {start link after : Link (Recorder ρ) γ} {history : List (Event (Recorder ρ) ε)}
  {event : Event (Recorder ρ) ε}

/-- What a submission stores and transmits has passed the check. -/
theorem Vouched.submitted {d : Descriptor} {payload : Bytes} (vouched : Vouched start history link)
    (method : link.method = start.method) (config : link.station.config = start.station.config)
    (submits : link.submission? event.call = some (d, payload))
    (performed : link.perform event.now event.call = .ok (event.answer, after)) :
    Vouched start (history ++ [event]) after := by
  have served := vouched.served.perform performed
  have kept := (settings_of_perform vouched.served performed).1
  have told := performed
  rw [perform_of_submission? submits] at told
  obtain ⟨answered, rfl⟩ := Prod.mk.inj (Except.ok.inj told)
  obtain ⟨spares, written⟩ := link.effect_submit (ε := ε) d payload
  have submits' : start.submission? event.call = some (d, payload) := by
    rw [← submission?_congr method config]
    exact submits
  apply vouched.call event served
  case stored =>
    intro i p content
    rcases link.stores_submit content with earlier | entered
    · exact .inl earlier
    · right
      rw [config] at entered
      refine ⟨⟨event, List.mem_append_right _ (List.mem_singleton_self _), ?_⟩, entered.fits, ?_⟩
      · rw [← answered]
        exact entered.accepted?_eq submits'
      · rw [← method, ← kept]
        exact method_ne_of_content content
  case grows =>
    rcases written with same | ⟨-, -, taken, added⟩
    · rw [same]
      exact List.Subset.refl _
    · rw [added]
      exact List.subset_append_left _ _
  case written =>
    intro t member
    rcases written with same | ⟨bare, short, taken, added⟩
    · rw [same] at member
      exact .inl member
    · rw [added] at member
      rcases List.mem_append.mp member with earlier | last
      · exact .inl earlier
      · right
        rw [List.mem_singleton.mp last]
        refine .bare (List.mem_append_right _ (List.mem_singleton_self _)) submits' rfl ?_
          (method.symm.trans bare)
        rw [← config]
        exact short
  case left =>
    intro seq dst known
    have silent : event.fetched? = none := by
      unfold Event.fetched?
      rw [← answered]
    rw [silent] at known
    exact spares.mem known

/-- What a frame that comes in makes a link transmit is an answer. -/
theorem Vouched.received {frame : Bytes} (vouched : Vouched start history link)
    (method : link.method = start.method) (config : link.station.config = start.station.config)
    (receives : event.call = .receive frame)
    (performed : link.perform event.now event.call = .ok (event.answer, after)) :
    Vouched start (history ++ [event]) after := by
  have served := vouched.served.perform performed
  rw [receives] at performed
  obtain ⟨answered, rfl⟩ := Prod.mk.inj (Except.ok.inj performed)
  obtain ⟨spares, written⟩ := effect_receive vouched.served frame
  apply vouched.call event served
  case stored => exact fun i p content => .inl (keeps_receive vouched.served frame i p content)
  case grows =>
    rcases written with same | ⟨-, d, taken, -, -, added⟩
    · exact same ▸ List.Subset.refl _
    · exact added ▸ List.subset_append_left _ _
  case written =>
    intro t member
    rcases written with same | ⟨acknowledges, d, taken, heard, sound, added⟩
    · exact .inl (same ▸ member)
    · rcases List.mem_append.mp (added ▸ member) with earlier | last
      · exact .inl earlier
      · right
        rw [List.mem_singleton.mp last]
        have short := link.station.length_ackFor_le sound
        have encoded := Descriptor.encodeWithin_eq_ok_iff.mpr
          ⟨sound, Descriptor.length_headerBytes_le sound, rfl⟩
        rw [Station.listen_congr config] at heard
        rw [Station.ackFor_congr config] at encoded short ⊢
        refine .answer (List.mem_append_right _ (List.mem_singleton_self _)) receives heard encoded
          rfl ?_ (method.symm.trans acknowledges)
        rw [Transmission.frame, List.append_nil]
        exact short
  case left =>
    intro seq dst known
    have silent : event.fetched? = none := by
      unfold Event.fetched?
      rw [← answered]
    rw [silent] at known
    exact spares.mem known

theorem Vouched.cancelled {seq : UInt8} (vouched : Vouched start history link)
    (cancels : event.call = .cancel seq)
    (performed : link.perform event.now event.call = .ok (event.answer, after)) :
    Vouched start (history ++ [event]) after := by
  have served := vouched.served.perform performed
  rw [cancels] at performed
  obtain ⟨answered, rfl⟩ := Prod.mk.inj (Except.ok.inj performed)
  have same := link.station_cancel seq
  have record : (link.cancel seq).2.record = link.record := congrArg Station.record same
  apply vouched.call event served
  case stored => exact fun i p content => .inl (link.keeps_cancel seq i p content)
  case grows =>
    intro t member
    change t ∈ (link.cancel seq).2.record
    rwa [record]
  case written => exact fun t member => .inl (record ▸ member)
  case left =>
    intro seq' dst known
    have silent : event.fetched? = none := by
      unfold Event.fetched?
      rw [← answered]
    rw [silent] at known
    exact same ▸ known

theorem Vouched.polled (vouched : Vouched start history link) (polls : event.call = .poll)
    (performed : link.perform event.now event.call = .ok (event.answer, after)) :
    Vouched start (history ++ [event]) after := by
  have served := vouched.served.perform performed
  rw [polls] at performed
  obtain ⟨result, answered, polled⟩ := exists_poll_of_perform performed
  obtain ⟨rested, outcomes, steps, rfl, fetched⟩ := steps_of_poll polled
  have record : (rested.setStation { rested.station with outcomes }).record = rested.record := by
    rw [Link.record, station_setStation]
    rfl
  apply (vouched.steps steps).call event served
  case stored =>
    intro i p content
    rw [outbox_setStation] at content
    exact .inl content
  case grows => exact record ▸ List.Subset.refl _
  case written => exact fun t member => .inl (record ▸ member)
  case left =>
    intro seq dst known
    have told : event.fetched?.toList = Station.told result := by
      unfold Event.fetched?
      rw [answered]
      cases result <;> rfl
    rwa [told, station_setStation, ← fetched] at known

/-- All through a recording of a link everything is vouched for, and the method and the
    configuration are those of the start. -/
theorem vouched_of_recording {method : Method} {capacity : Nat} {config : Config} {radio : ρ}
    {rng : γ} (recording : Recording (.new method capacity config ⟨radio, []⟩ rng) history link) :
    Vouched (.new method capacity config ⟨radio, []⟩ rng) history link ∧
      link.method = method ∧ link.station.config = config := by
  generalize home : (.new method capacity config ⟨radio, []⟩ rng : Link (Recorder ρ) γ) = start
    at recording
  have settled : start.method = method ∧ start.station.config = config := by
    rw [← home]
    cases method <;> exact ⟨rfl, rfl⟩
  induction recording with
  | start =>
    rw [← home] at settled ⊢
    exact ⟨vouched_new method capacity config radio rng, settled⟩
  | @call history link after event recording untouched performed ih =>
    obtain ⟨vouched, method', config'⟩ := ih
    have before := vouched.setRadio untouched
    have same : (link.setRadio event.radio).method = start.method ∧
        (link.setRadio event.radio).station.config = start.station.config := by
      rw [setRadio, method_setStation, station_setStation, settled.1, settled.2]
      exact ⟨method', config'⟩
    obtain ⟨keepsMethod, keepsConfig⟩ := settings_of_perform before.served performed
    refine ⟨?_, keepsMethod.trans (same.1.trans settled.1),
      keepsConfig.trans (same.2.trans settled.2)⟩
    cases submits : (link.setRadio event.radio).submission? event.call with
    | some packet => exact before.submitted same.1 same.2 submits performed
    | none =>
      cases asked : event.call with
      | send dst payload | submit d payload =>
        rw [asked] at submits
        cases submits
      | receive frame => exact before.received same.1 same.2 asked performed
      | poll => exact before.polled asked performed
      | cancel seq => exact before.cancelled asked performed

end Run

/-- What a link has accepted can be transmitted: all through a recording of a link of any kind, the
    frames that it hands to its radio are those of packets accepted, payloads passed through, and
    answers to packets received. No radio made of a device finds one too long. Whatever steps a poll
    has taken, though a later one of them may halt, this holds and each packet still held can be
    laid out and fits. So only if the radio has refused a packet is its failure told with that
    reason, and does the link wait for another attempt without having waited for an
    acknowledgement. -/
theorem transmissible_of_recording {method : Method} {capacity : Nat} {config : Config} {radio : ρ}
    {rng : γ} {history : List (Event (Recorder ρ) ε)} {link : Link (Recorder ρ) γ}
    (recording : Recording (.new method capacity config ⟨radio, []⟩ rng) history link) :
    (∀ t ∈ link.record, Admitted (.new method capacity config ⟨radio, []⟩ rng) history t) ∧
      (∀ t, Admitted (.new method capacity config ⟨radio, []⟩ rng) history t →
        ∀ (δ ε' : Type) [Device δ ε'] (r : DeviceRadio δ) (length : Nat),
          (r.send t.header t.payload).1 ≠ .error (.frameTooLong length)) ∧
      (∀ seq dst, .failed seq dst .radio ∈
          history.filterMap Event.fetched? ++ link.station.outcomes.items →
        Refused (.new method capacity config ⟨radio, []⟩ rng) history link.record seq dst) ∧
      ∀ (r : Recorder ρ), r.record = link.record → ∀ now : Tick,
        (∀ call (answer : Answer ε) after, call ≠ .poll →
          (link.setRadio r).perform now call = .ok (answer, after) →
            ¬Retries (link.setRadio r) after) ∧
        ∀ before, Steps now (link.setRadio r) before →
          (∀ t ∈ before.record,
            Admitted (.new method capacity config ⟨radio, []⟩ rng) history t) ∧
          (∀ i p, before.outbox.contentAt? i = some p →
            p.Fits config ∧
              p.descriptor.encodeWithin maxHeaderLength = .ok p.descriptor.headerBytes) ∧
          ∀ after, Step now before after → Retries before after →
            ∃ p, Stored (.new method capacity config ⟨radio, []⟩ rng) history p ∧
              after.record = before.record ++ [p.transmission false] := by
  have settled : (Link.new method capacity config (⟨radio, []⟩ : Recorder ρ) rng).station.config =
      config := by
    cases method <;> rfl
  obtain ⟨vouched, -, -⟩ := vouched_of_recording recording
  refine ⟨vouched.record, ?_, vouched.blamed, ?_⟩
  · intro t admitted δ ε' device r length
    exact send_ne_frameTooLong admitted.length_le r length
  · intro r untouched now
    have found := vouched.setRadio untouched
    constructor
    · intro call answer after other performed
      exact not_retries_of_perform found.served other performed
    · intro before steps
      have reached := found.steps steps
      refine ⟨reached.record, ?_, ?_⟩
      · intro i p content
        have fits := (reached.stored i p content).fits
        rw [settled] at fits
        exact ⟨fits, fits.encodeWithin⟩
      · intro after step retries
        exact reached.refused_of_retries step retries

/-- The radio refuses the first packet and takes the second one. -/
theorem transmissible_of_recording_refused :
    ∃ (history : List (Event (Recorder Bench) BenchError))
      (link : Link (Recorder Bench) StepGenerator),
      history.filterMap Event.fetched? = [.failed 1 (.short 2) .radio, .sent 2 (.short 2)] ∧
        link.record.map Transmission.taken = [false, true] ∧
        (∀ t ∈ link.record, t.frame.length ≤ maxFrameLength) ∧
        Refused (.new .timeSlot 1 { address := .short 1 } (⟨{}, []⟩ : Recorder Bench)
          (⟨0, 0⟩ : StepGenerator)) history link.record 1 (.short 2) := by
  have recording : Recording (ε := BenchError)
      (.new .timeSlot 1 { address := .short 1 } ⟨({} : Bench), []⟩ (⟨0, 0⟩ : StepGenerator)) _
      (.timeSlot _) :=
    recording_of_replay [(10, id, .send (.short 2) [7]),
      (10, fun radio => { radio with rejectsSend := true }, .poll),
      (110, id, .send (.short 2) [8]),
      (110, fun radio => { radio with rejectsSend := false }, .poll)] rfl
  obtain ⟨admitted, -, refused, -⟩ := transmissible_of_recording recording
  have blamed := refused 1 (.short 2) (List.mem_append_left _ (List.mem_cons_self ..))
  exact ⟨_, _, rfl, rfl, fun t member => (admitted t member).length_le, blamed⟩

end Link

end MoteLink
