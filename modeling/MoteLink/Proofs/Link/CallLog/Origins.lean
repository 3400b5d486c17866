import MoteLink.Proofs.Link.CallLog.Run

/-!
# Where the entries of a log come from

Every entry of a log has its cause in the history: a packet that is handed to the radio or ended has
been accepted by a submission, an acknowledgement has been received in a frame, and an answer that
is transmitted is the answer to a frame whose contents have been delivered.
-/

namespace MoteLink.Link

variable {ρ γ ε : Type}

theorem mem_items_pushAll {α : Type} {q : Fifo α} {items : List α} {a : α}
    (member : a ∈ (q.pushAll items).items) : a ∈ q.items ∨ a ∈ items := by
  unfold Fifo.pushAll at member
  induction items generalizing q with
  | nil => exact .inl member
  | cons item rest ih =>
    rw [List.foldl_cons] at member
    rcases ih member with pushed | later
    · rcases Fifo.mem_items_push pushed with older | rfl
      · exact .inl older
      · exact .inr List.mem_cons_self
    · exact .inr (List.mem_cons_of_mem _ later)

/-- What a call tells or leaves to be fetched was there to be fetched. -/
theorem mem_of_leave {event : Event ρ ε} {outcomes : Fifo Outcome} {outcome : Outcome}
    (tells : event.answer.Tells outcomes)
    (known : event.fetched? = some outcome ∨ outcome ∈ (event.answer.leave outcomes).items) :
    outcome ∈ outcomes.items := by
  obtain ⟨now, radio, call, answer⟩ := event
  rcases known with fetched | waiting
  · unfold Event.fetched? at fetched
    split at fetched <;> rename_i told
    · rw [told, Answer.Tells, fetched, Fifo.pop_fst] at tells
      exact List.mem_of_mem_head? tells.symm
    · cases fetched
  · unfold Answer.leave at waiting
    split at waiting
    · rw [Fifo.items_pop] at waiting
      exact List.mem_of_mem_tail waiting
    · exact waiting

/-! ## In a record -/

section Entries

variable {start : Link (Recorder ρ) γ} {call : Call} {answer : Answer ε} {entries : List Entry}
  {place : Option Nat}

/-- What is accepted has been submitted, and can be laid out. -/
theorem Written.accepted_origin {p : Packet} (written : Written start call answer entries)
    (member : ⟨place, .accepted p⟩ ∈ entries) :
    p.descriptor.layoutError? = none ∧ ∃ d headerLength,
      start.submission? call = some (d, p.payload) ∧
      answer = .submitted (.ok p.descriptor.seq) ∧
      p.descriptor = { d with seq := p.descriptor.seq, headerLength } := by
  cases written with
  | @accepted call seq q ticket j enters =>
    cases List.mem_singleton.mp member
    unfold accepted? at enters
    split at enters
    · rename_i d payload seq' submits told
      cases told
      split at enters <;> rename_i encoded
      · cases enters
        obtain ⟨sound, -⟩ := Descriptor.encodedLength_eq_ok_iff.mp encoded
        exact ⟨sound, d, _, submits, rfl, rfl⟩
      · cases enters
    · cases enters
  | polled own =>
    obtain ⟨i, -, mine⟩ := Entry.eq_of_isOwn (own _ member)
    cases mine
  | acked heard acks => simp at member
  | answered heard isData asks here => cases List.mem_singleton.mp member
  | cancelled carries => cases List.mem_singleton.mp member
  | _ => cases member

/-- An acknowledgement has been heard in a frame. -/
theorem Written.acked_origin {p : Packet} {ack : Descriptor}
    (written : Written start call answer entries) (member : ⟨place, .acked p ack⟩ ∈ entries) :
    ∃ frame d, call = .receive frame ∧ start.station.listen frame = some d ∧
      d.descriptor = ack := by
  cases written with
  | @acked frame d i q heard acks =>
    rcases List.mem_cons.mp member with first | second
    · cases first
      exact ⟨frame, d, rfl, heard, rfl⟩
    · cases List.mem_singleton.mp second
  | polled own =>
    obtain ⟨i, -, mine⟩ := Entry.eq_of_isOwn (own _ member)
    cases mine
  | accepted enters => cases List.mem_singleton.mp member
  | answered heard isData asks here => cases List.mem_singleton.mp member
  | cancelled carries => cases List.mem_singleton.mp member
  | _ => cases member

/-- An answer is transmitted for a frame whose contents are delivered. -/
theorem Written.reply_origin {t : Transmission} (written : Written start call answer entries)
    (member : ⟨place, .replied t⟩ ∈ entries) :
    ∃ frame d, call = .receive frame ∧ answer = .received (some d) ∧
      start.station.listen frame = some d ∧ d.descriptor.flags.isAck = false ∧
      d.descriptor.nextHop = start.station.config.address ∧
      ∃ taken, t = ⟨(start.station.ackFor d.descriptor).headerBytes, [], taken⟩ := by
  cases written with
  | @answered frame d taken heard isData asks here =>
    cases List.mem_singleton.mp member
    exact ⟨frame, d, rfl, rfl, heard, isData, here, taken, rfl⟩
  | polled own =>
    obtain ⟨i, -, mine⟩ := Entry.eq_of_isOwn (own _ member)
    cases mine
  | acked heard acks => simp at member
  | accepted enters => cases List.mem_singleton.mp member
  | cancelled carries => cases List.mem_singleton.mp member
  | _ => cases member

end Entries

/-! ## In a log -/

section Logs

variable [Transceiver ρ ε] [RandomSource γ] {start : Link (Recorder ρ) γ}
  {records : List (CallRecord (Recorder ρ) ε Entry)} {reached : Lined ρ γ}

/-- All that happens to a packet, and all that the radio is asked to transmit but replies, is
    entered under a place. -/
theorem CallLog.mem_courseAt {time : Nat} {incident : Incident}
    (log : CallLog start records reached) (member : (time, incident) ∈ timeline records)
    (still : incident.started? = none) (own : ∀ t, incident ≠ .replied t) :
    ∃ i now, (now, incident) ∈ courseAt i records := by
  obtain ⟨record, among, -, place, there⟩ := mem_timeline.mp member
  rcases (log.written_of_mem among).placed _ there with ⟨i, same⟩ | ⟨t, same⟩
  · obtain rfl : place = some i := congrArg Entry.place same
    exact ⟨i, record.event.now, Link.mem_courseAt.mpr ⟨⟨record, among, rfl, there⟩, still⟩⟩
  · exact absurd (congrArg Entry.incident same) (own t)

/-- Every outcome that has been fetched or waits to be is one that an entry tells. -/
theorem CallLog.outcome_origin {outcome : Outcome} (log : CallLog start records reached)
    (quiet : start.station.outcomes.items = [])
    (known : outcome ∈ (records.map CallRecord.event).filterMap Event.fetched? ++
      reached.link.station.outcomes.items) :
    ∃ time p reason, (time, .ended p reason) ∈ timeline records ∧ outcome = p.outcome reason := by
  induction log with
  | nil =>
    rw [quiet] at known
    cases known
  | @snoc records a b record earlier last ih =>
    rw [timeline_concat]
    have before (among : outcome ∈ (records.map CallRecord.event).filterMap Event.fetched? ++
        a.link.station.outcomes.items) : ∃ time p reason, (time, .ended p reason) ∈
          timeline records ++ stamp record.time (incidentsOf record.entries) ∧
        outcome = p.outcome reason := by
      obtain ⟨time, p, reason, member, told⟩ := ih among
      exact ⟨time, p, reason, List.mem_append_left _ member, told⟩
    rw [List.map_append, List.filterMap_append, List.mem_append, List.mem_append] at known
    have latest : outcome ∈ (records.map CallRecord.event).filterMap Event.fetched? ∨
        outcome ∈ (record.post a.link.station.outcomes).items := by
      rcases known with (older | fetched) | waiting
      · exact .inl older
      · exact .inr (mem_of_leave last.logged.tells (.inl (by simpa using fetched)))
      · have left : b.link.station.outcomes = _ := last.logged.left
        rw [left] at waiting
        exact .inr (mem_of_leave last.logged.tells (.inr waiting))
    rcases latest with older | posted
    · exact before (List.mem_append_left _ older)
    rcases mem_items_pushAll posted with older | fresh
    · exact before (List.mem_append_right _ older)
    · obtain ⟨incident, there, shown⟩ := List.mem_filterMap.mp fresh
      cases incident <;> cases shown
      exact ⟨record.time, _, _, List.mem_append_right _ (List.mem_map_of_mem there), rfl⟩

end Logs

end MoteLink.Link
