import MoteLink.Proofs.Link.CallLog.Discipline
import MoteLink.Proofs.Link.Queueing
import MoteLink.Proofs.Link.Recording

/-!
# What is entered about a call

Links with an outbox have in common a station, an outbox, and the line that the outbox stands for.
What such a link does is entered in its log, and the entries account for it: they bring the line on,
and tell what the radio was asked to transmit and what outcomes were put up for fetching. `Written`
says which entries a call with its answer can make.
-/

namespace MoteLink.Link

variable {ρ γ ε : Type}

/-- The outcomes that a call leaves to be fetched: one that is told is taken out. -/
def Answer.leave : Answer ε → Fifo Outcome → Fifo Outcome
  | .polled (.ok _), outcomes => outcomes.pop.2
  | _, outcomes => outcomes

/-- The outcome that is told is the oldest one. -/
def Answer.Tells (outcomes : Fifo Outcome) : Answer ε → Prop
  | .polled (.ok outcome) => outcome = outcomes.pop.1
  | _ => True

/-- The entries that a call with its answer makes in the log of the link. The only frames that a
    link answers are those that ask for it, and it does so with their acknowledgement. -/
inductive Written (link : Link (Recorder ρ) γ) : Call → Answer ε → List Entry → Prop
  | accepted {call : Call} {seq : UInt8} {p : Packet} {ticket : UInt32} {i : Nat}
      (enters : link.accepted? (ε := ε) call (.submitted (.ok seq)) = some p) :
      Written link call (.submitted (.ok seq)) [⟨some i, .accepted { p with ticket }⟩]
  | refused {call : Call} {e : LinkError ε} (submits : call.submits = true) :
      Written link call (.submitted (.error e)) []
  /-- The frame is not for this node. -/
  | ignored {frame : Bytes} (unheard : link.station.listen frame = none) :
      Written link (.receive frame) (.received none) []
  | acked {frame : Bytes} {d : Delivery} {i : Nat} {p : Packet}
      (heard : link.station.listen frame = some d) (acks : p.AckedBy d.descriptor) :
      Written link (.receive frame) (.received none)
        [⟨some i, .acked p d.descriptor⟩, ⟨some i, .ended p none⟩]
  /-- The frame is an acknowledgement that nothing waits for. -/
  | unwanted {frame : Bytes} {d : Delivery} (heard : link.station.listen frame = some d)
      (isAck : d.descriptor.flags.isAck = true) :
      Written link (.receive frame) (.received none) []
  | answered {frame : Bytes} {d : Delivery} {taken : Bool}
      (heard : link.station.listen frame = some d) (isData : d.descriptor.flags.isAck = false)
      (asks : d.descriptor.flags.ackRequested = true)
      (here : d.descriptor.nextHop = link.station.config.address) :
      Written link (.receive frame) (.received (some d))
        [⟨none, .replied ⟨(link.station.ackFor d.descriptor).headerBytes, [], taken⟩⟩]
  | delivered {frame : Bytes} {d : Delivery} (heard : link.station.listen frame = some d)
      (isData : d.descriptor.flags.isAck = false) :
      Written link (.receive frame) (.received (some d)) []
  | polled {result : Except (LinkError ε) (Option Outcome)} {entries : List Entry}
      (own : ∀ entry ∈ entries, entry.isOwn = true) :
      Written link .poll (.polled result) entries
  | cancelled {seq : UInt8} {i : Nat} {p : Packet} (carries : p.descriptor.seq = seq) :
      Written link (.cancel seq) (.cancelled true) [⟨some i, .cancelled p⟩]
  | missed (seq : UInt8) : Written link (.cancel seq) (.cancelled false) []

/-- A station, its outbox and the line that the outbox stands for. -/
structure View (ρ γ : Type) where
  station : Station (Recorder ρ) γ
  outbox : Outbox
  line : Line

/-- The entries, all made at `time`, account for what has changed between two views. -/
structure Logged (time : Nat) (a : View ρ γ) (entries : List Entry) (b : View ρ γ) : Prop where
  leads : a.line.Leads (stamp time (incidentsOf entries)) b.line
  record : b.station.record =
    a.station.record ++ (incidentsOf entries).filterMap Incident.transmission?
  outcomes : b.station.outcomes =
    a.station.outcomes.pushAll ((incidentsOf entries).filterMap Incident.outcome?)
  holds : b.outbox.Holds b.line

/-- With the answer of the call its entries account for what it has changed. -/
structure LoggedCall (time : Nat) (a : View ρ γ) (answer : Answer ε) (entries : List Entry)
    (b : View ρ γ) : Prop where
  leads : a.line.Leads (stamp time (incidentsOf entries)) b.line
  record : b.station.record =
    a.station.record ++ (incidentsOf entries).filterMap Incident.transmission?
  tells : answer.Tells
    (a.station.outcomes.pushAll ((incidentsOf entries).filterMap Incident.outcome?))
  left : b.station.outcomes = answer.leave
    (a.station.outcomes.pushAll ((incidentsOf entries).filterMap Incident.outcome?))
  holds : b.outbox.Holds b.line

/-! ## Entries of a call -/

section Entries

variable {link other : Link (Recorder ρ) γ} {call : Call} {answer : Answer ε} {entries : List Entry}

/-- Only the method and the configuration tell which entries a call can make. -/
theorem Written.congr (written : Written link call answer entries)
    (method : link.method = other.method) (config : link.station.config = other.station.config) :
    Written other call answer entries := by
  have enter : link.accepted? (ε := ε) = other.accepted? := accepted?_congr method config
  have listen := Station.listen_congr config
  cases written with
  | accepted enters => exact .accepted (enter ▸ enters)
  | refused submits => exact .refused submits
  | ignored unheard => exact .ignored (listen ▸ unheard)
  | acked heard acks => exact .acked (listen ▸ heard) acks
  | unwanted heard isAck => exact .unwanted (listen ▸ heard) isAck
  | answered heard isData asks here =>
    rw [Station.ackFor_congr config]
    exact .answered (listen ▸ heard) isData asks (config ▸ here)
  | delivered heard isData => exact .delivered (listen ▸ heard) isData
  | polled own => exact .polled own
  | cancelled carries => exact .cancelled carries
  | missed seq => exact .missed seq

/-- All but replies are entered under a place. -/
theorem Written.placed (written : Written link call answer entries) :
    ∀ entry ∈ entries,
      (∃ i, entry = ⟨some i, entry.incident⟩) ∨ ∃ t, entry = ⟨none, .replied t⟩ := by
  have here (i : Nat) (incident : Incident) :
      (∃ j, Entry.mk (some i) incident = ⟨some j, incident⟩) ∨
        ∃ t, Entry.mk (some i) incident = ⟨none, .replied t⟩ := .inl ⟨i, rfl⟩
  cases written with
  | accepted enters => exact List.forall_mem_singleton.mpr (here _ _)
  | refused submits => exact List.forall_mem_nil _
  | ignored unheard => exact List.forall_mem_nil _
  | acked heard acks =>
    exact List.forall_mem_cons.mpr ⟨here _ _, List.forall_mem_singleton.mpr (here _ _)⟩
  | unwanted heard isAck => exact List.forall_mem_nil _
  | answered heard isData asks here => exact List.forall_mem_singleton.mpr (.inr ⟨_, rfl⟩)
  | delivered heard isData => exact List.forall_mem_nil _
  | polled own =>
    intro entry member
    obtain ⟨i, same, -⟩ := Entry.eq_of_isOwn (own entry member)
    exact .inl ⟨i, same⟩
  | cancelled carries => exact List.forall_mem_singleton.mpr (here _ _)
  | missed seq => exact List.forall_mem_nil _

/-- Only a poll puts packets in flight and makes attempts. -/
theorem Written.quiet (written : Written link call answer entries) (other : call ≠ .poll) :
    ∀ entry ∈ entries, entry.incident.isQuiet = true := by
  cases written with
  | accepted enters => exact List.forall_mem_singleton.mpr rfl
  | refused submits => exact List.forall_mem_nil _
  | ignored unheard => exact List.forall_mem_nil _
  | acked heard acks => exact List.forall_mem_cons.mpr ⟨rfl, List.forall_mem_singleton.mpr rfl⟩
  | unwanted heard isAck => exact List.forall_mem_nil _
  | answered heard isData asks here => exact List.forall_mem_singleton.mpr rfl
  | delivered heard isData => exact List.forall_mem_nil _
  | polled own => exact absurd rfl other
  | cancelled carries => exact List.forall_mem_singleton.mpr rfl
  | missed seq => exact List.forall_mem_nil _

/-- All that a poll enters the link has done by itself. -/
theorem Written.isOwn_of_poll (written : Written link .poll answer entries) :
    ∀ entry ∈ entries, entry.isOwn = true := by
  cases written with
  | accepted enters => cases enters
  | refused submits => cases submits
  | polled own => exact own

/-- A frame ends a packet only if it is heard and acknowledges the packet. -/
theorem Written.acked_of_ended {frame : Bytes} {place : Option Nat} {p : Packet}
    {reason : Option FailureReason} (written : Written link (.receive frame) answer entries)
    (told : ⟨place, .ended p reason⟩ ∈ entries) :
    ∃ d, link.station.listen frame = some d ∧ p.AckedBy d.descriptor := by
  cases written with
  | accepted enters => cases enters
  | refused submits => cases submits
  | ignored unheard => cases told
  | @acked frame d i q heard acks =>
    rcases List.mem_cons.mp told with same | last
    · cases same
    · cases List.mem_singleton.mp last
      exact ⟨d, heard, acks⟩
  | unwanted heard isAck => cases told
  | answered heard isData asks here => cases List.mem_singleton.mp told
  | delivered heard isData => cases told

/-- What a call brings in is what its entries say is accepted. -/
theorem Written.accepted_eq (written : Written link call answer entries) :
    (incidentsOf entries).filterMap Incident.accepted? = [] ∧ link.accepted? call answer = none ∨
      ∃ i p ticket, entries = [⟨some i, .accepted { p with ticket }⟩] ∧
        link.accepted? call answer = some p := by
  cases written with
  | @accepted call seq p ticket i enters => exact .inr ⟨i, p, ticket, rfl, enters⟩
  | refused submits => exact .inl ⟨rfl, accepted?_eq_none (by simp)⟩
  | ignored unheard => exact .inl ⟨rfl, accepted?_eq_none (by simp)⟩
  | acked heard acks => exact .inl ⟨rfl, accepted?_eq_none (by simp)⟩
  | unwanted heard isAck => exact .inl ⟨rfl, accepted?_eq_none (by simp)⟩
  | answered heard isData asks here => exact .inl ⟨rfl, accepted?_eq_none (by simp)⟩
  | delivered heard isData => exact .inl ⟨rfl, accepted?_eq_none (by simp)⟩
  | polled own =>
    refine .inl ⟨List.filterMap_eq_nil_iff.mpr ?_, accepted?_eq_none (by simp)⟩
    intro incident member
    obtain ⟨entry, among, rfl⟩ := List.mem_map.mp member
    obtain ⟨i, -, mine⟩ := Entry.eq_of_isOwn (own entry among)
    exact Incident.accepted?_of_isOwn mine
  | cancelled carries => exact .inl ⟨rfl, accepted?_eq_none (by simp)⟩
  | missed seq => exact .inl ⟨rfl, accepted?_eq_none (by simp)⟩

end Entries

/-! ## Accounts -/

variable {time : Nat} {entries more : List Entry} {entry : Entry} {a b d : View ρ γ}

namespace Logged

theorem trans (first : Logged time a entries b) (second : Logged time b more d) :
    Logged time a (entries ++ more) d := by
  constructor
  case leads =>
    rw [incidentsOf_append, stamp_append]
    exact first.leads.trans second.leads
  case record =>
    rw [second.record, first.record, incidentsOf_append, List.filterMap_append, List.append_assoc]
  case outcomes =>
    rw [second.outcomes, first.outcomes, incidentsOf_append, List.filterMap_append,
      Fifo.pushAll_append]
  case holds => exact second.holds

theorem single (step : a.line.Step (.ofNat time) entry.incident b.line)
    (record : b.station.record = a.station.record ++ entry.incident.transmission?.toList)
    (outcomes : b.station.outcomes = a.station.outcomes.pushAll entry.incident.outcome?.toList)
    (holds : b.outbox.Holds b.line) : Logged time a [entry] b := by
  have shown {β : Type} (view : Incident → Option β) :
      (incidentsOf [entry]).filterMap view = (view entry.incident).toList := by
    rw [filterMap_incidentsOf, List.filterMap_cons]
    cases view entry.incident <;> rfl
  constructor
  case leads => exact .single step
  case record => rw [shown, record]
  case outcomes => rw [shown, outcomes]
  case holds => exact holds

theorem tidy (logged : Logged time a entries b) (tidy : a.line.Tidy) : b.line.Tidy :=
  logged.leads.tidy tidy

/-- The answer of a call that tells no outcome. -/
theorem call {answer : Answer ε} (logged : Logged time a entries b)
    (silent : ∀ outcome, answer ≠ .polled (.ok outcome)) : LoggedCall time a answer entries b := by
  have tells (outcomes : Fifo Outcome) : answer.Tells outcomes := by
    cases answer with
    | polled result =>
      cases result with
      | ok outcome => exact absurd rfl (silent outcome)
      | error e => trivial
    | submitted result => trivial
    | received delivery => trivial
    | cancelled found => trivial
  have leave (outcomes : Fifo Outcome) : answer.leave outcomes = outcomes := by
    cases answer with
    | polled result =>
      cases result with
      | ok outcome => exact absurd rfl (silent outcome)
      | error e => rfl
    | submitted result => rfl
    | received delivery => rfl
    | cancelled found => rfl
  constructor
  case leads => exact logged.leads
  case record => exact logged.record
  case tells => exact tells _
  case left => rw [leave, logged.outcomes]
  case holds => exact logged.holds

/-- A poll tells the oldest outcome when it has done all that there is to do. -/
theorem poll (logged : Logged time a entries b) :
    LoggedCall (ε := ε) time a (.polled (.ok b.station.takeOutcome.1)) entries
      { b with station := b.station.takeOutcome.2 } := by
  constructor
  case leads => exact logged.leads
  case record => exact logged.record
  case tells =>
    rw [← logged.outcomes]
    rfl
  case left =>
    rw [← logged.outcomes]
    rfl
  case holds => exact logged.holds

end Logged

/-! ## What a link does -/

section Doing

variable {s s' : Station (Recorder ρ) γ} {o o' : Outbox} {line : Line} {i : Nat} {p q : Packet}

/-- The station has changed in what no entry tells. -/
theorem logged_nothing (time : Nat) (holds : o.Holds line) (record : s'.record = s.record)
    (outcomes : s'.outcomes = s.outcomes) : Logged time ⟨s, o, line⟩ [] ⟨s', o, line⟩ := by
  constructor
  case leads => exact .nil
  case record => exact record.trans (List.append_nil _).symm
  case outcomes => exact outcomes
  case holds => exact holds

theorem logged_start (holds : o.Holds line) (started : o.startNext (.ofNat time) = some (i, o'))
    (record : s'.record = s.record) (outcomes : s'.outcomes = s.outcomes) :
    ∃ p ∈ line.waiting,
      Logged time ⟨s, o, line⟩ [⟨some i, .started p⟩] ⟨s', o', line.launch p⟩ := by
  obtain ⟨grounded, p, member, due, oldest, -, -, holds'⟩ := holds.startNext started
  refine ⟨p, member, .single (.start grounded member due oldest) ?_ outcomes holds'⟩
  exact record.trans (List.append_nil _).symm

/-- A frame is acknowledged. -/
theorem logged_reply [Transceiver ρ ε] (time : Nat) {d : Descriptor} (holds : o.Holds line)
    (sound : (s.ackFor d).layoutError? = none) :
    ∃ taken, Logged time ⟨s, o, line⟩ [⟨none, .replied ⟨(s.ackFor d).headerBytes, [], taken⟩⟩]
      ⟨(s.sendAck (ε := ε) d).2, o, line⟩ := by
  refine ⟨_, .single (.reply _) (Station.record_sendAck (ε := ε) sound) ?_ holds⟩
  exact (s.sameBooks_sendAck (ε := ε) d).outcomes

section Flying

variable (time) (holds : o.Holds line) (found : o.inFlight? = some (i, p))
include holds found

theorem logged_hand [Transceiver ρ ε] {result : Except (LinkError ε) Nat}
    (sound : p.descriptor.layoutError? = none)
    (sent : s.transmit p.descriptor p.payload = (result, s')) (same : q.untried = p.untried)
    (holds' : o'.Holds (line.refit q)) :
    Logged time ⟨s, o, line⟩ [⟨some i, .handed p.untried result.isOk⟩] ⟨s', o', line.refit q⟩ := by
  apply Logged.single
  · exact .hand (holds.flying_of_inFlight? found) same
  · exact Station.record_of_transmit sound sent
  · exact (Station.sameBooks_of_transmit sent).outcomes
  · exact holds'

/-- What is heard or not heard of the packet in flight changes neither station nor outbox. -/
theorem logged_expire (s : Station (Recorder ρ) γ) :
    Logged time ⟨s, o, line⟩ [⟨some i, .expired p.untried⟩] ⟨s, o, line⟩ :=
  .single (.expire (holds.flying_of_inFlight? found)) (List.append_nil _).symm rfl holds

theorem logged_ack (s : Station (Recorder ρ) γ) (ack : Descriptor) :
    Logged time ⟨s, o, line⟩ [⟨some i, .acked p.untried ack⟩] ⟨s, o, line⟩ :=
  .single (.ack (holds.flying_of_inFlight? found)) (List.append_nil _).symm rfl holds

/-- The packet in flight is let go. -/
theorem logged_finish (reason : Option FailureReason) :
    Logged time ⟨s, o, line⟩ [⟨some i, .ended p.untried reason⟩]
      ⟨s.emit (p.outcome reason), { o with slots := o.slots.set i .idle }, line.land⟩ := by
  have flies := holds.flying_of_inFlight? found
  have told : p.untried.outcome reason = p.outcome reason := by cases reason <;> rfl
  apply Logged.single
  · exact .finish flies
  · exact (List.append_nil _).symm
  · show s.outcomes.push (p.outcome reason) = s.outcomes.push (p.untried.outcome reason)
    rw [told]
  · exact holds.land flies rfl ⟨Outbox.slot_of_inFlight? found, rfl⟩

end Flying

/-- What is submitted enters the line and takes a place, or it is refused. -/
theorem logged_submitted {link : Link (Recorder ρ) γ} {call : Call} {descriptor : Descriptor}
    {payload : Bytes} {result : Except (LinkError ε) UInt8} (time : Nat) (holds : o.Holds line)
    (submits : link.submission? call = some (descriptor, payload))
    (submitted : s.Submitted o descriptor payload result s' o') :
    ∃ entries line', Written link call (.submitted result) entries ∧
      Logged time ⟨s, o, line⟩ entries ⟨s', o', line'⟩ ∧
      (entries = [] ∧ o' = o ∨ ∃ i p, entries = [⟨some i, .accepted p⟩] ∧ p.attempts = 0 ∧
        p.descriptor.layoutError? = none ∧ Replaces i .idle (.queued p) o.slots o'.slots) := by
  have asked := submits_of_submission? submits
  have outcomes := submitted.books.2
  cases submitted with
  | unfit prepared =>
    have record := Station.record_of_prepare prepared
    exact ⟨[], line, .refused asked, logged_nothing time holds record outcomes, .inl ⟨rfl, rfl⟩⟩
  | full prepared refused =>
    have record := Station.record_of_prepare prepared
    exact ⟨[], line, .refused asked, logged_nothing time holds record outcomes, .inl ⟨rfl, rfl⟩⟩
  | @accepted p station i outbox prepared placed =>
    have record := Station.record_of_prepare prepared
    obtain ⟨seq, headerLength, rfl, encoded, -⟩ := Station.prepare_eq_ok prepared
    have sound := (Descriptor.encodedLength_eq_ok_iff.mp encoded).1
    obtain ⟨replaced, -⟩ := Outbox.accept_eq_ok placed
    obtain ⟨-, holds'⟩ := holds.accept placed
    have enters : link.accepted? (ε := ε) call (.submitted (.ok seq)) =
        some { descriptor := { descriptor with seq, headerLength }, payload } := by
      simp only [accepted?, submits, encoded]
    rw [holds.counted] at replaced
    refine ⟨_, line.enter _, .accepted enters, .single (.accept rfl sound) ?_ outcomes holds',
      .inr ⟨i, _, rfl, rfl, sound, replaced⟩⟩
    exact record.trans (List.append_nil _).symm

/-- What is removed leaves its place and the line, or its flight is broken off. -/
theorem logged_removed {seq : UInt8} {slot : Slot} (time : Nat) (s : Station (Recorder ρ) γ)
    (holds : o.Holds line) (tidy : line.Tidy) (removed : o.remove seq = some (slot, o')) :
    ∃ i p line', p.descriptor.seq = seq ∧ slot.packet? = some p ∧
      Replaces i slot .idle o.slots o'.slots ∧
      Logged time ⟨s, o, line⟩ [⟨some i, .cancelled p.untried⟩] ⟨s, o', line'⟩ := by
  have record : s.record = s.record ++ [] := (List.append_nil _).symm
  obtain ⟨i, p, freed, shown, carries, -⟩ := Outbox.remove_eq_some removed
  obtain ⟨q, -, ⟨rfl, member, holds'⟩ | ⟨rfl, flies, holds'⟩⟩ := holds.remove removed
  · obtain rfl : q = p := Option.some.inj shown
    have withdrawn : line.Step (.ofNat time) (.cancelled q.untried) (line.strike q) := by
      rw [Packet.untried_of_attempts (tidy.untried q member)]
      exact .withdraw member
    exact ⟨i, q, _, carries, rfl, freed, .single withdrawn record rfl holds'⟩
  · obtain rfl : q = p := Option.some.inj shown
    exact ⟨i, q, _, carries, rfl, freed, .single (.abandon flies) record rfl holds'⟩

end Doing

end MoteLink.Link
