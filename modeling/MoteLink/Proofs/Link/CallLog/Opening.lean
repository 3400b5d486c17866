import MoteLink.Proofs.Link.CallLog.Numbering
import MoteLink.Proofs.Link.CallLog.Run

/-!
# What a poll begins with

A poll that finds nothing in flight starts the packet that was accepted first among those that are
due, before it does anything else, or it finds none due and nothing happens to any packet. The
numbers of acceptance wrap: a packet is passed over for a later one only where `2 ^ 32` packets have
been accepted since.
-/

namespace MoteLink.Link

variable {ρ γ ε : Type}

/-! ## In a line -/

/-- What a poll at `now` does first to a line with nothing in flight: it puts the oldest packet in
    flight that is due. Where none is due nothing happens. -/
inductive Line.Begins (line : Line) (now : Tick) : List Incident → Prop
  | nothing (early : ∀ p ∈ line.waiting, p.isDue now = false) : Begins line now []
  | start {p : Packet} {more : List Incident} (member : p ∈ line.waiting)
      (due : p.isDue now = true)
      (oldest : ∀ q ∈ line.waiting, q.isDue now = true → line.age q ≤ line.age p) :
      Begins line now (.started p :: more)

section Lines

variable {line line' : Line} {now : Tick} {incident : Incident} {more : List Incident}

/-- With nothing in flight all that a link does by itself is to start a packet. -/
theorem Line.Step.begins (step : line.Step now incident line') (own : incident.isOwn = true)
    (grounded : line.flying = none) : line.Begins now (incident :: more) := by
  cases step with
  | start _ member due oldest => exact .start member due oldest
  | hand flies same => cases grounded.symm.trans flies
  | expire flies => cases grounded.symm.trans flies
  | finish flies => cases grounded.symm.trans flies
  | accept untried sound => cases own
  | ack flies => cases own
  | withdraw member => cases own
  | abandon flies => cases own
  | reply t => cases own

end Lines

section Polls

variable [Transceiver ρ ε] [RandomSource γ] {start : Link (Recorder ρ) γ} {a b : Lined ρ γ}
  {record : CallRecord (Recorder ρ) ε Entry} {config : Config}

/-- A poll that enters nothing has found no packet due. -/
theorem Records.early_of_nil (records : Records start a record b)
    (queueing : Queueing config a.link) (asked : record.event.call = .poll)
    (grounded : a.line.flying = none) (nothing : record.entries = []) :
    ∀ p ∈ a.line.waiting, p.isDue record.event.now = false := by
  have leads := records.logged.leads
  rw [nothing] at leads
  have same : b.line = a.line := leads.eq_of_nil
  have holds : b.link.outbox.Holds b.line := records.logged.holds
  have performed := records.performed
  rw [asked] at performed
  obtain ⟨result, -, polled⟩ := exists_poll_of_perform performed
  have flying : b.link.outbox.flying = [] := by
    rw [holds.flying, same, grounded]
    rfl
  have early := (queueing.setRadio record.event.radio).startNext_of_poll polled flying
  rcases Outbox.startNext_eq_none_iff.mp early with flies | early
  · exact absurd flying flies
  · intro p member
    rw [← same] at member
    exact early p (holds.waiting.mem_iff.mpr member)

/-- Every poll that finds nothing in flight begins so. -/
theorem Records.begins (records : Records start a record b) (queueing : Queueing config a.link)
    (asked : record.event.call = .poll) (grounded : a.line.flying = none) :
    a.line.Begins record.event.now (incidentsOf record.entries) := by
  have written := records.written
  rw [asked] at written
  have own := written.isOwn_of_poll
  have leads := records.logged.leads
  rw [records.clock]
  cases entered : record.entries with
  | nil =>
    rw [← records.clock]
    exact .nothing (records.early_of_nil queueing asked grounded entered)
  | cons entry rest =>
    rw [entered] at own leads
    obtain ⟨i, -, mine⟩ := Entry.eq_of_isOwn (own entry List.mem_cons_self)
    obtain ⟨right, step, -⟩ := leads.of_cons
    exact Line.Step.begins step mine grounded

end Polls

/-! ## Among all packets -/

/-- What a poll at `now` does first: it starts the packet that was accepted first among those that
    wait and are due. Only where `2 ^ 32` packets have been accepted since may one be passed over.
    Where none is due nothing happens. -/
inductive Opens (past : List NumberedIncident) (now : Tick) : List NumberedIncident → Prop
  | nothing (early : ∀ n p, Waits n p past → p.isDue now = false) : Opens past now []
  | start {n : Nat} {p : Packet} {more : List NumberedIncident} (waits : Waits n p past)
      (due : p.isDue now = true)
      (first : ∀ k q, Waits k q past → q.isDue now = true →
        n ≤ k ∨ k + 2 ^ 32 ≤ (acceptedBy past).length) :
      Opens past now (⟨some n, .started p⟩ :: more)

section Numbered

variable {past fresh : List NumberedIncident} {conditions : List Condition} {line : Line}
  {n : Nat} {p : Packet} {now : Tick}

/-- A packet has the number of its acceptance. -/
theorem Numbering.lt_of_waits (numbering : Numbering past conditions line)
    (waits : Waits n p past) : n < (acceptedBy past).length := by
  rw [numbering.accepted, List.length_map]
  exact (List.getElem?_eq_some_iff.mp (numbering.waits_iff.mp waits)).1

theorem Numbering.ticket_eq (numbering : Numbering past conditions line)
    (numbered : numberAll (acceptedBy past) = acceptedBy past) (waits : Waits n p past) :
    p.ticket = .ofNat n := by
  refine ticket_of_numberAll numbered ?_
  rw [numbering.accepted, List.getElem?_map, numbering.waits_iff.mp waits]
  rfl

/-- How far behind the next number of acceptance an earlier one is. -/
theorem toNat_ofNat_sub_ofNat {n k : Nat} (earlier : k ≤ n) :
    (UInt32.ofNat n - UInt32.ofNat k).toNat = (n - k) % 2 ^ 32 := by
  rw [UInt32.toNat_sub, UInt32.toNat_ofNat', UInt32.toNat_ofNat']
  omega

/-- What is oldest by the numbers that packets carry was accepted first. -/
theorem Line.Begins.opens (begins : line.Begins now (fresh.map NumberedIncident.incident))
    (numbering : Numbering past conditions line)
    (numbered : numberAll (acceptedBy past) = acceptedBy past)
    (counted : line.accepted = (acceptedBy past).length) (attributed : Attributed (past ++ fresh)) :
    Opens past now fresh := by
  generalize told : fresh.map NumberedIncident.incident = incidents at begins
  cases begins with
  | nothing early =>
    obtain rfl := List.map_eq_nil_iff.mp told
    exact .nothing fun n p waits => early p (numbering.mem_of_waits waits)
  | @start p incidents member due oldest =>
    obtain ⟨r, more, rfl, made, rfl⟩ := List.map_eq_cons_iff.mp told
    have placed : r ∈ past ++ r :: more := List.mem_append_right _ List.mem_cons_self
    obtain ⟨n, same⟩ := attributed.exists_number placed fun t => by simp [made]
    rw [made] at same
    subst same
    have waits := attributed.waits_of_started
    refine .start waits due fun k q waits' due' => ?_
    have below := numbering.lt_of_waits waits
    have below' := numbering.lt_of_waits waits'
    have age := oldest q (numbering.mem_of_waits waits') due'
    rw [Line.age, Line.age, counted, numbering.ticket_eq numbered waits,
      numbering.ticket_eq numbered waits', UInt32.le_iff_toNat_le,
      toNat_ofNat_sub_ofNat (Nat.le_of_lt below), toNat_ofNat_sub_ofNat (Nat.le_of_lt below')]
      at age
    omega

end Numbered

/-! ## In the log of a link -/

/-- What the first poll among these calls does, and when, fits what has happened until then. -/
def FirstPoll (Fits : List NumberedIncident → Tick → List NumberedIncident → Prop)
    (past : List NumberedIncident) (later : List (CallRecord ρ ε NumberedIncident)) : Prop :=
  ∀ between poll rest, later = between ++ poll :: rest →
    (∀ record ∈ between, record.event.call ≠ .poll) → poll.event.call = .poll →
      Fits (past ++ entriesOf between) poll.event.now poll.entries

section FirstPolls

variable {Fits Fits' : List NumberedIncident → Tick → List NumberedIncident → Prop}
  {past : List NumberedIncident} {later : List (CallRecord ρ ε NumberedIncident)}

theorem FirstPoll.imp (first : FirstPoll Fits past later)
    (weaker : ∀ past now entries, Fits past now entries → Fits' past now entries) :
    FirstPoll Fits' past later :=
  fun between poll rest split others asked =>
    weaker _ _ _ (first between poll rest split others asked)

theorem FirstPoll.concat {record : CallRecord ρ ε NumberedIncident}
    (earlier : FirstPoll Fits past later)
    (last : (∀ record ∈ later, record.event.call ≠ .poll) → record.event.call = .poll →
      Fits (past ++ entriesOf later) record.event.now record.entries) :
    FirstPoll Fits past (later ++ [record]) := by
  intro between poll rest split others asked
  rcases List.eq_nil_or_concat rest with rfl | ⟨front, final, rfl⟩
  · obtain ⟨rfl, same⟩ := List.append_inj' split rfl
    cases same
    exact last others asked
  · rw [List.concat_eq_append, ← List.cons_append, ← List.append_assoc] at split
    exact earlier between poll front (List.append_inj' split rfl).1 others asked

end FirstPolls

section Logs

variable [Transceiver ρ ε] [RandomSource γ]

/-- What a call that is not a poll does puts nothing in flight. -/
theorem Records.grounded {start : Link (Recorder ρ) γ}
    {a b : Lined ρ γ} {record : CallRecord (Recorder ρ) ε Entry}
    (records : Records start a record b)
    (other : record.event.call ≠ .poll) (grounded : a.line.flying = none) :
    b.line.flying = none := by
  have quiet : ∀ entry ∈ stamp record.time (incidentsOf record.entries),
      entry.2.isQuiet = true := by
    intro entry member
    obtain ⟨incident, among, rfl⟩ := List.mem_map.mp member
    obtain ⟨entered, there, rfl⟩ := List.mem_map.mp among
    exact records.written.quiet other entered there
  by_contra flies
  obtain ⟨p, flies⟩ := Option.ne_none_iff_exists'.mp flies
  cases grounded.symm.trans (records.logged.leads.flying_of_quiet quiet flies)

/-- The numbered records, dated by the clock, tell what the log of a link tells, and lead each of
    the packets accepted to its condition. -/
structure NumberedLog (start : Link (Recorder ρ) γ)
    (records : List (CallRecord (Recorder ρ) ε Entry))
    (numbered : List (CallRecord (Recorder ρ) ε NumberedIncident)) (conditions : List Condition)
    (reached : Lined ρ γ) : Prop where
  log : CallLog start records reached
  same : records.map (CallRecord.map Entry.incident) =
    numbered.map (CallRecord.map NumberedIncident.incident)
  dated : ∀ record ∈ numbered, record.time = record.event.now.toNat
  numbering : Numbering (entriesOf numbered) conditions reached.line

namespace NumberedLog

variable {start : Link (Recorder ρ) γ} {records : List (CallRecord (Recorder ρ) ε Entry)}
  {numbered : List (CallRecord (Recorder ρ) ε NumberedIncident)} {conditions : List Condition}
  {reached : Lined ρ γ}

section Reading

variable (kept : NumberedLog start records numbered conditions reached)
include kept

theorem events : records.map CallRecord.event = numbered.map CallRecord.event := by
  have events := congrArg (List.map CallRecord.event) kept.same
  rw [List.map_map, List.map_map] at events
  exact events

theorem times :
    records.map CallRecord.time = numbered.map fun record => record.event.now.toNat := by
  have times := congrArg (List.map CallRecord.time) kept.same
  rw [List.map_map, List.map_map] at times
  exact times.trans (List.map_congr_left kept.dated)

theorem acceptedBy_eq : acceptedBy (entriesOf numbered) = acceptedIn (timeline records) := by
  have incidents := congrArg entriesOf kept.same
  rw [entriesOf_map, entriesOf_map, ← incidentsOf, ← map_snd_timeline] at incidents
  have accepted := congrArg (List.filterMap Incident.accepted?) incidents
  rw [List.filterMap_map, List.filterMap_map] at accepted
  exact accepted.symm

end Reading

variable {method : Method} {capacity : Nat} {config : Config} {radio : ρ} {rng : γ}
  {after last : Link (Recorder ρ) γ} {history : List (Event (Recorder ρ) ε)}

/-- One call more is recorded, and if it is a poll with nothing in flight it starts the packet whose
    turn it is. -/
theorem call (queues : method = .carrierSense ∨ method = .acknowledged)
    (kept : NumberedLog (.new method capacity config ⟨radio, []⟩ rng) records numbered conditions
      reached)
    (event : Event (Recorder ρ) ε) (untouched : event.radio.record = reached.link.record)
    (performed : (reached.link.setRadio event.radio).perform event.now event.call =
      .ok (event.answer, after)) :
    ∃ record fresh conditions' line', record.event = event ∧
      fresh.map NumberedIncident.incident = incidentsOf record.entries ∧
      Records (.new method capacity config ⟨radio, []⟩ rng) reached record ⟨after, line'⟩ ∧
      NumberedLog (.new method capacity config ⟨radio, []⟩ rng) (records ++ [record])
        (numbered ++ [⟨event, event.now.toNat, fresh⟩]) conditions' ⟨after, line'⟩ ∧
      (event.call = .poll → reached.line.flying = none →
        Opens (entriesOf numbered) event.now fresh) := by
  obtain ⟨queueing, -⟩ := queueing_of_run queues kept.log.recording.run
  have recorded := kept.log.leads.recorded
  have clock : event.now = .ofNat event.now.toNat := UInt32.ofNat_toNat.symm
  obtain ⟨entries, line', here, -⟩ := records_of_perform queues kept.log clock untouched performed
  obtain ⟨fresh, conditions', told, numbering⟩ :=
    kept.numbering.leads recorded.tidy here.logged.leads
  rw [map_snd_stamp] at told
  refine ⟨⟨event, event.now.toNat, entries⟩, fresh, conditions', line', rfl, told, here, ?_, ?_⟩
  · constructor
    case log => exact kept.log.snoc here
    case same =>
      have last : entries.map Entry.incident = fresh.map NumberedIncident.incident := told.symm
      rw [List.map_append, List.map_append, kept.same, List.map_singleton, List.map_singleton,
        CallRecord.map, CallRecord.map, last]
    case dated => exact List.forall_mem_append.mpr ⟨kept.dated, List.forall_mem_singleton.mpr rfl⟩
    case numbering =>
      rw [entriesOf_concat]
      exact numbering
  · intro asked grounded
    have begins := here.begins queueing asked grounded
    rw [← told] at begins
    refine begins.opens kept.numbering ?_ ?_ numbering.attributed
    · rw [kept.acceptedBy_eq]
      exact recorded.numbered
    · rw [kept.acceptedBy_eq]
      exact recorded.accepted

end NumberedLog

end Logs

end MoteLink.Link
