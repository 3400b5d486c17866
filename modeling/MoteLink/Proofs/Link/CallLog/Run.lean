import Mathlib.Algebra.Order.BigOperators.Group.List
import Mathlib.Algebra.Order.Group.Nat
import MoteLink.Proofs.Link.CallLog.Acknowledged
import MoteLink.Proofs.Link.CallLog.CarrierSense
import MoteLink.Proofs.Link.Outcomes

/-!
# The log of a run

The log of a link has a record for each call of a recording, with the real time of the call and all
that has happened meanwhile. Every recording of a link with an outbox has a log, and it shows that
packets are served in turn and, where they are sent again, that attempts keep their pace.
-/

namespace MoteLink

namespace Link

variable {ρ γ ε : Type}

/-- The link with the line that its outbox stands for. -/
def view (link : Link (Recorder ρ) γ) (line : Line) : View ρ γ := ⟨link.station, link.outbox, line⟩

/-- Stage of a place. Only places of an acknowledged link have stages. -/
def stageAt : Link ρ γ → Nat → Stage
  | .acknowledged m, i => m.stageAt i
  | _, _ => .vacant

/-- An acknowledged link keeps the pace; other links do not send a packet again. -/
def Paces (c : Config) (time : Nat) (log : List (Nat × Incident)) (line : Line) :
    Link (Recorder ρ) γ → Prop
  | .acknowledged m => m.Paces c time log line
  | _ => True

/-- A link and the line that its outbox stands for. -/
structure Lined (ρ γ : Type) where
  link : Link (Recorder ρ) γ
  line : Line := {}

/-- The outcomes to be fetched, with those that the record tells of. -/
def CallRecord.post (record : CallRecord ρ ε Entry) (outcomes : Fifo Outcome) : Fifo Outcome :=
  outcomes.pushAll ((incidentsOf record.entries).filterMap Incident.outcome?)

/-- The outcomes left to be fetched when the calls of all records have been made. -/
def outcomesAfter (outcomes : Fifo Outcome) (records : List (CallRecord ρ ε Entry)) :
    Fifo Outcome :=
  records.foldl (fun outcomes record => record.event.answer.leave (record.post outcomes)) outcomes

theorem stageAt_ne_over (link : Link ρ γ) (i : Nat) (p : Packet) (reason : Option FailureReason) :
    link.stageAt i ≠ .over p reason := by
  cases link with
  | acknowledged m => exact m.stageAt_ne_over i p reason
  | passThrough m => nofun
  | carrierSense m => nofun
  | timeSlot m => nofun

theorem stageAt_new (method : Method) (capacity : Nat) (config : Config) (radio : ρ) (rng : γ)
    (i : Nat) : (Link.new method capacity config radio rng).stageAt i = .vacant := by
  cases method with
  | acknowledged =>
    exact Acknowledged.stageAt_of_idle (fun slot member => List.eq_of_mem_replicate member) i
  | passThrough => rfl
  | carrierSense => rfl
  | timeSlot => rfl

theorem outcomesAfter_concat (outcomes : Fifo Outcome) (records : List (CallRecord ρ ε Entry))
    (record : CallRecord ρ ε Entry) : outcomesAfter outcomes (records ++ [record]) =
      record.event.answer.leave (record.post (outcomesAfter outcomes records)) := by
  rw [outcomesAfter, List.foldl_append]
  rfl

theorem record_new (method : Method) (capacity : Nat) (config : Config) (radio : ρ) (rng : γ) :
    (Link.new method capacity config (⟨radio, []⟩ : Recorder ρ) rng).record = [] := by
  cases method <;> rfl

theorem outcomes_new (method : Method) (capacity : Nat) (config : Config) (radio : Recorder ρ)
    (rng : γ) :
    (Link.new method capacity config radio rng).station.outcomes = .empty outcomeCapacity := by
  cases method <;> rfl

section CallLogs

variable [Transceiver ρ ε] [RandomSource γ]

/-- The record tells of a call that leads from one state to another in a run from `start`, and its
    entries account for all that the call has changed. The clock shows the real time modulo
    `2 ^ 32`. -/
structure Records (start : Link (Recorder ρ) γ) (a : Lined ρ γ)
    (record : CallRecord (Recorder ρ) ε Entry) (b : Lined ρ γ) : Prop where
  clock : record.event.now = .ofNat record.time
  untouched : record.event.radio.record = a.link.record
  performed : (a.link.setRadio record.event.radio).perform record.event.now record.event.call =
    .ok (record.event.answer, b.link)
  written : Written start record.event.call record.event.answer record.entries
  logged : LoggedCall record.time (a.link.view a.line) record.event.answer record.entries
    (b.link.view b.line)
  staged : start.method = .acknowledged → Staged start.station record.event.now a.link.stageAt
    record.event.call record.entries b.link.stageAt

/-- The records, oldest first, tell all that has happened to a link since it was `start`. -/
def CallLog (start : Link (Recorder ρ) γ) (records : List (CallRecord (Recorder ρ) ε Entry))
    (reached : Lined ρ γ) : Prop :=
  Path (Records start) ⟨start, {}⟩ records reached

/-- The records tell of the given calls, made at the given times, and of all that has happened
    between a link's start and its present state: what it has accepted, what the radio was asked to
    transmit, and which outcomes were told and are left to be fetched. -/
structure TrueTo (start : Link (Recorder ρ) γ) (history : List (Event (Recorder ρ) ε))
    (times : List Nat) (link : Link (Recorder ρ) γ)
    (records : List (CallRecord (Recorder ρ) ε Entry)) : Prop where
  events : records.map CallRecord.event = history
  times : records.map CallRecord.time = times
  log : ∃ line, CallLog start records ⟨link, line⟩
  accepted : acceptedIn (timeline records) = start.accepted history
  record : link.record = (timeline records).filterMap fun e => e.2.transmission?
  outcomes : link.station.outcomes = outcomesAfter (.empty outcomeCapacity) records
  tells : ∀ before record after, records = before ++ record :: after →
    record.event.answer.Tells (record.post (outcomesAfter (.empty outcomeCapacity) before))

/-! ## Reading a log -/

variable {start : Link (Recorder ρ) γ}
  {records before after : List (CallRecord (Recorder ρ) ε Entry)}
  {record : CallRecord (Recorder ρ) ε Entry} {reached : Lined ρ γ}

namespace CallLog

theorem split (log : CallLog start (before ++ record :: after) reached) :
    ∃ a b, CallLog start before a ∧ Records start a record b ∧
      Path (Records start) b after reached :=
  Path.split log

theorem recording (log : CallLog start records reached) :
    Recording start (records.map CallRecord.event) reached.link := by
  induction log with
  | nil => exact .start
  | snoc earlier last ih =>
    rw [List.map_append]
    exact ih.call _ last.untouched last.performed

theorem leads (log : CallLog start records reached) :
    Line.Leads {} (timeline records) reached.line := by
  induction log with
  | nil => exact .nil
  | snoc earlier last ih =>
    rw [timeline_concat]
    exact ih.trans last.logged.leads

theorem holds (log : CallLog start records reached) (first : start.outbox.Holds {}) :
    reached.link.outbox.Holds reached.line := by
  cases log with
  | nil => exact first
  | snoc earlier last => exact last.logged.holds

/-- What the log tells of a place has brought it to its stage. -/
theorem stages (log : CallLog start records reached) (method : start.method = .acknowledged)
    (i : Nat) : Stage.Leads start.station.config (start.stageAt i) (courseAt i records)
      (reached.link.stageAt i) := by
  induction log with
  | nil => exact .nil
  | snoc earlier last ih =>
    rw [courseAt_append, courseAt_single]
    exact ih.trans ((last.staged method).tracks i)

/-- All that the radio was asked to transmit stands in the log, in order. -/
theorem record_eq (log : CallLog start records reached) :
    reached.link.record =
      start.record ++ (timeline records).filterMap fun e => e.2.transmission? := by
  induction log with
  | nil => exact (List.append_nil _).symm
  | snoc earlier last ih =>
    rw [timeline_concat, List.filterMap_append, filterMap_stamp, ← List.append_assoc, ← ih]
    exact last.logged.record

/-- Every record stands for a call, whose entries are of the kind that such a call makes. -/
theorem written_of_mem (log : CallLog start records reached) (member : record ∈ records) :
    Written start record.event.call record.event.answer record.entries := by
  obtain ⟨before, after, rfl⟩ := List.append_of_mem member
  obtain ⟨a, b, -, here, -⟩ := log.split
  exact here.written

/-- What is to be fetched is what the log tells of and no call has told. -/
theorem outcomes_eq (log : CallLog start records reached) :
    reached.link.station.outcomes = outcomesAfter start.station.outcomes records := by
  induction log with
  | nil => rfl
  | @snoc records a b record earlier last ih =>
    rw [outcomesAfter_concat, ← ih]
    exact last.logged.left

/-- The packets accepted are those that the calls have brought in, numbered in their order. -/
theorem accepted_eq (log : CallLog start records reached) :
    acceptedIn (timeline records) = start.accepted (records.map CallRecord.event) := by
  induction log with
  | nil => rfl
  | @snoc records a b record earlier last ih =>
    have leads := last.logged.leads
    rw [timeline_concat, List.map_append, List.map_singleton, acceptedIn_append, ih]
    rcases last.written.accepted_eq with ⟨nothing, unentered⟩ | ⟨i, p, ticket, same, enters⟩
    · rw [accepted_append_none _ unentered, acceptedIn, filterMap_stamp, nothing, List.append_nil]
    · rw [accepted_append_some _ enters, same]
      rw [same] at leads
      have number : ticket = .ofNat a.line.accepted := leads.step_of_single.number rfl
      rw [number, (CallLog.leads earlier).recorded.accepted, ih]
      rfl

/-- The log tells the truth about the link. -/
theorem trueTo {method : Method} {capacity : Nat} {config : Config} {radio : ρ} {rng : γ}
    (log : CallLog (.new method capacity config ⟨radio, []⟩ rng) records reached) :
    TrueTo (.new method capacity config ⟨radio, []⟩ rng) (records.map CallRecord.event)
      (records.map CallRecord.time) reached.link records := by
  constructor
  case events => rfl
  case times => rfl
  case log => exact ⟨reached.line, log⟩
  case accepted => exact log.accepted_eq
  case record =>
    have whole := log.record_eq
    rw [record_new] at whole
    exact whole
  case outcomes =>
    have whole := log.outcomes_eq
    rw [outcomes_new] at whole
    exact whole
  case tells =>
    intro before record after parted
    rw [parted] at log
    obtain ⟨a, b, earlier, here, -⟩ := log.split
    have told := here.logged.tells
    have sofar := earlier.outcomes_eq
    rw [outcomes_new] at sofar
    rw [← sofar]
    exact told

end CallLog

end CallLogs

/-! ## Every recording has a log -/

section Runs

variable {c : Config} {link after : Link (Recorder ρ) γ} {line : Line} {time : Nat} {call : Call}
  {answer : Answer ε} {entries : List Entry}

/-- What the medium does to the radio between two calls is not the link's doing. -/
theorem LoggedCall.untuned {radio : Recorder ρ} {b : View ρ γ}
    (untouched : radio.record = link.record)
    (logged : LoggedCall time ((link.setRadio radio).view line) answer entries b) :
    LoggedCall time (link.view line) answer entries b := by
  have outcomes : (link.setRadio radio).station.outcomes = link.station.outcomes := by
    rw [setRadio, station_setStation]
  have record : (link.setRadio radio).station.record = link.record := by
    rw [setRadio, station_setStation]
    exact untouched
  have told := logged.record
  have tells := logged.tells
  have left := logged.left
  simp only [view, outcomes, record] at told tells left
  exact ⟨logged.leads, told, tells, left, logged.holds⟩

theorem stageAt_setRadio (link : Link (Recorder ρ) γ) (radio : Recorder ρ) :
    (link.setRadio radio).stageAt = link.stageAt := by
  cases link <;> rfl

theorem paces_setRadio (link : Link (Recorder ρ) γ) (radio : Recorder ρ) (c : Config) (time : Nat)
    (log : List (Nat × Incident)) (line : Line) :
    (link.setRadio radio).Paces c time log line ↔ link.Paces c time log line := by
  cases link with
  | acknowledged m => exact ⟨fun paces => ⟨paces.pacing, paces.timed⟩,
      fun paces => ⟨paces.pacing, paces.timed⟩⟩
  | passThrough m => exact Iff.rfl
  | carrierSense m => exact Iff.rfl
  | timeSlot m => exact Iff.rfl

theorem Paces.later {log : List (Nat × Incident)} {time' : Nat} (paces : link.Paces c time log line)
    (later : time ≤ time') : link.Paces c time' log line := by
  cases link with
  | acknowledged m => exact Acknowledged.Paces.later paces later
  | passThrough m => trivial
  | carrierSense m => trivial
  | timeSlot m => trivial

variable {method : Method} {capacity : Nat} {config : Config} {radio : ρ} {rng : γ}
  {history : List (Event (Recorder ρ) ε)} {times : List Nat}

theorem holds_new (queues : method = .carrierSense ∨ method = .acknowledged) (capacity : Nat)
    (config : Config) (radio : Recorder ρ) (rng : γ) :
    (Link.new method capacity config radio rng).outbox.Holds {} := by
  rcases queues with rfl | rfl
  · exact Outbox.holds_empty capacity
  · exact Outbox.holds_empty capacity

theorem paces_new (method : Method) (capacity : Nat) (config : Config) (radio : Recorder ρ)
    (rng : γ) (time : Nat) :
    (Link.new method capacity config radio rng).Paces config time [] {} := by
  cases method with
  | acknowledged => exact ⟨.nothing, trivial⟩
  | passThrough => trivial
  | carrierSense => trivial
  | timeSlot => trivial

variable [Transceiver ρ ε] [RandomSource γ]

/-- All that a call does is entered, and the pace is kept. -/
theorem Queueing.logged (queueing : Queueing c link) (holds : link.outbox.Holds line)
    (tidy : line.Tidy) (performed : link.perform (.ofNat time) call = .ok (answer, after)) :
    ∃ entries line', Written link call answer entries ∧
      LoggedCall time (link.view line) answer entries (after.view line') ∧
      (link.method = .acknowledged →
        Staged link.station (.ofNat time) link.stageAt call entries after.stageAt) ∧
      (c.Paceable → ∀ log, link.Paces c time log line →
        after.Paces c time (log ++ stamp time (incidentsOf entries)) line') := by
  cases queueing with
  | carrierSense served =>
    obtain ⟨m', rfl, performs⟩ := CarrierSense.performs_of_perform performed
    obtain ⟨entries, line', written, logged⟩ :=
      CarrierSense.logged_of_performs served.served holds tidy performs
    exact ⟨entries, line', written, logged, nofun, fun _ _ _ => trivial⟩
  | acknowledged served =>
    obtain ⟨m', rfl, performs⟩ := Acknowledged.performs_of_perform performed
    obtain ⟨entries, line', entered⟩ :=
      Acknowledged.entered_of_performs served holds tidy performs
    exact ⟨entries, line', entered.written, entered.logged, fun _ => entered.staged, entered.paces⟩

/-- A call more is recorded, and the pace is kept. -/
theorem records_of_perform {records : List (CallRecord (Recorder ρ) ε Entry)} {a : Lined ρ γ}
    {event : Event (Recorder ρ) ε} (queues : method = .carrierSense ∨ method = .acknowledged)
    (log : CallLog (.new method capacity config ⟨radio, []⟩ rng) records a)
    (clock : event.now = .ofNat time) (untouched : event.radio.record = a.link.record)
    (performed : (a.link.setRadio event.radio).perform event.now event.call =
      .ok (event.answer, after)) :
    ∃ entries line', Records (.new method capacity config ⟨radio, []⟩ rng) a ⟨event, time, entries⟩
        ⟨after, line'⟩ ∧
      (config.Paceable → ∀ log, a.link.Paces config time log a.line →
        after.Paces config time (log ++ stamp time (incidentsOf entries)) line') := by
  obtain ⟨queueing, same⟩ := queueing_of_run queues log.recording.run
  have holds := log.holds (holds_new queues capacity config ⟨radio, []⟩ rng)
  rw [← outbox_setRadio a.link event.radio] at holds
  have performed' := performed
  rw [clock] at performed'
  have tuned := queueing.setRadio event.radio
  obtain ⟨entries, line', written, logged, staged, keeps⟩ :=
    tuned.logged holds (log.leads.tidy Line.tidy_empty) performed'
  have method_eq : (a.link.setRadio event.radio).method =
      (Link.new method capacity config (⟨radio, []⟩ : Recorder ρ) rng).method := by
    rw [setRadio, method_setStation, same, method_new]
  have config_eq : (a.link.setRadio event.radio).station.config =
      (Link.new method capacity config (⟨radio, []⟩ : Recorder ρ) rng).station.config := by
    rw [tuned.config_eq, (Queueing.new queues _ _ _ _).config_eq]
  refine ⟨entries, line', ⟨clock, untouched, performed, written.congr method_eq config_eq,
    logged.untuned untouched, ?_⟩, ?_⟩
  · intro acknowledged
    have stages := (staged (method_eq.trans acknowledged)).congr config_eq
    rw [stageAt_setRadio, ← clock] at stages
    exact stages
  · intro paceable past paces
    exact keeps paceable past
      ((paces_setRadio a.link event.radio config time past a.line).mpr paces)

/-- Every recording of a link with an outbox has a log, and in the course of time the link keeps the
    pace. -/
theorem log_of_recording (queues : method = .carrierSense ∨ method = .acknowledged)
    (recording : Recording (.new method capacity config ⟨radio, []⟩ rng) history link)
    (clock : history.map Event.now = times.map UInt32.ofNat) :
    ∃ records line, CallLog (.new method capacity config ⟨radio, []⟩ rng) records ⟨link, line⟩ ∧
      records.map CallRecord.event = history ∧ records.map CallRecord.time = times ∧
      ((times.Pairwise fun a b => a ≤ b) → config.Paceable → ∀ time, (∀ past ∈ times, past ≤ time) →
        link.Paces config time (timeline records) line) := by
  induction recording generalizing times with
  | start =>
    obtain rfl : times = [] := List.map_eq_nil_iff.mp clock.symm
    exact ⟨[], {}, .nil, rfl, rfl, fun _ _ time _ => paces_new method capacity config _ rng time⟩
  | @call history link after event recording untouched performed ih =>
    rcases List.eq_nil_or_concat times with rfl | ⟨earlier, time, rfl⟩
    · exact absurd clock (by simp)
    rw [List.concat_eq_append, List.map_append, List.map_append] at clock
    rw [List.concat_eq_append]
    obtain ⟨clock, now⟩ := List.append_inj' clock rfl
    have now : event.now = .ofNat time := List.singleton_inj.mp now
    obtain ⟨records, line, log, rfl, rfl, paces⟩ := ih clock
    obtain ⟨entries, line', recorded, keeps⟩ :=
      records_of_perform queues log now untouched performed
    refine ⟨records ++ [⟨event, time, entries⟩], line', log.snoc recorded,
      by rw [List.map_append]; rfl, by rw [List.map_append]; rfl, ?_⟩
    intro sorted paceable time' all
    obtain ⟨sorted, -, last⟩ := List.pairwise_append.mp sorted
    have past (t : Nat) (member : t ∈ records.map CallRecord.time) : t ≤ time :=
      last t member time (List.mem_singleton_self time)
    have later : time ≤ time' := all time (List.mem_append_right _ (List.mem_singleton_self time))
    rw [timeline_concat]
    exact (keeps paceable _ (paces sorted paceable time past)).later later

/-- Where no real time is given each record may be dated by the clock. -/
theorem exists_log_of_recording (queues : method = .carrierSense ∨ method = .acknowledged)
    (recording : Recording (.new method capacity config ⟨radio, []⟩ rng) history link) :
    ∃ records line, CallLog (.new method capacity config ⟨radio, []⟩ rng) records ⟨link, line⟩ ∧
      TrueTo (.new method capacity config ⟨radio, []⟩ rng) history
        (history.map fun event => event.now.toNat) link records := by
  have clock : history.map Event.now =
      (history.map fun event => event.now.toNat).map UInt32.ofNat := by simp
  obtain ⟨records, line, log, rfl, times, -⟩ := log_of_recording queues recording clock
  exact ⟨records, line, log, times ▸ log.trueTo⟩

/-- The record only grows. -/
theorem record_of_perform {event : Event (Recorder ρ) ε}
    (queues : method = .carrierSense ∨ method = .acknowledged)
    (recording : Recording (.new method capacity config ⟨radio, []⟩ rng) history link)
    (untouched : event.radio.record = link.record)
    (performed : (link.setRadio event.radio).perform event.now event.call =
      .ok (event.answer, after)) : ∃ more, after.record = link.record ++ more := by
  obtain ⟨records, line, log, -⟩ := exists_log_of_recording queues recording
  have clock : event.now = .ofNat event.now.toNat := UInt32.ofNat_toNat.symm
  obtain ⟨entries, line', recorded, -⟩ := records_of_perform queues log clock untouched performed
  exact ⟨_, recorded.logged.record⟩

/-- In every recording of a link with an outbox, in whose calls the clock has shown the time of a
    real clock that is never set back, packets are served in turn: none before its send time, no two
    at once, of those due the one accepted first, and with outcomes in the order of the service. -/
theorem servedInTurn_of_recording (queues : method = .carrierSense ∨ method = .acknowledged)
    (recording : Recording (.new method capacity config ⟨radio, []⟩ rng) history link)
    (clock : history.map Event.now = times.map UInt32.ofNat)
    (sorted : times.Pairwise fun a b => a ≤ b)
    (few : (accepted (.new method capacity config (⟨radio, []⟩ : Recorder ρ) rng) history).length <
      2 ^ 32) :
    ∃ records, TrueTo (.new method capacity config ⟨radio, []⟩ rng) history times link records ∧
      ServedInTurn (timeline records) := by
  obtain ⟨records, line, log, rfl, rfl, -⟩ := log_of_recording queues recording clock
  refine ⟨records, log.trueTo, log.leads.servedInTurn ?_ (pairwise_timeline sorted)⟩
  rw [log.leads.recorded.accepted, log.accepted_eq]
  exact few

/-- Before the clock wraps two packets are accepted, one to be sent after that and one to be sent at
    once. -/
theorem servedInTurn_of_recording_delayed :
    ∃ (history : List (Event (Recorder Bench) BenchError))
      (link : Link (Recorder Bench) StepGenerator)
      (records : List (CallRecord (Recorder Bench) BenchError Entry)),
      Recording (.new .carrierSense 2 { address := .short 1, maxInitialBackoff := 0 } ⟨{}, []⟩
        ⟨0, 0⟩) history link ∧
      link.record.map Transmission.payload = [[2], [1]] ∧
      TrueTo (.new .carrierSense 2 { address := .short 1, maxInitialBackoff := 0 } ⟨{}, []⟩ ⟨0, 0⟩)
        history [4294967290, 4294967290, 4294967290, 4294967297, 4294967298] link records ∧
      ServedInTurn (timeline records) := by
  have recording : Recording (ε := BenchError) (.new .carrierSense 2
      { address := .short 1, maxInitialBackoff := 0 } (⟨{}, []⟩ : Recorder Bench)
      (⟨0, 0⟩ : StepGenerator)) _ _ :=
    recording_of_replay [(4294967290, id, .submit { dst := .short 2, seq := 1, sendAt := 2 } [1]),
      (4294967290, id, .submit { dst := .short 2, seq := 2, sendAt := 4294967290 } [2]),
      (4294967290, id, .poll), (1, id, .poll), (2, id, .poll)] rfl
  obtain ⟨records, trueTo, served⟩ := servedInTurn_of_recording (.inl rfl) recording
    (rfl : _ = List.map UInt32.ofNat
      [4294967290, 4294967290, 4294967290, 4294967297, 4294967298]) (by decide) (by decide +kernel)
  exact ⟨_, _, records, recording, rfl, trueTo, served⟩

/-- In every recording of an acknowledged link whose waits are at most half a turn of the clock, in
    whose calls the clock has shown the time of a real clock that is never set back, the attempts
    on each packet keep their pace, however many packets there are and whenever the clock wraps. -/
theorem paced_of_recording
    (recording : Recording (.new .acknowledged capacity config ⟨radio, []⟩ rng) history link)
    (clock : history.map Event.now = times.map UInt32.ofNat)
    (sorted : times.Pairwise fun a b => a ≤ b) (paceable : config.Paceable) :
    ∃ records,
      TrueTo (.new .acknowledged capacity config ⟨radio, []⟩ rng) history times link records ∧
        Paced config (timeline records) := by
  obtain ⟨records, line, log, rfl, rfl, paces⟩ := log_of_recording (.inr rfl) recording clock
  refine ⟨records, log.trueTo, ?_⟩
  have past (time : Nat) (member : time ∈ records.map CallRecord.time) :
      time ≤ (records.map CallRecord.time).sum :=
    List.single_le_sum (fun _ _ => Nat.zero_le _) time member
  have kept := paces sorted paceable _ past
  have acknowledged := (queueing_of_run (.inr rfl) recording.run).2
  cases link with
  | acknowledged m => exact kept.pacing.paced log.leads
  | passThrough m => cases acknowledged
  | carrierSense m => cases acknowledged
  | timeSlot m => cases acknowledged

/-- The second attempt on a packet is made after the clock has wrapped, as soon as it may. -/
theorem paced_of_recording_retried :
    ∃ (history : List (Event (Recorder Bench) BenchError))
      (link : Link (Recorder Bench) StepGenerator)
      (records : List (CallRecord (Recorder Bench) BenchError Entry)),
      Recording (.new .acknowledged 1
        { address := .short 1, maxAttempts := 2, maxInitialBackoff := 0 } ⟨{}, []⟩ ⟨0, 0⟩)
        history link ∧
      link.record.map Transmission.payload = [[7], [7]] ∧
      TrueTo (.new .acknowledged 1 { address := .short 1, maxAttempts := 2, maxInitialBackoff := 0 }
        ⟨{}, []⟩ ⟨0, 0⟩) history [4294967196, 4294967196, 4294967396, 4294967496] link records ∧
      Paced { address := .short 1, maxAttempts := 2, maxInitialBackoff := 0 }
        (timeline records) := by
  have recording : Recording (ε := BenchError) (.new .acknowledged 1
      { address := .short 1, maxAttempts := 2, maxInitialBackoff := 0 }
      (⟨{}, []⟩ : Recorder Bench) (⟨0, 0⟩ : StepGenerator)) _ _ :=
    recording_of_replay [(4294967196, id, .submit
        { dst := .short 2, seq := 1, sendAt := 4294967196, flags := { ackRequested := true } } [7]),
      (4294967196, id, .poll), (100, id, .poll), (200, id, .poll)] rfl
  obtain ⟨records, trueTo, paced⟩ := paced_of_recording recording
    (rfl : _ = List.map UInt32.ofNat [4294967196, 4294967196, 4294967396, 4294967496]) (by decide)
    ⟨by decide, by decide⟩
  exact ⟨_, _, records, recording, rfl, trueTo, paced⟩

end Runs

end Link

end MoteLink
