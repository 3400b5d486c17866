import MoteLink.Proofs.Link.CallLog.Incident
import MoteLink.Proofs.Link.Outcomes
import MoteLink.Proofs.Link.Recording
import MoteLink.Proofs.Link.TimeSlot
import MoteLink.Proofs.Link.Wakeup
import MoteLink.Proofs.Trace

/-!
# The log of a time-slot link

A time-slot link holds one packet at most, and each call does one of a few things to it. Its log has
a record for each call of a recording. Every recording of a time-slot link has a log, which tells
the lives of the packets one after the other: a packet is accepted, then it is handed to the radio
once and its outcome is told, or it is cancelled, or it still waits.
-/

namespace MoteLink.Link

variable {ρ γ ε : Type}

/-- What comes of handing a packet to a radio without being acknowledged. -/
def refusal (taken : Bool) : Option FailureReason :=
  if taken then none else some .radio

namespace TimeSlot

/-! ## Calls -/

/-- The entry about something that happens in the only place that there is. -/
def entry (incident : Incident) : Entry := ⟨some 0, incident⟩

/-- What a call can do to the packet that waits, and the entries that it makes. The link has started
    as `home`. -/
inductive Effect (home : TimeSlot ρ γ) (now : Tick) :
    Call → Answer ε → Option Packet → List Entry → Option Packet → Prop
  | accept {call : Call} {seq : UInt8} {p : Packet} (sound : p.descriptor.layoutError? = none)
      (enters : (Link.timeSlot home).accepted? (ε := ε) call (.submitted (.ok seq)) = some p) :
      Effect home now call (.submitted (.ok seq)) none [entry (.accepted p)] (some p)
  | refuse {call : Call} {e : LinkError ε} (waiting : Option Packet) :
      Effect home now call (.submitted (.error e)) waiting [] waiting
  | receive (frame : Bytes) (delivery : Option Delivery) (waiting : Option Packet) :
      Effect home now (.receive frame) (.received delivery) waiting [] waiting
  | wait (waiting : Option Packet) :
      Effect home now .poll (.polled (.ok none)) waiting [] waiting
  | transmit {p : Packet} (taken : Bool)
      (reached : Tick.hasReached p.descriptor.sendAt now = true)
      (own : home.station.config.inOwnSlot now = true) :
      Effect home now .poll (.polled (.ok (some (p.outcome (refusal taken))))) (some p)
        [entry (.handed p taken), entry (.ended p (refusal taken))] none
  | withdraw (p : Packet) :
      Effect home now (.cancel p.descriptor.seq) (.cancelled true) (some p)
        [entry (.cancelled p)] none
  | miss (seq : UInt8) (waiting : Option Packet) :
      Effect home now (.cancel seq) (.cancelled false) waiting [] waiting

/-- Between two calls no outcome is left, and the packet that waits can be laid out. -/
structure Steady (home m : TimeSlot ρ γ) : Prop where
  config : m.station.config = home.station.config
  sound : ∀ p ∈ m.pending, p.descriptor.layoutError? = none
  drained : m.station.outcomes.items = []
  capacity : m.station.outcomes.capacity = outcomeCapacity

/-- A time-slot link that has accepted nothing yet. -/
def fresh (config : Config) (radio : ρ) (rng : γ) : TimeSlot ρ γ :=
  { station := { config, radio, rng } }

theorem steady_fresh (config : Config) (radio : ρ) (rng : γ) :
    Steady (fresh config radio rng) (fresh config radio rng) := by
  constructor
  case config => rfl
  case sound => exact fun _ => nofun
  case drained => rfl
  case capacity => rfl

section Calls

variable {home m m' : TimeSlot (Recorder ρ) γ} {now : Tick} {call : Call} {answer : Answer ε}
  {entries : List Entry}

/-- What a call of a steady link leads to. -/
structure Serves (home : TimeSlot (Recorder ρ) γ) (now : Tick) (call : Call) (answer : Answer ε)
    (m : TimeSlot (Recorder ρ) γ) (entries : List Entry) (m' : TimeSlot (Recorder ρ) γ) : Prop where
  effect : Effect home now call answer m.pending entries m'.pending
  record : m'.station.record =
    m.station.record ++ (incidentsOf entries).filterMap Incident.transmission?
  steady : Steady home m'

/-- A call that transmits nothing and leaves the outcomes alone. -/
theorem serves_of_effect (steady : Steady home m)
    (effect : Effect home now call answer m.pending entries m'.pending)
    (silent : (incidentsOf entries).filterMap Incident.transmission? = [])
    (books : m'.station.config = m.station.config ∧ m'.station.outcomes = m.station.outcomes)
    (record : m'.station.record = m.station.record)
    (sound : ∀ p ∈ m'.pending, p.descriptor.layoutError? = none) :
    Serves home now call answer m entries m' := by
  obtain ⟨config, outcomes⟩ := books
  refine ⟨effect, ?_, config.trans steady.config, sound, ?_, ?_⟩
  · rw [silent, List.append_nil, record]
  · rw [outcomes]
    exact steady.drained
  · rw [outcomes]
    exact steady.capacity

theorem serves_submit {d : Descriptor} {payload : Bytes} (steady : Steady home m)
    (submits : (Link.timeSlot m).submission? call = some (d, payload)) :
    ∃ entries, Serves home now call (.submitted (m.submit (ε := ε) d payload).1) m entries
      (m.submit (ε := ε) d payload).2 := by
  unfold submit
  by_cases full : m.pending.isSome = true
  · rw [if_pos full]
    exact ⟨[], serves_of_effect steady (.refuse m.pending) rfl ⟨rfl, rfl⟩ rfl steady.sound⟩
  · rw [if_neg full]
    have vacant : m.pending = none := by simpa using full
    split <;> rename_i station prepared
    · exact ⟨[], serves_of_effect steady (.refuse m.pending) rfl
        (Station.sameBooks_of_prepare prepared) (Station.record_of_prepare prepared) steady.sound⟩
    · have books := Station.sameBooks_of_prepare prepared
      have record := Station.record_of_prepare prepared
      obtain ⟨seq, headerLength, rfl, encoded, -⟩ := Station.prepare_eq_ok prepared
      have sound := (Descriptor.encodedLength_eq_ok_iff.mp encoded).1
      have enters : (Link.timeSlot home).accepted? (ε := ε) call (.submitted (.ok seq)) =
          some { descriptor := { d with seq, headerLength }, payload } := by
        have same : (Link.timeSlot m).accepted? (ε := ε) = (Link.timeSlot home).accepted? :=
          accepted?_congr rfl steady.config
        rw [← same]
        simp only [accepted?, submits, encoded]
      refine ⟨[entry (.accepted { descriptor := { d with seq, headerLength }, payload })],
        serves_of_effect steady ?_ rfl books record ?_⟩
      · rw [vacant]
        exact .accept sound enters
      · rintro p ⟨⟩
        exact sound

theorem serves_cancel (steady : Steady home m) (seq : UInt8) :
    ∃ entries, Serves (ε := ε) home now (.cancel seq) (.cancelled (m.cancel seq).1) m entries
      (m.cancel seq).2 := by
  unfold cancel
  split <;> rename_i carried
  · cases waiting : m.pending with
    | none =>
      rw [waiting] at carried
      cases carried
    | some p =>
      rw [waiting, Option.any_some, beq_iff_eq] at carried
      rw [← carried]
      refine ⟨[entry (.cancelled p)], serves_of_effect steady ?_ rfl ⟨rfl, rfl⟩ rfl fun _ => nofun⟩
      rw [waiting]
      exact .withdraw p
  · exact ⟨[], serves_of_effect steady (.miss seq m.pending) rfl ⟨rfl, rfl⟩ rfl steady.sound⟩

/-- The one outcome that a poll puts up is fetched in the same poll. -/
theorem takeOutcome_emit {s : Station ρ γ} (drained : s.outcomes.items = [])
    (capacity : s.outcomes.capacity = outcomeCapacity) (outcome : Outcome) :
    (s.emit outcome).takeOutcome.1 = some outcome ∧
      (s.emit outcome).takeOutcome.2.outcomes.items = [] ∧
      (s.emit outcome).takeOutcome.2.outcomes.capacity = outcomeCapacity := by
  have pushed : (s.outcomes.push outcome).items = [outcome] := by
    rw [Fifo.items_push_of_lt outcome (by rw [drained, capacity]; decide), drained]
    rfl
  refine ⟨?_, ?_, ?_⟩
  · change (s.outcomes.push outcome).pop.1 = some outcome
    rw [Fifo.pop_fst, pushed]
    rfl
  · change (s.outcomes.push outcome).pop.2.items = []
    rw [Fifo.items_pop, pushed]
    rfl
  · change (s.outcomes.push outcome).pop.2.capacity = outcomeCapacity
    rw [Fifo.capacity_pop, Fifo.capacity_push, capacity]

variable [Transceiver ρ ε] {p : Packet}

/-- A packet that is ready is handed to the radio, and what comes of it is put up. -/
theorem release_eq_of_ready (waiting : m.pending = some p) (ready : m.isReady p now = true)
    (sound : p.descriptor.layoutError? = none) :
    ∃ taken station, m.release (ε := ε) now =
        { station := station.emit (p.outcome (refusal taken)) } ∧
      m.station.SameBooks station ∧
      station.record = m.station.record ++ [p.transmission taken] := by
  unfold release
  simp only [waiting, ready, ↓reduceIte]
  split <;> rename_i sent
  · exact ⟨false, _, rfl, Station.sameBooks_of_transmit sent, Station.record_of_transmit sound sent⟩
  · exact ⟨true, _, rfl, Station.sameBooks_of_transmit sent, Station.record_of_transmit sound sent⟩

theorem serves_poll (steady : Steady home m) :
    ∃ entries, Serves (ε := ε) home now .poll (.polled (.ok (m.poll (ε := ε) now).1)) m entries
      (m.poll (ε := ε) now).2 := by
  -- Where nothing is released, nothing is fetched either.
  have resting (same : m.release (ε := ε) now = m) :
      ∃ entries, Serves (ε := ε) home now .poll (.polled (.ok (m.poll (ε := ε) now).1)) m entries
        (m.poll (ε := ε) now).2 := by
    have quiet : m.poll (ε := ε) now = (none, m) := by
      simp only [poll, same, Station.takeOutcome_of_quiet steady.drained]
    rw [quiet]
    exact ⟨[], serves_of_effect steady (.wait m.pending) rfl ⟨rfl, rfl⟩ rfl steady.sound⟩
  cases waiting : m.pending with
  | none =>
    apply resting
    unfold release
    rw [waiting]
  | some p =>
    by_cases ready : m.isReady p now = true
    · have sound := steady.sound p waiting
      obtain ⟨taken, station, released, same, record⟩ :=
        release_eq_of_ready (ε := ε) waiting ready sound
      have drained : station.outcomes.items = [] := same.outcomes ▸ steady.drained
      have capacity : station.outcomes.capacity = outcomeCapacity :=
        same.outcomes ▸ steady.capacity
      obtain ⟨told, empty, room⟩ :=
        takeOutcome_emit drained capacity (p.outcome (refusal taken))
      obtain ⟨reached, own⟩ := Bool.and_eq_true_iff.mp ready
      refine ⟨[entry (.handed p taken), entry (.ended p (refusal taken))], ?_, ?_, ?_⟩
      · simp only [poll, released, told, waiting]
        exact .transmit taken reached (steady.config ▸ own)
      · simp only [poll, released]
        exact record
      · simp only [poll, released]
        exact ⟨same.config.trans steady.config, fun _ => nofun, empty, room⟩
    · apply resting
      exact release_of_early waiting (by simpa using ready)

variable [RandomSource γ]

/-- Every call of a steady link has one of these effects. -/
theorem serves_of_perform {after : Link (Recorder ρ) γ} (steady : Steady home m)
    (performed : (Link.timeSlot m).perform now call = .ok (answer, after)) :
    ∃ m' entries, after = .timeSlot m' ∧ Serves home now call answer m entries m' := by
  cases call with
  | send dst payload =>
    cases performed
    obtain ⟨entries, serves⟩ := serves_submit (ε := ε) steady
      (show (Link.timeSlot m).submission? (.send dst payload) = some (_, payload) from rfl)
    exact ⟨_, entries, rfl, serves⟩
  | submit d payload =>
    cases performed
    obtain ⟨entries, serves⟩ := serves_submit (ε := ε) steady
      (show (Link.timeSlot m).submission? (.submit d payload) = some (d, payload) from rfl)
    exact ⟨_, entries, rfl, serves⟩
  | receive frame =>
    cases performed
    exact ⟨m, [], rfl,
      serves_of_effect steady (.receive frame _ m.pending) rfl ⟨rfl, rfl⟩ rfl steady.sound⟩
  | poll =>
    cases performed
    obtain ⟨entries, serves⟩ := serves_poll (ε := ε) steady
    exact ⟨_, entries, rfl, serves⟩
  | cancel seq =>
    cases performed
    obtain ⟨entries, serves⟩ := serves_cancel (ε := ε) steady seq
    exact ⟨_, entries, rfl, serves⟩

end Calls

/-! ## Lives -/

/-- What has become of a packet that was accepted. -/
inductive Fate where
  | waits
  | transmitted (taken : Bool)
  | withdrawn
  deriving DecidableEq, Repr

/-- A packet accepted and what has become of it. -/
structure Life where
  packet : Packet
  fate : Fate
  deriving DecidableEq, Repr

/-- All that happens to a packet in its life. -/
def Life.incidents (life : Life) : List Incident :=
  .accepted life.packet ::
    match life.fate with
    | .waits => []
    | .transmitted taken => [.handed life.packet taken, .ended life.packet (refusal taken)]
    | .withdrawn => [.cancelled life.packet]

/-- The life that is not over. -/
def current (waiting : Option Packet) : List Life :=
  (waiting.map fun p => ⟨p, .waits⟩).toList

namespace Effect

variable {home : TimeSlot ρ γ} {now : Tick} {call : Call} {answer : Answer ε} {entries : List Entry}
  {waiting waiting' : Option Packet}

theorem accepted_eq (effect : Effect home now call answer waiting entries waiting') :
    (incidentsOf entries).filterMap Incident.accepted? =
      ((Link.timeSlot home).accepted? call answer).toList := by
  cases effect with
  | accept sound enters =>
    rw [enters]
    rfl
  | refuse | receive | wait | transmit | withdraw | miss =>
    rw [accepted?_eq_none (by intro seq same; cases same)]
    rfl

/-- What a call tells of the fate of a packet is what it has done to it. -/
theorem outcome_eq {event : Event ρ ε}
    (effect : Effect home event.now event.call event.answer waiting entries waiting') :
    (incidentsOf entries).filterMap Incident.outcome? = event.fetched?.toList := by
  unfold Event.fetched?
  generalize event.call = call at effect
  generalize event.answer = answer at effect
  cases effect <;> rfl

/-- A call goes on with the life of the packet that waits, or begins a new one. -/
theorem lives (effect : Effect home now call answer waiting entries waiting') :
    ∃ closed : List Life, (∀ life ∈ closed, life.fate ≠ .waits) ∧
      (current waiting).flatMap Life.incidents ++ incidentsOf entries =
        (closed ++ current waiting').flatMap Life.incidents := by
  cases effect with
  | accept => exact ⟨[], List.forall_mem_nil _, rfl⟩
  | refuse | receive | wait | miss => exact ⟨[], List.forall_mem_nil _, List.append_nil _⟩
  | @transmit p taken reached own =>
    exact ⟨[⟨p, .transmitted taken⟩], List.forall_mem_singleton.mpr Fate.noConfusion, rfl⟩
  | withdraw p => exact ⟨[⟨p, .withdrawn⟩], List.forall_mem_singleton.mpr Fate.noConfusion, rfl⟩

end Effect

/-! ## Logs -/

section Logs

variable [Transceiver ρ ε] [RandomSource γ]

/-- The record tells of a call that leads from one state to another in the life of a link that has
    started as `start`: what the call has done to the packet that waits and what it has had
    transmitted. -/
structure Records (start m : TimeSlot (Recorder ρ) γ) (record : CallRecord (Recorder ρ) ε Entry)
    (m' : TimeSlot (Recorder ρ) γ) : Prop where
  clock : record.time = record.event.now.toNat
  untouched : record.event.radio.record = m.station.record
  performed : ((Link.timeSlot m).setRadio record.event.radio).perform record.event.now
    record.event.call = .ok (record.event.answer, .timeSlot m')
  effect : Effect start record.event.now record.event.call record.event.answer m.pending
    record.entries m'.pending
  told : m'.station.record =
    m.station.record ++ (incidentsOf record.entries).filterMap Incident.transmission?

/-- The records, oldest first, tell all that has happened to a link since it was `start`. -/
def CallLog (start : TimeSlot (Recorder ρ) γ) (records : List (CallRecord (Recorder ρ) ε Entry))
    (m : TimeSlot (Recorder ρ) γ) : Prop :=
  Path (Records start) start records m

variable {config : Config} {radio : ρ} {rng : γ} {history : List (Event (Recorder ρ) ε)}
  {link : Link (Recorder ρ) γ} {start m last : TimeSlot (Recorder ρ) γ}
  {records before after : List (CallRecord (Recorder ρ) ε Entry)}
  {record : CallRecord (Recorder ρ) ε Entry}

/-- Every recording of a time-slot link has a log. -/
theorem log_of_recording {capacity : Nat}
    (recording : Recording (.new .timeSlot capacity config ⟨radio, []⟩ rng) history link) :
    ∃ m records, link = .timeSlot m ∧ records.map CallRecord.event = history ∧
      CallLog (fresh config ⟨radio, []⟩ rng) records m := by
  suffices steadily : ∃ m records, link = .timeSlot m ∧ records.map CallRecord.event = history ∧
      CallLog (fresh config ⟨radio, []⟩ rng) records m ∧
      Steady (fresh config (⟨radio, []⟩ : Recorder ρ) rng) m by
    obtain ⟨m, records, same, events, log, -⟩ := steadily
    exact ⟨m, records, same, events, log⟩
  induction recording with
  | start => exact ⟨_, [], rfl, rfl, .nil, steady_fresh config _ rng⟩
  | call event recording untouched performed ih =>
    obtain ⟨m, records, rfl, events, log, steady⟩ := ih
    have tuned : Steady (fresh config (⟨radio, []⟩ : Recorder ρ) rng)
        { m with station := { m.station with radio := event.radio } } :=
      ⟨steady.config, steady.sound, steady.drained, steady.capacity⟩
    obtain ⟨m', entries, rfl, serves⟩ := serves_of_perform tuned performed
    have told : m'.station.record =
        event.radio.record ++ (incidentsOf entries).filterMap Incident.transmission? :=
      serves.record
    rw [untouched] at told
    let record : CallRecord (Recorder ρ) _ Entry := ⟨event, event.now.toNat, entries⟩
    have recorded : Records (fresh config ⟨radio, []⟩ rng) m record m' :=
      ⟨rfl, untouched, performed, serves.effect, told⟩
    refine ⟨m', records ++ [record], rfl, ?_, log.snoc recorded, serves.steady⟩
    rw [List.map_append, events]
    rfl

namespace CallLog

theorem recording (log : CallLog start records m) :
    Recording (.timeSlot start) (records.map CallRecord.event) (.timeSlot m) := by
  induction log with
  | nil => exact .start
  | snoc earlier last ih =>
    rw [List.map_append]
    exact ih.call _ last.untouched last.performed

/-- Everything transmitted is in the log. -/
theorem record_eq (log : CallLog start records m) :
    m.station.record =
      start.station.record ++ (timeline records).filterMap fun e => e.2.transmission? := by
  induction log with
  | nil => exact (List.append_nil _).symm
  | snoc earlier last ih =>
    rw [last.told, ih, timeline_concat, List.filterMap_append, filterMap_stamp, List.append_assoc]

/-- The packets accepted are those that the calls have brought in. -/
theorem accepted_eq (log : CallLog start records m) :
    acceptedIn (timeline records) = (records.map CallRecord.event).filterMap fun event =>
      (Link.timeSlot start).accepted? event.call event.answer := by
  induction log with
  | nil => rfl
  | snoc earlier last ih =>
    rw [acceptedIn, timeline_concat, List.filterMap_append, ← acceptedIn, ih, List.map_append,
      List.filterMap_append, filterMap_stamp, last.effect.accepted_eq, List.map_singleton,
      filterMap_singleton]

/-- The outcomes fetched are those that the records tell of. -/
theorem outcomes_eq (log : CallLog start records m) :
    (timeline records).filterMap (fun e => e.2.outcome?) =
      (records.map CallRecord.event).filterMap Event.fetched? := by
  induction log with
  | nil => rfl
  | snoc earlier last ih =>
    rw [timeline_concat, List.filterMap_append, ih, List.map_append, List.filterMap_append,
      filterMap_stamp, last.effect.outcome_eq, List.map_singleton, filterMap_singleton]

/-- The log tells the life of one packet after the other. All but that of the packet that waits are
    over. -/
theorem lives (log : CallLog start records m) (vacant : start.pending = none) :
    ∃ closed : List Life, (∀ life ∈ closed, life.fate ≠ .waits) ∧
      (timeline records).map Prod.snd = (closed ++ current m.pending).flatMap Life.incidents := by
  induction log with
  | nil =>
    rw [vacant]
    exact ⟨[], List.forall_mem_nil _, rfl⟩
  | snoc earlier last ih =>
    obtain ⟨past, ended, told⟩ := ih
    obtain ⟨closed, more, next⟩ := last.effect.lives
    refine ⟨past ++ closed, List.forall_mem_append.mpr ⟨ended, more⟩, ?_⟩
    rw [timeline_concat, List.map_append, told, map_snd_stamp, List.flatMap_append,
      List.append_assoc, next, ← List.flatMap_append, List.append_assoc]

end CallLog

end Logs

end TimeSlot

end MoteLink.Link
