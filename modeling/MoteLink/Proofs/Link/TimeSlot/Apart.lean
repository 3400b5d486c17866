import MoteLink.Proofs.Link.Acknowledged.Conversation
import MoteLink.Proofs.Link.TimeSlot.Slots

/-!
# Two nodes in different slots

Two time-slot links that cut time in the same way and own different slots never transmit at the same
tick, whatever is asked of them, in whatever order, and wherever the clock stands. Each of them
transmits a packet at most once and tells one outcome of it.
-/

namespace MoteLink.Link

variable {ρ σ γ δ ε ε' : Type}

/-- Where time is cut in the same way, no tick lies in two different slots. -/
theorem Config.ownSlot_eq_of_inOwnSlot {c c' : Config} {t : Tick}
    (slotTime : c.slotTime = c'.slotTime) (slotsPerFrame : c.slotsPerFrame = c'.slotsPerFrame)
    (left : c.inOwnSlot t = true) (right : c'.inOwnSlot t = true) : c.ownSlot = c'.ownSlot := by
  have slotLength : c.slotLength = c'.slotLength := by
    rw [Config.slotLength, slotTime, Config.slotLength]
  have frameTime : c.frameTime = c'.frameTime := by
    rw [Config.frameTime, slotLength, slotCount, slotsPerFrame, Config.frameTime, slotCount]
  rw [inOwnSlot_iff] at left right
  rw [frameTime, slotLength, right] at left
  exact (UInt16.toNat_inj.mp left).symm

namespace TimeSlot

/-! ## One node -/

/-- Every life begins with the acceptance of its packet. -/
theorem filterMap_accepted?_incidents (lives : List Life) :
    (lives.flatMap Life.incidents).filterMap Incident.accepted? = lives.map Life.packet := by
  induction lives with
  | nil => rfl
  | cons life rest ih =>
    obtain ⟨p, fate⟩ := life
    rw [List.flatMap_cons, List.filterMap_append, ih]
    cases fate <;> rfl

theorem Effect.sound {home : TimeSlot ρ γ} {now : Tick} {call : Call} {answer : Answer ε}
    {entries : List Entry} {waiting waiting' : Option Packet}
    (effect : Effect home now call answer waiting entries waiting')
    (sound : ∀ p ∈ waiting, p.descriptor.layoutError? = none) :
    ∀ p ∈ waiting', p.descriptor.layoutError? = none := by
  cases effect with
  | accept fits enters =>
    rintro _ ⟨⟩
    exact fits
  | refuse | receive | wait | miss => exact sound
  | transmit | withdraw => exact fun _ => nofun

/-- Nothing but a poll in the slot hands a packet over, and it is the one that waits. -/
theorem Effect.of_handed {home : TimeSlot ρ γ} {now : Tick} {call : Call} {answer : Answer ε}
    {entries : List Entry} {waiting waiting' : Option Packet} {p : Packet} {taken : Bool}
    (effect : Effect home now call answer waiting entries waiting')
    (handed : .handed p taken ∈ incidentsOf entries) :
    waiting = some p ∧ Tick.hasReached p.descriptor.sendAt now = true ∧
      home.station.config.inOwnSlot now = true := by
  cases effect with
  | accept => cases List.mem_singleton.mp handed
  | refuse | receive | wait | miss => cases handed
  | transmit taken reached own =>
    rcases List.mem_cons.mp handed with same | last
    · cases same
      exact ⟨rfl, reached, own⟩
    · cases List.mem_singleton.mp last
  | withdraw => cases List.mem_singleton.mp handed

section OneNode

variable [Transceiver ρ ε] [RandomSource γ] {home m : TimeSlot (Recorder ρ) γ}
  {records before after : List (CallRecord (Recorder ρ) ε Entry)}
  {record : CallRecord (Recorder ρ) ε Entry} {p : Packet} {taken : Bool}

/-- The packet that waits can be laid out. -/
theorem CallLog.sound (log : CallLog home records m) (vacant : home.pending = none) :
    ∀ p ∈ m.pending, p.descriptor.layoutError? = none := by
  induction log with
  | nil =>
    rw [vacant]
    exact fun _ => nofun
  | snoc earlier last ih => exact last.effect.sound ih

/-- A packet goes out in the node's slot and not before its send time, as it has waited. -/
structure GoesOut (home : TimeSlot (Recorder ρ) γ) (before : List (CallRecord (Recorder ρ) ε Entry))
    (now : Tick) (p : Packet) (taken : Bool) : Prop where
  waited : ∃ m, CallLog home before m ∧ m.pending = some p
  encoded : ∃ header, p.descriptor.encodeWithin maxHeaderLength = .ok header ∧
    (p.transmission taken).frame = header ++ p.payload
  reached : Tick.hasReached p.descriptor.sendAt now = true
  own : home.station.config.inOwnSlot now = true

/-- What the log tells of a time-slot link that has started as `home`. Every packet accepted has
    one life, in which it is handed to the radio once at most and has one outcome at most. -/
structure Orderly (home : TimeSlot (Recorder ρ) γ)
    (records : List (CallRecord (Recorder ρ) ε Entry)) (m : TimeSlot (Recorder ρ) γ) : Prop where
  log : CallLog home records m
  record : m.station.record = (timeline records).filterMap fun e => e.2.transmission?
  goesOut : ∀ before record after, records = before ++ record :: after →
    ∀ p taken, .handed p taken ∈ incidentsOf record.entries →
      GoesOut home before record.event.now p taken
  lives : ∃ closed : List Life, (∀ life ∈ closed, life.fate ≠ .waits) ∧
    (timeline records).map Prod.snd = (closed ++ current m.pending).flatMap Life.incidents ∧
    (closed ++ current m.pending).map Life.packet =
      (records.map CallRecord.event).filterMap fun event =>
        (Link.timeSlot home).accepted? event.call event.answer
  outcomes : (timeline records).filterMap (fun e => e.2.outcome?) =
    (records.map CallRecord.event).filterMap Event.fetched?

theorem CallLog.goesOut (log : CallLog home (before ++ record :: after) m)
    (vacant : home.pending = none) (handed : .handed p taken ∈ incidentsOf record.entries) :
    GoesOut home before record.event.now p taken := by
  obtain ⟨m, m', earlier, here, -⟩ := Path.split log
  obtain ⟨waiting, reached, own⟩ := here.effect.of_handed handed
  have sound := CallLog.sound earlier vacant p waiting
  constructor
  case waited => exact ⟨m, earlier, waiting⟩
  case encoded =>
    exact ⟨_, Descriptor.encodeWithin_eq_ok_iff.mpr
      ⟨sound, Descriptor.length_headerBytes_le sound, rfl⟩, rfl⟩
  case reached => exact reached
  case own => exact own

theorem CallLog.orderly {config : Config} {radio : ρ} {rng : γ}
    (log : CallLog (fresh config ⟨radio, []⟩ rng) records m) :
    Orderly (fresh config ⟨radio, []⟩ rng) records m := by
  obtain ⟨closed, ended, told⟩ := log.lives rfl
  have accepted := log.accepted_eq
  constructor
  case log => exact log
  case record => exact log.record_eq
  case goesOut =>
    rintro before record after rfl p taken handed
    exact log.goesOut rfl handed
  case lives =>
    have read : acceptedIn (timeline records) =
        ((timeline records).map Prod.snd).filterMap Incident.accepted? := by
      rw [List.filterMap_map]
      rfl
    refine ⟨closed, ended, told, ?_⟩
    rw [← accepted, read, told, filterMap_accepted?_incidents]
  case outcomes => exact log.outcomes_eq

end OneNode

/-! ## Two nodes -/

section TwoNodes

variable [Transceiver ρ ε] [Transceiver σ ε'] [RandomSource γ] [RandomSource δ]

/-- Calls of two links in any order. Each one finds the record of its radio untouched. -/
inductive Interleaving (home : Link (Recorder ρ) γ) (peer : Link (Recorder σ) δ) :
    List (Event (Recorder ρ) ε ⊕ Event (Recorder σ) ε') → Link (Recorder ρ) γ →
      Link (Recorder σ) δ → Prop
  | start : Interleaving home peer [] home peer
  | here {history : List (Event (Recorder ρ) ε ⊕ Event (Recorder σ) ε')}
      {link after : Link (Recorder ρ) γ} {other : Link (Recorder σ) δ}
      (event : Event (Recorder ρ) ε) (earlier : Interleaving home peer history link other)
      (untouched : event.radio.record = link.record)
      (performed : (link.setRadio event.radio).perform event.now event.call =
        .ok (event.answer, after)) :
      Interleaving home peer (history ++ [.inl event]) after other
  | there {history : List (Event (Recorder ρ) ε ⊕ Event (Recorder σ) ε')}
      {link : Link (Recorder ρ) γ} {other after : Link (Recorder σ) δ}
      (event : Event (Recorder σ) ε') (earlier : Interleaving home peer history link other)
      (untouched : event.radio.record = other.record)
      (performed : (other.setRadio event.radio).perform event.now event.call =
        .ok (event.answer, after)) :
      Interleaving home peer (history ++ [.inr event]) link after

namespace Interleaving

variable {home link : Link (Recorder ρ) γ} {peer other : Link (Recorder σ) δ}
  {history : List (Event (Recorder ρ) ε ⊕ Event (Recorder σ) ε')}

/-- Each node for itself has a recording. -/
theorem left (interleaving : Interleaving home peer history link other) :
    Recording home (history.filterMap Sum.getLeft?) link := by
  induction interleaving with
  | start => exact .start
  | here event earlier untouched performed ih =>
    rw [List.filterMap_append]
    exact ih.call event untouched performed
  | there event earlier untouched performed ih =>
    rw [List.filterMap_append]
    exact (List.append_nil _).symm ▸ ih

theorem right (interleaving : Interleaving home peer history link other) :
    Recording peer (history.filterMap Sum.getRight?) other := by
  induction interleaving with
  | start => exact .start
  | here event earlier untouched performed ih =>
    rw [List.filterMap_append]
    exact (List.append_nil _).symm ▸ ih
  | there event earlier untouched performed ih =>
    rw [List.filterMap_append]
    exact ih.call event untouched performed

/-- A call that finds the radio as the link has left it. -/
theorem call {answer : Answer ε} {after : Link (Recorder ρ) γ}
    (earlier : Interleaving home peer history link other) (now : Tick) (what : Call)
    (performed : link.perform now what = .ok (answer, after)) :
    Interleaving home peer (history ++ [.inl ⟨now, link.radio, what, answer⟩]) after other := by
  refine earlier.here ⟨now, link.radio, what, answer⟩ rfl ?_
  rw [setRadio_radio]
  exact performed

theorem reply {answer : Answer ε'} {after : Link (Recorder σ) δ}
    (earlier : Interleaving home peer history link other) (now : Tick) (what : Call)
    (performed : other.perform now what = .ok (answer, after)) :
    Interleaving home peer (history ++ [.inr ⟨now, other.radio, what, answer⟩]) link after := by
  refine earlier.there ⟨now, other.radio, what, answer⟩ rfl ?_
  rw [setRadio_radio]
  exact performed

end Interleaving

variable {capacity capacity' : Nat} {config config' : Config} {radio : ρ} {radio' : σ} {rng : γ}
  {rng' : δ} {link : Link (Recorder ρ) γ} {other : Link (Recorder σ) δ}
  {history : List (Event (Recorder ρ) ε ⊕ Event (Recorder σ) ε')}

/-- Two nodes with the same frames of slots and different slots, under one clock that may stand
    wherever it likes, never hand a packet to their radios at the same tick. -/
theorem apart_of_interleaving
    (interleaving : Interleaving (.new .timeSlot capacity config ⟨radio, []⟩ rng)
      (.new .timeSlot capacity' config' ⟨radio', []⟩ rng') history link other)
    (slotTime : config.slotTime = config'.slotTime)
    (slotsPerFrame : config.slotsPerFrame = config'.slotsPerFrame)
    (apart : config.ownSlot ≠ config'.ownSlot) :
    ∃ m m' records records', link = .timeSlot m ∧ other = .timeSlot m' ∧
      records.map CallRecord.event = history.filterMap Sum.getLeft? ∧
      records'.map CallRecord.event = history.filterMap Sum.getRight? ∧
      Orderly (fresh config ⟨radio, []⟩ rng) records m ∧
      Orderly (fresh config' ⟨radio', []⟩ rng') records' m' ∧
      ∀ record ∈ records, ∀ record' ∈ records', ∀ p taken p' taken',
        .handed p taken ∈ incidentsOf record.entries →
          .handed p' taken' ∈ incidentsOf record'.entries →
            record.event.now ≠ record'.event.now := by
  obtain ⟨m, records, same, events, log⟩ := log_of_recording interleaving.left
  obtain ⟨m', records', same', events', log'⟩ := log_of_recording interleaving.right
  refine ⟨m, m', records, records', same, same', events, events', log.orderly, log'.orderly, ?_⟩
  intro record member record' member' p taken p' taken' handed handed' at_once
  obtain ⟨before, after, rfl⟩ := List.append_of_mem member
  obtain ⟨before', after', rfl⟩ := List.append_of_mem member'
  have own := (log.goesOut rfl handed).own
  have own' := (log'.goesOut rfl handed').own
  rw [← at_once] at own'
  exact apart (Config.ownSlot_eq_of_inOwnSlot slotTime slotsPerFrame own own')

/-- Two nodes have a packet each. At tick 10 both are polled, and the one whose slot it is sends. -/
theorem apart_of_interleaving_polled :
    ∃ (history : List (Event (Recorder Bench) BenchError ⊕ Event (Recorder Bench) BenchError))
      (m m' : TimeSlot (Recorder Bench) StepGenerator)
      (records records' : List (CallRecord (Recorder Bench) BenchError Entry)),
      Interleaving (.new .timeSlot 1 { address := .short 1 } ⟨{}, []⟩ ⟨0, 0⟩)
        (.new .timeSlot 1 { address := .short 2 } ⟨{}, []⟩ ⟨0, 0⟩) history (.timeSlot m)
        (.timeSlot m') ∧
      (history.filterMap Sum.getLeft?).map Event.now = [5, 10] ∧
      (history.filterMap Sum.getRight?).map Event.now = [5, 10, 20] ∧
      m.station.record.length = 1 ∧ m'.station.record.length = 1 ∧
      Orderly (fresh { address := .short 1 } ⟨{}, []⟩ ⟨0, 0⟩) records m ∧
      Orderly (fresh { address := .short 2 } ⟨{}, []⟩ ⟨0, 0⟩) records' m' ∧
      ∀ record ∈ records, ∀ record' ∈ records', ∀ p taken p' taken',
        .handed p taken ∈ incidentsOf record.entries →
          .handed p' taken' ∈ incidentsOf record'.entries →
            record.event.now ≠ record'.event.now := by
  have quiet : Interleaving
      (.new .timeSlot 1 { address := .short 1 } (⟨{}, []⟩ : Recorder Bench)
        (⟨0, 0⟩ : StepGenerator))
      (.new .timeSlot 1 { address := .short 2 } (⟨{}, []⟩ : Recorder Bench)
        (⟨0, 0⟩ : StepGenerator))
      ([] : List (Event (Recorder Bench) BenchError ⊕ Event (Recorder Bench) BenchError)) _ _ :=
    .start
  have asked := quiet.call 5 (.send (.short 2) [7]) rfl
  have both := asked.reply 5 (.send (.short 1) [8]) rfl
  have early := both.reply 10 .poll rfl
  have first := early.call 10 .poll rfl
  have second := first.reply 20 .poll rfl
  obtain ⟨m, m', records, records', same, same', -, -, orderly, orderly', never⟩ :=
    apart_of_interleaving second rfl rfl (by decide)
  cases same
  cases same'
  exact ⟨_, _, _, records, records', second, rfl, rfl, rfl, rfl, orderly, orderly', never⟩

end TwoNodes

end TimeSlot

end MoteLink.Link
