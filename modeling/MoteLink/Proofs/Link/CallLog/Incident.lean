import MoteLink.Proofs.Link.Run
import MoteLink.Radio.Recorder

/-!
# What happens to packets

`Incident` lists what can happen to the packets of a link. The record of a call tells what has
happened while the call was made, and all that is said of the course of a run is read off the
records of its calls: what has happened in one place, what in the course of time, and what to one
packet.
-/

namespace MoteLink.Link

/-- The packet as it is handed to the radio. -/
def Packet.transmission (p : Packet) (taken : Bool) : Transmission where
  header := p.descriptor.headerBytes
  payload := p.payload
  taken := taken

/-- The descriptor is that of an acknowledgement of the packet, sent by the packet's next hop. -/
structure Packet.AckedBy (p : Packet) (ack : Descriptor) : Prop where
  isAck : ack.flags.isAck = true
  seq : p.descriptor.seq = ack.seq
  sender : p.descriptor.nextHop = ack.prevHop

/-- What can happen to a packet. A link also answers frames that ask for it. -/
inductive Incident where
  | accepted (p : Packet)
  /-- The packet has gone in flight. -/
  | started (p : Packet)
  /-- The packet has been handed to the radio, which has taken or refused it. -/
  | handed (p : Packet) (taken : Bool)
  /-- The wait for an acknowledgement is over. -/
  | expired (p : Packet)
  /-- An acknowledgement of the packet has been received. -/
  | acked (p : Packet) (ack : Descriptor)
  /-- The outcome of the packet has been told. -/
  | ended (p : Packet) (reason : Option FailureReason)
  | cancelled (p : Packet)
  /-- The radio has been asked to transmit an acknowledgement. -/
  | replied (t : Transmission)
  deriving DecidableEq, Repr

namespace Incident

def accepted? : Incident → Option Packet
  | .accepted p => some p
  | _ => none

def started? : Incident → Option Packet
  | .started p => some p
  | _ => none

def handed? : Incident → Option Packet
  | .handed p _ => some p
  | _ => none

def ended? : Incident → Option Packet
  | .ended p _ => some p
  | _ => none

def cancelled? : Incident → Option Packet
  | .cancelled p => some p
  | _ => none

/-- The packet that it happens to. -/
def packet? : Incident → Option Packet
  | .accepted p | .started p | .handed p _ | .expired p | .acked p _ | .ended p _ | .cancelled p =>
    some p
  | .replied _ => none

/-- What the radio was asked to transmit. -/
def transmission? : Incident → Option Transmission
  | .handed p taken => some (p.transmission taken)
  | .replied t => some t
  | _ => none

/-- The outcome that was put up for fetching. -/
def outcome? : Incident → Option Outcome
  | .ended p reason => some (p.outcome reason)
  | _ => none

/-- Why the attempt that ends here has failed. -/
def failure? : Incident → Option FailureReason
  | .handed _ taken => if taken then none else some .radio
  | .expired _ => some .ackTimeout
  | _ => none

/-- A link does this by itself when it is polled. -/
def isOwn : Incident → Bool
  | .started _ | .handed _ _ | .expired _ | .ended _ _ => true
  | _ => false

/-- The incident neither puts a packet in flight nor hands it to the radio. -/
def isQuiet : Incident → Bool
  | .started _ | .handed _ _ => false
  | _ => true

/-- A link does not submit packets to itself. -/
theorem accepted?_of_isOwn {incident : Incident} (own : incident.isOwn = true) :
    incident.accepted? = none := by
  cases incident with
  | accepted p => cases own
  | _ => rfl

end Incident

/-! ## Places -/

/-- An incident, and the place of the packet that it concerns. Only replies concern no packet. -/
structure Entry where
  place : Option Nat
  incident : Incident
  deriving DecidableEq, Repr

/-- The link enters this by itself when it is polled, under the place of the packet. -/
def Entry.isOwn (entry : Entry) : Bool := entry.place.isSome && entry.incident.isOwn

/-- The incidents without their places. -/
def incidentsOf (entries : List Entry) : List Incident := entries.map Entry.incident

/-- What the entry tells of the packet in a place. That a packet goes in flight does not change what
    has been tried with it. -/
def Entry.at? (i : Nat) (entry : Entry) : Option Incident :=
  if entry.place = some i ∧ entry.incident.started? = none then some entry.incident else none

/-- What the entries, all made at `now`, tell of the packets in a place. -/
def placeLog (i : Nat) (now : Tick) (entries : List Entry) : List (Tick × Incident) :=
  (entries.filterMap (Entry.at? i)).map fun incident => (now, incident)

section Places

variable {i j : Nat} {now time : Tick} {entry : Entry} {incident : Incident}
  {entries first second : List Entry}

theorem incidentsOf_append (first second : List Entry) :
    incidentsOf (first ++ second) = incidentsOf first ++ incidentsOf second :=
  List.map_append

theorem filterMap_incidentsOf {β : Type} (view : Incident → Option β) (entries : List Entry) :
    (incidentsOf entries).filterMap view = entries.filterMap fun entry => view entry.incident :=
  List.filterMap_map

theorem Entry.eq_of_isOwn (own : entry.isOwn = true) :
    ∃ i, entry = ⟨some i, entry.incident⟩ ∧ entry.incident.isOwn = true := by
  obtain ⟨place, incident⟩ := entry
  cases place with
  | none => cases own
  | some i => exact ⟨i, rfl, own⟩

theorem Entry.at?_eq_some_iff :
    entry.at? i = some incident ↔ entry = ⟨some i, incident⟩ ∧ incident.started? = none := by
  obtain ⟨place, what⟩ := entry
  simp only [at?, Option.ite_none_right_eq_some, Option.some.injEq, mk.injEq]
  constructor
  · rintro ⟨⟨rfl, still⟩, rfl⟩
    exact ⟨⟨rfl, rfl⟩, still⟩
  · rintro ⟨⟨rfl, rfl⟩, still⟩
    exact ⟨⟨rfl, still⟩, rfl⟩

theorem placeLog_append (i : Nat) (now : Tick) (first second : List Entry) :
    placeLog i now (first ++ second) = placeLog i now first ++ placeLog i now second := by
  simp only [placeLog, List.filterMap_append, List.map_append]

theorem placeLog_self (i : Nat) (now : Tick) (still : incident.started? = none) :
    placeLog i now [⟨some i, incident⟩] = [(now, incident)] := by
  simp [placeLog, Entry.at?, still]

theorem placeLog_of_ne (now : Tick) (incident : Incident) (other : j ≠ i) :
    placeLog j now [⟨some i, incident⟩] = [] := by
  simp [placeLog, Entry.at?, Ne.symm other]

theorem placeLog_started (i : Nat) (now : Tick) (place : Option Nat) (p : Packet) :
    placeLog i now [⟨place, .started p⟩] = [] := by
  simp [placeLog, Entry.at?, Incident.started?]

theorem placeLog_replied (i : Nat) (now : Tick) (t : Transmission) :
    placeLog i now [⟨none, .replied t⟩] = [] := by
  simp [placeLog, Entry.at?]

theorem mem_placeLog : (time, incident) ∈ placeLog i now entries ↔
    time = now ∧ ⟨some i, incident⟩ ∈ entries ∧ incident.started? = none := by
  simp only [placeLog, List.mem_map, List.mem_filterMap, Entry.at?_eq_some_iff, Prod.mk.injEq]
  constructor
  · rintro ⟨_, ⟨_, member, rfl, still⟩, rfl, rfl⟩
    exact ⟨rfl, member, still⟩
  · rintro ⟨rfl, member, still⟩
    exact ⟨_, ⟨_, member, rfl, still⟩, rfl, rfl⟩

end Places

/-! ## Records -/

/-- A call, the real time at which it was made, and what has happened meanwhile. -/
structure CallRecord (ρ ε α : Type) where
  event : Event ρ ε
  time : Nat
  entries : List α

variable {ρ ε α β : Type}

/-- The record with another kind of entries. -/
def CallRecord.map (view : α → β) (record : CallRecord ρ ε α) : CallRecord ρ ε β where
  event := record.event
  time := record.time
  entries := record.entries.map view

/-- The entries of all records, one after the other. -/
def entriesOf (records : List (CallRecord ρ ε α)) : List α := records.flatMap CallRecord.entries

/-- What the records tell of the packets in a place, with the ticks that the clock has shown. -/
def courseAt (i : Nat) (records : List (CallRecord ρ ε Entry)) : List (Tick × Incident) :=
  records.flatMap fun record => placeLog i record.event.now record.entries

/-- The incidents, all dated to one time. -/
def stamp (time : Nat) (incidents : List Incident) : List (Nat × Incident) :=
  incidents.map fun incident => (time, incident)

/-- What has happened, in the course of time. -/
def timeline (records : List (CallRecord ρ ε Entry)) : List (Nat × Incident) :=
  records.flatMap fun record => stamp record.time (incidentsOf record.entries)

/-- The packets accepted, in the order of their acceptance. -/
def acceptedIn (log : List (Nat × Incident)) : List Packet := log.filterMap fun e => e.2.accepted?

/-- The packets that have gone in flight, in the order in which they did. -/
def startedIn (log : List (Nat × Incident)) : List Packet := log.filterMap fun e => e.2.started?

/-- The packets whose outcomes have been told, in the order in which they were. -/
def endedIn (log : List (Nat × Incident)) : List Packet := log.filterMap fun e => e.2.ended?

/-- The packets cancelled. -/
def cancelledIn (log : List (Nat × Incident)) : List Packet :=
  log.filterMap fun e => e.2.cancelled?

section Records

variable {i : Nat} {now : Tick} {incident : Incident} {records : List (CallRecord ρ ε Entry)}

theorem entriesOf_append (first second : List (CallRecord ρ ε α)) :
    entriesOf (first ++ second) = entriesOf first ++ entriesOf second :=
  List.flatMap_append

theorem entriesOf_concat (records : List (CallRecord ρ ε α)) (record : CallRecord ρ ε α) :
    entriesOf (records ++ [record]) = entriesOf records ++ record.entries := by
  rw [entriesOf_append]
  simp [entriesOf]

theorem entriesOf_map (view : α → β) (records : List (CallRecord ρ ε α)) :
    entriesOf (records.map (CallRecord.map view)) = (entriesOf records).map view := by
  simp only [entriesOf, List.flatMap_map, List.map_flatMap, CallRecord.map]

theorem courseAt_append (i : Nat) (first second : List (CallRecord ρ ε Entry)) :
    courseAt i (first ++ second) = courseAt i first ++ courseAt i second :=
  List.flatMap_append

theorem courseAt_single (i : Nat) (record : CallRecord ρ ε Entry) :
    courseAt i [record] = placeLog i record.event.now record.entries := by
  simp [courseAt]

theorem mem_courseAt : (now, incident) ∈ courseAt i records ↔
    (∃ record ∈ records, record.event.now = now ∧ ⟨some i, incident⟩ ∈ record.entries) ∧
      incident.started? = none := by
  simp only [courseAt, List.mem_flatMap, mem_placeLog]
  constructor
  · rintro ⟨record, member, rfl, there, still⟩
    exact ⟨⟨record, member, rfl, there⟩, still⟩
  · rintro ⟨⟨record, member, rfl, there⟩, still⟩
    exact ⟨record, member, rfl, there, still⟩

theorem stamp_append (time : Nat) (first second : List Incident) :
    stamp time (first ++ second) = stamp time first ++ stamp time second :=
  List.map_append

theorem filterMap_stamp (time : Nat) (incidents : List Incident) (view : Incident → Option β) :
    (stamp time incidents).filterMap (fun e => view e.2) = incidents.filterMap view :=
  List.filterMap_map

theorem map_snd_stamp (time : Nat) (incidents : List Incident) :
    (stamp time incidents).map Prod.snd = incidents := by
  rw [stamp, List.map_map]
  exact List.map_id incidents

theorem mem_timeline {time : Nat} : (time, incident) ∈ timeline records ↔
    ∃ record ∈ records, record.time = time ∧ ∃ place, ⟨place, incident⟩ ∈ record.entries := by
  simp only [timeline, stamp, incidentsOf, List.mem_flatMap, List.mem_map, Prod.mk.injEq]
  constructor
  · rintro ⟨record, member, _, ⟨⟨place, _⟩, there, rfl⟩, rfl, rfl⟩
    exact ⟨record, member, rfl, place, there⟩
  · rintro ⟨record, member, rfl, place, there⟩
    exact ⟨record, member, incident, ⟨⟨place, incident⟩, there, rfl⟩, rfl, rfl⟩

theorem timeline_append (first second : List (CallRecord ρ ε Entry)) :
    timeline (first ++ second) = timeline first ++ timeline second :=
  List.flatMap_append

theorem timeline_concat (records : List (CallRecord ρ ε Entry)) (record : CallRecord ρ ε Entry) :
    timeline (records ++ [record]) =
      timeline records ++ stamp record.time (incidentsOf record.entries) := by
  rw [timeline_append]
  simp [timeline]

theorem map_snd_timeline (records : List (CallRecord ρ ε Entry)) :
    (timeline records).map Prod.snd = incidentsOf (entriesOf records) := by
  simp only [timeline, entriesOf, incidentsOf, List.map_flatMap, map_snd_stamp]

/-- The times of the calls are those of the incidents. -/
theorem pairwise_timeline (sorted : (records.map CallRecord.time).Pairwise fun a b => a ≤ b) :
    (timeline records).Pairwise fun a b => a.1 ≤ b.1 := by
  have dated {record : CallRecord ρ ε Entry} {entry : Nat × Incident}
      (member : entry ∈ stamp record.time (incidentsOf record.entries)) :
      entry.1 = record.time := by
    obtain ⟨incident, -, rfl⟩ := List.mem_map.mp member
    rfl
  apply List.pairwise_flatMap.mpr
  constructor
  · intro record member
    apply List.pairwise_of_forall_mem_list
    intro first here second there
    exact Nat.le_of_eq ((dated here).trans (dated there).symm)
  · refine (List.pairwise_map.mp sorted).imp ?_
    intro record record' earlier first here second there
    rw [dated here, dated there]
    exact earlier

end Records

end MoteLink.Link
