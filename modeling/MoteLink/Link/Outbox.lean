import MoteLink.Extremum
import MoteLink.Link.Packet

/-!
# The outbox

A fixed number of places for packets. One packet at most is in flight; the others are queued and
leave in the order of their acceptance, as soon as their send time has come.
-/

namespace MoteLink.Link

/-- One place of an outbox. -/
inductive Slot where
  | idle
  | queued (packet : Packet)
  | inFlight (packet : Packet)
  deriving DecidableEq, Repr

namespace Slot

def isIdle : Slot → Bool
  | .idle => true
  | _ => false

/-- The packet in the place. -/
def packet? : Slot → Option Packet
  | .idle => none
  | .queued p => some p
  | .inFlight p => some p

def inFlight? : Slot → Option Packet
  | .inFlight p => some p
  | _ => none

def queued? : Slot → Option Packet
  | .queued p => some p
  | _ => none

/-- The place holds a packet with this sequence number. -/
def carries (seq : UInt8) (slot : Slot) : Bool :=
  slot.packet?.any fun p => p.descriptor.seq == seq

/-- The place holds a queued packet whose send time has come. -/
def isDue (now : Tick) (slot : Slot) : Bool :=
  slot.queued?.any fun p => Tick.hasReached p.descriptor.sendAt now

@[simp] theorem isIdle_idle : Slot.idle.isIdle = true := rfl

@[simp] theorem isIdle_queued (p : Packet) : (Slot.queued p).isIdle = false := rfl

@[simp] theorem isIdle_inFlight (p : Packet) : (Slot.inFlight p).isIdle = false := rfl

@[simp] theorem packet?_idle : Slot.idle.packet? = none := rfl

@[simp] theorem packet?_queued (p : Packet) : (Slot.queued p).packet? = some p := rfl

@[simp] theorem packet?_inFlight (p : Packet) : (Slot.inFlight p).packet? = some p := rfl

end Slot

/-- Places for packets, and the number that the next accepted packet gets. -/
structure Outbox where
  slots : List Slot
  nextTicket : UInt32 := 0
  deriving DecidableEq, Repr

namespace Outbox

/-- An outbox with `capacity` free places. -/
def empty (capacity : Nat) : Outbox where
  slots := List.replicate capacity .idle

variable (o : Outbox)

def capacity : Nat := o.slots.length

/-- The packets held. -/
def packets : List Packet := o.slots.filterMap Slot.packet?

/-- The queued packets. -/
def queued : List Packet := o.slots.filterMap Slot.queued?

/-- Number of packets held. -/
def held : Nat := o.slots.countP fun slot => !slot.isIdle

def isEmpty : Bool := o.held == 0

def isFull : Bool := o.held == o.capacity

/-- Take a packet into the first free place; a full outbox hands it back. -/
def accept (p : Packet) : Except Packet (Nat × Outbox) :=
  match o.slots.findIdx? Slot.isIdle with
  | none => .error p
  | some i =>
    .ok (i,
      { slots := o.slots.set i (.queued { p with ticket := o.nextTicket })
        nextTicket := o.nextTicket + 1 })

/-- Place of the packet in flight, and the packet. -/
def inFlight? : Option (Nat × Packet) :=
  o.slots.zipIdx.findSome? fun (slot, i) => slot.inFlight?.map (i, ·)

/-- The outbox with another packet in flight. -/
def setInFlight (p : Packet) : Outbox :=
  match o.inFlight? with
  | none => o
  | some (i, _) => { o with slots := o.slots.set i (.inFlight p) }

/-- How far back a place's packet was accepted. -/
def age (slot : Slot) : UInt32 :=
  match slot.packet? with
  | none => 0
  | some p => o.nextTicket - p.ticket

/-- Place of the packet that has been due longest by order of acceptance. -/
def oldestDue? (now : Tick) : Option Nat :=
  (lastMax? (fun entry => o.age entry.1) (o.slots.zipIdx.filter fun e => e.1.isDue now)).map
    Prod.snd

/-- Put the oldest due packet in flight, if none is. -/
def startNext (now : Tick) : Option (Nat × Outbox) :=
  if o.inFlight?.isSome then none
  else
    match o.oldestDue? now with
    | none => none
    | some i =>
      match o.slots[i]? with
      | some (.queued p) => some (i, { o with slots := o.slots.set i (.inFlight p) })
      | _ => some (i, o)

/-- The packet in flight and the outbox without it. -/
def complete : Option (Packet × Outbox) :=
  match o.inFlight? with
  | none => none
  | some (i, p) => some (p, { o with slots := o.slots.set i .idle })

/-- Free the first place whose packet has this sequence number, and tell what it held. -/
def remove (seq : UInt8) : Option (Slot × Outbox) :=
  match o.slots.findIdx? (Slot.carries seq) with
  | none => none
  | some i => (o.slots[i]?).map fun slot => (slot, { o with slots := o.slots.set i .idle })

/-- The earliest send time of the queued packets, as seen from `now`. -/
def nextSendAt (now : Tick) : Option Tick :=
  firstMin? (Tick.rank now) (o.queued.map fun p => p.descriptor.sendAt)

theorem capacity_empty (n : Nat) : (empty n).capacity = n := by
  simp [capacity, empty]

theorem held_empty (n : Nat) : (empty n).held = 0 := by
  simp [held, empty]

theorem held_eq_length_packets : o.held = o.packets.length := by
  unfold held packets
  induction o.slots with
  | nil => rfl
  | cons slot rest ih => cases slot <;> simp [List.filterMap_cons, ih]

theorem held_le_capacity : o.held ≤ o.capacity :=
  List.countP_le_length

end Outbox

end MoteLink.Link
