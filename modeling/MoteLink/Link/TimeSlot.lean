import MoteLink.Link.Station

/-!
# Time slots

Time is cut into frames of slots, counted from tick zero, and every node owns one slot of each
frame. A node sends one packet in its slot, without listening first and without being
acknowledged. The frame in which the clock wraps may be cut short.
-/

namespace MoteLink.Link

namespace Config

variable (c : Config)

/-- The tick lies in this node's slot. -/
def inOwnSlot (t : Tick) : Bool :=
  t % c.frameTime / c.slotLength == c.ownSlot.toUInt32

/-- First tick of this node's slot, counted from the start of a frame. -/
def slotOffset : UInt32 :=
  Tick.mulCapped c.ownSlot.toUInt32 c.slotLength

/-- Ticks from `t` to the next start of this node's slot. -/
def slotWait (t : Tick) : UInt32 :=
  let position := t % c.frameTime
  if position < c.slotOffset then c.slotOffset - position
  else Tick.addCapped (c.frameTime - position) c.slotOffset

/-- The first tick from `t` on that lies in this node's slot. -/
def nextSlotStart (t : Tick) : Tick :=
  if c.inOwnSlot t then t else t + c.slotWait t

end Config

/-- A link that sends in its own time slot. -/
structure TimeSlot (ρ γ : Type) where
  station : Station ρ γ
  /-- The one packet that waits for its slot. -/
  pending : Option Packet := none

namespace TimeSlot

variable {ρ γ ε : Type}

/-- Accept a packet if none is waiting. -/
def submit (m : TimeSlot ρ γ) (d : Descriptor) (payload : Bytes) :
    Except (LinkError ε) UInt8 × TimeSlot ρ γ :=
  if m.pending.isSome then (.error .queueFull, m)
  else
    match m.station.prepare d payload with
    | (.error e, station) => (.error e, { m with station })
    | (.ok p, station) => (.ok p.descriptor.seq, { station, pending := some p })

def send (m : TimeSlot ρ γ) (dst : Address) (payload : Bytes) :
    Except (LinkError ε) UInt8 × TimeSlot ρ γ :=
  m.submit (m.station.localDescriptor dst false) payload

/-- Deliver a frame for this node, unless it is an acknowledgement. -/
def receive (m : TimeSlot ρ γ) (frame : Bytes) : Option Delivery × TimeSlot ρ γ :=
  ((m.station.listen frame).filter fun d => !d.descriptor.flags.isAck, m)

/-- Give up the packet if it has this sequence number. No outcome is told for it. -/
def cancel (m : TimeSlot ρ γ) (seq : UInt8) : Bool × TimeSlot ρ γ :=
  if m.pending.any fun p => p.descriptor.seq == seq then (true, { m with pending := none })
  else (false, m)

/-- The packet's send time has come and the tick lies in the slot. -/
def isReady (m : TimeSlot ρ γ) (p : Packet) (now : Tick) : Bool :=
  Tick.hasReached p.descriptor.sendAt now && m.station.config.inOwnSlot now

/-- Tick at which the link next has something to do. -/
def nextDeadline (m : TimeSlot ρ γ) (now : Tick) : Option Tick :=
  m.pending.map fun p =>
    let sendAt := p.descriptor.sendAt
    m.station.config.nextSlotStart (if Tick.hasReached sendAt now then now else sendAt)

def isBusy (m : TimeSlot ρ γ) : Bool := m.pending.isSome

variable [Transceiver ρ ε]

/-- Transmit the packet that waits, if it is ready. -/
def release (m : TimeSlot ρ γ) (now : Tick) : TimeSlot ρ γ :=
  match m.pending with
  | none => m
  | some p =>
    if m.isReady p now then
      match m.station.transmit p.descriptor p.payload with
      | (.error _, station) => { station := station.emit (p.outcome (some .radio)) }
      | (.ok _, station) => { station := station.emit (p.outcome none) }
    else m

/-- Transmit what is ready at `now`, then fetch the oldest outcome. -/
def poll (m : TimeSlot ρ γ) (now : Tick) : Option Outcome × TimeSlot ρ γ :=
  let m := m.release now
  let (outcome, station) := m.station.takeOutcome
  (outcome, { m with station })

end TimeSlot

end MoteLink.Link
