import MoteLink.Link.Acknowledged
import MoteLink.Link.CarrierSense
import MoteLink.Link.PassThrough
import MoteLink.Link.TimeSlot

/-!
# Links

A link lets a node send packets to its neighbours by one of four access methods, chosen when the
node starts. It accepts packets, takes in frames, and is polled for the outcomes of what it has
accepted; between polls it tells when the next one is worth while.
-/

namespace MoteLink

open Link

/-- A link over radios `ρ` and random sources `γ`. -/
inductive Link (ρ γ : Type) where
  | passThrough (m : PassThrough ρ γ)
  | carrierSense (m : CarrierSense ρ γ)
  | acknowledged (m : Acknowledged ρ γ)
  | timeSlot (m : TimeSlot ρ γ)

namespace Link

/-- The access methods. -/
inductive Method where
  | passThrough
  | carrierSense
  | acknowledged
  | timeSlot
  deriving DecidableEq, Repr

variable {ρ γ ε : Type}

/-- A link that has accepted nothing yet, with `capacity` places for packets where the method
    keeps an outbox. -/
def new (method : Method) (capacity : Nat) (config : Config) (radio : ρ) (rng : γ) : Link ρ γ :=
  let station : Station ρ γ := { config, radio, rng }
  match method with
  | .passThrough => .passThrough { station }
  | .carrierSense => .carrierSense { station, outbox := .empty capacity }
  | .acknowledged => .acknowledged { station, outbox := .empty capacity }
  | .timeSlot => .timeSlot { station }

def method : Link ρ γ → Method
  | .passThrough _ => .passThrough
  | .carrierSense _ => .carrierSense
  | .acknowledged _ => .acknowledged
  | .timeSlot _ => .timeSlot

def station : Link ρ γ → Station ρ γ
  | .passThrough m => m.station
  | .carrierSense m => m.station
  | .acknowledged m => m.station
  | .timeSlot m => m.station

/-- The link with another station. -/
def setStation (link : Link ρ γ) (station : Station ρ γ) : Link ρ γ :=
  match link with
  | .passThrough _ => .passThrough { station }
  | .carrierSense m => .carrierSense { m with station }
  | .acknowledged m => .acknowledged { m with station }
  | .timeSlot m => .timeSlot { m with station }

def address (link : Link ρ γ) : Address := link.station.config.address

def radio (link : Link ρ γ) : ρ := link.station.radio

/-- The link with another radio. -/
def setRadio (link : Link ρ γ) (radio : ρ) : Link ρ γ :=
  link.setStation { link.station with radio }

/-- Power up the radio and listen. -/
def start [Transceiver ρ ε] (link : Link ρ γ) : Except (LinkError ε) Unit × Link ρ γ :=
  let (outcome, station) := link.station.start
  (outcome, link.setStation station)

/-- Accept a payload for a node and tell its sequence number. -/
def send [Transceiver ρ ε] (link : Link ρ γ) (dst : Address) (payload : Bytes) :
    Except (LinkError ε) UInt8 × Link ρ γ :=
  match link with
  | .passThrough m => (m.send dst payload).map id .passThrough
  | .carrierSense m => (m.send dst payload).map id .carrierSense
  | .acknowledged m => (m.send dst payload).map id .acknowledged
  | .timeSlot m => (m.send dst payload).map id .timeSlot

/-- Accept a packet with a descriptor of its own and tell its sequence number. -/
def submit [Transceiver ρ ε] (link : Link ρ γ) (d : Descriptor) (payload : Bytes) :
    Except (LinkError ε) UInt8 × Link ρ γ :=
  match link with
  | .passThrough m => (m.submit d payload).map id .passThrough
  | .carrierSense m => (m.submit d payload).map id .carrierSense
  | .acknowledged m => (m.submit d payload).map id .acknowledged
  | .timeSlot m => (m.submit d payload).map id .timeSlot

/-- Take in a frame and tell what it brings for the layers above. -/
def receive [Transceiver ρ ε] (link : Link ρ γ) (frame : Bytes) : Option Delivery × Link ρ γ :=
  match link with
  | .passThrough m => (m.receive frame).map id .passThrough
  | .carrierSense m => (m.receive frame).map id .carrierSense
  | .acknowledged m => (m.receive frame).map id .acknowledged
  | .timeSlot m => (m.receive frame).map id .timeSlot

/-- Do what is to be done at `now` and fetch the oldest outcome. -/
def poll [Transceiver ρ ε] [RandomSource γ] (link : Link ρ γ) (now : Tick) :
    Except Halt (Except (LinkError ε) (Option Outcome) × Link ρ γ) :=
  match link with
  | .passThrough m => .ok (m.poll.map .ok .passThrough)
  | .carrierSense m => (m.poll now).map (·.map id .carrierSense)
  | .acknowledged m => (m.poll now).map (·.map id .acknowledged)
  | .timeSlot m => .ok ((m.poll now).map .ok .timeSlot)

/-- Give up the packet with this sequence number, without an outcome. -/
def cancel (link : Link ρ γ) (seq : UInt8) : Bool × Link ρ γ :=
  match link with
  | .passThrough m => (false, .passThrough m)
  | .carrierSense m => (m.cancel seq).map id .carrierSense
  | .acknowledged m => (m.cancel seq).map id .acknowledged
  | .timeSlot m => (m.cancel seq).map id .timeSlot

/-- A packet to this node may be expected to arrive. -/
def knows (link : Link ρ γ) (dst : Address) : Bool :=
  match link with
  | .acknowledged m => m.knows dst
  | _ => true

/-- The header that the link would send for a descriptor, in a buffer of the given size. -/
def headerFor (link : Link ρ γ) (d : Descriptor) (room : Nat) : Except HeaderError Bytes :=
  match link with
  | .passThrough _ => .ok []
  | _ => d.encodeWithin room

/-- Tick at which a poll next has something to do. -/
def nextDeadline (link : Link ρ γ) (now : Tick) : Option Tick :=
  match link with
  | .passThrough _ => none
  | .carrierSense m => m.nextDeadline now
  | .acknowledged m => m.nextDeadline now
  | .timeSlot m => m.nextDeadline now

/-- A packet is held. -/
def isBusy : Link ρ γ → Bool
  | .passThrough _ => false
  | .carrierSense m => m.isBusy
  | .acknowledged m => m.isBusy
  | .timeSlot m => m.isBusy

/-- Number of packets held. -/
def held : Link ρ γ → Nat
  | .passThrough _ => 0
  | .carrierSense m => m.outbox.held
  | .acknowledged m => m.outbox.held
  | .timeSlot m => m.pending.toList.length

/-- Outcomes that can still be fetched, at most. -/
def outstanding (link : Link ρ γ) : Nat :=
  link.station.outcomes.items.length + link.held

@[simp] theorem station_setStation (link : Link ρ γ) (s : Station ρ γ) :
    (link.setStation s).station = s := by
  cases link <;> rfl

@[simp] theorem method_setStation (link : Link ρ γ) (s : Station ρ γ) :
    (link.setStation s).method = link.method := by
  cases link <;> rfl

@[simp] theorem radio_setRadio (link : Link ρ γ) (r : ρ) : (link.setRadio r).radio = r := by
  simp [setRadio, radio]

theorem method_new (method : Method) (capacity : Nat) (config : Config) (radio : ρ) (rng : γ) :
    (new method capacity config radio rng).method = method := by
  cases method <;> rfl

end Link

end MoteLink
