import MoteLink.Fifo
import MoteLink.Header.Decode
import MoteLink.Link.Config
import MoteLink.Link.Packet
import MoteLink.Random

/-!
# Stations

What all access methods share: the settings, the sequence counter, the radio, the random source
and the outcomes not yet fetched; how a packet is admitted, how one is transmitted at once, and
which received frames are for this node.
-/

namespace MoteLink.Link

/-- Why a request to the link is refused. Radio errors are of type `ε`. -/
inductive LinkError (ε : Type) where
  /-- No place is free. -/
  | queueFull
  /-- The frame would be longer than this node sends. -/
  | payloadTooLong
  /-- A long address where these are not taken. -/
  | invalidAddress
  | header (e : HeaderError)
  | radio (e : ε)
  deriving DecidableEq, Repr

/-- Outcomes kept for fetching. -/
def outcomeCapacity : Nat := 7

/-- A node's link without its access method. -/
structure Station (ρ γ : Type) where
  config : Config
  /-- The sequence number given out last. -/
  seq : UInt8 := 0
  radio : ρ
  rng : γ
  outcomes : Fifo Outcome := .empty outcomeCapacity

namespace Station

variable {ρ γ ε : Type}

/-- Put the station's radio through a request. -/
def onRadio {α : Type} (s : Station ρ γ) (request : ρ → Except ε α × ρ) :
    Except (LinkError ε) α × Station ρ γ :=
  let (outcome, radio) := request s.radio
  (outcome.mapError .radio, { s with radio })

/-- Count on to the next sequence number, which is never zero. -/
def nextSeq (s : Station ρ γ) : UInt8 × Station ρ γ :=
  let seq := if s.seq + 1 = 0 then 1 else s.seq + 1
  (seq, { s with seq })

/-- Descriptor of a packet that starts here. -/
def localDescriptor (s : Station ρ γ) (dst : Address) (requestAck : Bool) : Descriptor :=
  { src := s.config.address
    dst := dst
    flags :=
      { isLocal := true, ackRequested := requestAck && s.config.ackUnicast && !dst.isBroadcast } }

/-- The largest frame that this station hands to its radio. -/
def frameLimit (s : Station ρ γ) : Nat :=
  min s.config.bufferSize maxFrameLength

/-- Check a packet before it is accepted. One without a sequence number gets the next one, which
    is used up even where the packet is then refused. -/
def prepare (s : Station ρ γ) (d : Descriptor) (payload : Bytes) :
    Except (LinkError ε) Packet × Station ρ γ :=
  if !s.config.longAddresses && d.addresses.any Address.isLong then (.error .invalidAddress, s)
  else
    let (seq, s) := if d.seq = 0 then s.nextSeq else (d.seq, s)
    let d := { d with seq }
    match d.encodedLength with
    | .error e => (.error (.header e), s)
    | .ok headerLength =>
      if s.frameLimit < headerLength + payload.length then (.error .payloadTooLong, s)
      else (.ok { descriptor := { d with headerLength }, payload }, s)

/-- This node listens to frames for the given address. -/
def hears (s : Station ρ γ) (a : Address) : Bool :=
  a == s.config.address || a.isBroadcast

/-- What a received frame brings, if it can be read and is for this node. -/
def listen (s : Station ρ γ) (frame : Bytes) : Option Delivery :=
  match Descriptor.read? frame with
  | none => none
  | some (descriptor, payload) =>
    if s.hears descriptor.nextHop then some { descriptor, payload } else none

/-- Acknowledgement of a packet, back over the hop by which it has come. -/
def ackFor (s : Station ρ γ) (d : Descriptor) : Descriptor :=
  Descriptor.reverse
    { src := d.prevHop
      dst := s.config.address
      seq := d.seq
      flags := { isAck := true } }

/-- Keep an outcome for fetching. -/
def emit (s : Station ρ γ) (outcome : Outcome) : Station ρ γ :=
  { s with outcomes := s.outcomes.push outcome }

/-- Fetch the oldest outcome. -/
def takeOutcome (s : Station ρ γ) : Option Outcome × Station ρ γ :=
  let (outcome, outcomes) := s.outcomes.pop
  (outcome, { s with outcomes })

/-- Draw a backoff of at most the configured length. Where none is configured nothing is drawn. -/
def drawBackoff [RandomSource γ] (s : Station ρ γ) : Except Halt (UInt32 × Station ρ γ) :=
  let longest := s.config.maxInitialBackoff
  if longest = 0 then .ok (0, s)
  else if longest = Tick.longest then .error .overflow
  else
    let (word, rng) := RandomSource.next s.rng
    .ok (word % (longest + 1), { s with rng })

variable [Transceiver ρ ε]

/-- Power up the radio and listen. -/
def start (s : Station ρ γ) : Except (LinkError ε) Unit × Station ρ γ :=
  s.onRadio Transceiver.powerUp

/-- Hand a packet to the radio and tell the length of its header. -/
def transmit (s : Station ρ γ) (d : Descriptor) (payload : Bytes) :
    Except (LinkError ε) Nat × Station ρ γ :=
  match d.encodeWithin maxHeaderLength with
  | .error e => (.error (.header e), s)
  | .ok header =>
    let (outcome, s) := s.onRadio fun r => Transceiver.send r header payload
    (outcome.map fun _ => header.length, s)

def channelClear (s : Station ρ γ) : Except (LinkError ε) Bool × Station ρ γ :=
  s.onRadio Transceiver.channelClear

def sendAck (s : Station ρ γ) (d : Descriptor) : Except (LinkError ε) Unit × Station ρ γ :=
  let (outcome, s) := s.transmit (s.ackFor d) []
  (outcome.map fun _ => (), s)

end Station

namespace Station

variable {ρ γ : Type} (s : Station ρ γ)

theorem nextSeq_ne_zero : s.nextSeq.1 ≠ 0 := by
  simp only [nextSeq]
  split
  · decide
  · assumption

end Station

end MoteLink.Link
