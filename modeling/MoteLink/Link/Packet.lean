import MoteLink.Header.Descriptor
import MoteLink.Radio.Transceiver

/-!
# Packets and what becomes of them

A packet waits at a node until the access method in use lets it out. Its sender is then told
whether it went.
-/

namespace MoteLink.Link

/-- A packet that waits to be transmitted. -/
structure Packet where
  descriptor : Descriptor
  payload : Bytes
  /-- Times it has been handed to the radio. -/
  attempts : UInt8 := 0
  /-- Number of its acceptance. -/
  ticket : UInt32 := 0
  deriving DecidableEq, Repr

/-- A packet not yet accepted, if its payload fits a frame. -/
def Packet.ofPayload? (descriptor : Descriptor) (payload : Bytes) : Option Packet :=
  if payload.length ≤ maxFrameLength then some { descriptor, payload } else none

/-- Why a packet was accepted and yet did not reach its next hop. -/
inductive FailureReason where
  /-- No acknowledgement came to any attempt. -/
  | ackTimeout
  /-- The radio refused the last attempt. -/
  | radio
  deriving DecidableEq, Repr

/-- What became of an accepted packet. -/
inductive Outcome where
  | sent (seq : UInt8) (dst : Address)
  | failed (seq : UInt8) (dst : Address) (reason : FailureReason)
  deriving DecidableEq, Repr

/-- The outcome of a packet: sent, unless a reason is given. -/
def Packet.outcome (p : Packet) : Option FailureReason → Outcome
  | none => .sent p.descriptor.seq p.descriptor.nextHop
  | some reason => .failed p.descriptor.seq p.descriptor.nextHop reason

/-- A packet that has come in for the layers above. -/
structure Delivery where
  descriptor : Descriptor
  payload : Bytes
  deriving DecidableEq, Repr

end MoteLink.Link
