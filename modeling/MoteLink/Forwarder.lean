import MoteLink.Header.Descriptor
import MoteLink.SwapErase

/-!
# Forwarding packets

Every packet passes through the forwarder. One that starts here goes down to the link. One for
this node or for all goes up to the receivers at its destination endpoint. Any other is relayed: it
goes down again, with one hop less to go, until no hop is left.
-/

namespace MoteLink

/-- Settings of a forwarder. -/
structure ForwarderConfig where
  /-- Address of this node. -/
  address : Address := .unspecified
  /-- Wait before a packet is relayed, in milliseconds. -/
  delay : UInt32 := 1
  deriving DecidableEq, Repr

/-- Receivers at this endpoint get the packets for every endpoint. -/
def anyEndpoint : UInt8 := 0

/-- A receiver at an endpoint; it changes a state of type `α`. -/
structure Receiver (α : Type) where
  endpoint : UInt8
  handle : α → Descriptor → Bytes → α

/-- Why a packet went nowhere. -/
inductive DropReason where
  | hopLimitExceeded
  /-- Nobody receives at the destination endpoint. -/
  | noReceiver
  /-- A relay puts its address where only short ones fit, and has a long one. -/
  | longRelayAddress
  deriving DecidableEq, Repr

/-- Where a packet went. -/
inductive Forwarded where
  /-- Down to the link under this sequence number, having started here. -/
  | sent (seq : UInt8)
  /-- Up to so many receivers. -/
  | delivered (count : Nat)
  /-- Down to the link again under this sequence number. -/
  | relayed (seq : UInt8)
  | dropped (reason : DropReason)
  deriving DecidableEq, Repr

/-- Why a receiver cannot be registered. -/
inductive ReceiverError where
  | tableFull
  deriving DecidableEq, Repr

/-- A forwarder with room for `capacity` receivers. -/
structure Forwarder (α : Type) where
  config : ForwarderConfig
  capacity : Nat
  receivers : List (Receiver α) := []

namespace Forwarder

variable {α μ ε : Type}

/-- Place of the receiver at an endpoint. -/
def find? (f : Forwarder α) (endpoint : UInt8) : Option Nat :=
  f.receivers.findIdx? fun r => r.endpoint == endpoint

/-- Put a receiver at an endpoint, in place of the one that may be there. -/
def register (f : Forwarder α) (endpoint : UInt8) (handle : α → Descriptor → Bytes → α) :
    Except ReceiverError (Forwarder α) :=
  match f.find? endpoint with
  | some i => .ok { f with receivers := f.receivers.set i { endpoint, handle } }
  | none =>
    if f.receivers.length < f.capacity then
      .ok { f with receivers := f.receivers ++ [{ endpoint, handle }] }
    else .error .tableFull

/-- Remove the receiver at an endpoint and tell whether there was one. -/
def unregister (f : Forwarder α) (endpoint : UInt8) : Bool × Forwarder α :=
  match f.find? endpoint with
  | none => (false, f)
  | some i => (true, { f with receivers := swapErase f.receivers i })

/-- The receivers that get the packets for an endpoint. -/
def receiversAt (f : Forwarder α) (endpoint : UInt8) : List (Receiver α) :=
  f.receivers.filter fun r => r.endpoint == endpoint || r.endpoint == anyEndpoint

/-- Call the receivers at the destination endpoint. -/
def deliver (f : Forwarder α) (ctx : α) (d : Descriptor) (payload : Bytes) : Forwarded × α :=
  let receivers := f.receiversAt d.dstEndpoint
  let ctx := receivers.foldl (fun ctx r => r.handle ctx d payload) ctx
  (if receivers.isEmpty then .dropped .noReceiver else .delivered receivers.length, ctx)

/-- The descriptor under which this node relays a packet. -/
def relayed (f : Forwarder α) (now : Tick) (d : Descriptor) : Descriptor :=
  { d with
    hopLimit := d.hopLimit - 1
    hopSrc := f.config.address
    hopDst := .unspecified
    seq := 0
    flags := { d.flags with isLocal := false, isAck := false }
    sendAt := now + f.config.delay }

/-- Why a packet cannot be relayed. It needs a hop to go beyond this one. -/
def relayDrop? (f : Forwarder α) (d : Descriptor) : Option DropReason :=
  if d.hopLimit ≤ 1 then some .hopLimitExceeded
  else if f.config.address.isLong then some .longRelayAddress
  else none

/-- Route a packet, over a link of type `μ` that is given packets by `submit`. -/
def forward (f : Forwarder α) (submit : μ → Descriptor → Bytes → Except ε UInt8 × μ) (link : μ)
    (ctx : α) (now : Tick) (d : Descriptor) (payload : Bytes) :
    Except ε Forwarded × μ × α :=
  if d.flags.isLocal then
    let (seq, link) := submit link d payload
    (seq.map .sent, link, ctx)
  else if d.dst == f.config.address || d.dst.isBroadcast then
    let (outcome, ctx) := f.deliver ctx d payload
    (.ok outcome, link, ctx)
  else
    match f.relayDrop? d with
    | some reason => (.ok (.dropped reason), link, ctx)
    | none =>
      let (seq, link) := submit link (f.relayed now d) payload
      (seq.map .relayed, link, ctx)

theorem hopLimit_relayed (f : Forwarder α) (now : Tick) (d : Descriptor) :
    (f.relayed now d).hopLimit = d.hopLimit - 1 := rfl

theorem nextHop_relayed (f : Forwarder α) (now : Tick) (d : Descriptor) :
    (f.relayed now d).nextHop = d.dst := rfl

theorem unregister_of_absent {f : Forwarder α} {endpoint : UInt8} (h : f.find? endpoint = none) :
    f.unregister endpoint = (false, f) := by
  simp [unregister, h]

end Forwarder

end MoteLink
