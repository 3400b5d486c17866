import MoteLink.Link.Outbox
import MoteLink.Link.Sensing
import MoteLink.Settle
import MoteLink.SwapErase

/-!
# Carrier sense with acknowledgements

A packet to one node that asks for an acknowledgement stays in flight until one comes from its
next hop with its sequence number. Where none comes it is sent again, after waits that grow with
the number of attempts, and given up after the last attempt. The link also remembers the
neighbours it has heard.
-/

namespace MoteLink.Link

/-- What an acknowledged link is doing. -/
inductive AckPhase where
  | idle
  /-- The packet in flight is waiting to listen at `expiry`, after `busy` busy assessments. -/
  | backoff (expiry : Tick) (busy : UInt8)
  /-- The packet in flight has been sent. -/
  | awaitingAck (expiry : Tick)
  /-- An attempt has failed and the next one is due at `expiry`. -/
  | retryWait (expiry : Tick)
  deriving DecidableEq, Repr

/-- Neighbours remembered. -/
def neighbourCapacity : Nat := 16

/-- A link that sends a packet again until it is acknowledged. -/
structure Acknowledged (ρ γ : Type) where
  station : Station ρ γ
  outbox : Outbox
  phase : AckPhase := .idle
  neighbours : List Address := []

/-- The packet stays in flight until it is acknowledged. -/
def Packet.needsAck (p : Packet) : Bool :=
  p.descriptor.flags.ackRequested && !p.descriptor.nextHop.isBroadcast

namespace Acknowledged

variable {ρ γ ε : Type}

/-- Remember a neighbour. When all places are taken the first one is given up. -/
def learn (m : Acknowledged ρ γ) (a : Address) : Acknowledged ρ γ :=
  if a.isUnspecified || a.isBroadcast || m.neighbours.contains a then m
  else
    let known :=
      if m.neighbours.length = neighbourCapacity then swapErase m.neighbours 0
      else m.neighbours
    { m with neighbours := known ++ [a] }

/-- A packet to this node may be expected to arrive. -/
def knows (m : Acknowledged ρ γ) (dst : Address) : Bool :=
  dst.isBroadcast || m.neighbours.contains dst

/-- Accept a packet. -/
def submit (m : Acknowledged ρ γ) (d : Descriptor) (payload : Bytes) :
    Except (LinkError ε) UInt8 × Acknowledged ρ γ :=
  match m.station.prepare d payload with
  | (.error e, station) => (.error e, { m with station })
  | (.ok p, station) =>
    match m.outbox.accept p with
    | .error _ => (.error .queueFull, { m with station })
    | .ok (_, outbox) => (.ok p.descriptor.seq, { m with station, outbox })

def send (m : Acknowledged ρ γ) (dst : Address) (payload : Bytes) :
    Except (LinkError ε) UInt8 × Acknowledged ρ γ :=
  m.submit (m.station.localDescriptor dst true) payload

/-- Give up a packet. No outcome is told for it. -/
def cancel (m : Acknowledged ρ γ) (seq : UInt8) : Bool × Acknowledged ρ γ :=
  match m.outbox.remove seq with
  | none => (false, m)
  | some (.inFlight _, outbox) => (true, { m with outbox, phase := .idle })
  | some (_, outbox) => (true, { m with outbox })

/-- Tick at which the link next has something to do. -/
def nextDeadline (m : Acknowledged ρ γ) (now : Tick) : Option Tick :=
  match m.phase with
  | .idle => m.outbox.nextSendAt now
  | .backoff expiry _ => some expiry
  | .awaitingAck expiry => some expiry
  | .retryWait expiry => some expiry

def isBusy (m : Acknowledged ρ γ) : Bool := !m.outbox.isEmpty

/-- Let go of the packet in flight and tell its outcome. -/
def finish (m : Acknowledged ρ γ) (reason : Option FailureReason) : Acknowledged ρ γ :=
  let m := { m with phase := .idle }
  match m.outbox.complete with
  | none => m
  | some (p, outbox) => { m with outbox, station := m.station.emit (p.outcome reason) }

/-- After a failed attempt wait for the next one, or give the packet up. -/
def attemptFailed (m : Acknowledged ρ γ) (reason : FailureReason) (now : Tick) :
    Acknowledged ρ γ :=
  let attempts := (m.outbox.inFlight?.map fun entry => entry.2.attempts).getD 0
  if m.station.config.maxAttempts ≤ attempts then m.finish (some reason)
  else { m with phase := .retryWait (now + m.station.config.retryBackoff attempts) }

/-- The packet in flight is acknowledged by a packet with this descriptor. -/
def isAckedBy (m : Acknowledged ρ γ) (ack : Descriptor) : Bool :=
  match m.outbox.inFlight? with
  | none => false
  | some (_, p) => p.descriptor.seq == ack.seq && p.descriptor.nextHop == ack.prevHop

/-- Take note of an acknowledgement. One that is not waited for changes nothing. -/
def handleAck (m : Acknowledged ρ γ) (ack : Descriptor) : Acknowledged ρ γ :=
  match m.phase with
  | .awaitingAck _ => if m.isAckedBy ack then m.finish none else m
  | _ => m

variable [Transceiver ρ ε]

/-- Take note of a frame for this node: acknowledge it where that is asked for and deliver it,
    unless it is an acknowledgement itself. -/
def receive (m : Acknowledged ρ γ) (frame : Bytes) : Option Delivery × Acknowledged ρ γ :=
  match m.station.listen frame with
  | none => (none, m)
  | some delivery =>
    let d := delivery.descriptor
    let m := m.learn d.prevHop
    if d.flags.isAck then (none, m.handleAck d)
    else if d.flags.ackRequested && d.nextHop == m.station.config.address then
      (some delivery, { m with station := (m.station.sendAck d).2 })
    else (some delivery, m)

/-- Transmit the packet in flight. -/
def attempt (m : Acknowledged ρ γ) (now : Tick) : Except Halt (Acknowledged ρ γ) :=
  match m.outbox.inFlight? with
  | none => .ok { m with phase := .idle }
  | some (_, p) =>
    if p.attempts = 255 then .error .overflow
    else
      let p := { p with attempts := p.attempts + 1 }
      let outbox := m.outbox.setInFlight p
      match m.station.transmit p.descriptor p.payload with
      | (.error _, station) =>
        .ok (attemptFailed { m with station, outbox } .radio now)
      | (.ok _, station) =>
        if p.needsAck then
          let expiry := now + station.config.ackTimeout
          .ok { m with station, outbox, phase := .awaitingAck expiry }
        else .ok (finish { m with station, outbox } none)

variable [RandomSource γ]

/-- Take one step, and tell whether another may follow at the same tick. -/
def step (now : Tick) (m : Acknowledged ρ γ) :
    Except Halt (Except (LinkError ε) Bool × Acknowledged ρ γ) :=
  match m.phase with
  | .idle =>
    match m.outbox.startNext now with
    | none => .ok (.ok false, m)
    | some (_, outbox) =>
      match m.station.firstBackoff now with
      | .error halt => .error halt
      | .ok (expiry, station) =>
        .ok (.ok true, { m with station, outbox, phase := .backoff expiry 0 })
  | .backoff expiry busy =>
    match m.station.assess expiry busy now with
    | .error halt => .error halt
    | .ok (.error e, station) => .ok (.error e, { m with station })
    | .ok (.ok (.pending expiry busy), station) =>
      .ok (.ok false, { m with station, phase := .backoff expiry busy })
    | .ok (.ok .clear, station) =>
      match attempt { m with station } now with
      | .error halt => .error halt
      | .ok m => .ok (.ok true, m)
  | .awaitingAck expiry =>
    if Tick.hasReached expiry now then .ok (.ok true, m.attemptFailed .ackTimeout now)
    else .ok (.ok false, m)
  | .retryWait expiry =>
    if Tick.hasReached expiry now then .ok (.ok true, { m with phase := .backoff now 0 })
    else .ok (.ok false, m)

/-- Rounds that one poll takes at most: three for each attempt that the packets held may take,
    and one to find no more. -/
def pollRounds (m : Acknowledged ρ γ) : Nat :=
  3 * max 1 m.station.config.maxAttempts.toNat * m.outbox.held + 1

/-- Take all steps that can be taken at `now`, then fetch the oldest outcome. -/
def poll (m : Acknowledged ρ γ) (now : Tick) :
    Except Halt (Except (LinkError ε) (Option Outcome) × Acknowledged ρ γ) :=
  match settle (step now) m.pollRounds m with
  | .error halt => .error halt
  | .ok (.error e, m) => .ok (.error e, m)
  | .ok (.ok (), m) =>
    let (outcome, station) := m.station.takeOutcome
    .ok (.ok outcome, { m with station })

end Acknowledged

end MoteLink.Link
