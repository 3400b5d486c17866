import MoteLink.Link.Outbox
import MoteLink.Link.Sensing
import MoteLink.Settle

/-!
# Carrier sense

Each packet is sent once, after the channel has been sensed. Nobody acknowledges it.
-/

namespace MoteLink.Link

/-- What a carrier-sensing link is doing. -/
inductive CarrierPhase where
  | idle
  /-- The packet in flight is waiting to listen at `expiry`, after `busy` busy assessments. -/
  | backoff (expiry : Tick) (busy : UInt8)
  deriving DecidableEq, Repr

/-- A link that senses the channel before it sends. -/
structure CarrierSense (ρ γ : Type) where
  station : Station ρ γ
  outbox : Outbox
  phase : CarrierPhase := .idle

namespace CarrierSense

variable {ρ γ ε : Type}

/-- Accept a packet. -/
def submit (m : CarrierSense ρ γ) (d : Descriptor) (payload : Bytes) :
    Except (LinkError ε) UInt8 × CarrierSense ρ γ :=
  match m.station.prepare d payload with
  | (.error e, station) => (.error e, { m with station })
  | (.ok p, station) =>
    match m.outbox.accept p with
    | .error _ => (.error .queueFull, { m with station })
    | .ok (_, outbox) => (.ok p.descriptor.seq, { m with station, outbox })

def send (m : CarrierSense ρ γ) (dst : Address) (payload : Bytes) :
    Except (LinkError ε) UInt8 × CarrierSense ρ γ :=
  m.submit (m.station.localDescriptor dst false) payload

/-- Deliver a frame for this node, unless it is an acknowledgement. -/
def receive (m : CarrierSense ρ γ) (frame : Bytes) : Option Delivery × CarrierSense ρ γ :=
  ((m.station.listen frame).filter fun d => !d.descriptor.flags.isAck, m)

/-- Give up a packet. No outcome is told for it. -/
def cancel (m : CarrierSense ρ γ) (seq : UInt8) : Bool × CarrierSense ρ γ :=
  match m.outbox.remove seq with
  | none => (false, m)
  | some (.inFlight _, outbox) => (true, { m with outbox, phase := .idle })
  | some (_, outbox) => (true, { m with outbox })

/-- Tick at which the link next has something to do. -/
def nextDeadline (m : CarrierSense ρ γ) (now : Tick) : Option Tick :=
  match m.phase with
  | .idle => m.outbox.nextSendAt now
  | .backoff expiry _ => some expiry

def isBusy (m : CarrierSense ρ γ) : Bool := !m.outbox.isEmpty

variable [Transceiver ρ ε]

/-- Transmit the packet in flight and tell its outcome. -/
def release (m : CarrierSense ρ γ) : CarrierSense ρ γ :=
  let m := { m with phase := .idle }
  match m.outbox.complete with
  | none => m
  | some (p, outbox) =>
    match m.station.transmit p.descriptor p.payload with
    | (.error _, station) => { m with outbox, station := station.emit (p.outcome (some .radio)) }
    | (.ok _, station) => { m with outbox, station := station.emit (p.outcome none) }

variable [RandomSource γ]

/-- Take one step, and tell whether another may follow at the same tick. -/
def step (now : Tick) (m : CarrierSense ρ γ) :
    Except Halt (Except (LinkError ε) Bool × CarrierSense ρ γ) :=
  match m.phase with
  | .idle =>
    match m.outbox.startNext now with
    | none => .ok (.ok false, m)
    | some (_, outbox) =>
      match m.station.firstBackoff now with
      | .error halt => .error halt
      | .ok (expiry, station) =>
        .ok (.ok true, { m with station, outbox, phase := .backoff expiry 0 })
  | .backoff expiry busy =>
    match m.station.assess expiry busy now with
    | .error halt => .error halt
    | .ok (.error e, station) => .ok (.error e, { m with station })
    | .ok (.ok (.pending expiry busy), station) =>
      .ok (.ok false, { m with station, phase := .backoff expiry busy })
    | .ok (.ok .clear, station) => .ok (.ok true, release { m with station })

/-- Rounds that one poll takes at most: two for each packet held and one to find no more. -/
def pollRounds (m : CarrierSense ρ γ) : Nat := 2 * m.outbox.held + 1

/-- Take all steps that can be taken at `now`, then fetch the oldest outcome. -/
def poll (m : CarrierSense ρ γ) (now : Tick) :
    Except Halt (Except (LinkError ε) (Option Outcome) × CarrierSense ρ γ) :=
  match settle (step now) m.pollRounds m with
  | .error halt => .error halt
  | .ok (.error e, m) => .ok (.error e, m)
  | .ok (.ok (), m) =>
    let (outcome, station) := m.station.takeOutcome
    .ok (.ok outcome, { m with station })

end CarrierSense

end MoteLink.Link
