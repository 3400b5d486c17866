import MoteLink.Link.Station

/-!
# Passing frames through

No header, no addresses and no access control: a payload goes to the radio as it is, and every
frame that comes in is delivered.
-/

namespace MoteLink.Link

/-- A link that passes payloads through. -/
structure PassThrough (ρ γ : Type) where
  station : Station ρ γ

namespace PassThrough

variable {ρ γ ε : Type}

/-- Transmit a payload at once. -/
def submit [Transceiver ρ ε] (m : PassThrough ρ γ) (d : Descriptor) (payload : Bytes) :
    Except (LinkError ε) UInt8 × PassThrough ρ γ :=
  if m.station.frameLimit < payload.length then (.error .payloadTooLong, m)
  else
    let (seq, station) := m.station.nextSeq
    match station.onRadio fun r => Transceiver.send r [] payload with
    | (.error e, station) => (.error e, { station })
    | (.ok _, station) => (.ok seq, { station := station.emit (.sent seq d.nextHop) })

def send [Transceiver ρ ε] (m : PassThrough ρ γ) (dst : Address) (payload : Bytes) :
    Except (LinkError ε) UInt8 × PassThrough ρ γ :=
  m.submit (m.station.localDescriptor dst false) payload

/-- Every frame is a payload, sent to all. -/
def receive (m : PassThrough ρ γ) (frame : Bytes) : Option Delivery × PassThrough ρ γ :=
  (some { descriptor := {}, payload := frame }, m)

/-- The oldest outcome. -/
def poll (m : PassThrough ρ γ) : Option Outcome × PassThrough ρ γ :=
  let (outcome, station) := m.station.takeOutcome
  (outcome, { station })

end PassThrough

end MoteLink.Link
