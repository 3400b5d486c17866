import MoteLink.Radio.Transceiver

/-!
# Radios that count

A tally passes every request on to a radio of any kind and counts it. It answers as the radio does.
-/

namespace MoteLink

/-- A radio and the number of requests made of it. -/
structure Tally (ρ : Type) where
  radio : ρ
  requests : Nat := 0
  deriving DecidableEq, Repr

namespace Tally

variable {ρ ε : Type}

/-- Put the radio through a request, and count it. -/
def pass {α : Type} (r : Tally ρ) (request : ρ → Except ε α × ρ) : Except ε α × Tally ρ :=
  let (outcome, radio) := request r.radio
  (outcome, { radio, requests := r.requests + 1 })

/-- Fetch a frame from the radio. -/
def receive [Transceiver ρ ε] (r : Tally ρ) (room : Nat) :
    Except Halt (Except ε (Option Bytes) × Tally ρ) :=
  match Transceiver.receive r.radio room with
  | .error halt => .error halt
  | .ok (outcome, radio) => .ok (outcome, { radio, requests := r.requests + 1 })

instance [Transceiver ρ ε] : Transceiver (Tally ρ) ε where
  powerUp r := r.pass Transceiver.powerUp
  powerDown r := r.pass Transceiver.powerDown
  setChannel r channel := r.pass (Transceiver.setChannel · channel)
  setPower r power := r.pass (Transceiver.setPower · power)
  send r header payload := r.pass (Transceiver.send · header payload)
  channelClear r := r.pass Transceiver.channelClear
  receive := receive

variable [Transceiver ρ ε] (r : Tally ρ)

end Tally

end MoteLink
