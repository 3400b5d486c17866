import MoteLink.Radio.Transceiver

/-!
# Radios under observation

A recorder passes every request on to a radio of any kind and keeps a list of what that radio was
asked to transmit. It answers as the radio does, so that nothing depends on its being there.
-/

namespace MoteLink

/-- What a radio was asked to transmit. -/
structure Transmission where
  header : Bytes
  payload : Bytes
  /-- The radio has not refused it. -/
  taken : Bool
  deriving DecidableEq, Repr

/-- The bytes on air. -/
def Transmission.frame (t : Transmission) : Bytes := t.header ++ t.payload

/-- A radio and all that it was asked to transmit, oldest first. -/
structure Recorder (ρ : Type) where
  radio : ρ
  record : List Transmission := []
  deriving DecidableEq, Repr

namespace Recorder

variable {ρ ε : Type}

/-- Put the radio through a request that transmits nothing. -/
def pass {α : Type} (r : Recorder ρ) (request : ρ → Except ε α × ρ) : Except ε α × Recorder ρ :=
  let (outcome, radio) := request r.radio
  (outcome, { r with radio })

/-- Have the radio transmit, and write down how it went. -/
def send [Transceiver ρ ε] (r : Recorder ρ) (header payload : Bytes) :
    Except ε Unit × Recorder ρ :=
  let (outcome, radio) := Transceiver.send r.radio header payload
  (outcome, { radio, record := r.record ++ [{ header, payload, taken := outcome.isOk }] })

/-- Fetch a frame from the radio. -/
def receive [Transceiver ρ ε] (r : Recorder ρ) (room : Nat) :
    Except Halt (Except ε (Option Bytes) × Recorder ρ) :=
  match Transceiver.receive r.radio room with
  | .error halt => .error halt
  | .ok (outcome, radio) => .ok (outcome, { r with radio })

/-- What a medium does to the radio. -/
def disturb (medium : ρ → ρ) (r : Recorder ρ) : Recorder ρ :=
  { r with radio := medium r.radio }

instance [Transceiver ρ ε] : Transceiver (Recorder ρ) ε where
  powerUp r := r.pass Transceiver.powerUp
  powerDown r := r.pass Transceiver.powerDown
  setChannel r channel := r.pass (Transceiver.setChannel · channel)
  setPower r power := r.pass (Transceiver.setPower · power)
  send := send
  channelClear r := r.pass Transceiver.channelClear
  receive := receive

variable [Transceiver ρ ε] (r : Recorder ρ)

@[simp] theorem record_channelClear :
    (Transceiver.channelClear (ε := ε) r).2.record = r.record := rfl

/-- Whatever is sent is written down, whether it is taken or refused. -/
theorem record_send (header payload : Bytes) :
    (Transceiver.send (ε := ε) r header payload).2.record =
      r.record ++ [⟨header, payload, (Transceiver.send (ε := ε) r header payload).1.isOk⟩] := rfl

end Recorder

end MoteLink
