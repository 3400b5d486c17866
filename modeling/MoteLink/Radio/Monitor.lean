import MoteLink.Radio.Recorder

/-!
# Radios under close observation

A monitor passes every request on to a radio of any kind, as a recorder does. It keeps one list of
what that radio was asked to transmit and of what it answered when asked whether the channel is
clear, so that the order of both can be told.
-/

namespace MoteLink

/-- A request to a radio and how it went. -/
inductive Dealing where
  /-- The channel was assessed. Without an answer the assessment has failed. -/
  | assessed (clear? : Option Bool)
  | transmitted (t : Transmission)
  deriving DecidableEq, Repr

/-- The answer to an assessment. -/
def Dealing.assessment? : Dealing → Option (Option Bool)
  | .assessed clear? => some clear?
  | .transmitted _ => none

/-- A radio and the dealings that others have had with it, oldest first. -/
structure Monitor (ρ : Type) where
  radio : ρ
  dealings : List Dealing := []
  deriving DecidableEq, Repr

namespace Monitor

variable {ρ ε : Type}

/-- Put the radio through a request that is not written down. -/
def pass {α : Type} (r : Monitor ρ) (request : ρ → Except ε α × ρ) : Except ε α × Monitor ρ :=
  let (outcome, radio) := request r.radio
  (outcome, { r with radio })

/-- Have the radio transmit, and write down how it went. -/
def send [Transceiver ρ ε] (r : Monitor ρ) (header payload : Bytes) :
    Except ε Unit × Monitor ρ :=
  let (outcome, radio) := Transceiver.send r.radio header payload
  let t : Transmission := { header, payload, taken := outcome.isOk }
  (outcome, { radio, dealings := r.dealings ++ [.transmitted t] })

/-- Have the channel assessed, and write down the answer. -/
def channelClear [Transceiver ρ ε] (r : Monitor ρ) : Except ε Bool × Monitor ρ :=
  let (outcome, radio) := Transceiver.channelClear r.radio
  (outcome, { radio, dealings := r.dealings ++ [.assessed outcome.toOption] })

/-- Fetch a frame from the radio. -/
def receive [Transceiver ρ ε] (r : Monitor ρ) (room : Nat) :
    Except Halt (Except ε (Option Bytes) × Monitor ρ) :=
  match Transceiver.receive r.radio room with
  | .error halt => .error halt
  | .ok (outcome, radio) => .ok (outcome, { r with radio })

/-- What a medium does to the radio. -/
def disturb (medium : ρ → ρ) (r : Monitor ρ) : Monitor ρ :=
  { r with radio := medium r.radio }

instance [Transceiver ρ ε] : Transceiver (Monitor ρ) ε where
  powerUp r := r.pass Transceiver.powerUp
  powerDown r := r.pass Transceiver.powerDown
  setChannel r channel := r.pass (Transceiver.setChannel · channel)
  setPower r power := r.pass (Transceiver.setPower · power)
  send := send
  channelClear := channelClear
  receive := receive

variable [Transceiver ρ ε] (r : Monitor ρ)

theorem dealings_channelClear :
    (Transceiver.channelClear (ε := ε) r).2.dealings =
      r.dealings ++ [.assessed (Transceiver.channelClear (ε := ε) r).1.toOption] := rfl

theorem dealings_send (header payload : Bytes) :
    (Transceiver.send (ε := ε) r header payload).2.dealings = r.dealings ++
      [.transmitted ⟨header, payload, (Transceiver.send (ε := ε) r header payload).1.isOk⟩] := rfl

end Monitor

end MoteLink
