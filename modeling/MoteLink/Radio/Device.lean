import MoteLink.Radio.Transceiver

/-!
# Radio devices

A device driver offers more and smaller requests than the access methods ask for. `DeviceRadio`
joins them: the channel is clear where the device hears nothing of its own and the signal strength
is not above a threshold, and a frame that no radio carries is refused before the device sees it.
-/

namespace MoteLink

/-- A radio device with states `δ` and errors `ε`. -/
class Device (δ : Type) (ε : outParam Type) where
  startReceive : δ → Except ε Unit × δ
  sleep : δ → Except ε Unit × δ
  setChannel : δ → UInt8 → Except ε Unit × δ
  setPower : δ → Int8 → Except ε Unit × δ
  startTransmit : δ → Bytes → Except ε Unit × δ
  isBusy : δ → Except ε Bool × δ
  /-- A frame has been received; the flag asks the device to listen again if it has stopped. -/
  checkReceive : δ → Bool → Except ε Bool × δ
  /-- Signal strength on the channel. -/
  pollStrength : δ → Except ε Int16 × δ
  /-- The received frame, for a receiver with the given room. -/
  getReceived : δ → Nat → Except ε Bytes × δ

/-- A radio made of a device. -/
structure DeviceRadio (δ : Type) where
  device : δ
  /-- The channel is busy above this signal strength. -/
  threshold : Int16

/-- Errors of a radio made of a device. -/
inductive DeviceRadioError (ε : Type) where
  /-- No radio carries a frame of this length. -/
  | frameTooLong (length : Nat)
  | device (e : ε)
  deriving DecidableEq, Repr

namespace DeviceRadio

variable {δ ε : Type} [Device δ ε]

/-- The outcome of a request to the device as an outcome of the radio. -/
def lift {α : Type} (r : DeviceRadio δ) (outcome : Except ε α × δ) :
    Except (DeviceRadioError ε) α × DeviceRadio δ :=
  (outcome.1.mapError .device, { r with device := outcome.2 })

def send (r : DeviceRadio δ) (header payload : Bytes) :
    Except (DeviceRadioError ε) Unit × DeviceRadio δ :=
  let frame := header ++ payload
  if maxFrameLength < frame.length then (.error (.frameTooLong frame.length), r)
  else r.lift (Device.startTransmit r.device frame)

def channelClear (r : DeviceRadio δ) : Except (DeviceRadioError ε) Bool × DeviceRadio δ :=
  match r.lift (Device.isBusy r.device) with
  | (.error e, r) => (.error e, r)
  | (.ok true, r) => (.ok false, r)
  | (.ok false, r) =>
    let (strength, r) := r.lift (Device.pollStrength r.device)
    (strength.map fun s => decide (s ≤ r.threshold), r)

def receive (r : DeviceRadio δ) (room : Nat) :
    Except (DeviceRadioError ε) (Option Bytes) × DeviceRadio δ :=
  match r.lift (Device.checkReceive r.device true) with
  | (.error e, r) => (.error e, r)
  | (.ok false, r) => (.ok none, r)
  | (.ok true, r) =>
    let (frame, r) := r.lift (Device.getReceived r.device room)
    (frame.map some, r)

instance : Transceiver (DeviceRadio δ) (DeviceRadioError ε) where
  powerUp r := r.lift (Device.startReceive r.device)
  powerDown r := r.lift (Device.sleep r.device)
  setChannel r channel := r.lift (Device.setChannel r.device channel)
  setPower r power := r.lift (Device.setPower r.device power)
  send := send
  channelClear := channelClear
  receive r room := .ok (r.receive room)

end DeviceRadio

end MoteLink
