import MoteLink.Address
import MoteLink.Halt

/-!
# Radios

What the access methods ask of a radio. A request may fail with an error of the radio's own
kind, and it changes the radio's state in either case.
-/

namespace MoteLink

/-- The largest frame a radio carries, header and payload together. -/
def maxFrameLength : Nat := 128

/-- A radio with states `ρ` and errors `ε`. -/
class Transceiver (ρ : Type) (ε : outParam Type) where
  /-- Power up and listen. -/
  powerUp : ρ → Except ε Unit × ρ
  /-- Go to sleep. -/
  powerDown : ρ → Except ε Unit × ρ
  setChannel : ρ → UInt8 → Except ε Unit × ρ
  setPower : ρ → Int8 → Except ε Unit × ρ
  /-- Transmit a header followed by a payload. -/
  send : ρ → Bytes → Bytes → Except ε Unit × ρ
  /-- Nobody else is sending. -/
  channelClear : ρ → Except ε Bool × ρ
  /-- The next received frame, if there is one, for a receiver with the given room. -/
  receive : ρ → Nat → Except Halt (Except ε (Option Bytes) × ρ)

/-- A radio that tells how many received frames it holds at most. -/
class Backlog (ρ : Type) where
  waiting : ρ → Nat

end MoteLink
