import MoteLink.Address
import MoteLink.Tick

/-!
# Link configuration

One record of settings serves all access methods. Times are in milliseconds.
-/

namespace MoteLink.Link

/-- Settings of a node's link. -/
structure Config where
  /-- Address of this node. -/
  address : Address := .unspecified
  /-- Largest frame that this node sends, in bytes. -/
  bufferSize : Nat := 128
  /-- Time to wait for an acknowledgement. -/
  ackTimeout : UInt32 := 200
  /-- Times that a packet is sent while no acknowledgement comes. -/
  maxAttempts : UInt8 := 3
  /-- Wait before the first retry; the wait before the `k`-th is `k` times as long. -/
  retryTimeout : UInt32 := 100
  /-- Upper bound of a random backoff. -/
  maxInitialBackoff : UInt32 := 30
  /-- Busy channel assessments after which a packet is sent all the same. -/
  maxBusyAssessments : UInt8 := 4
  /-- Ask for acknowledgements of packets to one node. -/
  ackUnicast : Bool := true
  /-- Take packets with long addresses. -/
  longAddresses : Bool := true
  /-- Length of a time slot. -/
  slotTime : UInt32 := 10
  /-- Time slots in one frame of slots. -/
  slotsPerFrame : UInt16 := 10
  deriving DecidableEq, Repr, Inhabited

namespace Config

variable (c : Config)

/-- Wait after the given number of failed attempts. -/
def retryBackoff (attempts : UInt8) : UInt32 :=
  Tick.mulCapped c.retryTimeout attempts.toUInt32

/-- Length of a time slot, which is not nothing. -/
def slotLength : UInt32 :=
  if c.slotTime = 0 then 1 else c.slotTime

/-- Number of slots in one frame of slots, which is not nothing. -/
def slotCount : UInt16 :=
  if c.slotsPerFrame = 0 then 1 else c.slotsPerFrame

/-- Length of one frame of slots. -/
def frameTime : UInt32 :=
  Tick.mulCapped c.slotLength c.slotCount.toUInt32

/-- Number of this node's slot. -/
def ownSlot : UInt16 :=
  c.address.slotKey % c.slotCount

theorem slotLength_pos : 0 < c.slotLength.toNat := by
  unfold slotLength
  split
  · decide
  · rename_i h
    exact Nat.pos_of_ne_zero fun zero => h (UInt32.toNat_inj.mp zero)

theorem slotCount_pos : 0 < c.slotCount.toNat := by
  unfold slotCount
  split
  · decide
  · rename_i h
    exact Nat.pos_of_ne_zero fun zero => h (UInt16.toNat_inj.mp zero)

theorem frameTime_pos : 0 < c.frameTime.toNat := by
  have hl := c.slotLength_pos
  have hc := c.slotCount_pos
  have : 0 < c.slotLength.toNat * c.slotCount.toUInt32.toNat :=
    Nat.mul_pos hl (by simpa using hc)
  have longest : Tick.longest.toNat = 4294967295 := rfl
  rw [frameTime, Tick.toNat_mulCapped]
  omega

theorem ownSlot_lt : c.ownSlot.toNat < c.slotCount.toNat := by
  rw [ownSlot, UInt16.toNat_mod]
  exact Nat.mod_lt _ c.slotCount_pos

end Config

end MoteLink.Link
