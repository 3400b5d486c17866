import MoteLink.Header.Descriptor

/-!
# Header control bytes

A header opens with a control byte, and with a second one if the first says so. Together they
tell which fields follow and so how long the header is. The three low bits of the first byte hold
one code for both end addresses, for which the pair of two long addresses is left out.
-/

namespace MoteLink

/-- How an end address stands in a frame. -/
inductive Width where
  | absent
  | short
  | long
  deriving DecidableEq, Repr

namespace Width

/-- Bytes that an address of this width takes. -/
def size : Width → Nat
  | .absent => 0
  | .short => 2
  | .long => 8

/-- Share of a source address in the address code. -/
def srcCode : Width → UInt8
  | .absent => 0
  | .short => 1
  | .long => 2

/-- Share of a destination address in the address code. -/
def dstCode : Width → UInt8
  | .absent => 0
  | .short => 3
  | .long => 6

/-- The widths of source and destination that an address code stands for. -/
def ofCode (code : UInt8) : Width × Width :=
  if code = 0 then (.absent, .absent)
  else if code = 1 then (.short, .absent)
  else if code = 2 then (.long, .absent)
  else if code = 3 then (.absent, .short)
  else if code = 4 then (.short, .short)
  else if code = 5 then (.long, .short)
  else if code = 6 then (.absent, .long)
  else (.short, .long)

end Width

/-- What the first byte of a header tells. -/
structure FrameControl where
  src : Width
  dst : Width
  hopSrc : Bool
  hopDst : Bool
  seq : Bool
  cost : Bool
  /-- A second control byte follows. -/
  extended : Bool
  deriving DecidableEq, Repr

/-- What the second control byte of a header tells. -/
structure ExtendedControl where
  auth : Auth := .none
  srcEndpoint : Bool := false
  dstEndpoint : Bool := false
  hopLimit : Bool := false
  moreData : Bool := false
  isAck : Bool := false
  ackRequest : Bool := false
  deriving DecidableEq, Repr

namespace FrameControl

def toByte (control : FrameControl) : UInt8 :=
  (control.src.srcCode + control.dst.dstCode) |||
    flagBit 0x08 control.hopSrc ||| flagBit 0x10 control.hopDst |||
    flagBit 0x20 control.seq ||| flagBit 0x40 control.cost ||| flagBit 0x80 control.extended

def ofByte (byte : UInt8) : FrameControl where
  src := (Width.ofCode (byte &&& 0x07)).1
  dst := (Width.ofCode (byte &&& 0x07)).2
  hopSrc := hasFlag byte 0x08
  hopDst := hasFlag byte 0x10
  seq := hasFlag byte 0x20
  cost := hasFlag byte 0x40
  extended := hasFlag byte 0x80

/-- The end addresses fit the address code. -/
def Fits (control : FrameControl) : Prop :=
  ¬(control.src = .long ∧ control.dst = .long)

instance (control : FrameControl) : Decidable control.Fits :=
  inferInstanceAs (Decidable (¬ _))

theorem ofByte_toByte {control : FrameControl} (h : control.Fits) :
    ofByte control.toByte = control := by
  rcases control with ⟨src, dst, is, id, seq, cost, ext⟩
  cases src <;> cases dst <;> first
    | exact absurd ⟨rfl, rfl⟩ h
    | (cases is <;> cases id <;> cases seq <;> cases cost <;> cases ext <;> rfl)

end FrameControl

namespace ExtendedControl

def toByte (control : ExtendedControl) : UInt8 :=
  control.auth.code |||
    flagBit 0x04 control.srcEndpoint ||| flagBit 0x08 control.dstEndpoint |||
    flagBit 0x10 control.hopLimit ||| flagBit 0x20 control.moreData |||
    flagBit 0x40 control.isAck ||| flagBit 0x80 control.ackRequest

def ofByte (byte : UInt8) : ExtendedControl where
  auth := (Auth.ofCode? (byte &&& 0x03)).getD .none
  srcEndpoint := hasFlag byte 0x04
  dstEndpoint := hasFlag byte 0x08
  hopLimit := hasFlag byte 0x10
  moreData := hasFlag byte 0x20
  isAck := hasFlag byte 0x40
  ackRequest := hasFlag byte 0x80

theorem ofByte_toByte (control : ExtendedControl) : ofByte control.toByte = control := by
  rcases control with ⟨auth, sp, dp, hl, md, ia, ar⟩
  cases auth <;> cases sp <;> cases dp <;> cases hl <;> cases md <;> cases ia <;> cases ar <;> rfl

end ExtendedControl

/-- Length of the header that the control bytes announce. -/
def announcedLength (control : FrameControl) (extended : ExtendedControl) : Nat :=
  1 + control.extended.toNat + control.src.size + control.dst.size +
    2 * control.hopSrc.toNat + 2 * control.hopDst.toNat +
    control.seq.toNat + control.cost.toNat +
    extended.srcEndpoint.toNat + extended.dstEndpoint.toNat + extended.hopLimit.toNat

/-- No header is longer than this. -/
def maxHeaderLength : Nat := 21

theorem announcedLength_le {control : FrameControl} (extended : ExtendedControl)
    (h : control.Fits) : announcedLength control extended ≤ maxHeaderLength := by
  have bit (b : Bool) : b.toNat ≤ 1 := by cases b <;> simp
  have ends : control.src.size + control.dst.size ≤ 10 := by
    revert h
    unfold FrameControl.Fits
    cases control.src <;> cases control.dst <;> simp [Width.size]
  have := bit control.extended
  have := bit control.hopSrc
  have := bit control.hopDst
  have := bit control.seq
  have := bit control.cost
  have := bit extended.srcEndpoint
  have := bit extended.dstEndpoint
  have := bit extended.hopLimit
  unfold announcedLength maxHeaderLength
  omega

end MoteLink
