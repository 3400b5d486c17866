import MoteLink.Address

/-!
# Flag bytes

Three bytes of a packet's description are sets of single-bit flags. `FlagFamily` names the bits
of one such byte; `PacketFlags` is the set that travels with a packet inside a node.
-/

namespace MoteLink

/-- The flag is on where the condition holds. -/
def flagBit (mask : UInt8) (on : Bool) : UInt8 :=
  if on then mask else 0

/-- Some bit of `mask` is on in `byte`. -/
def hasFlag (byte mask : UInt8) : Bool :=
  byte &&& mask != 0

/-- The named single-bit flags of one byte, in their order of listing. -/
structure FlagFamily where
  members : List (String × UInt8)
  deriving DecidableEq, Repr

namespace FlagFamily

/-- All bits that have a name. -/
def mask (family : FlagFamily) : UInt8 :=
  family.members.foldr (fun member rest => member.2 ||| rest) 0

/-- The named bits of a byte. -/
def restrict (family : FlagFamily) (bits : UInt8) : UInt8 :=
  bits &&& family.mask

/-- Every bit of the byte has a name. -/
def admits (family : FlagFamily) (bits : UInt8) : Bool :=
  family.restrict bits == bits

/-- Names of the flags that are on, joined by bars. -/
def describe (family : FlagFamily) (bits : UInt8) : String :=
  match family.members.filter fun member => hasFlag bits member.2 with
  | [] => "(empty)"
  | on => " | ".intercalate (on.map Prod.fst)

/-- Flags of the first header byte. Its three low bits hold the address code instead. -/
def frameControl : FlagFamily where
  members := [("IMMED_SRC", 0x08), ("IMMED_DST", 0x10), ("SEQNUM", 0x20), ("COST", 0x40),
    ("EXTENDED", 0x80)]

/-- Flags of the second header byte. Its two low bits hold the authentication type instead. -/
def extendedControl : FlagFamily where
  members := [("SRC_PORT", 0x04), ("DST_PORT", 0x08), ("HOP_LIMIT", 0x10), ("MORE_DATA", 0x20),
    ("IS_ACK", 0x40), ("ACK_REQUEST", 0x80)]

/-- Flags of a packet description. -/
def packet : FlagFamily where
  members := [("LOCAL", 0x01), ("MORE_DATA", 0x02), ("ACK_REQUESTED", 0x04), ("IS_ACK", 0x08)]

end FlagFamily

/-- Flags of a packet inside a node. -/
structure PacketFlags where
  /-- The packet starts at this node. It is not told on air. -/
  isLocal : Bool := false
  moreData : Bool := false
  ackRequested : Bool := false
  isAck : Bool := false
  deriving DecidableEq, Repr, Inhabited

namespace PacketFlags

/-- The flags as the byte that `FlagFamily.packet` names. -/
def toByte (flags : PacketFlags) : UInt8 :=
  flagBit 0x01 flags.isLocal ||| flagBit 0x02 flags.moreData |||
    flagBit 0x04 flags.ackRequested ||| flagBit 0x08 flags.isAck

def ofByte (byte : UInt8) : PacketFlags where
  isLocal := hasFlag byte 0x01
  moreData := hasFlag byte 0x02
  ackRequested := hasFlag byte 0x04
  isAck := hasFlag byte 0x08

end PacketFlags

end MoteLink
