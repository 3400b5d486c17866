import MoteLink.Header.Flags
import MoteLink.Tick

/-!
# Packet descriptors

A descriptor says everything about a packet but its payload: who sent it and who shall have it
in the end, between which two neighbours it is travelling now, and how it is to be treated.
-/

namespace MoteLink

/-- How a packet is authenticated. -/
inductive Auth where
  | none
  | type1
  | type2
  | type3
  deriving DecidableEq, Repr, Inhabited

namespace Auth

/-- The two-bit code of the type. -/
def code : Auth → UInt8
  | .none => 0
  | .type1 => 1
  | .type2 => 2
  | .type3 => 3

def ofCode? (code : UInt8) : Option Auth :=
  if code = 0 then some .none
  else if code = 1 then some .type1
  else if code = 2 then some .type2
  else if code = 3 then some .type3
  else Option.none

end Auth

/-- Description of one packet. -/
structure Descriptor where
  /-- Where the packet comes from; unspecified if not told. -/
  src : Address := .unspecified
  /-- Where the packet shall end; broadcast if not told. -/
  dst : Address := .broadcast
  /-- The neighbour that handed the packet on; unspecified if not told. -/
  hopSrc : Address := .unspecified
  /-- The neighbour that shall take the packet; unspecified if not told. -/
  hopDst : Address := .unspecified
  srcEndpoint : UInt8 := 0
  dstEndpoint : UInt8 := 0
  seq : UInt8 := 0
  cost : UInt8 := 0
  hopLimit : UInt8 := 0
  auth : Auth := .none
  flags : PacketFlags := {}
  /-- Bytes of the header, once it has been laid out or read. -/
  headerLength : Nat := 0
  /-- Tick before which the packet stays here. -/
  sendAt : Tick := 0
  deriving DecidableEq, Repr, Inhabited

namespace Descriptor

/-- The node that shall hear the packet next. -/
def nextHop (d : Descriptor) : Address :=
  d.hopDst.orElse d.dst

/-- The node the packet was heard from. -/
def prevHop (d : Descriptor) : Address :=
  d.hopSrc.orElse d.src

/-- The four addresses a descriptor tells. -/
def addresses (d : Descriptor) : List Address :=
  [d.src, d.dst, d.hopSrc, d.hopDst]

/-- The same packet sent back the way it came. -/
def reverse (d : Descriptor) : Descriptor :=
  { d with
    src := d.dst, dst := d.src
    hopSrc := d.hopDst, hopDst := d.hopSrc
    srcEndpoint := d.dstEndpoint, dstEndpoint := d.srcEndpoint }

/-- The part of a descriptor that a frame tells, together with the header's length. -/
def onAir (d : Descriptor) (headerLength : Nat) : Descriptor :=
  { d with flags := { d.flags with isLocal := false }, headerLength, sendAt := 0 }

end Descriptor

end MoteLink
