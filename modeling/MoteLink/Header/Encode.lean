import MoteLink.Header.Control

/-!
# Laying out a header

After the control bytes the fields that are told follow in a fixed order: the two end addresses, the
two neighbour addresses, sequence number, cost, the two endpoints and the hop limit. A field with
its default value is left out.
-/

namespace MoteLink

/-- Why a header cannot be laid out or read. -/
inductive HeaderError where
  /-- The frame ends before the fields it announces. -/
  | truncated
  /-- The header does not fit the room given for it. -/
  | bufferTooSmall
  /-- Source and destination are both long. -/
  | invalidAddressCombination
  /-- A neighbour has a long address. -/
  | longHopAddress
  deriving DecidableEq, Repr

namespace Descriptor

variable (d : Descriptor)

/-- Width of the source address, which is left out where unspecified. -/
def srcWidth : Width :=
  if d.src = .unspecified then .absent
  else if d.src.isLong then .long else .short

/-- Width of the destination address, which is left out where it is the broadcast address. -/
def dstWidth : Width :=
  if d.dst = .broadcast then .absent
  else if d.dst.isLong then .long else .short

def extendedControl : ExtendedControl where
  auth := d.auth
  srcEndpoint := d.srcEndpoint != 0
  dstEndpoint := d.dstEndpoint != 0
  hopLimit := d.hopLimit != 0
  moreData := d.flags.moreData
  isAck := d.flags.isAck
  ackRequest := d.flags.ackRequested

def frameControl : FrameControl where
  src := d.srcWidth
  dst := d.dstWidth
  hopSrc := d.hopSrc != .unspecified
  hopDst := d.hopDst != .unspecified
  seq := d.seq != 0
  cost := d.cost != 0
  extended := d.extendedControl.toByte != 0

/-- The first reason why no frame can tell this descriptor. -/
def layoutError? : Option HeaderError :=
  if d.hopSrc.isLong || d.hopDst.isLong then some .longHopAddress
  else if d.frameControl.Fits then none
  else some .invalidAddressCombination

/-- Length of the header, told by the control bytes alone. -/
def encodedLength : Except HeaderError Nat :=
  match d.layoutError? with
  | some e => .error e
  | none => .ok (announcedLength d.frameControl d.extendedControl)

/-- An address, or nothing where it has its default value. -/
def addressField (default a : Address) : Bytes :=
  if a = default then [] else a.toBytes

/-- A byte, or nothing where it is zero. -/
def byteField (value : UInt8) : Bytes :=
  if value = 0 then [] else [value]

/-- The fields behind the control bytes. -/
def fields : Bytes :=
  addressField .unspecified d.src ++ addressField .broadcast d.dst ++
    addressField .unspecified d.hopSrc ++ addressField .unspecified d.hopDst ++
    byteField d.seq ++ byteField d.cost ++ byteField d.srcEndpoint ++ byteField d.dstEndpoint ++
    byteField d.hopLimit

/-- The bytes of the header, for a descriptor without a layout error. -/
def headerBytes : Bytes :=
  d.frameControl.toByte :: byteField d.extendedControl.toByte ++ d.fields

/-- The header, if it can be laid out in `room` bytes. -/
def encodeWithin (room : Nat) : Except HeaderError Bytes :=
  match d.encodedLength with
  | .error e => .error e
  | .ok n => if room < n then .error .bufferTooSmall else .ok d.headerBytes

/-- Write the header to the front of a buffer and tell its length. -/
def encodeInto (buffer : Bytes) : Except HeaderError Nat × Bytes :=
  match d.encodeWithin buffer.length with
  | .error e => (.error e, buffer)
  | .ok header => (.ok header.length, header ++ buffer.drop header.length)

end Descriptor

end MoteLink
