import MoteLink.Header.Encode

/-!
# Reading a header

The fields are read in the order in which they are laid out. Reading fails only where the frame
ends before the fields that its control bytes announce. Each reader undoes the writer of its
field, whatever follows, and so `readFields_fields` reads back all fields of a descriptor.
-/

namespace MoteLink

/-- Read one byte. -/
def readByte : Bytes → Option (UInt8 × Bytes)
  | [] => none
  | b :: rest => some (b, rest)

/-- Read a byte that is zero where it is left out. -/
def readByteIf (isPresent : Bool) (bytes : Bytes) : Option (UInt8 × Bytes) :=
  if isPresent then readByte bytes else some (0, bytes)

/-- Read a short address, low byte first. -/
def readShort : Bytes → Option (Address × Bytes)
  | low :: high :: rest => some (.short (low.toUInt16 + high.toUInt16 <<< 8), rest)
  | _ => none

/-- Read a long address. -/
def readLong (bytes : Bytes) : Option (Address × Bytes) :=
  if h : 8 ≤ bytes.length then
    some (.long ⟨(bytes.take 8).toArray, by simp [h]⟩, bytes.drop 8)
  else none

/-- Read an address of the given width that is `default` where it is left out. -/
def readAddress (default : Address) : Width → Bytes → Option (Address × Bytes)
  | .absent, bytes => some (default, bytes)
  | .short, bytes => readShort bytes
  | .long, bytes => readLong bytes

/-- Read a neighbour's address, which is short. -/
def readNeighbour (isPresent : Bool) (bytes : Bytes) : Option (Address × Bytes) :=
  readAddress .unspecified (if isPresent then .short else .absent) bytes

/-- Read the control bytes. -/
def readControl (bytes : Bytes) : Option ((FrameControl × ExtendedControl) × Bytes) := do
  let (first, bytes) ← readByte bytes
  let control := FrameControl.ofByte first
  let (second, bytes) ← readByteIf control.extended bytes
  return ((control, .ofByte second), bytes)

/-- Read the fields that the control bytes announce. -/
def readFields (control : FrameControl) (extended : ExtendedControl) (bytes : Bytes) :
    Option (Descriptor × Bytes) := do
  let (src, bytes) ← readAddress .unspecified control.src bytes
  let (dst, bytes) ← readAddress .broadcast control.dst bytes
  let (hopSrc, bytes) ← readNeighbour control.hopSrc bytes
  let (hopDst, bytes) ← readNeighbour control.hopDst bytes
  let (seq, bytes) ← readByteIf control.seq bytes
  let (cost, bytes) ← readByteIf control.cost bytes
  let (srcEndpoint, bytes) ← readByteIf extended.srcEndpoint bytes
  let (dstEndpoint, bytes) ← readByteIf extended.dstEndpoint bytes
  let (hopLimit, bytes) ← readByteIf extended.hopLimit bytes
  let flags : PacketFlags :=
    { moreData := extended.moreData, ackRequested := extended.ackRequest,
      isAck := extended.isAck }
  let d : Descriptor :=
    { src := src, dst, hopSrc, hopDst, srcEndpoint, dstEndpoint,
      seq, cost, hopLimit, auth := extended.auth, flags }
  return (d, bytes)

namespace Descriptor

/-- Read the header at the front of a frame. -/
def read? (frame : Bytes) : Option (Descriptor × Bytes) := do
  let ((control, extended), rest) ← readControl frame
  let (d, payload) ← readFields control extended rest
  return ({ d with headerLength := frame.length - payload.length }, payload)

/-- The descriptor at the front of a frame and the length of its header. -/
def decode (frame : Bytes) : Except HeaderError (Descriptor × Nat) :=
  match read? frame with
  | none => .error .truncated
  | some (d, _) => .ok (d, d.headerLength)

/-- Sequence number of a frame. -/
def peekSeq? (frame : Bytes) : Option UInt8 :=
  (read? frame).map fun (d, _) => d.seq

end Descriptor

/-- Length of the header that the control bytes at the front of a frame announce, if the control
    bytes are there. -/
def announcedLength? (frame : Bytes) : Option Nat :=
  (readControl frame).map fun ((control, extended), _) => announcedLength control extended

/-! ## Reading back what was laid out -/

theorem readShort_toBytes (v : UInt16) (rest : Bytes) :
    readShort ((Address.short v).toBytes ++ rest) = some (.short v, rest) := by
  have whole : v.toUInt8.toUInt16 + (v >>> 8).toUInt8.toUInt16 <<< 8 = v := by
    apply UInt16.toNat_inj.mp
    have := v.toNat_lt
    simp [UInt16.toNat_add, UInt16.toNat_shiftLeft, Nat.shiftLeft_eq, Nat.shiftRight_eq_div_pow]
    omega
  simp only [Address.toBytes, List.cons_append, List.nil_append, readShort, whole]

theorem readLong_toBytes (l : Vector UInt8 8) (rest : Bytes) :
    readLong ((Address.long l).toBytes ++ rest) = some (.long l, rest) := by
  have same : l.toList.toArray = l.toArray := Array.toArray_toList
  simp [Address.toBytes, readLong, same]

/-- A byte that is left out where it is zero is read back. -/
theorem readByteIf_byteField (value : UInt8) (rest : Bytes) :
    readByteIf (value != 0) (Descriptor.byteField value ++ rest) = some (value, rest) := by
  by_cases h : value = 0 <;> simp [readByteIf, Descriptor.byteField, readByte, h]

/-- An address that is left out where it has its default is read back. -/
theorem readAddress_addressField (default a : Address) (rest : Bytes) :
    readAddress default
      (if a = default then .absent else if a.isLong then .long else .short)
      (Descriptor.addressField default a ++ rest) = some (a, rest) := by
  by_cases h : a = default
  · simp [readAddress, Descriptor.addressField, h]
  · cases a with
    | short v =>
      simpa [readAddress, Descriptor.addressField, h, Address.isLong] using readShort_toBytes v rest
    | long l =>
      simpa [readAddress, Descriptor.addressField, h, Address.isLong] using readLong_toBytes l rest

/-- Fields are read back as they were laid out. -/
theorem readFields_fields (d : Descriptor) (h : d.layoutError? = none) (payload : Bytes) :
    readFields d.frameControl d.extendedControl (d.fields ++ payload) =
      some (d.onAir 0, payload) := by
  have short (a : Address) (hs : a.isLong = false) (rest : Bytes) :
      readNeighbour (a != .unspecified) (Descriptor.addressField .unspecified a ++ rest) =
        some (a, rest) := by
    have := readAddress_addressField .unspecified a rest
    by_cases hu : a = .unspecified <;> simp_all [readNeighbour]
  have hops : d.hopSrc.isLong = false ∧ d.hopDst.isLong = false := by
    unfold Descriptor.layoutError? at h
    split at h
    · simp at h
    · rename_i no_long
      simpa using no_long
  simp only [readFields, Descriptor.fields, Descriptor.frameControl, Descriptor.extendedControl,
    List.append_assoc, Descriptor.srcWidth, Descriptor.dstWidth, readAddress_addressField,
    short _ hops.1, short _ hops.2, readByteIf_byteField, Option.bind_eq_bind, Option.bind_some]
  rfl

end MoteLink
