import MoteLink.Header.Decode

/-!
# Headers are read back as they were written

A header is as long as its control bytes announce, and what follows it in a frame does not matter
to the reader. The reader gives back the whole descriptor but for the part that no frame tells.
-/

namespace MoteLink

namespace Descriptor

variable (d : Descriptor)

theorem length_byteField (value : UInt8) : (byteField value).length = (value != 0).toNat := by
  by_cases zero : value = 0
  · simp [byteField, zero]
  · have told : (value != 0) = true := by simp [zero]
    simp [byteField, zero, told]

/-- A field takes the bytes that its width says. -/
theorem length_addressField (default a : Address) :
    (addressField default a).length =
      Width.size (if a = default then .absent else if a.isLong then .long else .short) := by
  by_cases omitted : a = default
  · simp [addressField, omitted, Width.size]
  · rw [addressField, if_neg omitted, if_neg omitted, Address.length_toBytes]
    cases a <;> rfl

/-- A neighbour's address, which is short, takes two bytes or none. -/
theorem length_addressField_hop {a : Address} (short : a.isLong = false) :
    (addressField .unspecified a).length = 2 * (a != .unspecified).toNat := by
  rw [length_addressField]
  by_cases omitted : a = .unspecified
  · simp [omitted, Width.size]
  · have told : (a != .unspecified) = true := by simp [omitted]
    simp [omitted, short, told, Width.size]

theorem layoutError?_eq_none_iff :
    d.layoutError? = none ↔
      d.hopSrc.isLong = false ∧ d.hopDst.isLong = false ∧ d.frameControl.Fits := by
  unfold layoutError?
  cases d.hopSrc.isLong <;> cases d.hopDst.isLong <;> simp

variable {d}

theorem fits_of_layoutError?_eq_none (sound : d.layoutError? = none) : d.frameControl.Fits :=
  (d.layoutError?_eq_none_iff.mp sound).2.2

/-- The header is as long as its control bytes announce. -/
theorem length_headerBytes (sound : d.layoutError? = none) :
    d.headerBytes.length = announcedLength d.frameControl d.extendedControl := by
  obtain ⟨shortSrc, shortDst, -⟩ := d.layoutError?_eq_none_iff.mp sound
  have src := length_addressField .unspecified d.src
  have dst := length_addressField .broadcast d.dst
  have hopSrc := length_addressField_hop shortSrc
  have hopDst := length_addressField_hop shortDst
  change _ = d.srcWidth.size at src
  change _ = d.dstWidth.size at dst
  simp only [headerBytes, fields, List.length_cons, List.length_append, length_byteField, src, dst,
    hopSrc, hopDst, announcedLength, frameControl, extendedControl]
  omega

/-- Both control bytes are read back, and the fields are left. -/
theorem readControl_headerBytes (fits : d.frameControl.Fits) (rest : Bytes) :
    readControl (d.headerBytes ++ rest) =
      some ((d.frameControl, d.extendedControl), d.fields ++ rest) := by
  have first : FrameControl.ofByte d.frameControl.toByte = d.frameControl :=
    FrameControl.ofByte_toByte fits
  have second : readByteIf d.frameControl.extended
      (byteField d.extendedControl.toByte ++ (d.fields ++ rest)) =
      some (d.extendedControl.toByte, d.fields ++ rest) :=
    readByteIf_byteField _ _
  simp only [readControl, headerBytes, List.cons_append, List.append_assoc, readByte, first,
    Option.bind_eq_bind, Option.bind_some, second, ExtendedControl.ofByte_toByte]
  rfl

/-- The descriptor is read back, whatever payload follows. -/
theorem read?_headerBytes (sound : d.layoutError? = none) (payload : Bytes) :
    read? (d.headerBytes ++ payload) = some (d.onAir d.headerBytes.length, payload) := by
  have control := readControl_headerBytes (fits_of_layoutError?_eq_none sound) payload
  have fields := readFields_fields d sound payload
  simp only [read?, control, fields, Option.bind_eq_bind, Option.bind_some, List.length_append,
    Nat.add_sub_cancel]
  rfl

theorem encodedLength_eq_ok_iff {n : Nat} :
    d.encodedLength = .ok n ↔ d.layoutError? = none ∧ n = d.headerBytes.length := by
  unfold encodedLength
  cases error : d.layoutError? with
  | some e => simp
  | none => simp [length_headerBytes error, eq_comm]

theorem encodeWithin_eq_ok_iff {room : Nat} {header : Bytes} :
    d.encodeWithin room = .ok header ↔
      d.layoutError? = none ∧ d.headerBytes.length ≤ room ∧ header = d.headerBytes := by
  unfold encodeWithin encodedLength
  cases error : d.layoutError? with
  | some e => simp
  | none =>
    rw [length_headerBytes error]
    by_cases short : room < announcedLength d.frameControl d.extendedControl
    · simp [short, Nat.not_le.mpr short]
    · simp [short, Nat.not_lt.mp short, eq_comm]

/-- No header is longer than the longest one that the layout knows. -/
theorem length_headerBytes_le (sound : d.layoutError? = none) :
    d.headerBytes.length ≤ maxHeaderLength := by
  rw [length_headerBytes sound]
  exact announcedLength_le _ (fits_of_layoutError?_eq_none sound)

/-- Writing succeeds with the header in front and the rest of the buffer as it was. -/
theorem encodeInto_eq_ok {buffer : Bytes} {n : Nat} (written : (d.encodeInto buffer).1 = .ok n) :
    d.layoutError? = none ∧ n = d.headerBytes.length ∧
      (d.encodeInto buffer).2 = d.headerBytes ++ buffer.drop n := by
  unfold encodeInto at written ⊢
  cases encoded : d.encodeWithin buffer.length with
  | error e => simp [encoded] at written
  | ok header =>
    obtain ⟨sound, -, rfl⟩ := encodeWithin_eq_ok_iff.mp encoded
    simp only [encoded, Except.ok.injEq] at written ⊢
    exact ⟨sound, written.symm, by rw [written]⟩

/-- Whatever a successful `encodeInto` has written is decoded again: the descriptor comes back with
    the length of its header, and without the flag and the send time that stay inside the node. -/
theorem decode_take_encodeInto (d : Descriptor) (buffer tail : Bytes) (n : Nat)
    (written : (d.encodeInto buffer).1 = .ok n) :
    decode ((d.encodeInto buffer).2.take n ++ tail) = .ok (d.onAir n, n) ∧
      d.encodedLength = .ok n ∧ n ≤ maxHeaderLength := by
  obtain ⟨sound, rfl, front⟩ := encodeInto_eq_ok written
  refine ⟨?_, encodedLength_eq_ok_iff.mpr ⟨sound, rfl⟩, length_headerBytes_le sound⟩
  rw [front, List.take_left, decode, read?_headerBytes sound]
  rfl

/-- A descriptor that tells every field, one end address being long, and is local and due late. -/
def widest : Descriptor where
  src := .long #v[1, 2, 3, 4, 5, 6, 7, 8]
  dst := .short 0x8002
  hopSrc := .short 3
  hopDst := .short 0xffff
  srcEndpoint := 4
  dstEndpoint := 5
  seq := 6
  cost := 7
  hopLimit := 8
  auth := .type3
  flags := { isLocal := true, moreData := true, ackRequested := true, isAck := true }
  headerLength := 99
  sendAt := 1000

theorem decode_take_encodeInto_widest :
    (widest.encodeInto (List.replicate 24 0xee)).1 = .ok 21 ∧
      decode ((widest.encodeInto (List.replicate 24 0xee)).2.take 21 ++ [1, 2]) =
        .ok (widest.onAir 21, 21) := by
  have written : (widest.encodeInto (List.replicate 24 0xee)).1 = .ok 21 := by rfl
  exact ⟨written, (decode_take_encodeInto widest _ [1, 2] 21 written).1⟩

end Descriptor

end MoteLink
