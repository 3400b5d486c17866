import MoteLink.Proofs.Header.Layout

/-!
# Canonical headers

A frame may tell a field with the very value that the field would have if it were left out. Such a
header says nothing that a shorter one does not say. A header is canonical if it tells no field in
vain. A header that is read and written again becomes canonical: it stays as it is just where it was
canonical before, and gets shorter otherwise.
-/

namespace MoteLink

/-! ## Bytes written again -/

/-- What stands in a frame as `told` is `field` when it is written again: the same bytes if it is
    canonical, fewer if it is not. -/
structure Rewritten (told field : Bytes) (isCanonical : Prop) : Prop where
  same : isCanonical → field = told
  shorter : ¬isCanonical → field.length < told.length

namespace Rewritten

variable {told field told' field' : Bytes} {canonical canonical' : Prop}

theorem length_le (rewritten : Rewritten told field canonical) : field.length ≤ told.length := by
  by_cases sparing : canonical
  · exact Nat.le_of_eq (congrArg List.length (rewritten.same sparing))
  · exact Nat.le_of_lt (rewritten.shorter sparing)

theorem append (first : Rewritten told field canonical)
    (second : Rewritten told' field' canonical') :
    Rewritten (told ++ told') (field ++ field') (canonical ∧ canonical') := by
  constructor
  · rintro ⟨sparing, sparing'⟩
    rw [first.same sparing, second.same sparing']
  · intro wasteful
    have upTo := first.length_le
    have upTo' := second.length_le
    rw [List.length_append, List.length_append]
    by_cases sparing : canonical
    · have less := second.shorter fun sparing' => wasteful ⟨sparing, sparing'⟩
      omega
    · have less := first.shorter sparing
      omega

theorem congr (rewritten : Rewritten told field canonical) (same : canonical ↔ canonical') :
    Rewritten told field canonical' := by
  rwa [← propext same]

end Rewritten

/-! ## Reading a field -/

variable {bytes rest : Bytes}

theorem readByte_eq_some {value : UInt8} (found : readByte bytes = some (value, rest)) :
    bytes = [value] ++ rest := by
  cases bytes with
  | nil => cases found
  | cons b tail =>
    cases found
    rfl

theorem readShort_eq_some {a : Address} (found : readShort bytes = some (a, rest)) :
    ∃ v, a = .short v ∧ bytes = (Address.short v).toBytes ++ rest := by
  unfold readShort at found
  split at found
  · rename_i low high tail
    cases found
    refine ⟨_, rfl, ?_⟩
    have first : (low.toUInt16 + high.toUInt16 <<< 8).toUInt8 = low := by
      apply UInt8.toNat_inj.mp
      simp [UInt16.toNat_shiftLeft, Nat.shiftLeft_eq]
    have second : ((low.toUInt16 + high.toUInt16 <<< 8) >>> 8).toUInt8 = high := by
      apply UInt8.toNat_inj.mp
      have := low.toNat_lt
      have := high.toNat_lt
      simp [UInt16.toNat_add, UInt16.toNat_shiftLeft, Nat.shiftLeft_eq, Nat.shiftRight_eq_div_pow]
      omega
    simp [Address.toBytes, first, second]
  · cases found

theorem readLong_eq_some {a : Address} (found : readLong bytes = some (a, rest)) :
    ∃ l, a = .long l ∧ bytes = (Address.long l).toBytes ++ rest := by
  unfold readLong at found
  split at found
  · cases found
    refine ⟨_, rfl, ?_⟩
    simp [Address.toBytes]
  · cases found

namespace Descriptor

/-- A byte that is there without need is left out when it is written again. -/
theorem rewritten_of_readByteIf {isPresent : Bool} {value : UInt8}
    (found : readByteIf isPresent bytes = some (value, rest)) :
    ∃ told, bytes = told ++ rest ∧
      Rewritten told (byteField value) (isPresent = true → value ≠ 0) := by
  cases isPresent with
  | false =>
    cases found
    exact ⟨[], rfl, fun _ => rfl, fun wasteful => absurd (by simp) wasteful⟩
  | true =>
    refine ⟨[value], readByte_eq_some found, ?_, ?_⟩
    · intro sparing
      simp [byteField, sparing rfl]
    · intro wasteful
      have zero : value = 0 := by simpa using wasteful
      simp [byteField, zero]

/-- So is an address that has its default value. A long one has never. -/
theorem rewritten_of_readAddress {default a : Address} {width : Width}
    (short : default.isLong = false) (found : readAddress default width bytes = some (a, rest)) :
    ∃ told, bytes = told ++ rest ∧
      Rewritten told (addressField default a) (width = .short → a ≠ default) := by
  cases width with
  | absent =>
    cases found
    refine ⟨[], rfl, ?_, fun wasteful => absurd (by simp) wasteful⟩
    intro
    simp [addressField]
  | short =>
    obtain ⟨v, rfl, split⟩ := readShort_eq_some found
    refine ⟨_, split, ?_, ?_⟩
    · intro sparing
      simp [addressField, sparing rfl]
    · intro wasteful
      have omitted : Address.short v = default := by simpa using wasteful
      rw [addressField, if_pos omitted, Address.length_toBytes]
      exact Nat.zero_lt_two
  | long =>
    obtain ⟨l, rfl, split⟩ := readLong_eq_some found
    refine ⟨_, split, ?_, fun wasteful => absurd (by simp) wasteful⟩
    intro
    have told : Address.long l ≠ default := by
      rintro rfl
      cases short
    simp [addressField, told]

theorem rewritten_of_readNeighbour {isPresent : Bool} {a : Address}
    (found : readNeighbour isPresent bytes = some (a, rest)) :
    ∃ told, bytes = told ++ rest ∧
      Rewritten told (addressField .unspecified a) (isPresent = true → a ≠ .unspecified) := by
  obtain ⟨told, split, rewritten⟩ := rewritten_of_readAddress rfl found
  refine ⟨told, split, rewritten.congr ?_⟩
  cases isPresent <;> simp

/-- Where nothing is told in vain, the value shows whether the field was there. -/
theorem isPresent_of_readByteIf {isPresent : Bool} {value : UInt8}
    (found : readByteIf isPresent bytes = some (value, rest))
    (sparing : isPresent = true → value ≠ 0) : (value != 0) = isPresent := by
  cases isPresent with
  | false =>
    cases found
    rfl
  | true => simpa using sparing

theorem width_of_readAddress {default a : Address} {width : Width}
    (short : default.isLong = false) (found : readAddress default width bytes = some (a, rest))
    (sparing : width = .short → a ≠ default) :
    (if a = default then .absent else if a.isLong then .long else .short) = width := by
  cases width with
  | absent =>
    cases found
    simp
  | short =>
    obtain ⟨v, rfl, -⟩ := readShort_eq_some found
    simp [sparing rfl, Address.isLong]
  | long =>
    obtain ⟨l, rfl, -⟩ := readLong_eq_some found
    have told : Address.long l ≠ default := by
      rintro rfl
      cases short
    simp [told, Address.isLong]

theorem isPresent_of_readNeighbour {isPresent : Bool} {a : Address}
    (found : readNeighbour isPresent bytes = some (a, rest))
    (sparing : isPresent = true → a ≠ .unspecified) : (a != .unspecified) = isPresent := by
  cases isPresent with
  | false =>
    cases found
    rfl
  | true => simpa using sparing

/-! ## Reading all fields -/

/-- No field that the control bytes announce is told in vain: none that is there has the value that
    it would have if it were left out. -/
structure Sparing (control : FrameControl) (extended : ExtendedControl) (d : Descriptor) :
    Prop where
  src : control.src = .short → d.src ≠ .short 0
  dst : control.dst = .short → d.dst ≠ .short 0xffff
  hopSrc : control.hopSrc = true → d.hopSrc ≠ .short 0
  hopDst : control.hopDst = true → d.hopDst ≠ .short 0
  seq : control.seq = true → d.seq ≠ 0
  cost : control.cost = true → d.cost ≠ 0
  srcEndpoint : extended.srcEndpoint = true → d.srcEndpoint ≠ 0
  dstEndpoint : extended.dstEndpoint = true → d.dstEndpoint ≠ 0
  hopLimit : extended.hopLimit = true → d.hopLimit ≠ 0

variable {control : FrameControl} {extended : ExtendedControl} {d : Descriptor}

/-- The fields are read one after the other, each from what the one before it has left. -/
theorem readFields_eq_some (found : readFields control extended bytes = some (d, rest)) :
    ∃ b₁ b₂ b₃ b₄ b₅ b₆ b₇ b₈,
      readAddress .unspecified control.src bytes = some (d.src, b₁) ∧
      readAddress .broadcast control.dst b₁ = some (d.dst, b₂) ∧
      readNeighbour control.hopSrc b₂ = some (d.hopSrc, b₃) ∧
      readNeighbour control.hopDst b₃ = some (d.hopDst, b₄) ∧
      readByteIf control.seq b₄ = some (d.seq, b₅) ∧
      readByteIf control.cost b₅ = some (d.cost, b₆) ∧
      readByteIf extended.srcEndpoint b₆ = some (d.srcEndpoint, b₇) ∧
      readByteIf extended.dstEndpoint b₇ = some (d.dstEndpoint, b₈) ∧
      readByteIf extended.hopLimit b₈ = some (d.hopLimit, rest) ∧
      d.auth = extended.auth ∧ d.sendAt = 0 ∧
      d.flags = { moreData := extended.moreData, ackRequested := extended.ackRequest,
                  isAck := extended.isAck } := by
  unfold readFields at found
  simp only [Option.bind_eq_bind, Option.bind_eq_some_iff, Prod.exists] at found
  obtain ⟨src, b₁, srcRead, dst, b₂, dstRead, hopSrc, b₃, hopSrcRead, hopDst, b₄, hopDstRead,
    seq, b₅, seqRead, cost, b₆, costRead, srcEndpoint, b₇, srcEndpointRead,
    dstEndpoint, b₈, dstEndpointRead, hopLimit, _, hopLimitRead, made⟩ := found
  cases made
  exact ⟨b₁, b₂, b₃, b₄, b₅, b₆, b₇, b₈, srcRead, dstRead, hopSrcRead, hopDstRead, seqRead,
    costRead, srcEndpointRead, dstEndpointRead, hopLimitRead, rfl, rfl, rfl⟩

theorem rewritten_of_readFields (found : readFields control extended bytes = some (d, rest)) :
    ∃ told, bytes = told ++ rest ∧ Rewritten told d.fields (Sparing control extended d) := by
  obtain ⟨_, _, _, _, _, _, _, _, srcRead, dstRead, hopSrcRead, hopDstRead, seqRead, costRead,
    srcEndpointRead, dstEndpointRead, hopLimitRead, -⟩ := readFields_eq_some found
  obtain ⟨_, rfl, src⟩ := rewritten_of_readAddress rfl srcRead
  obtain ⟨_, rfl, dst⟩ := rewritten_of_readAddress rfl dstRead
  obtain ⟨_, rfl, hopSrc⟩ := rewritten_of_readNeighbour hopSrcRead
  obtain ⟨_, rfl, hopDst⟩ := rewritten_of_readNeighbour hopDstRead
  obtain ⟨_, rfl, seq⟩ := rewritten_of_readByteIf seqRead
  obtain ⟨_, rfl, cost⟩ := rewritten_of_readByteIf costRead
  obtain ⟨_, rfl, srcEndpoint⟩ := rewritten_of_readByteIf srcEndpointRead
  obtain ⟨_, rfl, dstEndpoint⟩ := rewritten_of_readByteIf dstEndpointRead
  obtain ⟨_, rfl, hopLimit⟩ := rewritten_of_readByteIf hopLimitRead
  have whole := ((((((((src.append dst).append hopSrc).append hopDst).append seq).append
    cost).append srcEndpoint).append dstEndpoint).append hopLimit)
  refine ⟨_, ?_, whole.congr ?_⟩
  · simp only [List.append_assoc]
  · constructor
    · rintro ⟨⟨⟨⟨⟨⟨⟨⟨src, dst⟩, hopSrc⟩, hopDst⟩, seq⟩, cost⟩, srcEndpoint⟩, dstEndpoint⟩, hopLimit⟩
      exact ⟨src, dst, hopSrc, hopDst, seq, cost, srcEndpoint, dstEndpoint, hopLimit⟩
    · rintro ⟨src, dst, hopSrc, hopDst, seq, cost, srcEndpoint, dstEndpoint, hopLimit⟩
      exact ⟨⟨⟨⟨⟨⟨⟨⟨src, dst⟩, hopSrc⟩, hopDst⟩, seq⟩, cost⟩, srcEndpoint⟩, dstEndpoint⟩, hopLimit⟩

/-- Where the fields are not told in vain, they show again what the second control byte says. -/
theorem extendedControl_of_readFields (found : readFields control extended bytes = some (d, rest))
    (srcEndpoint : extended.srcEndpoint = true → d.srcEndpoint ≠ 0)
    (dstEndpoint : extended.dstEndpoint = true → d.dstEndpoint ≠ 0)
    (hopLimit : extended.hopLimit = true → d.hopLimit ≠ 0) : d.extendedControl = extended := by
  obtain ⟨_, _, _, _, _, _, _, _, -, -, -, -, -, -, srcEndpointRead, dstEndpointRead, hopLimitRead,
    auth, -, flags⟩ := readFields_eq_some found
  rw [extendedControl, auth, flags, isPresent_of_readByteIf srcEndpointRead srcEndpoint,
    isPresent_of_readByteIf dstEndpointRead dstEndpoint,
    isPresent_of_readByteIf hopLimitRead hopLimit]

/-- Likewise the first one, if it announces the second just where that says anything. -/
theorem frameControl_of_readFields (found : readFields control extended bytes = some (d, rest))
    (sparing : Sparing control extended d)
    (announced : (extended.toByte != 0) = control.extended) : d.frameControl = control := by
  have again := extendedControl_of_readFields found sparing.srcEndpoint sparing.dstEndpoint
    sparing.hopLimit
  obtain ⟨_, _, _, _, _, _, _, _, srcRead, dstRead, hopSrcRead, hopDstRead, seqRead, costRead, -⟩ :=
    readFields_eq_some found
  rw [frameControl, again, announced, srcWidth, dstWidth,
    width_of_readAddress rfl srcRead sparing.src, width_of_readAddress rfl dstRead sparing.dst,
    isPresent_of_readNeighbour hopSrcRead sparing.hopSrc,
    isPresent_of_readNeighbour hopDstRead sparing.hopDst,
    isPresent_of_readByteIf seqRead sparing.seq, isPresent_of_readByteIf costRead sparing.cost]

/-- No more is told of a second control byte than was read of it. -/
theorem length_extendedField_le (found : readFields control extended bytes = some (d, rest)) :
    (byteField d.extendedControl.toByte).length ≤ (byteField extended.toByte).length := by
  by_cases speaks : extended.toByte = 0
  · have nothing : extended = {} := by
      rw [← extended.ofByte_toByte, speaks]
      rfl
    subst nothing
    have again := extendedControl_of_readFields found nofun nofun nofun
    exact Nat.le_of_eq (by rw [again])
  · rw [length_byteField, length_byteField, bne_iff_ne.mpr speaks]
    exact Bool.toNat_le _

end Descriptor

/-! ## Control bytes -/

/-- Every bit of the first control byte means something. -/
theorem FrameControl.toByte_ofByte (byte : UInt8) : (ofByte byte).toByte = byte := by
  have all : ∀ n : Fin 256, (ofByte (.ofFin n)).toByte = .ofFin n := by decide +kernel
  exact all byte.toFin

/-- So does every bit of the second. -/
theorem ExtendedControl.toByte_ofByte (byte : UInt8) : (ofByte byte).toByte = byte := by
  have all : ∀ n : Fin 256, (ofByte (.ofFin n)).toByte = .ofFin n := by decide +kernel
  exact all byte.toFin

/-- The second control byte stands in the frame if the first one says so, and says nothing
    otherwise. -/
theorem readControl_eq_some {control : FrameControl} {extended : ExtendedControl}
    (opened : readControl bytes = some ((control, extended), rest)) :
    ∃ told, bytes = control.toByte :: told ++ rest ∧
      Rewritten told (Descriptor.byteField extended.toByte)
        (control.extended = true → extended.toByte ≠ 0) ∧
      (extended.toByte ≠ 0 → control.extended = true) := by
  unfold readControl at opened
  simp only [Option.bind_eq_bind, Option.bind_eq_some_iff, Prod.exists] at opened
  obtain ⟨first, _, firstRead, second, _, secondRead, made⟩ := opened
  obtain ⟨told, rfl, rewritten⟩ := Descriptor.rewritten_of_readByteIf secondRead
  cases made
  rw [readByte_eq_some firstRead, FrameControl.toByte_ofByte, ExtendedControl.toByte_ofByte]
  refine ⟨told, rfl, rewritten, ?_⟩
  intro speaks
  by_cases announced : (FrameControl.ofByte first).extended = true
  · exact announced
  · rw [readByteIf, if_neg announced, Option.some.injEq, Prod.mk.injEq] at secondRead
    exact absurd secondRead.1.symm speaks

namespace Descriptor

variable {frame payload buffer : Bytes} {d : Descriptor} {n : Nat}

/-- The header at the front of a frame can be read and tells nothing in vain: no field that is there
    has the value that it would have if it were left out, and no second control byte that is there
    is zero. -/
def IsCanonical (frame : Bytes) : Prop :=
  ∃ control extended rest d payload,
    readControl frame = some ((control, extended), rest) ∧
    readFields control extended rest = some (d, payload) ∧
    (control.extended = true → extended.toByte ≠ 0) ∧ Sparing control extended d

/-- A header that has been read stays as it is when it is written again, if it is canonical, and
    gets shorter if it is not. -/
theorem rewritten_of_read? (found : read? frame = some (d, payload)) :
    ∃ told, frame = told ++ payload ∧ told.length = d.headerLength ∧
      Rewritten told d.headerBytes (IsCanonical frame) := by
  unfold read? at found
  simp only [Option.bind_eq_bind, Option.bind_eq_some_iff, Prod.exists] at found
  obtain ⟨control, extended, rest, opened, read, _, fieldsRead, made⟩ := found
  obtain ⟨toldFields, rfl, fields⟩ := rewritten_of_readFields fieldsRead
  obtain ⟨toldSecond, split, second, announced⟩ := readControl_eq_some opened
  cases made
  have canonical : IsCanonical frame ↔
      (control.extended = true → extended.toByte ≠ 0) ∧ Sparing control extended read := by
    constructor
    · rintro ⟨control', extended', rest', d', payload', opened', fieldsRead', sound⟩
      rw [opened] at opened'
      cases opened'
      rw [fieldsRead] at fieldsRead'
      cases fieldsRead'
      exact sound
    · intro sound
      exact ⟨control, extended, _, read, _, opened, fieldsRead, sound⟩
  refine ⟨control.toByte :: toldSecond ++ toldFields, ?_, ?_, ?_, ?_⟩
  · rw [split, List.append_assoc]
  · show _ = frame.length - payload.length
    simp only [split, List.length_append, List.length_cons]
    omega
  · intro sparing
    obtain ⟨saysSecond, sparing⟩ := canonical.mp sparing
    have announced : (extended.toByte != 0) = control.extended := by
      rw [Bool.eq_iff_iff, bne_iff_ne]
      exact ⟨announced, saysSecond⟩
    have sameSecond : read.extendedControl = extended :=
      extendedControl_of_readFields fieldsRead sparing.srcEndpoint sparing.dstEndpoint
        sparing.hopLimit
    have sameFirst : read.frameControl = control :=
      frameControl_of_readFields fieldsRead sparing announced
    show read.frameControl.toByte :: byteField read.extendedControl.toByte ++ read.fields = _
    rw [sameFirst, sameSecond, second.same saysSecond, fields.same sparing]
  · intro wasteful
    show (read.frameControl.toByte :: byteField read.extendedControl.toByte ++ read.fields).length <
      (control.toByte :: toldSecond ++ toldFields).length
    have upTo := length_extendedField_le fieldsRead
    have upToSecond := second.length_le
    have upToFields := fields.length_le
    simp only [List.length_append, List.length_cons]
    by_cases sparing : Sparing control extended read
    · have less := second.shorter fun saysSecond => wasteful (canonical.mpr ⟨saysSecond, sparing⟩)
      omega
    · have less := fields.shorter sparing
      omega

/-- What has been read is told by a frame as it is, but for the length of the header. -/
theorem onAir_of_read? (found : read? frame = some (d, payload)) (m : Nat) :
    d.onAir m = { d with headerLength := m } := by
  unfold read? at found
  simp only [Option.bind_eq_bind, Option.bind_eq_some_iff, Prod.exists] at found
  obtain ⟨_, _, _, -, _, _, fieldsRead, made⟩ := found
  obtain ⟨_, _, _, _, _, _, _, _, -, -, -, -, -, -, -, -, -, -, sendAt, flags⟩ :=
    readFields_eq_some fieldsRead
  cases made
  simp only [onAir, sendAt, flags]

/-- What has been decoded can be encoded again wherever the longest header fits. The new header is
    no longer than the one that was decoded and is decoded to the same descriptor. It is the same
    header just where that one was canonical. -/
theorem canonical_of_decode (decoded : decode frame = .ok (d, n))
    (room : maxHeaderLength ≤ buffer.length) :
    ∃ m, (d.encodeInto buffer).1 = .ok m ∧ m ≤ n ∧
      decode ((d.encodeInto buffer).2.take m) = .ok ({ d with headerLength := m }, m) ∧
      ((d.encodeInto buffer).2.take m = frame.take n ↔ IsCanonical frame) := by
  unfold decode at decoded
  split at decoded
  · cases decoded
  · rename_i found
    cases decoded
    have sound := layoutError?_of_read? found
    have fits : d.headerBytes.length ≤ buffer.length :=
      Nat.le_trans (length_headerBytes_le sound) room
    have encoded : d.encodeWithin buffer.length = .ok d.headerBytes :=
      encodeWithin_eq_ok_iff.mpr ⟨sound, fits, rfl⟩
    have written : d.encodeInto buffer =
        (.ok d.headerBytes.length, d.headerBytes ++ buffer.drop d.headerBytes.length) := by
      rw [encodeInto, encoded]
    obtain ⟨told, rfl, length, rewritten⟩ := rewritten_of_read? found
    refine ⟨d.headerBytes.length, ?_, ?_, ?_, ?_⟩
    · rw [written]
    · rw [← length]
      exact rewritten.length_le
    · have again := read?_headerBytes sound []
      rw [List.append_nil] at again
      rw [written, List.take_left, decode, again, onAir_of_read? found]
    · rw [written, List.take_left, ← length, List.take_left]
      constructor
      · intro same
        apply Classical.byContradiction
        intro wasteful
        have less := rewritten.shorter wasteful
        rw [same] at less
        exact Nat.lt_irrefl _ less
      · exact rewritten.same

/-- A header of three bytes, two of them in vain: a cost of zero is told, and a second control byte
    that says nothing. The header that is written for it has one byte. -/
theorem canonical_of_decode_wasteful :
    decode [0xc0, 0, 0, 7] = .ok ({ headerLength := 3 }, 3) ∧ ¬IsCanonical [0xc0, 0, 0, 7] := by
  have decoded : decode [0xc0, 0, 0, 7] = .ok ({ headerLength := 3 }, 3) := by rfl
  have room : maxHeaderLength ≤ (List.replicate 21 (0 : UInt8)).length := by decide
  obtain ⟨m, written, -, -, same⟩ := canonical_of_decode decoded room
  refine ⟨decoded, fun canonical => ?_⟩
  have short : (.ok 1 : Except HeaderError Nat) = .ok m := written
  cases short
  have bytes : ([0] : Bytes) = [0xc0, 0, 0] := same.mpr canonical
  cases bytes

end Descriptor

end MoteLink
