import MoteLink.Proofs.Header.Cursor
import MoteLink.Proofs.Header.Layout

/-!
# Headers are written in their own bytes alone

The length of a header is counted before the first byte of it is put into the buffer, and the fields
are then tested again one by one. Both come to the same: a header that has been found to fit is
written up to its last byte, and what cannot be written has left no trace in the buffer.
-/

namespace MoteLink

namespace Along

/-! ## The writer that goes along a buffer -/

def put (bytes : Bytes) : Along Unit := do
  let c ← get
  let buffer ← c.overwrite? bytes
  set ({ buffer, offset := c.offset + bytes.length } : Cursor)

def putByte (value : UInt8) : Along Unit :=
  if value ≠ 0 then put [value] else return

def putAddress (default a : Address) : Along Unit :=
  if a ≠ default then put a.toBytes else return

def putHeader (d : Descriptor) : Along Unit := do
  put [d.frameControl.toByte]
  putByte d.extendedControl.toByte
  putAddress .unspecified d.src
  putAddress .broadcast d.dst
  putAddress .unspecified d.hopSrc
  putAddress .unspecified d.hopDst
  [d.seq, d.cost, d.srcEndpoint, d.dstEndpoint, d.hopLimit].forM putByte

/-- Write the header at the offset, with the offset behind it as its length. -/
def encode (d : Descriptor) : Along Nat := do
  let n ← MonadExcept.ofExcept d.encodedLength
  if (← get).buffer.length < n then throw .bufferTooSmall
  putHeader d
  return (← get).offset

/-! ## Writing a field -/

variable {x : Along Unit} {y : Unit → Along Unit} {bytes bytes' : Bytes}

/-- The bytes are put in place of as many others, wherever these stand in a buffer. -/
def Puts (x : Along Unit) (bytes : Bytes) : Prop :=
  ∀ before under after : Bytes, under.length = bytes.length →
    x.run.run ⟨before ++ (under ++ after), before.length⟩ =
      some (.ok (), ⟨before ++ (bytes ++ after), (before ++ bytes).length⟩)

theorem puts_nothing : Puts (pure ()) [] := by
  intro before under after length
  rw [List.length_eq_zero_iff.mp length, List.append_nil]
  rfl

theorem Puts.bind (first : Puts x bytes) (later : Puts (y ()) bytes') :
    Puts (x >>= y) (bytes ++ bytes') := by
  intro before under after length
  rw [List.length_append] at length
  have front : (under.take bytes.length).length = bytes.length := by
    rw [List.length_take]
    omega
  have back : (under.drop bytes.length).length = bytes'.length := by
    rw [List.length_drop]
    omega
  have done := first before _ (under.drop bytes.length ++ after) front
  have done' := later (before ++ bytes) _ after back
  rw [← List.append_assoc (under.take _), List.take_append_drop] at done
  rw [List.append_assoc before] at done'
  rw [run_bind_of_ok done, done']
  simp only [List.append_assoc]

theorem puts_put (bytes : Bytes) : Puts (put bytes) bytes := by
  intro before under after length
  have room : before.length + bytes.length ≤ (before ++ (under ++ after)).length := by
    simp only [List.length_append]
    omega
  have behind : (before ++ (under ++ after)).drop (before.length + bytes.length) = after := by
    rw [← length, ← List.append_assoc, ← List.length_append, List.drop_left]
  have replaced : (⟨before ++ (under ++ after), before.length⟩ : Cursor).overwrite? bytes =
      some (before ++ (bytes ++ after)) := by
    rw [Cursor.overwrite?, if_pos room, List.take_left, behind, List.append_assoc]
  unfold put
  rw [run_get_bind, replaced, List.length_append]
  rfl

theorem puts_putByte (value : UInt8) : Puts (putByte value) (Descriptor.byteField value) := by
  unfold putByte Descriptor.byteField
  by_cases omitted : value = 0
  · rw [if_neg (not_not_intro omitted), if_pos omitted]
    exact puts_nothing
  · rw [if_pos omitted, if_neg omitted]
    exact puts_put [value]

theorem puts_putAddress (default a : Address) :
    Puts (putAddress default a) (Descriptor.addressField default a) := by
  unfold putAddress Descriptor.addressField
  by_cases omitted : a = default
  · rw [if_neg (not_not_intro omitted), if_pos omitted]
    exact puts_nothing
  · rw [if_pos omitted, if_neg omitted]
    exact puts_put a.toBytes

theorem puts_forM (values : List UInt8) :
    Puts (values.forM putByte) (values.flatMap Descriptor.byteField) := by
  induction values with
  | nil => exact puts_nothing
  | cons value values ih => exact (puts_putByte value).bind ih

/-- The header is put as it is laid out. -/
theorem puts_putHeader (d : Descriptor) : Puts (putHeader d) d.headerBytes := by
  have layout : d.headerBytes = [d.frameControl.toByte] ++
      (Descriptor.byteField d.extendedControl.toByte ++
      (Descriptor.addressField .unspecified d.src ++ (Descriptor.addressField .broadcast d.dst ++
      (Descriptor.addressField .unspecified d.hopSrc ++
      (Descriptor.addressField .unspecified d.hopDst ++
      [d.seq, d.cost, d.srcEndpoint, d.dstEndpoint, d.hopLimit].flatMap
        Descriptor.byteField))))) := by
    simp [Descriptor.headerBytes, Descriptor.fields]
  rw [layout]
  apply (puts_put _).bind
  apply (puts_putByte _).bind
  apply (puts_putAddress _ _).bind
  apply (puts_putAddress _ _).bind
  apply (puts_putAddress _ _).bind
  apply (puts_putAddress _ _).bind
  exact puts_forM _

end Along

namespace Descriptor

/-- `encodeInto` along a buffer. -/
def encodeAlong (d : Descriptor) (buffer : Bytes) : Option (Except HeaderError Nat × Bytes) :=
  ((Along.encode d).run.run { buffer }).map fun (result, c) => (result, c.buffer)

/-- A neighbour has a long address. -/
def LongHop (d : Descriptor) : Prop :=
  d.hopSrc.isLong = true ∨ d.hopDst.isLong = true

/-- Both ends of the way have a long address. -/
def LongEnds (d : Descriptor) : Prop :=
  d.src.isLong = true ∧ d.dst.isLong = true

variable {d : Descriptor} {buffer : Bytes} {e : HeaderError} {n : Nat}

/-- A neighbour's address is looked at before the ends are. -/
theorem encodedLength_cases (d : Descriptor) :
    d.LongHop ∧ d.encodedLength = .error .longHopAddress ∨
      (¬d.LongHop ∧ d.LongEnds) ∧ d.encodedLength = .error .invalidAddressCombination ∨
      (¬d.LongHop ∧ ¬d.LongEnds) ∧ d.encodedLength = .ok d.headerBytes.length := by
  have hop : (d.hopSrc.isLong || d.hopDst.isLong) = true ↔ d.LongHop := Bool.or_eq_true_iff
  by_cases longHop : d.LongHop
  · left
    refine ⟨longHop, ?_⟩
    rw [encodedLength, layoutError?, if_pos (hop.mpr longHop)]
  · right
    by_cases longEnds : d.LongEnds
    · left
      refine ⟨⟨longHop, longEnds⟩, ?_⟩
      rw [encodedLength, layoutError?, if_neg (mt hop.mp longHop),
        if_neg fun fits => fits_iff_short.mp fits longEnds]
    · right
      refine ⟨⟨longHop, longEnds⟩, encodedLength_eq_ok_iff.mpr ⟨?_, rfl⟩⟩
      rw [layoutError?, if_neg (mt hop.mp longHop), if_pos (fits_iff_short.mpr longEnds)]

theorem encode_of_layoutError (wrong : d.encodedLength = .error e) (buffer : Bytes) :
    d.encodeInto buffer = (.error e, buffer) ∧
      d.encodeAlong buffer = some (.error e, buffer) := by
  constructor
  · rw [encodeInto, encodeWithin, wrong]
  · have stopped : (Along.encode d).run.run ⟨buffer, 0⟩ = some (.error e, ⟨buffer, 0⟩) := by
      unfold Along.encode
      rw [wrong]
      rfl
    rw [encodeAlong, stopped]
    rfl

theorem encode_of_lt (length : d.encodedLength = .ok n) (short : buffer.length < n) :
    d.encodeInto buffer = (.error .bufferTooSmall, buffer) ∧
      d.encodeAlong buffer = some (.error .bufferTooSmall, buffer) := by
  constructor
  · rw [encodeInto, encodeWithin, length]
    simp only [if_pos short]
  · have stopped : (Along.encode d).run.run ⟨buffer, 0⟩ =
        some (.error .bufferTooSmall, ⟨buffer, 0⟩) := by
      unfold Along.encode
      rw [length, Along.run_ofExcept_bind, Along.run_get_bind, if_pos short]
      rfl
    rw [encodeAlong, stopped]
    rfl

theorem encode_of_le (length : d.encodedLength = .ok d.headerBytes.length)
    (room : d.headerBytes.length ≤ buffer.length) :
    d.encodeInto buffer =
        (.ok d.headerBytes.length, d.headerBytes ++ buffer.drop d.headerBytes.length) ∧
      d.encodeAlong buffer =
        some (.ok d.headerBytes.length, d.headerBytes ++ buffer.drop d.headerBytes.length) := by
  constructor
  · have sound := (encodedLength_eq_ok_iff.mp length).1
    rw [encodeInto, encodeWithin_eq_ok_iff.mpr ⟨sound, room, rfl⟩]
  · have front : (buffer.take d.headerBytes.length).length = d.headerBytes.length := by
      rw [List.length_take, Nat.min_eq_left room]
    have put := Along.puts_putHeader d [] _ (buffer.drop d.headerBytes.length) front
    rw [List.take_append_drop] at put
    have written : (Along.encode d).run.run ⟨buffer, 0⟩ =
        some (.ok d.headerBytes.length,
          ⟨d.headerBytes ++ buffer.drop d.headerBytes.length, d.headerBytes.length⟩) := by
      unfold Along.encode
      rw [length, Along.run_ofExcept_bind, Along.run_get_bind, if_neg (Nat.not_lt.mpr room)]
      exact Along.run_bind_of_ok put
    rw [encodeAlong, written]
    rfl

/-- A header is refused for the first fault that it has, and the buffer stays as it was. A header
    that is not refused stands in front, as long as it was counted to be, and nothing behind it
    changes. The writer that goes along the buffer comes to the same, so it never reaches
    outside. -/
theorem encodeInto_outcome (d : Descriptor) (buffer : Bytes) :
    d.encodeAlong buffer = some (d.encodeInto buffer) ∧
      ((d.encodeInto buffer).1 = .error .longHopAddress ↔ d.LongHop) ∧
      ((d.encodeInto buffer).1 = .error .invalidAddressCombination ↔ ¬d.LongHop ∧ d.LongEnds) ∧
      ((∃ n, d.encodedLength = .ok n) ↔ ¬d.LongHop ∧ ¬d.LongEnds) ∧
      ((d.encodeInto buffer).1 = .error .bufferTooSmall ↔
        ∃ n, d.encodedLength = .ok n ∧ buffer.length < n) ∧
      (∀ n, (d.encodeInto buffer).1 = .ok n ↔ d.encodedLength = .ok n ∧ n ≤ buffer.length) ∧
      (∀ e, (d.encodeInto buffer).1 = .error e → (d.encodeInto buffer).2 = buffer) ∧
      ∀ n, (d.encodeInto buffer).1 = .ok n →
        (d.encodeInto buffer).2.length = buffer.length ∧
        (d.encodeInto buffer).2.take n = d.headerBytes ∧
        (d.encodeInto buffer).2.drop n = buffer.drop n := by
  rcases d.encodedLength_cases with ⟨hop, wrong⟩ | ⟨⟨hop, ends⟩, wrong⟩ | ⟨⟨hop, ends⟩, length⟩
  · obtain ⟨into, along⟩ := encode_of_layoutError wrong buffer
    simp [into, along, wrong, hop]
  · obtain ⟨into, along⟩ := encode_of_layoutError wrong buffer
    simp [into, along, wrong, hop, ends]
  · by_cases short : buffer.length < d.headerBytes.length
    · obtain ⟨into, along⟩ := encode_of_lt length short
      simp [into, along, length, hop, ends, short]
    · have room := Nat.not_lt.mp short
      obtain ⟨into, along⟩ := encode_of_le length room
      simp [into, along, length, hop, ends, short, room]

/-- A header of 21 bytes is written over as many, and leaves a shorter buffer as it was. -/
theorem encodeInto_outcome_widest :
    widest.encodedLength = .ok 21 ∧
      ((widest.encodeInto (List.replicate 24 0xee)).2.take 21 = widest.headerBytes ∧
        (widest.encodeInto (List.replicate 24 0xee)).2.drop 21 = List.replicate 3 0xee) ∧
      (widest.encodeInto (List.replicate 20 0xee)).1 = .error .bufferTooSmall ∧
      (widest.encodeInto (List.replicate 20 0xee)).2 = List.replicate 20 0xee := by
  have length : widest.encodedLength = .ok 21 := by rfl
  obtain ⟨-, -, -, -, -, fits, -, written⟩ := encodeInto_outcome widest (List.replicate 24 0xee)
  obtain ⟨-, -, -, -, short, -, unchanged, -⟩ := encodeInto_outcome widest (List.replicate 20 0xee)
  have done := (fits 21).mpr ⟨length, by decide⟩
  have refused := short.mpr ⟨21, length, by decide⟩
  exact ⟨length, (written 21 done).2, refused, unchanged _ refused⟩

end Descriptor

end MoteLink
