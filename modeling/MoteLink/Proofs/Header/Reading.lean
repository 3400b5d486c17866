import MoteLink.Proofs.Header.Cursor
import MoteLink.Proofs.Header.Layout

/-!
# Which frames have a header

The first byte of a frame, and the second one if the first asks for it, tell how long the header is.
A frame is accepted if it has these bytes and is as long as they say. What is read then depends on
the header alone, and every shorter piece of it is found to be cut off. No byte outside the frame is
ever looked at.
-/

namespace MoteLink

namespace Along

/-! ## The reader that goes along a buffer -/

def take (n : Nat) : Along Bytes := do
  let c ← get
  if c.buffer.length < c.offset + n then throw .truncated
  let bytes ← c.slice? n
  set { c with offset := c.offset + n }
  return bytes

def byte : Along UInt8 := do
  let bytes ← take 1
  bytes[0]?

def byteIf (isPresent : Bool) : Along UInt8 :=
  if isPresent then byte else return 0

def short : Along Address := do
  let bytes ← take 2
  match bytes with
  | low :: high :: _ => return .short (low.toUInt16 + high.toUInt16 <<< 8)
  | _ => Option.none

def long : Along Address := do
  let bytes ← take 8
  if whole : bytes.length = 8 then return .long ⟨bytes.toArray, whole⟩ else Option.none

def address (default : Address) : Width → Along Address
  | .absent => return default
  | .short => short
  | .long => long

def neighbour (isPresent : Bool) : Along Address :=
  address .unspecified (if isPresent then .short else .absent)

def control : Along (FrameControl × ExtendedControl) := do
  let first ← byte
  let second ← byteIf (FrameControl.ofByte first).extended
  return (.ofByte first, .ofByte second)

def fields (control : FrameControl) (extended : ExtendedControl) : Along Descriptor := do
  let src ← address .unspecified control.src
  let dst ← address .broadcast control.dst
  let hopSrc ← neighbour control.hopSrc
  let hopDst ← neighbour control.hopDst
  let seq ← byteIf control.seq
  let cost ← byteIf control.cost
  let srcEndpoint ← byteIf extended.srcEndpoint
  let dstEndpoint ← byteIf extended.dstEndpoint
  let hopLimit ← byteIf extended.hopLimit
  let flags : PacketFlags :=
    { moreData := extended.moreData, ackRequested := extended.ackRequest,
      isAck := extended.isAck }
  return { src, dst, hopSrc, hopDst, srcEndpoint, dstEndpoint, seq, cost, hopLimit,
           auth := extended.auth, flags }

def header : Along Descriptor := do
  let (control, extended) ← control
  fields control extended

/-- The header at the offset, with its length. -/
def decode : Along (Descriptor × Nat) := do
  let d ← header
  let headerLength := (← get).offset
  return ({ d with headerLength }, headerLength)

/-! ## Reading a field -/

variable {α β : Type} {x : Along α} {f : α → Along β} {read : Bytes → Option (α × Bytes)}
  {next : α × Bytes → Option (β × Bytes)} {bytes bytes' : Bytes} {a : α} {b : β}

/-- Both readers find the field in the bytes, wherever these stand in a buffer. -/
def Reads (x : Along α) (read : Bytes → Option (α × Bytes)) (bytes : Bytes) (a : α) : Prop :=
  ∀ before rest, x.run.run ⟨before ++ (bytes ++ rest), before.length⟩ =
      some (.ok a, ⟨before ++ (bytes ++ rest), (before ++ bytes).length⟩) ∧
    read (bytes ++ rest) = some (a, rest)

/-- Both readers find that the buffer ends too early. -/
def Lacks (x : Along α) (read : Bytes → Option (α × Bytes)) (bytes : Bytes) : Prop :=
  ∀ before, (∃ c, x.run.run ⟨before ++ bytes, before.length⟩ = some (.error .truncated, c)) ∧
    read bytes = none

theorem reads_pure (a : α) : Reads (pure a) (fun bytes => some (a, bytes)) [] a := by
  intro before rest
  refine ⟨?_, rfl⟩
  rw [List.append_nil]
  rfl

theorem Reads.bind (first : Reads x read bytes a)
    (later : Reads (f a) (fun rest => next (a, rest)) bytes' b) :
    Reads (x >>= f) (fun all => (read all).bind next) (bytes ++ bytes') b := by
  intro before rest
  obtain ⟨done, found⟩ := first before (bytes' ++ rest)
  obtain ⟨done', found'⟩ := later (before ++ bytes) rest
  constructor
  · rw [List.append_assoc, run_bind_of_ok done]
    simpa only [List.append_assoc] using done'
  · change (read (bytes ++ bytes' ++ rest)).bind next = some (b, rest)
    rw [List.append_assoc, found]
    exact found'

theorem Lacks.bind (first : Lacks x read bytes) :
    Lacks (x >>= f) (fun all => (read all).bind next) bytes := by
  intro before
  obtain ⟨⟨c, refused⟩, missing⟩ := first before
  exact ⟨⟨c, run_bind_of_error refused⟩, congrArg (Option.bind · next) missing⟩

theorem Reads.lacks (first : Reads x read bytes a)
    (later : Lacks (f a) (fun rest => next (a, rest)) bytes') :
    Lacks (x >>= f) (fun all => (read all).bind next) (bytes ++ bytes') := by
  intro before
  obtain ⟨done, found⟩ := first before bytes'
  obtain ⟨⟨c, refused⟩, missing⟩ := later (before ++ bytes)
  refine ⟨⟨c, ?_⟩, ?_⟩
  · rw [run_bind_of_ok done, ← List.append_assoc]
    exact refused
  · change (read (bytes ++ bytes')).bind next = none
    rw [found]
    exact missing

/-- Both readers take just `n` bytes, and make the same of them whatever stands around them. -/
structure Takes (n : Nat) (x : Along α) (read : Bytes → Option (α × Bytes)) : Prop where
  lacks : ∀ bytes, bytes.length < n → Lacks x read bytes
  reads : ∀ bytes, bytes.length = n → ∃ a, Reads x read bytes a

namespace Takes

theorem pure (a : α) : Takes 0 (pure a) (fun bytes => some (a, bytes)) where
  lacks bytes short := absurd short (Nat.not_lt_zero _)
  reads bytes length := by
    rw [List.length_eq_zero_iff.mp length]
    exact ⟨a, reads_pure a⟩

theorem bind {m n : Nat} (first : Takes m x read)
    (later : ∀ a, Takes n (f a) (fun rest => next (a, rest))) :
    Takes (m + n) (x >>= f) (fun all => (read all).bind next) where
  lacks bytes short := by
    by_cases few : bytes.length < m
    · exact (first.lacks bytes few).bind
    · have front : (bytes.take m).length = m := by
        rw [List.length_take]
        omega
      have back : (bytes.drop m).length < n := by
        rw [List.length_drop]
        omega
      obtain ⟨a, found⟩ := first.reads (bytes.take m) front
      rw [← List.take_append_drop m bytes]
      exact found.lacks ((later a).lacks _ back)
  reads bytes length := by
    have front : (bytes.take m).length = m := by
      rw [List.length_take]
      omega
    have back : (bytes.drop m).length = n := by
      rw [List.length_drop]
      omega
    obtain ⟨a, found⟩ := first.reads (bytes.take m) front
    obtain ⟨b, found'⟩ := (later a).reads (bytes.drop m) back
    rw [← List.take_append_drop m bytes]
    exact ⟨b, found.bind found'⟩

end Takes

theorem run_take (n : Nat) (c : Cursor) :
    (take n).run.run c =
      if c.buffer.length < c.offset + n then some (.error .truncated, c)
      else (c.slice? n).map fun bytes => (.ok bytes, { c with offset := c.offset + n }) := by
  unfold take
  rw [run_get_bind]
  by_cases few : c.buffer.length < c.offset + n
  · rw [if_pos few, if_pos few]
    rfl
  · rw [if_neg few, if_neg few]
    cases c.slice? n <;> rfl

/-- A field of `n` bytes is read by taking them at once. -/
theorem takes_slice {n : Nat} {g : Bytes → Along α}
    (few : ∀ bytes : Bytes, bytes.length < n → read bytes = none)
    (whole : ∀ bytes : Bytes, bytes.length = n →
      ∃ a, g bytes = pure a ∧ ∀ rest, read (bytes ++ rest) = some (a, rest)) :
    Takes n (take n >>= g) read where
  lacks bytes short := by
    intro before
    refine ⟨⟨⟨before ++ bytes, before.length⟩, run_bind_of_error ?_⟩, few bytes short⟩
    rw [run_take, if_pos]
    show (before ++ bytes).length < before.length + n
    rw [List.length_append]
    omega
  reads bytes length := by
    obtain ⟨a, made, found⟩ := whole bytes length
    refine ⟨a, fun before rest => ⟨?_, found rest⟩⟩
    have room : before.length + n ≤ (before ++ (bytes ++ rest)).length := by
      simp only [List.length_append]
      omega
    have slice : (⟨before ++ (bytes ++ rest), before.length⟩ : Cursor).slice? n = some bytes := by
      rw [Cursor.slice?, if_pos room, List.drop_left, ← length, List.take_left]
    have taken : (take n).run.run ⟨before ++ (bytes ++ rest), before.length⟩ =
        some (.ok bytes, ⟨before ++ (bytes ++ rest), before.length + n⟩) := by
      rw [run_take, if_neg (Nat.not_lt.mpr room), slice]
      rfl
    rw [run_bind_of_ok taken, made, List.length_append, length]
    rfl

theorem takes_byte : Takes 1 byte readByte := by
  apply takes_slice
  · intro bytes short
    rw [List.length_eq_zero_iff.mp (Nat.lt_one_iff.mp short)]
    rfl
  · intro bytes length
    obtain ⟨b, rfl⟩ := List.length_eq_one_iff.mp length
    exact ⟨b, rfl, fun rest => rfl⟩

theorem takes_byteIf (isPresent : Bool) :
    Takes isPresent.toNat (byteIf isPresent) (readByteIf isPresent) := by
  cases isPresent with
  | false => exact .pure 0
  | true => exact takes_byte

theorem takes_short : Takes 2 short readShort := by
  apply takes_slice
  · intro bytes few
    match bytes, few with
    | [], _ => rfl
    | [_], _ => rfl
    | _ :: _ :: _, few => exact absurd few (by simp)
  · intro bytes length
    match bytes, length with
    | [low, high], _ => exact ⟨_, rfl, fun rest => rfl⟩

theorem takes_long : Takes 8 long readLong := by
  apply takes_slice
  · intro bytes few
    rw [readLong, dif_neg (Nat.not_le.mpr few)]
  · intro bytes length
    refine ⟨.long ⟨bytes.toArray, length⟩, dif_pos length, ?_⟩
    intro rest
    have enough : 8 ≤ (bytes ++ rest).length := by
      rw [List.length_append]
      omega
    rw [readLong, dif_pos enough]
    simp [← length]

theorem takes_address (default : Address) (width : Width) :
    Takes width.size (address default width) (readAddress default width) := by
  cases width with
  | absent => exact .pure default
  | short => exact takes_short
  | long => exact takes_long

theorem takes_neighbour (isPresent : Bool) :
    Takes (2 * isPresent.toNat) (neighbour isPresent) (readNeighbour isPresent) := by
  have taken := takes_address .unspecified (if isPresent then .short else .absent)
  cases isPresent <;> exact taken

/-! ## Reading a header -/

/-- Length of the fields behind the control bytes that announce them. -/
def fieldsLength (control : FrameControl) (extended : ExtendedControl) : Nat :=
  control.src.size + (control.dst.size + (2 * control.hopSrc.toNat + (2 * control.hopDst.toNat +
    (control.seq.toNat + (control.cost.toNat + (extended.srcEndpoint.toNat +
      (extended.dstEndpoint.toNat + extended.hopLimit.toNat)))))))

theorem takes_fields (control : FrameControl) (extended : ExtendedControl) :
    Takes (fieldsLength control extended) (fields control extended)
      (readFields control extended) := by
  apply (takes_address .unspecified control.src).bind
  intro src
  apply (takes_address .broadcast control.dst).bind
  intro dst
  apply (takes_neighbour control.hopSrc).bind
  intro hopSrc
  apply (takes_neighbour control.hopDst).bind
  intro hopDst
  apply (takes_byteIf control.seq).bind
  intro seq
  apply (takes_byteIf control.cost).bind
  intro cost
  apply (takes_byteIf extended.srcEndpoint).bind
  intro srcEndpoint
  apply (takes_byteIf extended.dstEndpoint).bind
  intro dstEndpoint
  exact (takes_byteIf extended.hopLimit).bind (n := 0) fun hopLimit => .pure _

/-- The part of reading a header that has both control bytes and all fields in view. -/
def readHeader (frame : Bytes) : Option (Descriptor × Bytes) := do
  let ((control, extended), rest) ← readControl frame
  readFields control extended rest

theorem reads_byte (b : UInt8) : Reads byte readByte [b] b := by
  obtain ⟨a, found⟩ := takes_byte.reads [b] rfl
  have same : a = b := by
    have first := (found [] []).2
    cases first
    rfl
  rwa [same] at found

theorem lacks_byte : Lacks byte readByte [] := takes_byte.lacks [] Nat.zero_lt_one

/-- The control bytes are read where the second one is there if the first one asks for it. -/
theorem reads_control {first second : UInt8} {told : Bytes}
    (asked : Reads (byteIf (FrameControl.ofByte first).extended)
      (readByteIf (FrameControl.ofByte first).extended) told second) :
    Reads control readControl (first :: told) (.ofByte first, .ofByte second) := by
  have whole : Reads control readControl ([first] ++ (told ++ []))
      (.ofByte first, .ofByte second) := by
    apply (reads_byte first).bind
    apply asked.bind
    exact reads_pure _
  rwa [List.append_nil] at whole

end Along

/-! ## The length that a header announces -/

/-- Bytes that both end addresses take, by the address code in the three low bits. -/
def endsLength (first : UInt8) : Nat :=
  match (first &&& 0x07).toNat with
  | 0 => 0
  | 1 => 2
  | 2 => 8
  | 3 => 2
  | 4 => 2 + 2
  | 5 => 8 + 2
  | 6 => 8
  | _ => 2 + 8

/-- Length of a header, by the bits of its two control bytes. -/
def lengthOf (first second : UInt8) : Nat :=
  let bit (byte mask : UInt8) : Nat := (hasFlag byte mask).toNat
  1 + bit first 0x80 + endsLength first + 2 * bit first 0x08 + 2 * bit first 0x10 +
    bit first 0x20 + bit first 0x40 + bit second 0x04 + bit second 0x08 + bit second 0x10

/-- Length of the header at the front of a frame, if the frame has the control bytes to tell it. One
    that is left out has no bit on. -/
def toldLength? : Bytes → Option Nat
  | [] => none
  | first :: rest =>
    if hasFlag first 0x80 then rest.head?.map (lengthOf first) else some (lengthOf first 0)

/-- The frame has a header of `n` bytes. -/
structure HasHeader (frame : Bytes) (n : Nat) : Prop where
  told : toldLength? frame = some n
  enough : n ≤ frame.length

theorem size_ends (first : UInt8) :
    (FrameControl.ofByte first).src.size + (FrameControl.ofByte first).dst.size =
      endsLength first := by
  have all : ∀ n : Fin 256, (FrameControl.ofByte (.ofFin n)).src.size +
      (FrameControl.ofByte (.ofFin n)).dst.size = endsLength (.ofFin n) := by decide +kernel
  exact all first.toFin

theorem announcedLength_ofByte (first second : UInt8) :
    announcedLength (.ofByte first) (.ofByte second) = lengthOf first second := by
  have ends := size_ends first
  simp only [announcedLength, lengthOf, ← ends, FrameControl.ofByte, ExtendedControl.ofByte]
  omega

theorem lengthOf_eq (first second : UInt8) :
    lengthOf first second = 1 + (FrameControl.ofByte first).extended.toNat +
      Along.fieldsLength (.ofByte first) (.ofByte second) := by
  rw [← announcedLength_ofByte, announcedLength, Along.fieldsLength]
  omega

theorem announcedLength?_eq (frame : Bytes) : announcedLength? frame = toldLength? frame := by
  cases frame with
  | nil => rfl
  | cons first rest =>
    by_cases asked : hasFlag first 0x80 = true
    · have extended : (FrameControl.ofByte first).extended = true := asked
      cases rest <;> simp [announcedLength?, readControl, toldLength?, readByte, readByteIf, asked,
        extended, announcedLength_ofByte]
    · have plain : (FrameControl.ofByte first).extended = false := Bool.eq_false_iff.mpr asked
      simp [announcedLength?, readControl, toldLength?, readByte, readByteIf, asked, plain,
        announcedLength_ofByte]

/-- No frame announces a header that is longer than the longest one. -/
theorem le_of_toldLength? {frame : Bytes} {n : Nat} (told : toldLength? frame = some n) :
    n ≤ maxHeaderLength := by
  rw [← announcedLength?_eq] at told
  unfold announcedLength? readControl at told
  simp only [Option.bind_eq_bind, Option.map_eq_some_iff, Option.bind_eq_some_iff,
    Prod.exists] at told
  obtain ⟨control, extended, _, ⟨first, _, -, _, _, -, made⟩, rfl⟩ := told
  cases made
  exact announcedLength_le _ (Width.ofCode_fits (first &&& 0x07))

/-- What has been told stays told, however the frame goes on. -/
theorem toldLength?_append {bytes : Bytes} {n : Nat} (rest : Bytes)
    (told : toldLength? bytes = some n) : toldLength? (bytes ++ rest) = some n := by
  match bytes, told with
  | [first], told =>
    by_cases asked : hasFlag first 0x80 = true
    · simp [toldLength?, asked] at told
    · simpa [toldLength?, asked] using told
  | first :: second :: later, told => exact told

namespace Along

variable {frame told : Bytes} {n : Nat}

theorem header_of_opened {frameControl : FrameControl} {extended : ExtendedControl} {rest : Bytes}
    (opened : Reads control readControl told (frameControl, extended))
    (length : toldLength? (told ++ rest) =
      some (told.length + fieldsLength frameControl extended)) :
    (¬∃ n, HasHeader (told ++ rest) n) ∧ Lacks header readHeader (told ++ rest) ∨
      ∃ n d, HasHeader (told ++ rest) n ∧ Reads header readHeader ((told ++ rest).take n) d := by
  have fields := takes_fields frameControl extended
  by_cases short : rest.length < fieldsLength frameControl extended
  · left
    refine ⟨?_, opened.lacks (fields.lacks rest short)⟩
    rintro ⟨n, told', enough⟩
    rw [length] at told'
    cases told'
    rw [List.length_append] at enough
    omega
  · right
    have front : (rest.take (fieldsLength frameControl extended)).length =
        fieldsLength frameControl extended := by
      rw [List.length_take]
      omega
    obtain ⟨d, found⟩ := fields.reads _ front
    refine ⟨_, d, ⟨length, ?_⟩, ?_⟩
    · rw [List.length_append]
      omega
    · rw [List.take_length_add_append]
      exact opened.bind found

/-- A frame has a header and both readers find it, or it has none and both find that it is cut
    off. -/
theorem header_cases (frame : Bytes) :
    (¬∃ n, HasHeader frame n) ∧ Lacks header readHeader frame ∨
      ∃ n d, HasHeader frame n ∧ Reads header readHeader (frame.take n) d := by
  match frame with
  | [] =>
    left
    refine ⟨?_, lacks_byte.bind.bind⟩
    rintro ⟨n, told, -⟩
    cases told
  | first :: rest =>
    cases asked : (FrameControl.ofByte first).extended with
    | false =>
      have second : Reads (byteIf (FrameControl.ofByte first).extended)
          (readByteIf (FrameControl.ofByte first).extended) [] 0 := by
        rw [asked]
        exact reads_pure 0
      have silent : hasFlag first 0x80 = false := asked
      have length : toldLength? (first :: rest) =
          some (1 + fieldsLength (.ofByte first) (.ofByte 0)) := by
        simp [toldLength?, silent, lengthOf_eq, asked]
      exact header_of_opened (reads_control second) length
    | true =>
      have speaks : hasFlag first 0x80 = true := asked
      match rest with
      | [] =>
        left
        constructor
        · rintro ⟨n, told, -⟩
          simp [toldLength?, speaks] at told
        · have second : Lacks (byteIf (FrameControl.ofByte first).extended)
              (readByteIf (FrameControl.ofByte first).extended) [] := by
            rw [asked]
            exact lacks_byte
          exact ((reads_byte first).lacks second.bind).bind
      | second :: rest =>
        have read : Reads (byteIf (FrameControl.ofByte first).extended)
            (readByteIf (FrameControl.ofByte first).extended) [second] second := by
          rw [asked]
          exact reads_byte second
        have length : toldLength? (first :: second :: rest) =
            some (2 + fieldsLength (.ofByte first) (.ofByte second)) := by
          simp [toldLength?, speaks, lengthOf_eq, asked]
        exact header_of_opened (reads_control read) length

end Along

namespace Descriptor

open Along

/-- `decode` along a buffer. -/
def decodeAlong (frame : Bytes) : Option (Except HeaderError (Descriptor × Nat)) :=
  (Along.decode.run.run { buffer := frame }).map Prod.fst

variable {bytes : Bytes} {d : Descriptor}

theorem read?_eq (frame : Bytes) :
    read? frame = (readHeader frame).map fun (d, payload) =>
      ({ d with headerLength := frame.length - payload.length }, payload) := by
  unfold read? readHeader
  cases readControl frame with
  | none => rfl
  | some opened =>
    obtain ⟨⟨control, extended⟩, rest⟩ := opened
    simp only [Option.bind_eq_bind, Option.bind_some]
    cases readFields control extended rest <;> rfl

theorem decode_of_lacks (lacks : Lacks header readHeader bytes) :
    decodeAlong bytes = some (.error .truncated) ∧ decode bytes = .error .truncated := by
  obtain ⟨⟨c, refused⟩, missing⟩ := lacks []
  constructor
  · have stopped : Along.decode.run.run ⟨bytes, 0⟩ = some (.error .truncated, c) :=
      run_bind_of_error refused
    rw [decodeAlong, stopped]
    rfl
  · rw [decode, read?_eq, missing]
    rfl

theorem decode_of_reads (reads : Reads header readHeader bytes d) (rest : Bytes) :
    decodeAlong (bytes ++ rest) =
        some (.ok ({ d with headerLength := bytes.length }, bytes.length)) ∧
      decode (bytes ++ rest) = .ok ({ d with headerLength := bytes.length }, bytes.length) := by
  obtain ⟨done, found⟩ := reads [] rest
  constructor
  · have ended : Along.decode.run.run ⟨bytes ++ rest, 0⟩ =
        some (.ok ({ d with headerLength := bytes.length }, bytes.length),
          ⟨bytes ++ rest, bytes.length⟩) := by
      unfold Along.decode
      exact run_bind_of_ok done
    rw [decodeAlong, ended]
    rfl
  · have length : (bytes ++ rest).length - rest.length = bytes.length := by
      rw [List.length_append, Nat.add_sub_cancel]
    rw [decode, read?_eq, found]
    simp only [Option.map_some, length]

end Descriptor

namespace HasHeader

variable {frame : Bytes} {m n : Nat}

theorem unique (first : HasHeader frame m) (second : HasHeader frame n) : m = n := by
  have same := first.told
  rw [second.told] at same
  exact (Option.some.inj same).symm

/-- A piece of the header is not a header of its own. -/
theorem not_take {k : Nat} (whole : HasHeader frame n) (less : k < n) :
    ¬∃ m, HasHeader (frame.take k) m := by
  rintro ⟨m, told, enough⟩
  have again := toldLength?_append (frame.drop k) told
  rw [List.take_append_drop, whole.told] at again
  cases again
  rw [List.length_take] at enough
  omega

theorem decode (whole : HasHeader frame n) : ∃ d : Descriptor, d.headerLength = n ∧
    ∀ rest, Descriptor.decodeAlong (frame.take n ++ rest) = some (.ok (d, n)) ∧
      Descriptor.decode (frame.take n ++ rest) = .ok (d, n) := by
  rcases Along.header_cases frame with ⟨cut, -⟩ | ⟨m, d, again, reads⟩
  · exact absurd ⟨n, whole⟩ cut
  · obtain rfl := whole.unique again
    have length : (frame.take n).length = n := by
      rw [List.length_take, Nat.min_eq_left whole.enough]
    refine ⟨{ d with headerLength := n }, rfl, fun rest => ?_⟩
    have decoded := Descriptor.decode_of_reads reads rest
    rwa [length] at decoded

end HasHeader

namespace Descriptor

theorem decode_of_not_hasHeader {frame : Bytes} (cut : ¬∃ n, HasHeader frame n) :
    decodeAlong frame = some (.error .truncated) ∧ decode frame = .error .truncated := by
  rcases Along.header_cases frame with ⟨-, lacks⟩ | ⟨n, d, whole, -⟩
  · exact decode_of_lacks lacks
  · exact absurd ⟨n, whole⟩ cut

/-- A frame is accepted just where it has a header, and what is read depends on the header alone.
    All that is shorter is found to be cut off, and no byte outside the frame is ever looked at. -/
theorem accepts_iff_hasHeader (frame : Bytes) :
    decodeAlong frame = some (decode frame) ∧
      ((∃ result, decode frame = .ok result) ↔ ∃ n, HasHeader frame n) ∧
      (decode frame = .error .truncated ↔ ¬∃ n, HasHeader frame n) ∧
      ∀ n, HasHeader frame n → n ≤ 21 ∧
        (∃ d, d.headerLength = n ∧ ∀ rest, decode (frame.take n ++ rest) = .ok (d, n)) ∧
        ∀ k < n, decode (frame.take k) = .error .truncated := by
  by_cases whole : ∃ n, HasHeader frame n
  · obtain ⟨n, whole⟩ := whole
    obtain ⟨d, length, found⟩ := whole.decode
    obtain ⟨along, decoded⟩ := found (frame.drop n)
    rw [List.take_append_drop] at along decoded
    refine ⟨by rw [along, decoded], ⟨fun _ => ⟨n, whole⟩, fun _ => ⟨_, decoded⟩⟩, ?_, ?_⟩
    · simp only [decoded, reduceCtorEq, false_iff]
      exact fun cut => cut ⟨n, whole⟩
    · intro m again
      obtain rfl := whole.unique again
      refine ⟨le_of_toldLength? whole.told, ⟨d, length, fun rest => (found rest).2⟩, ?_⟩
      intro k less
      exact (decode_of_not_hasHeader (whole.not_take less)).2
  · obtain ⟨along, cut⟩ := decode_of_not_hasHeader whole
    refine ⟨by rw [along, cut], ?_, ⟨fun _ => whole, fun _ => cut⟩, ?_⟩
    · simp only [cut, reduceCtorEq, exists_false, whole]
    · intro n there
      exact absurd ⟨n, there⟩ whole

/-- A frame with two bytes of payload behind a header of eight: two control bytes, both end
    addresses, a sequence number and an endpoint. -/
theorem accepts_iff_hasHeader_payload :
    HasHeader [0xa4, 0x44, 1, 0, 2, 0, 9, 7, 0xff, 0xff] 8 ∧
      (∃ d, decode [0xa4, 0x44, 1, 0, 2, 0, 9, 7, 0xff, 0xff] = .ok (d, 8) ∧ d.seq = 9) ∧
      decode [0xa4, 0x44, 1, 0, 2, 0, 9] = .error .truncated := by
  have whole : HasHeader [0xa4, 0x44, 1, 0, 2, 0, 9, 7, 0xff, 0xff] 8 := ⟨by rfl, by decide⟩
  obtain ⟨-, -, -, header⟩ := accepts_iff_hasHeader [0xa4, 0x44, 1, 0, 2, 0, 9, 7, 0xff, 0xff]
  obtain ⟨-, ⟨d, -, found⟩, cut⟩ := header 8 whole
  have decoded := found [0xff, 0xff]
  have seq :
      (decode [0xa4, 0x44, 1, 0, 2, 0, 9, 7, 0xff, 0xff]).toOption.map (·.1.seq) = some 9 := by
    rfl
  refine ⟨whole, ⟨d, decoded, ?_⟩, cut 7 (by decide)⟩
  rw [show decode [0xa4, 0x44, 1, 0, 2, 0, 9, 7, 0xff, 0xff] = .ok (d, 8) from decoded] at seq
  exact Option.some.inj seq

end Descriptor

end MoteLink
