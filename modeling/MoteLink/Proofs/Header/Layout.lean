import MoteLink.Link.Station
import MoteLink.Proofs.Header.RoundTrip

/-!
# Which headers can be laid out

A header has room for one long address, and only at the ends of the way. What has been read keeps to
that, and so does the answer to a packet that keeps to it.
-/

namespace MoteLink

/-- No address code stands for two long addresses. -/
theorem Width.ofCode_fits (code : UInt8) :
    ¬((ofCode code).1 = .long ∧ (ofCode code).2 = .long) := by
  unfold ofCode
  repeat' split
  all_goals simp

/-- Only a long field is read as a long address. -/
theorem isLong_of_readAddress {default a : Address} {width : Width} {bytes rest : Bytes}
    (short : default.isLong = false) (found : readAddress default width bytes = some (a, rest))
    (long : a.isLong = true) : width = .long := by
  cases width with
  | absent =>
    cases found
    rw [short] at long
    cases long
  | short =>
    change readShort bytes = some (a, rest) at found
    unfold readShort at found
    split at found
    · cases found
      cases long
    · cases found
  | long => rfl

namespace Descriptor

variable {d : Descriptor}

theorem srcWidth_eq_long_iff : d.srcWidth = .long ↔ d.src.isLong = true := by
  unfold srcWidth
  by_cases omitted : d.src = .unspecified
  · simp [omitted, Address.isLong, Address.unspecified]
  · cases d.src.isLong <;> simp [omitted]

theorem dstWidth_eq_long_iff : d.dstWidth = .long ↔ d.dst.isLong = true := by
  unfold dstWidth
  by_cases omitted : d.dst = .broadcast
  · simp [omitted, Address.isLong, Address.broadcast]
  · cases d.dst.isLong <;> simp [omitted]

/-- The address code has room for one long end. -/
theorem fits_iff_short :
    d.frameControl.Fits ↔ ¬(d.src.isLong = true ∧ d.dst.isLong = true) := by
  change ¬(d.srcWidth = .long ∧ d.dstWidth = .long) ↔ _
  rw [srcWidth_eq_long_iff, dstWidth_eq_long_iff]

/-- A header can be laid out where both neighbours are short and one end is. -/
theorem layoutError?_eq_none_iff_short :
    d.layoutError? = none ↔ d.hopSrc.isLong = false ∧ d.hopDst.isLong = false ∧
      ¬(d.src.isLong = true ∧ d.dst.isLong = true) := by
  rw [layoutError?_eq_none_iff, fits_iff_short]

/-- A packet goes from or to a long address only at an end of its way. -/
theorem isLong_of_nextHop (short : d.hopDst.isLong = false) (long : d.nextHop.isLong = true) :
    d.dst.isLong = true := by
  unfold nextHop Address.orElse at long
  by_cases direct : d.hopDst.isUnspecified = true
  · rwa [if_pos direct] at long
  · rw [if_neg direct, short] at long
    cases long

theorem isLong_of_prevHop (short : d.hopSrc.isLong = false) (long : d.prevHop.isLong = true) :
    d.src.isLong = true := by
  unfold prevHop Address.orElse at long
  by_cases direct : d.hopSrc.isUnspecified = true
  · rwa [if_pos direct] at long
  · rw [if_neg direct, short] at long
    cases long

/-- What is read behind control bytes that fit can be laid out. -/
theorem layoutError?_of_readFields {control : FrameControl} {extended : ExtendedControl}
    {bytes rest : Bytes} (fits : control.Fits)
    (found : readFields control extended bytes = some (d, rest)) : d.layoutError? = none := by
  unfold readFields at found
  simp only [Option.bind_eq_bind, Option.bind_eq_some_iff, Prod.exists] at found
  obtain ⟨src, _, srcRead, dst, _, dstRead, hopSrc, _, hopSrcRead, hopDst, _, hopDstRead,
    _, _, -, _, _, -, _, _, -, _, _, -, _, _, -, made⟩ := found
  have shortNeighbour {told : Bool} {a : Address} {bytes rest : Bytes}
      (neighbour : readNeighbour told bytes = some (a, rest)) : a.isLong = false := by
    cases long : a.isLong with
    | false => rfl
    | true =>
      have width := isLong_of_readAddress rfl neighbour long
      cases told <;> cases width
  cases made
  rw [layoutError?_eq_none_iff_short]
  refine ⟨shortNeighbour hopSrcRead, shortNeighbour hopDstRead, ?_⟩
  rintro ⟨longSrc, longDst⟩
  exact fits ⟨isLong_of_readAddress rfl srcRead longSrc, isLong_of_readAddress rfl dstRead longDst⟩

/-- What has been read can be laid out again. -/
theorem layoutError?_of_read? {frame payload : Bytes} (found : read? frame = some (d, payload)) :
    d.layoutError? = none := by
  unfold read? readControl at found
  simp only [Option.bind_eq_bind, Option.bind_eq_some_iff, Prod.exists] at found
  obtain ⟨control, extended, rest, ⟨first, _, -, second, _, -, opened⟩, d', _, fields, made⟩ :=
    found
  cases opened
  cases made
  have fits : (FrameControl.ofByte first).Fits := Width.ofCode_fits (first &&& 0x07)
  have sound := layoutError?_of_readFields fits fields
  exact sound

end Descriptor

namespace Link.Station

variable {ρ γ : Type} (s : Link.Station ρ γ)

theorem hears_iff (a : Address) :
    s.hears a = true ↔ a = s.config.address ∨ a.isBroadcast = true := by
  rw [hears, Bool.or_eq_true, beq_iff_eq]

/-- A frame brings what can be read from it, if that is for this node. -/
theorem listen_eq_some_iff {frame : Bytes} {d : Link.Delivery} :
    s.listen frame = some d ↔ Descriptor.read? frame = some (d.descriptor, d.payload) ∧
      s.hears d.descriptor.nextHop = true := by
  unfold listen
  cases found : Descriptor.read? frame with
  | none => simp
  | some read =>
    obtain ⟨descriptor, payload⟩ := read
    by_cases heard : s.hears descriptor.nextHop = true
    · simp only [heard, ↓reduceIte, Option.some.injEq, Prod.mk.injEq]
      constructor
      · rintro rfl
        exact ⟨⟨rfl, rfl⟩, heard⟩
      · rintro ⟨⟨rfl, rfl⟩, -⟩
        rfl
    · simp only [heard, Bool.false_eq_true, ↓reduceIte, Option.some.injEq, Prod.mk.injEq]
      constructor
      · intro silent
        cases silent
      · rintro ⟨⟨rfl, rfl⟩, again⟩
        exact absurd again heard

/-- The answer to a packet that has been heard can be laid out. -/
theorem layoutError?_ackFor {d : Descriptor} (sound : d.layoutError? = none)
    (here : d.nextHop = s.config.address) : (s.ackFor d).layoutError? = none := by
  obtain ⟨shortSrc, shortDst, ends⟩ := Descriptor.layoutError?_eq_none_iff_short.mp sound
  rw [Descriptor.layoutError?_eq_none_iff_short]
  refine ⟨rfl, rfl, ?_⟩
  rintro ⟨longSrc, longDst⟩
  change s.config.address.isLong = true at longSrc
  change d.prevHop.isLong = true at longDst
  rw [← here] at longSrc
  exact ends ⟨Descriptor.isLong_of_prevHop shortSrc longDst,
    Descriptor.isLong_of_nextHop shortDst longSrc⟩

end Link.Station

end MoteLink
