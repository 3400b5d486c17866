import MoteLink.Proofs.Link.Conveyance
import MoteLink.Proofs.Link.TimeSlot.CallLog
import MoteLink.Radio.Device

/-!
# Admission

A packet is checked when it is submitted and laid out anew whenever it is transmitted. What has
passed the check can be laid out, in the length that the check has found. So where a step of a link
acts on a refusal, it is the radio that has refused.
-/

namespace MoteLink

namespace Link

variable {ρ γ ε : Type} {c : Config} {p : Packet} {i : Nat} {now : Tick}

/-! ## Packets that fit -/

/-- The packet can be laid out behind a header of the length noted in it, and the frame is not
    longer than a station with this configuration sends. -/
structure Packet.Fits (c : Config) (p : Packet) : Prop where
  encoded : p.descriptor.encodedLength = .ok p.descriptor.headerLength
  short : p.descriptor.headerLength + p.payload.length ≤ min c.bufferSize maxFrameLength

namespace Packet.Fits

theorem sound (fits : p.Fits c) : p.descriptor.layoutError? = none :=
  (Descriptor.encodedLength_eq_ok_iff.mp fits.encoded).1

theorem length_header (fits : p.Fits c) :
    p.descriptor.headerBytes.length = p.descriptor.headerLength :=
  (Descriptor.encodedLength_eq_ok_iff.mp fits.encoded).2.symm

theorem encodeWithin (fits : p.Fits c) :
    p.descriptor.encodeWithin maxHeaderLength = .ok p.descriptor.headerBytes :=
  Descriptor.encodeWithin_eq_ok_iff.mpr
    ⟨fits.sound, Descriptor.length_headerBytes_le fits.sound, rfl⟩

theorem length_frame (fits : p.Fits c) (taken : Bool) :
    (p.transmission taken).frame.length ≤ min c.bufferSize maxFrameLength := by
  have short := fits.short
  rw [← fits.length_header] at short
  rw [Transmission.frame, List.length_append]
  exact short

end Packet.Fits

theorem Station.fits_of_prepare {s s' : Station ρ γ} {d : Descriptor} {payload : Bytes}
    (prepared : s.prepare (ε := ε) d payload = (.ok p, s')) : p.Fits s.config := by
  obtain ⟨seq, headerLength, rfl, encoded, short⟩ := prepare_eq_ok prepared
  exact ⟨encoded, short⟩

/-- An acknowledgement that can be laid out is short: it tells two addresses, of which at most one
    is long, and a sequence number. -/
theorem Station.length_ackFor_le (s : Station ρ γ) {d : Descriptor}
    (sound : (s.ackFor d).layoutError? = none) : (s.ackFor d).headerBytes.length ≤ 13 := by
  have ends := Descriptor.fits_of_layoutError?_eq_none sound
  have bit (b : Bool) : b.toNat ≤ 1 := by cases b <;> simp
  have extended := bit (s.ackFor d).frameControl.extended
  have seq := bit (s.ackFor d).frameControl.seq
  have widths : (s.ackFor d).frameControl.src.size + (s.ackFor d).frameControl.dst.size ≤ 10 := by
    revert ends
    unfold FrameControl.Fits
    cases (s.ackFor d).frameControl.src <;> cases (s.ackFor d).frameControl.dst <;>
      simp [Width.size]
  rw [Descriptor.length_headerBytes sound, announcedLength]
  simp only [show (s.ackFor d).frameControl.hopSrc = false from rfl,
    show (s.ackFor d).frameControl.hopDst = false from rfl,
    show (s.ackFor d).frameControl.cost = false from rfl,
    show (s.ackFor d).extendedControl.srcEndpoint = false from rfl,
    show (s.ackFor d).extendedControl.dstEndpoint = false from rfl,
    show (s.ackFor d).extendedControl.hopLimit = false from rfl, Bool.toNat_false]
  omega

/-- A radio made of a device is not asked for a frame that is too long for it. -/
theorem send_ne_frameTooLong {δ : Type} [Device δ ε] {t : Transmission}
    (short : t.frame.length ≤ maxFrameLength) (r : DeviceRadio δ) (length : Nat) :
    (r.send (ε := ε) t.header t.payload).1 ≠ .error (.frameTooLong length) := by
  have fits : ¬maxFrameLength < (t.header ++ t.payload).length := Nat.not_lt.mpr short
  unfold DeviceRadio.send
  rw [if_neg fits]
  unfold DeviceRadio.lift
  cases (Device.startTransmit r.device (t.header ++ t.payload)).1 <;> nofun

/-! ## What submissions store -/

/-- The packet is one that the check has let through, in answer to a submission. -/
structure Entered (c : Config) (d : Descriptor) (payload : Bytes)
    (result : Except (LinkError ε) UInt8) (p : Packet) : Prop where
  fits : p.Fits c
  answered : result = .ok p.descriptor.seq
  descriptor : p.descriptor =
    { d with seq := p.descriptor.seq, headerLength := p.descriptor.headerLength }
  payload : p.payload = payload

theorem Entered.accepted?_eq {link : Link ρ γ} {call : Call} {d : Descriptor} {payload : Bytes}
    {result : Except (LinkError ε) UInt8} (entered : Entered c d payload result p)
    (submits : link.submission? call = some (d, payload)) :
    link.accepted? call (.submitted result) =
      some { descriptor := p.descriptor, payload := p.payload } := by
  have encoded : ({ d with seq := p.descriptor.seq } : Descriptor).encodedLength =
      .ok p.descriptor.headerLength := by
    rw [← entered.fits.encoded, entered.descriptor]
    rfl
  rw [entered.answered]
  simp only [accepted?, submits, encoded]
  rw [← entered.descriptor, entered.payload]

theorem Station.entered_of_prepare {s s' : Station ρ γ} {d : Descriptor} {payload : Bytes}
    (prepared : s.prepare (ε := ε) d payload = (.ok p, s')) (ticket : UInt32) :
    Entered (ε := ε) s.config d payload (.ok p.descriptor.seq) { p with ticket } := by
  have fits := fits_of_prepare prepared
  obtain ⟨seq, headerLength, rfl, -⟩ := prepare_eq_ok prepared
  exact ⟨⟨fits.encoded, fits.short⟩, rfl, rfl, rfl⟩

theorem Station.Submitted.stores {s s' : Station ρ γ} {o o' : Outbox} {d : Descriptor}
    {payload : Bytes} {result : Except (LinkError ε) UInt8}
    (submitted : s.Submitted o d payload result s' o') (content : o'.contentAt? i = some p) :
    o.contentAt? i = some p ∨ Entered s.config d payload result p := by
  cases submitted with
  | unfit prepared => exact .inl content
  | full prepared refused => exact .inl content
  | @accepted q s' j o' prepared placed =>
    obtain ⟨replaced, -⟩ := Outbox.accept_eq_ok placed
    have entered := entered_of_prepare prepared o.nextTicket
    obtain ⟨seq, headerLength, rfl, -⟩ := prepare_eq_ok prepared
    rw [Outbox.contentAt?_of_replaces replaced] at content
    by_cases here : i = j
    · rw [if_pos here] at content
      cases content
      exact .inr entered
    · rw [if_neg here] at content
      exact .inl content

theorem TimeSlot.stores_submit (m : TimeSlot ρ γ) {d : Descriptor} {payload : Bytes}
    (content : (m.submit (ε := ε) d payload).2.place.contentAt? i = some p) :
    m.place.contentAt? i = some p ∨
      Entered m.station.config d payload (m.submit (ε := ε) d payload).1 p := by
  unfold submit at content ⊢
  by_cases full : m.pending.isSome = true
  · rw [if_pos full] at content
    exact .inl content
  · rw [if_neg full] at content ⊢
    split at content <;> rename_i prepared
    · exact .inl content
    · have entered := Station.entered_of_prepare prepared 0
      obtain ⟨seq, headerLength, rfl, -⟩ := Station.prepare_eq_ok prepared
      rw [contentAt?_place] at content
      by_cases first : i = 0
      · rw [if_pos first] at content
        cases content
        exact .inr entered
      · rw [if_neg first] at content
        cases content

variable [Transceiver ρ ε] [RandomSource γ] {link : Link ρ γ} {call : Call} {d : Descriptor}
  {payload : Bytes}

omit [RandomSource γ] in
theorem stores_submit (link : Link ρ γ)
    (content : (link.submit (ε := ε) d payload).2.outbox.contentAt? i = some p) :
    link.outbox.contentAt? i = some p ∨
      Entered link.station.config d payload (link.submit (ε := ε) d payload).1 p := by
  cases link with
  | passThrough m => exact .inl content
  | carrierSense m => exact (m.submitted_submit d payload).1.stores content
  | acknowledged m => exact (m.submitted_submit d payload).1.stores content
  | timeSlot m => exact m.stores_submit content

/-! ## What a step does with the radio -/

/-- Out of a listening link becomes one that waits for the next attempt. -/
inductive Retries (before after : Link ρ γ) : Prop
  | intro {m m' : Acknowledged ρ γ} {expiry expiry' : Tick} {busy : UInt8}
      (first : before = .acknowledged m) (second : after = .acknowledged m')
      (listening : m.phase = .backoff expiry busy) (waiting : m'.phase = .retryWait expiry')

omit [Transceiver ρ ε] [RandomSource γ] in
theorem Acknowledged.not_retries {m m' : Acknowledged ρ γ}
    (still : ∀ expiry busy expiry', m.phase = .backoff expiry busy →
      m'.phase ≠ .retryWait expiry') : ¬Retries (.acknowledged m) (.acknowledged m') := by
  rintro ⟨⟨⟩, ⟨⟩, listening, waiting⟩
  exact still _ _ _ listening waiting

/-- Nothing is put up that blames the radio. -/
def Spares (a b : Fifo Outcome) : Prop :=
  b = a ∨ ∃ outcome, b = a.push outcome ∧ ∀ seq dst, outcome ≠ .failed seq dst .radio

omit [Transceiver ρ ε] [RandomSource γ] in
theorem Spares.mem {a b : Fifo Outcome} {seq : UInt8} {dst : Address} (spares : Spares a b)
    (member : Outcome.failed seq dst .radio ∈ b.items) : .failed seq dst .radio ∈ a.items := by
  rcases spares with rfl | ⟨outcome, rfl, other⟩
  · exact member
  · rcases Fifo.mem_items_push member with earlier | rfl
    · exact earlier
    · exact absurd rfl (other seq dst)

section Recorded

/-- What a step does with the radio: nothing, or it hands over the packet whose turn it is. Only
    when the radio refuses that is the radio blamed or another attempt waited for. -/
inductive Effect (before after : Link (Recorder ρ) γ) : Prop
  | silent (record : after.record = before.record)
      (spares : Spares before.station.outcomes after.station.outcomes)
      (still : ¬Retries before after)
  | transmits {i : Nat} {p : Packet} {taken : Bool} (turn : before.turn? = some i)
      (content : before.outbox.contentAt? i = some p)
      (record : after.record = before.record ++ [p.transmission taken])
      (told : after.station.outcomes = before.station.outcomes ∨
        after.station.outcomes = before.station.outcomes.push (p.outcome (refusal taken)))
      (still : taken = true → ¬Retries before after)

namespace Effect

variable {before after : Link (Recorder ρ) γ}

omit [Transceiver ρ ε] [RandomSource γ]

theorem grows (effect : Effect before after) : before.record ⊆ after.record := by
  cases effect with
  | silent record spares still => rw [record]; exact List.Subset.refl _
  | transmits turn content record told still => rw [record]; exact List.subset_append_left _ _

/-- Where the radio is blamed from now on it has refused the packet. -/
theorem cause {seq : UInt8} {dst : Address} (effect : Effect before after)
    (waits : .failed seq dst .radio ∈ after.station.outcomes.items) :
    .failed seq dst .radio ∈ before.station.outcomes.items ∨
      ∃ i p, before.outbox.contentAt? i = some p ∧ p.descriptor.seq = seq ∧
        p.descriptor.nextHop = dst ∧ after.record = before.record ++ [p.transmission false] := by
  cases effect with
  | silent record spares still => exact .inl (spares.mem waits)
  | @transmits i p taken turn content record told still =>
    rcases told with same | pushed
    · rw [same] at waits
      exact .inl waits
    · rw [pushed] at waits
      rcases Fifo.mem_items_push waits with waited | new
      · exact .inl waited
      · cases taken with
        | true => cases new
        | false =>
          cases new
          exact .inr ⟨i, p, content, rfl, rfl, record⟩

end Effect

section CarrierSense

variable {m m' : CarrierSense (Recorder ρ) γ}

omit [Transceiver ρ ε] [RandomSource γ] in
theorem CarrierSense.not_retries (after : Link (Recorder ρ) γ) :
    ¬Retries (.carrierSense m) after := by
  rintro ⟨⟨⟩, -⟩

theorem CarrierSense.Transition.effect {r : Except (LinkError ε) Bool}
    (taken : Transition now m r m')
    (sound : ∀ i p, m.outbox.contentAt? i = some p → p.descriptor.layoutError? = none) :
    Effect (.carrierSense m) (.carrierSense m') := by
  cases taken with
  | rest quiet early => exact .silent rfl (.inl rfl) (not_retries _)
  | start quiet started drawn =>
    exact .silent (Station.record_of_firstBackoff drawn)
      (.inl (Station.sameBooks_firstBackoff drawn).outcomes) (not_retries _)
  | deaf phase sensed | hold phase sensed =>
    exact .silent sensed.record_eq (.inl sensed.sameBooks.outcomes) (not_retries _)
  | @attempt expiry busy station i p reason m' phase sensed found attempted =>
    have content : (Link.carrierSense m).outbox.contentAt? i = some p.untried :=
      Outbox.contentAt?_of_inFlight? found
    have turn : (Link.carrierSense m).turn? = some i := by rw [turn?, found]; rfl
    have fits := sound i p.untried content
    cases attempted with
    | @refused e station' sent =>
      have same := sensed.sameBooks.trans (Station.sameBooks_of_transmit sent)
      have written : station'.record = m.station.record ++ [p.untried.transmission false] := by
        rw [← sensed.record_eq]
        exact Station.record_of_transmit fits sent
      have told : station'.outcomes.push (p.outcome (some .radio)) =
          m.station.outcomes.push (p.outcome (refusal false)) :=
        congrArg (Fifo.push · (p.outcome (some .radio))) same.outcomes
      exact .transmits turn content written (.inr told) fun _ => not_retries _
    | @done length station' sent =>
      have same := sensed.sameBooks.trans (Station.sameBooks_of_transmit sent)
      have written : station'.record = m.station.record ++ [p.untried.transmission true] := by
        rw [← sensed.record_eq]
        exact Station.record_of_transmit fits sent
      have told : station'.outcomes.push (p.outcome none) =
          m.station.outcomes.push (p.outcome (refusal true)) :=
        congrArg (Fifo.push · (p.outcome none)) same.outcomes
      exact .transmits turn content written (.inr told) fun _ => not_retries _

end CarrierSense

section Acknowledged

variable {m m' : Acknowledged (Recorder ρ) γ}

omit [Transceiver ρ ε] [RandomSource γ] in
/-- After a failed attempt the packet's outcome is told or none is. -/
theorem Acknowledged.Setback.effect {reason : FailureReason}
    (setback : Setback now m i p reason m') : m'.station.record = m.station.record ∧
      (m'.station.outcomes = m.station.outcomes ∨
        m'.station.outcomes = m.station.outcomes.push (p.outcome (some reason))) := by
  cases setback with
  | again left => exact ⟨rfl, .inl rfl⟩
  | giveUp spent => exact ⟨rfl, .inr rfl⟩

omit [RandomSource γ] in
theorem Acknowledged.Attempt.effect {heard : Acknowledged (Recorder ρ) γ}
    (attempted : Attempt (ε := ε) now heard i p m')
    (same : heard.station.outcomes = m.station.outcomes)
    (listened : heard.station.record = m.station.record)
    (found : m.outbox.inFlight? = some (i, p)) (sound : p.descriptor.layoutError? = none) :
    Effect (.acknowledged m) (.acknowledged m') := by
  have content : (Link.acknowledged m).outbox.contentAt? i = some p.untried :=
    Outbox.contentAt?_of_inFlight? found
  have turn : (Link.acknowledged m).turn? = some i := by rw [turn?, found]; rfl
  cases attempted with
  | @refused e station m' sent setback =>
    have books := (Station.sameBooks_of_transmit sent).outcomes.trans same
    obtain ⟨unwritten, told⟩ := setback.effect
    have written : m'.station.record = m.station.record ++ [p.untried.transmission false] := by
      rw [unwritten, ← listened]
      exact Station.record_of_transmit sound sent
    change m'.station.outcomes = station.outcomes ∨
      m'.station.outcomes = station.outcomes.push (p.untried.outcome (refusal false)) at told
    rw [books] at told
    exact .transmits turn content written told nofun
  | @await length station sent asks =>
    have books := (Station.sameBooks_of_transmit sent).outcomes.trans same
    have written : station.record = m.station.record ++ [p.untried.transmission true] := by
      rw [← listened]
      exact Station.record_of_transmit sound sent
    exact .transmits turn content written (.inl books) fun _ => not_retries fun _ _ _ _ => nofun
  | @done length station sent silent =>
    have books := (Station.sameBooks_of_transmit sent).outcomes.trans same
    have written : station.record = m.station.record ++ [p.untried.transmission true] := by
      rw [← listened]
      exact Station.record_of_transmit sound sent
    have told : station.outcomes.push (p.outcome none) =
        m.station.outcomes.push (p.untried.outcome (refusal true)) :=
      congrArg (Fifo.push · (p.outcome none)) books
    exact .transmits turn content written (.inr told) fun _ => not_retries fun _ _ _ _ => nofun

theorem Acknowledged.Transition.effect {r : Except (LinkError ε) Bool}
    (taken : Transition now m r m')
    (sound : ∀ i p, m.outbox.contentAt? i = some p → p.descriptor.layoutError? = none) :
    Effect (.acknowledged m) (.acknowledged m') := by
  -- What does not listen cannot come to wait for the next attempt because of the radio.
  have resting {m' : Acknowledged (Recorder ρ) γ}
      (other : ∀ expiry busy, m.phase ≠ .backoff expiry busy) :
      ¬Retries (.acknowledged m) (.acknowledged m') :=
    not_retries fun expiry busy _ phase => absurd phase (other expiry busy)
  cases taken with
  | rest quiet early => exact .silent rfl (.inl rfl) (resting (by rw [quiet]; nofun))
  | start quiet started drawn =>
    exact .silent (Station.record_of_firstBackoff drawn)
      (.inl (Station.sameBooks_firstBackoff drawn).outcomes) (resting (by rw [quiet]; nofun))
  | deaf phase sensed =>
    refine .silent sensed.record_eq (.inl sensed.sameBooks.outcomes) (not_retries ?_)
    intro _ _ expiry' _ waits
    rw [show m.phase = .retryWait expiry' from waits] at phase
    cases phase
  | hold phase sensed =>
    exact .silent sensed.record_eq (.inl sensed.sameBooks.outcomes)
      (not_retries fun _ _ _ _ => nofun)
  | @attempt expiry busy station i p m' phase sensed found attempted =>
    have fits := sound i p.untried (Outbox.contentAt?_of_inFlight? found)
    exact attempted.effect sensed.sameBooks.outcomes sensed.record_eq found fits
  | await phase early => exact .silent rfl (.inl rfl) (resting (by rw [phase]; nofun))
  | timeout phase passed found setback =>
    obtain ⟨unwritten, told⟩ := setback.effect
    refine .silent unwritten (told.imp id fun pushed => ⟨_, pushed, ?_⟩)
      (resting (by rw [phase]; nofun))
    intro seq dst same
    cases same
  | pause phase early => exact .silent rfl (.inl rfl) (resting (by rw [phase]; nofun))
  | retry phase passed => exact .silent rfl (.inl rfl) (resting (by rw [phase]; nofun))

end Acknowledged

omit [RandomSource γ] in
theorem TimeSlot.effect_release (m : TimeSlot (Recorder ρ) γ) (now : Tick)
    (sound : ∀ p ∈ m.pending, p.descriptor.layoutError? = none) :
    Link.Effect (.timeSlot m) (.timeSlot (m.release (ε := ε) now)) := by
  have still (after : Link (Recorder ρ) γ) : ¬Retries (.timeSlot m) after := by
    rintro ⟨first, -⟩
    cases first
  have resting (same : m.release (ε := ε) now = m) :
      Link.Effect (.timeSlot m) (.timeSlot (m.release (ε := ε) now)) := by
    rw [same]
    exact .silent rfl (.inl rfl) (still _)
  cases waiting : m.pending with
  | none =>
    apply resting
    unfold release
    rw [waiting]
  | some p =>
    by_cases ready : m.isReady p now = true
    · obtain ⟨taken, station, released, same, record⟩ :=
        release_eq_of_ready (ε := ε) waiting ready (sound p waiting)
      have turn : (Link.timeSlot m).turn? = some 0 := by rw [turn?, waiting]; rfl
      have content : (Link.timeSlot m).outbox.contentAt? 0 = some p.untried := by
        have there := m.contentAt?_place 0
        rwa [if_pos rfl, waiting] at there
      have told : (station.emit (p.outcome (refusal taken))).outcomes =
          m.station.outcomes.push (p.outcome (refusal taken)) := by
        rw [Station.outcomes_emit, same.outcomes]
      rw [released]
      exact .transmits (p := p.untried) turn content record (.inr told) fun _ => still _
    · apply resting
      exact release_of_early waiting (by simpa using ready)

/-- Every step that a link takes while it is polled has such an effect, if the packets it holds can
    be laid out. -/
theorem Step.effect {before after : Link (Recorder ρ) γ} (step : Step now before after)
    (served : before.Served)
    (sound : ∀ i p, before.outbox.contentAt? i = some p → p.descriptor.layoutError? = none) :
    Effect before after := by
  obtain ⟨r, taken⟩ := step
  cases stepped_of_step taken with
  | passThrough m => exact .silent rfl (.inl rfl) (by rintro ⟨⟨⟩, -⟩)
  | carrierSense stepped => exact (CarrierSense.transition_of_step served stepped).effect sound
  | acknowledged stepped => exact (Acknowledged.transition_of_step served stepped).effect sound
  | timeSlot m =>
    apply m.effect_release now
    intro p waiting
    apply sound 0 p.untried
    have there := m.contentAt?_place 0
    rwa [if_pos rfl, show m.pending = some p from waiting] at there

end Recorded

end Link

end MoteLink
