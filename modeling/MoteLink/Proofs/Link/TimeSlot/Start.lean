import MoteLink.Proofs.Link.TimeSlot.Slots

/-!
# The start of a slot

A node finds out in two ways when it may send: by the slot that a tick lies in, and by the wait from
a tick to the next start of its slot. Where a whole frame of slots fits in front of the wrap of the
clock the two agree. So a node that sleeps until the deadline of a packet that waits misses nothing,
and when it wakes it can send.
-/

namespace MoteLink.Link

variable {ρ γ ε : Type}

namespace Config

/-- The first tick of the node's slot in the frame with this number. -/
def slotStart (c : Config) (frame : Nat) : Nat :=
  c.frameTime.toNat * frame + c.ownSlot.toNat * c.slotLength.toNat

/-- The tick `s` is the first one from `t` on that lies in the node's slot. The slot comes up within
    one frame, and if it has not begun at `t`, then it begins at `s`. -/
structure FirstOwn (c : Config) (t s : Tick) : Prop where
  not_before : t ≤ s
  own : c.inOwnSlot s = true
  least : ∀ t', t ≤ t' → c.inOwnSlot t' = true → s ≤ t'
  soon : s.toNat < t.toNat + c.frameTime.toNat
  begins : s = t ∨ s.toNat % c.frameTime.toNat = c.ownSlot.toNat * c.slotLength.toNat

theorem slotStart_mono (c : Config) {frame frame' : Nat} (later : frame ≤ frame') :
    c.slotStart frame ≤ c.slotStart frame' :=
  Nat.add_le_add_right (Nat.mul_le_mul_left _ later) _

variable {c : Config} {t : Tick}

theorem slot_of_inOwnSlot (own : c.inOwnSlot t = true) :
    c.slotStart (t.toNat / c.frameTime.toNat) ≤ t.toNat ∧
      t.toNat < c.slotStart (t.toNat / c.frameTime.toNat) + c.slotLength.toNat := by
  obtain ⟨begun, lasts⟩ := inSlot_iff.mp ⟨own, rfl⟩
  unfold slotStart
  omega

section Whole

variable (whole : c.slotLength.toNat * c.slotCount.toNat ≤ Tick.longest.toNat)
include whole

theorem toNat_frameTime : c.frameTime.toNat = c.slotLength.toNat * c.slotCount.toNat := by
  rw [frameTime, Tick.toNat_mulCapped, UInt16.toNat_toUInt32, Nat.min_eq_left whole]

/-- The node's slot ends with the frame at the latest. -/
theorem slot_le_frameTime :
    c.ownSlot.toNat * c.slotLength.toNat + c.slotLength.toNat ≤ c.frameTime.toNat := by
  rw [toNat_frameTime whole, Nat.mul_comm, ← Nat.mul_succ]
  exact Nat.mul_le_mul_left _ c.ownSlot_lt

theorem toNat_slotOffset : c.slotOffset.toNat = c.ownSlot.toNat * c.slotLength.toNat := by
  have slot := slot_le_frameTime whole
  have frame := c.frameTime.toNat_lt
  have longest : Tick.longest.toNat = 4294967295 := rfl
  rw [slotOffset, Tick.toNat_mulCapped, UInt16.toNat_toUInt32]
  omega

/-- A tick lies before the slot of its frame, in it, or past it. -/
theorem slotWait_cases (t : Tick) :
    (c.slotStart (t.toNat / c.frameTime.toNat) = t.toNat + (c.slotWait t).toNat ∧
      t.toNat < c.slotStart (t.toNat / c.frameTime.toNat)) ∨
    c.inOwnSlot t = true ∨
    (c.slotStart (t.toNat / c.frameTime.toNat + 1) = t.toNat + (c.slotWait t).toNat ∧
      c.slotStart (t.toNat / c.frameTime.toNat) + c.slotLength.toNat ≤ t.toNat) := by
  have slot := slot_le_frameTime whole
  have offset := toNat_slotOffset whole
  have some_length := c.slotLength_pos
  have position := Nat.div_add_mod t.toNat c.frameTime.toNat
  have within := Nat.mod_lt t.toNat c.frameTime_pos
  have frame := c.frameTime.toNat_lt
  have longest : Tick.longest.toNat = 4294967295 := rfl
  have ahead : t % c.frameTime < c.slotOffset ↔
      t.toNat % c.frameTime.toNat < c.ownSlot.toNat * c.slotLength.toNat := by
    rw [UInt32.lt_iff_toNat_lt, UInt32.toNat_mod, offset]
  unfold slotStart slotWait
  by_cases before : t.toNat % c.frameTime.toNat < c.ownSlot.toNat * c.slotLength.toNat
  · left
    have wait : (c.slotOffset - t % c.frameTime).toNat =
        c.slotOffset.toNat - t.toNat % c.frameTime.toNat := by
      rw [UInt32.toNat_sub_of_le _ _ (UInt32.le_of_lt (ahead.mpr before)), UInt32.toNat_mod]
    rw [if_pos (ahead.mpr before), wait, offset]
    omega
  right
  by_cases inside : t.toNat % c.frameTime.toNat <
      c.ownSlot.toNat * c.slotLength.toNat + c.slotLength.toNat
  · left
    rw [inOwnSlot_iff, Nat.div_eq_iff some_length]
    omega
  · right
    have wait : (Tick.addCapped (c.frameTime - t % c.frameTime) c.slotOffset).toNat =
        c.frameTime.toNat - t.toNat % c.frameTime.toNat + c.slotOffset.toNat := by
      have rest : (c.frameTime - t % c.frameTime).toNat =
          c.frameTime.toNat - t.toNat % c.frameTime.toNat := by
        rw [UInt32.toNat_sub_of_le, UInt32.toNat_mod]
        rw [UInt32.le_iff_toNat_le, UInt32.toNat_mod]
        omega
      rw [Tick.toNat_addCapped, rest, offset]
      omega
    rw [if_neg (fun first => before (ahead.mp first)), wait, offset, Nat.mul_succ]
    omega

theorem slotStart_mod (frame : Nat) :
    c.slotStart frame % c.frameTime.toNat = c.ownSlot.toNat * c.slotLength.toNat := by
  have slot := slot_le_frameTime whole
  have some_length := c.slotLength_pos
  rw [slotStart, Nat.mul_add_mod, Nat.mod_eq_of_lt (by omega)]

theorem inOwnSlot_of_slotStart {frame : Nat} (start : t.toNat = c.slotStart frame) :
    c.inOwnSlot t = true := by
  rw [inOwnSlot_iff, start, slotStart_mod whole, Nat.mul_div_cancel _ c.slotLength_pos]

/-- The start of the slot after which the wait ends is the first tick in the slot from `t` on. -/
theorem firstOwn_nextSlotStart (fits : t.toNat + c.frameTime.toNat ≤ Tick.longest.toNat) :
    c.FirstOwn t (c.nextSlotStart t) := by
  have slot := slot_le_frameTime whole
  have longest : Tick.longest.toNat = 4294967295 := rfl
  -- A later start of the slot is reached without a wrap of the clock.
  have of_start {frame : Nat} (outside : ¬c.inOwnSlot t = true)
      (start : c.slotStart frame = t.toNat + (c.slotWait t).toNat)
      (soon : c.slotStart frame < t.toNat + c.frameTime.toNat)
      (least : ∀ t', t ≤ t' → c.inOwnSlot t' = true → c.slotStart frame ≤ t'.toNat) :
      c.FirstOwn t (c.nextSlotStart t) := by
    have reached : (c.nextSlotStart t).toNat = c.slotStart frame := by
      rw [nextSlotStart, if_neg outside, UInt32.toNat_add, start]
      exact Nat.mod_eq_of_lt (by omega)
    constructor
    case not_before => exact UInt32.le_iff_toNat_le.mpr (by omega)
    case own => exact inOwnSlot_of_slotStart whole reached
    case least =>
      intro t' later own
      exact UInt32.le_iff_toNat_le.mpr (reached ▸ least t' later own)
    case soon => exact reached ▸ soon
    case begins => exact .inr (reached ▸ slotStart_mod whole frame)
  by_cases own : c.inOwnSlot t = true
  · rw [nextSlotStart, if_pos own]
    exact ⟨UInt32.le_refl t, own, fun t' later _ => later, Nat.lt_add_of_pos_right c.frameTime_pos,
      .inl rfl⟩
  have position := Nat.div_add_mod t.toNat c.frameTime.toNat
  have within := Nat.mod_lt t.toNat c.frameTime_pos
  have some_length := c.slotLength_pos
  have not_earlier {t' : Tick} (later : t ≤ t') :
      t.toNat / c.frameTime.toNat ≤ t'.toNat / c.frameTime.toNat :=
    Nat.div_le_div_right (UInt32.le_iff_toNat_le.mp later)
  rcases slotWait_cases whole t with ⟨start, before⟩ | inside | ⟨start, past⟩
  · refine of_start own start (by unfold slotStart; omega) ?_
    intro t' later own'
    exact (c.slotStart_mono (not_earlier later)).trans (slot_of_inOwnSlot own').1
  · exact absurd inside own
  · refine of_start own start (by unfold slotStart at past ⊢; rw [Nat.mul_succ]; omega) ?_
    intro t' later own'
    obtain ⟨begun, lasts⟩ := slot_of_inOwnSlot own'
    have next : t.toNat / c.frameTime.toNat + 1 ≤ t'.toNat / c.frameTime.toNat := by
      apply Nat.lt_of_le_of_ne (not_earlier later)
      intro same
      have := UInt32.le_iff_toNat_le.mp later
      rw [← same] at lasts
      omega
    exact (c.slotStart_mono next).trans begun

end Whole

/-- In real time, of which the clock shows the rest modulo `2 ^ 32`. -/
theorem FirstOwn.exists_time {time : Nat} {s : Tick} (first : c.FirstOwn (.ofNat time) s) :
    ∃ due, s = .ofNat due ∧ time ≤ due ∧ due < time + c.frameTime.toNat ∧
      ∀ other, time ≤ other → other < due → c.inOwnSlot (.ofNat other) = false := by
  have later := UInt32.le_iff_toNat_le.mp first.not_before
  have soon := first.soon
  have tick := s.toNat_lt
  rw [UInt32.toNat_ofNat'] at later soon
  refine ⟨time + (s.toNat - time % 2 ^ 32), ?_, Nat.le_add_right _ _, by omega, ?_⟩
  · apply UInt32.toNat_inj.mp
    rw [UInt32.toNat_ofNat']
    omega
  · intro other begun early
    have shown : (UInt32.ofNat other).toNat = time % 2 ^ 32 + (other - time) := by
      rw [UInt32.toNat_ofNat']
      omega
    rw [← Bool.not_eq_true]
    intro own
    have reached := UInt32.le_iff_toNat_le.mp (first.least _ ?_ own)
    · omega
    · rw [UInt32.le_iff_toNat_le, shown, UInt32.toNat_ofNat']
      exact Nat.le_add_right _ _

end Config

namespace TimeSlot

variable {m m' : TimeSlot ρ γ} {p : Packet}

/-- In real time the slot is sought from the packet's send time on, and from `now` on. -/
theorem nextDeadline_eq {now sendAt : Nat} (waiting : m.pending = some p)
    (asked : p.descriptor.sendAt = .ofNat sendAt) (near : now < sendAt + 0x80000000)
    (ahead : sendAt < now + 0x80000000) :
    m.nextDeadline (.ofNat now) =
      some (m.station.config.nextSlotStart (.ofNat (max now sendAt))) := by
  have sought : (if Tick.hasReached p.descriptor.sendAt (.ofNat now) = true then .ofNat now
      else p.descriptor.sendAt) = UInt32.ofNat (max now sendAt) := by
    rw [asked]
    by_cases passed : sendAt ≤ now
    · rw [if_pos ((Tick.hasReached_iff near ahead).mpr passed), Nat.max_eq_left passed]
    · rw [if_neg fun reached => passed ((Tick.hasReached_iff near ahead).mp reached),
        Nat.max_eq_right (Nat.le_of_not_le passed)]
  rw [nextDeadline, waiting, Option.map_some]
  exact congrArg (some ∘ m.station.config.nextSlotStart) sought

variable [Transceiver ρ ε] [RandomSource γ]

/-- What waits at a time-slot link can be laid out, whatever is asked of the link. -/
theorem sound_of_perform {now : Tick} {call : Call} {answer : Answer ε}
    (sound : ∀ p ∈ m.pending, p.descriptor.layoutError? = none)
    (performed : (Link.timeSlot m).perform now call = .ok (answer, .timeSlot m')) :
    ∀ p ∈ m'.pending, p.descriptor.layoutError? = none := by
  have submitted (d : Descriptor) (payload : Bytes) :
      ∀ p ∈ (m.submit (ε := ε) d payload).2.pending, p.descriptor.layoutError? = none := by
    unfold submit
    split
    · exact sound
    · split <;> rename_i prepared
      · exact sound
      · obtain ⟨seq, headerLength, rfl, encoded, -⟩ := Station.prepare_eq_ok prepared
        rintro _ ⟨⟩
        exact (Descriptor.encodedLength_eq_ok_iff.mp encoded).1
  cases call with
  | send dst payload =>
    cases performed
    exact submitted _ payload
  | submit d payload =>
    cases performed
    exact submitted d payload
  | receive frame =>
    cases performed
    exact sound
  | poll =>
    cases performed
    show ∀ p ∈ (m.release (ε := ε) now).pending, p.descriptor.layoutError? = none
    unfold release
    split
    · exact sound
    · split
      · split <;> exact fun _ => nofun
      · exact sound
  | cancel seq =>
    cases performed
    show ∀ p ∈ (m.cancel seq).2.pending, p.descriptor.layoutError? = none
    unfold cancel
    split
    · exact fun _ => nofun
    · exact sound

theorem sound_of_run {capacity : Nat} {config : Config} {radio : ρ} {rng : γ}
    {history : List (Event ρ ε)} (run : Run (.new .timeSlot capacity config radio rng) history
      (.timeSlot m)) : ∀ p ∈ m.pending, p.descriptor.layoutError? = none := by
  have kept := run.invariant
    (fun link => ∃ m : TimeSlot ρ γ, link = .timeSlot m ∧
      ∀ p ∈ m.pending, p.descriptor.layoutError? = none)
    ⟨_, rfl, fun _ => nofun⟩ ?_ ?_
  · obtain ⟨_, ⟨⟩, sound⟩ := kept
    exact sound
  · rintro _ radio ⟨m, rfl, sound⟩
    exact ⟨_, rfl, sound⟩
  · rintro _ now call answer after ⟨m, rfl, sound⟩ performed
    obtain ⟨m', rfl, -⟩ := config_of_perform performed
    exact ⟨m', rfl, sound_of_perform sound performed⟩

/-- The next start of the slot is the first tick in the slot from the given one on, where a whole
    frame fits in front of the wrap of the clock. So a packet that waits goes out at the deadline
    that the link names at `now`, and not earlier. Times are real ones, of which the clock shows the
    rest modulo `2 ^ 32`, and the link has come to its state by any calls. -/
theorem poll_of_nextSlotStart {config : Config}
    (whole : config.slotLength.toNat * config.slotCount.toNat ≤ Tick.longest.toNat) :
    (∀ t : Tick, t.toNat + config.frameTime.toNat ≤ Tick.longest.toNat →
      config.FirstOwn t (config.nextSlotStart t)) ∧
    ∀ {capacity : Nat} {radio : ρ} {rng : γ} {history : List (Event ρ ε)} {m : TimeSlot ρ γ}
      {p : Packet} {now sendAt : Nat},
      Run (.new .timeSlot capacity config radio rng) history (.timeSlot m) → m.pending = some p →
      p.descriptor.sendAt = .ofNat sendAt →
      now < sendAt + 0x80000000 → sendAt < now + 0x80000000 →
      max now sendAt % 2 ^ 32 + config.frameTime.toNat ≤ Tick.longest.toNat →
      ∃ due, (Link.timeSlot m).nextDeadline (.ofNat now) = some (.ofNat due) ∧
        max now sendAt ≤ due ∧ due < max now sendAt + config.frameTime.toNat ∧
        ∀ found : ρ,
          (∀ time, now ≤ time → time < due → ∃ result m',
            ((Link.timeSlot m).setRadio found).perform (ε := ε) (.ofNat time) .poll =
              .ok (.polled result, .timeSlot m') ∧
              m'.pending = some p ∧ m'.station.radio = found) ∧
          (due < sendAt + 0x80000000 → ∃ result m',
            ((Link.timeSlot m).setRadio found).perform (ε := ε) (.ofNat due) .poll =
              .ok (.polled result, .timeSlot m') ∧
              m'.pending = none ∧ m'.station.radio =
                (Transceiver.send found p.descriptor.headerBytes p.payload).2) := by
  refine ⟨fun t => Config.firstOwn_nextSlotStart whole, ?_⟩
  intro capacity radio rng history m p now sendAt run waiting asked near ahead fits
  obtain ⟨_, ⟨⟩, rfl⟩ := config_of_run run
  have first := Config.firstOwn_nextSlotStart whole
    ((congrArg (· + _) UInt32.toNat_ofNat').trans_le fits)
  obtain ⟨due, named, later, soon, outside⟩ := first.exists_time
  refine ⟨due, (nextDeadline_eq waiting asked near ahead).trans (congrArg some named), later, soon,
    fun found => ?_⟩
  let asleep : TimeSlot ρ γ := { m with station := { m.station with radio := found } }
  have stored : asleep.pending = some p := waiting
  constructor
  · intro time begun early
    have unready : asleep.isReady p (.ofNat time) = false := by
      rw [isReady, asked, Bool.and_eq_false_iff]
      by_cases passed : sendAt ≤ time
      · exact .inr (outside time (Nat.max_le.mpr ⟨begun, passed⟩) early)
      · left
        rw [← Bool.not_eq_true, Tick.hasReached_iff (by omega) (by omega)]
        exact passed
    have kept := release_of_early (ε := ε) stored unready
    refine ⟨_, (asleep.poll (ε := ε) (.ofNat time)).2, rfl, ?_, ?_⟩
    · exact (congrArg pending kept).trans stored
    · exact congrArg (fun m => m.station.radio) kept
  · intro close
    have ready : asleep.isReady p (.ofNat due) = true := by
      rw [isReady, asked, Bool.and_eq_true]
      refine ⟨(Tick.hasReached_iff (by omega) (by omega)).mpr (by omega), ?_⟩
      exact named ▸ first.own
    obtain ⟨gone, handed⟩ :=
      release_of_ready (ε := ε) stored ready (sound_of_run run p waiting)
    exact ⟨_, (asleep.poll (ε := ε) (.ofNat due)).2, rfl, gone, handed⟩

/-- A packet is to be sent 25 ticks after the clock has wrapped. The slot of the first frame is over
    then, and the packet goes out when the next one begins. -/
theorem poll_of_nextSlotStart_wrapped :
    ∃ (history : List (Event Bench BenchError)) (m : TimeSlot Bench StepGenerator) (p : Packet),
      Run (.new .timeSlot 1 { address := .short 1 } {} ⟨0, 0⟩) history (.timeSlot m) ∧
      m.pending = some p ∧ p.descriptor.sendAt = .ofNat 4294967321 ∧
      m.station.config.FirstOwn 25 110 ∧
      (Link.timeSlot m).nextDeadline (.ofNat 4294967276) = some (.ofNat 4294967406) ∧
      (∃ result m', (Link.timeSlot m).perform (ε := BenchError) (.ofNat 4294967310) .poll =
        .ok (.polled result, .timeSlot m') ∧ m'.pending = some p ∧
          m'.station.radio = m.station.radio) ∧
      ∃ result m', (Link.timeSlot m).perform (ε := BenchError) (.ofNat 4294967406) .poll =
        .ok (.polled result, .timeSlot m') ∧ m'.pending = none := by
  have run : Run (ε := BenchError) (.new .timeSlot 1 { address := .short 1 } ({} : Bench)
      (⟨0, 0⟩ : StepGenerator)) _ (.timeSlot _) :=
    run_of_replay [(.ofNat 4294967276, id,
      .submit { dst := .short 2, sendAt := 25, flags := { isLocal := true } } [7])] rfl
  have whole : (Config.slotLength { address := .short 1 }).toNat *
      (Config.slotCount { address := .short 1 }).toNat ≤ Tick.longest.toNat := by decide
  obtain ⟨first, polls⟩ :=
    poll_of_nextSlotStart (ρ := Bench) (γ := StepGenerator) (ε := BenchError) whole
  have before : 4294967276 < 4294967321 + 0x80000000 := by decide
  obtain ⟨due, named, later, soon, found⟩ :=
    polls run rfl (rfl : _ = UInt32.ofNat 4294967321) before (by decide) (by decide)
  have begins : due = 4294967406 := by
    have same : UInt32.ofNat due = 110 := (Option.some.inj named).symm
    have shown := congrArg UInt32.toNat same
    rw [UInt32.toNat_ofNat'] at shown
    have : (110 : UInt32).toNat = 110 := rfl
    have frame : (Config.frameTime { address := .short 1 }).toNat = 100 := rfl
    omega
  subst begins
  obtain ⟨waits, sends⟩ := found {}
  obtain ⟨result, m', sent, gone, -⟩ := sends (by decide)
  exact ⟨_, _, _, run, rfl, rfl, first 25 (by decide), named, waits 4294967310 (by decide)
    (by decide), result, m', sent, gone⟩

end TimeSlot

end MoteLink.Link
