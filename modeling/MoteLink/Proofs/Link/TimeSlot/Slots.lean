import MoteLink.Proofs.Link.TimeSlot.CallLog

/-!
# Packets in one slot

In each frame of slots a node's own slot is a stretch of consecutive ticks. Of the packets that a
link has accepted before its slot begins it transmits one at most. But nothing keeps it from
accepting the next packet while the slot lasts, and then that one goes out in the same slot.
-/

namespace MoteLink.Link

variable {ρ γ ε : Type}

/-! ## Slots -/

namespace Config

variable {c : Config} {frame : Nat} {t first last : Tick}

/-- The tick lies in this node's slot of the frame with this number. -/
def InSlot (c : Config) (frame : Nat) (t : Tick) : Prop :=
  c.inOwnSlot t = true ∧ t.toNat / c.frameTime.toNat = frame

instance (c : Config) (frame : Nat) (t : Tick) : Decidable (c.InSlot frame t) :=
  inferInstanceAs (Decidable (_ ∧ _))

theorem inOwnSlot_iff :
    c.inOwnSlot t = true ↔ t.toNat % c.frameTime.toNat / c.slotLength.toNat = c.ownSlot.toNat := by
  rw [inOwnSlot, beq_iff_eq, ← UInt32.toNat_inj, UInt32.toNat_div, UInt32.toNat_mod,
    UInt16.toNat_toUInt32]

/-- A slot is a stretch of consecutive ticks, which ends with its frame at the latest. -/
theorem inSlot_iff :
    c.InSlot frame t ↔
      c.frameTime.toNat * frame + c.ownSlot.toNat * c.slotLength.toNat ≤ t.toNat ∧
        t.toNat < c.frameTime.toNat * frame +
          min (c.ownSlot.toNat * c.slotLength.toNat + c.slotLength.toNat) c.frameTime.toNat := by
  have whole := Nat.div_add_mod t.toNat c.frameTime.toNat
  have within := Nat.mod_lt t.toNat c.frameTime_pos
  have slot := c.slotLength_pos
  rw [InSlot, inOwnSlot_iff, Nat.div_eq_iff slot]
  constructor
  · rintro ⟨inside, rfl⟩
    omega
  · rintro ⟨begun, lasts⟩
    have same : t.toNat / c.frameTime.toNat = frame := by
      apply Nat.div_eq_of_lt_le
      · rw [Nat.mul_comm]
        omega
      · rw [Nat.mul_comm, Nat.mul_succ]
        omega
    rw [same] at whole
    exact ⟨by omega, same⟩

theorem InSlot.between (left : c.InSlot frame first) (right : c.InSlot frame last)
    (later : first ≤ t) (earlier : t ≤ last) : c.InSlot frame t := by
  rw [UInt32.le_iff_toNat_le] at later earlier
  rw [inSlot_iff] at left right ⊢
  omega

end Config

/-! ## Packets accepted between two transmissions -/

/-- The packets handed to the radio, in the order in which they were. -/
def handedIn (log : List (Nat × Incident)) : List Packet := log.filterMap fun e => e.2.handed?

/-- What the log tells of a node's slot in one frame. -/
def during (c : Config) (frame : Nat) (log : List (Nat × Incident)) : List (Nat × Incident) :=
  log.filter fun e => decide (c.InSlot frame (.ofNat e.1))

/-- After a packet has been handed to the radio another one is accepted, and then it is handed to
    the radio as well. -/
def Refilled (log : List (Nat × Incident)) : Prop :=
  ∃ t p taken s t' q taken',
    [(t, Incident.handed p taken), (s, .accepted q), (t', .handed q taken')].Sublist log

/-- Of two hand-overs one comes first. -/
theorem exists_of_two_handed {log : List (Nat × Incident)} (twice : 2 ≤ (handedIn log).length) :
    ∃ t p taken t' q taken',
      [(t, Incident.handed p taken), (t', .handed q taken')].Sublist log := by
  have handed {entry : Nat × Incident} {p : Packet} (shown : entry.2.handed? = some p) :
      ∃ t taken, entry = (t, .handed p taken) := by
    obtain ⟨t, incident⟩ := entry
    cases incident <;> cases shown
    exact ⟨t, _, rfl⟩
  match packets : handedIn log, twice with
  | p :: q :: rest, _ =>
    obtain ⟨_, first, later, rfl, -, shown, next⟩ := List.filterMap_eq_cons_iff.mp packets
    obtain ⟨_, second, _, rfl, -, shown', -⟩ := List.filterMap_eq_cons_iff.mp next
    obtain ⟨t, taken, rfl⟩ := handed shown
    obtain ⟨t', taken', rfl⟩ := handed shown'
    refine ⟨t, p, taken, t', q, taken', ?_⟩
    apply (List.Sublist.refl _).trans (List.sublist_append_of_sublist_right _)
    apply List.Sublist.cons_cons
    exact List.singleton_sublist.mpr (List.mem_append_right _ List.mem_cons_self)

theorem Refilled.two_le {log : List (Nat × Incident)} (refilled : Refilled log) :
    2 ≤ (handedIn log).length := by
  obtain ⟨t, p, taken, s, t', q, taken', three⟩ := refilled
  exact (three.filterMap fun e => e.2.handed?).length_le

/-- Two elements of a list in their order, where the list has one more at its end. -/
theorem pair_sublist_concat {α : Type} {x y e : α} {l : List α} :
    [x, y].Sublist (l ++ [e]) ↔ [x, y].Sublist l ∨ x ∈ l ∧ y = e := by
  constructor
  · intro pair
    obtain ⟨first, second, whole, left, right⟩ := List.sublist_append_iff.mp pair
    rcases List.sublist_singleton.mp right with rfl | rfl
    · rw [List.append_nil] at whole
      exact .inl (whole ▸ left)
    · obtain ⟨rfl, same⟩ := List.append_inj' (show [x] ++ [y] = first ++ [e] from whole) rfl
      exact .inr ⟨List.singleton_sublist.mp left, List.head_eq_of_cons_eq same⟩
  · rintro (pair | ⟨member, rfl⟩)
    · exact pair.trans (List.sublist_append_left l [e])
    · exact (List.singleton_sublist.mpr member).append (.refl [y])

namespace TimeSlot

/-- Since each hand-over a packet has been accepted that waits, or that has been handed over
    next. -/
structure Alternates (log : List (Nat × Incident)) (waiting : Option Packet) : Prop where
  entered : ∀ q ∈ waiting, ∀ t p taken, (t, Incident.handed p taken) ∈ log →
    ∃ s, [(t, Incident.handed p taken), (s, .accepted q)].Sublist log
  between : ∀ t p taken t' q taken',
    [(t, Incident.handed p taken), (t', .handed q taken')].Sublist log →
    ∃ s, [(t, Incident.handed p taken), (s, .accepted q), (t', .handed q taken')].Sublist log

namespace Alternates

variable {log : List (Nat × Incident)} {waiting : Option Packet} {time : Nat} {incident : Incident}

/-- An incident that neither accepts nor hands over a packet. -/
theorem pass (alternates : Alternates log waiting) (time : Nat) (silent : incident.handed? = none) :
    Alternates (log ++ [(time, incident)]) waiting := by
  have longer := List.sublist_append_left log [(time, incident)]
  constructor
  case entered =>
    intro q waits t p taken member
    rcases List.mem_append.mp member with there | last
    · obtain ⟨s, pair⟩ := alternates.entered q waits t p taken there
      exact ⟨s, pair.trans longer⟩
    · cases List.mem_singleton.mp last
      cases silent
  case between =>
    intro t p taken t' q taken' pair
    rcases pair_sublist_concat.mp pair with there | ⟨-, last⟩
    · obtain ⟨s, three⟩ := alternates.between t p taken t' q taken' there
      exact ⟨s, three.trans longer⟩
    · cases last
      cases silent

theorem forget (alternates : Alternates log waiting) : Alternates log none :=
  ⟨fun _ => nofun, alternates.between⟩

theorem accept (alternates : Alternates log none) (time : Nat) (p : Packet) :
    Alternates (log ++ [(time, .accepted p)]) (some p) := by
  refine ⟨?_, (alternates.pass time rfl).between⟩
  rintro _ ⟨⟩ t q taken member
  refine ⟨time, pair_sublist_concat.mpr (.inr ⟨?_, rfl⟩)⟩
  rcases List.mem_append.mp member with there | last
  · exact there
  · cases List.mem_singleton.mp last

theorem hand {p : Packet} (alternates : Alternates log (some p)) (time : Nat) (taken : Bool) :
    Alternates (log ++ [(time, .handed p taken)]) none := by
  have longer := List.sublist_append_left log [(time, .handed p taken)]
  refine ⟨fun _ => nofun, ?_⟩
  intro t q taken' t' q' taken'' pair
  rcases pair_sublist_concat.mp pair with there | ⟨member, last⟩
  · obtain ⟨s, three⟩ := alternates.between t q taken' t' q' taken'' there
    exact ⟨s, three.trans longer⟩
  · cases last
    obtain ⟨s, entered⟩ := alternates.entered p rfl t q taken' member
    exact ⟨s, entered.append (.refl [_])⟩

end Alternates

theorem Effect.alternates {home : TimeSlot ρ γ} {now : Tick} {call : Call} {answer : Answer ε}
    {entries : List Entry} {waiting waiting' : Option Packet} {log : List (Nat × Incident)}
    (effect : Effect home now call answer waiting entries waiting') (time : Nat)
    (alternates : Alternates log waiting) :
    Alternates (log ++ stamp time (incidentsOf entries)) waiting' := by
  cases effect with
  | accept => exact alternates.accept time _
  | refuse | receive | wait | miss => exact (List.append_nil log).symm ▸ alternates
  | @transmit p taken reached own =>
    have handed := (alternates.hand time taken).pass time
      (show (Incident.ended p (refusal taken)).handed? = none from rfl)
    rwa [List.append_assoc] at handed
  | withdraw p => exact (alternates.pass time rfl).forget

section Runs

variable [Transceiver ρ ε] [RandomSource γ] {start m : TimeSlot (Recorder ρ) γ}
  {records : List (CallRecord (Recorder ρ) ε Entry)}

theorem CallLog.alternates (log : CallLog start records m) (vacant : start.pending = none) :
    Alternates (timeline records) m.pending := by
  induction log with
  | nil =>
    rw [vacant]
    exact ⟨fun _ => nofun, fun _ _ _ _ _ _ pair => nomatch pair⟩
  | snoc earlier last ih =>
    rw [timeline_concat]
    exact last.effect.alternates _ ih

theorem CallLog.times_eq (log : CallLog start records m) :
    records.map CallRecord.time =
      (records.map CallRecord.event).map fun event => event.now.toNat := by
  induction log with
  | nil => rfl
  | snoc earlier last ih =>
    rw [List.map_append, ih, List.map_append, List.map_append, List.map_singleton, last.clock]
    rfl

/-- The times of the log are ticks, which do not go back where the clock does not. -/
theorem CallLog.pairwise (log : CallLog start records m)
    (steady : ((records.map CallRecord.event).map Event.now).Pairwise (· ≤ ·)) :
    (timeline records).Pairwise fun a b => a.1 ≤ b.1 := by
  apply pairwise_timeline
  rw [log.times_eq]
  rw [List.pairwise_map] at steady ⊢
  exact steady.imp fun later => UInt32.le_iff_toNat_le.mp later

theorem CallLog.lt_of_mem (log : CallLog start records m) {entry : Nat × Incident}
    (member : entry ∈ timeline records) : entry.1 < 2 ^ 32 := by
  obtain ⟨record, among, same, -⟩ := mem_timeline.mp member
  have time : record.time ∈ records.map CallRecord.time := List.mem_map_of_mem among
  rw [log.times_eq, List.mem_map] at time
  obtain ⟨event, -, tick⟩ := time
  rw [← same, ← tick]
  exact event.now.toNat_lt

end Runs

/-- What lies between two entries of a slot belongs to the slot. -/
theorem refilled_of_two_handed {c : Config} {frame : Nat} {log : List (Nat × Incident)}
    {waiting : Option Packet} (alternates : Alternates log waiting)
    (sorted : log.Pairwise fun a b => a.1 ≤ b.1) (ticks : ∀ entry ∈ log, entry.1 < 2 ^ 32)
    (twice : 2 ≤ (handedIn (during c frame log)).length) : Refilled (during c frame log) := by
  obtain ⟨t, p, taken, t', q, taken', pair⟩ := exists_of_two_handed twice
  obtain ⟨s, three⟩ :=
    alternates.between t p taken t' q taken' (pair.trans List.filter_sublist)
  have inside : ∀ entry ∈ [(t, Incident.handed p taken), (t', .handed q taken')],
      c.InSlot frame (.ofNat entry.1) := by
    intro entry member
    have kept := (List.mem_filter.mp (pair.subset member)).2
    exact of_decide_eq_true kept
  have left := inside _ List.mem_cons_self
  have right := inside _ (List.mem_cons_of_mem _ List.mem_cons_self)
  have middle : c.InSlot frame (.ofNat s) := by
    have ordered := sorted.sublist three
    have small (entry : Nat × Incident)
        (member : entry ∈
          [(t, Incident.handed p taken), (s, .accepted q), (t', .handed q taken')]) :
        entry.1 < UInt32.size := ticks entry (three.subset member)
    simp only [List.pairwise_cons, List.forall_mem_cons] at ordered small
    refine left.between right ?_ ?_
    · rw [UInt32.le_iff_toNat_le, UInt32.toNat_ofNat_of_lt' small.1,
        UInt32.toNat_ofNat_of_lt' small.2.1]
      exact ordered.1.1
    · rw [UInt32.le_iff_toNat_le, UInt32.toNat_ofNat_of_lt' small.2.1,
        UInt32.toNat_ofNat_of_lt' small.2.2.1]
      exact ordered.2.1.1
  refine ⟨t, p, taken, s, t', q, taken', ?_⟩
  have kept := three.filter fun e => decide (c.InSlot frame (.ofNat e.1))
  rwa [List.filter_eq_self.mpr] at kept
  simp only [List.forall_mem_cons, decide_eq_true_eq]
  exact ⟨left, middle, right, List.forall_mem_nil _⟩

variable [Transceiver ρ ε] [RandomSource γ]

/-- Under a clock that does not go back, a node hands over more than one packet in a slot if and
    only if it accepts one in that slot after it has handed one over, and hands that one over as
    well. -/
theorem handed_once_iff_of_recording {capacity : Nat} {config : Config} {radio : ρ} {rng : γ}
    {history : List (Event (Recorder ρ) ε)} {link : Link (Recorder ρ) γ}
    (recording : Recording (.new .timeSlot capacity config ⟨radio, []⟩ rng) history link)
    (steady : (history.map Event.now).Pairwise (· ≤ ·)) :
    ∃ m records, link = .timeSlot m ∧ records.map CallRecord.event = history ∧
      CallLog (fresh config ⟨radio, []⟩ rng) records m ∧
      ∀ frame, (handedIn (during config frame (timeline records))).length ≤ 1 ↔
        ¬Refilled (during config frame (timeline records)) := by
  obtain ⟨m, records, rfl, rfl, log⟩ := log_of_recording recording
  refine ⟨m, records, rfl, rfl, log, ?_⟩
  intro frame
  constructor
  · intro once refilled
    have twice := refilled.two_le
    omega
  · intro unfilled
    by_contra more
    have twice : 2 ≤ (handedIn (during config frame (timeline records))).length := by omega
    exact unfilled (refilled_of_two_handed (log.alternates rfl) (log.pairwise steady)
      (fun _ => log.lt_of_mem) twice)

/-- A packet is sent in the slot of ticks 10 to 19, and another one in the next frame. -/
theorem handed_once_iff_of_recording_next_frame :
    ∃ (history : List (Event (Recorder Bench) BenchError))
      (m : TimeSlot (Recorder Bench) StepGenerator)
      (records : List (CallRecord (Recorder Bench) BenchError Entry)),
      history.map Event.now = [10, 10, 20, 110] ∧ m.station.record.length = 2 ∧
        records.map CallRecord.event = history ∧
        CallLog (fresh { address := .short 1 } ⟨{}, []⟩ ⟨0, 0⟩) records m ∧
        ((handedIn (during { address := .short 1 } 0 (timeline records))).length ≤ 1 ↔
          ¬Refilled (during { address := .short 1 } 0 (timeline records))) := by
  have recording : Recording (ε := BenchError)
      (.new .timeSlot 1 { address := .short 1 } ⟨({} : Bench), []⟩ (⟨0, 0⟩ : StepGenerator)) _
      (.timeSlot _) :=
    recording_of_replay [(10, id, .send (.short 2) [7]), (10, id, .poll),
      (20, id, .send (.short 2) [8]), (110, id, .poll)] rfl
  obtain ⟨m, records, same, events, log, exactly⟩ :=
    handed_once_iff_of_recording recording (by decide)
  cases same
  exact ⟨_, _, records, rfl, rfl, events, log, exactly 0⟩

/-- A call that finds the radio as the link has left it. -/
theorem CallLog.call {start m m' : TimeSlot (Recorder ρ) γ}
    {records : List (CallRecord (Recorder ρ) ε Entry)} {answer : Answer ε} {entries : List Entry}
    (log : CallLog start records m) (now : Tick) (what : Call)
    (performed : (Link.timeSlot m).perform now what = .ok (answer, .timeSlot m'))
    (effect : Effect start now what answer m.pending entries m'.pending)
    (told : m'.station.record =
      m.station.record ++ (incidentsOf entries).filterMap Incident.transmission?) :
    CallLog start (records ++ [⟨⟨now, m.station.radio, what, answer⟩, now.toNat, entries⟩]) m' :=
  log.snoc ⟨rfl, rfl, performed, effect, told⟩

/-- Two packets are sent at tick 10, one after the other. -/
theorem handed_twice_in_slot :
    ∃ (m : TimeSlot (Recorder Bench) StepGenerator)
      (records : List (CallRecord (Recorder Bench) BenchError Entry)),
      CallLog (fresh { address := .short 1 } ⟨{}, []⟩ ⟨0, 0⟩) records m ∧
        (records.map fun record => record.event.now) = [10, 10, 10, 10] ∧
        ¬(handedIn (during { address := .short 1 } 0 (timeline records))).length ≤ 1 := by
  have quiet : CallLog (ε := BenchError) (fresh { address := .short 1 } ⟨({} : Bench), []⟩
      (⟨0, 0⟩ : StepGenerator)) [] _ := .nil
  have asked := quiet.call 10 (.send (.short 2) [7]) rfl (.accept rfl rfl) rfl
  have sent := asked.call 10 .poll rfl (.transmit true rfl rfl) rfl
  have again := sent.call 10 (.send (.short 2) [8]) rfl (.accept rfl rfl) rfl
  have last := again.call 10 .poll rfl (.transmit true rfl rfl) rfl
  exact ⟨_, _, last, rfl, by decide⟩

end TimeSlot

end MoteLink.Link
