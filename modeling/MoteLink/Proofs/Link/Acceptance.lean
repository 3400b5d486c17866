import MoteLink.Proofs.Link.Serving
import MoteLink.Radio.Bench

/-!
# When a packet is accepted

A link that keeps packets looks at the addresses of a new one, gives it a number, counts its header,
compares the frame with the longest one and only then looks for a place. With time slots the place
comes first. A packet is refused for the first of these that speaks against it, and then a sequence
number may be used up and nothing else has changed.
-/

namespace MoteLink

namespace Link

variable {ρ γ ε : Type}

namespace Outbox

/-- The outbox with one more packet. -/
def fill (o : Outbox) (i : Nat) (p : Packet) : Outbox where
  slots := o.slots.set i (.queued { p with ticket := o.nextTicket })
  nextTicket := o.nextTicket + 1

variable {o : Outbox} {p : Packet}

theorem fill_of_accept {i : Nat} {o' : Outbox} (accepted : o.accept p = .ok (i, o')) :
    o.slots[i]? = some .idle ∧ o' = o.fill i p := by
  obtain ⟨replaced, ticket⟩ := accept_eq_ok accepted
  refine ⟨replaced.found, ?_⟩
  rw [fill, ← replaced.changed, ← ticket]

theorem not_idle_of_accept {q : Packet} (refused : o.accept p = .error q) : .idle ∉ o.slots := by
  intro idle
  have taken := List.countP_eq_length.mp (accept_eq_error refused).2 _ idle
  cases taken

end Outbox

/-- There is a place for one more packet. -/
def HasPlace : Link ρ γ → Prop
  | .passThrough _ => False
  | .carrierSense m => .idle ∈ m.outbox.slots
  | .acknowledged m => .idle ∈ m.outbox.slots
  | .timeSlot m => m.pending = none

/-- The packet goes to an idle place. But for this and for the station nothing changes. -/
inductive Enters (s : Station ρ γ) (p : Packet) : Link ρ γ → Link ρ γ → Prop
  | carrierSense {m : CarrierSense ρ γ} {i : Nat} (idle : m.outbox.slots[i]? = some .idle) :
      Enters s p (.carrierSense m)
        (.carrierSense { m with station := s, outbox := m.outbox.fill i p })
  | acknowledged {m : Acknowledged ρ γ} {i : Nat} (idle : m.outbox.slots[i]? = some .idle) :
      Enters s p (.acknowledged m)
        (.acknowledged { m with station := s, outbox := m.outbox.fill i p })
  | timeSlot {m : TimeSlot ρ γ} (idle : m.pending = none) :
      Enters s p (.timeSlot m) (.timeSlot { station := s, pending := some p })

variable (link : Link ρ γ) (d : Descriptor) (payload : Bytes)

/-- The reason to refuse the packet is there. The radio has no say in it. -/
def Applies : LinkError ε → Prop
  | .queueFull => ¬link.HasPlace
  | .payloadTooLong => ∃ n, (link.station.numbered d).encodedLength = .ok n ∧
      min link.station.config.bufferSize maxFrameLength < n + payload.length
  | .invalidAddress => link.station.Shuns d
  | .header e => (link.station.numbered d).encodedLength = .error e
  | .radio _ => False

/-- Where a reason stands among the others. -/
def rank : LinkError ε → Nat
  | .queueFull => if link.method = .timeSlot then 0 else 4
  | .invalidAddress => 1
  | .header _ => 2
  | .payloadTooLong => 3
  | .radio _ => 5

/-- The packet is refused for this reason: it is there, and no earlier one is. -/
def Refuses (e : LinkError ε) : Prop :=
  link.Applies d payload e ∧
    ∀ e' : LinkError ε, link.Applies d payload e' → link.rank e ≤ link.rank e'

/-- Everything that a submission to a link that keeps packets can come to. -/
inductive Judged : Except (LinkError ε) UInt8 → Link ρ γ → Prop
  | refused {e : LinkError ε} {seq : UInt8} (refuses : link.Refuses d payload e)
      (used : seq = link.station.seq ∨ d.seq = 0 ∧ seq = link.station.nextSeq.1) :
      Judged (.error e) (link.setStation { link.station with seq })
  | accepted {n : Nat} {after : Link ρ γ} (welcome : ¬link.station.Shuns d)
      (length : (link.station.numbered d).encodedLength = .ok n)
      (short : n + payload.length ≤ link.station.frameLimit) (place : link.HasPlace)
      (enters : Enters (link.station.counted d)
        { descriptor := { link.station.numbered d with headerLength := n }, payload } link after) :
      Judged (.ok (link.station.numbered d).seq) after

variable {link d payload} {e e' : LinkError ε} {s : Station ρ γ} {p : Packet} {after : Link ρ γ}

theorem Refuses.unique (first : link.Refuses d payload e) (second : link.Refuses d payload e') :
    e = e' := by
  have same : link.rank e = link.rank e' :=
    Nat.le_antisymm (first.2 e' second.1) (second.2 e first.1)
  cases e <;> cases e' <;> simp only [rank] at same
  case header.header e e' =>
    have both : (Except.error e : Except HeaderError Nat) = .error e' := first.1.symm.trans second.1
    cases both
    rfl
  all_goals first
    | rfl
    | exact first.1.elim
    | exact second.1.elim
    | (split at same <;> cases same)
    | cases same

/-- Only the want of a place speaks against a packet that passes the check. -/
theorem eq_queueFull_of_applies {n : Nat} (welcome : ¬link.station.Shuns d)
    (length : (link.station.numbered d).encodedLength = .ok n)
    (short : n + payload.length ≤ link.station.frameLimit) (applies : link.Applies d payload e) :
    e = .queueFull := by
  cases e with
  | queueFull => rfl
  | payloadTooLong =>
    obtain ⟨n', length', long⟩ := applies
    cases length.symm.trans length'
    exact absurd long (Nat.not_lt.mpr short)
  | invalidAddress => exact absurd applies welcome
  | header e => cases length.symm.trans applies
  | radio e => exact applies.elim

/-- What the check finds wrong is the first reason, unless the place has been looked for before. -/
theorem refuses_of_checked (checked : link.station.Checked d payload (.error e) s)
    (roomy : link.method = .timeSlot → link.HasPlace) : link.Refuses d payload e := by
  cases checked with
  | foreign shunned =>
    refine ⟨shunned, fun e' applies => ?_⟩
    cases e' with
    | queueFull => simp [rank, mt roomy applies]
    | radio => exact applies.elim
    | invalidAddress | header | payloadTooLong => simp [rank]
  | formless welcome wrong =>
    refine ⟨wrong, fun e' applies => ?_⟩
    cases e' with
    | queueFull => simp [rank, mt roomy applies]
    | radio => exact applies.elim
    | invalidAddress => exact absurd applies welcome
    | header | payloadTooLong => simp [rank]
  | oversized welcome length long =>
    refine ⟨⟨_, length, long⟩, fun e' applies => ?_⟩
    cases e' with
    | queueFull => simp [rank, mt roomy applies]
    | radio => exact applies.elim
    | invalidAddress => exact absurd applies welcome
    | header => cases length.symm.trans applies
    | payloadTooLong => exact Nat.le_refl _

theorem used_of_checked {result : Except (LinkError ε) Packet}
    (checked : link.station.Checked d payload result s) :
    ∃ seq, (seq = link.station.seq ∨ d.seq = 0 ∧ seq = link.station.nextSeq.1) ∧
      s = { link.station with seq } := by
  have counts : ∃ seq, (seq = link.station.seq ∨ d.seq = 0 ∧ seq = link.station.nextSeq.1) ∧
      link.station.counted d = { link.station with seq } := by
    refine ⟨_, ?_, rfl⟩
    by_cases unnumbered : d.seq = 0 <;> simp [unnumbered]
  cases checked with
  | foreign shunned => exact ⟨link.station.seq, .inl rfl, rfl⟩
  | formless welcome wrong => exact counts
  | oversized welcome length long => exact counts
  | fit welcome length short => exact counts

variable (link)

theorem judged_of_unfit (checked : link.station.Checked d payload (.error e) s)
    (roomy : link.method = .timeSlot → link.HasPlace) :
    link.Judged d payload (.error e) (link.setStation s) := by
  obtain ⟨seq, used, rfl⟩ := used_of_checked checked
  exact .refused (refuses_of_checked checked roomy) used

theorem judged_of_full (checked : link.station.Checked (ε := ε) d payload (.ok p) s)
    (full : ¬link.HasPlace) :
    link.Judged (ε := ε) d payload (.error .queueFull) (link.setStation s) := by
  obtain ⟨seq, used, rfl⟩ := used_of_checked checked
  refine .refused ⟨full, fun e' applies => ?_⟩ used
  cases checked with
  | fit welcome length short =>
    obtain rfl := eq_queueFull_of_applies welcome length short applies
    exact Nat.le_refl _

theorem judged_of_fit (checked : link.station.Checked (ε := ε) d payload (.ok p) s)
    (place : link.HasPlace) (enters : Enters s p link after) :
    link.Judged (ε := ε) d payload (.ok p.descriptor.seq) after := by
  cases checked with
  | fit welcome length short => exact .accepted welcome length short place enters

theorem CarrierSense.judged_submit (m : CarrierSense ρ γ) :
    (Link.carrierSense m).Judged (ε := ε) d payload (m.submit d payload).1
      (.carrierSense (m.submit (ε := ε) d payload).2) := by
  unfold submit
  split <;> rename_i prepared <;> have checked := Station.checked_of_prepare prepared
  · exact judged_of_unfit (.carrierSense m) checked nofun
  · split <;> rename_i placed
    · exact judged_of_full (.carrierSense m) checked (Outbox.not_idle_of_accept placed)
    · obtain ⟨idle, rfl⟩ := Outbox.fill_of_accept placed
      exact judged_of_fit (.carrierSense m) checked (List.mem_of_getElem? idle) (.carrierSense idle)

theorem Acknowledged.judged_submit (m : Acknowledged ρ γ) :
    (Link.acknowledged m).Judged (ε := ε) d payload (m.submit d payload).1
      (.acknowledged (m.submit (ε := ε) d payload).2) := by
  unfold submit
  split <;> rename_i prepared <;> have checked := Station.checked_of_prepare prepared
  · exact judged_of_unfit (.acknowledged m) checked nofun
  · split <;> rename_i placed
    · exact judged_of_full (.acknowledged m) checked (Outbox.not_idle_of_accept placed)
    · obtain ⟨idle, rfl⟩ := Outbox.fill_of_accept placed
      exact judged_of_fit (.acknowledged m) checked (List.mem_of_getElem? idle) (.acknowledged idle)

theorem TimeSlot.judged_submit (m : TimeSlot ρ γ) :
    (Link.timeSlot m).Judged (ε := ε) d payload (m.submit d payload).1
      (.timeSlot (m.submit (ε := ε) d payload).2) := by
  unfold submit
  by_cases full : m.pending.isSome = true
  · rw [if_pos full]
    have taken : ¬(Link.timeSlot m).HasPlace := fun idle => by
      rw [show m.pending = none from idle] at full
      cases full
    exact .refused ⟨taken, fun e' _ => Nat.zero_le _⟩ (.inl rfl)
  · rw [if_neg full]
    have idle : m.pending = none := by simpa using full
    split <;> rename_i prepared <;> have checked := Station.checked_of_prepare prepared
    · exact judged_of_unfit (.timeSlot m) checked fun _ => idle
    · exact judged_of_fit (.timeSlot m) checked idle (.timeSlot idle)

variable {link}

theorem not_shuns_iff : ¬link.station.Shuns d ↔
    link.station.config.longAddresses = true ∨ ∀ a ∈ d.addresses, a.isLong = false := by
  rw [Station.Shuns]
  cases link.station.config.longAddresses <;> simp

variable [Transceiver ρ ε]

theorem judged_submit (keeps : link.method ≠ .passThrough) (d : Descriptor) (payload : Bytes) :
    link.Judged (ε := ε) d payload (link.submit d payload).1
      (link.submit (ε := ε) d payload).2 := by
  cases link with
  | passThrough m => exact absurd rfl keeps
  | carrierSense m => exact m.judged_submit
  | acknowledged m => exact m.judged_submit
  | timeSlot m => exact m.judged_submit

/-- A link that keeps packets accepts one just where it takes the addresses, the header can be laid
    out, the frame is short enough and there is a place. Then the packet is in an idle place with
    the number that is answered. Otherwise it is refused for the first reason that there is, and at
    most a sequence number has been used up. -/
theorem submit_outcome (link : Link ρ γ) (keeps : link.method ≠ .passThrough) (d : Descriptor)
    (payload : Bytes) :
    ((∃ seq, (link.submit (ε := ε) d payload).1 = .ok seq) ↔
        (link.station.config.longAddresses = true ∨ ∀ a ∈ d.addresses, a.isLong = false) ∧
        (∃ n, (link.station.numbered d).encodedLength = .ok n ∧
          n + payload.length ≤ min link.station.config.bufferSize 128) ∧
        link.HasPlace) ∧
      (∀ seq, (link.submit (ε := ε) d payload).1 = .ok seq →
        seq = (link.station.numbered d).seq ∧ seq ≠ 0 ∧
        ∃ n, (link.station.numbered d).encodedLength = .ok n ∧
          Enters (link.station.counted d)
            { descriptor := { link.station.numbered d with headerLength := n }, payload } link
            (link.submit (ε := ε) d payload).2) ∧
      (∀ e, (link.submit (ε := ε) d payload).1 = .error e ↔ link.Refuses d payload e) ∧
      ∀ e, (link.submit (ε := ε) d payload).1 = .error e →
        ∃ seq, (seq = link.station.seq ∨ d.seq = 0 ∧ seq = link.station.nextSeq.1) ∧
          (link.submit (ε := ε) d payload).2 = link.setStation { link.station with seq } := by
  have judged := judged_submit (ε := ε) keeps d payload
  generalize link.submit (ε := ε) d payload = outcome at judged ⊢
  obtain ⟨result, after⟩ := outcome
  cases judged with
  | @refused e seq refuses used =>
    refine ⟨⟨?_, ?_⟩, nofun, fun e' => ⟨?_, fun other => ?_⟩, fun e' _ => ⟨seq, used, rfl⟩⟩
    · rintro ⟨seq, answered⟩
      cases answered
    · rintro ⟨taken, ⟨n, length, short⟩, place⟩
      obtain rfl := eq_queueFull_of_applies (not_shuns_iff.mpr taken) length short refuses.1
      exact absurd place refuses.1
    · intro answered
      cases answered
      exact refuses
    · rw [refuses.unique other]
  | accepted welcome length short place enters =>
    refine ⟨⟨fun _ => ⟨not_shuns_iff.mp welcome, ⟨_, length, short⟩, place⟩, fun _ => ⟨_, rfl⟩⟩,
      ?_, fun e => ⟨nofun, fun refuses => ?_⟩, nofun⟩
    · intro seq answered
      cases answered
      exact ⟨rfl, link.station.seq_numbered_ne_zero d, _, length, enters⟩
    · obtain rfl := eq_queueFull_of_applies welcome length short refuses.1
      exact absurd place refuses.1

/-- A link that takes no long addresses and sends frames of eight bytes at most, with one place. -/
def narrow : Link Bench StepGenerator :=
  .new .carrierSense 1 { address := .short 1, bufferSize := 8, longAddresses := false } {} ⟨0, 0⟩

/-- It accepts one byte of payload behind a header of six, and finds three bytes too long. -/
theorem submit_outcome_narrow :
    narrow.method ≠ .passThrough ∧
      (narrow.submit (ε := BenchError) { src := .short 1, dst := .short 2 } [7]).1 = .ok 1 ∧
      narrow.HasPlace ∧
      narrow.Refuses (ε := BenchError) { src := .short 1, dst := .short 2 } [7, 8, 9]
        .payloadTooLong := by
  have keeps : narrow.method ≠ .passThrough := by decide
  obtain ⟨taken, -⟩ :=
    submit_outcome (ε := BenchError) narrow keeps { src := .short 1, dst := .short 2 } [7]
  obtain ⟨-, -, refused, -⟩ :=
    submit_outcome (ε := BenchError) narrow keeps { src := .short 1, dst := .short 2 } [7, 8, 9]
  exact ⟨keeps, rfl, (taken.mp ⟨1, rfl⟩).2.2, (refused .payloadTooLong).mp rfl⟩

end Link

end MoteLink
