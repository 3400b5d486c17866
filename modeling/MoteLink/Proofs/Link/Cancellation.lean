import MoteLink.Proofs.Link.CallLog.Opening
import MoteLink.Proofs.Link.Wakeup

/-!
# What a cancellation does

A cancellation frees the place of one packet with its number, if there is one, and ends the flight
of that packet; for all else it is as if it had not been made. Whatever is asked of the link
afterwards, nothing is heard of the packet again, and if it was in flight the next poll turns to the
packet whose turn it is.
-/

namespace MoteLink

namespace Link

variable {ρ γ ε : Type}

/-! ## The place that is freed -/

/-- The outbox without the packet in the place `i`. -/
def Outbox.vacate (o : Outbox) (i : Nat) : Outbox := { o with slots := o.slots.set i .idle }

/-- One place, in which `slot` stands, is freed. If its packet was in flight the link comes to rest.
    But for this nothing changes. -/
inductive Frees (slot : Slot) : Link ρ γ → Link ρ γ → Prop
  | carrierSense {m : CarrierSense ρ γ} {i : Nat} (there : m.outbox.slots[i]? = some slot) :
      Frees slot (.carrierSense m)
        (.carrierSense { m with
          outbox := m.outbox.vacate i
          phase := if slot.inFlight?.isSome then .idle else m.phase })
  | acknowledged {m : Acknowledged ρ γ} {i : Nat} (there : m.outbox.slots[i]? = some slot) :
      Frees slot (.acknowledged m)
        (.acknowledged { m with
          outbox := m.outbox.vacate i
          phase := if slot.inFlight?.isSome then .idle else m.phase })

section Freeing

variable {c : Config} {link after : Link ρ γ} {slot : Slot} {p q : Packet} {seq : UInt8}
  {o o' : Outbox} {line line' : Line} {i : Nat} {now : Tick}

theorem Frees.replaces (frees : Frees slot link after) :
    ∃ i, Replaces i slot .idle link.outbox.slots after.outbox.slots := by
  cases frees with
  | carrierSense there => exact ⟨_, there, rfl⟩
  | acknowledged there => exact ⟨_, there, rfl⟩

section Line

variable (freed : Replaces i slot .idle o.slots o'.slots) (holds : o.Holds line)
  (holds' : o'.Holds line')
include freed holds holds'

/-- The packet that is entered as cancelled is the one whose place is freed. -/
theorem eq_untried_of_freed (tidy : line.Tidy) (shown : slot.packet? = some q)
    (step : line.Step now (.cancelled p) line') : p = q.untried := by
  have lost : o.packets.Perm (q :: o'.packets) := by
    have moved := Outbox.packets_perm freed
    rw [shown] at moved
    exact moved
  have parted : line.packets.Perm (q :: line'.packets) :=
    holds.perm_packets.symm.trans (lost.trans (holds'.perm_packets.cons q))
  have same {r : Packet} (taken : line.packets.Perm (r :: line'.packets)) : r = q := by
    have whole : r ::ₘ (line'.packets : Multiset Packet) = q ::ₘ line'.packets :=
      Multiset.coe_eq_coe.mpr (taken.symm.trans parted)
    exact (Multiset.cons_inj_left _).mp whole
  cases step with
  | withdraw member =>
    have taken : line.packets.Perm (p :: (line.strike p).packets) :=
      ((List.perm_cons_erase member).append_left line.flying.toList).trans List.perm_middle
    obtain rfl := same taken
    exact (Packet.untried_of_attempts (tidy.untried p member)).symm
  | @abandon r flies =>
    have taken : line.packets = r :: line.land.packets := by
      rw [Line.packets, flies]
      rfl
    rw [same (.of_eq taken)]

theorem grounded_of_freed (flown : slot = .inFlight q) : line'.flying = none := by
  subst flown
  have gone : o.flying.Perm (q :: o'.flying) := Outbox.flying_perm freed
  have fewer := gone.length_eq
  rw [holds.flying, holds'.flying] at fewer
  cases none_left : line'.flying with
  | none => rfl
  | some r =>
    rw [none_left] at fewer
    cases flying : line.flying <;> simp [flying] at fewer

end Line

end Freeing

/-! ## The packet cancelled -/

/-- The record of the cancellation of the packet with the number `n`. -/
def CallRecord.cancelling (event : Event ρ ε) (n : Nat) (p : Packet) :
    CallRecord ρ ε NumberedIncident :=
  ⟨event, event.now.toNat, [⟨some n, .cancelled p⟩]⟩

theorem entriesOf_cancelling (before later : List (CallRecord ρ ε NumberedIncident))
    (event : Event ρ ε) (n : Nat) (p : Packet) :
    entriesOf (before ++ .cancelling event n p :: later) =
      entriesOf before ++ ⟨some n, .cancelled p⟩ :: entriesOf later :=
  entriesOf_append before (.cancelling event n p :: later)

section Logs

variable [Transceiver ρ ε] [RandomSource γ]

/-- The records hold all that has happened from the start of the link to its present state, and each
    incident in them concerns one of the packets accepted. `event` has cancelled the packet with the
    number `n`, and none of the later incidents concerns it. -/
structure Gone (start : Link (Recorder ρ) γ)
    (before : List (CallRecord (Recorder ρ) ε NumberedIncident)) (event : Event (Recorder ρ) ε)
    (n : Nat) (p : Packet) (later : List (CallRecord (Recorder ρ) ε NumberedIncident))
    (last : Link (Recorder ρ) γ) : Prop where
  trueTo : ∃ records,
    TrueTo start ((before ++ .cancelling event n p :: later).map CallRecord.event)
      ((before ++ .cancelling event n p :: later).map fun record => record.event.now.toNat) last
      records ∧
    records.map (CallRecord.map Entry.incident) =
      (before ++ .cancelling event n p :: later).map (CallRecord.map NumberedIncident.incident)
  attributed : Attributed (entriesOf (before ++ .cancelling event n p :: later))
  unmentioned : ∀ r ∈ entriesOf later, r.number ≠ some n

variable {method : Method} {capacity : Nat} {config : Config} {radio : ρ} {rng : γ}
  {link after last : Link (Recorder ρ) γ} {line : Line}
  {history : List (Event (Recorder ρ) ε)} {records : List (CallRecord (Recorder ρ) ε Entry)}
  {before later : List (CallRecord (Recorder ρ) ε NumberedIncident)} {conditions : List Condition}

theorem NumberedLog.gone {event : Event (Recorder ρ) ε} {n : Nat} {p : Packet}
    (kept : NumberedLog (.new method capacity config ⟨radio, []⟩ rng) records
      (before ++ .cancelling event n p :: later) conditions ⟨last, line⟩) :
    Gone (.new method capacity config ⟨radio, []⟩ rng) before event n p later last := by
  have attributed := kept.numbering.attributed
  constructor
  case trueTo =>
    have told := kept.log.trueTo
    rw [kept.events, kept.times] at told
    exact ⟨records, told, kept.same⟩
  case attributed => exact attributed
  case unmentioned =>
    rw [entriesOf_cancelling] at attributed
    exact attributed.number_ne_of_cancelled

/-- A cancellation that finds its packet is recorded with the number of the packet whose place it
    has freed. -/
theorem NumberedLog.cancel {seq : UInt8} {slot : Slot} {p : Packet} {now : Tick}
    {found : Recorder ρ}
    (queues : method = .carrierSense ∨ method = .acknowledged)
    (kept : NumberedLog (.new method capacity config ⟨radio, []⟩ rng) records before conditions
      ⟨link, line⟩)
    (untouched : found.record = link.record)
    (performed : (link.setRadio found).perform (ε := ε) now (.cancel seq) =
      .ok (.cancelled true, after))
    (frees : Frees slot (link.setRadio found) after) (shown : slot.packet? = some p) :
    ∃ records' n conditions' line',
      NumberedLog (.new method capacity config ⟨radio, []⟩ rng) records'
        (before ++ [.cancelling ⟨now, found, .cancel seq, .cancelled true⟩ n p.untried]) conditions'
        ⟨after, line'⟩ ∧
      (slot = .inFlight p → line'.flying = none) := by
  obtain ⟨record, fresh, conditions', line', same, told, here, next, -⟩ :=
    kept.call queues ⟨now, found, .cancel seq, .cancelled true⟩ untouched performed
  obtain ⟨i, freed⟩ := frees.replaces
  rw [outbox_setRadio] at freed
  have holds := kept.log.holds (holds_new queues capacity config ⟨radio, []⟩ rng)
  have holds' : after.outbox.Holds line' := here.logged.holds
  have leads := here.logged.leads
  have written := here.written
  rw [same] at written
  generalize entered : record.entries = entries at told leads written
  cases written with
  | @cancelled seq j q carries =>
    obtain ⟨r, rest, rfl, made, nothing⟩ := List.map_eq_cons_iff.mp told
    obtain rfl := List.map_eq_nil_iff.mp nothing
    have tidy := kept.log.leads.tidy Line.tidy_empty
    obtain rfl := eq_untried_of_freed freed holds holds' tidy shown leads.step_of_single
    have attributed := next.numbering.attributed
    rw [entriesOf_concat] at attributed
    have placed : r ∈ entriesOf before ++ [r] :=
      List.mem_append_right _ (List.mem_singleton_self r)
    obtain ⟨n, numbered⟩ := attributed.exists_number placed fun t => by simp [made]
    rw [made] at numbered
    subst numbered
    exact ⟨_, n, conditions', line', next, fun flown => grounded_of_freed freed holds holds' flown⟩

end Logs

end Link

end MoteLink
