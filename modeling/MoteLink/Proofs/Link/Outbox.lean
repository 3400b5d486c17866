import Mathlib.Data.List.Perm.Basic
import MoteLink.Link.Outbox

/-!
# What the outbox operations change

Every operation of an outbox changes one place at most. `Replaces` says which place it is and what
stands there before and after; how the lists of packets change follows from that alone.
-/

namespace MoteLink.Link

variable {α β : Type}

/-- `new` stands in the place `i` of `old`; every other place is the same. -/
structure Replaces (i : Nat) (old new : α) (before after : List α) : Prop where
  found : before[i]? = some old
  changed : after = before.set i new

namespace Replaces

variable {i : Nat} {old new : α} {before after : List α}

theorem split (r : Replaces i old new before after) :
    ∃ front back, before = front ++ old :: back ∧ after = front ++ new :: back := by
  obtain ⟨below, rfl⟩ := List.getElem?_eq_some_iff.mp r.found
  refine ⟨before.take i, before.drop (i + 1), ?_, ?_⟩
  · rw [← List.drop_eq_getElem_cons below, List.take_append_drop]
  · rw [r.changed, List.set_eq_take_append_cons_drop, if_pos below]

theorem length_eq (r : Replaces i old new before after) : after.length = before.length := by
  rw [r.changed, List.length_set]

/-- A view of the places loses what it shows of the old entry and gains what it shows of the new
    one. -/
theorem perm_filterMap (r : Replaces i old new before after) (view : α → Option β) :
    ((view new).toList ++ before.filterMap view).Perm
      ((view old).toList ++ after.filterMap view) := by
  obtain ⟨front, back, rfl, rfl⟩ := r.split
  have shown (entry : α) : (front ++ entry :: back).filterMap view =
      front.filterMap view ++ ((view entry).toList ++ back.filterMap view) := by
    rw [List.filterMap_append, List.filterMap_cons]
    cases view entry <;> rfl
  have moved (a b x y : List β) : (a ++ (x ++ (b ++ y))).Perm (b ++ (x ++ (a ++ y))) := by
    have turned : (a ++ x ++ b).Perm (b ++ x ++ a) :=
      List.perm_append_comm.trans ((List.perm_append_comm.append_left b).trans (by simp))
    simpa only [List.append_assoc] using turned.append_right y
  rw [shown, shown]
  exact moved _ _ _ _

/-- A view that shows the same of both entries does not change. -/
theorem filterMap_eq (r : Replaces i old new before after) {view : α → Option β}
    (same : view new = view old) : after.filterMap view = before.filterMap view := by
  obtain ⟨front, back, rfl, rfl⟩ := r.split
  rw [List.filterMap_append, List.filterMap_append, List.filterMap_cons, List.filterMap_cons, same]

end Replaces

namespace Outbox

/-- The packets in flight. -/
def flying (o : Outbox) : List Packet := o.slots.filterMap Slot.inFlight?

variable {o o' : Outbox} {p : Packet} {i : Nat} {now : Tick}

theorem mem_flying : p ∈ o.flying ↔ Slot.inFlight p ∈ o.slots := by
  unfold flying
  rw [List.mem_filterMap]
  constructor
  · rintro ⟨slot, member, shown⟩
    cases slot <;> simp_all [Slot.inFlight?]
  · intro member
    exact ⟨.inFlight p, member, rfl⟩

theorem mem_queued : p ∈ o.queued ↔ Slot.queued p ∈ o.slots := by
  unfold queued
  rw [List.mem_filterMap]
  constructor
  · rintro ⟨slot, member, shown⟩
    cases slot <;> simp_all [Slot.queued?]
  · intro member
    exact ⟨.queued p, member, rfl⟩

/-- The packets held are those in flight and those queued. -/
theorem perm_flying_append_queued (o : Outbox) : (o.flying ++ o.queued).Perm o.packets := by
  unfold flying queued packets
  induction o.slots with
  | nil => exact List.Perm.nil
  | cons slot rest ih =>
    cases slot with
    | idle => exact ih
    | queued p => exact List.perm_middle.trans (ih.cons p)
    | inFlight p => exact ih.cons p

section Views

variable {old new : Slot} (r : Replaces i old new o.slots o'.slots)
include r

theorem flying_perm :
    (new.inFlight?.toList ++ o.flying).Perm (old.inFlight?.toList ++ o'.flying) :=
  r.perm_filterMap Slot.inFlight?

theorem queued_perm :
    (new.queued?.toList ++ o.queued).Perm (old.queued?.toList ++ o'.queued) :=
  r.perm_filterMap Slot.queued?

theorem packets_perm :
    (new.packet?.toList ++ o.packets).Perm (old.packet?.toList ++ o'.packets) :=
  r.perm_filterMap Slot.packet?

end Views

theorem flying_empty (n : Nat) : (empty n).flying = [] := by
  simp [flying, empty, Slot.inFlight?]

theorem queued_empty (n : Nat) : (empty n).queued = [] := by
  simp [queued, empty, Slot.queued?]

/-! ## Accepting -/

theorem accept_eq_ok (accepted : o.accept p = .ok (i, o')) :
    Replaces i .idle (.queued { p with ticket := o.nextTicket }) o.slots o'.slots ∧
      o'.nextTicket = o.nextTicket + 1 := by
  unfold accept at accepted
  cases place : o.slots.findIdx? Slot.isIdle with
  | none => simp [place] at accepted
  | some j =>
    simp only [place, Except.ok.injEq, Prod.mk.injEq] at accepted
    obtain ⟨rfl, rfl⟩ := accepted
    obtain ⟨below, idle, -⟩ := List.findIdx?_eq_some_iff_getElem.mp place
    have found : o.slots[j] = .idle := by
      cases at_j : o.slots[j] <;> simp_all
    exact ⟨⟨by rw [List.getElem?_eq_getElem below, found], rfl⟩, rfl⟩

/-! ## The packet in flight -/

theorem slot_of_inFlight? (found : o.inFlight? = some (i, p)) :
    o.slots[i]? = some (.inFlight p) := by
  obtain ⟨⟨slot, j⟩, member, shown⟩ := List.exists_of_findSome?_eq_some found
  have at_j : o.slots[j]? = some slot := List.mem_zipIdx_iff_getElem?.mp member
  cases slot with
  | idle => simp [Slot.inFlight?] at shown
  | queued q => simp [Slot.inFlight?] at shown
  | inFlight q =>
    simp only [Slot.inFlight?, Option.map_some, Option.some.injEq, Prod.mk.injEq] at shown
    obtain ⟨rfl, rfl⟩ := shown
    exact at_j

theorem inFlight?_eq_none_iff : o.inFlight? = none ↔ o.flying = [] := by
  unfold inFlight? flying
  rw [List.findSome?_eq_none_iff, List.filterMap_eq_nil_iff]
  constructor
  · intro absent slot member
    obtain ⟨j, at_j⟩ := List.mem_iff_getElem?.mp member
    simpa using absent (slot, j) (List.mem_zipIdx_iff_getElem?.mpr at_j)
  · rintro absent ⟨slot, j⟩ member
    have at_j : o.slots[j]? = some slot := List.mem_zipIdx_iff_getElem?.mp member
    simp [absent slot (List.mem_of_getElem? at_j)]

/-- Where one packet is in flight it is the one that is found. -/
theorem inFlight?_of_flying (one : o.flying = [p]) : ∃ i, o.inFlight? = some (i, p) := by
  cases found : o.inFlight? with
  | none =>
    rw [inFlight?_eq_none_iff.mp found] at one
    cases one
  | some entry =>
    obtain ⟨j, q⟩ := entry
    have member : q ∈ o.flying :=
      mem_flying.mpr (List.mem_of_getElem? (slot_of_inFlight? found))
    rw [one, List.mem_singleton] at member
    exact ⟨j, by rw [member]⟩

theorem eq_of_flying {q : Packet} (one : o.flying = [q]) (found : o.inFlight? = some (i, p)) :
    q = p := by
  obtain ⟨j, again⟩ := inFlight?_of_flying one
  rw [found] at again
  cases again
  rfl

/-- Counting from `k`: the first packet in flight stays the first one when it is changed. -/
private theorem findSome?_inFlight_set (slots : List Slot) (k : Nat) (q : Packet)
    (found : ((slots.zipIdx k).findSome? fun (slot, i) => slot.inFlight?.map (i, ·)) =
      some (i, p)) :
    k ≤ i ∧ (((slots.set (i - k) (.inFlight q)).zipIdx k).findSome?
      fun (slot, i) => slot.inFlight?.map (i, ·)) = some (i, q) := by
  induction slots generalizing k with
  | nil => cases found
  | cons slot rest ih =>
    have later (grounded : slot.inFlight? = none) : k ≤ i ∧
        ((((slot :: rest).set (i - k) (.inFlight q)).zipIdx k).findSome?
          fun (slot, i) => slot.inFlight?.map (i, ·)) = some (i, q) := by
      obtain ⟨above, kept⟩ := ih (k + 1) (by simpa [List.zipIdx_cons, grounded] using found)
      have next : i - k = i - (k + 1) + 1 := by omega
      refine ⟨by omega, ?_⟩
      rw [next, List.set_cons_succ]
      simpa [List.zipIdx_cons, grounded] using kept
    cases slot with
    | idle => exact later rfl
    | queued r => exact later rfl
    | inFlight r =>
      simp only [List.zipIdx_cons, List.findSome?_cons, Slot.inFlight?, Option.map_some,
        Option.some.injEq, Prod.mk.injEq] at found
      obtain ⟨rfl, rfl⟩ := found
      simp [List.zipIdx_cons, Slot.inFlight?]

theorem inFlight?_setInFlight (found : o.inFlight? = some (i, p)) (q : Packet) :
    (o.setInFlight q).inFlight? = some (i, q) := by
  have kept := (findSome?_inFlight_set o.slots 0 q found).2
  rw [setInFlight, found]
  exact kept

theorem slots_setInFlight (found : o.inFlight? = some (i, p)) (q : Packet) :
    Replaces i (.inFlight p) (.inFlight q) o.slots (o.setInFlight q).slots := by
  refine ⟨slot_of_inFlight? found, ?_⟩
  simp [setInFlight, found]

theorem complete_of_inFlight? (found : o.inFlight? = some (i, p)) :
    o.complete = some (p, { o with slots := o.slots.set i .idle }) := by
  simp [complete, found]

/-! ## Starting -/

theorem oldestDue?_eq_some (due : o.oldestDue? now = some i) :
    ∃ p, o.slots[i]? = some (.queued p) ∧ Tick.hasReached p.descriptor.sendAt now = true := by
  unfold oldestDue? at due
  obtain ⟨⟨slot, j⟩, largest, rfl⟩ := Option.map_eq_some_iff.mp due
  have member := (lastMax?_isMax largest).1
  rw [List.mem_filter] at member
  obtain ⟨placed, isDue⟩ := member
  have at_j : o.slots[j]? = some slot := List.mem_zipIdx_iff_getElem?.mp placed
  cases slot with
  | idle => simp [Slot.isDue, Slot.queued?] at isDue
  | inFlight q => simp [Slot.isDue, Slot.queued?] at isDue
  | queued q => exact ⟨q, at_j, by simpa [Slot.isDue, Slot.queued?] using isDue⟩

/-- Nothing is due where every queued packet has to wait. -/
theorem oldestDue?_eq_none_iff :
    o.oldestDue? now = none ↔
      ∀ p ∈ o.queued, Tick.hasReached p.descriptor.sendAt now = false := by
  unfold oldestDue?
  rw [Option.map_eq_none_iff, lastMax?_eq_none, List.filter_eq_nil_iff]
  constructor
  · intro early p member
    obtain ⟨j, at_j⟩ := List.mem_iff_getElem?.mp (mem_queued.mp member)
    have waits := early (.queued p, j) (List.mem_zipIdx_iff_getElem?.mpr at_j)
    simpa [Slot.isDue, Slot.queued?] using waits
  · rintro early ⟨slot, j⟩ placed
    have at_j : o.slots[j]? = some slot := List.mem_zipIdx_iff_getElem?.mp placed
    cases slot with
    | idle => simp [Slot.isDue, Slot.queued?]
    | inFlight q => simp [Slot.isDue, Slot.queued?]
    | queued q =>
      have member := mem_queued.mpr (List.mem_of_getElem? at_j)
      simp [Slot.isDue, Slot.queued?, early q member]

theorem startNext_eq_some (started : o.startNext now = some (i, o')) :
    o.flying = [] ∧ ∃ p, Replaces i (.queued p) (.inFlight p) o.slots o'.slots ∧
      Tick.hasReached p.descriptor.sendAt now = true ∧ o'.nextTicket = o.nextTicket := by
  unfold startNext at started
  split at started
  · cases started
  · rename_i grounded
    cases due : o.oldestDue? now with
    | none => simp [due] at started
    | some j =>
      obtain ⟨p, at_j, reached⟩ := oldestDue?_eq_some due
      simp only [due, at_j, Option.some.injEq, Prod.mk.injEq] at started
      obtain ⟨rfl, rfl⟩ := started
      refine ⟨?_, p, ⟨at_j, rfl⟩, reached, rfl⟩
      exact inFlight?_eq_none_iff.mp (by simpa using grounded)

theorem startNext_eq_none_iff :
    o.startNext now = none ↔
      o.flying ≠ [] ∨ ∀ p ∈ o.queued, Tick.hasReached p.descriptor.sendAt now = false := by
  rw [← oldestDue?_eq_none_iff, ne_eq, ← inFlight?_eq_none_iff]
  unfold startNext
  cases o.inFlight? with
  | some entry => simp
  | none =>
    cases due : o.oldestDue? now with
    | none => simp
    | some j =>
      obtain ⟨p, at_j, -⟩ := oldestDue?_eq_some due
      simp [at_j]

section One

variable (one : o.queued = [p])
include one

theorem startNext_ne_none (grounded : o.flying = [])
    (due : Tick.hasReached p.descriptor.sendAt now = true) : o.startNext now ≠ none := by
  intro idle
  rcases startNext_eq_none_iff.mp idle with flying | early
  · exact flying grounded
  · have held_back := early p (by rw [one]; exact List.mem_singleton_self p)
    rw [due] at held_back
    cases held_back

theorem startNext_eq_none (early : Tick.hasReached p.descriptor.sendAt now = false) :
    o.startNext now = none := by
  apply startNext_eq_none_iff.mpr
  right
  intro q member
  rw [one, List.mem_singleton] at member
  rw [member]
  exact early

/-- Starting the only packet leaves none queued. -/
theorem queued_of_startNext (started : o.startNext now = some (i, o')) : o'.queued = [] := by
  obtain ⟨-, q, promoted, -⟩ := startNext_eq_some started
  have left : o.queued.Perm (q :: o'.queued) := queued_perm promoted
  have fewer := left.length_eq
  rw [one, List.length_cons, List.length_cons, List.length_nil] at fewer
  exact List.length_eq_zero_iff.mp (by omega)

end One

theorem startNext_of_queued_nil (empty : o.queued = []) : o.startNext now = none := by
  apply startNext_eq_none_iff.mpr
  right
  intro q member
  rw [empty] at member
  cases member

/-! ## Removing -/

theorem remove_eq_some {seq : UInt8} {slot : Slot} (removed : o.remove seq = some (slot, o')) :
    ∃ i p, Replaces i slot .idle o.slots o'.slots ∧ slot.packet? = some p ∧
      p.descriptor.seq = seq ∧ o'.nextTicket = o.nextTicket := by
  unfold remove at removed
  cases place : o.slots.findIdx? (Slot.carries seq) with
  | none => simp [place] at removed
  | some j =>
    obtain ⟨below, carries, -⟩ := List.findIdx?_eq_some_iff_getElem.mp place
    simp only [place, List.getElem?_eq_getElem below, Option.map_some, Option.some.injEq,
      Prod.mk.injEq] at removed
    obtain ⟨rfl, rfl⟩ := removed
    obtain ⟨p, shown, same⟩ := (Option.any_eq_true _ _).mp carries
    exact ⟨j, p, ⟨List.getElem?_eq_getElem below, rfl⟩, shown, by simpa using same, rfl⟩

theorem remove_eq_none {seq : UInt8} (missed : o.remove seq = none) :
    ∀ p ∈ o.packets, p.descriptor.seq ≠ seq := by
  have nowhere : o.slots.findIdx? (Slot.carries seq) = none := by
    unfold remove at missed
    split at missed
    · assumption
    · rename_i i place
      obtain ⟨below, -⟩ := List.findIdx?_eq_some_iff_getElem.mp place
      simp [List.getElem?_eq_getElem below] at missed
  intro p member
  obtain ⟨slot, placed, shown⟩ := List.mem_filterMap.mp member
  have other := List.findIdx?_eq_none_iff.mp nowhere slot placed
  simpa [Slot.carries, shown] using other

/-- A packet is removed from the queue or out of flight. -/
theorem remove_cases {seq : UInt8} {slot : Slot} (removed : o.remove seq = some (slot, o')) :
    (∃ p, slot = .queued p ∧ o'.flying = o.flying ∧ o.queued.Perm (p :: o'.queued)) ∨
      ∃ p, slot = .inFlight p ∧ o.flying.length = o'.flying.length + 1 ∧ o'.queued = o.queued := by
  obtain ⟨i, p, freed, shown, -⟩ := remove_eq_some removed
  cases slot with
  | idle => cases shown
  | queued q =>
    left
    have left : o.queued.Perm (q :: o'.queued) := queued_perm freed
    exact ⟨q, rfl, freed.filterMap_eq rfl, left⟩
  | inFlight q =>
    right
    have gone : o.flying.Perm (q :: o'.flying) := flying_perm freed
    exact ⟨q, rfl, gone.length_eq, freed.filterMap_eq rfl⟩

end Outbox

end MoteLink.Link
