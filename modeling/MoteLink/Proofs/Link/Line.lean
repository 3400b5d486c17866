import MoteLink.Proofs.Link.Ledger

/-!
# Packets in line

What an outbox stands for is a line: the queued packets in the order of their acceptance, and a cell
for the one in flight. The places of an outbox are taken and freed in any order, so the order of the
line shows only in the numbers that the packets get at their acceptance. These numbers wrap; up to
`2 ^ 32` acceptances the oldest packet is the one whose number lies farthest behind the next one.
-/

namespace MoteLink.Link

/-- The send time of the packet has come. -/
def Packet.isDue (now : Tick) (p : Packet) : Bool :=
  Tick.hasReached p.descriptor.sendAt now

/-- The packets, each with the number of its acceptance. -/
def numberAll (packets : List Packet) : List Packet :=
  packets.mapIdx fun i p => { p with ticket := .ofNat i }

theorem length_numberAll (packets : List Packet) : (numberAll packets).length = packets.length :=
  List.length_mapIdx

theorem numberAll_append_singleton (packets : List Packet) (p : Packet) :
    numberAll (packets ++ [p]) =
      numberAll packets ++ [{ p with ticket := .ofNat packets.length }] := by
  simp [numberAll]

theorem ticket_of_numberAll {packets : List Packet} {n : Nat} {p : Packet}
    (numbered : numberAll packets = packets) (there : packets[n]? = some p) :
    p.ticket = .ofNat n := by
  rw [← numbered, numberAll, List.getElem?_mapIdx] at there
  obtain ⟨q, -, rfl⟩ := Option.map_eq_some_iff.mp there
  rfl

/-- The numbers of the first `2 ^ 32` acceptances increase. -/
theorem pairwise_numberAll {packets : List Packet} (few : packets.length ≤ 2 ^ 32) :
    (numberAll packets).Pairwise fun p q => p.ticket < q.ticket := by
  apply List.pairwise_iff_getElem.mpr
  intro i j first second less
  rw [length_numberAll] at first second
  simp only [numberAll, List.getElem_mapIdx, UInt32.lt_iff_toNat_lt]
  rw [UInt32.toNat_ofNat_of_lt' (Nat.lt_of_lt_of_le first few),
    UInt32.toNat_ofNat_of_lt' (Nat.lt_of_lt_of_le second few)]
  exact less

/-- The first `2 ^ 32` packets accepted differ from each other, whatever their counts of
    attempts. -/
theorem nodup_numberAll {packets : List Packet} (few : packets.length ≤ 2 ^ 32) :
    ((numberAll packets).map Packet.untried).Nodup := by
  apply List.pairwise_map.mpr
  refine (pairwise_numberAll few).imp ?_
  intro p q less same
  have tickets : p.untried.ticket = q.untried.ticket := congrArg Packet.ticket same
  rw [show p.ticket = q.ticket from tickets] at less
  exact UInt32.lt_irrefl _ less

/-- The packets that wait, in the order of their acceptance, the one in flight, and the number of
    packets accepted so far. -/
structure Line where
  waiting : List Packet := []
  flying : Option Packet := none
  accepted : Nat := 0
  deriving DecidableEq, Repr

namespace Line

section Operations

variable (line : Line) (p : Packet)

/-- The packets held. -/
def packets : List Packet := line.flying.toList ++ line.waiting

/-- The packet with the number that it gets at its acceptance. -/
def numbered : Packet := { p with ticket := .ofNat line.accepted }

/-- How far the number of the packet lies behind the next one. -/
def age : UInt32 := .ofNat line.accepted - p.ticket

/-- A packet goes to the end of the line. -/
def enter : Line :=
  { line with waiting := line.waiting ++ [line.numbered p], accepted := line.accepted + 1 }

/-- A packet leaves the line unsent. -/
def strike : Line := { line with waiting := line.waiting.erase p }

/-- A packet leaves the line and is in flight. -/
def launch : Line := { line with waiting := line.waiting.erase p, flying := some p }

/-- The packet in flight is changed. -/
def refit : Line := { line with flying := some p }

/-- Nothing is in flight any more. -/
def land : Line := { line with flying := none }

/-- The numbers of the waiting packets increase along the line. -/
structure Ordered : Prop where
  ascending : line.waiting.Pairwise fun p q => p.ticket < q.ticket
  below : ∀ p ∈ line.waiting, p.ticket.toNat < line.accepted

end Operations

section Fields

variable (line : Line) (p : Packet)

@[simp] theorem flying_enter : (line.enter p).flying = line.flying := rfl

@[simp] theorem flying_strike : (line.strike p).flying = line.flying := rfl

@[simp] theorem flying_launch : (line.launch p).flying = some p := rfl

@[simp] theorem flying_refit : (line.refit p).flying = some p := rfl

@[simp] theorem flying_land : line.land.flying = none := rfl

@[simp] theorem waiting_refit : (line.refit p).waiting = line.waiting := rfl

@[simp] theorem waiting_land : line.land.waiting = line.waiting := rfl

end Fields

variable {line : Line} {p : Packet} {now : Tick}

theorem toNat_numbered (few : line.accepted < 2 ^ 32) :
    (line.numbered p).ticket.toNat = line.accepted :=
  UInt32.toNat_ofNat_of_lt' few

/-- The packet whose number lies farther behind the next one has the smaller number. -/
theorem ticket_le_of_age {q : Packet} (few : line.accepted < 2 ^ 32)
    (below : p.ticket.toNat < line.accepted) (older : line.age q ≤ line.age p) :
    p.ticket ≤ q.ticket := by
  have next : (UInt32.ofNat line.accepted).toNat = line.accepted := UInt32.toNat_ofNat_of_lt' few
  rw [age, age, UInt32.le_iff_toNat_le, UInt32.toNat_sub, UInt32.toNat_sub, next] at older
  rw [UInt32.le_iff_toNat_le]
  omega

theorem Ordered.enter (ordered : line.Ordered) (few : line.accepted < 2 ^ 32) :
    (line.enter p).Ordered := by
  have number := toNat_numbered (p := p) few
  constructor
  case ascending =>
    show (line.waiting ++ [line.numbered p]).Pairwise _
    apply List.pairwise_append.mpr
    refine ⟨ordered.ascending, List.pairwise_singleton _ _, ?_⟩
    intro q member r last
    rw [List.mem_singleton.mp last, UInt32.lt_iff_toNat_lt, number]
    exact ordered.below q member
  case below =>
    intro q member
    show q.ticket.toNat < line.accepted + 1
    rcases List.mem_append.mp member with older | last
    · have before := ordered.below q older
      omega
    · rw [List.mem_singleton.mp last, number]
      omega

theorem Ordered.strike (ordered : line.Ordered) (p : Packet) : (line.strike p).Ordered := by
  constructor
  case ascending => exact ordered.ascending.sublist List.erase_sublist
  case below =>
    intro q member
    exact ordered.below q (List.mem_of_mem_erase member)

/-- Of the packets due, the one with the smallest number comes first in line. -/
theorem Ordered.find?_isDue (ordered : line.Ordered) (member : p ∈ line.waiting)
    (due : p.isDue now = true)
    (oldest : ∀ q ∈ line.waiting, q.isDue now = true → p.ticket ≤ q.ticket) :
    line.waiting.find? (Packet.isDue now) = some p := by
  obtain ⟨front, back, split⟩ := List.append_of_mem member
  apply List.find?_eq_some_iff_append.mpr
  refine ⟨due, front, back, split, ?_⟩
  intro q ahead
  by_cases early : q.isDue now = true
  · have ascending := ordered.ascending
    rw [split] at ascending
    have less := (List.pairwise_append.mp ascending).2.2 q ahead p List.mem_cons_self
    have atMost := oldest q (by rw [split]; exact List.mem_append_left _ ahead) early
    exact absurd less (UInt32.not_lt.mpr atMost)
  · simpa using early

end Line

namespace Outbox

/-- The places hold what stands in the line. -/
structure Holds (o : Outbox) (line : Line) : Prop where
  flying : o.flying = line.flying.toList
  waiting : o.queued.Perm line.waiting
  counted : o.nextTicket = .ofNat line.accepted
  ordered : line.accepted < 2 ^ 32 → line.Ordered

variable {o o' : Outbox} {line : Line} {p q : Packet} {i : Nat} {now : Tick}

theorem holds_empty (capacity : Nat) : (empty capacity).Holds {} := by
  constructor
  case flying => exact flying_empty capacity
  case waiting =>
    rw [queued_empty]
  case counted => rfl
  case ordered =>
    intro few
    exact ⟨List.Pairwise.nil, List.forall_mem_nil _⟩

/-! ## Age -/

/-- Of the packets that are queued and due, the one put in flight was accepted longest ago. -/
theorem age_le_of_startNext (started : o.startNext now = some (i, o'))
    (there : o.slots[i]? = some (.queued p)) (member : q ∈ o.queued) (due : q.isDue now = true) :
    o.nextTicket - q.ticket ≤ o.nextTicket - p.ticket := by
  have chosen : o.oldestDue? now = some i := by
    unfold startNext at started
    split at started
    · cases started
    · cases found : o.oldestDue? now with
      | none => simp [found] at started
      | some j =>
        obtain ⟨r, at_j, -⟩ := oldestDue?_eq_some found
        simp only [found, at_j, Option.some.injEq, Prod.mk.injEq] at started
        rw [started.1]
  unfold oldestDue? at chosen
  obtain ⟨⟨slot, j⟩, largest, rfl⟩ := Option.map_eq_some_iff.mp chosen
  obtain ⟨placed, atMost⟩ := lastMax?_isMax largest
  have at_j : o.slots[j]? = some slot :=
    List.mem_zipIdx_iff_getElem?.mp (List.mem_filter.mp placed).1
  obtain rfl : slot = .queued p := Option.some.inj (at_j.symm.trans there)
  obtain ⟨k, at_k⟩ := List.mem_iff_getElem?.mp (mem_queued.mp member)
  have candidate : (Slot.queued q, k) ∈ o.slots.zipIdx.filter fun e => e.1.isDue now := by
    apply List.mem_filter.mpr
    refine ⟨List.mem_zipIdx_iff_getElem?.mpr at_k, ?_⟩
    simpa [Slot.isDue, Slot.queued?, Packet.isDue] using due
  exact atMost _ candidate

/-! ## The operations in the line -/

namespace Holds

variable (holds : o.Holds line)
include holds

theorem perm_packets : o.packets.Perm line.packets := by
  have both := o.perm_flying_append_queued
  rw [holds.flying] at both
  exact both.symm.trans (holds.waiting.append_left line.flying.toList)

theorem held_eq : o.held = line.packets.length := by
  rw [o.held_eq_length_packets, holds.perm_packets.length_eq]

theorem flying_of_inFlight? (found : o.inFlight? = some (i, p)) : line.flying = some p := by
  have member : p ∈ o.flying := mem_flying.mpr (List.mem_of_getElem? (slot_of_inFlight? found))
  rw [holds.flying] at member
  exact Option.mem_toList.mp member

theorem length_flying_le : o.flying.length ≤ 1 := by
  rw [holds.flying]
  cases line.flying with
  | none => exact Nat.zero_le 1
  | some p => exact Nat.le_refl 1

theorem inFlight?_eq_none_iff : o.inFlight? = none ↔ line.flying = none := by
  rw [Outbox.inFlight?_eq_none_iff, holds.flying, Option.toList_eq_nil_iff]

theorem accept (accepted : o.accept p = .ok (i, o')) :
    o'.slots[i]? = some (.queued (line.numbered p)) ∧ o'.Holds (line.enter p) := by
  obtain ⟨replaced, ticket⟩ := accept_eq_ok accepted
  have number : { p with ticket := o.nextTicket } = line.numbered p := by
    rw [holds.counted]
    rfl
  rw [number] at replaced
  refine ⟨?_, ?_⟩
  · have below : i < o.slots.length := (List.getElem?_eq_some_iff.mp replaced.found).1
    rw [replaced.changed, List.getElem?_set_self below]
  constructor
  case flying => exact (replaced.filterMap_eq rfl).trans holds.flying
  case waiting =>
    have grown : (line.numbered p :: o.queued).Perm o'.queued := queued_perm replaced
    exact grown.symm.trans ((holds.waiting.cons _).trans (List.perm_append_singleton _ _).symm)
  case counted =>
    rw [ticket, holds.counted]
    exact (UInt32.ofNat_add line.accepted 1).symm
  case ordered =>
    intro few
    have fewer : line.accepted < 2 ^ 32 := Nat.lt_of_succ_lt few
    exact (holds.ordered fewer).enter fewer

/-- The first packet due in line is put in flight. -/
theorem startNext (started : o.startNext now = some (i, o')) :
    line.flying = none ∧ ∃ p ∈ line.waiting, p.isDue now = true ∧
      (∀ q ∈ line.waiting, q.isDue now = true → line.age q ≤ line.age p) ∧
      (line.accepted < 2 ^ 32 → line.waiting.find? (Packet.isDue now) = some p) ∧
      o'.slots[i]? = some (.inFlight p) ∧ o'.Holds (line.launch p) := by
  obtain ⟨grounded, p, promoted, due, ticket⟩ := startNext_eq_some started
  have queued : p ∈ o.queued := mem_queued.mpr (List.mem_of_getElem? promoted.found)
  have member : p ∈ line.waiting := holds.waiting.mem_iff.mp queued
  have flown : (p :: o.flying).Perm o'.flying := flying_perm promoted
  have left : o.queued.Perm (p :: o'.queued) := queued_perm promoted
  have empty : line.flying = none := by
    rw [holds.flying] at grounded
    exact Option.toList_eq_nil_iff.mp grounded
  have oldest (q : Packet) (waits : q ∈ line.waiting) (isDue : q.isDue now = true) :
      line.age q ≤ line.age p := by
    have older := age_le_of_startNext started promoted.found (holds.waiting.mem_iff.mpr waits) isDue
    rwa [holds.counted] at older
  refine ⟨empty, p, member, due, oldest, ?_, ?_, ?_⟩
  · intro few
    have ordered := holds.ordered few
    refine ordered.find?_isDue member due ?_
    intro q waits isDue
    exact Line.ticket_le_of_age few (ordered.below p member) (oldest q waits isDue)
  · have below : i < o.slots.length := (List.getElem?_eq_some_iff.mp promoted.found).1
    rw [promoted.changed, List.getElem?_set_self below]
  constructor
  case flying =>
    rw [grounded] at flown
    exact (List.singleton_perm.mp flown).symm
  case waiting =>
    show o'.queued.Perm (line.waiting.erase p)
    have rest := left.erase p
    rw [List.erase_cons_head] at rest
    exact rest.symm.trans (holds.waiting.erase p)
  case counted => exact ticket.trans holds.counted
  case ordered =>
    intro few
    have struck := (holds.ordered few).strike p
    exact ⟨struck.ascending, struck.below⟩

theorem startNext_eq_none_iff :
    o.startNext now = none ↔
      line.flying ≠ none ∨ line.waiting.find? (Packet.isDue now) = none := by
  rw [Outbox.startNext_eq_none_iff, holds.flying, ne_eq, Option.toList_eq_nil_iff,
    List.find?_eq_none]
  constructor
  · rintro (flies | early)
    · exact .inl flies
    · right
      intro p member
      simpa [Packet.isDue] using early p (holds.waiting.mem_iff.mpr member)
  · rintro (flies | early)
    · exact .inl flies
    · right
      intro p member
      simpa [Packet.isDue] using early p (holds.waiting.mem_iff.mp member)

section Flying

variable (there : line.flying = some p) (ticket : o'.nextTicket = o.nextTicket)
include there ticket

/-- The packet in flight is replaced by another one. -/
theorem refit (replaced : Replaces i (.inFlight p) (.inFlight q) o.slots o'.slots) :
    o'.Holds (line.refit q) := by
  constructor
  case flying =>
    have moved : (q :: o.flying).Perm (p :: o'.flying) := flying_perm replaced
    rw [holds.flying, there] at moved
    have single : [q].Perm o'.flying :=
      (List.perm_cons p).mp ((List.Perm.swap q p []).trans moved)
    exact (List.singleton_perm.mp single).symm
  case waiting =>
    have stays : o'.queued = o.queued := replaced.filterMap_eq rfl
    rw [stays]
    exact holds.waiting
  case counted => exact ticket.trans holds.counted
  case ordered =>
    intro few
    exact ⟨(holds.ordered few).ascending, (holds.ordered few).below⟩

/-- The place of the packet in flight is freed. -/
theorem land (freed : Replaces i (.inFlight p) .idle o.slots o'.slots) : o'.Holds line.land := by
  constructor
  case flying =>
    have gone : o.flying.Perm (p :: o'.flying) := flying_perm freed
    rw [holds.flying, there] at gone
    have none_left : [].Perm o'.flying := (List.perm_cons p).mp gone
    exact List.nil_perm.mp none_left
  case waiting =>
    have stays : o'.queued = o.queued := freed.filterMap_eq rfl
    rw [stays]
    exact holds.waiting
  case counted => exact ticket.trans holds.counted
  case ordered =>
    intro few
    exact ⟨(holds.ordered few).ascending, (holds.ordered few).below⟩

end Flying

/-- The place of a queued packet is freed. -/
theorem strike (freed : Replaces i (.queued p) .idle o.slots o'.slots)
    (ticket : o'.nextTicket = o.nextTicket) :
    p ∈ line.waiting ∧ o'.Holds (line.strike p) := by
  have left : o.queued.Perm (p :: o'.queued) := queued_perm freed
  refine ⟨holds.waiting.mem_iff.mp (left.mem_iff.mpr List.mem_cons_self), ?_⟩
  constructor
  case flying => exact (freed.filterMap_eq rfl).trans holds.flying
  case waiting =>
    show o'.queued.Perm (line.waiting.erase p)
    have rest := left.erase p
    rw [List.erase_cons_head] at rest
    exact rest.symm.trans (holds.waiting.erase p)
  case counted => exact ticket.trans holds.counted
  case ordered =>
    intro few
    exact (holds.ordered few).strike p

/-- A packet is removed from the line or out of flight. -/
theorem remove {seq : UInt8} {slot : Slot} (removed : o.remove seq = some (slot, o')) :
    ∃ p, p.descriptor.seq = seq ∧
      ((slot = .queued p ∧ p ∈ line.waiting ∧ o'.Holds (line.strike p)) ∨
        (slot = .inFlight p ∧ line.flying = some p ∧ o'.Holds line.land)) := by
  obtain ⟨i, p, freed, shown, carried, ticket⟩ := remove_eq_some removed
  refine ⟨p, carried, ?_⟩
  cases slot with
  | idle => cases shown
  | queued q =>
    cases shown
    obtain ⟨member, held⟩ := holds.strike freed ticket
    exact .inl ⟨rfl, member, held⟩
  | inFlight q =>
    cases shown
    have flies : p ∈ o.flying := mem_flying.mpr (List.mem_of_getElem? freed.found)
    rw [holds.flying] at flies
    have there : line.flying = some p := Option.mem_toList.mp flies
    exact .inr ⟨rfl, there, holds.land there ticket freed⟩

end Holds

end Outbox

end MoteLink.Link
