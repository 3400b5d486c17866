import MoteLink.Link.Outbox
import MoteLink.Proofs.Clock

/-!
# Packets under another clock

The only tick that a packet carries is its send time. If the clock is set forward by `k` ticks, and
every send time with it, then an outbox does what it did before.
-/

namespace MoteLink

variable {α β : Type}

theorem lastMax?_map (key : β → UInt32) (f : α → β) (l : List α) :
    lastMax? key (l.map f) = (lastMax? (fun a => key (f a)) l).map f := by
  induction l with
  | nil => rfl
  | cons a rest ih =>
    rw [List.map_cons, lastMax?, lastMax?, ih]
    cases lastMax? (fun a => key (f a)) rest with
    | none => rfl
    | some b => by_cases less : key (f a) ≤ key (f b) <;> simp [less]

theorem firstMin?_map (key : β → UInt32) (f : α → β) (l : List α) :
    firstMin? key (l.map f) = (firstMin? (fun a => key (f a)) l).map f := by
  induction l with
  | nil => rfl
  | cons a rest ih =>
    rw [List.map_cons, firstMin?, firstMin?, ih]
    cases firstMin? (fun a => key (f a)) rest with
    | none => rfl
    | some b => by_cases less : key (f b) < key (f a) <;> simp [less]

def Descriptor.shift (k : Tick) (d : Descriptor) : Descriptor :=
  { d with sendAt := d.sendAt + k }

namespace Link

def Packet.shift (k : Tick) (p : Packet) : Packet :=
  { p with descriptor := p.descriptor.shift k }

namespace Slot

variable {k now : Tick} {slot : Slot}

def shift (k : Tick) : Slot → Slot
  | .idle => .idle
  | .queued p => .queued (p.shift k)
  | .inFlight p => .inFlight (p.shift k)

theorem isIdle_shift : (slot.shift k).isIdle = slot.isIdle := by
  cases slot <;> rfl

theorem queued?_shift : (slot.shift k).queued? = slot.queued?.map (Packet.shift k) := by
  cases slot <;> rfl

theorem carries_shift {seq : UInt8} : (slot.shift k).carries seq = slot.carries seq := by
  cases slot <;> rfl

theorem isDue_shift : (slot.shift k).isDue (now + k) = slot.isDue now := by
  cases slot with
  | idle => rfl
  | queued p => exact Tick.hasReached_add p.descriptor.sendAt now k
  | inFlight p => rfl

end Slot

namespace Outbox

variable {k now : Tick} {o : Outbox} {p : Packet}

/-- The outbox with every send time `k` ticks later. -/
def shift (k : Tick) (o : Outbox) : Outbox :=
  { o with slots := o.slots.map (Slot.shift k) }

theorem shift_empty (capacity : Nat) : (empty capacity).shift k = empty capacity := by
  simp [shift, empty, Slot.shift]

theorem held_shift : (o.shift k).held = o.held := by
  unfold held shift
  rw [List.countP_map]
  congr 1
  funext slot
  exact congrArg _ Slot.isIdle_shift

theorem queued_shift : (o.shift k).queued = o.queued.map (Packet.shift k) := by
  unfold queued shift
  rw [List.filterMap_map, List.map_filterMap]
  congr 1
  funext slot
  exact Slot.queued?_shift

theorem accept_shift : (o.shift k).accept (p.shift k) =
    match o.accept p with
    | .error p => .error (p.shift k)
    | .ok (i, o) => .ok (i, o.shift k) := by
  have free : Slot.isIdle ∘ Slot.shift k = Slot.isIdle := by
    funext slot
    exact Slot.isIdle_shift
  simp only [accept, shift, List.findIdx?_map, free]
  cases o.slots.findIdx? Slot.isIdle with
  | none => rfl
  | some i =>
    simp only [List.map_set]
    rfl

theorem inFlight?_shift :
    (o.shift k).inFlight? = o.inFlight?.map fun (i, p) => (i, p.shift k) := by
  simp only [inFlight?, shift, List.zipIdx_map, List.findSome?_map]
  induction o.slots.zipIdx with
  | nil => rfl
  | cons entry rest ih =>
    obtain ⟨slot, i⟩ := entry
    cases slot with
    | idle => exact ih
    | queued p => exact ih
    | inFlight p => rfl

theorem setInFlight_shift : (o.shift k).setInFlight (p.shift k) = (o.setInFlight p).shift k := by
  unfold setInFlight
  rw [inFlight?_shift]
  cases o.inFlight? with
  | none => rfl
  | some found => simp [shift, List.map_set, Slot.shift]

theorem age_shift {slot : Slot} : (o.shift k).age (slot.shift k) = o.age slot := by
  cases slot <;> rfl

theorem oldestDue?_shift : (o.shift k).oldestDue? (now + k) = o.oldestDue? now := by
  have due : (fun entry : Slot × Nat => entry.1.isDue (now + k)) ∘ Prod.map (Slot.shift k) id =
      fun entry => entry.1.isDue now := by
    funext entry
    exact Slot.isDue_shift
  have age : (fun entry : Slot × Nat => (o.shift k).age (Prod.map (Slot.shift k) id entry).1) =
      fun entry => o.age entry.1 := by
    funext entry
    exact age_shift
  unfold oldestDue?
  rw [show (o.shift k).slots = o.slots.map (Slot.shift k) from rfl, List.zipIdx_map,
    List.filter_map, due, lastMax?_map, age, Option.map_map]
  rfl

theorem startNext_shift : (o.shift k).startNext (now + k) =
    (o.startNext now).map fun (i, o) => (i, o.shift k) := by
  unfold startNext
  rw [inFlight?_shift, oldestDue?_shift, Option.isSome_map]
  by_cases busy : o.inFlight?.isSome = true
  · rw [if_pos busy, if_pos busy]
    rfl
  · rw [if_neg busy, if_neg busy]
    cases o.oldestDue? now with
    | none => rfl
    | some i =>
      have place : (o.shift k).slots[i]? = o.slots[i]?.map (Slot.shift k) := List.getElem?_map ..
      simp only [place]
      rcases o.slots[i]? with - | - | p | p
      · rfl
      · rfl
      · simp [shift, List.map_set, Slot.shift]
      · rfl

theorem complete_shift :
    (o.shift k).complete = o.complete.map fun (p, o) => (p.shift k, o.shift k) := by
  unfold complete
  rw [inFlight?_shift]
  cases o.inFlight? with
  | none => rfl
  | some found => simp [shift, List.map_set, Slot.shift]

theorem remove_shift {seq : UInt8} :
    (o.shift k).remove seq = (o.remove seq).map fun (slot, o) => (slot.shift k, o.shift k) := by
  have carries : Slot.carries seq ∘ Slot.shift k = Slot.carries seq := by
    funext slot
    exact Slot.carries_shift
  simp only [remove, shift, List.findIdx?_map, carries]
  cases o.slots.findIdx? (Slot.carries seq) with
  | none => rfl
  | some i =>
    simp only [List.getElem?_map]
    cases o.slots[i]? with
    | none => rfl
    | some slot => simp [List.map_set, Slot.shift]

theorem nextSendAt_shift : (o.shift k).nextSendAt (now + k) = (o.nextSendAt now).map (· + k) := by
  unfold nextSendAt
  have rank : (fun t => Tick.rank (now + k) (t + k)) = Tick.rank now := by
    funext t
    exact Tick.rank_add now t k
  have times : (o.queued.map (Packet.shift k)).map (fun p => p.descriptor.sendAt) =
      (o.queued.map fun p => p.descriptor.sendAt).map (· + k) := by
    rw [List.map_map, List.map_map]
    rfl
  rw [queued_shift, times, firstMin?_map, rank]

end Outbox

end Link

end MoteLink
