import Mathlib.Algebra.Order.Group.Multiset
import MoteLink.Proofs.Link.Line
import MoteLink.Proofs.Trace

/-!
# An outbox serves as a line

Whatever is asked of an outbox, it replies as the line does that it holds. The line is told what its
places are for by `Line.Serves`, which knows of no places but their number: a packet is accepted
while one of them is free, the first packet due is put in flight, and a packet leaves once.
-/

namespace MoteLink.Link

namespace Outbox

/-- What may be asked of an outbox. -/
inductive Request where
  | accept (p : Packet)
  | start (now : Tick)
  /-- Set the count of attempts on the packet in flight. -/
  | count (attempts : UInt8)
  | complete
  | remove (seq : UInt8)
  deriving DecidableEq, Repr

/-- What an outbox replies. -/
inductive Reply where
  | accepted (place : Nat)
  | refused (p : Packet)
  | started (place : Option Nat)
  | counted (found : Bool)
  | completed (p : Option Packet)
  | removed (slot : Option Slot)
  deriving DecidableEq, Repr

def Request.accepts : Request → Bool
  | .accept _ => true
  | _ => false

/-- Put the outbox through a request. -/
def serve (o : Outbox) : Request → Reply × Outbox
  | .accept p =>
    match o.accept p with
    | .error p => (.refused p, o)
    | .ok (i, o) => (.accepted i, o)
  | .start now =>
    match o.startNext now with
    | none => (.started none, o)
    | some (i, o) => (.started (some i), o)
  | .count attempts =>
    match o.inFlight? with
    | none => (.counted false, o)
    | some (_, p) => (.counted true, o.setInFlight { p with attempts })
  | .complete =>
    match o.complete with
    | none => (.completed none, o)
    | some (p, o) => (.completed (some p), o)
  | .remove seq =>
    match o.remove seq with
    | none => (.removed none, o)
    | some (slot, o) => (.removed (some slot), o)

/-- The packet that a request brings in by its reply. -/
def entered? : Request × Reply → Option Packet
  | (.accept p, .accepted _) => some p
  | _ => none

/-- The packet that a reply takes out. -/
def left? : Request × Reply → Option Packet
  | (_, .completed p) => p
  | (_, .removed slot) => slot.bind Slot.packet?
  | _ => none

/-- The packets accepted, as they were accepted and with the numbers of their acceptance. -/
def enteredIn (history : List ((Request × Reply) × Outbox)) : List Packet :=
  numberAll (history.filterMap fun entry => entered? entry.1)

/-- The packets that have left, in the order in which they did. -/
def leftIn (history : List ((Request × Reply) × Outbox)) : List Packet :=
  history.filterMap fun entry => left? entry.1

/-- The place that is told is that of the packet concerned. -/
def Reply.Points (o : Outbox) (line : Line) : Reply → Prop
  | .accepted i => ∃ p, line.waiting.getLast? = some p ∧ o.slots[i]? = some (.queued p)
  | .started (some i) => ∃ p, line.flying = some p ∧ o.slots[i]? = some (.inFlight p)
  | _ => True

end Outbox

open Outbox (Request Reply)

/-- What a line with the given number of places replies to a request, and what becomes of it. -/
inductive Line.Serves (places : Nat) (line : Line) : Request → Reply → Line → Prop
  | accept {p : Packet} {i : Nat} (room : line.packets.length < places) :
      Serves places line (.accept p) (.accepted i) (line.enter p)
  | refuse {p : Packet} (full : line.packets.length = places) :
      Serves places line (.accept p) (.refused p) line
  | start {now : Tick} {p : Packet} {i : Nat} (grounded : line.flying = none)
      (first : line.waiting.find? (Packet.isDue now) = some p) :
      Serves places line (.start now) (.started (some i)) (line.launch p)
  | keep {now : Tick}
      (nothing : line.flying ≠ none ∨ line.waiting.find? (Packet.isDue now) = none) :
      Serves places line (.start now) (.started none) line
  | count {p : Packet} {attempts : UInt8} (flies : line.flying = some p) :
      Serves places line (.count attempts) (.counted true) (line.refit { p with attempts })
  | uncounted {attempts : UInt8} (grounded : line.flying = none) :
      Serves places line (.count attempts) (.counted false) line
  | complete {p : Packet} (flies : line.flying = some p) :
      Serves places line .complete (.completed (some p)) line.land
  | rest (grounded : line.flying = none) :
      Serves places line .complete (.completed none) line
  | withdraw {p : Packet} (member : p ∈ line.waiting) :
      Serves places line (.remove p.descriptor.seq) (.removed (some (.queued p))) (line.strike p)
  | abandon {p : Packet} (flies : line.flying = some p) :
      Serves places line (.remove p.descriptor.seq) (.removed (some (.inFlight p))) line.land
  | miss {seq : UInt8} (absent : ∀ p ∈ line.packets, p.descriptor.seq ≠ seq) :
      Serves places line (.remove seq) (.removed none) line

namespace Outbox

variable {o o' : Outbox} {line line' : Line} {p q : Packet} {i : Nat} {seq : UInt8}
  {request : Request} {reply : Reply}

/-! ## Where a request is refused -/

theorem accept_eq_error (refused : o.accept p = .error q) : q = p ∧ o.held = o.capacity := by
  unfold accept at refused
  cases place : o.slots.findIdx? Slot.isIdle with
  | none =>
    simp only [place, Except.error.injEq] at refused
    refine ⟨refused.symm, List.countP_eq_length.mpr ?_⟩
    intro slot member
    simpa using List.findIdx?_eq_none_iff.mp place slot member
  | some i => simp [place] at refused

theorem held_lt_of_accept (accepted : o.accept p = .ok (i, o')) : o.held < o.capacity := by
  obtain ⟨replaced, -⟩ := accept_eq_ok accepted
  apply Nat.lt_of_le_of_ne o.held_le_capacity
  intro full
  have taken := List.countP_eq_length.mp full _ (List.mem_of_getElem? replaced.found)
  simp at taken

theorem inFlight?_of_complete (completed : o.complete = some (p, o')) :
    ∃ i, o.inFlight? = some (i, p) ∧ o' = { o with slots := o.slots.set i .idle } := by
  unfold complete at completed
  split at completed
  · cases completed
  · rename_i i q found
    cases completed
    exact ⟨i, found, rfl⟩

/-! ## One request -/

/-- The outbox replies as the line does, and the place that it tells is the right one. -/
theorem serves_of_serve (holds : o.Holds line) (few : line.accepted < 2 ^ 32)
    (served : o.serve request = (reply, o')) :
    ∃ line', line.Serves o.capacity request reply line' ∧ o'.Holds line' ∧ reply.Points o' line' ∧
      o'.capacity = o.capacity := by
  have held := holds.held_eq
  cases request with
  | accept p =>
    simp only [serve] at served
    split at served <;> rename_i accepted
    · cases served
      obtain ⟨rfl, full⟩ := accept_eq_error accepted
      exact ⟨line, .refuse (held.symm.trans full), holds, trivial, rfl⟩
    · cases served
      have room := held_lt_of_accept accepted
      obtain ⟨there, holds'⟩ := holds.accept accepted
      refine ⟨line.enter p, .accept (held ▸ room), holds', ⟨line.numbered p, ?_, there⟩, ?_⟩
      · exact List.getLast?_concat
      · exact (accept_eq_ok accepted).1.length_eq
  | start now =>
    simp only [serve] at served
    split at served <;> rename_i started
    · cases served
      exact ⟨line, .keep (holds.startNext_eq_none_iff.mp started), holds, trivial, rfl⟩
    · cases served
      obtain ⟨-, q, promoted, -⟩ := startNext_eq_some started
      obtain ⟨grounded, p, member, due, -, first, there, holds'⟩ := holds.startNext started
      exact ⟨line.launch p, .start grounded (first few), holds', ⟨p, rfl, there⟩,
        promoted.length_eq⟩
  | count attempts =>
    simp only [serve] at served
    split at served <;> rename_i found
    · cases served
      exact ⟨line, .uncounted (holds.inFlight?_eq_none_iff.mp found), holds, trivial, rfl⟩
    · rename_i i p
      cases served
      have flies := holds.flying_of_inFlight? found
      have replaced := slots_setInFlight found { p with attempts }
      have ticket : (o.setInFlight { p with attempts }).nextTicket = o.nextTicket := by
        simp only [setInFlight, found]
      exact ⟨_, .count flies, holds.refit flies ticket replaced, trivial, replaced.length_eq⟩
  | complete =>
    simp only [serve] at served
    split at served <;> rename_i completed
    · cases served
      have grounded : o.inFlight? = none := by
        by_contra there
        obtain ⟨entry, found⟩ := Option.ne_none_iff_exists'.mp there
        rw [complete_of_inFlight? found] at completed
        cases completed
      exact ⟨line, .rest (holds.inFlight?_eq_none_iff.mp grounded), holds, trivial, rfl⟩
    · rename_i p after
      cases served
      obtain ⟨i, found, rfl⟩ := inFlight?_of_complete completed
      have flies := holds.flying_of_inFlight? found
      have freed : Replaces i (.inFlight p) .idle o.slots (o.slots.set i .idle) :=
        ⟨slot_of_inFlight? found, rfl⟩
      exact ⟨line.land, .complete flies, holds.land flies rfl freed, trivial, freed.length_eq⟩
  | remove seq =>
    simp only [serve] at served
    split at served <;> rename_i removed
    · cases served
      refine ⟨line, .miss ?_, holds, trivial, rfl⟩
      intro p member
      exact remove_eq_none removed p (holds.perm_packets.mem_iff.mpr member)
    · cases served
      obtain ⟨i, -, freed, -⟩ := remove_eq_some removed
      obtain ⟨p, rfl, ⟨rfl, member, holds'⟩ | ⟨rfl, flies, holds'⟩⟩ := holds.remove removed
      · exact ⟨line.strike p, .withdraw member, holds', trivial, freed.length_eq⟩
      · exact ⟨line.land, .abandon flies, holds', trivial, freed.length_eq⟩

end Outbox

/-! ## What a line keeps -/

namespace Line

variable {line line' : Line} {places : Nat} {request : Request} {reply : Reply}

/-- What comes in by a request is held, and what is no longer held has left by it. Only counts of
    attempts may change. -/
theorem Serves.balance (serves : line.Serves places request reply line') :
    (((Outbox.entered? (request, reply)).map line.numbered).toList ++ line.packets).map
        Packet.untried |>.Perm
      (((Outbox.left? (request, reply)).toList ++ line'.packets).map Packet.untried) := by
  cases serves with
  | @accept p i room =>
    apply List.Perm.map
    have last := (List.perm_append_singleton (line.numbered p) line.packets).symm
    rwa [packets, List.append_assoc] at last
  | refuse full => exact .refl _
  | @start now p i grounded first =>
    apply List.Perm.map
    simp only [packets, launch, grounded]
    exact List.perm_cons_erase (List.mem_of_find?_eq_some first)
  | keep nothing => exact .refl _
  | @count p attempts flies =>
    simp only [packets, flies, refit]
    exact .refl _
  | uncounted grounded => exact .refl _
  | @complete p flies =>
    simp only [packets, flies, land]
    exact .refl _
  | rest grounded => exact .refl _
  | @withdraw p member =>
    apply List.Perm.map
    have out := (List.perm_cons_erase member).append_left line.flying.toList
    exact out.trans List.perm_middle
  | @abandon p flies =>
    simp only [packets, flies, land]
    exact .refl _
  | miss absent => exact .refl _

theorem Serves.accepted_eq (serves : line.Serves places request reply line') :
    line'.accepted = line.accepted + (Outbox.entered? (request, reply)).toList.length := by
  cases serves <;> rfl

end Line

/-! ## Runs -/

namespace Outbox

variable {capacity : Nat} {o : Outbox} {history : List ((Request × Reply) × Outbox)}

/-- A moment in the life of an outbox and the same moment in the line that it holds. -/
structure SameMoment (entry : (Request × Reply) × Outbox) (moment : (Request × Reply) × Line) :
    Prop where
  said : moment.1 = entry.1
  holds : entry.2.Holds moment.2
  points : entry.1.2.Points entry.2 moment.2

/-- The line has lived as the outbox has, and the books of what has come in and left balance. -/
structure Mirrored (capacity : Nat) (history : List ((Request × Reply) × Outbox)) (o : Outbox)
    (moments : List ((Request × Reply) × Line)) (line : Line) : Prop where
  trace : Trace (fun line said line' => line.Serves capacity said.1 said.2 line') {} moments line
  moments : List.Forall₂ SameMoment history moments
  holds : o.Holds line
  places : o.capacity = capacity
  accepted : line.accepted = (enteredIn history).length
  balance : ((enteredIn history).map Packet.untried).Perm
    ((leftIn history ++ o.packets).map Packet.untried)

theorem mirrored_empty (capacity : Nat) : Mirrored capacity [] (.empty capacity) [] {} := by
  constructor
  case trace => exact .nil _
  case moments => exact .nil
  case holds => exact holds_empty capacity
  case places => exact capacity_empty capacity
  case accepted => rfl
  case balance =>
    have none_held := (holds_empty capacity).perm_packets
    have empty : (Outbox.empty capacity).packets = [] := none_held.eq_nil
    rw [empty]
    exact .nil

theorem Mirrored.serve {moments : List ((Request × Reply) × Line)} {line : Line} {o' : Outbox}
    {request : Request} {reply : Reply} (mirrored : Mirrored capacity history o moments line)
    (few : line.accepted < 2 ^ 32) (served : o.serve request = (reply, o')) :
    ∃ line', Mirrored capacity (history ++ [((request, reply), o')]) o'
      (moments ++ [((request, reply), line')]) line' := by
  obtain ⟨line', serves, holds', points, places⟩ := serves_of_serve mirrored.holds few served
  rw [mirrored.places] at serves places
  have entered : enteredIn (history ++ [((request, reply), o')]) =
      enteredIn history ++ ((entered? (request, reply)).map line.numbered).toList := by
    unfold enteredIn
    rw [List.filterMap_append]
    cases said : entered? (request, reply) with
    | none => simp [said]
    | some p =>
      have count := mirrored.accepted
      rw [enteredIn, length_numberAll] at count
      simp [said, numberAll_append_singleton, Line.numbered, count]
  have left : leftIn (history ++ [((request, reply), o')]) =
      leftIn history ++ (left? (request, reply)).toList := by
    unfold leftIn
    rw [List.filterMap_append]
    cases said : left? (request, reply) <;> simp [said]
  refine ⟨line', ?_⟩
  constructor
  case trace => exact mirrored.trace.append (.single serves)
  case moments =>
    apply List.rel_append mirrored.moments
    exact .cons ⟨rfl, holds', points⟩ .nil
  case holds => exact holds'
  case places => exact places
  case accepted =>
    rw [serves.accepted_eq, entered, mirrored.accepted, List.length_append]
    cases entered? (request, reply) <;> rfl
  case balance =>
    have before := mirrored.holds.perm_packets.map Packet.untried
    have after := holds'.perm_packets.map Packet.untried
    have step := serves.balance
    rw [entered, left]
    simp only [List.map_append, List.append_assoc] at step ⊢
    have now_held := step.trans (after.symm.append_left _)
    have balance := mirrored.balance
    rw [List.map_append] at balance
    refine (balance.append_right _).trans ?_
    rw [List.append_assoc]
    refine List.Perm.append_left _ (List.perm_append_comm.trans ?_)
    exact (before.append_left _).trans now_held

theorem length_enteredIn_le (history : List ((Request × Reply) × Outbox)) :
    (enteredIn history).length ≤ history.countP fun entry => entry.1.1.accepts := by
  rw [enteredIn, length_numberAll, List.length_filterMap_eq_countP]
  apply List.countP_mono_left
  rintro ⟨⟨request, reply⟩, o⟩ member entered
  cases request <;> simp_all [entered?, Request.accepts]

/-- The packets accepted differ from each other, whatever their counts of attempts. -/
theorem nodup_enteredIn (few : (enteredIn history).length ≤ 2 ^ 32) :
    ((enteredIn history).map Packet.untried).Nodup := by
  rw [enteredIn, length_numberAll] at few
  exact nodup_numberAll few

/-- Whatever is asked of an outbox, at whatever ticks, as long as fewer than `2 ^ 32` packets are
    offered to it: there is a line of packets in the order of their acceptance that is asked the
    same, replies the same and is at every moment what the places hold. Every packet accepted is
    held or has left, once, and unaltered but for its count of attempts. -/
theorem line_of_trace
    (trace : Trace (fun o said o' => o.serve said.1 = (said.2, o')) (.empty capacity) history o)
    (few : (history.countP fun entry => entry.1.1.accepts) < 2 ^ 32) :
    ∃ moments line,
      Trace (fun line said line' => line.Serves capacity said.1 said.2 line') {} moments line ∧
        List.Forall₂ SameMoment history moments ∧ o.Holds line ∧
        ((enteredIn history).map Packet.untried).Nodup ∧
        ((enteredIn history).map Packet.untried).Perm
          ((leftIn history ++ o.packets).map Packet.untried) := by
  have mirrored : (history.countP fun entry => entry.1.1.accepts) < 2 ^ 32 →
      ∃ moments line, Mirrored capacity history o moments line := by
    refine trace.invariant (K := fun _ => True)
      (I := fun past o => (past.countP fun entry => entry.1.1.accepts) < 2 ^ 32 →
        ∃ moments line, Mirrored capacity past o moments line) ?_ ?_ ?_
    · intro _
      exact ⟨[], {}, mirrored_empty capacity⟩
    · rintro past o ⟨request, reply⟩ o' earlier served - few
      rw [List.countP_append] at few
      have fewer : (past.countP fun entry => entry.1.1.accepts) < 2 ^ 32 :=
        Nat.lt_of_le_of_lt (Nat.le_add_right _ _) few
      obtain ⟨moments, line, mirrored⟩ := earlier fewer
      have within : line.accepted < 2 ^ 32 := by
        rw [mirrored.accepted]
        exact Nat.lt_of_le_of_lt (length_enteredIn_le past) fewer
      obtain ⟨line', next⟩ := mirrored.serve within served
      exact ⟨_, line', next⟩
    · intro entry member
      trivial
  obtain ⟨moments, line, mirrored⟩ := mirrored few
  have distinct := Nat.le_of_lt (Nat.lt_of_le_of_lt (length_enteredIn_le history) few)
  exact ⟨moments, line, mirrored.trace, mirrored.moments, mirrored.holds,
    nodup_enteredIn distinct, mirrored.balance⟩

/-- Put the outbox through the requests, one after the other. -/
def serveAll (o : Outbox) : List Request → List ((Request × Reply) × Outbox)
  | [] => []
  | request :: rest =>
    ((request, (o.serve request).1), (o.serve request).2) :: (o.serve request).2.serveAll rest

theorem trace_serveAll (o : Outbox) (requests : List Request) : ∃ last,
    Trace (fun o said o' => o.serve said.1 = (said.2, o')) o (o.serveAll requests) last := by
  induction requests generalizing o with
  | nil => exact ⟨o, .nil o⟩
  | cons request rest ih =>
    obtain ⟨last, later⟩ := ih (o.serve request).2
    exact ⟨last, .cons rfl later⟩

/-- An empty packet to be sent at the given tick. -/
def timedPacket (seq : UInt8) (sendAt : Tick) : Packet :=
  { descriptor := { seq, sendAt }, payload := [] }

/-- A packet to be sent later keeps its turn while the place beside it is used twice. -/
theorem line_of_trace_reused :
    ∃ history o moments line,
      Trace (fun o said o' => o.serve said.1 = (said.2, o')) (.empty 2) history o ∧
        history.map (fun entry => entry.1.2) =
          [.accepted 0, .accepted 1, .started (some 1), .counted true,
            .completed (some { timedPacket 2 0 with attempts := 1, ticket := 1 }), .accepted 1,
            .refused (timedPacket 4 0), .started (some 1),
            .removed (some (.inFlight { timedPacket 3 0 with ticket := 2 })), .started (some 0)] ∧
        Trace (fun line said line' => line.Serves 2 said.1 said.2 line') {} moments line ∧
        List.Forall₂ SameMoment history moments ∧ o.Holds line ∧
        ((enteredIn history).map Packet.untried).Nodup ∧
        ((enteredIn history).map Packet.untried).Perm
          ((leftIn history ++ o.packets).map Packet.untried) := by
  obtain ⟨o, trace⟩ := trace_serveAll (.empty 2)
    [.accept (timedPacket 1 5), .accept (timedPacket 2 0), .start 0, .count 1, .complete,
      .accept (timedPacket 3 0), .accept (timedPacket 4 0), .start 3, .remove 3, .start 5]
  obtain ⟨moments, line, alike⟩ := line_of_trace trace (by decide)
  exact ⟨_, o, moments, line, trace, by decide, alike⟩

end Outbox

end MoteLink.Link
