import Mathlib.Algebra.Order.Group.Multiset
import MoteLink.Proofs.Link.Outbox
import MoteLink.Proofs.Link.Run
import MoteLink.Proofs.Link.Station
import MoteLink.Settle

/-!
# The ledger of a link

A ledger lists the packets that a link holds, each as it was accepted, and the outcomes that wait to
be fetched. `Resolves` says how packets leave it with an outcome, and `Posts` lists what a call may
do to it. Nothing here depends on how the link senses the channel.
-/

namespace MoteLink

namespace Fifo

variable {α : Type}

/-- Put items at the end, one after the other. -/
def pushAll (q : Fifo α) (items : List α) : Fifo α := items.foldl push q

theorem mem_items_push {q : Fifo α} {a b : α} (member : b ∈ (q.push a).items) :
    b ∈ q.items ∨ b = a := by
  by_cases room : q.items.length < q.capacity
  · rw [q.items_push_of_lt a room, List.mem_append, List.mem_singleton] at member
    exact member
  · rw [q.push_of_full a (Nat.not_lt.mp room)] at member
    exact .inl member

theorem pushAll_append (q : Fifo α) (first second : List α) :
    q.pushAll (first ++ second) = (q.pushAll first).pushAll second := by
  simp [pushAll]

@[simp] theorem capacity_pushAll (q : Fifo α) (items : List α) :
    (q.pushAll items).capacity = q.capacity := by
  unfold pushAll
  induction items generalizing q with
  | nil => rfl
  | cons item rest ih =>
    rw [List.foldl_cons, ih, capacity_push]

theorem length_items_pushAll_le (q : Fifo α) (items : List α) :
    (q.pushAll items).items.length ≤ q.items.length + items.length := by
  unfold pushAll
  induction items generalizing q with
  | nil => exact Nat.le_refl _
  | cons item rest ih =>
    have pushed : (q.push item).items.length ≤ q.items.length + 1 := by
      by_cases room : q.items.length < q.capacity
      · rw [q.items_push_of_lt item room, List.length_append, List.length_singleton]
      · rw [q.push_of_full item (Nat.not_lt.mp room)]
        exact Nat.le_succ _
    have later := ih (q.push item)
    rw [List.foldl_cons, List.length_cons]
    omega

/-- Where there is room for all items none of them is lost. -/
theorem items_pushAll {q : Fifo α} {items : List α}
    (room : q.items.length + items.length ≤ q.capacity) :
    (q.pushAll items).items = q.items ++ items := by
  unfold pushAll
  induction items generalizing q with
  | nil => simp
  | cons item rest ih =>
    rw [List.length_cons] at room
    have pushed := q.items_push_of_lt item (by omega)
    have left : (q.push item).items.length + rest.length ≤ (q.push item).capacity := by
      rw [pushed, capacity_push, List.length_append, List.length_singleton]
      omega
    rw [List.foldl_cons, ih left, pushed, List.append_assoc, List.singleton_append]

end Fifo

namespace Link

/-- The packet as it was when nothing had been tried with it. -/
def Packet.untried (p : Packet) : Packet := { p with attempts := 0 }

/-- The end of a packet: sent, unless a reason is given. -/
structure Resolution where
  packet : Packet
  reason : Option FailureReason

def Resolution.outcome (r : Resolution) : Outcome := r.packet.outcome r.reason

/-- The packets held, the outcomes to be fetched, the number of the next acceptance and the number
    of places. -/
structure Ledger where
  held : Multiset Packet
  outcomes : Fifo Outcome
  nextTicket : UInt32
  places : Nat

variable {ρ γ ε : Type}

/-- The packet that a call brings in by its answer. -/
def accepted? (link : Link ρ γ) (call : Call) (answer : Answer ε) : Option Packet :=
  match link.submission? call, answer with
  | some (d, payload), .submitted (.ok seq) =>
    match ({ d with seq } : Descriptor).encodedLength with
    | .ok headerLength => some { descriptor := { d with seq, headerLength }, payload }
    | .error _ => none
  | _, _ => none

theorem submission?_congr {link other : Link ρ γ} (method : link.method = other.method)
    (config : link.station.config = other.station.config) :
    link.submission? = other.submission? := by
  funext call
  cases call with
  | send dst payload => simp only [submission?, Station.localDescriptor, method, config]
  | submit d payload => rfl
  | receive frame => rfl
  | poll => rfl
  | cancel seq => rfl

theorem accepted?_congr {link other : Link ρ γ} (method : link.method = other.method)
    (config : link.station.config = other.station.config) :
    link.accepted? (ε := ε) = other.accepted? := by
  funext call answer
  unfold accepted?
  rw [submission?_congr method config]

theorem accepted?_eq_none {link : Link ρ γ} {call : Call} {answer : Answer ε}
    (other : ∀ seq, answer ≠ .submitted (.ok seq)) : link.accepted? call answer = none := by
  unfold accepted?
  split
  · exact absurd rfl (other _)
  · rfl

namespace Ledger

/-- The ledger of a station with an outbox. -/
def of (s : Station ρ γ) (o : Outbox) : Ledger where
  held := (o.packets.map Packet.untried : List Packet)
  outcomes := s.outcomes
  nextTicket := o.nextTicket
  places := o.capacity

/-- The packets resolved leave the ledger, and their outcomes are put up for fetching in the same
    order. -/
structure Resolves (resolved : List Resolution) (a b : Ledger) : Prop where
  held : a.held = (resolved.map Resolution.packet : List Packet) + b.held
  outcomes : b.outcomes = a.outcomes.pushAll (resolved.map Resolution.outcome)
  nextTicket : b.nextTicket = a.nextTicket
  places : b.places = a.places

namespace Resolves

variable {a b c : Ledger} {first second : List Resolution}

theorem refl (a : Ledger) : Resolves [] a a := ⟨(Multiset.zero_add _).symm, rfl, rfl, rfl⟩

theorem of_eq (same : b = a) : Resolves [] a b := same ▸ refl a

theorem trans (earlier : Resolves first a b) (later : Resolves second b c) :
    Resolves (first ++ second) a c := by
  refine ⟨?_, ?_, later.nextTicket.trans earlier.nextTicket, later.places.trans earlier.places⟩
  · rw [earlier.held, later.held, List.map_append, ← Multiset.coe_add, Multiset.add_assoc]
  · rw [later.outcomes, earlier.outcomes, List.map_append, Fifo.pushAll_append]

theorem length_le (resolves : Resolves first a b) :
    first.length + b.held.card = a.held.card := by
  rw [resolves.held, Multiset.card_add, Multiset.coe_card, List.length_map]

/-- With room for the outcomes of all packets resolved none of them is lost. -/
theorem items_eq (resolves : Resolves first a b)
    (room : a.outcomes.items.length + first.length ≤ a.outcomes.capacity) :
    b.outcomes.items = a.outcomes.items ++ first.map Resolution.outcome := by
  rw [resolves.outcomes]
  apply Fifo.items_pushAll
  rwa [List.length_map]

theorem capacity_eq (resolves : Resolves first a b) :
    b.outcomes.capacity = a.outcomes.capacity := by
  rw [resolves.outcomes, Fifo.capacity_pushAll]

theorem length_items_le (resolves : Resolves first a b) :
    b.outcomes.items.length ≤ a.outcomes.items.length + first.length := by
  rw [resolves.outcomes, ← first.length_map (f := Resolution.outcome)]
  exact a.outcomes.length_items_pushAll_le _

/-- Each packet resolved makes at most one outcome. -/
theorem length_add_card_le (resolves : Resolves first a b) :
    b.outcomes.items.length + b.held.card ≤ a.outcomes.items.length + a.held.card := by
  have told := resolves.length_items_le
  have ended := resolves.length_le
  omega

/-- The packets resolved whose outcomes are lost: where there are none, there was room for all. -/
theorem exists_lost (resolves : Resolves first a b) :
    ∃ lost, b.held.card + b.outcomes.items.length + lost =
        a.held.card + a.outcomes.items.length ∧
      (lost = 0 → a.outcomes.items.length + (a.held.card - b.held.card) ≤
        a.outcomes.capacity) := by
  have ended := resolves.length_le
  have told := resolves.length_items_le
  have fits := b.outcomes.length_le
  rw [resolves.capacity_eq] at fits
  refine ⟨a.outcomes.items.length + first.length - b.outcomes.items.length, ?_, ?_⟩ <;> omega

/-- What every step of a loop resolves, the loop resolves in a row. -/
theorem of_settle {σ : Type} {step : σ → Except Halt (Except (LinkError ε) Bool × σ)}
    (inv : σ → Prop) {ledger : σ → Ledger}
    (keep : ∀ s r s', inv s → step s = .ok (r, s') → inv s')
    (each : ∀ s r s', inv s → step s = .ok (r, s') → ∃ resolved,
      Resolves resolved (ledger s) (ledger s'))
    {rounds : Nat} {s s' : σ} {r : Except (LinkError ε) Unit} (start : inv s)
    (settled : settle step rounds s = .ok (r, s')) :
    ∃ resolved, Resolves resolved (ledger s) (ledger s') := by
  have both (t : σ) (r : Except (LinkError ε) Bool) (t' : σ)
      (before : inv t ∧ ∃ resolved, Resolves resolved (ledger s) (ledger t))
      (taken : step t = .ok (r, t')) :
      inv t' ∧ ∃ resolved, Resolves resolved (ledger s) (ledger t') := by
    obtain ⟨kept, earlier, upTo⟩ := before
    obtain ⟨resolved, resolves⟩ := each t r t' kept taken
    exact ⟨keep t r t' kept taken, _, upTo.trans resolves⟩
  exact (settle_invariant both ⟨start, [], refl _⟩ settled).2

end Resolves

/-- What a call may do to a ledger. `entered` tells which packet a call and its answer bring in. -/
inductive Posts (entered : Call → Answer ε → Option Packet) (a : Ledger) :
    Call → Answer ε → Ledger → Prop
  | accepted {call : Call} {seq : UInt8} {p : Packet} (submits : call.submits = true)
      (enters : entered call (.submitted (.ok seq)) = some p) :
      Posts entered a call (.submitted (.ok seq))
        { a with
          held := { p with ticket := a.nextTicket } ::ₘ a.held
          nextTicket := a.nextTicket + 1 }
  | refused {call : Call} (submits : call.submits = true) (e : LinkError ε) :
      Posts entered a call (.submitted (.error e)) a
  | received {frame : Bytes} {delivery : Option Delivery} {resolved : List Resolution} {b : Ledger}
      (resolves : Resolves resolved a b) : Posts entered a (.receive frame) (.received delivery) b
  | failed {e : LinkError ε} {resolved : List Resolution} {b : Ledger}
      (resolves : Resolves resolved a b) : Posts entered a .poll (.polled (.error e)) b
  | fetched {resolved : List Resolution} {b : Ledger} (resolves : Resolves resolved a b) :
      Posts entered a .poll (.polled (.ok b.outcomes.pop.1)) { b with outcomes := b.outcomes.pop.2 }
  | removed {p : Packet} {left : Multiset Packet} (held : a.held = p ::ₘ left) :
      Posts entered a (.cancel p.descriptor.seq) (.cancelled true) { a with held := left }
  | missed (seq : UInt8) : Posts entered a (.cancel seq) (.cancelled false) a

/-- No call changes the number of places, for packets or for outcomes. -/
theorem Posts.places {entered : Call → Answer ε → Option Packet} {a b : Ledger} {call : Call}
    {answer : Answer ε} (posts : Posts entered a call answer b) :
    b.places = a.places ∧ b.outcomes.capacity = a.outcomes.capacity := by
  cases posts with
  | accepted submits enters => exact ⟨rfl, rfl⟩
  | refused submits e => exact ⟨rfl, rfl⟩
  | received resolves => exact ⟨resolves.places, resolves.capacity_eq⟩
  | failed resolves => exact ⟨resolves.places, resolves.capacity_eq⟩
  | fetched resolves => exact ⟨resolves.places, (Fifo.capacity_pop _).trans resolves.capacity_eq⟩
  | removed held => exact ⟨rfl, rfl⟩
  | missed seq => exact ⟨rfl, rfl⟩

/-! ## The operations of an outbox in the ledger -/

variable {s s' : Station ρ γ} {o o' : Outbox} {i : Nat} {p : Packet} {now : Tick}

theorem card_held_of (s : Station ρ γ) (o : Outbox) : (of s o).held.card = o.held := by
  rw [of, Multiset.coe_card, List.length_map, o.held_eq_length_packets]

/-- A change in one place exchanges the packet there, if its attempts are not counted. -/
theorem held_replace (s s' : Station ρ γ) {old new : Slot}
    (replaced : Replaces i old new o.slots o'.slots) :
    ((new.packet?.map Packet.untried).toList : Multiset Packet) + (of s o).held =
      ((old.packet?.map Packet.untried).toList : Multiset Packet) + (of s' o').held := by
  have exchanged := (Outbox.packets_perm replaced).map Packet.untried
  rw [List.map_append, List.map_append, ← Option.toList_map, ← Option.toList_map] at exchanged
  exact Multiset.coe_eq_coe.mpr exchanged

/-- Where a packet is changed only in its attempts or moved into flight the ledger stays. -/
theorem of_replace {old new : Slot} (replaced : Replaces i old new o.slots o'.slots)
    (same : new.packet?.map Packet.untried = old.packet?.map Packet.untried)
    (ticket : o'.nextTicket = o.nextTicket) (outcomes : s'.outcomes = s.outcomes) :
    of s' o' = of s o := by
  have exchanged := held_replace s s' replaced
  rw [same] at exchanged
  have held : (of s' o').held = (of s o).held := (Multiset.add_right_inj.mp exchanged).symm
  have places : o'.capacity = o.capacity := replaced.length_eq
  calc of s' o' = { of s o with held := (of s' o').held } := by
        simp only [of, ticket, outcomes, places]
    _ = of s o := by rw [held]

theorem of_sameBooks (same : s.SameBooks s') : of s' o = of s o := by
  simp only [of, same.outcomes]

/-- A packet that has passed the check and found a place is entered. -/
theorem posts_accept {link : Link ρ γ} {call : Call} {d : Descriptor} {payload : Bytes}
    (submits : link.submission? call = some (d, payload))
    (prepared : s.prepare (ε := ε) d payload = (.ok p, s')) (placed : o.accept p = .ok (i, o')) :
    Posts (ε := ε) link.accepted? (of s o) call (.submitted (.ok p.descriptor.seq)) (of s' o') := by
  have enters : link.accepted? (ε := ε) call (.submitted (.ok p.descriptor.seq)) = some p := by
    obtain ⟨seq, headerLength, rfl, encoded, -⟩ := Station.prepare_eq_ok prepared
    simp only [accepted?, submits, encoded]
  have fresh : p.untried = p := by
    obtain ⟨seq, headerLength, rfl, -⟩ := Station.prepare_eq_ok prepared
    rfl
  have outcomes := (Station.sameBooks_of_prepare prepared).2
  obtain ⟨replaced, ticket⟩ := Outbox.accept_eq_ok placed
  have places : o'.capacity = o.capacity := replaced.length_eq
  have held : (of s' o').held = { p with ticket := o.nextTicket } ::ₘ (of s o).held := by
    have exchanged := held_replace s s' replaced
    have shown : ({ p with ticket := o.nextTicket } : Packet).untried =
        { p with ticket := o.nextTicket } := by
      rw [Packet.untried, ← congrArg Packet.attempts fresh]
      rfl
    simpa [shown] using exchanged.symm
  have entry : of s' o' = { of s o with
      held := { p with ticket := o.nextTicket } ::ₘ (of s o).held
      nextTicket := o.nextTicket + 1 } := by
    rw [← held]
    simp only [of, ticket, outcomes, places]
  rw [entry]
  exact .accepted (submits_of_submission? submits) enters

theorem posts_submitted {link : Link ρ γ} {call : Call} {d : Descriptor} {payload : Bytes}
    {result : Except (LinkError ε) UInt8}
    (submits : link.submission? call = some (d, payload))
    (submitted : s.Submitted o d payload result s' o') :
    Posts (ε := ε) link.accepted? (of s o) call (.submitted result) (of s' o') := by
  have outcomes := submitted.books.2
  cases submitted with
  | @unfit e _ prepared =>
    have same : of s' o = of s o := by simp only [of, outcomes]
    exact same ▸ .refused (submits_of_submission? submits) e
  | full prepared refused =>
    have same : of s' o = of s o := by simp only [of, outcomes]
    exact same ▸ .refused (submits_of_submission? submits) .queueFull
  | accepted prepared placed => exact posts_accept submits prepared placed

/-- A packet that is let go is resolved. -/
theorem resolves_release (o' : Outbox) {reason : Option FailureReason}
    (freed : Replaces i (.inFlight p) .idle o.slots o'.slots)
    (ticket : o'.nextTicket = o.nextTicket) (outcomes : s'.outcomes = s.outcomes) :
    Resolves [⟨p.untried, reason⟩] (of s o) (of (s'.emit (p.outcome reason)) o') := by
  have exchanged := held_replace s (s'.emit (p.outcome reason)) freed
  refine ⟨?_, ?_, ticket, freed.length_eq⟩
  · simpa using exchanged
  · simp only [of, Station.outcomes_emit, outcomes]
    rfl

/-- A packet that is removed leaves no trace. -/
theorem of_remove {slot : Slot} {seq : UInt8} (removed : o.remove seq = some (slot, o')) :
    ∃ p, (of s o).held = p ::ₘ (of s o').held ∧ p.descriptor.seq = seq ∧
      of s o' = { of s o with held := (of s o').held } := by
  obtain ⟨i, p, freed, shown, carried, ticket⟩ := Outbox.remove_eq_some removed
  have exchanged := held_replace s s freed
  have places : o'.capacity = o.capacity := freed.length_eq
  refine ⟨p.untried, ?_, carried, ?_⟩
  · simpa [shown] using exchanged
  · simp only [of, ticket, places]

theorem posts_remove (entered : Call → Answer ε → Option Packet) (s : Station ρ γ) {slot : Slot}
    {seq : UInt8} (removed : o.remove seq = some (slot, o')) :
    Posts entered (of s o) (.cancel seq) (.cancelled true) (of s o') := by
  obtain ⟨p, held, rfl, left⟩ := of_remove (s := s) removed
  rw [left]
  exact .removed held

end Ledger

end Link

end MoteLink
