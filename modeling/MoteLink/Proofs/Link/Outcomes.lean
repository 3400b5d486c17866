import Mathlib.Data.List.Chain
import Mathlib.Tactic.Abel
import MoteLink.Proofs.Link.Line
import MoteLink.Proofs.Link.Queueing
import MoteLink.Radio.Bench

/-!
# One outcome for every packet accepted

A packet accepted is held until it is cancelled or until a call completes it, and then its one
outcome waits to be fetched, in order. That is so exactly as long as no call completes more packets
than there are places left for outcomes. A caller who polls until nothing is left finds all the
places free, so that nothing can be lost while the link holds no more packets than it keeps
outcomes; with more of them one poll may complete too many.
-/

namespace MoteLink

namespace Link

variable {ρ γ ε : Type}

/-! ## What a history tells -/

/-- The caller has to poll next. -/
def Event.owesPoll (event : Event ρ ε) : Bool :=
  match event.call, event.answer with
  | .receive _, _ => true
  | .poll, .polled (.ok (some _)) => true
  | _, _ => false

/-- A poll that has failed, because the radio could not tell whether the channel is clear. -/
def Event.isDeaf (event : Event ρ ε) : Bool :=
  match event.answer with
  | .polled (.error _) => true
  | _ => false

/-- The sequence number by which the call has cancelled a packet. -/
def Event.cancelled? (event : Event ρ ε) : Option UInt8 :=
  match event.call, event.answer with
  | .cancel seq, .cancelled true => some seq
  | _, _ => none

/-- The outcome that the call has fetched. -/
def Event.fetched? (event : Event ρ ε) : Option Outcome :=
  match event.answer with
  | .polled (.ok outcome) => outcome
  | _ => none

/-- After a frame has come in, and after an outcome has been fetched, the next call is a poll; and
    no poll fails. -/
structure Disciplined (history : List (Event ρ ε)) : Prop where
  drains : history.IsChain fun earlier later => earlier.owesPoll = true → later.call = .poll
  hears : ∀ event ∈ history, event.isDeaf = false

/-- The packets accepted, each with the number of its acceptance. -/
def accepted (start : Link ρ γ) (history : List (Event ρ ε)) : List Packet :=
  (history.filterMap fun event => start.accepted? event.call event.answer).mapIdx fun i p =>
    { p with ticket := UInt32.ofNat i }

/-- Every packet accepted is in one place: it is held, or it has been cancelled, or it has been
    resolved and its one outcome has been fetched or waits to be. -/
def Accounted (start : Link ρ γ) (history : List (Event ρ ε)) (ledger : Ledger) : Prop :=
  ∃ (cancelled : List Packet) (resolved : List Resolution),
    (start.accepted history : Multiset Packet) =
        ledger.held + (cancelled : Multiset Packet) +
          (resolved.map Resolution.packet : List Packet) ∧
      cancelled.map (·.descriptor.seq) = history.filterMap Event.cancelled? ∧
      resolved.map Resolution.outcome = history.filterMap Event.fetched? ++ ledger.outcomes.items

/-- The packets that a call completes, where so many are held before it and so many after it. A
    packet that is cancelled is not completed. -/
def Call.completed (before after : Nat) : Call → Nat
  | .receive _ => before - after
  | .poll => before - after
  | _ => 0

theorem Call.completed_of_submits {call : Call} (submits : call.submits = true)
    (before after : Nat) : call.completed before after = 0 := by
  cases call with
  | send dst payload => rfl
  | submit d payload => rfl
  | receive frame => cases submits
  | poll => cases submits
  | cancel seq => rfl

theorem Call.completed_le (call : Call) (before after : Nat) :
    call.completed before after ≤ before := by
  cases call with
  | send dst payload => exact Nat.zero_le _
  | submit d payload => exact Nat.zero_le _
  | receive frame => exact Nat.sub_le _ _
  | poll => exact Nat.sub_le _ _
  | cancel seq => exact Nat.zero_le _

/-- No call of the history completes more packets than there are places left for outcomes. -/
def Fits [Transceiver ρ ε] [RandomSource γ] (start : Link ρ γ) (history : List (Event ρ ε)) :
    Prop :=
  ∀ before event later found after, history = before ++ event :: later → Run start before found →
    (found.setRadio event.radio).perform event.now event.call = .ok (event.answer, after) →
    found.station.outcomes.items.length + event.call.completed found.held after.held ≤
      outcomeCapacity

/-- The packets held and cancelled, and the outcomes fetched and waiting. -/
def tally (history : List (Event ρ ε)) (ledger : Ledger) : Nat :=
  ledger.held.card + (history.filterMap Event.cancelled?).length +
    ((history.filterMap Event.fetched?).length + ledger.outcomes.items.length)

variable {start link : Link ρ γ} {history : List (Event ρ ε)} {event : Event ρ ε} {a b : Ledger}

theorem filterMap_singleton {α β : Type} (f : α → Option β) (x : α) :
    [x].filterMap f = (f x).toList := by
  cases shown : f x <;> simp [shown]

theorem Disciplined.init (disciplined : Disciplined (history ++ [event])) : Disciplined history :=
  ⟨disciplined.drains.left_of_append,
    fun earlier member => disciplined.hears earlier (List.mem_append_left _ member)⟩

/-- Nothing but a poll is called while one is owed. -/
theorem Disciplined.settled (disciplined : Disciplined (history ++ [event]))
    (other : event.call ≠ .poll) : ∀ last ∈ history.getLast?, last.owesPoll = false := by
  intro last member
  have next := (List.isChain_append.mp disciplined.drains).2.2 last member event rfl
  by_contra owes
  exact other (next (by simpa using owes))

theorem accepted_append_none (history : List (Event ρ ε))
    (nothing : start.accepted? event.call event.answer = none) :
    start.accepted (history ++ [event]) = start.accepted history := by
  simp [accepted, List.filterMap_append, nothing]

theorem accepted_append_some (history : List (Event ρ ε)) {p : Packet}
    (enters : start.accepted? event.call event.answer = some p) :
    start.accepted (history ++ [event]) =
      start.accepted history ++
        [{ p with ticket := UInt32.ofNat (start.accepted history).length }] := by
  simp [accepted, List.filterMap_append, enters]

/-- The first `2 ^ 32` packets accepted differ from each other. -/
theorem nodup_accepted (short : (start.accepted history).length ≤ 2 ^ 32) :
    (start.accepted history).Nodup := by
  rw [accepted, List.length_mapIdx] at short
  exact (nodup_numberAll short).of_map Packet.untried

/-- Where every packet is accounted for the numbers add up. -/
theorem Accounted.length_eq (accounted : Accounted start history a) :
    (start.accepted history).length = tally history a := by
  obtain ⟨cancelled, resolved, whole, taken, told⟩ := accounted
  have all := congrArg Multiset.card whole
  rw [Multiset.card_add, Multiset.card_add, Multiset.coe_card, Multiset.coe_card, Multiset.coe_card,
    List.length_map] at all
  have gone := congrArg List.length taken
  have ended := congrArg List.length told
  rw [List.length_map] at gone ended
  rw [all, gone, ended, List.length_append, tally]

/-! ## Keeping the balance -/

/-- The ledger agrees with the history. -/
structure Balanced (start : Link ρ γ) (history : List (Event ρ ε)) (ledger : Ledger) : Prop where
  accounted : Accounted start history ledger
  numbered : ledger.nextTicket = UInt32.ofNat (start.accepted history).length

theorem ledger_new (method : Method) (capacity : Nat) (config : Config) (radio : ρ) (rng : γ) :
    (Link.new method capacity config radio rng).ledger.held = 0 ∧
      (Link.new method capacity config radio rng).ledger.outcomes = .empty outcomeCapacity ∧
      (Link.new method capacity config radio rng).ledger.nextTicket = 0 := by
  refine ⟨?_, ?_, ?_⟩
  · rw [← Multiset.card_eq_zero, card_held_ledger]
    cases method with
    | passThrough => rfl
    | carrierSense => exact Outbox.held_empty capacity
    | acknowledged => exact Outbox.held_empty capacity
    | timeSlot => rfl
  · cases method <;> rfl
  · cases method <;> rfl

theorem balanced_new (method : Method) (capacity : Nat) (config : Config) (radio : ρ) (rng : γ) :
    Balanced (ε := ε) (.new method capacity config radio rng) []
      (Link.ledger (.new method capacity config radio rng)) := by
  obtain ⟨free, empty, first⟩ := ledger_new method capacity config radio rng
  refine ⟨⟨[], [], ?_, rfl, ?_⟩, first⟩
  · rw [free]
    rfl
  · rw [empty]
    rfl

/-- One call more: what it brings in, cancels, resolves and fetches is added to the account. -/
theorem Accounted.append (accounted : Accounted start history a) (gone : List Packet)
    (more : List Resolution)
    (moved : (start.accepted (history ++ [event]) : Multiset Packet) + a.held =
      (start.accepted history : Multiset Packet) + b.held + (gone : Multiset Packet) +
        (more.map Resolution.packet : List Packet))
    (cancelled : gone.map (·.descriptor.seq) = event.cancelled?.toList)
    (fetched : a.outcomes.items ++ more.map Resolution.outcome =
      event.fetched?.toList ++ b.outcomes.items) :
    Accounted start (history ++ [event]) b := by
  obtain ⟨earlier, resolved, whole, taken, told⟩ := accounted
  refine ⟨earlier ++ gone, resolved ++ more, ?_, ?_, ?_⟩
  · rw [whole] at moved
    apply Multiset.add_left_inj.mp
    rw [moved, List.map_append, ← Multiset.coe_add, ← Multiset.coe_add]
    abel
  · rw [List.map_append, taken, cancelled, List.filterMap_append, filterMap_singleton]
  · rw [List.map_append, told, List.append_assoc, fetched, List.filterMap_append,
      filterMap_singleton, List.append_assoc]

section Calls

variable (balanced : Balanced start history a)
include balanced

theorem Balanced.enter {p : Packet} {seq : UInt8} (replied : event.answer = .submitted (.ok seq))
    (enters : start.accepted? event.call event.answer = some p) :
    Balanced start (history ++ [event])
      { a with
        held := { p with ticket := a.nextTicket } ::ₘ a.held
        nextTicket := a.nextTicket + 1 } := by
  have grown := accepted_append_some history enters
  rw [← balanced.numbered] at grown
  constructor
  case accounted =>
    refine balanced.accounted.append [] [] ?_ ?_ ?_
    · rw [grown, ← Multiset.coe_add, Multiset.coe_singleton, ← Multiset.singleton_add]
      simp only [List.map_nil, Multiset.coe_nil]
      abel
    · simp [Event.cancelled?, replied]
    · simp [Event.fetched?, replied]
  case numbered =>
    rw [grown, List.length_append, List.length_singleton, UInt32.ofNat_add, ← balanced.numbered]
    rfl

/-- A call that brings in and cancels nothing: the packets that it resolves leave with their
    outcomes, and one of the outcomes may be fetched. -/
theorem Balanced.resolve {more : List Resolution} {outcomes : Fifo Outcome}
    (resolves : a.Resolves more b) (unentered : start.accepted? event.call event.answer = none)
    (uncancelled : event.cancelled? = none)
    (fetched : a.outcomes.items ++ more.map Resolution.outcome =
      event.fetched?.toList ++ outcomes.items) :
    Balanced start (history ++ [event]) { b with outcomes } := by
  have same := accepted_append_none history unentered
  constructor
  case accounted =>
    refine balanced.accounted.append [] more ?_ ?_ fetched
    · rw [same, resolves.held, Multiset.coe_nil]
      abel
    · rw [uncancelled]
      rfl
  case numbered => rw [same, ← balanced.numbered, ← resolves.nextTicket]

theorem Balanced.remove {p : Packet} {left : Multiset Packet}
    (asked : event.call = .cancel p.descriptor.seq) (replied : event.answer = .cancelled true)
    (held : a.held = p ::ₘ left) :
    Balanced start (history ++ [event]) { a with held := left } := by
  have unentered : start.accepted? event.call event.answer = none := by
    rw [replied]
    exact accepted?_eq_none nofun
  have same := accepted_append_none history unentered
  constructor
  case accounted =>
    refine balanced.accounted.append [p] [] ?_ ?_ ?_
    · rw [same, held, Multiset.coe_singleton, ← Multiset.singleton_add]
      simp only [List.map_nil, Multiset.coe_nil]
      abel
    · simp [Event.cancelled?, asked, replied]
    · simp [Event.fetched?, replied]
  case numbered => rw [same, balanced.numbered]

/-- Every call keeps the balance that completes no more packets than there are places for
    outcomes. -/
theorem Balanced.post (posts : Ledger.Posts start.accepted? a event.call event.answer b)
    (room : a.outcomes.items.length + event.call.completed a.held.card b.held.card ≤
      a.outcomes.capacity) : Balanced start (history ++ [event]) b := by
  generalize asked : event.call = call at posts room
  generalize replied : event.answer = answer at posts
  have unentered (other : ∀ seq, answer ≠ .submitted (.ok seq)) :
      start.accepted? event.call event.answer = none := by
    rw [replied]
    exact accepted?_eq_none other
  cases posts with
  | accepted submits enters => exact balanced.enter replied (by rw [asked, replied]; exact enters)
  | refused submits e =>
    exact balanced.resolve (.refl a) (unentered nofun) (by simp [Event.cancelled?, replied])
      (by simp [Event.fetched?, replied])
  | received resolves =>
    have ended := resolves.length_le
    have told := resolves.items_eq (by simp only [Call.completed] at room; omega)
    exact balanced.resolve resolves (unentered nofun) (by simp [Event.cancelled?, asked])
      (by simp [Event.fetched?, replied, told])
  | failed resolves =>
    have ended := resolves.length_le
    have told := resolves.items_eq (by simp only [Call.completed] at room; omega)
    exact balanced.resolve resolves (unentered nofun) (by simp [Event.cancelled?, asked])
      (by simp [Event.fetched?, replied, told])
  | @fetched resolved b resolves =>
    have ended := resolves.length_le
    have told := resolves.items_eq (by simp only [Call.completed] at room; omega)
    refine balanced.resolve resolves (unentered nofun) (by simp [Event.cancelled?, asked]) ?_
    rw [← told, b.outcomes.items_pop]
    simp only [Event.fetched?, replied, b.outcomes.pop_fst]
    cases b.outcomes.items <;> rfl
  | removed held => exact balanced.remove asked replied held
  | missed seq =>
    exact balanced.resolve (.refl a) (unentered nofun) (by simp [Event.cancelled?, asked, replied])
      (by simp [Event.fetched?, replied])

end Calls

/-! ## Counting -/

theorem length_accepted_append (history : List (Event ρ ε)) (event : Event ρ ε) :
    (start.accepted (history ++ [event])).length =
      (start.accepted history).length +
        (start.accepted? event.call event.answer).toList.length := by
  cases enters : start.accepted? event.call event.answer with
  | none =>
    rw [accepted_append_none history enters]
    rfl
  | some p =>
    rw [accepted_append_some history enters, List.length_append]
    rfl

/-- What a call adds to the tally is no more than what it brings in. What is missing are the
    outcomes lost, and where none is lost there was room for all. -/
theorem exists_lost_of_posts (history : List (Event ρ ε))
    (posts : Ledger.Posts start.accepted? a event.call event.answer b) :
    ∃ lost, tally (history ++ [event]) b + (start.accepted history).length + lost =
        tally history a + (start.accepted (history ++ [event])).length ∧
      (lost = 0 → a.outcomes.items.length + event.call.completed a.held.card b.held.card ≤
        a.outcomes.capacity) := by
  have fits := a.outcomes.length_le
  rw [length_accepted_append, tally, tally, List.filterMap_append, List.filterMap_append,
    filterMap_singleton, filterMap_singleton, List.length_append, List.length_append]
  obtain ⟨now, radio, call, answer⟩ := event
  simp only at posts ⊢
  cases posts with
  | @accepted call seq p submits enters =>
    refine ⟨0, ?_, fun _ => ?_⟩
    · simp [Event.cancelled?, Event.fetched?, enters]
      omega
    · rw [Call.completed_of_submits submits]
      exact fits
  | refused submits e =>
    refine ⟨0, ?_, fun _ => ?_⟩
    · simp [Event.cancelled?, Event.fetched?, accepted?]
    · rw [Call.completed_of_submits submits]
      exact fits
  | received resolves =>
    obtain ⟨lost, balance, room⟩ := resolves.exists_lost
    refine ⟨lost, ?_, room⟩
    simp [Event.cancelled?, Event.fetched?, accepted?]
    omega
  | failed resolves =>
    obtain ⟨lost, balance, room⟩ := resolves.exists_lost
    refine ⟨lost, ?_, room⟩
    simp [Event.cancelled?, Event.fetched?, accepted?]
    omega
  | @fetched resolved b resolves =>
    obtain ⟨lost, balance, room⟩ := resolves.exists_lost
    refine ⟨lost, ?_, room⟩
    have popped : b.outcomes.pop.1.toList.length + b.outcomes.pop.2.items.length =
        b.outcomes.items.length := by
      rw [b.outcomes.pop_fst, b.outcomes.items_pop]
      cases b.outcomes.items with
      | nil => rfl
      | cons first rest => exact Nat.add_comm _ _
    simp [Event.cancelled?, Event.fetched?, accepted?]
    omega
  | removed held =>
    refine ⟨0, ?_, fun _ => fits⟩
    simp [Event.cancelled?, Event.fetched?, accepted?, held]
    omega
  | missed seq =>
    refine ⟨0, ?_, fun _ => fits⟩
    simp [Event.cancelled?, Event.fetched?, accepted?]

/-- A call that leaves no poll owed leaves no outcome behind, if there was none before it or it
    polls. -/
theorem drained_of_posts (posts : Ledger.Posts start.accepted? a event.call event.answer b)
    (heard : event.isDeaf = false) (drained : event.call ≠ .poll → a.outcomes.items = [])
    (settled : event.owesPoll = false) : b.outcomes.items = [] := by
  obtain ⟨now, radio, call, answer⟩ := event
  simp only at posts drained
  cases posts with
  | accepted submits enters => exact drained (by rintro rfl; cases submits)
  | refused submits e => exact drained (by rintro rfl; cases submits)
  | received resolves => cases settled
  | failed resolves => cases heard
  | @fetched resolved b resolves =>
    simp only [Event.owesPoll, b.outcomes.pop_fst] at settled
    rw [b.outcomes.items_pop]
    cases left : b.outcomes.items with
    | nil => rfl
    | cons outcome later =>
      rw [left] at settled
      cases settled
  | removed held => exact drained nofun
  | missed seq => exact drained nofun

/-- A call keeps room for the outcomes of the packets held, if none is left where it submits. -/
theorem room_of_posts (posts : Ledger.Posts start.accepted? a event.call event.answer b)
    (drained : event.call.submits = true → a.outcomes.items = [])
    (room : a.outcomes.items.length + a.held.card ≤ outcomeCapacity)
    (few : b.held.card ≤ outcomeCapacity) :
    b.outcomes.items.length + b.held.card ≤ outcomeCapacity := by
  obtain ⟨now, radio, call, answer⟩ := event
  simp only at posts drained
  cases posts with
  | accepted submits enters =>
    rw [drained submits, List.length_nil, Nat.zero_add]
    exact few
  | refused submits e => exact room
  | received resolves => exact Nat.le_trans resolves.length_add_card_le room
  | failed resolves => exact Nat.le_trans resolves.length_add_card_le room
  | @fetched resolved b resolves =>
    refine Nat.le_trans (Nat.add_le_add_right ?_ _)
      (Nat.le_trans resolves.length_add_card_le room)
    rw [b.outcomes.items_pop, List.length_tail]
    exact Nat.sub_le _ 1
  | removed held =>
    rw [held, Multiset.card_cons] at room
    exact Nat.le_trans (Nat.add_le_add_left (Nat.le_succ _) _) room
  | missed seq => exact room

/-! ## Runs -/

variable [Transceiver ρ ε] [RandomSource γ] {method : Method} {capacity : Nat} {config : Config}
  {radio : ρ} {rng : γ}

/-- What the next call of a run does to the ledger. -/
theorem posts_of_run (queues : method = .carrierSense ∨ method = .acknowledged)
    (run : Run (ε := ε) (.new method capacity config radio rng) history link)
    (performed : (link.setRadio event.radio).perform event.now event.call =
      .ok (event.answer, after)) :
    Ledger.Posts (accepted? (.new method capacity config radio rng)) link.ledger event.call
      event.answer after.ledger := by
  obtain ⟨queueing, same⟩ := queueing_of_run queues run
  have posts := (queueing.setRadio event.radio).posts performed
  have entered : (link.setRadio event.radio).accepted? (ε := ε) =
      accepted? (.new method capacity config radio rng) := by
    apply accepted?_congr
    · rw [setRadio, method_setStation, same, method_new]
    · rw [(queueing.setRadio event.radio).config_eq, (Queueing.new queues _ _ _ _).config_eq]
  rwa [entered, ledger_setRadio] at posts

theorem places_of_run (queues : method = .carrierSense ∨ method = .acknowledged)
    (run : Run (ε := ε) (.new method capacity config radio rng) history link) :
    link.ledger.places = capacity ∧ link.ledger.outcomes.capacity = outcomeCapacity := by
  induction run with
  | start =>
    have empty := Outbox.capacity_empty capacity
    rcases queues with rfl | rfl
    · exact ⟨empty, rfl⟩
    · exact ⟨empty, rfl⟩
  | call event run performed ih =>
    obtain ⟨places, kept⟩ := (posts_of_run queues run performed).places
    exact ⟨places.trans ih.1, kept.trans ih.2⟩

/-- A longer history fits where the shorter one does and its last call does. -/
theorem fits_append (run : Run start history link)
    (performed : (link.setRadio event.radio).perform event.now event.call =
      .ok (event.answer, after)) :
    Fits start (history ++ [event]) ↔ Fits start history ∧
      link.station.outcomes.items.length + event.call.completed link.held after.held ≤
        outcomeCapacity := by
  constructor
  · intro fits
    refine ⟨?_, fits history event [] link after rfl run performed⟩
    intro before earlier later found next whole
    exact fits before earlier (later ++ [event]) found next (by rw [whole, List.append_assoc]; rfl)
  · rintro ⟨fits, last⟩ before earlier later found next whole reached made
    rcases List.eq_nil_or_concat later with rfl | ⟨later, final, rfl⟩
    · obtain ⟨rfl, same⟩ := List.append_inj' whole rfl
      cases same
      cases run.eq_of_run reached
      rw [performed] at made
      cases made
      exact last
    · rw [List.concat_eq_append, ← List.cons_append, ← List.append_assoc] at whole
      obtain ⟨rfl, -⟩ := List.append_inj' whole rfl
      exact fits before earlier later found next rfl reached made

/-- Where every call has found room the ledger agrees with the history. -/
theorem balanced_of_fits (queues : method = .carrierSense ∨ method = .acknowledged)
    (run : Run (ε := ε) (.new method capacity config radio rng) history link)
    (fits : Fits (.new method capacity config radio rng) history) :
    Balanced (.new method capacity config radio rng) history link.ledger := by
  induction run with
  | start => exact balanced_new method capacity config radio rng
  | call event run performed ih =>
    obtain ⟨earlier, room⟩ := (fits_append run performed).mp fits
    refine (ih earlier).post (posts_of_run queues run performed) ?_
    rw [card_held_ledger, card_held_ledger, (places_of_run queues run).2]
    exact room

/-- An outcome that is lost is missing from then on. -/
theorem tally_le_of_run (queues : method = .carrierSense ∨ method = .acknowledged)
    (run : Run (ε := ε) (.new method capacity config radio rng) history link) :
    tally history link.ledger ≤ (accepted (.new method capacity config radio rng) history).length ∧
      (tally history link.ledger =
          (accepted (.new method capacity config radio rng) history).length →
        Fits (.new method capacity config radio rng) history) := by
  induction run with
  | start =>
    obtain ⟨free, empty, -⟩ := ledger_new method capacity config radio rng
    refine ⟨?_, ?_⟩
    · rw [tally, free, empty]
      rfl
    · intro _ before event later found after whole
      simp at whole
  | @call history link after event run performed ih =>
    obtain ⟨atMost, fits⟩ := ih
    obtain ⟨lost, balance, room⟩ :=
      exists_lost_of_posts history (posts_of_run queues run performed)
    rw [card_held_ledger, card_held_ledger, (places_of_run queues run).2] at room
    refine ⟨by omega, fun whole => (fits_append run performed).mpr ⟨fits ?_, room ?_⟩⟩ <;> omega

/-- In a disciplined run outcomes are left only while a poll is owed. -/
theorem drained_of_run (queues : method = .carrierSense ∨ method = .acknowledged)
    (run : Run (ε := ε) (.new method capacity config radio rng) history link)
    (disciplined : Disciplined history) (quiet : ∀ last ∈ history.getLast?, last.owesPoll = false) :
    link.ledger.outcomes.items = [] := by
  induction run with
  | start =>
    rw [(ledger_new method capacity config radio rng).2.1]
    rfl
  | call event run performed ih =>
    refine drained_of_posts (posts_of_run queues run performed) ?_ ?_ (quiet event (by simp))
    · exact disciplined.hears event (List.mem_append_right _ (List.mem_singleton_self event))
    · exact fun other => ih disciplined.init (disciplined.settled other)

/-- A disciplined run that has never held more packets than the link keeps outcomes has room for the
    outcomes of all packets held. -/
theorem room_of_run (queues : method = .carrierSense ∨ method = .acknowledged)
    (run : Run (ε := ε) (.new method capacity config radio rng) history link)
    (disciplined : Disciplined history)
    (few : ∀ past reached, past <+: history →
      Run (ε := ε) (.new method capacity config radio rng) past reached →
      reached.held ≤ outcomeCapacity) :
    link.ledger.outcomes.items.length + link.ledger.held.card ≤ outcomeCapacity := by
  induction run with
  | start =>
    obtain ⟨free, empty, -⟩ := ledger_new method capacity config radio rng
    rw [free, empty]
    exact Nat.zero_le _
  | @call history link after event run performed ih =>
    refine room_of_posts (posts_of_run queues run performed) ?_ ?_ ?_
    · intro submits
      exact drained_of_run queues run disciplined.init
        (disciplined.settled fun polls => by rw [polls] at submits; cases submits)
    · exact ih disciplined.init fun past reached early =>
        few past reached (early.trans (List.prefix_append history [event]))
    · rw [card_held_ledger]
      exact few _ _ (List.prefix_refl _) (run.call event performed)

/-- As long as it has never held more packets than the link keeps outcomes, no call of a disciplined
    run completes more packets than there are places left for outcomes. -/
theorem fits_of_disciplined (queues : method = .carrierSense ∨ method = .acknowledged)
    (run : Run (ε := ε) (.new method capacity config radio rng) history link)
    (disciplined : Disciplined history)
    (few : ∀ past reached, past <+: history →
      Run (ε := ε) (.new method capacity config radio rng) past reached →
      reached.held ≤ outcomeCapacity) :
    Fits (.new method capacity config radio rng) history := by
  induction run with
  | start =>
    intro before event later found after whole
    simp at whole
  | @call history link after event run performed ih =>
    have earlier : ∀ past reached, past <+: history →
        Run (ε := ε) (.new method capacity config radio rng) past reached →
        reached.held ≤ outcomeCapacity := fun past reached early =>
      few past reached (early.trans (List.prefix_append history [event]))
    refine (fits_append run performed).mpr ⟨ih disciplined.init earlier, ?_⟩
    have room := room_of_run queues run disciplined.init earlier
    have atMost := event.call.completed_le link.held after.held
    rw [card_held_ledger] at room
    exact Nat.le_trans (Nat.add_le_add_left atMost _) room

/-- Wherever a run may have got: every packet accepted is in exactly one place, being held or
    cancelled or the subject of one outcome that has been told or waits to be fetched, in the order
    in which the packets were completed, exactly if no call has completed more packets than there
    were places left for outcomes. A disciplined run leaves no outcome waiting once no poll is owed,
    and has room for all outcomes as long as it has never held more packets than the link keeps
    outcomes. Packets are told apart by the number of their acceptance. -/
theorem accounted_of_run (queues : method = .carrierSense ∨ method = .acknowledged)
    (run : Run (ε := ε) (.new method capacity config radio rng) history link) :
    (Accounted (.new method capacity config radio rng) history link.ledger ↔
        Fits (.new method capacity config radio rng) history) ∧
      ((accepted (.new method capacity config radio rng) history).length ≤ 2 ^ 32 →
        (accepted (.new method capacity config radio rng) history).Nodup) ∧
      (Disciplined history →
        ((∀ last ∈ history.getLast?, last.owesPoll = false) →
          link.station.outcomes.items = []) ∧
        ((∀ past reached, past <+: history →
            Run (ε := ε) (.new method capacity config radio rng) past reached →
            reached.held ≤ outcomeCapacity) →
          Fits (.new method capacity config radio rng) history)) := by
  refine ⟨⟨?_, ?_⟩, nodup_accepted, fun disciplined => ⟨?_, ?_⟩⟩
  · intro accounted
    exact (tally_le_of_run queues run).2 accounted.length_eq.symm
  · intro fits
    exact (balanced_of_fits queues run fits).accounted
  · exact drained_of_run queues run disciplined
  · exact fits_of_disciplined queues run disciplined

/-- A carrier-sensing link that never backs off, on a radio that always hears a clear channel. -/
def promptLink (capacity : Nat) : Link Bench StepGenerator :=
  .new .carrierSense capacity { address := .short 1, maxInitialBackoff := 0 } {} ⟨0, 0⟩

/-- Eight packets are held, one more than the outcomes kept, but half of them are to be sent later:
    the caller who polls until nothing is left fetches four outcomes each time. -/
theorem accounted_of_run_staggered :
    ∃ (history : List (Event Bench BenchError)) (link : Link Bench StepGenerator),
      Run (promptLink 8) history link ∧ Disciplined history ∧
        ((promptLink 8).accepted (history.take 8)).length = 8 ∧
        (history.filterMap Event.fetched?).length = 8 ∧
        Accounted (promptLink 8) history link.ledger := by
  have run : Run (ε := BenchError) (promptLink 8) _ (.carrierSense _) :=
    run_of_replay
      (List.replicate 4 (5, id, .send (.short 2) []) ++
        List.replicate 4 (5, id, .submit { dst := .short 2, sendAt := 9 } []) ++
        List.replicate 5 (5, id, .poll) ++ List.replicate 5 (9, id, .poll)) rfl
  refine ⟨_, _, run, ⟨by decide, by decide⟩, by decide, by decide, ?_⟩
  refine (accounted_of_run (.inl rfl) run).1.mpr ((tally_le_of_run (.inl rfl) run).2 ?_)
  decide +kernel

/-- Eight packets, one more than the outcomes kept, end in one poll, and one outcome is lost. -/
theorem not_accounted_of_eight :
    ∃ (history : List (Event Bench BenchError)) (link : Link Bench StepGenerator),
      Run (promptLink 8) history link ∧ Disciplined history ∧
        ¬Accounted (promptLink 8) history link.ledger := by
  have run : Run (ε := BenchError) (promptLink 8) _ (.carrierSense _) :=
    run_of_replay
      (List.replicate 8 (5, id, .send (.short 2) []) ++ List.replicate 8 (5, id, .poll)) rfl
  refine ⟨_, _, run, ⟨by decide, by decide⟩, fun accounted => ?_⟩
  exact absurd accounted.length_eq (by decide +kernel)

end Link

end MoteLink
