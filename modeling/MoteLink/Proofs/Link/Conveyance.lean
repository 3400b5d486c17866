import MoteLink.Proofs.Link.Acknowledged.Life
import MoteLink.Proofs.Link.Deadline
import MoteLink.Proofs.Link.Queueing
import MoteLink.Proofs.Link.Recording

/-!
# From a place to the air

A packet at a link is followed by its place. Nothing that is asked of the link exchanges the packet
in a place for another one: a place is filled while it is empty and emptied while it is full. So a
place that has never been empty since a packet came in still has that packet, and what the link
transmits when it is this packet's turn is the packet behind its header.
-/

namespace MoteLink

namespace Link

variable {ρ γ ε : Type} {now : Tick} {i : Nat} {p q : Packet}

/-! ## Contents of places -/

namespace Outbox

/-- The packet in a place, as it was accepted. -/
def contentAt? (o : Outbox) (i : Nat) : Option Packet :=
  (o.slots[i]?.bind Slot.packet?).map Packet.untried

/-- What is in a place of `o'` was there in `o`. -/
def Keeps (o o' : Outbox) : Prop := ∀ i p, o'.contentAt? i = some p → o.contentAt? i = some p

/-- Where a place of `o'` differs it was empty in `o`, and has the packet submitted. -/
def Fills (o : Outbox) (d : Descriptor) (payload : Bytes) (result : Except (LinkError ε) UInt8)
    (o' : Outbox) : Prop :=
  ∀ i, o'.contentAt? i = o.contentAt? i ∨
    o.contentAt? i = none ∧ ∃ seq headerLength ticket, result = .ok seq ∧
      ({ d with seq } : Descriptor).layoutError? = none ∧
      o'.contentAt? i = some { descriptor := { d with seq, headerLength }, payload, ticket }

/-- A place that is full in both has the same packet. -/
def Retains (o o' : Outbox) : Prop :=
  ∀ i p q, o.contentAt? i = some p → o'.contentAt? i = some q → q = p

variable {o o' o'' : Outbox} {old new slot : Slot}

theorem contentAt?_of_slot (found : o.slots[i]? = some slot) :
    o.contentAt? i = slot.packet?.map Packet.untried := by
  rw [contentAt?, found, Option.bind_some]

theorem contentAt?_of_replaces (r : Replaces i old new o.slots o'.slots) (j : Nat) :
    o'.contentAt? j = if j = i then new.packet?.map Packet.untried else o.contentAt? j := by
  obtain ⟨below, -⟩ := List.getElem?_eq_some_iff.mp r.found
  by_cases here : j = i
  · rw [if_pos here, here]
    apply contentAt?_of_slot
    rw [r.changed, List.getElem?_set_self below]
  · rw [if_neg here, contentAt?, contentAt?, r.changed, List.getElem?_set_ne (Ne.symm here)]

namespace Keeps

theorem refl (o : Outbox) : o.Keeps o := fun _ _ there => there

theorem trans (first : o.Keeps o') (second : o'.Keeps o'') : o.Keeps o'' :=
  fun i p there => first i p (second i p there)

/-- A place may be emptied, and its packet may be moved into flight or tried once more. -/
theorem of_replaces (r : Replaces i old new o.slots o'.slots)
    (same : new = .idle ∨ new.packet?.map Packet.untried = old.packet?.map Packet.untried) :
    o.Keeps o' := by
  intro j p there
  rw [contentAt?_of_replaces r] at there
  by_cases here : j = i
  · rw [if_pos here] at there
    rw [here, contentAt?_of_slot r.found]
    rcases same with rfl | same
    · cases there
    · rwa [← same]
  · rwa [if_neg here] at there

theorem remove {seq : UInt8} (removed : o.remove seq = some (slot, o')) : o.Keeps o' := by
  obtain ⟨i, p, freed, -⟩ := remove_eq_some removed
  exact .of_replaces freed (.inl rfl)

theorem startNext (started : o.startNext now = some (i, o')) : o.Keeps o' := by
  obtain ⟨-, p, promoted, -⟩ := startNext_eq_some started
  exact .of_replaces promoted (.inr rfl)

theorem retains (keeps : o.Keeps o') : o.Retains o' := by
  intro i p q before after
  have same := keeps i q after
  rw [before] at same
  cases same
  rfl

end Keeps

theorem Fills.retains {d : Descriptor} {payload : Bytes} {result : Except (LinkError ε) UInt8}
    (fills : o.Fills d payload result o') : o.Retains o' := by
  intro i p q before after
  rcases fills i with same | ⟨vacant, -⟩
  · rw [same, before] at after
    cases after
    rfl
  · rw [before] at vacant
    cases vacant

end Outbox

/-! ## The calls of each access method -/

theorem Station.Submitted.fills {s s' : Station ρ γ} {o o' : Outbox} {d : Descriptor}
    {payload : Bytes} {result : Except (LinkError ε) UInt8}
    (submitted : s.Submitted o d payload result s' o') : o.Fills d payload result o' := by
  intro i
  cases submitted with
  | unfit prepared => exact .inl rfl
  | full prepared refused => exact .inl rfl
  | @accepted p s' j o' prepared placed =>
    obtain ⟨replaced, -⟩ := Outbox.accept_eq_ok placed
    obtain ⟨seq, headerLength, rfl, encoded, -⟩ := prepare_eq_ok prepared
    rw [Outbox.contentAt?_of_replaces replaced]
    by_cases here : i = j
    · right
      rw [if_pos here, here, Outbox.contentAt?_of_slot replaced.found]
      exact ⟨rfl, seq, headerLength, o.nextTicket, rfl,
        (Descriptor.encodedLength_eq_ok_iff.mp encoded).1, rfl⟩
    · left
      rw [if_neg here]

namespace CarrierSense

variable {m m' : CarrierSense ρ γ}

variable [Transceiver ρ ε]

theorem Attempt.keeps {reason : Option FailureReason}
    (attempted : Attempt (ε := ε) m i p reason m') (found : m.outbox.inFlight? = some (i, p)) :
    m.outbox.Keeps m'.outbox := by
  have freed : Replaces i (.inFlight p) .idle m.outbox.slots (m.outbox.slots.set i .idle) :=
    ⟨Outbox.slot_of_inFlight? found, rfl⟩
  cases attempted with
  | refused sent => exact .of_replaces freed (.inl rfl)
  | done sent => exact .of_replaces freed (.inl rfl)

theorem Transition.keeps [RandomSource γ] {r : Except (LinkError ε) Bool}
    (taken : Transition now m r m') : m.outbox.Keeps m'.outbox := by
  cases taken with
  | rest quiet early => exact .refl m.outbox
  | start quiet started drawn => exact .startNext started
  | deaf phase sensed => exact .refl m.outbox
  | hold phase sensed => exact .refl m.outbox
  | attempt phase sensed found attempted => exact attempted.keeps found

end CarrierSense

namespace Acknowledged

variable {m m' : Acknowledged ρ γ}

theorem keeps_released (found : m.outbox.inFlight? = some (i, p)) (outcome : Outcome) :
    m.outbox.Keeps (m.released i outcome).outbox := by
  have freed : Replaces i (.inFlight p) .idle m.outbox.slots
      (m.released i outcome).outbox.slots := ⟨Outbox.slot_of_inFlight? found, rfl⟩
  exact .of_replaces freed (.inl rfl)

theorem Setback.keeps {reason : FailureReason} (setback : Setback now m i p reason m')
    (found : m.outbox.inFlight? = some (i, p)) : m.outbox.Keeps m'.outbox := by
  cases setback with
  | again left => exact .refl m.outbox
  | giveUp spent => exact keeps_released found _

theorem Acknowledgement.keeps {ack : Descriptor} (noted : Acknowledgement m ack m') :
    m.outbox.Keeps m'.outbox := by
  cases noted with
  | unexpected phase => exact .refl m.outbox
  | mismatch phase found other => exact .refl m.outbox
  | matching phase found seq sender => exact keeps_released found _

variable [Transceiver ρ ε]

theorem Attempt.keeps (attempted : Attempt (ε := ε) now m i p m')
    (found : m.outbox.inFlight? = some (i, p)) : m.outbox.Keeps m'.outbox := by
  have counted : m.outbox.Keeps (m.outbox.setInFlight p.tried) :=
    .of_replaces (Outbox.slots_setInFlight found p.tried) (.inr rfl)
  have there := Outbox.inFlight?_setInFlight found p.tried
  cases attempted with
  | refused sent setback => exact counted.trans (setback.keeps there)
  | await sent asks => exact counted
  | @done length station sent silent =>
    exact counted.trans
      (keeps_released (m := { m with station, outbox := m.outbox.setInFlight p.tried }) there _)

theorem Reception.keeps {frame : Bytes} {delivery : Option Delivery} (served : m.Served)
    (received : Reception m frame delivery m') : m.outbox.Keeps m'.outbox := by
  cases received with
  | ignored unheard => exact .refl m.outbox
  | @acknowledgement d heard isAck =>
    have noted := acknowledgement_of_handleAck (served_learn served d.descriptor.prevHop)
      d.descriptor
    rw [← outbox_learn m d.descriptor.prevHop]
    exact noted.keeps
  | answered heard isData asks here =>
    change m.outbox.Keeps (m.learn _).outbox
    rw [outbox_learn]
    exact .refl m.outbox
  | delivered heard isData silent =>
    rw [outbox_learn]
    exact .refl m.outbox

theorem Transition.keeps [RandomSource γ] {r : Except (LinkError ε) Bool}
    (taken : Transition now m r m') : m.outbox.Keeps m'.outbox := by
  cases taken with
  | rest quiet early => exact .refl m.outbox
  | start quiet started drawn => exact .startNext started
  | deaf phase sensed => exact .refl m.outbox
  | hold phase sensed => exact .refl m.outbox
  | @attempt expiry busy station i p m' phase sensed found attempted =>
    exact Attempt.keeps (m := { m with station }) attempted found
  | await phase early => exact .refl m.outbox
  | timeout phase passed found setback => exact setback.keeps found
  | pause phase early => exact .refl m.outbox
  | retry phase passed => exact .refl m.outbox

end Acknowledged

namespace TimeSlot

variable {m m' : TimeSlot ρ γ}

/-- The one place of a time-slot link. -/
def place (m : TimeSlot ρ γ) : Outbox := (Link.timeSlot m).outbox

theorem contentAt?_place (m : TimeSlot ρ γ) (i : Nat) :
    m.place.contentAt? i = if i = 0 then m.pending.map Packet.untried else none := by
  cases i with
  | zero => cases pending : m.pending <;> simp [place, outbox, Outbox.contentAt?, pending]
  | succ i => rfl

/-- The place is emptied or left alone. -/
theorem keeps_of_pending (same : m'.pending = m.pending ∨ m'.pending = none) :
    m.place.Keeps m'.place := by
  intro i p there
  rw [contentAt?_place] at there ⊢
  rcases same with same | gone
  · rwa [← same]
  · simp [gone] at there

theorem keeps_release [Transceiver ρ ε] (m : TimeSlot ρ γ) (now : Tick) :
    m.place.Keeps (m.release (ε := ε) now).place := by
  apply keeps_of_pending
  unfold release
  split
  · exact .inl rfl
  · split
    · split <;> exact .inr rfl
    · exact .inl rfl

theorem fills_submit (m : TimeSlot ρ γ) (d : Descriptor) (payload : Bytes) :
    m.place.Fills (ε := ε) d payload (m.submit d payload).1
      (m.submit (ε := ε) d payload).2.place := by
  intro i
  unfold submit
  by_cases full : m.pending.isSome = true
  · rw [if_pos full]
    exact .inl rfl
  · rw [if_neg full]
    have vacant : m.pending = none := by simpa using full
    split <;> rename_i prepared
    · exact .inl rfl
    · obtain ⟨seq, headerLength, rfl, encoded, -⟩ := Station.prepare_eq_ok prepared
      rw [contentAt?_place, contentAt?_place, vacant]
      by_cases first : i = 0
      · right
        rw [if_pos first, if_pos first]
        exact ⟨rfl, seq, headerLength, 0, rfl,
          (Descriptor.encodedLength_eq_ok_iff.mp encoded).1, rfl⟩
      · left
        rw [if_neg first, if_neg first]

end TimeSlot

/-! ## What a link does by itself -/

variable [Transceiver ρ ε] [RandomSource γ]

variable {link after : Link ρ γ}

theorem Step.keeps (step : Step now link after) (served : link.Served) :
    link.outbox.Keeps after.outbox := by
  obtain ⟨r, taken⟩ := step
  cases stepped_of_step taken with
  | passThrough m => exact .refl _
  | carrierSense stepped => exact (CarrierSense.transition_of_step served stepped).keeps
  | acknowledged stepped => exact (Acknowledged.transition_of_step served stepped).keeps
  | timeSlot m => exact m.keeps_release now

theorem Steps.keeps (steps : Steps now link after) (served : link.Served) :
    after.Served ∧ link.outbox.Keeps after.outbox := by
  induction steps with
  | refl => exact ⟨served, .refl link.outbox⟩
  | tail _ step ih =>
    obtain ⟨kept, keeps⟩ := ih
    exact ⟨step.served kept, keeps.trans (step.keeps kept)⟩

/-- A poll takes such steps. What it does then is to fetch the outcome that it tells. -/
theorem steps_of_poll {result : Except (LinkError ε) (Option Outcome)}
    (polled : link.poll now = .ok (result, after)) :
    ∃ rested outcomes, Steps now link rested ∧
      after = rested.setStation { rested.station with outcomes } ∧
      rested.station.outcomes.items = Station.told result ++ outcomes.items := by
  obtain ⟨r, rested, steps, ends⟩ := exists_rested_of_poll (Steps now link)
    (fun _ _ _ sofar taken => sofar.tail ⟨_, taken⟩) .refl polled
  cases ends with
  | failed e => exact ⟨after, _, steps, after.setStation_station.symm, rfl⟩
  | fetched => exact ⟨rested, _, steps, rfl, rested.station.items_takeOutcome⟩

/-! ## What is asked of a link -/

omit [RandomSource γ] in
theorem fills_submit (link : Link ρ γ) (d : Descriptor) (payload : Bytes) :
    link.outbox.Fills (ε := ε) d payload (link.submit d payload).1
      (link.submit (ε := ε) d payload).2.outbox := by
  cases link with
  | passThrough m => exact fun i => .inl rfl
  | carrierSense m => exact (m.submitted_submit d payload).1.fills
  | acknowledged m => exact (m.submitted_submit d payload).1.fills
  | timeSlot m => exact m.fills_submit d payload

omit [RandomSource γ] in
theorem keeps_receive (served : link.Served) (frame : Bytes) :
    link.outbox.Keeps (link.receive (ε := ε) frame).2.outbox := by
  cases link with
  | passThrough m => exact .refl _
  | carrierSense m => exact .refl m.outbox
  | acknowledged m => exact (m.reception_receive frame).keeps served
  | timeSlot m => exact .refl m.place

omit [Transceiver ρ ε] [RandomSource γ] in
theorem keeps_cancel (link : Link ρ γ) (seq : UInt8) :
    link.outbox.Keeps (link.cancel seq).2.outbox := by
  rw [cancel_eq]
  cases removed : link.outbox.remove seq with
  | none => exact .refl link.outbox
  | some entry =>
    dsimp only
    rw [outbox_without removed]
    exact .remove removed

omit [Transceiver ρ ε] [RandomSource γ] in
theorem station_cancel (link : Link ρ γ) (seq : UInt8) :
    (link.cancel seq).2.station = link.station := by
  rw [cancel_eq]
  cases link.outbox.remove seq with
  | none => rfl
  | some entry => exact link.station_without _ _

omit [Transceiver ρ ε] [RandomSource γ] in
theorem contentAt?_new (method : Method) (capacity : Nat) (config : Config) (radio : ρ) (rng : γ)
    (i : Nat) : (Link.new method capacity config radio rng).outbox.contentAt? i = none := by
  have empty (capacity : Nat) : (Outbox.empty capacity).contentAt? i = none := by
    rw [Outbox.contentAt?, Outbox.empty, List.getElem?_replicate]
    by_cases below : i < capacity
    · rw [if_pos below]
      rfl
    · rw [if_neg below]
      rfl
  cases method with
  | passThrough => exact empty 0
  | carrierSense | acknowledged => exact empty capacity
  | timeSlot =>
    have there := TimeSlot.contentAt?_place { station := { config, radio, rng } } i
    by_cases first : i = 0
    · rwa [if_pos first] at there
    · rwa [if_neg first] at there

/-- No call puts a packet in the place of another one. -/
theorem retains_of_perform {call : Call} {answer : Answer ε} (served : link.Served)
    (performed : link.perform now call = .ok (answer, after)) :
    link.outbox.Retains after.outbox := by
  cases call with
  | submit d payload =>
    cases performed
    exact (link.fills_submit d payload).retains
  | send dst payload =>
    cases performed
    cases link with
    | passThrough m => exact (Outbox.Keeps.refl _).retains
    | carrierSense m => exact ((Link.carrierSense m).fills_submit _ payload).retains
    | acknowledged m => exact ((Link.acknowledged m).fills_submit _ payload).retains
    | timeSlot m => exact ((Link.timeSlot m).fills_submit _ payload).retains
  | receive frame =>
    cases performed
    exact (keeps_receive served frame).retains
  | cancel seq =>
    cases performed
    exact (link.keeps_cancel seq).retains
  | poll =>
    obtain ⟨result, rfl, polled⟩ := exists_poll_of_perform performed
    obtain ⟨rested, outcomes, steps, rfl, -⟩ := steps_of_poll polled
    rw [outbox_setStation]
    exact (steps.keeps served).2.retains

theorem served_of_run {method : Method} {capacity : Nat} {config : Config} {radio : ρ} {rng : γ}
    {history : List (Event ρ ε)} (run : Run (.new method capacity config radio rng) history link) :
    link.Served :=
  run.invariant Served (served_new method capacity config radio rng)
    (fun _ radio served => served.setRadio radio)
    (fun _ _ _ _ _ served performed => served.perform performed)

/-! ## What is transmitted out of a place -/

/-- The place of the packet that the link transmits next, if it transmits one. -/
def turn? : Link ρ γ → Option Nat
  | .passThrough _ => none
  | .carrierSense m => m.outbox.inFlight?.map Prod.fst
  | .acknowledged m => m.outbox.inFlight?.map Prod.fst
  | .timeSlot m => m.pending.map fun _ => 0

omit [Transceiver ρ ε] [RandomSource γ] in
theorem Outbox.contentAt?_of_inFlight? {o : Outbox} (found : o.inFlight? = some (i, p)) :
    o.contentAt? i = some p.untried :=
  contentAt?_of_slot (slot_of_inFlight? found)

omit [Transceiver ρ ε] [RandomSource γ] in
theorem contentAt?_of_turn? (turn : link.turn? = some i) :
    ∃ p, link.outbox.contentAt? i = some p := by
  cases link with
  | passThrough m => cases turn
  | carrierSense m =>
    obtain ⟨⟨j, p⟩, found, rfl⟩ := Option.map_eq_some_iff.mp turn
    exact ⟨p.untried, Outbox.contentAt?_of_inFlight? found⟩
  | acknowledged m =>
    obtain ⟨⟨j, p⟩, found, rfl⟩ := Option.map_eq_some_iff.mp turn
    exact ⟨p.untried, Outbox.contentAt?_of_inFlight? found⟩
  | timeSlot m =>
    obtain ⟨p, pending, rfl⟩ := Option.map_eq_some_iff.mp turn
    have there := m.contentAt?_place 0
    rw [if_pos rfl, pending] at there
    exact ⟨p.untried, there⟩

section Transmitting

/-- At most one transmission has been added to the record, and it is of this packet. -/
def Writes (p : Packet) (before after : List Transmission) : Prop :=
  after = before ∨ ∃ taken, after = before ++ [p.transmission taken]

theorem Writes.eq_transmission {before after : List Transmission} {t : Transmission}
    (writes : Writes p before after) (written : after = before ++ [t]) :
    ∃ taken, t = p.transmission taken := by
  rw [written] at writes
  rcases writes with same | ⟨taken, same⟩
  · simp at same
  · exact ⟨taken, by simpa using same⟩

omit [RandomSource γ] in
theorem Station.writes_of_transmit {s s' : Station (Recorder ρ) γ}
    {result : Except (LinkError ε) Nat} (sound : p.descriptor.layoutError? = none)
    (sent : s.transmit p.descriptor p.payload = (result, s')) : Writes p s.record s'.record :=
  .inr ⟨result.isOk, record_of_transmit sound sent⟩

theorem CarrierSense.Transition.writes {m m' : CarrierSense (Recorder ρ) γ}
    {r : Except (LinkError ε) Bool} (taken : Transition now m r m')
    (found : m.outbox.inFlight? = some (i, p)) (sound : p.descriptor.layoutError? = none) :
    Writes p m.station.record m'.station.record := by
  cases taken with
  | rest quiet early => exact .inl rfl
  | start quiet started drawn => exact .inl (Station.record_of_firstBackoff drawn)
  | deaf phase sensed => exact .inl sensed.record_eq
  | hold phase sensed => exact .inl sensed.record_eq
  | attempt phase sensed found' attempted =>
    rw [found] at found'
    cases found'
    rw [← sensed.record_eq]
    cases attempted with
    | refused sent =>
      have told := Station.writes_of_transmit sound sent
      exact told
    | done sent =>
      have told := Station.writes_of_transmit sound sent
      exact told

theorem Acknowledged.Transition.writes {m m' : Acknowledged (Recorder ρ) γ}
    {r : Except (LinkError ε) Bool} (taken : Transition now m r m')
    (found : m.outbox.inFlight? = some (i, p)) (sound : p.descriptor.layoutError? = none) :
    Writes p m.station.record m'.station.record := by
  cases taken with
  | rest quiet early => exact .inl rfl
  | start quiet started drawn => exact .inl (Station.record_of_firstBackoff drawn)
  | deaf phase sensed => exact .inl sensed.record_eq
  | hold phase sensed => exact .inl sensed.record_eq
  | attempt phase sensed found' attempted =>
    rw [found] at found'
    cases found'
    rw [← sensed.record_eq]
    cases attempted with
    | refused sent setback =>
      have told := Station.writes_of_transmit sound sent
      cases setback with
      | again left => exact told
      | giveUp spent => exact told
    | await sent asks => exact Station.writes_of_transmit sound sent
    | done sent silent =>
      have told := Station.writes_of_transmit sound sent
      exact told
  | await phase early => exact .inl rfl
  | timeout phase passed found' setback =>
    cases setback with
    | again left => exact .inl rfl
    | giveUp spent => exact .inl rfl
  | pause phase early => exact .inl rfl
  | retry phase passed => exact .inl rfl

omit [RandomSource γ] in
theorem TimeSlot.writes_release {m : TimeSlot (Recorder ρ) γ} (pending : m.pending = some p)
    (sound : p.descriptor.layoutError? = none) (now : Tick) :
    Writes p m.station.record (m.release (ε := ε) now).station.record := by
  unfold release
  rw [pending]
  by_cases ready : m.isReady p now = true
  · simp only [ready, ↓reduceIte]
    split <;> rename_i sent
    all_goals
      have told := Station.writes_of_transmit sound sent
      exact told
  · simp only [ready, Bool.false_eq_true, ↓reduceIte]
    exact .inl rfl

variable {link after : Link (Recorder ρ) γ} {t : Transmission}

/-- A step transmits nothing but the packet whose turn it is. -/
theorem Step.writes (step : Step now link after) (served : link.Served) (turn : link.turn? = some i)
    (content : link.outbox.contentAt? i = some p) (sound : p.descriptor.layoutError? = none) :
    Writes p link.record after.record := by
  obtain ⟨r, taken⟩ := step
  cases stepped_of_step taken with
  | passThrough m => cases turn
  | @carrierSense m m' r stepped =>
    obtain ⟨⟨j, q⟩, found, rfl⟩ := Option.map_eq_some_iff.mp turn
    rw [show (Link.carrierSense m).outbox.contentAt? j = _ from
      Outbox.contentAt?_of_inFlight? found] at content
    cases content
    have transition := CarrierSense.transition_of_step served stepped
    exact transition.writes (p := q) found sound
  | @acknowledged m m' r stepped =>
    obtain ⟨⟨j, q⟩, found, rfl⟩ := Option.map_eq_some_iff.mp turn
    rw [show (Link.acknowledged m).outbox.contentAt? j = _ from
      Outbox.contentAt?_of_inFlight? found] at content
    cases content
    have transition := Acknowledged.transition_of_step served stepped
    exact transition.writes (p := q) found sound
  | timeSlot m =>
    obtain ⟨q, pending, rfl⟩ := Option.map_eq_some_iff.mp turn
    have there := m.contentAt?_place 0
    rw [if_pos rfl, pending] at there
    rw [show (Link.timeSlot m).outbox.contentAt? 0 = _ from there] at content
    cases content
    exact TimeSlot.writes_release (p := q) pending sound now

/-- The link transmits `t` out of the place `i`. Whatever may be asked of it before, and whatever it
    may have done before in the poll in which it does so, the place has not been empty. -/
inductive Conveys (i : Nat) (t : Transmission) : Link (Recorder ρ) γ → Prop
  | later {link after : Link (Recorder ρ) γ} {now : Tick} {radio : Recorder ρ} {call : Call}
      {answer : Answer ε} (performed : (link.setRadio radio).perform now call = .ok (answer, after))
      (full : (after.outbox.contentAt? i).isSome = true) (conveys : Conveys i t after) :
      Conveys i t link
  | now {link before after : Link (Recorder ρ) γ} {now : Tick} {radio : Recorder ρ}
      (steps : Steps now (link.setRadio radio) before) (turn : before.turn? = some i)
      (step : Step now before after) (written : after.record = before.record ++ [t]) :
      Conveys i t link

/-- What is transmitted out of a place is the packet that has been there from the start. -/
theorem Conveys.eq_transmission (conveys : Conveys i t link) (served : link.Served)
    (content : link.outbox.contentAt? i = some p) (sound : p.descriptor.layoutError? = none) :
    ∃ taken, t = p.transmission taken := by
  induction conveys with
  | @later link after now radio call answer performed full conveys ih =>
    have kept := served.setRadio radio
    obtain ⟨q, there⟩ := Option.isSome_iff_exists.mp full
    rw [← link.outbox_setRadio radio] at content
    have same := retains_of_perform kept performed i p q content there
    exact ih (kept.perform performed) (same ▸ there)
  | @now link before after now radio steps turn step written =>
    obtain ⟨kept, keeps⟩ := steps.keeps (served.setRadio radio)
    obtain ⟨q, there⟩ := contentAt?_of_turn? turn
    have same := keeps i q there
    rw [outbox_setRadio, content] at same
    cases same
    exact (step.writes kept turn there sound).eq_transmission written

/-- If the link transmits out of a place that a submission has filled, everything that a frame tells
    of the packet submitted can be read from what is transmitted. -/
theorem decode_of_conveys {submitted : Link (Recorder ρ) γ} {d : Descriptor} {payload : Bytes}
    {result : Except (LinkError ε) UInt8} (served : link.Served)
    (submits : link.submit d payload = (result, submitted))
    (vacant : link.outbox.contentAt? i = none)
    (full : (submitted.outbox.contentAt? i).isSome = true) (conveys : Conveys i t submitted) :
    ∃ seq n, result = .ok seq ∧ Descriptor.decode t.frame = .ok (({ d with seq }).onAir n, n) ∧
      t.frame.drop n = payload := by
  have performed : link.perform (ε := ε) 0 (.submit d payload) =
      .ok (.submitted result, submitted) := by
    rw [perform, submits]
    rfl
  have fills := link.fills_submit (ε := ε) d payload
  rw [submits] at fills
  rcases fills i with same | ⟨-, seq, headerLength, ticket, accepted, sound, content⟩
  · change submitted.outbox.contentAt? i = _ at same
    rw [same, vacant] at full
    cases full
  · obtain ⟨taken, rfl⟩ := conveys.eq_transmission (served.perform performed) content sound
    refine ⟨seq, _, accepted, ?_, List.drop_left⟩
    have found := Descriptor.read?_headerBytes (d := { d with seq, headerLength }) sound payload
    rw [Packet.transmission, Transmission.frame, Descriptor.decode, found]
    rfl

end Transmitting

end Link

end MoteLink
