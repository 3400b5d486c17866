import MoteLink.Proofs.Link.Acknowledged.Numbering
import MoteLink.Proofs.Link.Admission

/-!
# Recognizing packets by their numbers

A link gives out 255 sequence numbers and then begins anew, whether the packets that got them are
still held or not. Two packets held carry the same number just if the numbers given out between them
make up whole rounds. So as long as no packet is held for a whole round, each packet held is
recognized by its number: by a caller who cancels it, and by one who is told its outcome.
-/

namespace MoteLink

namespace Link

variable {ρ γ ε : Type}

/-! ## The numbers in their order -/

/-- The `n`-th sequence number given out. Before the first one the counter shows zero. -/
def nthSeq : Nat → UInt8
  | 0 => 0
  | n + 1 => .ofNat (n % 255 + 1)

theorem toNat_nthSeq_succ (n : Nat) : (nthSeq (n + 1)).toNat = n % 255 + 1 := by
  have below : n % 255 + 1 < 256 := by omega
  exact UInt8.toNat_ofNat_of_lt' below

theorem nthSeq_succ_inj {m n : Nat} : nthSeq (m + 1) = nthSeq (n + 1) ↔ m % 255 = n % 255 := by
  rw [← UInt8.toNat_inj, toNat_nthSeq_succ, toNat_nthSeq_succ]
  omega

theorem Station.nextSeq_eq {s : Station ρ γ} {n : Nat} (counter : s.seq = nthSeq n) :
    s.nextSeq.1 = nthSeq (n + 1) := by
  have shown : s.seq.toNat = (nthSeq n).toNat := congrArg UInt8.toNat counter
  apply UInt8.toNat_inj.mp
  rw [toNat_nthSeq_succ]
  by_cases last : s.seq.toNat = 255
  · have full : s.seq = 255 := UInt8.toNat_inj.mp last
    have first : s.nextSeq.1 = 1 := by
      unfold nextSeq
      rw [full]
      rfl
    rw [first, UInt8.toNat_one]
    cases n with
    | zero => rfl
    | succ n =>
      rw [toNat_nthSeq_succ] at shown
      omega
  · have word := s.seq.toNat_lt
    rw [toNat_nextSeq (by omega), shown]
    cases n with
    | zero => rfl
    | succ n =>
      rw [toNat_nthSeq_succ] at shown ⊢
      omega

/-! ## Giving them out -/

/-- A packet that is submitted has no number of its own. -/
def Call.Unnumbered : Call → Prop
  | .submit d _ => d.seq = 0
  | _ => True

instance (call : Call) : Decidable call.Unnumbered :=
  match call with
  | .submit d _ => inferInstanceAs (Decidable (d.seq = 0))
  | .send _ _ | .receive _ | .poll | .cancel _ => inferInstanceAs (Decidable True)

/-- The call has used up a number. -/
def Event.draws (event : Event ρ ε) : Bool :=
  match event.answer with
  | .submitted result => Station.usesNumber result
  | _ => false

/-- How many numbers have been given out. -/
def drawn (history : List (Event ρ ε)) : Nat := history.countP Event.draws

theorem drawn_append (before after : List (Event ρ ε)) :
    drawn (before ++ after) = drawn before + drawn after :=
  List.countP_append

theorem drawn_cons_of_draws {event : Event ρ ε} (draws : event.draws = true)
    (later : List (Event ρ ε)) : drawn (event :: later) = drawn later + 1 := by
  rw [drawn, List.countP_cons_of_pos draws]
  rfl

theorem Event.draws_of_submitted {event : Event ρ ε} {seq : UInt8}
    (told : event.answer = .submitted (.ok seq)) : event.draws = true := by
  unfold Event.draws
  rw [told]
  rfl

variable [Transceiver ρ ε] [RandomSource γ] {c : Config} {start link after : Link ρ γ}
  {call : Call} {answer : Answer ε} {d : Descriptor} {payload : Bytes} {now : Tick} {i j : Nat}
  {p q : Packet}

omit [Transceiver ρ ε] [RandomSource γ] in
theorem seq_eq_zero_of_submission? (plain : call.Unnumbered)
    (submits : link.submission? call = some (d, payload)) : d.seq = 0 := by
  cases call with
  | send dst payload =>
    cases submits
    rfl
  | submit d payload =>
    cases submits
    exact plain
  | receive | poll | cancel => cases submits

/-! ## Only submissions use them up -/

theorem Step.seq_eq (step : Step now link after) (served : link.Served) :
    after.station.seq = link.station.seq := by
  obtain ⟨r, taken⟩ := step
  cases stepped_of_step taken with
  | passThrough m => rfl
  | carrierSense stepped => exact (CarrierSense.transition_of_step served stepped).settings_eq.2
  | acknowledged stepped => exact (Acknowledged.transition_of_step served stepped).settings_eq.2
  | timeSlot m => exact (m.settings_release now).2

theorem Steps.seq_eq (steps : Steps now link after) (served : link.Served) :
    after.station.seq = link.station.seq := by
  induction steps with
  | refl => rfl
  | tail earlier step ih => exact (step.seq_eq (Steps.keeps earlier served).1).trans ih

/-- A call that submits nothing fills no place and leaves the counter alone. -/
theorem Queueing.silent (queueing : Queueing c link) (other : link.submission? call = none)
    (performed : link.perform now call = .ok (answer, after)) :
    after.station.seq = link.station.seq ∧ link.outbox.Keeps after.outbox ∧
      ∀ result, answer ≠ .submitted result := by
  cases call with
  | send dst payload | submit d payload => cases other
  | receive frame =>
    cases performed
    refine ⟨?_, keeps_receive queueing.served frame, by rintro result ⟨⟩⟩
    cases queueing with
    | carrierSense served => rfl
    | @acknowledged m served => exact (m.reception_receive (ε := ε) frame).seq_eq served.toServed
  | cancel seq =>
    cases performed
    exact ⟨congrArg Station.seq (link.station_cancel seq), link.keeps_cancel seq,
      by rintro result ⟨⟩⟩
  | poll =>
    obtain ⟨result, rfl, polled⟩ := exists_poll_of_perform performed
    obtain ⟨rested, outcomes, steps, rfl, -⟩ := steps_of_poll polled
    refine ⟨?_, ?_, by rintro result ⟨⟩⟩
    · rw [station_setStation]
      exact steps.seq_eq queueing.served
    · rw [outbox_setStation]
      exact (steps.keeps queueing.served).2

/-- What a call does to the counter. -/
theorem Queueing.counts {event : Event ρ ε} {n : Nat} (queueing : Queueing c link)
    (plain : event.call.Unnumbered) (counter : link.station.seq = nthSeq n)
    (performed : link.perform event.now event.call = .ok (event.answer, after)) :
    after.station.seq = nthSeq (n + drawn [event]) ∧
      ∀ seq, event.answer = .submitted (.ok seq) → seq = nthSeq (n + 1) := by
  have next := Station.nextSeq_eq counter
  cases submits : link.submission? event.call with
  | none =>
    obtain ⟨same, -, silent⟩ := queueing.silent submits performed
    have undrawn : event.draws = false := by
      unfold Event.draws
      split <;> rename_i result told
      · exact absurd told (silent result)
      · rfl
    refine ⟨?_, fun seq told => absurd told (silent _)⟩
    rw [same, counter, drawn, List.countP_singleton, undrawn]
    rfl
  | some packet =>
    obtain ⟨result, told, submitted⟩ := queueing.submitted submits performed
    obtain ⟨counted, carries⟩ := submitted.seq (seq_eq_zero_of_submission? plain submits)
    have same : event.draws = Station.usesNumber result := by
      unfold Event.draws
      rw [told]
    constructor
    · rw [counted, drawn, List.countP_singleton, same]
      by_cases used : Station.usesNumber result = true
      · rw [if_pos used, if_pos used, next]
      · rw [if_neg used, if_neg used, counter]
        rfl
    · intro seq answered
      rw [told] at answered
      have accepted : result = .ok seq := Answer.submitted.inj answered
      rw [carries seq accepted, counted, accepted]
      exact next

omit [Transceiver ρ ε] [RandomSource γ] in
theorem seq_setRadio (link : Link ρ γ) (radio : ρ) :
    (link.setRadio radio).station.seq = link.station.seq := by
  rw [setRadio, station_setStation]

/-- The counter shows the last number given out. -/
theorem seq_eq_nthSeq {method : Method} {capacity : Nat} {config : Config} {radio : ρ} {rng : γ}
    {history : List (Event ρ ε)} (queues : method = .carrierSense ∨ method = .acknowledged)
    (run : Run (.new method capacity config radio rng) history link)
    (plain : ∀ event ∈ history, event.call.Unnumbered) :
    link.station.seq = nthSeq (drawn history) := by
  induction run with
  | start => cases method <;> rfl
  | @call history link after event run performed ih =>
    have counter := ih fun event member => plain event (List.mem_append_left _ member)
    have last := plain event (List.mem_append_right _ (List.mem_singleton_self _))
    have queueing := (queueing_of_run queues run).1.setRadio event.radio
    rw [← link.seq_setRadio event.radio] at counter
    rw [drawn_append]
    exact (queueing.counts last counter performed).1

/-! ## How long a packet has been held -/

/-- The link comes from `start` by the calls `before`, then `event`, then `later`. By `event` a
    packet has come into the place `i`, which has never been empty since. -/
inductive Stay (start : Link ρ γ) (i : Nat) (before : List (Event ρ ε)) (event : Event ρ ε) :
    List (Event ρ ε) → Link ρ γ → Prop
  | enter {link after : Link ρ γ} (run : Run start before link)
      (performed : (link.setRadio event.radio).perform event.now event.call =
        .ok (event.answer, after)) (vacant : link.outbox.contentAt? i = none)
      (full : (after.outbox.contentAt? i).isSome = true) : Stay start i before event [] after
  | stay {later : List (Event ρ ε)} {link after : Link ρ γ} (next : Event ρ ε)
      (stay : Stay start i before event later link)
      (performed : (link.setRadio next.radio).perform next.now next.call =
        .ok (next.answer, after)) (full : (after.outbox.contentAt? i).isSome = true) :
      Stay start i before event (later ++ [next]) after

section Stays

variable {history before before' later later' : List (Event ρ ε)} {event event' : Event ρ ε}

theorem Stay.run (stay : Stay start i before event later link) :
    Run start (before ++ event :: later) link := by
  induction stay with
  | enter run performed vacant full => exact run.call event performed
  | @stay later link after next stay performed full ih =>
    have longer := ih.call next performed
    rwa [List.append_assoc, List.cons_append] at longer

/-- A packet that is held has come in by some call and has been held since. -/
theorem exists_stay (run : Run start history link) (empty : start.outbox.contentAt? i = none)
    (full : (link.outbox.contentAt? i).isSome = true) :
    ∃ before event later, history = before ++ event :: later ∧
      Stay start i before event later link := by
  induction run with
  | start =>
    rw [empty] at full
    cases full
  | @call history link after event run performed ih =>
    cases there : link.outbox.contentAt? i with
    | none => exact ⟨history, event, [], rfl, .enter run performed there full⟩
    | some p =>
      obtain ⟨before, first, later, rfl, stay⟩ := ih (there ▸ rfl)
      refine ⟨before, first, later ++ [event], ?_, stay.stay event performed full⟩
      rw [List.append_assoc, List.cons_append]

/-- The state in which the packet has come in, and the state after that. -/
theorem Stay.entered (stay : Stay start i before event later link) :
    ∃ found after, Run start before found ∧
      (found.setRadio event.radio).perform event.now event.call = .ok (event.answer, after) ∧
      found.outbox.contentAt? i = none ∧ (after.outbox.contentAt? i).isSome = true := by
  induction stay with
  | enter run performed vacant full => exact ⟨_, _, run, performed, vacant, full⟩
  | stay next stay performed full ih => exact ih

omit [Transceiver ρ ε] [RandomSource γ] in
/-- A submission fills one place at most. -/
theorem Station.Submitted.place_eq {s s' : Station ρ γ} {o o' : Outbox}
    {result : Except (LinkError ε) UInt8} (submitted : s.Submitted o d payload result s' o')
    (vacant : o.contentAt? i = none) (full : (o'.contentAt? i).isSome = true)
    (vacant' : o.contentAt? j = none) (full' : (o'.contentAt? j).isSome = true) : i = j := by
  cases submitted with
  | unfit prepared | full prepared refused =>
    rw [vacant] at full
    cases full
  | @accepted p s' k o' prepared placed =>
    obtain ⟨replaced, -⟩ := Outbox.accept_eq_ok placed
    have there {n : Nat} (vacant : o.contentAt? n = none)
        (full : (o'.contentAt? n).isSome = true) : n = k := by
      by_contra other
      rw [Outbox.contentAt?_of_replaces replaced, if_neg other, vacant] at full
      cases full
    exact (there vacant full).trans (there vacant' full').symm

/-- One call fills one place at most. -/
theorem Queueing.place_eq (queueing : Queueing c link)
    (performed : link.perform now call = .ok (answer, after))
    (vacant : link.outbox.contentAt? i = none) (full : (after.outbox.contentAt? i).isSome = true)
    (vacant' : link.outbox.contentAt? j = none)
    (full' : (after.outbox.contentAt? j).isSome = true) : i = j := by
  cases submits : link.submission? call with
  | none =>
    obtain ⟨p, content⟩ := Option.isSome_iff_exists.mp full
    have there := (queueing.silent submits performed).2.1 i p content
    rw [vacant] at there
    cases there
  | some packet =>
    obtain ⟨result, -, submitted⟩ := queueing.submitted submits performed
    exact submitted.place_eq vacant full vacant' full'

/-- A packet that a call brings in bears the number that the call is told. -/
theorem Queueing.content_of_vacant (queueing : Queueing c link)
    (performed : link.perform now call = .ok (answer, after))
    (vacant : link.outbox.contentAt? i = none) (content : after.outbox.contentAt? i = some p) :
    answer = .submitted (.ok p.descriptor.seq) := by
  cases submits : link.submission? call with
  | none =>
    have there := (queueing.silent submits performed).2.1 i p content
    rw [vacant] at there
    cases there
  | some packet =>
    obtain ⟨result, rfl, submitted⟩ := queueing.submitted submits performed
    rcases submitted.fills i with same | ⟨-, seq, headerLength, ticket, rfl, -, filled⟩
    · rw [same, vacant] at content
      cases content
    · rw [filled] at content
      cases content
      rfl

end Stays

section Law

variable {method : Method} {capacity : Nat} {config : Config} {radio : ρ} {rng : γ}
  {history before before' later later' : List (Event ρ ε)} {event event' : Event ρ ε} {seq : UInt8}

/-- The number that a call has been told is the next one at that time. -/
theorem Run.seq_of_submitted (queues : method = .carrierSense ∨ method = .acknowledged)
    (run : Run (.new method capacity config radio rng) (before ++ event :: later) link)
    (plain : ∀ e ∈ before ++ event :: later, e.call.Unnumbered)
    (told : event.answer = .submitted (.ok seq)) : seq = nthSeq (drawn before + 1) := by
  obtain ⟨found, after, earlier, performed⟩ := run.split
  have counter := seq_eq_nthSeq queues earlier fun e member =>
    plain e (List.mem_append_left _ member)
  rw [← found.seq_setRadio event.radio] at counter
  have unnumbered := plain event (List.mem_append_right _ List.mem_cons_self)
  have queueing := (queueing_of_run queues earlier).1.setRadio event.radio
  exact (queueing.counts unnumbered counter performed).2 seq told

/-- A place that has not been empty since a packet came in has that packet. -/
theorem Stay.content (queues : method = .carrierSense ∨ method = .acknowledged)
    (stay : Stay (.new method capacity config radio rng) i before event later link) :
    ∃ p, link.outbox.contentAt? i = some p ∧
      event.answer = .submitted (.ok p.descriptor.seq) := by
  induction stay with
  | @enter link after run performed vacant full =>
    obtain ⟨p, content⟩ := Option.isSome_iff_exists.mp full
    have queueing := (queueing_of_run queues run).1.setRadio event.radio
    rw [← link.outbox_setRadio event.radio] at vacant
    exact ⟨p, content, queueing.content_of_vacant performed vacant content⟩
  | @stay later link after next stay performed full ih =>
    obtain ⟨p, there, told⟩ := ih
    obtain ⟨q, content⟩ := Option.isSome_iff_exists.mp full
    have served := (queueing_of_run queues stay.run).1.served.setRadio next.radio
    rw [← link.outbox_setRadio next.radio] at there
    have same := retains_of_perform served performed i p q there content
    exact ⟨q, content, same ▸ told⟩

omit [Transceiver ρ ε] [RandomSource γ] in
/-- After two calls that use up a number different counts of numbers are given out, or the calls are
    one. -/
theorem eq_of_drawn_eq (same : before ++ event :: later = before' ++ event' :: later')
    (draws : event.draws = true) (draws' : event'.draws = true)
    (count : drawn later = drawn later') : before = before' ∧ event = event' ∧ later = later' := by
  rcases List.append_eq_append_iff.mp same with ⟨between, rfl, rest⟩ | ⟨between, rfl, rest⟩
  · cases between with
    | nil =>
      cases rest
      exact ⟨(List.append_nil _).symm, rfl, rfl⟩
    | cons first between =>
      obtain ⟨-, rfl⟩ := List.cons.inj (rest.trans List.cons_append)
      rw [drawn_append, drawn_cons_of_draws draws'] at count
      omega
  · cases between with
    | nil =>
      cases rest
      exact ⟨List.append_nil _, rfl, rfl⟩
    | cons first between =>
      obtain ⟨-, rfl⟩ := List.cons.inj (rest.trans List.cons_append)
      rw [drawn_append, drawn_cons_of_draws draws] at count
      omega

/-- Between the submissions of two packets held numbers have been given out, and the packets carry
    the same one just if these make up whole rounds. -/
theorem Stay.seq_eq_iff (queues : method = .carrierSense ∨ method = .acknowledged)
    (plain : ∀ e ∈ history, e.call.Unnumbered) (split : history = before ++ event :: later)
    (split' : history = before' ++ event' :: later')
    (stay : Stay (.new method capacity config radio rng) i before event later link)
    (stay' : Stay (.new method capacity config radio rng) j before' event' later' link)
    (content : link.outbox.contentAt? i = some p) (content' : link.outbox.contentAt? j = some q)
    (apart : i ≠ j) : drawn later ≠ drawn later' ∧
      (p.descriptor.seq = q.descriptor.seq ↔ drawn later % 255 = drawn later' % 255) := by
  obtain ⟨p', there, told⟩ := stay.content queues
  obtain ⟨q', there', told'⟩ := stay'.content queues
  rw [content] at there
  rw [content'] at there'
  cases there
  cases there'
  have draws := Event.draws_of_submitted told
  have draws' := Event.draws_of_submitted told'
  constructor
  · intro count
    obtain ⟨rfl, rfl, rfl⟩ := eq_of_drawn_eq (split ▸ split') draws draws' count
    obtain ⟨found, after, run, performed, vacant, full⟩ := stay.entered
    obtain ⟨found', after', run', performed', vacant', full'⟩ := stay'.entered
    cases run.eq_of_run run'
    rw [performed] at performed'
    cases performed'
    have queueing := (queueing_of_run queues run).1.setRadio event.radio
    rw [← found.outbox_setRadio event.radio] at vacant vacant'
    exact apart (queueing.place_eq performed vacant full vacant' full')
  · have number := stay.run.seq_of_submitted queues (split ▸ plain) told
    have number' := stay'.run.seq_of_submitted queues (split' ▸ plain) told'
    have total := congrArg drawn split
    have total' := congrArg drawn split'
    rw [drawn_append, drawn_cons_of_draws draws] at total
    rw [drawn_append, drawn_cons_of_draws draws'] at total'
    rw [number, number', nthSeq_succ_inj]
    omega

/-- Until a round is over no other call is told the number again. -/
theorem Stay.ne_of_drawn_lt (queues : method = .carrierSense ∨ method = .acknowledged)
    (plain : ∀ e ∈ before ++ event :: later, e.call.Unnumbered)
    (stay : Stay (.new method capacity config radio rng) i before event later link)
    (told : event.answer = .submitted (.ok seq)) (short : drawn later < 255) :
    ∀ e ∈ later, e.answer ≠ .submitted (.ok seq) := by
  intro e member again
  obtain ⟨between, rest, rfl⟩ := List.append_of_mem member
  have first := stay.run.seq_of_submitted queues plain told
  have regrouped : before ++ event :: (between ++ e :: rest) =
      (before ++ event :: between) ++ e :: rest := by
    rw [List.append_assoc, List.cons_append]
  have run := stay.run
  rw [regrouped] at run plain
  have second := run.seq_of_submitted queues plain again
  rw [drawn_append, drawn_cons_of_draws (Event.draws_of_submitted told)] at second
  rw [drawn_append, drawn_cons_of_draws (Event.draws_of_submitted again)] at short
  rw [first, nthSeq_succ_inj] at second
  omega

end Law

/-! ## What a number tells -/

/-- The packet in the place has come in by the call that was the last one to be told this number. -/
structure Bears (start : Link ρ γ) (history : List (Event ρ ε)) (link : Link ρ γ) (i : Nat)
    (seq : UInt8) : Prop where
  origin : ∃ before event later, history = before ++ event :: later ∧
    Stay start i before event later link ∧ event.answer = .submitted (.ok seq) ∧
      ∀ e ∈ later, e.answer ≠ .submitted (.ok seq)

/-- No packet held has been held for a whole round of numbers. -/
def WithinRound (start : Link ρ γ) (history : List (Event ρ ε)) (link : Link ρ γ) : Prop :=
  ∀ i before event later, history = before ++ event :: later →
    Stay start i before event later link → drawn later < 255

/-- The packets held are recognized by their numbers, which differ from each other. -/
structure Recognizable (start : Link ρ γ) (history : List (Event ρ ε)) (link : Link ρ γ) :
    Prop where
  distinct : ∀ i j p q, link.outbox.contentAt? i = some p → link.outbox.contentAt? j = some q →
    p.descriptor.seq = q.descriptor.seq → i = j
  /-- A cancellation empties the place of the packet that bears the number and no other one. -/
  cancels : ∀ seq,
    link.cancel seq = (false, link) ∧
        (∀ i p, link.outbox.contentAt? i = some p → p.descriptor.seq ≠ seq) ∨
      ∃ i, Bears start history link i seq ∧ (link.cancel seq).1 = true ∧
        (link.outbox.contentAt? i).isSome = true ∧ ∀ j, (link.cancel seq).2.outbox.contentAt? j =
          if j = i then none else link.outbox.contentAt? j
  /-- The outcomes that a call puts up are of packets held, each of another number, which tells by
      what call the packet has come in. -/
  outcomes : ∀ (event : Event ρ ε) (after : Link ρ γ),
    (link.setRadio event.radio).perform event.now event.call = .ok (event.answer, after) →
      ∃ resolved : List Resolution,
        event.fetched?.toList ++ after.station.outcomes.items =
            (link.station.outcomes.pushAll (resolved.map Resolution.outcome)).items ∧
          (resolved.map fun r => r.packet.descriptor.seq).Nodup ∧
          ∀ r ∈ resolved, ∃ i, link.outbox.contentAt? i = some r.packet ∧
            Bears start history link i r.packet.descriptor.seq

section Cancelling

omit [Transceiver ρ ε] [RandomSource γ]

theorem Outbox.ne_of_remove_eq_none {o : Outbox} {seq : UInt8} (absent : o.remove seq = none)
    (content : o.contentAt? i = some p) : p.descriptor.seq ≠ seq := by
  obtain ⟨q, found, rfl⟩ := Option.map_eq_some_iff.mp content
  obtain ⟨slot, at_i, shown⟩ := Option.bind_eq_some_iff.mp found
  exact remove_eq_none absent q (List.mem_filterMap.mpr ⟨slot, List.mem_of_getElem? at_i, shown⟩)

theorem Outbox.emptied_of_remove {o o' : Outbox} {seq : UInt8} {slot : Slot}
    (removed : o.remove seq = some (slot, o')) :
    ∃ i p, o.contentAt? i = some p ∧ p.descriptor.seq = seq ∧
      ∀ j, o'.contentAt? j = if j = i then none else o.contentAt? j := by
  obtain ⟨i, p, freed, shown, carried, -⟩ := remove_eq_some removed
  refine ⟨i, p.untried, ?_, carried, contentAt?_of_replaces freed⟩
  rw [contentAt?_of_slot freed.found, shown]
  rfl

omit [Transceiver ρ ε] [RandomSource γ] in
/-- A cancellation finds no packet with the number, or it empties the place of one. -/
theorem cancel_cases (link : Link ρ γ) (seq : UInt8) :
    (link.cancel seq = (false, link) ∧
        ∀ i p, link.outbox.contentAt? i = some p → p.descriptor.seq ≠ seq) ∨
      ∃ i p, link.outbox.contentAt? i = some p ∧ p.descriptor.seq = seq ∧
        (link.cancel seq).1 = true ∧ ∀ j, (link.cancel seq).2.outbox.contentAt? j =
          if j = i then none else link.outbox.contentAt? j := by
  rw [cancel_eq]
  cases removed : link.outbox.remove seq with
  | none => exact .inl ⟨rfl, fun i p => Outbox.ne_of_remove_eq_none removed⟩
  | some entry =>
    obtain ⟨i, p, content, carried, emptied⟩ := Outbox.emptied_of_remove removed
    dsimp only
    rw [outbox_without removed]
    exact .inr ⟨i, p, content, carried, rfl, emptied⟩

end Cancelling

section Telling

omit [Transceiver ρ ε] [RandomSource γ] in
theorem exists_content_of_mem_held (member : p ∈ link.ledger.held) :
    ∃ i, link.outbox.contentAt? i = some p := by
  obtain ⟨q, packets, rfl⟩ := List.mem_map.mp (Multiset.mem_coe.mp member)
  obtain ⟨slot, there, shown⟩ := List.mem_filterMap.mp packets
  obtain ⟨i, at_i⟩ := List.mem_iff_getElem?.mp there
  refine ⟨i, ?_⟩
  rw [Outbox.contentAt?_of_slot at_i, shown]
  rfl

omit [Transceiver ρ ε] [RandomSource γ] in
theorem nodup_held (distinct : ∀ i j p q, link.outbox.contentAt? i = some p →
      link.outbox.contentAt? j = some q → p.descriptor.seq = q.descriptor.seq → i = j) :
    (link.ledger.held.map fun p => p.descriptor.seq).Nodup := by
  have apart : link.outbox.packets.Pairwise fun p q => p.descriptor.seq ≠ q.descriptor.seq := by
    apply List.pairwise_filterMap.mpr
    apply List.pairwise_iff_getElem.mpr
    intro i j first second less p shown q shown' same
    have content : link.outbox.contentAt? i = some p.untried := by
      rw [Outbox.contentAt?_of_slot (List.getElem?_eq_getElem first), shown]
      rfl
    have content' : link.outbox.contentAt? j = some q.untried := by
      rw [Outbox.contentAt?_of_slot (List.getElem?_eq_getElem second), shown']
      rfl
    have one := distinct i j p.untried q.untried content content' same
    omega
  change ((link.outbox.packets.map Packet.untried).map fun p => p.descriptor.seq).Nodup
  rw [List.map_map]
  exact List.pairwise_map.mpr apart

/-- What a call leaves to be fetched, and the outcome that it tells, are what has waited and the
    outcomes of packets held. -/
theorem Queueing.resolved (queueing : Queueing c link) (event : Event ρ ε)
    (performed : link.perform event.now event.call = .ok (event.answer, after)) :
    ∃ resolved : List Resolution,
      event.fetched?.toList ++ after.station.outcomes.items =
          (link.station.outcomes.pushAll (resolved.map Resolution.outcome)).items ∧
        (resolved.map Resolution.packet : Multiset Packet) ≤ link.ledger.held := by
  have posts := queueing.posts performed
  obtain ⟨now, radio, call, answer⟩ := event
  change ∃ resolved : List Resolution,
    Option.toList (Event.fetched? ⟨now, radio, call, answer⟩) ++ after.ledger.outcomes.items =
        (link.ledger.outcomes.pushAll (resolved.map Resolution.outcome)).items ∧ _
  dsimp only at posts
  generalize after.ledger = b at posts ⊢
  have within {resolved : List Resolution} {b : Ledger}
      (resolves : link.ledger.Resolves resolved b) :
      (resolved.map Resolution.packet : Multiset Packet) ≤ link.ledger.held := by
    rw [resolves.held]
    exact Multiset.le_add_right _ _
  cases posts with
  | accepted submits enters => exact ⟨[], rfl, Multiset.zero_le _⟩
  | refused submits e => exact ⟨[], rfl, Multiset.zero_le _⟩
  | removed held => exact ⟨[], rfl, Multiset.zero_le _⟩
  | missed seq => exact ⟨[], rfl, Multiset.zero_le _⟩
  | received resolves => exact ⟨_, congrArg Fifo.items resolves.outcomes, within resolves⟩
  | failed resolves => exact ⟨_, congrArg Fifo.items resolves.outcomes, within resolves⟩
  | @fetched resolved b resolves =>
    refine ⟨resolved, ?_, within resolves⟩
    rw [← resolves.outcomes]
    change b.outcomes.pop.1.toList ++ b.outcomes.pop.2.items = b.outcomes.items
    rw [Fifo.pop_fst, Fifo.items_pop]
    cases b.outcomes.items <;> rfl

end Telling

section Recognizing

variable {method : Method} {capacity : Nat} {config : Config} {radio : ρ} {rng : γ}
  {history : List (Event ρ ε)}

/-- A packet held has come in by a call that was told its number. -/
theorem exists_stay_of_content (queues : method = .carrierSense ∨ method = .acknowledged)
    (run : Run (.new method capacity config radio rng) history link)
    (content : link.outbox.contentAt? i = some p) :
    ∃ before event later, history = before ++ event :: later ∧
      Stay (.new method capacity config radio rng) i before event later link ∧
        event.answer = .submitted (.ok p.descriptor.seq) := by
  have empty : (Link.new method capacity config radio rng).outbox.contentAt? i = none :=
    contentAt?_new method capacity config radio rng i
  obtain ⟨before, event, later, split, stay⟩ := exists_stay run empty (content ▸ rfl)
  obtain ⟨q, there, told⟩ := stay.content queues
  rw [content] at there
  cases there
  exact ⟨before, event, later, split, stay, told⟩

/-- Within a round a packet held bears its number. -/
theorem bears_of_withinRound (queues : method = .carrierSense ∨ method = .acknowledged)
    (run : Run (.new method capacity config radio rng) history link)
    (plain : ∀ event ∈ history, event.call.Unnumbered)
    (fresh : WithinRound (.new method capacity config radio rng) history link)
    (content : link.outbox.contentAt? i = some p) :
    Bears (.new method capacity config radio rng) history link i p.descriptor.seq := by
  obtain ⟨before, event, later, split, stay, told⟩ := exists_stay_of_content queues run content
  have short := fresh i before event later split stay
  exact ⟨before, event, later, split, stay, told,
    stay.ne_of_drawn_lt queues (split ▸ plain) told short⟩

/-- Within a round the packets held carry different numbers. -/
theorem eq_of_withinRound (queues : method = .carrierSense ∨ method = .acknowledged)
    (run : Run (.new method capacity config radio rng) history link)
    (plain : ∀ event ∈ history, event.call.Unnumbered)
    (fresh : WithinRound (.new method capacity config radio rng) history link)
    (content : link.outbox.contentAt? i = some p) (content' : link.outbox.contentAt? j = some q)
    (same : p.descriptor.seq = q.descriptor.seq) : i = j := by
  by_contra apart
  obtain ⟨before, event, later, split, stay, -⟩ := exists_stay_of_content queues run content
  obtain ⟨before', event', later', split', stay', -⟩ := exists_stay_of_content queues run content'
  obtain ⟨differ, rounds⟩ :=
    stay.seq_eq_iff queues plain split split' stay' content content' apart
  have short := fresh i before event later split stay
  have short' := fresh j before' event' later' split' stay'
  have whole := rounds.mp same
  omega

/-- Within a round the packets held are recognized by their numbers. -/
theorem recognizable_of_withinRound (queues : method = .carrierSense ∨ method = .acknowledged)
    (run : Run (.new method capacity config radio rng) history link)
    (plain : ∀ event ∈ history, event.call.Unnumbered)
    (fresh : WithinRound (.new method capacity config radio rng) history link) :
    Recognizable (.new method capacity config radio rng) history link := by
  have queueing := (queueing_of_run queues run).1
  have distinct (i j : Nat) (p q : Packet) (content : link.outbox.contentAt? i = some p)
      (content' : link.outbox.contentAt? j = some q) :=
    eq_of_withinRound queues run plain fresh content content'
  constructor
  case distinct => exact distinct
  case cancels =>
    intro seq
    rcases link.cancel_cases seq with absent | ⟨i, p, content, rfl, found, emptied⟩
    · exact .inl absent
    · have bears := bears_of_withinRound queues run plain fresh content
      exact .inr ⟨i, bears, found, content ▸ rfl, emptied⟩
  case outcomes =>
    intro event after performed
    obtain ⟨resolved, shown, within⟩ := (queueing.setRadio event.radio).resolved event performed
    rw [ledger_setRadio] at within
    rw [setRadio, station_setStation] at shown
    refine ⟨resolved, shown, ?_, ?_⟩
    · have once := Multiset.nodup_of_le
        (Multiset.map_le_map (f := fun p => p.descriptor.seq) within) (nodup_held distinct)
      rwa [Multiset.map_coe, List.map_map, Multiset.coe_nodup] at once
    · intro r member
      have held := Multiset.mem_of_le within (Multiset.mem_coe.mpr (List.mem_map_of_mem member))
      obtain ⟨i, content⟩ := exists_content_of_mem_held held
      exact ⟨i, content, bears_of_withinRound queues run plain fresh content⟩

end Recognizing

/-- In every run of a link with an outbox to which packets are submitted without numbers: a packet
    held has come in by a call that was told its number, and two packets held carry the same number
    just if the numbers given out between their submissions make up whole rounds of 255. So as long
    as none of them has been held for a whole round, they are recognized by their numbers. -/
theorem recognizable_of_run {method : Method} {capacity : Nat} {config : Config} {radio : ρ}
    {rng : γ} {history : List (Event ρ ε)}
    (queues : method = .carrierSense ∨ method = .acknowledged)
    (run : Run (.new method capacity config radio rng) history link)
    (plain : ∀ event ∈ history, event.call.Unnumbered) :
    (∀ i p, link.outbox.contentAt? i = some p → ∃ before event later,
        history = before ++ event :: later ∧
          Stay (.new method capacity config radio rng) i before event later link ∧
          event.answer = .submitted (.ok p.descriptor.seq)) ∧
      (∀ i j p q before event later before' event' later', i ≠ j →
        link.outbox.contentAt? i = some p → link.outbox.contentAt? j = some q →
        history = before ++ event :: later → history = before' ++ event' :: later' →
        Stay (.new method capacity config radio rng) i before event later link →
        Stay (.new method capacity config radio rng) j before' event' later' link →
          drawn later ≠ drawn later' ∧ (p.descriptor.seq = q.descriptor.seq ↔
            drawn later % 255 = drawn later' % 255)) ∧
      (WithinRound (.new method capacity config radio rng) history link →
        Recognizable (.new method capacity config radio rng) history link) := by
  refine ⟨fun i p => exists_stay_of_content queues run, ?_,
    recognizable_of_withinRound queues run plain⟩
  intro i j p q before event later before' event' later' apart content content' split split' stay
    stay'
  exact stay.seq_eq_iff queues plain split split' stay' content content' apart

/-- In the first round nothing can be held for a whole one. -/
theorem withinRound_of_drawn_le {method : Method} {capacity : Nat} {config : Config} {radio : ρ}
    {rng : γ} {history : List (Event ρ ε)}
    (queues : method = .carrierSense ∨ method = .acknowledged) (few : drawn history ≤ 255) :
    WithinRound (.new method capacity config radio rng) history link := by
  intro i before event later split stay
  obtain ⟨p, -, told⟩ := stay.content queues
  rw [split, drawn_append, drawn_cons_of_draws (Event.draws_of_submitted told)] at few
  omega

/-- One packet waits for its send time and another one for the next poll. -/
theorem recognizable_of_run_delayed :
    ∃ (history : List (Event Bench BenchError)) (link : Link Bench StepGenerator),
      Run (promptLink 2) history link ∧ link.held = 2 ∧
        Recognizable (promptLink 2) history link := by
  obtain ⟨history, link, run, shown⟩ := exists_run_of_replay (ε := BenchError)
    [(5, id, .submit { src := .short 1, dst := .short 2, sendAt := 1000 } [7]),
      (5, id, .send (.short 3) [8])]
    (fun history link => decide (link.held = 2 ∧ (∀ event ∈ history, event.call.Unnumbered) ∧
      drawn history ≤ 255))
    (show ((promptLink 2).replay _).toOption.any _ = true by decide +kernel)
  obtain ⟨held, plain, few⟩ := of_decide_eq_true shown
  have recognizable := (recognizable_of_run (.inl rfl) run plain).2.2
  exact ⟨history, link, run, held, recognizable (withinRound_of_drawn_le (.inl rfl) few)⟩

/-- A packet is delayed while 254 packets are sent, and then one more is submitted. -/
def fullRound : List (Tick × (Bench → Bench) × Call) :=
  (5, id, .submit { src := .short 1, dst := .short 2, sendAt := 1000 } [7]) ::
    (List.replicate 254 [(5, id, .send (.short 3) [8]), (5, id, .poll)]).flatten ++
      [(5, id, .send (.short 4) [9])]

/-- The packet delayed and the last one carry the same number, and a caller who gives up the one
    submitted last gives up the other one. -/
theorem same_number_of_fullRound :
    ∃ (history : List (Event Bench BenchError)) (link : Link Bench StepGenerator),
      Run (promptLink 2) history link ∧ (∀ event ∈ history, event.call.Unnumbered) ∧
        (link.outbox.contentAt? 0).map (fun p => (p.descriptor.seq, p.descriptor.dst)) =
          some (1, .short 2) ∧
        (link.outbox.contentAt? 1).map (fun p => (p.descriptor.seq, p.descriptor.dst)) =
          some (1, .short 4) ∧
        (link.cancel 1).2.outbox.contentAt? 0 = none ∧
        (link.cancel 1).2.outbox.contentAt? 1 = link.outbox.contentAt? 1 := by
  obtain ⟨history, link, run, shown⟩ := exists_run_of_replay (ε := BenchError) fullRound
    (fun history link => decide ((∀ event ∈ history, event.call.Unnumbered) ∧
      (link.outbox.contentAt? 0).map (fun p => (p.descriptor.seq, p.descriptor.dst)) =
        some (1, .short 2) ∧
      (link.outbox.contentAt? 1).map (fun p => (p.descriptor.seq, p.descriptor.dst)) =
        some (1, .short 4) ∧
      (link.cancel 1).2.outbox.contentAt? 0 = none ∧
      (link.cancel 1).2.outbox.contentAt? 1 = link.outbox.contentAt? 1))
    (show ((promptLink 2).replay _).toOption.any _ = true by decide +kernel)
  exact ⟨history, link, run, of_decide_eq_true shown⟩

end Link

end MoteLink
