import Mathlib.Logic.Relation
import MoteLink.Proofs.Link.Acknowledged.Invariant
import MoteLink.Proofs.Link.CarrierSense.Invariant

/-!
# Links of any access method

Whatever its access method, a link has places for packets, and a cancellation frees one of them. A
link that is polled repeats one step until nothing more can be done, and fetches an outcome then;
where packets pass through or wait for a time slot it never takes more than one.
-/

namespace MoteLink

/-- What comes of a computation whose state is read in another way. -/
theorem eq_ok_of_map {α σ τ : Type} {f : σ → τ} {x : Except Halt (α × σ)} {a : α} {t : τ}
    (mapped : x.map (Prod.map id f) = .ok (a, t)) : ∃ s, x = .ok (a, s) ∧ f s = t := by
  cases x with
  | error halt => cases mapped
  | ok result =>
    cases mapped
    exact ⟨_, rfl, rfl⟩

namespace Link

variable {ρ γ ε : Type} {link after : Link ρ γ} {now : Tick}

/-! ## Places -/

/-- The places for packets of a link. Where packets pass through there is none. -/
def outbox : Link ρ γ → Outbox
  | .passThrough _ => .empty 0
  | .carrierSense m => m.outbox
  | .acknowledged m => m.outbox
  | .timeSlot m => { slots := [(m.pending.map .queued).getD .idle] }

theorem held_outbox (link : Link ρ γ) : link.outbox.held = link.held := by
  cases link with
  | passThrough m => exact Outbox.held_empty 0
  | carrierSense m => rfl
  | acknowledged m => rfl
  | timeSlot m => cases pending : m.pending <;> simp [outbox, held, Outbox.held, pending]

@[simp] theorem outbox_setStation (link : Link ρ γ) (s : Station ρ γ) :
    (link.setStation s).outbox = link.outbox := by
  cases link <;> rfl

@[simp] theorem outbox_setRadio (link : Link ρ γ) (radio : ρ) :
    (link.setRadio radio).outbox = link.outbox :=
  link.outbox_setStation _

/-! ## Cancellations -/

/-- The link with the places of `outbox`, in which what has stood in `slot` is missing. If that was
    in flight the link comes to rest. -/
def without (slot : Slot) (outbox : Outbox) : Link ρ γ → Link ρ γ
  | .carrierSense m =>
    .carrierSense { m with outbox, phase := if slot.inFlight?.isSome then .idle else m.phase }
  | .acknowledged m =>
    .acknowledged { m with outbox, phase := if slot.inFlight?.isSome then .idle else m.phase }
  | .timeSlot m => .timeSlot { m with pending := none }
  | link => link

/-- A cancellation finds no packet with the number, or it frees the place of one. -/
theorem cancel_eq (link : Link ρ γ) (seq : UInt8) : link.cancel seq =
    match link.outbox.remove seq with
    | none => (false, link)
    | some (slot, outbox) => (true, link.without slot outbox) := by
  cases link with
  | passThrough m => rfl
  | carrierSense m =>
    simp only [cancel, CarrierSense.cancel, outbox]
    rcases m.outbox.remove seq with - | ⟨- | - | -, outbox⟩ <;> rfl
  | acknowledged m =>
    simp only [cancel, Acknowledged.cancel, outbox]
    rcases m.outbox.remove seq with - | ⟨- | - | -, outbox⟩ <;> rfl
  | timeSlot m =>
    simp only [cancel, TimeSlot.cancel, outbox, Outbox.remove]
    cases pending : m.pending with
    | none => rfl
    | some p =>
      by_cases carries : p.descriptor.seq = seq <;> simp [Slot.carries, carries, without]

/-- What is left are the places without the one that is freed. -/
theorem outbox_without {slot : Slot} {seq : UInt8} {o : Outbox}
    (removed : link.outbox.remove seq = some (slot, o)) : (link.without slot o).outbox = o := by
  cases link with
  | passThrough m => cases removed
  | carrierSense m => rfl
  | acknowledged m => rfl
  | timeSlot m =>
    simp only [outbox, Outbox.remove] at removed
    cases pending : m.pending with
    | none =>
      rw [pending] at removed
      cases removed
    | some p =>
      rw [pending] at removed
      by_cases carries : p.descriptor.seq = seq
      · have freed : .queued p = slot ∧ { slots := [.idle] } = o := by
          simpa [Slot.carries, carries] using removed
        exact freed.2
      · simp [Slot.carries, carries] at removed

@[simp] theorem station_without (link : Link ρ γ) (slot : Slot) (o : Outbox) :
    (link.without slot o).station = link.station := by
  cases link <;> rfl

@[simp] theorem setStation_station (link : Link ρ γ) : link.setStation link.station = link := by
  cases link <;> rfl

/-! ## The packet in flight and the phase -/

/-- What is in flight fits the phase, where the link has one. -/
def Served : Link ρ γ → Prop
  | .passThrough _ => True
  | .carrierSense m => m.Served
  | .acknowledged m => m.Served
  | .timeSlot _ => True

theorem served_new (method : Method) (capacity : Nat) (config : Config) (radio : ρ) (rng : γ) :
    (new method capacity config radio rng).Served := by
  cases method with
  | passThrough => trivial
  | carrierSense => exact (CarrierSense.servedBy_new capacity config radio rng).served
  | acknowledged => exact (Acknowledged.servedBy_new capacity config radio rng).toServed
  | timeSlot => trivial

theorem Served.setRadio (served : link.Served) (radio : ρ) : (link.setRadio radio).Served := by
  cases link with
  | passThrough m => trivial
  | carrierSense m =>
    have kept : CarrierSense.ServedBy m.station.config m := ⟨served, rfl⟩
    exact (kept.withStation rfl).served
  | acknowledged m => exact Acknowledged.Served.withStation served rfl
  | timeSlot m => trivial

variable [Transceiver ρ ε] [RandomSource γ]

/-- A call keeps the packet in flight in agreement with the phase. -/
theorem Served.perform {call : Call} {answer : Answer ε} (served : link.Served)
    (performed : link.perform now call = .ok (answer, after)) : after.Served := by
  cases link with
  | carrierSense m =>
    obtain ⟨m', rfl, performs⟩ := CarrierSense.performs_of_perform performed
    exact (CarrierSense.servedBy_performs performs ⟨served, rfl⟩).served
  | acknowledged m =>
    obtain ⟨m', rfl, performs⟩ := Acknowledged.performs_of_perform performed
    exact (Acknowledged.servedBy_performs performs ⟨served, rfl⟩).toServed
  | passThrough m => cases call <;> cases performed <;> trivial
  | timeSlot m => cases call <;> cases performed <;> trivial

/-! ## Steps -/

/-- Take one step, and tell whether another may follow at the same tick. -/
def step (now : Tick) : Link ρ γ → Except Halt (Except (LinkError ε) Bool × Link ρ γ)
  | .passThrough m => .ok (.ok false, .passThrough m)
  | .carrierSense m => (m.step now).map (Prod.map id .carrierSense)
  | .acknowledged m => (m.step now).map (Prod.map id .acknowledged)
  | .timeSlot m => .ok (.ok false, .timeSlot (m.release (ε := ε) now))

/-- One step leads from one state of a link to another. -/
def Step (now : Tick) (link after : Link ρ γ) : Prop :=
  ∃ r, link.step (ε := ε) now = .ok (r, after)

/-- Steps of one poll, one after the other. -/
def Steps (now : Tick) : Link ρ γ → Link ρ γ → Prop := Relation.ReflTransGen (Step now)

/-- A step of a link is one of its access method. -/
inductive Stepped (now : Tick) : Link ρ γ → Except (LinkError ε) Bool → Link ρ γ → Prop
  | passThrough (m : PassThrough ρ γ) : Stepped now (.passThrough m) (.ok false) (.passThrough m)
  | carrierSense {m m' : CarrierSense ρ γ} {r : Except (LinkError ε) Bool}
      (taken : CarrierSense.step now m = .ok (r, m')) :
      Stepped now (.carrierSense m) r (.carrierSense m')
  | acknowledged {m m' : Acknowledged ρ γ} {r : Except (LinkError ε) Bool}
      (taken : Acknowledged.step now m = .ok (r, m')) :
      Stepped now (.acknowledged m) r (.acknowledged m')
  | timeSlot (m : TimeSlot ρ γ) :
      Stepped now (.timeSlot m) (.ok false) (.timeSlot (m.release (ε := ε) now))

variable {r : Except (LinkError ε) Bool}

theorem stepped_of_step (taken : link.step now = .ok (r, after)) : Stepped now link r after := by
  cases link with
  | passThrough m =>
    cases taken
    exact .passThrough m
  | carrierSense m =>
    obtain ⟨m', stepped, rfl⟩ := eq_ok_of_map taken
    exact .carrierSense stepped
  | acknowledged m =>
    obtain ⟨m', stepped, rfl⟩ := eq_ok_of_map taken
    exact .acknowledged stepped
  | timeSlot m =>
    cases taken
    exact .timeSlot m

theorem Step.served (step : Step now link after) (served : link.Served) : after.Served := by
  obtain ⟨r, taken⟩ := step
  cases stepped_of_step taken with
  | passThrough m => trivial
  | carrierSense stepped => exact (CarrierSense.servedBy_step ⟨served, rfl⟩ stepped).served
  | acknowledged stepped => exact (Acknowledged.servedBy_step ⟨served, rfl⟩ stepped).toServed
  | timeSlot m => trivial

/-! ## Polls -/

/-- Rounds that one poll takes at most. -/
def pollRounds : Link ρ γ → Nat
  | .carrierSense m => m.pollRounds
  | .acknowledged m => m.pollRounds
  | _ => 1

/-- What a poll makes of a link that has settled: unless sensing has failed it fetches an
    outcome. -/
inductive Ends (rested : Link ρ γ) : Except (LinkError ε) Unit →
    Except (LinkError ε) (Option Outcome) → Link ρ γ → Prop
  | failed (e : LinkError ε) : Ends rested (.error e) (.error e) rested
  | fetched : Ends rested (.ok ()) (.ok rested.station.takeOutcome.1)
      (rested.setStation rested.station.takeOutcome.2)

omit [Transceiver ρ ε] [RandomSource γ] in
theorem Ends.outbox_eq {rested : Link ρ γ} {r : Except (LinkError ε) Unit}
    {result : Except (LinkError ε) (Option Outcome)} (ends : rested.Ends r result after) :
    after.outbox = rested.outbox := by
  cases ends with
  | failed e => rfl
  | fetched => exact rested.outbox_setStation _

/-- A poll of any link settles and ends. -/
theorem poll_eq (link : Link ρ γ) (now : Tick) : link.poll (ε := ε) now =
    match settle (step now) link.pollRounds link with
    | .error halt => .error halt
    | .ok (.error e, rested) => .ok (.error e, rested)
    | .ok (.ok (), rested) => .ok (.ok rested.station.takeOutcome.1,
        rested.setStation rested.station.takeOutcome.2) := by
  cases link with
  | passThrough m => rfl
  | carrierSense m =>
    have same : settle (step (ε := ε) now) m.pollRounds (.carrierSense m) =
        (settle (CarrierSense.step now) m.pollRounds m).map (Prod.map id .carrierSense) :=
      settle_map (fun _ => True) _ (fun _ _ _ _ _ => trivial) (fun _ _ => by rfl) trivial _
    rw [pollRounds, same, poll, CarrierSense.poll]
    rcases settle (CarrierSense.step (ε := ε) now) m.pollRounds m with halt | ⟨e | -, m⟩ <;> rfl
  | acknowledged m =>
    have same : settle (step (ε := ε) now) m.pollRounds (.acknowledged m) =
        (settle (Acknowledged.step now) m.pollRounds m).map (Prod.map id .acknowledged) :=
      settle_map (fun _ => True) _ (fun _ _ _ _ _ => trivial) (fun _ _ => by rfl) trivial _
    rw [pollRounds, same, poll, Acknowledged.poll]
    rcases settle (Acknowledged.step (ε := ε) now) m.pollRounds m with halt | ⟨e | -, m⟩ <;> rfl
  | timeSlot m => rfl

theorem perform_poll {result : Except (LinkError ε) (Option Outcome)}
    (polled : link.poll now = .ok (result, after)) :
    link.perform now .poll = .ok (.polled result, after) := by
  simp only [perform, polled]
  rfl

/-- What is answered to a poll is what the poll has told. -/
theorem exists_poll_of_perform {answer : Answer ε}
    (performed : link.perform now .poll = .ok (answer, after)) :
    ∃ result, answer = .polled result ∧ link.poll now = .ok (result, after) := by
  cases polled : link.poll (ε := ε) now with
  | error halt =>
    simp only [perform, polled] at performed
    cases performed
  | ok told =>
    simp only [perform, polled] at performed
    cases performed
    exact ⟨_, rfl, rfl⟩

omit [RandomSource γ] in
theorem one_le_pollRounds (link : Link ρ γ) : 1 ≤ link.pollRounds := by
  cases link with
  | passThrough | timeSlot => exact Nat.le_refl 1
  | carrierSense | acknowledged => exact Nat.le_add_left 1 _

/-- A poll halts with its first step. -/
theorem poll_of_halt {halt : Halt} (halted : link.step (ε := ε) now = .error halt) :
    link.poll (ε := ε) now = .error halt := by
  obtain ⟨rounds, more⟩ := Nat.exists_eq_add_of_le' link.one_le_pollRounds
  rw [poll_eq, more, settle, halted]

/-- A poll comes to rest with its first step. -/
theorem poll_of_rest {rested : Link ρ γ}
    (rests : link.step (ε := ε) now = .ok (.ok false, rested)) :
    link.poll (ε := ε) now = .ok (.ok rested.station.takeOutcome.1,
      rested.setStation rested.station.takeOutcome.2) := by
  obtain ⟨rounds, more⟩ := Nat.exists_eq_add_of_le' link.one_le_pollRounds
  rw [poll_eq, more, settle, rests]

theorem settle_of_poll {result : Except (LinkError ε) (Option Outcome)}
    (polled : link.poll now = .ok (result, after)) :
    ∃ r rested, settle (step now) link.pollRounds link = .ok (r, rested) ∧
      rested.Ends r result after := by
  rw [poll_eq] at polled
  split at polled <;> rename_i settled
  · cases polled
  · cases polled
    exact ⟨_, _, settled, .failed _⟩
  · cases polled
    exact ⟨_, _, settled, .fetched⟩

/-- What every step keeps holds when a poll has settled. -/
theorem exists_rested_of_poll (inv : Link ρ γ → Prop)
    {result : Except (LinkError ε) (Option Outcome)}
    (keep : ∀ link r after, inv link → link.step (ε := ε) now = .ok (r, after) → inv after)
    (start : inv link) (polled : link.poll now = .ok (result, after)) :
    ∃ r rested, inv rested ∧ rested.Ends r result after := by
  obtain ⟨r, rested, settled, ends⟩ := settle_of_poll polled
  exact ⟨r, rested, settle_invariant keep start settled, ends⟩

end Link

end MoteLink
