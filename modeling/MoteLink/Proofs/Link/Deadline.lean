import MoteLink.Proofs.Link.Waiting
import MoteLink.Proofs.Tick

/-!
# The next deadline of a link

A link that holds a packet has a next deadline. A poll that comes to rest has done all that was to
be done, so the deadline that it leaves lies ahead; where sensing fails the deadline may have
passed.
-/

namespace MoteLink

namespace Link

variable {ρ γ ε : Type} {now : Tick}

theorem Outbox.isEmpty_of_flying {o : Outbox} {p : Packet} (one : o.flying = [p]) :
    o.isEmpty = false := by
  have all := o.perm_flying_append_queued.length_eq
  rw [one, List.length_append, List.length_singleton, ← o.held_eq_length_packets] at all
  rw [Outbox.isEmpty, beq_eq_false_iff_ne]
  omega

/-- With nothing in flight a packet is held just where one is queued. -/
theorem Outbox.isEmpty_of_grounded {o : Outbox} (grounded : o.flying = []) (now : Tick) :
    o.isEmpty = (o.nextSendAt now).isNone := by
  have all := o.perm_flying_append_queued.length_eq
  rw [grounded, List.nil_append, ← o.held_eq_length_packets] at all
  rw [Bool.eq_iff_iff, Outbox.isEmpty, beq_iff_eq, ← all, List.length_eq_zero_iff,
    Option.isNone_iff_eq_none, Outbox.nextSendAt, firstMin?_eq_none, List.map_eq_nil_iff]

/-- If no queued packet is due, the next send time lies ahead. -/
theorem Outbox.isAfter_of_nextSendAt {o : Outbox} {deadline : Tick} (grounded : o.flying = [])
    (early : o.startNext now = none) (next : o.nextSendAt now = some deadline) :
    Tick.isAfter deadline now = true := by
  obtain ⟨p, queued, rfl⟩ := List.mem_map.mp (firstMin?_isMin next).1
  rcases Outbox.startNext_eq_none_iff.mp early with flying | waits
  · exact absurd grounded flying
  · simpa [Tick.hasReached] using waits p queued

/-! ## After sensing -/

section Sensing

variable [RandomSource γ] {s s' : Station ρ γ} {busy busy' : UInt8} {expiry expiry' : Tick}

theorem Station.le_of_drawBackoff {backoff : UInt32}
    (drawn : s.drawBackoff = .ok (backoff, s')) : backoff ≤ s.config.maxInitialBackoff := by
  unfold drawBackoff at drawn
  by_cases none_wanted : s.config.maxInitialBackoff = 0
  · simp only [none_wanted, ↓reduceIte, Except.ok.injEq, Prod.mk.injEq] at drawn
    rw [← drawn.1]
    exact UInt32.zero_le
  by_cases too_long : s.config.maxInitialBackoff = Tick.longest
  · rw [if_neg none_wanted, if_pos too_long] at drawn
    cases drawn
  · rw [if_neg none_wanted, if_neg too_long] at drawn
    cases drawn
    have room : (s.config.maxInitialBackoff + 1).toNat = s.config.maxInitialBackoff.toNat + 1 := by
      have below : s.config.maxInitialBackoff.toNat ≠ Tick.longest.toNat :=
        fun same => too_long (UInt32.toNat_inj.mp same)
      have bound := s.config.maxInitialBackoff.toNat_lt
      have longest : Tick.longest.toNat = 4294967295 := rfl
      simp only [UInt32.toNat_add, UInt32.reduceToNat]
      omega
    have less := Nat.mod_lt (RandomSource.next s.rng).1.toNat
      (Nat.succ_pos s.config.maxInitialBackoff.toNat)
    rw [UInt32.le_iff_toNat_le, UInt32.toNat_mod, room]
    exact Nat.le_of_lt_succ less

theorem Station.isAfter_of_backOffAgain
    (again : s.backOffAgain busy now = .ok (.pending expiry busy', s'))
    (short : s.config.maxInitialBackoff ≤ 0x80000000) : Tick.isAfter expiry now = true := by
  unfold backOffAgain at again
  split at again <;> rename_i drawn
  · cases again
  · split at again
    · cases again
    · cases again
      split
      · exact Tick.isAfter_wait now (by decide) (by decide)
      · rename_i some
        exact Tick.isAfter_wait now some (UInt32.le_trans (le_of_drawBackoff drawn) short)

/-- A sender that goes on waiting has a wait ahead. -/
theorem Station.Sensed.isAfter [Transceiver ρ ε]
    (sensed : s.Sensed (ε := ε) expiry busy now (.ok (.pending expiry' busy')) s')
    (short : s.config.maxInitialBackoff ≤ 0x80000000) : Tick.isAfter expiry' now = true := by
  cases sensed with
  | early before => simpa [Tick.hasReached] using before
  | again passed heard left drawn =>
    rw [← (sameBooks_of_channelClear heard).config] at short
    exact isAfter_of_backOffAgain drawn short

end Sensing

/-! ## Links -/

variable {link link' : Link ρ γ}

/-- A link is busy just where it has a next deadline. -/
theorem Served.isBusy_eq (served : link.Served) (now : Tick) :
    link.isBusy = (link.nextDeadline now).isSome := by
  cases link with
  | passThrough m => rfl
  | timeSlot m => simp [isBusy, TimeSlot.isBusy, Link.nextDeadline, TimeSlot.nextDeadline]
  | carrierSense m =>
    change (!m.outbox.isEmpty) = (m.nextDeadline now).isSome
    unfold CarrierSense.nextDeadline
    cases phase : m.phase with
    | idle =>
      rw [Outbox.isEmpty_of_grounded (served.flying_of_idle phase) now]
      simp
    | backoff expiry busy =>
      obtain ⟨-, i, p, -, one⟩ := CarrierSense.Served.flying_of_backoff served phase
      rw [Outbox.isEmpty_of_flying one]
      rfl
  | acknowledged m =>
    change (!m.outbox.isEmpty) = (m.nextDeadline now).isSome
    unfold Acknowledged.nextDeadline
    by_cases quiet : m.phase = .idle
    · rw [Outbox.isEmpty_of_grounded (served.flying_of_idle quiet) now, quiet]
      simp
    · obtain ⟨i, p, -, one⟩ := Acknowledged.Served.inFlight?_of_phase served quiet
      rw [Outbox.isEmpty_of_flying one]
      cases phase : m.phase with
      | idle => exact absurd phase quiet
      | backoff expiry busy => rfl
      | awaitingAck expiry => rfl
      | retryWait expiry => rfl

/-- No wait of the link, counted from `now`, takes half a turn of the clock. -/
def ShortWaits (now : Tick) : Link ρ γ → Prop
  | .passThrough _ => True
  | .carrierSense m => m.station.config.maxInitialBackoff ≤ 0x80000000
  | .acknowledged m => m.station.config.maxInitialBackoff ≤ 0x80000000
  | .timeSlot m => ∀ deadline, m.nextDeadline now = some deadline → deadline - now < 0x80000000

theorem nextDeadline_setStation {s : Station ρ γ} (link : Link ρ γ)
    (same : s.config = link.station.config) (now : Tick) :
    (link.setStation s).nextDeadline now = link.nextDeadline now := by
  cases link with
  | timeSlot m =>
    show TimeSlot.nextDeadline { m with station := s } now = m.nextDeadline now
    simp only [TimeSlot.nextDeadline, show s.config = m.station.config from same]
  | passThrough | carrierSense | acknowledged => rfl

theorem shortWaits_setStation {s : Station ρ γ} (same : s.config = link.station.config) :
    (link.setStation s).ShortWaits now ↔ link.ShortWaits now := by
  cases link with
  | passThrough m => exact Iff.rfl
  | carrierSense m | acknowledged m =>
    show s.config.maxInitialBackoff ≤ _ ↔ _
    rw [same]
    rfl
  | timeSlot m =>
    show (∀ deadline, ((Link.timeSlot m).setStation s).nextDeadline now = some deadline → _) ↔ _
    rw [nextDeadline_setStation _ same]
    rfl

/-! ## After a poll -/

variable [Transceiver ρ ε] [RandomSource γ] {deadline : Tick}

theorem CarrierSense.Transition.isAfter {m m' : CarrierSense ρ γ} (served : m'.Served)
    (rests : Transition (ε := ε) now m (.ok false) m')
    (short : m.station.config.maxInitialBackoff ≤ 0x80000000)
    (next : m'.nextDeadline now = some deadline) : Tick.isAfter deadline now = true := by
  cases rests with
  | rest quiet early =>
    simp only [nextDeadline, quiet] at next
    exact Outbox.isAfter_of_nextSendAt (served.flying_of_idle quiet) early next
  | hold phase sensed =>
    cases next
    exact sensed.isAfter short

theorem Acknowledged.Transition.isAfter {m m' : Acknowledged ρ γ} (served : m'.Served)
    (rests : Transition (ε := ε) now m (.ok false) m')
    (short : m.station.config.maxInitialBackoff ≤ 0x80000000)
    (next : m'.nextDeadline now = some deadline) : Tick.isAfter deadline now = true := by
  cases rests with
  | rest quiet early =>
    simp only [nextDeadline, quiet] at next
    exact Outbox.isAfter_of_nextSendAt (served.flying_of_idle quiet) early next
  | hold phase sensed =>
    cases next
    exact sensed.isAfter short
  | await phase early =>
    simp only [nextDeadline, phase] at next
    cases next
    simpa [Tick.hasReached] using early
  | pause phase early =>
    simp only [nextDeadline, phase] at next
    cases next
    simpa [Tick.hasReached] using early

/-- A step that reports no progress leaves no deadline that has passed. -/
theorem isAfter_of_rest (served : link.Served)
    (rests : link.step (ε := ε) now = .ok (.ok false, link')) (short : link'.ShortWaits now)
    (next : link'.nextDeadline now = some deadline) :
    Tick.isAfter deadline now = true ∨ Tick.isAfter now deadline = false := by
  have kept := Step.served ⟨_, rests⟩ served
  cases stepped_of_step rests with
  | passThrough m => cases next
  | carrierSense stepped =>
    have transition := CarrierSense.transition_of_step served stepped
    refine .inl (transition.isAfter kept ?_ next)
    rw [← transition.settings_eq.1]
    exact short
  | acknowledged stepped =>
    have transition := Acknowledged.transition_of_step served stepped
    refine .inl (transition.isAfter kept ?_ next)
    rw [← transition.settings_eq.1]
    exact short
  | timeSlot m =>
    right
    rw [Tick.isAfter, decide_eq_false_iff_not, UInt32.not_le]
    exact short deadline next

/-- A poll that does not fail leaves no deadline that has passed, if no wait takes too long. -/
theorem isAfter_of_poll {outcome : Option Outcome} (served : link.Served)
    (polled : link.poll (ε := ε) now = .ok (.ok outcome, link'))
    (short : link'.ShortWaits now) (next : link'.nextDeadline now = some deadline) :
    Tick.isAfter deadline now = true ∨ Tick.isAfter now deadline = false := by
  obtain ⟨r, rested, settled, ends⟩ := settle_of_poll polled
  cases ends
  obtain ⟨last, kept, rests⟩ :=
    settle_eq_ok (fun _ _ _ kept taken => Step.served ⟨_, taken⟩ kept) served settled
  have same : rested.station.takeOutcome.2.config = rested.station.config := rfl
  rw [nextDeadline_setStation rested same] at next
  exact isAfter_of_rest kept rests ((shortWaits_setStation same).mp short) next

end Link

end MoteLink
