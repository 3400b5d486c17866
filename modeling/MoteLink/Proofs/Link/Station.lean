import MoteLink.Link.Sensing
import MoteLink.Proofs.Link.Outbox

/-!
# What the station's operations leave alone

Talking to the radio and drawing a backoff change the radio and the random source and nothing
else. Sensing the channel has few results, and it halts only where a bound on its counters is
missing.
-/

namespace MoteLink.Link

namespace Station

variable {ρ γ ε : Type}

/-- Only the radio and the random source may differ. -/
structure SameBooks (s s' : Station ρ γ) : Prop where
  config : s'.config = s.config
  seq : s'.seq = s.seq
  outcomes : s'.outcomes = s.outcomes

namespace SameBooks

variable {s s' s'' : Station ρ γ}

theorem refl (s : Station ρ γ) : SameBooks s s := ⟨rfl, rfl, rfl⟩

theorem trans (first : SameBooks s s') (second : SameBooks s' s'') : SameBooks s s'' :=
  ⟨second.config.trans first.config, second.seq.trans first.seq,
    second.outcomes.trans first.outcomes⟩

end SameBooks

theorem sameBooks_onRadio {α : Type} (s : Station ρ γ) (request : ρ → Except ε α × ρ) :
    SameBooks s (s.onRadio request).2 := ⟨rfl, rfl, rfl⟩

theorem sameBooks_transmit [Transceiver ρ ε] (s : Station ρ γ) (d : Descriptor)
    (payload : Bytes) : SameBooks s (s.transmit d payload).2 := by
  unfold transmit
  split
  · exact .refl s
  · rename_i header _
    exact s.sameBooks_onRadio fun r => Transceiver.send r header payload

theorem sameBooks_of_transmit [Transceiver ρ ε] {s s' : Station ρ γ} {d : Descriptor}
    {payload : Bytes} {result : Except (LinkError ε) Nat}
    (sent : s.transmit d payload = (result, s')) : SameBooks s s' := by
  have same := s.sameBooks_transmit (ε := ε) d payload
  rwa [sent] at same

theorem sameBooks_sendAck [Transceiver ρ ε] (s : Station ρ γ) (d : Descriptor) :
    SameBooks s (s.sendAck d).2 :=
  s.sameBooks_transmit _ _

@[simp] theorem outcomes_emit (s : Station ρ γ) (outcome : Outcome) :
    (s.emit outcome).outcomes = s.outcomes.push outcome := rfl

/-! ## Checking a packet -/

section Checking

variable (s : Station ρ γ) (d : Descriptor) (payload : Bytes)

/-- The descriptor with a sequence number, which is the next one where it had none. -/
def numbered : Descriptor :=
  { d with seq := if d.seq = 0 then s.nextSeq.1 else d.seq }

/-- The station after it has given out that number. -/
def counted : Station ρ γ :=
  { s with seq := if d.seq = 0 then s.nextSeq.1 else s.seq }

/-- The descriptor has a long address and the station takes none. -/
def Shuns : Prop :=
  s.config.longAddresses = false ∧ ∃ a ∈ d.addresses, a.isLong = true

/-- Everything that checking a packet can come to. -/
inductive Checked : Except (LinkError ε) Packet → Station ρ γ → Prop
  | foreign (shunned : s.Shuns d) : Checked (.error .invalidAddress) s
  | formless {e : HeaderError} (welcome : ¬s.Shuns d)
      (wrong : (s.numbered d).encodedLength = .error e) :
      Checked (.error (.header e)) (s.counted d)
  | oversized {n : Nat} (welcome : ¬s.Shuns d) (length : (s.numbered d).encodedLength = .ok n)
      (long : s.frameLimit < n + payload.length) : Checked (.error .payloadTooLong) (s.counted d)
  | fit {n : Nat} (welcome : ¬s.Shuns d) (length : (s.numbered d).encodedLength = .ok n)
      (short : n + payload.length ≤ s.frameLimit) :
      Checked (.ok { descriptor := { s.numbered d with headerLength := n }, payload })
        (s.counted d)

theorem seq_numbered_ne_zero : (s.numbered d).seq ≠ 0 := by
  by_cases unnumbered : d.seq = 0
  · simpa [numbered, unnumbered] using s.nextSeq_ne_zero
  · simp [numbered, unnumbered]

theorem shuns_iff :
    (!s.config.longAddresses && d.addresses.any Address.isLong) = true ↔ s.Shuns d := by
  rw [Bool.and_eq_true, Bool.not_eq_true', List.any_eq_true, Shuns]

theorem prepare_eq :
    s.prepare (ε := ε) d payload =
      if !s.config.longAddresses && d.addresses.any Address.isLong then (.error .invalidAddress, s)
      else
        match (s.numbered d).encodedLength with
        | .error e => (.error (.header e), s.counted d)
        | .ok n =>
          if s.frameLimit < n + payload.length then (.error .payloadTooLong, s.counted d)
          else (.ok { descriptor := { s.numbered d with headerLength := n }, payload },
            s.counted d) := by
  have numbers : (if d.seq = 0 then s.nextSeq else (d.seq, s)) =
      ((s.numbered d).seq, s.counted d) := by
    by_cases unnumbered : d.seq = 0 <;> simp [numbered, counted, nextSeq, unnumbered]
  unfold prepare
  rw [numbers]
  rfl

end Checking

section Preparing

variable {s s' : Station ρ γ} {d : Descriptor} {payload : Bytes}

theorem checked_of_prepare {result : Except (LinkError ε) Packet}
    (prepared : s.prepare d payload = (result, s')) : s.Checked d payload result s' := by
  rw [prepare_eq] at prepared
  split at prepared <;> rename_i shunned
  · cases prepared
    exact .foreign ((s.shuns_iff d).mp shunned)
  · have welcome := mt (s.shuns_iff d).mpr shunned
    split at prepared <;> rename_i length
    · cases prepared
      exact .formless welcome length
    · split at prepared <;> rename_i long
      · cases prepared
        exact .oversized welcome length long
      · cases prepared
        exact .fit welcome length (Nat.not_lt.mp long)

/-- Checking a packet uses up a sequence number at most. -/
theorem station_prepare (s : Station ρ γ) (d : Descriptor) (payload : Bytes) :
    ∃ seq, (s.prepare (ε := ε) d payload).2 = { s with seq } := by
  cases prepared : s.prepare (ε := ε) d payload with
  | mk result s' =>
    cases checked_of_prepare prepared with
    | foreign shunned => exact ⟨s.seq, rfl⟩
    | formless welcome wrong => exact ⟨_, rfl⟩
    | oversized welcome length long => exact ⟨_, rfl⟩
    | fit welcome length short => exact ⟨_, rfl⟩

/-- A packet that passes the check keeps its payload and its descriptor, but for the sequence number
    that it may get and the length of its header. -/
theorem prepare_eq_ok {p : Packet} (prepared : s.prepare (ε := ε) d payload = (.ok p, s')) :
    ∃ seq headerLength, p = { descriptor := { d with seq, headerLength }, payload } ∧
      ({ d with seq } : Descriptor).encodedLength = .ok headerLength ∧
      headerLength + payload.length ≤ s.frameLimit := by
  cases checked_of_prepare prepared with
  | fit welcome length short => exact ⟨_, _, rfl, length, short⟩

/-- Everything that submitting a packet can do to a station and its outbox. -/
inductive Submitted (s : Station ρ γ) (o : Outbox) (d : Descriptor) (payload : Bytes) :
    Except (LinkError ε) UInt8 → Station ρ γ → Outbox → Prop
  | unfit {e : LinkError ε} {s' : Station ρ γ} (prepared : s.prepare d payload = (.error e, s')) :
      Submitted s o d payload (.error e) s' o
  | full {p q : Packet} {s' : Station ρ γ}
      (prepared : s.prepare (ε := ε) d payload = (.ok p, s')) (refused : o.accept p = .error q) :
      Submitted s o d payload (.error .queueFull) s' o
  | accepted {p : Packet} {s' : Station ρ γ} {i : Nat} {o' : Outbox}
      (prepared : s.prepare (ε := ε) d payload = (.ok p, s')) (placed : o.accept p = .ok (i, o')) :
      Submitted s o d payload (.ok p.descriptor.seq) s' o'

variable {o o' : Outbox} {result : Except (LinkError ε) UInt8}

theorem sameBooks_of_prepare {prepared : Except (LinkError ε) Packet}
    (checked : s.prepare d payload = (prepared, s')) :
    s'.config = s.config ∧ s'.outcomes = s.outcomes := by
  obtain ⟨seq, counted⟩ := s.station_prepare (ε := ε) d payload
  rw [checked] at counted
  rw [show s' = { s with seq } from counted]
  exact ⟨rfl, rfl⟩

theorem Submitted.books (submitted : Submitted s o d payload result s' o') :
    s'.config = s.config ∧ s'.outcomes = s.outcomes := by
  cases submitted with
  | unfit prepared => exact sameBooks_of_prepare prepared
  | full prepared refused => exact sameBooks_of_prepare prepared
  | accepted prepared placed => exact sameBooks_of_prepare prepared

/-- A submission changes nothing in flight, and what it adds to the queue has not been tried. -/
theorem Submitted.outbox (submitted : Submitted s o d payload result s' o') :
    o'.flying = o.flying ∧ ∀ q ∈ o'.queued, q ∈ o.queued ∨ q.attempts = 0 := by
  cases submitted with
  | unfit prepared => exact ⟨rfl, fun q member => .inl member⟩
  | full prepared refused => exact ⟨rfl, fun q member => .inl member⟩
  | accepted prepared placed =>
    obtain ⟨_, _, rfl, -⟩ := prepare_eq_ok prepared
    obtain ⟨replaced, -⟩ := Outbox.accept_eq_ok placed
    have queued : (_ :: o.queued).Perm o'.queued := Outbox.queued_perm replaced
    refine ⟨replaced.filterMap_eq rfl, fun q member => ?_⟩
    rcases List.mem_cons.mp (queued.mem_iff.mpr member) with rfl | older
    · exact .inr rfl
    · exact .inl older

end Preparing

/-! ## Hearing -/

section Hearing

variable {s s' : Station ρ γ} (config : s.config = s'.config)
include config

theorem listen_congr : s.listen = s'.listen := by
  funext frame
  unfold listen hears
  rw [config]

theorem ackFor_congr : s.ackFor = s'.ackFor := by
  funext d
  unfold ackFor
  rw [config]

end Hearing

/-! ## Drawing a backoff -/

section Drawing

variable [RandomSource γ] {s s' : Station ρ γ} {busy : UInt8} {now : Tick}

theorem sameBooks_drawBackoff {backoff : UInt32} (drawn : s.drawBackoff = .ok (backoff, s')) :
    SameBooks s s' := by
  unfold drawBackoff at drawn
  by_cases none_wanted : s.config.maxInitialBackoff = 0
  · simp only [none_wanted, ↓reduceIte, Except.ok.injEq, Prod.mk.injEq] at drawn
    rw [← drawn.2]
    exact .refl s
  by_cases too_long : s.config.maxInitialBackoff = Tick.longest
  · simp only [too_long, ↓reduceIte] at drawn
    split at drawn <;> cases drawn
    exact .refl s
  · simp only [none_wanted, too_long, ↓reduceIte, Except.ok.injEq, Prod.mk.injEq] at drawn
    rw [← drawn.2]
    exact ⟨rfl, rfl, rfl⟩

theorem radio_of_drawBackoff {backoff : UInt32} (drawn : s.drawBackoff = .ok (backoff, s')) :
    s'.radio = s.radio := by
  unfold drawBackoff at drawn
  dsimp only at drawn
  split at drawn
  · cases drawn
    rfl
  · split at drawn
    · cases drawn
    · cases drawn
      rfl

/-- A backoff cannot be drawn only where its bound is the longest duration. -/
theorem drawBackoff_eq_error {halt : Halt} (halted : s.drawBackoff = .error halt) :
    halt = .overflow ∧ s.config.maxInitialBackoff = Tick.longest := by
  unfold drawBackoff at halted
  by_cases none_wanted : s.config.maxInitialBackoff = 0
  · simp [none_wanted] at halted
  by_cases too_long : s.config.maxInitialBackoff = Tick.longest
  · rw [if_neg none_wanted, if_pos too_long] at halted
    cases halted
    exact ⟨rfl, too_long⟩
  · rw [if_neg none_wanted, if_neg too_long] at halted
    cases halted

theorem sameBooks_firstBackoff {expiry : Tick} (drawn : s.firstBackoff now = .ok (expiry, s')) :
    SameBooks s s' := by
  unfold firstBackoff at drawn
  cases draw : s.drawBackoff with
  | error halt => simp [draw] at drawn
  | ok result =>
    simp only [draw, Except.ok.injEq, Prod.mk.injEq] at drawn
    rw [← drawn.2]
    exact sameBooks_drawBackoff draw

theorem radio_of_firstBackoff {expiry : Tick} (drawn : s.firstBackoff now = .ok (expiry, s')) :
    s'.radio = s.radio := by
  unfold firstBackoff at drawn
  split at drawn <;> rename_i draw
  · cases drawn
  · cases drawn
    exact radio_of_drawBackoff draw

theorem firstBackoff_of_longest (now : Tick) (longest : s.config.maxInitialBackoff = Tick.longest) :
    s.firstBackoff now = .error .overflow := by
  have some_wanted : Tick.longest ≠ 0 := by decide
  simp [firstBackoff, drawBackoff, longest, some_wanted]

theorem firstBackoff_eq_error {halt : Halt} (halted : s.firstBackoff now = .error halt) :
    halt = .overflow ∧ s.config.maxInitialBackoff = Tick.longest := by
  unfold firstBackoff at halted
  cases draw : s.drawBackoff with
  | error halt' =>
    simp only [draw, Except.error.injEq] at halted
    rw [← halted]
    exact drawBackoff_eq_error draw
  | ok result => simp [draw] at halted

theorem backOffAgain_eq_ok {access : Access} (again : s.backOffAgain busy now = .ok (access, s')) :
    SameBooks s s' ∧ busy ≠ 255 ∧ ∃ backoff : UInt32,
      access = .pending (now + if backoff = 0 then 1 else backoff) (busy + 1) := by
  unfold backOffAgain at again
  cases draw : s.drawBackoff with
  | error halt => simp [draw] at again
  | ok result =>
    by_cases full : busy = 255
    · simp [draw, full] at again
    · simp only [draw, full, ↓reduceIte, Except.ok.injEq, Prod.mk.injEq] at again
      refine ⟨?_, full, result.1, again.1.symm⟩
      rw [← again.2]
      exact sameBooks_drawBackoff draw

theorem radio_of_backOffAgain {access : Access}
    (again : s.backOffAgain busy now = .ok (access, s')) : s'.radio = s.radio := by
  unfold backOffAgain at again
  split at again <;> rename_i draw
  · cases again
  · split at again
    · cases again
    · cases again
      exact radio_of_drawBackoff draw

theorem backOffAgain_eq_error {halt : Halt} (halted : s.backOffAgain busy now = .error halt) :
    halt = .overflow ∧ (s.config.maxInitialBackoff = Tick.longest ∨ busy = 255) := by
  unfold backOffAgain at halted
  cases draw : s.drawBackoff with
  | error halt' =>
    simp only [draw, Except.error.injEq] at halted
    obtain ⟨rfl, unbounded⟩ := drawBackoff_eq_error draw
    exact ⟨halted.symm, .inl unbounded⟩
  | ok result =>
    by_cases full : busy = 255
    · simp only [draw, full, ↓reduceIte, Except.error.injEq] at halted
      exact ⟨halted.symm, .inr full⟩
    · simp [draw, full] at halted

end Drawing

/-! ## Sensing -/

/-- Everything that sensing the channel can do. -/
inductive Sensed [Transceiver ρ ε] [RandomSource γ] (s : Station ρ γ) (expiry : Tick)
    (busy : UInt8) (now : Tick) : Except (LinkError ε) Access → Station ρ γ → Prop
  | early (before : Tick.hasReached expiry now = false) :
      Sensed s expiry busy now (.ok (.pending expiry busy)) s
  | deaf {e : LinkError ε} {s' : Station ρ γ} (passed : Tick.hasReached expiry now = true)
      (heard : s.channelClear = (.error e, s')) : Sensed s expiry busy now (.error e) s'
  | clear {s' : Station ρ γ} (passed : Tick.hasReached expiry now = true)
      (heard : s.channelClear (ε := ε) = (.ok true, s')) : Sensed s expiry busy now (.ok .clear) s'
  | regardless {s' : Station ρ γ} (passed : Tick.hasReached expiry now = true)
      (heard : s.channelClear (ε := ε) = (.ok false, s'))
      (spent : s.config.maxBusyAssessments ≤ busy) : Sensed s expiry busy now (.ok .clear) s'
  | again {access : Access} {s' s'' : Station ρ γ} (passed : Tick.hasReached expiry now = true)
      (heard : s.channelClear (ε := ε) = (.ok false, s'))
      (left : busy < s.config.maxBusyAssessments)
      (drawn : s'.backOffAgain busy now = .ok (access, s'')) :
      Sensed s expiry busy now (.ok access) s''

section Sensing

variable [Transceiver ρ ε] {s s' : Station ρ γ} {expiry : Tick} {busy : UInt8} {now : Tick}

theorem sameBooks_of_channelClear {answer : Except (LinkError ε) Bool}
    (heard : s.channelClear = (answer, s')) : SameBooks s s' := by
  have same := s.sameBooks_onRadio (ε := ε) (Transceiver.channelClear)
  change SameBooks s s.channelClear.2 at same
  rwa [heard] at same

variable [RandomSource γ]

theorem sensed_of_assess {answer : Except (LinkError ε) Access}
    (assessed : s.assess expiry busy now = .ok (answer, s')) :
    Sensed s expiry busy now answer s' := by
  unfold assess at assessed
  by_cases passed : Tick.hasReached expiry now = true
  · simp only [passed, Bool.not_true, Bool.false_eq_true, ↓reduceIte] at assessed
    split at assessed <;> rename_i heard
    · cases assessed
      exact .deaf passed heard
    · cases assessed
      exact .clear passed heard
    · have same := sameBooks_of_channelClear heard
      split at assessed <;> rename_i budget
      · cases assessed
        exact .regardless passed heard (same.config ▸ budget)
      · split at assessed <;> rename_i again
        · cases assessed
        · cases assessed
          exact .again passed heard (UInt8.not_le.mp (same.config ▸ budget)) again
  · simp only [passed, Bool.not_false, ↓reduceIte, Except.ok.injEq, Prod.mk.injEq] at assessed
    obtain ⟨rfl, rfl⟩ := assessed
    exact .early (by simpa using passed)

/-- Only a missing bound on the backoff makes sensing halt: the count of busy assessments stops at
    its own bound before its word is full. -/
theorem assess_eq_error {halt : Halt}
    (halted : s.assess (ε := ε) expiry busy now = .error halt) :
    halt = .overflow ∧ s.config.maxInitialBackoff = Tick.longest := by
  unfold assess at halted
  split at halted
  · cases halted
  · split at halted <;> rename_i station heard
    · cases halted
    · cases halted
    · have same := sameBooks_of_channelClear heard
      split at halted <;> rename_i budget
      · cases halted
      · split at halted <;> rename_i again
        · cases halted
          obtain ⟨overflow, unbounded | full⟩ := backOffAgain_eq_error again
          · exact ⟨overflow, same.config ▸ unbounded⟩
          · have word := station.config.maxBusyAssessments.toNat_lt
            have top : (255 : UInt8).toNat = 255 := rfl
            rw [UInt8.not_le, UInt8.lt_iff_toNat_lt, full] at budget
            omega
        · cases halted

namespace Sensed

variable {answer : Except (LinkError ε) Access}

theorem sameBooks (sensed : Sensed s expiry busy now answer s') : SameBooks s s' := by
  cases sensed with
  | early => exact .refl s
  | deaf passed heard => exact sameBooks_of_channelClear heard
  | clear passed heard => exact sameBooks_of_channelClear heard
  | regardless passed heard => exact sameBooks_of_channelClear heard
  | again passed heard left drawn =>
    exact (sameBooks_of_channelClear heard).trans (backOffAgain_eq_ok drawn).1

/-- The count of busy assessments stays within its bound. -/
theorem busy_le {expiry' : Tick} {busy' : UInt8}
    (sensed : Sensed (ε := ε) s expiry busy now (.ok (.pending expiry' busy')) s')
    (within : busy ≤ s.config.maxBusyAssessments) : busy' ≤ s.config.maxBusyAssessments := by
  generalize result : Except.ok (Access.pending expiry' busy') = answer at sensed
  cases sensed with
  | early => cases result; exact within
  | deaf => cases result
  | clear => cases result
  | regardless => cases result
  | again passed heard left drawn =>
    cases result
    obtain ⟨-, room, backoff, next⟩ := backOffAgain_eq_ok drawn
    cases next
    have small := busy.toNat_lt
    have not_full : busy.toNat ≠ 255 := fun full => room (UInt8.toNat_inj.mp full)
    rw [UInt8.lt_iff_toNat_lt] at left
    rw [UInt8.le_iff_toNat_le, UInt8.toNat_add]
    simp only [UInt8.reduceToNat]
    omega

end Sensed

end Sensing

end Station

end MoteLink.Link
