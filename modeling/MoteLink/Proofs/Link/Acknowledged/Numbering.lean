import Mathlib.Data.List.Pairwise
import MoteLink.Proofs.Link.Acknowledged.Orderly

/-!
# Sequence numbers

A packet that is accepted by a plain `send` takes the next sequence number. Zero is passed over, so
that after 255 numbers the first one comes up again; until then no number is given out twice.
-/

namespace MoteLink.Link

variable {ρ γ ε : Type}

/-! ## Giving out a number -/

namespace Station

variable {s s' : Station ρ γ} {d : Descriptor} {payload : Bytes}

theorem toNat_nextSeq (below : s.seq.toNat < 255) : s.nextSeq.1.toNat = s.seq.toNat + 1 := by
  have next : (s.seq + 1).toNat = s.seq.toNat + 1 := by
    rw [UInt8.toNat_add, UInt8.toNat_one]
    omega
  have used : s.seq + 1 ≠ 0 := by
    intro wrapped
    rw [wrapped] at next
    cases next
  simp only [nextSeq, used, ↓reduceIte]
  exact next

/-- The answer to a submission without a number tells that one has been used up: the packet has not
    been turned away for its addresses. -/
def usesNumber {α : Type} : Except (LinkError ε) α → Bool
  | .error .invalidAddress => false
  | _ => true

/-- A packet without a number that is found fit has got the next one. One that is not has used it
    up, unless its addresses are at fault. -/
theorem seq_of_prepare {prepared : Except (LinkError ε) Packet} (plain : d.seq = 0)
    (checked : s.prepare d payload = (prepared, s')) :
    (s'.seq = if usesNumber prepared then s.nextSeq.1 else s.seq) ∧
      ∀ p, prepared = .ok p → p.descriptor.seq = s'.seq := by
  have counts : (s.counted d).seq = s.nextSeq.1 := if_pos plain
  cases checked_of_prepare checked with
  | foreign shunned => exact ⟨rfl, fun _ => nofun⟩
  | formless welcome wrong => exact ⟨counts, fun _ => nofun⟩
  | oversized welcome length long => exact ⟨counts, fun _ => nofun⟩
  | fit welcome length short =>
    refine ⟨counts, ?_⟩
    rintro p ⟨⟩
    rw [counts]
    exact if_pos plain

/-- What a plain submission does to the counter. -/
theorem Submitted.seq {o o' : Outbox} {result : Except (LinkError ε) UInt8}
    (submitted : s.Submitted o d payload result s' o') (plain : d.seq = 0) :
    (s'.seq = if usesNumber result then s.nextSeq.1 else s.seq) ∧
      ∀ seq, result = .ok seq → seq = s'.seq := by
  cases submitted with
  | @unfit e _ prepared =>
    have counted := (seq_of_prepare plain prepared).1
    have same : usesNumber (α := UInt8) (.error e) = usesNumber (α := Packet) (.error e) := by
      cases e <;> rfl
    exact ⟨same ▸ counted, fun _ => nofun⟩
  | full prepared refused => exact ⟨(seq_of_prepare plain prepared).1, fun _ => nofun⟩
  | accepted prepared placed =>
    obtain ⟨counted, carries⟩ := seq_of_prepare plain prepared
    refine ⟨counted, ?_⟩
    rintro seq ⟨⟩
    exact carries _ rfl

end Station

namespace Acknowledged

/-! ## Only submissions give one out -/

section Keeping

variable [Transceiver ρ ε] {m m' : Acknowledged ρ γ} {now : Tick}

omit [Transceiver ρ ε] in
theorem Acknowledgement.seq_eq {ack : Descriptor} (noted : Acknowledgement m ack m') :
    m'.station.seq = m.station.seq := by
  cases noted <;> rfl

theorem Reception.seq_eq {frame : Bytes} {delivery : Option Delivery}
    (received : Reception m frame delivery m') (served : m.Served) :
    m'.station.seq = m.station.seq := by
  cases received with
  | ignored unheard => rfl
  | @acknowledgement d heard isAck =>
    have learned := served_learn served d.descriptor.prevHop
    have kept := (acknowledgement_of_handleAck learned d.descriptor).seq_eq
    rwa [station_learn] at kept
  | @answered d heard isData asks here =>
    exact (m.station.sameBooks_sendAck (ε := ε) d.descriptor).seq
  | delivered heard isData silent => rw [station_learn]

variable [RandomSource γ]

theorem seq_of_poll {result : Except (LinkError ε) (Option Outcome)} (served : m.Served)
    (polled : m.poll now = .ok (result, m')) : m'.station.seq = m.station.seq := by
  let inv (s : Acknowledged ρ γ) : Prop := s.Served ∧ s.station.seq = m.station.seq
  have keep (s : Acknowledged ρ γ) (r : Except (LinkError ε) Bool) (s' : Acknowledged ρ γ)
      (kept : inv s) (taken : step now s = .ok (r, s')) : inv s' := by
    have transition := transition_of_step kept.1 taken
    exact ⟨transition.served kept.1, transition.settings_eq.2.trans kept.2⟩
  obtain ⟨e, settled, -⟩ | ⟨rested, settled, -, rfl⟩ := settle_of_poll polled
  · exact (settle_invariant keep ⟨served, rfl⟩ settled).2
  · have kept : inv rested := settle_invariant keep ⟨served, rfl⟩ settled
    exact kept.2

end Keeping

/-! ## No number is given out twice -/

/-- The numbers given out so far: none twice, none above the last one, and no more of them than
    packets submitted. -/
structure Numbered (history : List (Event ρ ε)) (last : UInt8) : Prop where
  few : last.toNat ≤ history.countP fun event => event.call.submits
  given : ∀ event ∈ history, ∀ seq, event.answer = .submitted (.ok seq) → seq.toNat ≤ last.toNat
  distinct : history.Pairwise fun event other => ∀ seq seq', event.answer = .submitted (.ok seq) →
    other.answer = .submitted (.ok seq') → seq ≠ seq'

variable {history : List (Event ρ ε)} {event : Event ρ ε} {last next : UInt8}

/-- A call that gives out no number. -/
theorem Numbered.silent (numbered : Numbered history last)
    (counted : next.toNat = last.toNat ∨ next.toNat = last.toNat + 1 ∧ event.call.submits = true)
    (silent : ∀ seq, event.answer ≠ .submitted (.ok seq)) :
    Numbered (history ++ [event]) next := by
  have few := numbered.few
  refine ⟨?_, ?_, ?_⟩
  · rw [List.countP_append, List.countP_singleton]
    rcases counted with same | ⟨more, submits⟩
    · omega
    · rw [if_pos submits]
      omega
  · intro event' member seq told
    rcases List.mem_append.mp member with earlier | here
    · have below := numbered.given event' earlier seq told
      omega
    · rw [List.mem_singleton.mp here] at told
      exact absurd told (silent seq)
  · rw [List.pairwise_append]
    refine ⟨numbered.distinct, List.pairwise_singleton _ _, ?_⟩
    intro event' _ other here seq seq' _ told
    rw [List.mem_singleton.mp here] at told
    exact absurd told (silent seq')

/-- A call that gives out the next number. -/
theorem Numbered.give (numbered : Numbered history last) (counted : next.toNat = last.toNat + 1)
    (submits : event.call.submits = true) (told : event.answer = .submitted (.ok next)) :
    Numbered (history ++ [event]) next := by
  have few := numbered.few
  refine ⟨?_, ?_, ?_⟩
  · rw [List.countP_append, List.countP_singleton, if_pos submits]
    omega
  · intro event' member seq told'
    rcases List.mem_append.mp member with earlier | here
    · have below := numbered.given event' earlier seq told'
      omega
    · rw [List.mem_singleton.mp here, told] at told'
      cases told'
      exact Nat.le_refl _
  · rw [List.pairwise_append]
    refine ⟨numbered.distinct, List.pairwise_singleton _ _, ?_⟩
    intro event' earlier other here seq seq' first second same
    rw [List.mem_singleton.mp here, told] at second
    cases second
    have below := numbered.given event' earlier seq first
    rw [same] at below
    omega

/-- Two calls that have been told the same number are one call. -/
theorem Numbered.eq_of_seq (numbered : Numbered history last) {other : Event ρ ε} {seq : UInt8}
    (first : event ∈ history) (second : other ∈ history)
    (told : event.answer = .submitted (.ok seq)) (told' : other.answer = .submitted (.ok seq)) :
    event = other := by
  have symmetric : Std.Symm fun event other : Event ρ ε => ∀ seq seq',
      event.answer = .submitted (.ok seq) → other.answer = .submitted (.ok seq') → seq ≠ seq' :=
    ⟨fun _ _ differs seq seq' told told' same => differs seq' seq told' told same.symm⟩
  by_contra differ
  exact numbered.distinct.forall first second differ seq seq told told' rfl

variable [Transceiver ρ ε] [RandomSource γ]

/-- One more call, while a number is left. -/
theorem Numbered.call {m m' : Acknowledged ρ γ} (numbered : Numbered history m.station.seq)
    (served : m.Served) (plain : ∀ d payload, event.call ≠ .submit d payload)
    (left : event.call.submits = true → m.station.seq.toNat < 255)
    (performs : Performs m event.now event.call event.answer m') :
    Numbered (history ++ [event]) m'.station.seq := by
  obtain ⟨now, radio, call, answer⟩ := event
  dsimp only at plain left performs
  cases performs with
  | @submit call d payload submits =>
    have submitting := submits_of_submission? submits
    have unnumbered : d.seq = 0 := by
      cases call with
      | send dst payload =>
        cases submits
        rfl
      | submit d payload => exact absurd rfl (plain d payload)
      | receive frame => cases submits
      | poll => cases submits
      | cancel seq => cases submits
    obtain ⟨submitted, -⟩ := m.submitted_submit (ε := ε) d payload
    obtain ⟨counted, told⟩ := submitted.seq unnumbered
    by_cases used : Station.usesNumber (m.submit (ε := ε) d payload).1 = true
    · rw [if_pos used] at counted
      have grown := (congrArg UInt8.toNat counted).trans (Station.toNat_nextSeq (left submitting))
      cases result : (m.submit (ε := ε) d payload).1 with
      | error e => exact numbered.silent (.inr ⟨grown, submitting⟩) fun _ => nofun
      | ok seq =>
        rw [told seq result]
        exact numbered.give grown submitting rfl
    · rw [if_neg used] at counted
      refine numbered.silent (.inl (congrArg UInt8.toNat counted)) fun seq answered => ?_
      rw [Answer.submitted.inj answered] at used
      exact used rfl
  | receive received =>
    exact numbered.silent (.inl (congrArg UInt8.toNat (received.seq_eq served))) fun _ => nofun
  | poll polled =>
    exact numbered.silent (.inl (congrArg UInt8.toNat (seq_of_poll served polled))) fun _ => nofun
  | cancel seq =>
    rw [(served_cancel served seq).2]
    exact numbered.silent (.inl rfl) fun _ => nofun

/-- As long as packets are submitted by `send` only, and at most 255 of them, no sequence number is
    given out twice. -/
theorem numbered_of_run {capacity : Nat} {config : Config} {radio : ρ} {rng : γ} {link : Link ρ γ}
    (run : Run (.new .acknowledged capacity config radio rng) history link)
    (plain : ∀ event ∈ history, ∀ d payload, event.call ≠ .submit d payload)
    (few : (history.countP fun event => event.call.submits) ≤ 255) :
    Numbered history link.station.seq := by
  induction run with
  | start => exact ⟨Nat.le_refl 0, List.forall_mem_nil _, .nil⟩
  | @call history link after event run performed ih =>
    rw [List.countP_append, List.countP_singleton] at few
    have numbered := ih (fun event member => plain event (List.mem_append_left _ member)) (by omega)
    obtain ⟨m, rfl, served⟩ := servedBy_of_run run
    let tuned : Acknowledged ρ γ := { m with station.radio := event.radio }
    have there : tuned.Served := served.toServed.withStation rfl
    have before : Numbered history tuned.station.seq := numbered
    obtain ⟨m', rfl, performs⟩ := performs_of_perform performed
    have last := plain event (List.mem_append_right _ (List.mem_singleton_self _))
    refine before.call there last (fun submits => ?_) performs
    rw [if_pos submits] at few
    have used := before.few
    omega

end Acknowledged

end MoteLink.Link
