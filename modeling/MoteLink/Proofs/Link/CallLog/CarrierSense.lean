import MoteLink.Proofs.Link.CallLog.Logged

/-!
# The log of a carrier-sensing link

Every step enters the start of a packet, or its one attempt with its outcome, or nothing. The
entries of a poll are those of its steps, one after the other.
-/

namespace MoteLink.Link

namespace CarrierSense

variable {ρ γ ε : Type} {m m' : CarrierSense (Recorder ρ) γ} {line : Line} {time : Nat}

def view (m : CarrierSense (Recorder ρ) γ) (line : Line) : View ρ γ := ⟨m.station, m.outbox, line⟩

variable [Transceiver ρ ε] {i : Nat} {p : Packet}

/-- The packet in flight is handed to the radio, and its outcome is told. -/
theorem Attempt.logged {reason : Option FailureReason}
    (attempted : Attempt (ε := ε) m i p reason m') (time : Nat) (holds : m.outbox.Holds line)
    (tidy : line.Tidy) (found : m.outbox.inFlight? = some (i, p)) :
    ∃ taken, Logged time (m.view line)
      [⟨some i, .handed p.untried taken⟩, ⟨some i, .ended p.untried reason⟩]
      (m'.view line.land) := by
  have flies := holds.flying_of_inFlight? found
  have sound : p.descriptor.layoutError? = none :=
    tidy.sound p (List.mem_append_left _ (Option.mem_toList.mpr flies))
  have same : line.refit p = line := by
    rw [Line.refit, ← flies]
  have holds' : m.outbox.Holds (line.refit p) := by
    rw [same]
    exact holds
  cases attempted with
  | @refused e station sent =>
    have handed := logged_hand time holds found sound sent rfl holds'
    exact ⟨false, handed.trans (logged_finish time holds' found (some .radio))⟩
  | @done length station sent =>
    have handed := logged_hand time holds found sound sent rfl holds'
    exact ⟨true, handed.trans (logged_finish time holds' found none)⟩

variable [RandomSource γ] {r : Except (LinkError ε) Bool}

theorem Transition.logged (taken : Transition (.ofNat time) m r m') (holds : m.outbox.Holds line)
    (tidy : line.Tidy) :
    ∃ entries line', Logged time (m.view line) entries (m'.view line') ∧
      ∀ entry ∈ entries, entry.isOwn = true := by
  cases taken with
  | rest quiet early =>
    exact ⟨[], line, logged_nothing time holds rfl rfl, List.forall_mem_nil _⟩
  | start quiet started drawn =>
    have record := Station.record_of_firstBackoff drawn
    have outcomes := (Station.sameBooks_firstBackoff drawn).outcomes
    obtain ⟨p, -, logged⟩ := logged_start holds started record outcomes
    exact ⟨_, _, logged, List.forall_mem_singleton.mpr rfl⟩
  | deaf phase sensed =>
    have logged := logged_nothing time holds sensed.record_eq sensed.sameBooks.outcomes
    exact ⟨[], line, logged, List.forall_mem_nil _⟩
  | hold phase sensed =>
    have logged := logged_nothing time holds sensed.record_eq sensed.sameBooks.outcomes
    exact ⟨[], line, logged, List.forall_mem_nil _⟩
  | @attempt expiry busy station i p reason m' phase sensed found attempted =>
    have heard := logged_nothing time holds sensed.record_eq sensed.sameBooks.outcomes
    obtain ⟨taken, tried⟩ := attempted.logged time holds tidy found
    refine ⟨_, _, heard.trans tried, ?_⟩
    exact List.forall_mem_cons.mpr ⟨rfl, List.forall_mem_singleton.mpr rfl⟩

theorem logged_settle {rounds : Nat} {r : Except (LinkError ε) Unit} (served : m.Served)
    (holds : m.outbox.Holds line) (tidy : line.Tidy)
    (settled : settle (step (.ofNat time)) rounds m = .ok (r, m')) :
    ∃ entries line', Logged time (m.view line) entries (m'.view line') ∧
      ∀ entry ∈ entries, entry.isOwn = true := by
  let inv (s : CarrierSense (Recorder ρ) γ) : Prop :=
    s.Served ∧ ∃ entries line', Logged time (m.view line) entries (s.view line') ∧
      ∀ entry ∈ entries, entry.isOwn = true
  have keep (s : CarrierSense (Recorder ρ) γ) (r : Except (LinkError ε) Bool)
      (s' : CarrierSense (Recorder ρ) γ) (sofar : inv s)
      (taken : step (.ofNat time) s = .ok (r, s')) : inv s' := by
    obtain ⟨served, entries, line', logged, own⟩ := sofar
    have transition := transition_of_step served taken
    obtain ⟨more, line'', logged', own'⟩ := transition.logged logged.holds (logged.tidy tidy)
    refine ⟨transition.served served, _, line'', logged.trans logged', ?_⟩
    exact List.forall_mem_append.mpr ⟨own, own'⟩
  have start : inv m :=
    ⟨served, [], line, logged_nothing time holds rfl rfl, List.forall_mem_nil _⟩
  exact (settle_invariant keep start settled).2

/-- All that a call does is entered. -/
theorem logged_of_performs {call : Call} {answer : Answer ε} (served : m.Served)
    (holds : m.outbox.Holds line) (tidy : line.Tidy)
    (performs : Performs m (.ofNat time) call answer m') :
    ∃ entries line', Written (.carrierSense m) call answer entries ∧
      LoggedCall time (m.view line) answer entries (m'.view line') := by
  have nothing := logged_nothing time (s := m.station) holds rfl rfl
  cases performs with
  | @submit call d payload submits =>
    have submitted := (m.submitted_submit (ε := ε) d payload).1
    obtain ⟨entries, line', written, logged, -⟩ := logged_submitted time holds submits submitted
    exact ⟨entries, line', written, logged.call nofun⟩
  | receive frame =>
    refine ⟨[], line, ?_, nothing.call nofun⟩
    unfold receive
    cases heard : m.station.listen frame with
    | none => exact .ignored heard
    | some d =>
      cases isAck : d.descriptor.flags.isAck with
      | true =>
        simp only [Option.filter, isAck, Bool.not_true, Bool.false_eq_true, ↓reduceIte]
        exact .unwanted heard isAck
      | false =>
        simp only [Option.filter, isAck, Bool.not_false, ↓reduceIte]
        exact .delivered heard isAck
  | poll polled =>
    obtain ⟨e, settled, rfl⟩ | ⟨rested, settled, rfl, rfl⟩ := settle_of_poll polled
    · obtain ⟨entries, line', logged, own⟩ := logged_settle served holds tidy settled
      exact ⟨entries, line', .polled own, logged.call nofun⟩
    · obtain ⟨entries, line', logged, own⟩ := logged_settle served holds tidy settled
      exact ⟨entries, line', .polled own, logged.poll⟩
  | cancel seq =>
    rw [cancel_eq]
    cases removed : m.outbox.remove seq with
    | none => exact ⟨[], line, .missed seq, nothing.call nofun⟩
    | some entry =>
      obtain ⟨i, p, line', carries, -, -, logged⟩ :=
        logged_removed time m.station holds tidy removed
      refine ⟨[⟨some i, .cancelled p.untried⟩], line', .cancelled carries, ?_⟩
      exact logged.call nofun

end CarrierSense

end MoteLink.Link
