import MoteLink.Proofs.Link.Queueing
import MoteLink.Radio.Bench

/-!
# How many steps a poll takes

A poll repeats the step of its access method until nothing more can be done at its tick. At a tick
that stands still, and with waits that end at once, it goes through whole rows of attempts for one
packet after the other. What it can still do at its tick shrinks all the same with each step.
-/

namespace MoteLink

variable {σ ε : Type}

/-- Repeating `step` comes to an end with the `n`-th step, which fails or reports no progress. -/
inductive Settles (step : σ → Except Halt (Except ε Bool × σ)) :
    Nat → σ → Except ε Unit × σ → Prop
  | fail {s t : σ} {e : ε} (taken : step s = .ok (.error e, t)) : Settles step 1 s (.error e, t)
  | rest {s t : σ} (taken : step s = .ok (.ok false, t)) : Settles step 1 s (.ok (), t)
  | more {n : Nat} {s t : σ} {r : Except ε Unit × σ} (taken : step s = .ok (.ok true, t))
      (later : Settles step n t r) : Settles step (n + 1) s r

namespace Settles

variable {step : σ → Except Halt (Except ε Bool × σ)} {n rounds : Nat} {s : σ}
  {r : Except ε Unit × σ}

/-- A loop that is given a round for each of these steps ends just so. -/
theorem settle_eq (settles : Settles step n s r) (enough : n ≤ rounds) :
    settle step rounds s = .ok r := by
  induction settles generalizing rounds with
  | fail taken =>
    obtain ⟨more, rfl⟩ := Nat.exists_eq_add_of_le' enough
    rw [settle, taken]
  | rest taken =>
    obtain ⟨more, rfl⟩ := Nat.exists_eq_add_of_le' enough
    rw [settle, taken]
  | more taken later ih =>
    obtain ⟨more, rfl⟩ := Nat.exists_eq_add_of_le' (Nat.le_trans (Nat.le_add_left 1 _) enough)
    rw [settle, taken]
    exact ih (Nat.le_of_add_le_add_right enough)

/-- Where no step halts and each one that reports progress makes a measure smaller, there is an end
    to it before the measure is used up. -/
theorem of_measure (step : σ → Except Halt (Except ε Bool × σ)) (inv : σ → Prop)
    (measure : σ → Nat)
    (keep : ∀ s r s', inv s → step s = .ok (r, s') → inv s')
    (decreases : ∀ s s', inv s → step s = .ok (.ok true, s') → measure s' < measure s)
    (runs : ∀ s halt, inv s → step s ≠ .error halt) (start : inv s) :
    ∃ n r, Settles step n s r ∧ n ≤ measure s + 1 := by
  -- The induction is on the measure, for any state.
  generalize bound : measure s = size
  induction size using Nat.strong_induction_on generalizing s with
  | _ size ih =>
    rcases taken : step s with halt | ⟨e | more, t⟩
    · exact absurd taken (runs s halt start)
    · exact ⟨1, _, .fail taken, Nat.le_add_left 1 _⟩
    · cases more with
      | false => exact ⟨1, _, .rest taken, Nat.le_add_left 1 _⟩
      | true =>
        have less := decreases s t start taken
        obtain ⟨n, r, later, few⟩ := ih (measure t) (bound ▸ less) (keep _ _ _ start taken) rfl
        exact ⟨n + 1, r, .more taken later, by omega⟩

end Settles

namespace Link

variable {ρ γ ε : Type} [Transceiver ρ ε] [RandomSource γ] {now : Tick} {c : Config}

theorem CarrierSense.settles_of_servedBy {m : CarrierSense ρ γ} (served : ServedBy c m)
    (bounded : c.maxInitialBackoff ≠ Tick.longest) :
    ∃ n r, Settles (step (ε := ε) now) n m r ∧ n ≤ m.pollRounds ∧
      ∃ answer after, m.poll (ε := ε) now = .ok (answer, after) := by
  obtain ⟨n, r, settles, few⟩ := Settles.of_measure (step (ε := ε) now) (ServedBy c) budget
    (fun s r s' inv taken => servedBy_step inv taken)
    (fun s s' inv taken => (transition_of_step inv.served taken).budget_lt)
    (fun s halt inv halted => bounded (inv.config ▸ (step_eq_error halted).2)) served
  refine ⟨n, r, settles, Nat.le_trans few (budget_lt_pollRounds served.served), ?_⟩
  cases polled : m.poll (ε := ε) now with
  | error halt => exact absurd (served.config ▸ (poll_eq_error served.served polled).2) bounded
  | ok result => exact ⟨_, _, rfl⟩

theorem Acknowledged.settles_of_servedBy {m : Acknowledged ρ γ} (served : ServedBy c m)
    (bounded : c.maxInitialBackoff ≠ Tick.longest) :
    ∃ n r, Settles (step (ε := ε) now) n m r ∧ n ≤ m.pollRounds ∧
      ∃ answer after, m.poll (ε := ε) now = .ok (answer, after) := by
  obtain ⟨n, r, settles, few⟩ := Settles.of_measure (step (ε := ε) now) (ServedBy c) budget
    (fun s r s' inv taken => servedBy_step inv taken)
    (fun s s' inv taken => (transition_of_step inv.toServed taken).budget_lt inv.toServed)
    (fun s halt inv halted => bounded (inv.config ▸ (step_eq_error inv.toServed halted).2)) served
  refine ⟨n, r, settles, Nat.le_trans few (budget_lt_pollRounds served.toServed), ?_⟩
  cases polled : m.poll (ε := ε) now with
  | error halt => exact absurd (served.config ▸ (poll_eq_error served.toServed polled).2) bounded
  | ok result => exact ⟨_, _, rfl⟩

/-- Whatever has been asked of a link with an outbox, a poll comes to its end at any tick and with
    any radio, and none of its machine-word arithmetic overflows, if random backoffs are bounded. It
    takes two steps at most for each packet held and one to find no more, or with acknowledgements
    three steps for each attempt that the packets held may take, and one to find no more. -/
theorem settles_of_run {method : Method} {capacity : Nat} {config : Config} {start : ρ} {rng : γ}
    {history : List (Event ρ ε)} {link : Link ρ γ}
    (bounded : config.maxInitialBackoff < Tick.longest)
    (run : Run (.new method capacity config start rng) history link) (radio : ρ) (now : Tick) :
    (method = .carrierSense → ∃ m, link.setRadio radio = .carrierSense m ∧
      ∃ n r, Settles (CarrierSense.step (ε := ε) now) n m r ∧ n ≤ 2 * m.outbox.held + 1 ∧
        settle (CarrierSense.step now) m.pollRounds m = .ok r ∧
        ∃ answer after, m.poll (ε := ε) now = .ok (answer, after)) ∧
      (method = .acknowledged → ∃ m, link.setRadio radio = .acknowledged m ∧
        ∃ n r, Settles (Acknowledged.step (ε := ε) now) n m r ∧
          n ≤ 3 * max 1 config.maxAttempts.toNat * m.outbox.held + 1 ∧
          settle (Acknowledged.step now) m.pollRounds m = .ok r ∧
          ∃ answer after, m.poll (ε := ε) now = .ok (answer, after)) := by
  have finite : config.maxInitialBackoff ≠ Tick.longest := UInt32.ne_of_lt bounded
  constructor
  · rintro rfl
    obtain ⟨queueing, same⟩ := queueing_of_run (.inl rfl) run
    cases queueing with
    | @carrierSense m served =>
      have tuned : CarrierSense.ServedBy config { m with station.radio := radio } :=
        served.withStation rfl
      obtain ⟨n, r, settles, few, polled⟩ := CarrierSense.settles_of_servedBy tuned finite
      exact ⟨_, rfl, n, r, settles, few, settles.settle_eq few, polled⟩
    | acknowledged served => cases same
  · rintro rfl
    obtain ⟨queueing, same⟩ := queueing_of_run (.inr rfl) run
    cases queueing with
    | carrierSense served => cases same
    | @acknowledged m served =>
      have tuned : Acknowledged.ServedBy config { m with station.radio := radio } :=
        ⟨served.toServed.withStation rfl, served.config⟩
      obtain ⟨n, r, settles, few, polled⟩ := Acknowledged.settles_of_servedBy tuned finite
      have limit : n ≤ 3 * max 1 config.maxAttempts.toNat * m.outbox.held + 1 := by
        rw [← tuned.config]
        exact few
      exact ⟨_, rfl, n, r, settles, limit, settles.settle_eq few, polled⟩

/-- Two packets, two attempts for each of them, and no waits at all: one poll gives both packets up,
    and takes every step that the bound allows for. -/
theorem settles_of_run_standstill :
    ∃ (history : List (Event Bench BenchError)) (m : Acknowledged Bench StepGenerator),
      Run (.new .acknowledged 2
        { address := .short 1, ackTimeout := 0, maxAttempts := 2, retryTimeout := 0,
          maxInitialBackoff := 0 } {} ⟨0, 0⟩) history (.acknowledged m) ∧
        m.outbox.held = 2 ∧
        ∃ rested, Settles (Acknowledged.step 5) (3 * max 1 2 * 2 + 1) m (.ok (), rested) ∧
          rested.outbox.held = 0 := by
  have run : Run (ε := BenchError)
      (.new .acknowledged 2
        { address := .short 1, ackTimeout := 0, maxAttempts := 2, retryTimeout := 0,
          maxInitialBackoff := 0 } ({} : Bench) (⟨0, 0⟩ : StepGenerator)) _ (.acknowledged _) :=
    run_of_replay [(5, id, .send (.short 2) [7]), (5, id, .send (.short 3) [8])] rfl
  obtain ⟨m, same, n, r, settles, few, settled, -⟩ :=
    (settles_of_run (by decide) run {} 5).2 rfl
  cases same
  have ended : r.1 = .ok () ∧ r.2.outbox.held = 0 := by
    cases settled
    exact ⟨rfl, rfl⟩
  -- One round less would not do.
  have all : n = 13 := by
    refine Nat.le_antisymm few (Nat.not_lt.mp fun fewer => ?_)
    cases settles.settle_eq (Nat.le_of_lt_succ fewer)
  obtain ⟨result, rested⟩ := r
  obtain ⟨rfl, empty⟩ := ended
  subst all
  exact ⟨_, _, run, rfl, rested, settles, empty⟩

end Link

end MoteLink
