import MoteLink.Halt

/-!
# Repeated steps

`settle` repeats a step for as long as it reports progress. A step may fail, which leaves the
state it has reached, or halt, which leaves none. The number of rounds is bounded; a loop that
needs more has no result.
-/

namespace MoteLink

variable {σ ε : Type}

/-- Repeat `step` until it reports no progress, fails or halts, for at most `rounds` rounds. -/
def settle (step : σ → Except Halt (Except ε Bool × σ)) :
    Nat → σ → Except Halt (Except ε Unit × σ)
  | 0, _ => .error .outOfSteps
  | rounds + 1, s =>
    match step s with
    | .error halt => .error halt
    | .ok (.error e, s) => .ok (.error e, s)
    | .ok (.ok true, s) => settle step rounds s
    | .ok (.ok false, s) => .ok (.ok (), s)

variable {step : σ → Except Halt (Except ε Bool × σ)}

/-- What every step keeps, the loop keeps. -/
theorem settle_invariant {inv : σ → Prop}
    (keep : ∀ s r s', inv s → step s = .ok (r, s') → inv s') {rounds : Nat} {s s' : σ}
    {r : Except ε Unit} (start : inv s) (h : settle step rounds s = .ok (r, s')) : inv s' := by
  induction rounds generalizing s with
  | zero => simp [settle] at h
  | succ n ih =>
    rw [settle] at h
    split at h <;> rename_i taken
    · simp at h
    · cases h
      exact keep _ _ _ start taken
    · exact ih (keep _ _ _ start taken) h
    · cases h
      exact keep _ _ _ start taken

/-- What the first step brings about and every step keeps holds at the end. -/
theorem settle_after_first {inv : σ → Prop} {rounds : Nat} {s s' : σ} {r : Except ε Unit}
    (first : ∀ r t, step s = .ok (r, t) → inv t)
    (keep : ∀ s r s', inv s → step s = .ok (r, s') → inv s')
    (h : settle step rounds s = .ok (r, s')) : inv s' := by
  cases rounds with
  | zero => cases h
  | succ n =>
    rw [settle] at h
    split at h <;> rename_i taken
    · cases h
    · cases h
      exact first _ _ taken
    · exact settle_invariant keep (first _ _ taken) h
    · cases h
      exact first _ _ taken

/-- A loop ends by a step that reports no progress, or by one that fails. -/
theorem settle_last {inv : σ → Prop}
    (keep : ∀ s r s', inv s → step s = .ok (r, s') → inv s') {rounds : Nat} {s s' : σ}
    {r : Except ε Unit} (start : inv s) (h : settle step rounds s = .ok (r, s')) :
    ∃ last r', inv last ∧ step last = .ok (r', s') ∧ r' ≠ .ok true ∧
      (r = .ok () → r' = .ok false) := by
  induction rounds generalizing s with
  | zero => cases h
  | succ n ih =>
    rw [settle] at h
    split at h <;> rename_i taken
    · cases h
    · cases h
      exact ⟨s, _, start, taken, nofun, nofun⟩
    · exact ih (keep _ _ _ start taken) h
    · cases h
      exact ⟨s, _, start, taken, nofun, fun _ => rfl⟩

/-- A loop that comes to rest does so by a step that reports no progress. -/
theorem settle_eq_ok {inv : σ → Prop}
    (keep : ∀ s r s', inv s → step s = .ok (r, s') → inv s') {rounds : Nat} {s s' : σ}
    (start : inv s) (h : settle step rounds s = .ok (.ok (), s')) :
    ∃ last, inv last ∧ step last = .ok (.ok false, s') := by
  obtain ⟨last, r', kept, taken, -, rests⟩ := settle_last keep start h
  rw [rests rfl] at taken
  exact ⟨last, kept, taken⟩

/-- A loop whose progress is bounded halts only where a step halts: its rounds do not run out. -/
theorem settle_eq_error (inv : σ → Prop) (measure : σ → Nat)
    (keep : ∀ s r s', inv s → step s = .ok (r, s') → inv s')
    (decreases : ∀ s s', inv s → step s = .ok (.ok true, s') → measure s' < measure s)
    {rounds : Nat} {s : σ} {halt : Halt} (start : inv s) (enough : measure s < rounds)
    (h : settle step rounds s = .error halt) : ∃ s', inv s' ∧ step s' = .error halt := by
  induction rounds generalizing s with
  | zero => omega
  | succ n ih =>
    rw [settle] at h
    split at h <;> rename_i taken
    · cases h
      exact ⟨s, start, taken⟩
    · cases h
    · have less := decreases _ _ start taken
      exact ih (keep _ _ _ start taken) (by omega) h
    · cases h

/-- Loops whose steps go together by `f` go together. -/
theorem settle_map {τ : Type} {step' : τ → Except Halt (Except ε Bool × τ)} (inv : σ → Prop)
    (f : σ → τ) (keep : ∀ s r s', inv s → step s = .ok (r, s') → inv s')
    (goes : ∀ s, inv s → step' (f s) = (step s).map (Prod.map id f)) {s : σ} (start : inv s)
    (rounds : Nat) : settle step' rounds (f s) = (settle step rounds s).map (Prod.map id f) := by
  induction rounds generalizing s with
  | zero => rfl
  | succ rounds ih =>
    rw [settle, settle, goes s start]
    rcases taken : step s with halt | ⟨e | - | -, s'⟩
    · rfl
    · rfl
    · rfl
    · exact ih (keep s _ s' start taken)

end MoteLink
