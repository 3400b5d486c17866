/-!
# Traces

A trace tells, step by step, how a state comes from another one: what happened in each step, and
the state after it. What every step keeps holds at the end of every trace. A path tells only what
happened, and grows at its end.
-/

namespace MoteLink

variable {σ ε : Type}

/-- The steps of the history, oldest first, lead from one state to another. -/
inductive Trace (step : σ → ε → σ → Prop) : σ → List (ε × σ) → σ → Prop
  | nil (s : σ) : Trace step s [] s
  | cons {s t last : σ} {e : ε} {rest : List (ε × σ)} (first : step s e t)
      (later : Trace step t rest last) : Trace step s ((e, t) :: rest) last

namespace Trace

variable {step : σ → ε → σ → Prop} {s t u : σ} {e : ε} {history later : List (ε × σ)}

theorem single (first : step s e t) : Trace step s [(e, t)] t :=
  .cons first (.nil t)

theorem append (start : Trace step s history t) (next : Trace step t later u) :
    Trace step s (history ++ later) u := by
  induction start with
  | nil s => exact next
  | cons first rest ih => exact .cons first (ih next)

theorem split (whole : Trace step s (history ++ later) u) :
    ∃ t, Trace step s history t ∧ Trace step t later u := by
  induction history generalizing s with
  | nil => exact ⟨s, .nil s, whole⟩
  | cons entry history ih =>
    cases whole with
    | cons first rest =>
      obtain ⟨t, start, next⟩ := ih rest
      exact ⟨t, .cons first start, next⟩

theorem last_mem (trace : Trace step s history t) : t = s ∨ ∃ e, (e, t) ∈ history := by
  induction trace with
  | nil s => exact .inl rfl
  | cons first rest ih =>
    rcases ih with rfl | ⟨e, member⟩
    · exact .inr ⟨_, List.mem_cons_self⟩
    · exact .inr ⟨e, List.mem_cons_of_mem _ member⟩

/-- What holds at the start and is kept by every step holds at the end. A step may be asked for more
    than to be one: what is known of all entries of the history is known of its own. -/
theorem invariant {K : ε × σ → Prop} {I : List (ε × σ) → σ → Prop}
    (trace : Trace step s history t) (start : I [] s)
    (keep : ∀ past s e t, I past s → step s e t → K (e, t) → I (past ++ [(e, t)]) t)
    (all : ∀ entry ∈ history, K entry) : I history t := by
  -- The induction needs the entries before the trace, which the invariant may speak of.
  have longer : ∀ past, I past s → I (past ++ history) t := by
    clear start
    induction trace with
    | nil s =>
      intro past held
      rwa [List.append_nil]
    | @cons s t last e rest first later ih =>
      intro past held
      obtain ⟨here, there⟩ := List.forall_mem_cons.mp all
      have next := ih there (past ++ [(e, t)]) (keep past s e t held first here)
      rwa [List.append_assoc] at next
  exact longer [] start

/-- What every step keeps, whatever has happened before. -/
theorem keeps {I : σ → Prop} (trace : Trace step s history t) (start : I s)
    (keep : ∀ s e t, I s → step s e t → I t) : I t := by
  induction trace with
  | nil s => exact start
  | cons first rest ih => exact ih (keep _ _ _ start first)

end Trace

/-- What is in the list, oldest first, has happened on the way from `s` to another state. -/
inductive Path (step : σ → ε → σ → Prop) (s : σ) : List ε → σ → Prop
  | nil : Path step s [] s
  | snoc {done : List ε} {t u : σ} {e : ε} (earlier : Path step s done t) (last : step t e u) :
      Path step s (done ++ [e]) u

namespace Path

variable {step : σ → ε → σ → Prop} {s t u : σ} {e : ε} {done more before after : List ε}

theorem single (only : step s e t) : Path step s [e] t := .snoc .nil only

theorem trans (first : Path step s done t) (second : Path step t more u) :
    Path step s (done ++ more) u := by
  induction second with
  | nil =>
    rw [List.append_nil]
    exact first
  | snoc earlier last ih =>
    rw [← List.append_assoc]
    exact .snoc ih last

/-- Whatever has happened on a path has happened between two states on it. -/
theorem split (path : Path step s (before ++ e :: after) u) :
    ∃ t t', Path step s before t ∧ step t e t' ∧ Path step t' after u := by
  generalize whole : before ++ e :: after = all at path
  induction path generalizing after with
  | nil =>
    cases before <;> cases whole
  | @snoc done t u e' earlier last ih =>
    rcases List.eq_nil_or_concat after with rfl | ⟨rest, final, rfl⟩
    · obtain ⟨rfl, same⟩ := List.append_inj' whole rfl
      cases same
      exact ⟨_, _, earlier, last, .nil⟩
    · rw [List.concat_eq_append, ← List.cons_append, ← List.append_assoc] at whole
      obtain ⟨front, same⟩ := List.append_inj' whole rfl
      cases same
      obtain ⟨t, t', first, here, later⟩ := ih front
      rw [List.concat_eq_append]
      exact ⟨t, t', first, here, .snoc later last⟩

theorem eq_of_nil (path : Path step s [] t) : t = s := by
  generalize nothing : [] = done at path
  cases path with
  | nil => rfl
  | @snoc done t u e earlier last => cases done <;> cases nothing

theorem of_cons (path : Path step s (e :: after) u) :
    ∃ t, step s e t ∧ Path step t after u := by
  have parted : Path step s ([] ++ e :: after) u := path
  obtain ⟨left, right, first, here, later⟩ := parted.split
  obtain rfl := first.eq_of_nil
  exact ⟨right, here, later⟩

theorem step_of_single (path : Path step s [e] t) : step s e t := by
  obtain ⟨right, here, last⟩ := path.of_cons
  obtain rfl := last.eq_of_nil
  exact here

end Path

end MoteLink
