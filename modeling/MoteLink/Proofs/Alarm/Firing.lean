import MoteLink.Alarm.Pass

/-!
# The alarms that fire in a pass

`Fires` lists the alarms that a pass fires, each with what its action found and what it left. A
property of the context is carried through a pass by looking at these actions one by one.
-/

namespace MoteLink

variable {κ σ : Type}

/-- An alarm that fired, with the context and the alarms before and after its action. -/
structure Shot (κ σ : Type) where
  id : AlarmId
  label : κ
  arg : Nat
  before : σ × Alarms κ
  after : σ × Alarms κ

namespace Alarms

/-- A pass goes from the first state to the second and fires these alarms on its way. -/
inductive Fires (act : Action κ σ) (now : Tick) :
    List (Shot κ σ) → σ × Alarms κ → σ × Alarms κ → Prop
  | done {ctx : σ} {a : Alarms κ} (nothing : a.head now = .done) :
      Fires act now [] (ctx, a) (ctx, a)
  | stray {ctx : σ} {a : Alarms κ} {id : AlarmId} {shots : List (Shot κ σ)} {last : σ × Alarms κ}
      (head : a.head now = .stray id) (rest : Fires act now shots (ctx, a.unlink id) last) :
      Fires act now shots (ctx, a) last
  | due {ctx : σ} {a : Alarms κ} {id : AlarmId} {r : Registration κ} {after : σ × Alarms κ}
      {shots : List (Shot κ σ)} {last : σ × Alarms κ} (head : a.head now = .due id r)
      (acted : act r.action id r.arg (ctx, a.release id) = .ok after)
      (rest : Fires act now shots after last) :
      Fires act now
        ({ id, label := r.action, arg := r.arg, before := (ctx, a.release id), after } :: shots)
        (ctx, a) last

variable {act : Action κ σ} {now : Tick}

theorem fires_of_fireDue {rounds fired total : Nat} {s last : σ × Alarms κ}
    (completed : fireDue act now rounds fired s = .ok (total, last)) :
    ∃ shots, Fires act now shots s last ∧ total = fired + shots.length := by
  induction rounds generalizing fired s with
  | zero => cases completed
  | succ rounds ih =>
    obtain ⟨ctx, a⟩ := s
    rw [fireDue] at completed
    split at completed <;> rename_i head
    · cases completed
      exact ⟨[], .done head, rfl⟩
    · obtain ⟨shots, rest, count⟩ := ih completed
      exact ⟨shots, .stray head rest, count⟩
    · split at completed <;> rename_i acted
      · cases completed
      · obtain ⟨shots, rest, count⟩ := ih completed
        refine ⟨_, .due head acted rest, ?_⟩
        rw [count, List.length_cons]
        omega

theorem fires_of_process {s last : σ × Alarms κ} {fired : Nat}
    (completed : process act now s = .ok (fired, last)) :
    ∃ shots, Fires act now shots (s.1, s.2.beginPass) last ∧ fired = shots.length := by
  obtain ⟨shots, fires, count⟩ := fires_of_fireDue completed
  exact ⟨shots, fires, by omega⟩

namespace Fires

variable {shots : List (Shot κ σ)} {s last : σ × Alarms κ}

/-- A pass fires one list of alarms and ends in one way. -/
theorem unique {others : List (Shot κ σ)} {last' : σ × Alarms κ}
    (fires : Fires act now shots s last) (again : Fires act now others s last') :
    shots = others ∧ last = last' := by
  induction fires generalizing others with
  | done nothing =>
    cases again with
    | done _ => exact ⟨rfl, rfl⟩
    | stray head rest => cases nothing.symm.trans head
    | due head acted rest => cases nothing.symm.trans head
  | stray head rest ih =>
    cases again with
    | done nothing => cases nothing.symm.trans head
    | stray same others => cases head.symm.trans same; exact ih others
    | due same acted others => cases head.symm.trans same
  | due head acted rest ih =>
    cases again with
    | done nothing => cases nothing.symm.trans head
    | stray same others => cases head.symm.trans same
    | due same acts others =>
      cases head.symm.trans same
      cases acted.symm.trans acts
      obtain ⟨rfl, rfl⟩ := ih others
      exact ⟨rfl, rfl⟩

/-- Each of the alarms has done what its label stands for. -/
theorem acted (fires : Fires act now shots s last) :
    ∀ shot ∈ shots, act shot.label shot.id shot.arg shot.before = .ok shot.after := by
  induction fires with
  | done nothing => exact List.forall_mem_nil _
  | stray head rest ih => exact ih
  | due head acted rest ih => exact List.forall_mem_cons.mpr ⟨acted, ih⟩

/-- What every action does to the context, the pass does. -/
theorem relates {R : σ → σ → Prop} (fires : Fires act now shots s last) (refl : ∀ c, R c c)
    (trans : ∀ c d e, R c d → R d e → R c e)
    (each : ∀ shot ∈ shots, R shot.before.1 shot.after.1) : R s.1 last.1 := by
  induction fires with
  | done nothing => exact refl _
  | stray head rest ih => exact ih each
  | due head acted rest ih =>
    obtain ⟨first, others⟩ := List.forall_mem_cons.mp each
    exact trans _ _ _ first (ih others)

/-- What no action undoes holds at the end just where it held at first or an action has brought it
    about. -/
theorem holds_iff {p : σ → Prop} (fires : Fires act now shots s last)
    (keep : ∀ shot ∈ shots, p shot.before.1 → p shot.after.1) :
    p last.1 ↔ p s.1 ∨ ∃ shot ∈ shots, p shot.after.1 := by
  induction fires with
  | done nothing => simp
  | stray head rest ih => exact ih keep
  | due head acted rest ih =>
    obtain ⟨first, others⟩ := List.forall_mem_cons.mp keep
    simp only [ih others, List.mem_cons, exists_eq_or_imp]
    constructor
    · exact .inr
    · rintro (held | brought)
      · exact .inl (first held)
      · exact brought

end Fires

end Alarms

end MoteLink
