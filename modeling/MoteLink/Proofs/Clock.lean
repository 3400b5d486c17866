import MoteLink.Halt
import MoteLink.Tick

/-!
# Two clocks

Two clocks that are `k` ticks apart show the same distances. What is compared, and what is waited
for, is the same on both.
-/

namespace MoteLink

namespace Tick

/-- A wait that begins `k` ticks later ends `k` ticks later. -/
theorem add_wait (now delay k : Tick) : now + k + delay = now + delay + k := by
  rw [UInt32.add_assoc, UInt32.add_comm k, UInt32.add_assoc]

theorem rank_add (now t k : Tick) : rank (now + k) (t + k) = rank now t := by
  have same : t + k - (now + k) = t - now := by
    have hnow := now.toNat_lt
    have ht := t.toNat_lt
    have hk := k.toNat_lt
    apply UInt32.toNat_inj.mp
    simp only [UInt32.toNat_sub, UInt32.toNat_add]
    omega
  rw [rank, same, rank]

end Tick

/-- Both halt, for the same reason, or neither does and the results are related. -/
inductive Agree {α β : Type} (P : α → β → Prop) : Except Halt α → Except Halt β → Prop
  | ok {a : α} {b : β} (related : P a b) : Agree P (.ok a) (.ok b)
  | halt (h : Halt) : Agree P (.error h) (.error h)

namespace Agree

variable {α β : Type} {P Q : α → β → Prop} {x : Except Halt α} {y : Except Halt β}

theorem ok_or_halt (agree : Agree P x y) :
    (∃ a b, x = .ok a ∧ y = .ok b ∧ P a b) ∨ ∃ h, x = .error h ∧ y = .error h := by
  cases agree with
  | ok related => exact .inl ⟨_, _, rfl, rfl, related⟩
  | halt h => exact .inr ⟨h, rfl, rfl⟩

theorem mono (agree : Agree P x y) (weaker : ∀ a b, P a b → Q a b) : Agree Q x y := by
  cases agree with
  | ok related => exact .ok (weaker _ _ related)
  | halt h => exact .halt h

end Agree

end MoteLink
