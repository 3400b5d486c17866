import MoteLink.Tick

/-!
# Ticks within half a turn

The comparison of ticks is not transitive on the whole turn of the clock. Among the ticks of half a
turn it is the order in which they follow each other from the first of them on.
-/

namespace MoteLink.Tick

/-- The tick lies in the half turn that begins at `base`, which may pass tick zero. -/
def InHalfTurn (base t : Tick) : Prop := t - base < 0x80000000

instance (base t : Tick) : Decidable (InHalfTurn base t) :=
  inferInstanceAs (Decidable (t - base < 0x80000000))

variable {base a b : Tick}

/-- In a half turn the tick that is farther from its beginning is the later one. -/
theorem isAfter_iff (left : InHalfTurn base a) (right : InHalfTurn base b) :
    isAfter a b = true ↔ b - base < a - base := by
  have ha := a.toNat_lt
  have hb := b.toNat_lt
  have hbase := base.toNat_lt
  unfold InHalfTurn at left right
  simp only [isAfter, decide_eq_true_eq, UInt32.lt_iff_toNat_lt, UInt32.le_iff_toNat_le,
    UInt32.toNat_sub, UInt32.reduceToNat] at left right ⊢
  omega

theorem isAfter_eq_false_iff (left : InHalfTurn base a) (right : InHalfTurn base b) :
    isAfter a b = false ↔ a - base ≤ b - base := by
  rw [← Bool.not_eq_true, isAfter_iff left right, UInt32.not_lt]

/-- A wait of at most half a turn ends later. -/
theorem isAfter_wait {delay : UInt32} (now : Tick) (some : delay ≠ 0) (short : delay ≤ 0x80000000) :
    isAfter (now + delay) now = true := by
  have hdelay := delay.toNat_lt
  have hnow := now.toNat_lt
  have pos : 0 < delay.toNat := Nat.pos_of_ne_zero fun zero => some (UInt32.toNat_inj.mp zero)
  simp only [isAfter, decide_eq_true_eq, UInt32.le_iff_toNat_le, UInt32.toNat_sub,
    UInt32.toNat_add, UInt32.reduceToNat] at short ⊢
  omega

/-- A wait of less than half a turn does not end earlier. -/
theorem isAfter_of_wait {delay : UInt32} (now : Tick) (short : delay < 0x80000000) :
    isAfter now (now + delay) = false := by
  have hdelay := delay.toNat_lt
  have hnow := now.toNat_lt
  simp only [isAfter, decide_eq_false_iff_not, UInt32.not_le, UInt32.lt_iff_toNat_lt,
    UInt32.toNat_sub, UInt32.toNat_add, UInt32.reduceToNat] at short ⊢
  omega

/-- In real time, of which the clock shows the rest modulo `2 ^ 32`, a deadline less than half a
    turn away is reached from its time on. -/
theorem hasReached_iff {deadline now : Nat} (behind : now < deadline + 0x80000000)
    (ahead : deadline < now + 0x80000000) :
    hasReached (.ofNat deadline) (.ofNat now) = true ↔ deadline ≤ now := by
  simp only [hasReached, isAfter, Bool.not_eq_true', decide_eq_false_iff_not, UInt32.not_le,
    UInt32.lt_iff_toNat_lt, UInt32.toNat_sub, UInt32.toNat_ofNat', UInt32.reduceToNat]
  omega

/-- In real time, of which the clock shows the rest modulo `2 ^ 32`: a deadline at most half a turn
    ahead is not reached before its time. -/
theorem le_of_hasReached {start wait time : Nat} (begun : start ≤ time) (short : wait ≤ 0x80000000)
    (reached : hasReached (.ofNat (start + wait)) (.ofNat time) = true) : start + wait ≤ time := by
  simp only [hasReached, isAfter, Bool.not_eq_true', decide_eq_false_iff_not, UInt32.not_le,
    UInt32.lt_iff_toNat_lt, UInt32.toNat_sub, UInt32.toNat_ofNat', UInt32.reduceToNat] at reached
  omega

end MoteLink.Tick
