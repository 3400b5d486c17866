/-!
# Clock ticks

The clock counts milliseconds in 32 bits and wraps. Two ticks are compared by the shorter way
round from one to the other, which orders any set of ticks that lies within half a turn.
Durations share the type; their products and sums are capped at the longest duration instead of
wrapping.
-/

namespace MoteLink

/-- A millisecond tick count, wrapping at `2 ^ 32`. -/
abbrev Tick := UInt32

namespace Tick

/-- `a` lies strictly after `b`: going forward from `a` to `b` takes at least half a turn. -/
def isAfter (a b : Tick) : Bool :=
  0x80000000 ≤ b - a

/-- The deadline has come at `now`. -/
def hasReached (deadline now : Tick) : Bool :=
  !isAfter deadline now

/-- Place of `t` in the turn that starts half a turn before `now`. Ticks compare by rank as they
    follow each other in that turn. -/
def rank (now t : Tick) : UInt32 :=
  t - now + 0x80000000

/-- The longest duration. -/
def longest : UInt32 := 0xffffffff

/-- Sum of two durations, capped at the longest one. -/
def addCapped (a b : UInt32) : UInt32 :=
  UInt32.ofNat (min (a.toNat + b.toNat) longest.toNat)

/-- Product of two durations, capped at the longest one. -/
def mulCapped (a b : UInt32) : UInt32 :=
  UInt32.ofNat (min (a.toNat * b.toNat) longest.toNat)

theorem isAfter_self (t : Tick) : isAfter t t = false := by
  simp [isAfter]

/-- Comparison sees only the distance between two ticks. -/
theorem isAfter_add (a b k : Tick) : isAfter (a + k) (b + k) = isAfter a b := by
  have : b + k - (a + k) = b - a := by
    apply UInt32.toBitVec_inj.mp
    simp only [UInt32.toBitVec_sub, UInt32.toBitVec_add]
    exact BitVec.eq_of_toNat_eq (by simp only [BitVec.toNat_sub, BitVec.toNat_add]; omega)
  simp [isAfter, this]

theorem hasReached_add (a b k : Tick) : hasReached (a + k) (b + k) = hasReached a b := by
  simp [hasReached, isAfter_add]

theorem toNat_addCapped (a b : UInt32) :
    (addCapped a b).toNat = min (a.toNat + b.toNat) longest.toNat := by
  have : longest.toNat = 4294967295 := rfl
  simp only [addCapped, UInt32.toNat_ofNat']
  omega

theorem toNat_mulCapped (a b : UInt32) :
    (mulCapped a b).toNat = min (a.toNat * b.toNat) longest.toNat := by
  have : longest.toNat = 4294967295 := rfl
  simp only [mulCapped, UInt32.toNat_ofNat']
  omega

end Tick

end MoteLink
