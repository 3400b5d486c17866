/-!
# Random sources

Backoffs are drawn from a source of 32-bit words. `StepGenerator` is the most predictable one: it
counts in equal steps.
-/

namespace MoteLink

/-- A source of 32-bit words. -/
class RandomSource (γ : Type) where
  /-- Draw a word. -/
  next : γ → UInt32 × γ

/-- Counts in equal steps modulo `2 ^ 64` and shows the low half of each count. -/
structure StepGenerator where
  value : UInt64
  step : UInt64
  deriving DecidableEq, Repr

instance : RandomSource StepGenerator where
  next g := (g.value.toUInt32, { g with value := g.value + g.step })

end MoteLink
