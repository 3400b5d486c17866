/-!
# Halting

Most operations answer with a value or with an error that leaves a usable state behind. A few
can stop the program instead, and then there is no state to go on from.
-/

namespace MoteLink

/-- Why an operation has no result at all. -/
inductive Halt where
  /-- A sum left the range of its machine word. -/
  | overflow
  /-- A received frame is longer than the room offered for it. -/
  | overrun
  /-- A loop went on past the number of rounds allotted to it. -/
  | outOfSteps
  deriving DecidableEq, Repr

end MoteLink
