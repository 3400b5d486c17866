import MoteLink.Link.Station

/-!
# Sensing the channel

Before a packet is sent its sender waits out a random backoff and then listens. While the channel
is busy it backs off again, until it has found the channel busy too often and goes on regardless.
-/

namespace MoteLink.Link

/-- Where a sender stands with the channel. -/
inductive Access where
  /-- Listen at `expiry`, having found the channel busy `busy` times. -/
  | pending (expiry : Tick) (busy : UInt8)
  | clear
  deriving DecidableEq, Repr

namespace Station

variable {ρ γ ε : Type} [RandomSource γ]

/-- End of the first backoff of a packet. -/
def firstBackoff (s : Station ρ γ) (now : Tick) : Except Halt (Tick × Station ρ γ) :=
  match s.drawBackoff with
  | .error halt => .error halt
  | .ok (backoff, s) => .ok (now + backoff, s)

/-- Back off once more, by one tick at least. -/
def backOffAgain (s : Station ρ γ) (busy : UInt8) (now : Tick) :
    Except Halt (Access × Station ρ γ) :=
  match s.drawBackoff with
  | .error halt => .error halt
  | .ok (backoff, s) =>
    if busy = 255 then .error .overflow
    else .ok (.pending (now + if backoff = 0 then 1 else backoff) (busy + 1), s)

/-- Listen to the channel once the backoff is over. -/
def assess [Transceiver ρ ε] (s : Station ρ γ) (expiry : Tick) (busy : UInt8) (now : Tick) :
    Except Halt (Except (LinkError ε) Access × Station ρ γ) :=
  if !Tick.hasReached expiry now then .ok (.ok (.pending expiry busy), s)
  else
    match s.channelClear with
    | (.error e, s) => .ok (.error e, s)
    | (.ok true, s) => .ok (.ok .clear, s)
    | (.ok false, s) =>
      if s.config.maxBusyAssessments ≤ busy then .ok (.ok .clear, s)
      else
        match s.backOffAgain busy now with
        | .error halt => .error halt
        | .ok (access, s) => .ok (.ok access, s)

theorem assess_of_early [Transceiver ρ ε] {s : Station ρ γ} {expiry now : Tick} (busy : UInt8)
    (h : Tick.hasReached expiry now = false) :
    s.assess expiry busy now = .ok (.ok (.pending expiry busy), s) := by
  simp [assess, h]

end Station

end MoteLink.Link
