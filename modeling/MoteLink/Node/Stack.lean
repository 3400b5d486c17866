import MoteLink.Alarm.Basic
import MoteLink.Forwarder
import MoteLink.Link.Basic
import MoteLink.Settle

/-!
# A node's stack

The link, the forwarder and the application of a node, with the outcomes that wait for the
application. The stack is what alarm actions work on.
-/

namespace MoteLink

open Link

/-- The layers of a node, over an application state `α`. -/
structure Stack (ρ γ α : Type) where
  /-- The tick at which the stack is used. -/
  clock : Tick := 0
  link : Link ρ γ
  forwarder : Forwarder α
  app : α
  /-- Outcomes for the application. -/
  outcomes : Fifo Outcome := .empty outcomeCapacity

namespace Stack

variable {ρ γ α ε : Type}

/-- Fetch the oldest outcome for the application. -/
def takeOutcome (s : Stack ρ γ α) : Option Outcome × Stack ρ γ α :=
  let (outcome, outcomes) := s.outcomes.pop
  (outcome, { s with outcomes })

/-- Point an alarm at the link's next deadline. -/
def arm {κ : Type} (s : Stack ρ γ α) (a : Alarms κ) (id : AlarmId) : Alarms κ :=
  let armed :=
    match s.link.nextDeadline s.clock with
    | some deadline => a.scheduleAt id deadline
    | none => a.cancel id
  match armed with
  | .ok a => a
  | .error _ => a

variable [Transceiver ρ ε]

/-- Route a packet. -/
def forward (s : Stack ρ γ α) (d : Descriptor) (payload : Bytes) :
    Except (LinkError ε) Forwarded × Stack ρ γ α :=
  let (outcome, link, app) := s.forwarder.forward submit s.link s.app s.clock d payload
  (outcome, { s with link, app })

/-- Hand a frame to the link and route what it delivers. -/
def handleFrame (s : Stack ρ γ α) (frame : Bytes) :
    Except (LinkError ε) (Option Forwarded) × Stack ρ γ α :=
  match s.link.receive frame with
  | (none, link) => (.ok none, { s with link })
  | (some delivery, link) =>
    let (outcome, s) := forward { s with link } delivery.descriptor delivery.payload
    (outcome.map some, s)

/-- Take one waiting frame from the radio and count it. A frame that cannot be handled is counted
    all the same. -/
def takeFrame (s : Nat × Stack ρ γ α) :
    Except Halt (Except (LinkError ε) Bool × Nat × Stack ρ γ α) :=
  let (count, s) := s
  match Transceiver.receive s.link.radio maxFrameLength with
  | .error halt => .error halt
  | .ok (.error e, radio) =>
      .ok (.error (.radio e), count, { s with link := s.link.setRadio radio })
  | .ok (.ok none, radio) => .ok (.ok false, count, { s with link := s.link.setRadio radio })
  | .ok (.ok (some frame), radio) =>
    let (_, s) := handleFrame { s with link := s.link.setRadio radio } frame
    .ok (.ok true, count + 1, s)

/-- Handle all frames that wait in the radio and count them. -/
def drainRadio [Backlog ρ] (s : Stack ρ γ α) :
    Except Halt (Except (LinkError ε) Nat × Stack ρ γ α) :=
  match settle takeFrame (Backlog.waiting s.link.radio + 1) (0, s) with
  | .error halt => .error halt
  | .ok (.error e, _, s) => .ok (.error e, s)
  | .ok (.ok (), count, s) => .ok (.ok count, s)

variable [RandomSource γ]

/-- Poll the link once and keep the outcome that it tells. -/
def collectOne (s : Stack ρ γ α) : Except Halt (Except (LinkError ε) Bool × Stack ρ γ α) :=
  match s.link.poll s.clock with
  | .error halt => .error halt
  | .ok (.error e, link) => .ok (.error e, { s with link })
  | .ok (.ok none, link) => .ok (.ok false, { s with link })
  | .ok (.ok (some outcome), link) =>
    .ok (.ok true, { s with link, outcomes := s.outcomes.push outcome })

/-- Collect the outcomes that the link has for the application. -/
def service (s : Stack ρ γ α) : Except Halt (Except (LinkError ε) Unit × Stack ρ γ α) :=
  settle collectOne (s.link.outstanding + 1) s

end Stack

end MoteLink
