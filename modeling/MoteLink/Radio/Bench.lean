import MoteLink.Radio.Transceiver

/-!
# A radio for the bench

Keeps the frames that were transmitted, hands out the frames that were injected, and answers and
fails as it is set up to.
-/

namespace MoteLink

/-- A radio without a medium. -/
structure Bench where
  isOn : Bool := false
  channel : UInt8 := 0
  power : Int8 := 0
  /-- Frames transmitted, oldest first. -/
  sent : List Bytes := []
  /-- Answers to the next channel assessments, used up before `busy` is looked at. -/
  assessments : List Bool := []
  busy : Bool := false
  /-- Frames received and not yet fetched, oldest first. -/
  received : List Bytes := []
  rejectsSend : Bool := false
  failsReceive : Bool := false
  failsPowerUp : Bool := false
  failsAssessment : Bool := false
  deriving DecidableEq, Repr, Inhabited

/-- The one way in which a bench radio fails. -/
inductive BenchError where
  | rejected
  deriving DecidableEq, Repr

namespace Bench

/-- Let a frame arrive. -/
def inject (r : Bench) (frame : Bytes) : Bench :=
  { r with received := r.received ++ [frame] }

/-- Line up answers to channel assessments. -/
def expect (r : Bench) (answers : List Bool) : Bench :=
  { r with assessments := r.assessments ++ answers }

/-- The frames transmitted so far, which are then forgotten. -/
def takeSent (r : Bench) : List Bytes × Bench :=
  (r.sent, { r with sent := [] })

/-- Fetch the oldest received frame. It must fit the room offered. -/
def fetch (r : Bench) (room : Nat) : Except Halt (Except BenchError (Option Bytes) × Bench) :=
  if r.failsReceive then .ok (.error .rejected, r)
  else
    match r.received with
    | [] => .ok (.ok none, r)
    | frame :: rest =>
      if frame.length ≤ room then .ok (.ok (some frame), { r with received := rest })
      else .error .overrun

instance : Transceiver Bench BenchError where
  powerUp r :=
    if r.failsPowerUp then (.error .rejected, r) else (.ok (), { r with isOn := true })
  powerDown r := (.ok (), { r with isOn := false })
  setChannel r channel := (.ok (), { r with channel })
  setPower r power := (.ok (), { r with power })
  send r header payload :=
    if r.rejectsSend then (.error .rejected, r)
    else (.ok (), { r with sent := r.sent ++ [header ++ payload] })
  channelClear r :=
    if r.failsAssessment then (.error .rejected, r)
    else
      match r.assessments with
      | [] => (.ok (!r.busy), r)
      | clear :: rest => (.ok clear, { r with assessments := rest })
  receive := fetch

instance : Backlog Bench where
  waiting r := r.received.length

end Bench

end MoteLink
