import MoteLink.Proofs.Link.CallLog.Incident
import MoteLink.Proofs.Link.Line
import MoteLink.Proofs.Trace

/-!
# What can happen to a line

`Line.Step` says what can happen to a line of packets and how the line goes on, and `Line.Leads`
that what has happened in the course of time has brought the line to where it is. Packets appear as
they were accepted, whatever number of attempts has been made since.
-/

namespace MoteLink.Link

theorem Packet.untried_of_attempts {p : Packet} (untried : p.attempts = 0) : p.untried = p := by
  rw [Packet.untried, ← untried]

namespace Line

/-- What can happen to a line at `now`. Of the packets due the oldest one goes in flight, as far as
    numbers of acceptance that wrap can tell. -/
inductive Step (now : Tick) (line : Line) : Incident → Line → Prop
  | accept {p : Packet} (untried : p.attempts = 0) (sound : p.descriptor.layoutError? = none) :
      Step now line (.accepted (line.numbered p)) (line.enter p)
  | start {p : Packet} (grounded : line.flying = none) (member : p ∈ line.waiting)
      (due : p.isDue now = true)
      (oldest : ∀ q ∈ line.waiting, q.isDue now = true → line.age q ≤ line.age p) :
      Step now line (.started p) (line.launch p)
  | hand {p q : Packet} {taken : Bool} (flies : line.flying = some p)
      (same : q.untried = p.untried) : Step now line (.handed p.untried taken) (line.refit q)
  | expire {p : Packet} (flies : line.flying = some p) : Step now line (.expired p.untried) line
  | ack {p : Packet} {ack : Descriptor} (flies : line.flying = some p) :
      Step now line (.acked p.untried ack) line
  | finish {p : Packet} {reason : Option FailureReason} (flies : line.flying = some p) :
      Step now line (.ended p.untried reason) line.land
  | withdraw {p : Packet} (member : p ∈ line.waiting) :
      Step now line (.cancelled p) (line.strike p)
  | abandon {p : Packet} (flies : line.flying = some p) :
      Step now line (.cancelled p.untried) line.land
  | reply (t : Transmission) : Step now line (.replied t) line

/-- The log, oldest entry first, has brought the line from `start` to where it is. The clock of the
    line shows the real time modulo `2 ^ 32`. -/
def Leads (start : Line) (log : List (Nat × Incident)) (line : Line) : Prop :=
  Path (fun line entry line' => line.Step (.ofNat entry.1) entry.2 line') start log line

variable {start line line' : Line} {log before after : List (Nat × Incident)} {time : Nat}
  {now : Tick} {incident : Incident}

theorem Leads.split (leads : start.Leads (before ++ (time, incident) :: after) line) :
    ∃ left right, start.Leads before left ∧ left.Step (.ofNat time) incident right ∧
      right.Leads after line :=
  Path.split leads

/-- What is neither put in flight nor handed to the radio leaves the packet in flight alone, or lets
    it go. -/
theorem Step.flying_of_quiet (step : line.Step now incident line') (quiet : incident.isQuiet = true)
    {p : Packet} (flies : line'.flying = some p) : line.flying = some p := by
  cases step with
  | accept untried sound => exact flies
  | start grounded member due oldest => cases quiet
  | hand there same => cases quiet
  | expire there => exact flies
  | ack there => exact flies
  | finish there => cases flies
  | withdraw member => exact flies
  | abandon there => cases flies
  | reply t => exact flies

theorem Leads.flying_of_quiet (leads : start.Leads log line)
    (quiet : ∀ entry ∈ log, entry.2.isQuiet = true) {p : Packet} (flies : line.flying = some p) :
    start.flying = some p := by
  induction leads with
  | nil => exact flies
  | snoc earlier last ih =>
    obtain ⟨before, here⟩ := List.forall_mem_append.mp quiet
    exact ih before (Step.flying_of_quiet last (here _ (List.mem_singleton_self _)) flies)

end Line

end MoteLink.Link
