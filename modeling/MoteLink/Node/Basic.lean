import MoteLink.Alarm.Pass
import MoteLink.Node.Stack

/-!
# Nodes

A node drives its stack by alarms. One of them belongs to the link: it is set to the link's next
deadline after every operation that may have moved it. The others are the application's.
-/

namespace MoteLink

open Link

/-- What an alarm of a node does. -/
inductive Duty (κ : Type) where
  /-- Serve the link. -/
  | link
  /-- What the application has given this label to. -/
  | app (label : κ)
  deriving DecidableEq, Repr

/-- A node: its stack and its alarms. -/
structure Node (ρ γ α κ : Type) where
  stack : Stack ρ γ α
  alarms : Alarms (Duty κ)
  /-- The link's alarm. -/
  linkAlarm : AlarmId

namespace Node

variable {ρ γ α κ ε : Type}

/-- A node with room for `alarmCapacity` alarms, of which the link takes the first. -/
def new (link : Link ρ γ) (forwarder : Forwarder α) (app : α) (alarmCapacity : Nat) :
    Except AlarmError (Node ρ γ α κ) :=
  match ({ capacity := alarmCapacity } : Alarms (Duty κ)).register .link 0 with
  | .error e => .error e
  | .ok (linkAlarm, alarms) => .ok { stack := { link, forwarder, app }, alarms, linkAlarm }

/-- The node at another tick. -/
def atTick (n : Node ρ γ α κ) (now : Tick) : Node ρ γ α κ :=
  { n with stack := { n.stack with clock := now } }

def address (n : Node ρ γ α κ) : Address := n.stack.link.address

/-- The node with another link. -/
def setLink (n : Node ρ γ α κ) (link : Link ρ γ) : Node ρ γ α κ :=
  { n with stack := { n.stack with link } }

/-- The node with its radio changed. -/
def mapRadio (n : Node ρ γ α κ) (f : ρ → ρ) : Node ρ γ α κ :=
  n.setLink (n.stack.link.setRadio (f n.stack.link.radio))

/-- Set the link's alarm to the link's next deadline. -/
def rearm (n : Node ρ γ α κ) : Node ρ γ α κ :=
  { n with alarms := n.stack.arm n.alarms n.linkAlarm }

/-- Give up the packet with this sequence number, without an outcome. -/
def cancel (n : Node ρ γ α κ) (seq : UInt8) : Bool × Node ρ γ α κ :=
  let (cancelled, link) := n.stack.link.cancel seq
  (cancelled, (n.setLink link).rearm)

/-- Put a receiver at an endpoint. -/
def register (n : Node ρ γ α κ) (endpoint : UInt8) (handle : α → Descriptor → Bytes → α) :
    Except ReceiverError (Node ρ γ α κ) :=
  (n.stack.forwarder.register endpoint handle).map fun forwarder =>
    { n with stack := { n.stack with forwarder } }

/-- Remove the receiver at an endpoint and tell whether there was one. -/
def unregister (n : Node ρ γ α κ) (endpoint : UInt8) : Bool × Node ρ γ α κ :=
  let (removed, forwarder) := n.stack.forwarder.unregister endpoint
  (removed, { n with stack := { n.stack with forwarder } })

/-- Fetch the oldest outcome. -/
def takeOutcome (n : Node ρ γ α κ) : Option Outcome × Node ρ γ α κ :=
  let (outcome, stack) := n.stack.takeOutcome
  (outcome, { n with stack })

/-- Fetch all outcomes, oldest first. -/
def takeOutcomes (n : Node ρ γ α κ) : List Outcome × Node ρ γ α κ :=
  let outcomes := n.stack.outcomes
  (outcomes.items, { n with stack := { n.stack with outcomes := outcomes.clear } })

/-- Register an alarm of the application. -/
def addAlarm (n : Node ρ γ α κ) (label : κ) (arg : Nat) :
    Except AlarmError (AlarmId × Node ρ γ α κ) :=
  (n.alarms.register (.app label) arg).map fun (id, alarms) => (id, { n with alarms })

/-- Tick at which the node next has something to do. -/
def nextWakeup (n : Node ρ γ α κ) : Option Tick := n.alarms.nextDeadline

def hasPending (n : Node ρ γ α κ) : Bool := n.alarms.hasPending

def hasReady (n : Node ρ γ α κ) : Bool := n.alarms.hasReady n.stack.clock

/-- The node after its link was asked for something, with the alarm set if it was granted. -/
def afterRequest {β : Type} (n : Node ρ γ α κ) (request : Except (LinkError ε) β × Link ρ γ) :
    Except (LinkError ε) β × Node ρ γ α κ :=
  match request with
  | (.error e, link) => (.error e, n.setLink link)
  | (.ok b, link) => (.ok b, (n.setLink link).rearm)

variable [Transceiver ρ ε]

/-- Power up the radio. -/
def start (n : Node ρ γ α κ) : Except (LinkError ε) Unit × Node ρ γ α κ :=
  let (outcome, link) := n.stack.link.start
  (outcome, n.setLink link)

/-- Send a payload to a node and tell its sequence number. -/
def send (n : Node ρ γ α κ) (dst : Address) (payload : Bytes) :
    Except (LinkError ε) UInt8 × Node ρ γ α κ :=
  n.afterRequest (n.stack.link.send dst payload)

/-- Send a packet with a descriptor of its own and tell its sequence number. -/
def submit (n : Node ρ γ α κ) (d : Descriptor) (payload : Bytes) :
    Except (LinkError ε) UInt8 × Node ρ γ α κ :=
  n.afterRequest (n.stack.link.submit d payload)

/-- Route a packet. -/
def forward (n : Node ρ γ α κ) (d : Descriptor) (payload : Bytes) :
    Except (LinkError ε) Forwarded × Node ρ γ α κ :=
  let (outcome, stack) := n.stack.forward d payload
  (outcome, rearm { n with stack })

variable [RandomSource γ]

/-- Take in a frame. It may be an acknowledgement, so outcomes are collected at once; a link that
    fails meanwhile is left to its alarm. -/
def receive (n : Node ρ γ α κ) (frame : Bytes) :
    Except Halt (Except (LinkError ε) (Option Forwarded) × Node ρ γ α κ) :=
  let (outcome, stack) := n.stack.handleFrame frame
  match stack.service with
  | .error halt => .error halt
  | .ok (_, stack) => .ok (outcome, rearm { n with stack })

/-- What the alarms of a node do, given what the application's alarms do. The link's alarm
    collects outcomes and is set anew; a link that fails meanwhile is left to that. -/
def act (app : κ → AlarmId → Nat → Stack ρ γ α × Alarms (Duty κ) →
      Except Halt (Stack ρ γ α × Alarms (Duty κ))) :
    Action (Duty κ) (Stack ρ γ α)
  | .app label, id, arg, s => app label id arg s
  | .link, id, _, (stack, alarms) =>
    match stack.service with
    | .error halt => .error halt
    | .ok (_, stack) => .ok (stack, stack.arm alarms id)

/-- Handle the frames that wait in the radio and fire the alarms that are due. The alarms fire
    even where the radio fails, whose error is then told in place of their number. -/
def process [Backlog ρ]
    (app : κ → AlarmId → Nat → Stack ρ γ α × Alarms (Duty κ) →
      Except Halt (Stack ρ γ α × Alarms (Duty κ)))
    (n : Node ρ γ α κ) : Except Halt (Except (LinkError ε) Nat × Node ρ γ α κ) :=
  match n.stack.drainRadio with
  | .error halt => .error halt
  | .ok (drained, stack) =>
    match Alarms.process (act app) stack.clock (stack, n.alarms) with
    | .error halt => .error halt
    | .ok (fired, stack, alarms) =>
      .ok (drained.map fun _ => fired, rearm { n with stack, alarms })

end Node

end MoteLink
