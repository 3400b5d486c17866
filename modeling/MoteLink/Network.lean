import MoteLink.Node.Basic
import MoteLink.Radio.Bench

/-!
# Networks on the bench

Nodes that share a clock and hear each other over pairwise links. A frame that a node transmits
reaches all its neighbours at once, or is lost to all of them.
-/

namespace MoteLink

/-- Nodes with bench radios, and who hears whom. -/
structure Network (γ α κ : Type) where
  now : Tick
  nodes : List (Node Bench γ α κ)
  /-- Pairs of nodes that hear each other. -/
  links : List (Nat × Nat)
  /-- Numbers of the frames that get lost. -/
  lost : List Nat := []
  /-- Frames transmitted so far. -/
  transmitted : Nat := 0

namespace Network

variable {γ α κ : Type}

/-- The two nodes hear each other. -/
def areLinked (net : Network γ α κ) (i k : Nat) : Bool :=
  net.links.any fun link => link == (i, k) || link == (k, i)

/-- Let a frame of node `i` reach its neighbours, unless it is one of those that get lost. -/
def transmit (i : Nat) (net : Network γ α κ) (frame : Bytes) : Network γ α κ :=
  let heard (k : Nat) (n : Node Bench γ α κ) : Node Bench γ α κ :=
    if net.areLinked i k then n.mapRadio (·.inject frame) else n
  { net with
    nodes := if net.lost.contains net.transmitted then net.nodes else net.nodes.mapIdx heard
    transmitted := net.transmitted + 1 }

/-- Put node `i` back into the network, carry the frames that it has sent and tell which. -/
def putBack (net : Network γ α κ) (i : Nat) (n : Node Bench γ α κ) :
    List Bytes × Network γ α κ :=
  let sent := n.stack.link.radio.sent
  let n := n.mapRadio fun r => r.takeSent.2
  (sent, sent.foldl (transmit i) { net with nodes := net.nodes.set i n })

/-- Node `i` at the network's tick. -/
def node? (net : Network γ α κ) (i : Nat) : Option (Node Bench γ α κ) :=
  net.nodes[i]?.map (·.atTick net.now)

end Network

end MoteLink
