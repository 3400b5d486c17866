import MoteLink.Forwarder
import MoteLink.Proofs.Link.Conveyance
import MoteLink.Radio.Bench

/-!
# Journeys

A packet goes from node to node: each node forwards what it reads from the frame that the node
before has transmitted. The nodes of a journey need not differ, and of what they and their links
have done before nothing is assumed. On its way the packet keeps all but its hop limit, which every
relay lowers by one, and its neighbours. So there is an end to relaying: where no hop is left, a
node that the packet is not for drops it.
-/

namespace MoteLink

open Link

/-! ## What is told of a packet -/

/-- The descriptors tell the same of all that does not change on the way. -/
structure SameLetter (a b : Descriptor) : Prop where
  src : b.src = a.src
  dst : b.dst = a.dst
  srcEndpoint : b.srcEndpoint = a.srcEndpoint
  dstEndpoint : b.dstEndpoint = a.dstEndpoint
  cost : b.cost = a.cost
  auth : b.auth = a.auth
  moreData : b.flags.moreData = a.flags.moreData
  ackRequested : b.flags.ackRequested = a.flags.ackRequested

namespace SameLetter

variable {a b c : Descriptor}

theorem refl (a : Descriptor) : SameLetter a a := ⟨rfl, rfl, rfl, rfl, rfl, rfl, rfl, rfl⟩

theorem trans (first : SameLetter a b) (second : SameLetter b c) : SameLetter a c where
  src := second.src.trans first.src
  dst := second.dst.trans first.dst
  srcEndpoint := second.srcEndpoint.trans first.srcEndpoint
  dstEndpoint := second.dstEndpoint.trans first.dstEndpoint
  cost := second.cost.trans first.cost
  auth := second.auth.trans first.auth
  moreData := second.moreData.trans first.moreData
  ackRequested := second.ackRequested.trans first.ackRequested

/-- A frame tells all of it. -/
theorem onAir (a : Descriptor) (seq : UInt8) (n : Nat) :
    SameLetter a (({ a with seq } : Descriptor).onAir n) :=
  ⟨rfl, rfl, rfl, rfl, rfl, rfl, rfl, rfl⟩

end SameLetter

/-- What a relay hands on of a packet. -/
structure HandsOn (node : Address) (received sent : Descriptor) : Prop
    extends SameLetter received sent where
  hopLimit : sent.hopLimit.toNat + 1 = received.hopLimit.toNat
  hopLeft : sent.hopLimit ≠ 0
  isLocal : sent.flags.isLocal = false
  isAck : sent.flags.isAck = false
  hopSrc : sent.hopSrc = node
  nextHop : sent.nextHop = received.dst

theorem HandsOn.toNat_pos {node : Address} {received sent : Descriptor}
    (handsOn : HandsOn node received sent) : 1 ≤ sent.hopLimit.toNat := by
  apply Nat.pos_of_ne_zero
  intro none_left
  exact handsOn.hopLeft (UInt8.toNat_inj.mp none_left)

namespace Forwarder

variable {α μ ε : Type}

/-! ## What forwarding asks of the link -/

/-- Submissions that are written down. -/
def noting (submit : μ → Descriptor → Bytes → Except ε UInt8 × μ)
    (link : μ × List (Descriptor × Bytes)) (d : Descriptor) (payload : Bytes) :
    Except ε UInt8 × μ × List (Descriptor × Bytes) :=
  let (seq, after) := submit link.1 d payload
  (seq, after, link.2 ++ [(d, payload)])

/-- What is submitted to the link when a packet is routed. -/
def submissions (f : Forwarder α) (submit : μ → Descriptor → Bytes → Except ε UInt8 × μ) (link : μ)
    (ctx : α) (now : Tick) (d : Descriptor) (payload : Bytes) : List (Descriptor × Bytes) :=
  (f.forward (noting submit) (link, []) ctx now d payload).2.1.2

variable {f : Forwarder α} {submit : μ → Descriptor → Bytes → Except ε UInt8 × μ} {link after : μ}
  {ctx ctx' : α} {now : Tick} {d : Descriptor} {payload : Bytes} {outcome : Forwarded}

/-- A packet goes down to the link from here, it stays, or it goes down again. -/
inductive Routes (f : Forwarder α) (submit : μ → Descriptor → Bytes → Except ε UInt8 × μ) (link : μ)
    (now : Tick) (d : Descriptor) (payload : Bytes) :
    Forwarded → List (Descriptor × Bytes) → μ → Prop
  | sent {seq : UInt8} {after : μ} (starts : d.flags.isLocal = true)
      (accepted : submit link d payload = (.ok seq, after)) :
      Routes f submit link now d payload (.sent seq) [(d, payload)] after
  | stays {outcome : Forwarded} (kept : ∀ seq, outcome ≠ .relayed seq) :
      Routes f submit link now d payload outcome [] link
  | relayed {seq : UInt8} {after : μ} (left : 1 < d.hopLimit)
      (accepted : submit link (f.relayed now d) payload = (.ok seq, after)) :
      Routes f submit link now d payload (.relayed seq) [(f.relayed now d, payload)] after

theorem lt_of_relayDrop? (left : f.relayDrop? d = none) : 1 < d.hopLimit := by
  unfold relayDrop? at left
  by_cases spent : d.hopLimit ≤ 1
  · simp [spent] at left
  · exact UInt8.not_le.mp spent

theorem routes_of_forward
    (forwarded : f.forward submit link ctx now d payload = (.ok outcome, after, ctx')) :
    f.Routes submit link now d payload outcome
      (f.submissions submit link ctx now d payload) after := by
  unfold submissions
  unfold forward at forwarded ⊢
  by_cases starts : d.flags.isLocal = true
  · rw [if_pos starts] at forwarded ⊢
    rcases accepted : submit link d payload with ⟨e | seq, next⟩
    · rw [accepted] at forwarded
      cases forwarded
    · rw [accepted] at forwarded
      cases forwarded
      exact .sent starts accepted
  rw [if_neg starts] at forwarded ⊢
  by_cases here : (d.dst == f.config.address || d.dst.isBroadcast) = true
  · rw [if_pos here] at forwarded ⊢
    cases forwarded
    apply Routes.stays
    intro seq
    split <;> nofun
  rw [if_neg here] at forwarded ⊢
  cases dropped : f.relayDrop? d with
  | some reason =>
    rw [dropped] at forwarded
    cases forwarded
    exact .stays nofun
  | none =>
    rw [dropped] at forwarded
    rcases accepted : submit link (f.relayed now d) payload with ⟨e | seq, next⟩
    · rw [accepted] at forwarded
      cases forwarded
    · rw [accepted] at forwarded
      cases forwarded
      exact .relayed (lt_of_relayDrop? dropped) accepted

theorem handsOn_relayed (f : Forwarder α) (now : Tick) (left : 1 < d.hopLimit) :
    HandsOn f.config.address d (f.relayed now d) where
  toSameLetter := ⟨rfl, rfl, rfl, rfl, rfl, rfl, rfl, rfl⟩
  hopLimit := by
    rw [f.hopLimit_relayed, UInt8.toNat_sub_of_le _ _ (UInt8.le_of_lt left)]
    have := UInt8.lt_iff_toNat_lt.mp left
    simp only [UInt8.reduceToNat] at this ⊢
    omega
  hopLeft := by
    rw [f.hopLimit_relayed]
    intro none_left
    have one : d.hopLimit = 1 := by
      rw [← UInt8.sub_add_cancel d.hopLimit 1, none_left]
      rfl
    rw [one] at left
    exact absurd left (by decide)
  isLocal := rfl
  isAck := rfl
  hopSrc := rfl
  nextHop := f.nextHop_relayed now d

/-- A relay submits one packet, and that is what it hands on. -/
theorem handsOn_of_forward {seq : UInt8}
    (forwarded : f.forward submit link ctx now d payload = (.ok (.relayed seq), after, ctx')) :
    ∃ sent, f.submissions submit link ctx now d payload = [(sent, payload)] ∧
      HandsOn f.config.address d sent := by
  have routes := routes_of_forward forwarded
  generalize noted : f.submissions submit link ctx now d payload = submissions at routes
  cases routes with
  | stays kept => exact absurd rfl (kept seq)
  | relayed left accepted => exact ⟨f.relayed now d, rfl, f.handsOn_relayed now left⟩

/-- What becomes of a packet that has no hop left. -/
inductive Ends (f : Forwarder α) (d : Descriptor) : Forwarded → Prop
  | exceeded (elsewhere : ¬(d.dst = f.config.address ∨ d.dst.isBroadcast = true)) :
      Ends f d (.dropped .hopLimitExceeded)
  | delivered (here : d.dst = f.config.address ∨ d.dst.isBroadcast = true)
      (awaited : f.receiversAt d.dstEndpoint ≠ []) :
      Ends f d (.delivered (f.receiversAt d.dstEndpoint).length)
  | unwanted (here : d.dst = f.config.address ∨ d.dst.isBroadcast = true)
      (nobody : f.receiversAt d.dstEndpoint = []) : Ends f d (.dropped .noReceiver)

/-- A packet that has come in without a hop left goes down to no link. -/
theorem ends_of_hopLimit (f : Forwarder α)
    (submit : μ → Descriptor → Bytes → Except ε UInt8 × μ) (link : μ) (ctx : α) (now : Tick)
    (payload : Bytes) (transit : d.flags.isLocal = false) (spent : d.hopLimit ≤ 1) :
    ∃ outcome ctx', f.forward submit link ctx now d payload = (.ok outcome, link, ctx') ∧
      f.Ends d outcome := by
  unfold forward
  rw [if_neg (by simp [transit])]
  by_cases here : (d.dst == f.config.address || d.dst.isBroadcast) = true
  · rw [if_pos here]
    refine ⟨_, _, rfl, ?_⟩
    have place : d.dst = f.config.address ∨ d.dst.isBroadcast = true := by simpa using here
    by_cases nobody : f.receiversAt d.dstEndpoint = []
    · rw [if_pos (by simp [nobody])]
      exact .unwanted place nobody
    · rw [if_neg (by simp [nobody])]
      exact .delivered place nobody
  · rw [if_neg here]
    have dropped : f.relayDrop? d = some .hopLimitExceeded := by simp [relayDrop?, spent]
    rw [dropped]
    exact ⟨_, _, rfl, .exceeded (by simpa using here)⟩

end Forwarder

/-! ## Passages -/

/-- A node's part in a journey: the packet that it gets, where this goes, what is submitted for it
    to the link, and the frame that the link then transmits. -/
structure Passage where
  node : Address
  received : Descriptor
  payload : Bytes
  outcome : Forwarded
  submissions : List (Descriptor × Bytes)
  frame : Bytes
  deriving DecidableEq

namespace Passage

def isRelay (p : Passage) : Bool :=
  match p.outcome with
  | .relayed _ => true
  | _ => false

/-- The node forwards the packet over a link at any point of any run. The packet takes a place
    there, and the frame is transmitted out of this place. A link that passes packets through has no
    places and so no part in a journey. -/
inductive Occurs (p : Passage) : Prop
  | over {ρ γ ε α : Type} [Transceiver ρ ε] [RandomSource γ] {method : Method} {capacity : Nat}
      {config : Config} {radio : Recorder ρ} {rng : γ} {history : List (Event (Recorder ρ) ε)}
      {link after : Link (Recorder ρ) γ} {f : Forwarder α} {ctx ctx' : α} {now : Tick} {i : Nat}
      {t : Transmission} (run : Run (.new method capacity config radio rng) history link)
      (address : f.config.address = p.node)
      (forwarded : f.forward submit link ctx now p.received p.payload =
        (.ok p.outcome, after, ctx'))
      (submitted : f.submissions submit link ctx now p.received p.payload = p.submissions)
      (vacant : link.outbox.contentAt? i = none)
      (full : (after.outbox.contentAt? i).isSome = true)
      (conveys : Conveys i t after) (frame : t.frame = p.frame) : Occurs p

/-- The packet submitted for the packet received, and what the frame tells of it. -/
structure Carries (p : Passage) (sent heard : Descriptor) (n : Nat) : Prop where
  submissions : p.submissions = [(sent, p.payload)]
  decodes : Descriptor.decode p.frame = .ok (heard, n)
  letter : SameLetter sent heard
  hopLimit : heard.hopLimit = sent.hopLimit
  isLocal : heard.flags.isLocal = false
  payload : p.frame.drop n = p.payload

/-- Whatever a node passes on, the next one can read, with the hop limit under which it was
    submitted. -/
theorem Occurs.carries {p : Passage} (occurs : p.Occurs) :
    ∃ sent heard n, p.Carries sent heard n ∧
      (p.isRelay = true ∧ HandsOn p.node p.received sent ∨
        p.isRelay = false ∧ sent = p.received) := by
  obtain ⟨run, address, forwarded, submitted, vacant, full, conveys, frame⟩ := occurs
  rename_i link after f ctx ctx' now i t
  have reads {sent : Descriptor} {seq : UInt8}
      (accepted : submit link sent p.payload = (.ok seq, after))
      (noted : p.submissions = [(sent, p.payload)]) : ∃ heard n, p.Carries sent heard n := by
    obtain ⟨seq', n, -, decodes, rest⟩ :=
      decode_of_conveys (served_of_run run) accepted vacant full conveys
    rw [frame] at decodes rest
    exact ⟨_, n, noted, decodes, .onAir sent seq' n, rfl, rfl, rest⟩
  have routes := Forwarder.routes_of_forward forwarded
  rw [submitted] at routes
  generalize told : p.outcome = outcome at routes
  generalize noted : p.submissions = submissions at routes
  cases routes with
  | sent starts accepted =>
    obtain ⟨heard, n, carries⟩ := reads accepted noted
    exact ⟨_, heard, n, carries, .inr ⟨by rw [isRelay, told], rfl⟩⟩
  | stays kept =>
    rw [vacant] at full
    cases full
  | relayed left accepted =>
    obtain ⟨heard, n, carries⟩ := reads accepted noted
    have handsOn := f.handsOn_relayed now left
    rw [address] at handsOn
    exact ⟨_, heard, n, carries, .inl ⟨by rw [isRelay, told], handsOn⟩⟩

end Passage

/-! ## Journeys -/

/-- The packet that enters as `d₀` with `payload₀` has come by these passages, and it now comes to
    another node as `d` with `payload`. -/
inductive Journey (d₀ : Descriptor) (payload₀ : Bytes) :
    List Passage → Descriptor → Bytes → Prop
  | enters : Journey d₀ payload₀ [] d₀ payload₀
  | passes {passages : List Passage} {p : Passage} {d : Descriptor} {n : Nat}
      (journey : Journey d₀ payload₀ passages p.received p.payload) (occurs : p.Occurs)
      (decodes : Descriptor.decode p.frame = .ok (d, n)) :
      Journey d₀ payload₀ (passages ++ [p]) d (p.frame.drop n)

namespace Journey

variable {d₀ d : Descriptor} {payload₀ payload : Bytes} {passages : List Passage}

/-- The relays among the passages. -/
def relays (passages : List Passage) : Nat := passages.countP Passage.isRelay

theorem relays_concat (passages : List Passage) (p : Passage) :
    relays (passages ++ [p]) = relays passages + p.isRelay.toNat := by
  rw [relays, relays, List.countP_append, List.countP_singleton]
  cases p.isRelay <;> rfl

/-- What one passage does to the hop limit, the letter and the payload. -/
theorem of_passes {p : Passage} {n : Nat} (occurs : p.Occurs)
    (decodes : Descriptor.decode p.frame = .ok (d, n)) :
    d.hopLimit.toNat + p.isRelay.toNat = p.received.hopLimit.toNat ∧
      (p.isRelay = true → 1 ≤ d.hopLimit.toNat) ∧ d.flags.isLocal = false ∧
      SameLetter p.received d ∧ p.frame.drop n = p.payload := by
  obtain ⟨sent, heard, n', carries, part⟩ := occurs.carries
  have same := carries.decodes
  rw [decodes] at same
  cases same
  rw [carries.hopLimit]
  rcases part with ⟨relay, handsOn⟩ | ⟨origin, rfl⟩
  · rw [relay, Bool.toNat_true]
    exact ⟨handsOn.hopLimit, fun _ => handsOn.toNat_pos, carries.isLocal,
      handsOn.toSameLetter.trans carries.letter, carries.payload⟩
  · rw [origin, Bool.toNat_false]
    exact ⟨rfl, fun relay => absurd relay (by simp), carries.isLocal, carries.letter,
      carries.payload⟩

/-- Hops are used up by relays alone, and no relay uses up the last one. -/
theorem hopLimit_add_relays (journey : Journey d₀ payload₀ passages d payload) :
    d.hopLimit.toNat + relays passages = d₀.hopLimit.toNat ∧
      (relays passages = 0 ∨ 1 ≤ d.hopLimit.toNat) := by
  induction journey with
  | enters => exact ⟨rfl, .inl rfl⟩
  | @passes passages p d n journey occurs decodes ih =>
    obtain ⟨used, left, -⟩ := of_passes occurs decodes
    rw [relays_concat]
    cases relay : p.isRelay with
    | true =>
      rw [relay, Bool.toNat_true] at used
      have := left relay
      rw [Bool.toNat_true]
      omega
    | false =>
      rw [relay, Bool.toNat_false, Nat.add_zero] at used
      rw [Bool.toNat_false, Nat.add_zero, used]
      exact ih

/-- The packet arrives as it has entered. -/
theorem sameLetter (journey : Journey d₀ payload₀ passages d payload) :
    SameLetter d₀ d ∧ payload = payload₀ := by
  induction journey with
  | enters => exact ⟨.refl d₀, rfl⟩
  | @passes passages p d n journey occurs decodes ih =>
    obtain ⟨-, -, -, letter, rest⟩ := of_passes occurs decodes
    exact ⟨ih.1.trans letter, rest.trans ih.2⟩

/-- Only where it has started is a packet a local one. -/
theorem isLocal_eq_false (journey : Journey d₀ payload₀ passages d payload)
    (away : passages ≠ [] ∨ d₀.flags.isLocal = false) : d.flags.isLocal = false := by
  cases journey with
  | enters => exact away.resolve_left fun started => started rfl
  | passes journey occurs decodes =>
    obtain ⟨-, -, transit, -⟩ := of_passes occurs decodes
    exact transit

/-- A relay submits to its link the packet that it has received with one hop less, under its own
    address and for the destination, and the next node reads just that from what the link then
    transmits. So a packet that enters with hop limit `h` is relayed `h - 1` times at most. After
    that many relays no node passes it on: it is dropped for want of a hop, or at its destination
    handed to those who receive there, if there is anybody. -/
theorem relays_le_of_hopLimit (journey : Journey d₀ payload₀ passages d payload) :
    SameLetter d₀ d ∧ payload = payload₀ ∧
    (∀ p : Passage, p.Occurs → p.isRelay = true →
      ∃ sent heard n, HandsOn p.node p.received sent ∧ p.Carries sent heard n) ∧
    relays passages ≤ d₀.hopLimit.toNat - 1 ∧
    ∀ {α μ ε : Type} (f : Forwarder α) (submit : μ → Descriptor → Bytes → Except ε UInt8 × μ)
      (link : μ) (ctx : α) (now : Tick),
      (∀ seq after ctx',
        f.forward submit link ctx now d payload = (.ok (.relayed seq), after, ctx') →
        relays passages < d₀.hopLimit.toNat - 1 ∧
        ∃ sent, f.submissions submit link ctx now d payload = [(sent, payload)] ∧
          HandsOn f.config.address d sent) ∧
      (passages ≠ [] ∨ d₀.flags.isLocal = false → relays passages = d₀.hopLimit.toNat - 1 →
        ∃ outcome ctx', f.forward submit link ctx now d payload = (.ok outcome, link, ctx') ∧
          f.Ends d outcome) := by
  obtain ⟨used, left⟩ := journey.hopLimit_add_relays
  obtain ⟨letter, same⟩ := journey.sameLetter
  refine ⟨letter, same, ?_, by omega, ?_⟩
  · intro p occurs relay
    obtain ⟨sent, heard, n, carries, ⟨-, handsOn⟩ | ⟨origin, -⟩⟩ := occurs.carries
    · exact ⟨sent, heard, n, handsOn, carries⟩
    · rw [relay] at origin
      cases origin
  intro α μ ε f submit link ctx now
  constructor
  · intro seq after ctx' forwarded
    obtain ⟨sent, asked, handsOn⟩ := Forwarder.handsOn_of_forward forwarded
    have lower := handsOn.hopLimit
    have some_left := handsOn.toNat_pos
    exact ⟨by omega, sent, asked, handsOn⟩
  · intro away spent
    have last : d.hopLimit ≤ 1 := by
      rw [UInt8.le_iff_toNat_le, show (1 : UInt8).toNat = 1 from rfl]
      omega
    exact f.ends_of_hopLimit submit link ctx now payload (journey.isLocal_eq_false away) last

/-- A packet with two hops to go. -/
def letter : Descriptor where
  src := .short 1
  dst := .short 9
  hopLimit := 2
  flags := { isLocal := true }

/-- The packet starts at a node that senses the carrier. -/
def departure : Passage where
  node := .short 1
  received := letter
  payload := [7]
  outcome := .sent 1
  submissions := [(letter, [7])]
  frame := [0xa4, 0x10, 1, 0, 9, 0, 1, 2, 7]

/-- The packet is relayed by a node that sends in its time slot. -/
def stopover : Passage where
  node := .short 5
  received := { src := .short 1, dst := .short 9, seq := 1, hopLimit := 2, headerLength := 8 }
  payload := [7]
  outcome := .relayed 1
  submissions :=
    [({ src := .short 1, dst := .short 9, hopSrc := .short 5, hopLimit := 1, headerLength := 8,
        sendAt := 41 }, [7])]
  frame := [0xac, 0x10, 1, 0, 9, 0, 5, 0, 1, 1, 7]

/-- What is heard of the relay. -/
def arrival : Descriptor where
  src := .short 1
  dst := .short 9
  hopSrc := .short 5
  seq := 1
  hopLimit := 1
  headerLength := 10

/-- A node at which nobody receives. -/
def deaf (address : Address) : Forwarder Unit := { config := { address }, capacity := 0 }

/-- The link of a node that has just started. -/
def fresh (method : Method) (address : Address) : Link (Recorder Bench) StepGenerator :=
  .new method 1 { address, maxInitialBackoff := 0 } { radio := {} } ⟨0, 0⟩

theorem occurs_departure : departure.Occurs := by
  let link := fresh .carrierSense (.short 1)
  let t : Transmission := ⟨[0xa4, 0x10, 1, 0, 9, 0, 1, 2], [7], true⟩
  have run : Run (ε := BenchError) link [] link := .start
  have forwarded : (deaf (.short 1)).forward submit link () 5 letter [7] =
    (.ok (.sent 1), (link.submit (ε := BenchError) letter [7]).2, ()) := rfl
  have vacant : link.outbox.contentAt? 0 = none := rfl
  have steps : Steps 5 (link.submit (ε := BenchError) letter [7]).2 _ :=
    .single ⟨_, rfl⟩
  have conveys : Conveys 0 t (link.submit (ε := BenchError) letter [7]).2 :=
    .now steps rfl ⟨_, rfl⟩ rfl
  exact .over run rfl forwarded rfl vacant rfl conveys rfl

theorem occurs_stopover : stopover.Occurs := by
  let link := fresh .timeSlot (.short 5)
  let after := (link.submit (ε := BenchError)
    ((deaf (.short 5)).relayed 40 stopover.received) [7]).2
  let t : Transmission := ⟨[0xac, 0x10, 1, 0, 9, 0, 5, 0, 1, 1], [7], true⟩
  have run : Run (ε := BenchError) link [] link := .start
  have forwarded : (deaf (.short 5)).forward submit link () 40 stopover.received [7] =
    (.ok (.relayed 1), after, ()) := rfl
  have vacant : link.outbox.contentAt? 0 = none := rfl
  have steps : Steps 50 after after := .refl
  have conveys : Conveys 0 t after := .now steps rfl ⟨_, rfl⟩ rfl
  exact .over run rfl forwarded rfl vacant rfl conveys rfl

/-- The packet is sent, relayed once, and comes to a third node without a hop left. -/
theorem journey_arrival : Journey letter [7] [departure, stopover] arrival [7] := by
  have first : Journey letter [7] [departure] stopover.received stopover.payload :=
    .passes (p := departure) (n := 8) .enters occurs_departure rfl
  exact .passes (p := stopover) (n := 10) first occurs_stopover rfl

theorem relays_le_of_hopLimit_arrival :
    Journey letter [7] [departure, stopover] arrival [7] ∧
    (∃ sent heard n, HandsOn stopover.node stopover.received sent ∧
      stopover.Carries sent heard n) ∧
    relays [departure, stopover] = letter.hopLimit.toNat - 1 ∧
    ∃ outcome ctx', (deaf (.short 7)).forward (submit (ε := BenchError))
        (fresh .acknowledged (.short 7)) () 60 arrival [7] =
      (.ok outcome, fresh .acknowledged (.short 7), ctx') ∧
      (deaf (.short 7)).Ends arrival outcome := by
  obtain ⟨-, -, faithful, -, last⟩ := relays_le_of_hopLimit journey_arrival
  obtain ⟨-, ends⟩ := last (deaf (.short 7)) (submit (ε := BenchError))
    (fresh .acknowledged (.short 7)) () 60
  have away : [departure, stopover] ≠ [] := by simp
  exact ⟨journey_arrival, faithful stopover occurs_stopover rfl, rfl, ends (.inl away) rfl⟩

/-- A packet that has come to its destination is dropped even so if nobody receives there, and not
    for want of a hop. -/
theorem not_delivered_of_unreceived :
    ¬∀ (d₀ d : Descriptor) (payload₀ payload : Bytes) (passages : List Passage),
      Journey d₀ payload₀ passages d payload → d.flags.isLocal = false →
      relays passages = d₀.hopLimit.toNat - 1 →
      ∀ (f : Forwarder Unit) (link : Link (Recorder Bench) StepGenerator) (now : Tick),
        (f.forward (submit (ε := BenchError)) link () now d payload).1 =
            .ok (.dropped .hopLimitExceeded) ∨
          ∃ n, (f.forward (submit (ε := BenchError)) link () now d payload).1 =
            .ok (.delivered n) := by
  intro ends
  let stray : Descriptor := { src := .short 1, dst := .short 9, hopLimit := 1 }
  have here := ends stray stray [7] [7] [] .enters rfl rfl (deaf (.short 9))
    (fresh .carrierSense (.short 9)) 5
  rcases here with exceeded | ⟨n, delivered⟩
  · cases exceeded
  · cases delivered

end Journey

end MoteLink
