import MoteLink.Proofs.Header.Layout
import MoteLink.Proofs.Link.Acknowledged.Orderly

/-!
# Neighbours of an acknowledged link

The only thing that teaches a link a neighbour is a frame that it accepts. Who sent the frame is
known from then on, and where there is no place left, the neighbour in the first one is forgotten
for it. So the table is never more than full, nobody is in it twice, and nobody who has not been
heard.
-/

namespace MoteLink

/-- The address is that of a single node: it names somebody, and not all who hear it. -/
def Address.IsSingle (a : Address) : Prop :=
  a.isUnspecified = false ∧ a.isBroadcast = false

namespace Link

variable {ρ γ ε : Type}

/-! ## Who is heard -/

/-- The address from which a frame has come, if the node with the given address accepts the frame:
    if it can be read and is for the node or for all. -/
def lastHop? (address : Address) (frame : Bytes) : Option Address :=
  match Descriptor.decode frame with
  | .error _ => none
  | .ok (d, _) =>
    if d.nextHop = address ∨ d.nextHop.isBroadcast = true then some d.prevHop else none

/-- The address that a call lets the node hear. -/
def Call.lastHop? (address : Address) : Call → Option Address
  | .receive frame => Link.lastHop? address frame
  | _ => none

/-- The addresses from which accepted frames have come, in the order of the frames. -/
def hopsHeard (address : Address) (history : List (Event ρ ε)) : List Address :=
  history.filterMap fun event => event.call.lastHop? address

theorem hopsHeard_concat (address : Address) (history : List (Event ρ ε)) (event : Event ρ ε) :
    hopsHeard address (history ++ [event]) =
      hopsHeard address history ++ (event.call.lastHop? address).toList := by
  rw [hopsHeard, List.filterMap_append, hopsHeard]
  cases heard : event.call.lastHop? address <;> simp [heard]

theorem lastHop?_of_submission? {link : Link ρ γ} {call : Call} {packet : Descriptor × Bytes}
    (submits : link.submission? call = some packet) (address : Address) :
    call.lastHop? address = none := by
  cases call with
  | send dst payload => rfl
  | submit d payload => rfl
  | receive frame => cases submits
  | poll => rfl
  | cancel seq => rfl

theorem Station.lastHop?_eq_listen (s : Station ρ γ) (frame : Bytes) :
    lastHop? s.config.address frame = (s.listen frame).map fun d => d.descriptor.prevHop := by
  unfold lastHop? listen Descriptor.decode
  cases found : Descriptor.read? frame with
  | none => rfl
  | some read =>
    obtain ⟨d, payload⟩ := read
    have heard := s.hears_iff d.nextHop
    by_cases here : s.hears d.nextHop = true
    · simp only [here, heard.mp here, ↓reduceIte, Option.map_some]
    · simp only [here, mt heard.mpr here, Bool.false_eq_true, ↓reduceIte, Option.map_none]

/-! ## What is remembered -/

/-- What hearing an address, or none, makes of those that are known, for which there is so much
    room. -/
inductive Learns (room : Nat) (heard : Option Address) (known : List Address) :
    List Address → Prop
  | nothing (familiar : ∀ hop, heard = some hop → hop.IsSingle → hop ∈ known) :
      Learns room heard known known
  | added {hop : Address} (told : heard = some hop) (single : hop.IsSingle) (new : hop ∉ known)
      (free : known.length < room) : Learns room heard known (known ++ [hop])
  | replaced {hop lost : Address} {kept after : List Address} (told : heard = some hop)
      (single : hop.IsSingle) (new : hop ∉ known) (full : known.length = room)
      (split : known = lost :: kept) (others : after.Perm (hop :: kept)) :
      Learns room heard known after

/-- The addresses known are such as have been heard. While there is room, they are all of these. -/
structure Remembers (room : Nat) (hops known : List Address) : Prop where
  within : known.length ≤ room
  nodup : known.Nodup
  single : ∀ hop ∈ known, hop.IsSingle
  heard : ∀ hop ∈ known, hop ∈ hops
  all : ∀ hop ∈ hops, hop.IsSingle → hop ∈ known ∨ known.length = room

theorem Learns.mem {room : Nat} {hop : Address} {known after : List Address}
    (learns : Learns room (some hop) known after) (single : hop.IsSingle) : hop ∈ after := by
  cases learns with
  | nothing familiar => exact familiar hop rfl single
  | added told =>
    cases told
    exact List.mem_append_right known List.mem_cons_self
  | replaced told single new full split others =>
    cases told
    exact others.mem_iff.mpr List.mem_cons_self

namespace Remembers

variable {room : Nat} {hops known : List Address}

theorem empty (room : Nat) : Remembers room [] [] where
  within := Nat.zero_le room
  nodup := List.nodup_nil
  single := nofun
  heard := nofun
  all := nofun

/-- A new address is remembered beside those known, or beside as many of them as there is room
    for. -/
theorem renew {hop : Address} {kept after : List Address} (remembers : Remembers room hops known)
    (single : hop.IsSingle) (new : hop ∉ known) (fewer : kept.Sublist known)
    (others : after.Perm (hop :: kept)) (fits : kept.length < room)
    (enough : kept = known ∨ kept.length + 1 = room) : Remembers room (hops ++ [hop]) after where
  within := by
    rw [others.length_eq, List.length_cons]
    exact fits
  nodup := others.nodup_iff.mpr
    (List.nodup_cons.mpr ⟨fun old => new (fewer.subset old), fewer.nodup remembers.nodup⟩)
  single other there := by
    rcases List.mem_cons.mp (others.mem_iff.mp there) with rfl | old
    · exact single
    · exact remembers.single other (fewer.subset old)
  heard other there := by
    rcases List.mem_cons.mp (others.mem_iff.mp there) with rfl | old
    · exact List.mem_append_right hops List.mem_cons_self
    · exact List.mem_append_left [hop] (remembers.heard other (fewer.subset old))
  all other told node := by
    rw [others.mem_iff, others.length_eq, List.mem_cons, List.length_cons]
    rcases enough with rfl | full
    · rcases List.mem_append.mp told with earlier | now
      · rcases remembers.all other earlier node with old | full
        · exact .inl (.inr old)
        · omega
      · exact .inl (.inl (List.mem_singleton.mp now))
    · exact .inr full

theorem learn {after : List Address} {hop? : Option Address}
    (remembers : Remembers room hops known) (learns : Learns room hop? known after) :
    Remembers room (hops ++ hop?.toList) after := by
  cases learns with
  | nothing familiar =>
    constructor
    case within => exact remembers.within
    case nodup => exact remembers.nodup
    case single => exact remembers.single
    case heard => exact fun hop there => List.mem_append_left _ (remembers.heard hop there)
    case all =>
      intro hop told single
      rcases List.mem_append.mp told with earlier | now
      · exact remembers.all hop earlier single
      · exact .inl (familiar hop (Option.mem_toList.mp now) single)
  | @added hop told single new free =>
    cases told
    exact remembers.renew single new (.refl known) (List.perm_append_singleton hop known) free
      (.inl rfl)
  | @replaced hop lost kept _ told single new full split others =>
    cases told
    have size : kept.length + 1 = room := by rw [← full, split, List.length_cons]
    have fewer : kept.Sublist known := split ▸ List.sublist_cons_self lost kept
    exact remembers.renew single new fewer others (by omega) (.inr size)

end Remembers

namespace Acknowledged

variable {m m' : Acknowledged ρ γ} {now : Tick} {i : Nat} {p : Packet}

/-! ## What teaches a neighbour, and what does not -/

theorem learns_learn (room : m.neighbours.length ≤ neighbourCapacity) (hop : Address) :
    Learns neighbourCapacity (some hop) m.neighbours (m.learn hop).neighbours := by
  unfold learn
  by_cases skipped : (hop.isUnspecified || hop.isBroadcast || m.neighbours.contains hop) = true
  · rw [if_pos skipped]
    refine .nothing ?_
    rintro _ ⟨⟩ ⟨named, single⟩
    simpa [named, single] using skipped
  · rw [if_neg skipped]
    simp only [Bool.or_eq_true, List.contains_iff_mem, not_or, Bool.not_eq_true] at skipped
    obtain ⟨single, new⟩ := skipped
    by_cases full : m.neighbours.length = neighbourCapacity
    · simp only [if_pos full]
      cases split : m.neighbours with
      | nil =>
        rw [split] at full
        cases full
      | cons lost kept =>
        have others : (swapErase (lost :: kept) 0).Perm kept :=
          swapErase_perm_eraseIdx (Nat.succ_pos kept.length)
        rw [split] at full new
        exact .replaced rfl single new full rfl
          ((List.perm_append_singleton hop _).trans (others.cons hop))
    · simp only [if_neg full]
      exact .added rfl single new (Nat.lt_of_le_of_ne room full)

theorem Setback.neighbours_eq {reason : FailureReason} (setback : Setback now m i p reason m') :
    m'.neighbours = m.neighbours := by
  cases setback <;> rfl

theorem Acknowledgement.neighbours_eq {ack : Descriptor} (noted : Acknowledgement m ack m') :
    m'.neighbours = m.neighbours := by
  cases noted <;> rfl

theorem neighbours_submit (m : Acknowledged ρ γ) (d : Descriptor) (payload : Bytes) :
    (m.submit (ε := ε) d payload).2.neighbours = m.neighbours := by
  unfold submit
  split
  · rfl
  · split <;> rfl

theorem neighbours_cancel (m : Acknowledged ρ γ) (seq : UInt8) :
    (m.cancel seq).2.neighbours = m.neighbours := by
  unfold cancel
  split <;> rfl

variable [Transceiver ρ ε]

theorem Attempt.neighbours_eq (attempted : Attempt (ε := ε) now m i p m') :
    m'.neighbours = m.neighbours := by
  cases attempted with
  | refused sent setback => exact setback.neighbours_eq
  | await sent asks => rfl
  | done sent silent => rfl

section Polling

variable [RandomSource γ]

theorem Transition.neighbours_eq {r : Except (LinkError ε) Bool} (taken : Transition now m r m') :
    m'.neighbours = m.neighbours := by
  cases taken with
  | rest quiet early => rfl
  | start quiet started drawn => rfl
  | deaf phase sensed => rfl
  | hold phase sensed => rfl
  | attempt phase sensed found attempted => exact attempted.neighbours_eq
  | await phase early => rfl
  | timeout phase passed found setback => exact setback.neighbours_eq
  | pause phase early => rfl
  | retry phase passed => rfl

theorem neighbours_poll {result : Except (LinkError ε) (Option Outcome)} (served : m.Served)
    (polled : m.poll now = .ok (result, m')) : m'.neighbours = m.neighbours := by
  have keep (s : Acknowledged ρ γ) (r : Except (LinkError ε) Bool) (s' : Acknowledged ρ γ)
      (same : s.Served ∧ s.neighbours = m.neighbours) (taken : step now s = .ok (r, s')) :
      s'.Served ∧ s'.neighbours = m.neighbours := by
    have transition := transition_of_step same.1 taken
    exact ⟨transition.served same.1, transition.neighbours_eq.trans same.2⟩
  obtain ⟨e, settled, -⟩ | ⟨rested, settled, -, rfl⟩ := settle_of_poll polled
  · exact (settle_invariant keep ⟨served, rfl⟩ settled).2
  · exact (settle_invariant keep ⟨served, rfl⟩ settled).2

end Polling

/-! ## Calls -/

theorem Reception.learns {frame : Bytes} {delivery : Option Delivery} (served : m.Served)
    (received : Reception m frame delivery m') (room : m.neighbours.length ≤ neighbourCapacity) :
    Learns neighbourCapacity (lastHop? m.station.config.address frame) m.neighbours
      m'.neighbours := by
  rw [m.station.lastHop?_eq_listen]
  cases received with
  | ignored unheard =>
    rw [unheard]
    exact .nothing nofun
  | @acknowledgement d heard isAck =>
    have learned := served_learn served d.descriptor.prevHop
    rw [heard, (acknowledgement_of_handleAck learned d.descriptor).neighbours_eq]
    exact learns_learn room d.descriptor.prevHop
  | @answered d heard isData asks here =>
    rw [heard]
    exact learns_learn room d.descriptor.prevHop
  | @delivered d heard isData silent =>
    rw [heard]
    exact learns_learn room d.descriptor.prevHop

variable [RandomSource γ]

/-- Of all calls only the receipt of a frame can teach the link a neighbour. -/
theorem Performs.learns {c : Config} {call : Call} {answer : Answer ε} (served : ServedBy c m)
    (performed : Performs m now call answer m')
    (room : m.neighbours.length ≤ neighbourCapacity) :
    Learns neighbourCapacity (call.lastHop? c.address) m.neighbours m'.neighbours := by
  cases performed with
  | submit submits =>
    rw [lastHop?_of_submission? submits, neighbours_submit]
    exact .nothing nofun
  | receive received =>
    rw [← served.config]
    exact received.learns served.toServed room
  | poll polled =>
    rw [neighbours_poll served.toServed polled]
    exact .nothing nofun
  | cancel seq =>
    rw [neighbours_cancel]
    exact .nothing nofun

section Running

variable {capacity : Nat} {config : Config} {radio : ρ} {rng : γ} {history : List (Event ρ ε)}
  {link : Link ρ γ}

theorem exists_remembers_of_run
    (run : Run (.new .acknowledged capacity config radio rng) history link) :
    ∃ m, link = .acknowledged m ∧ ServedBy config m ∧
      Remembers neighbourCapacity (hopsHeard config.address history) m.neighbours := by
  induction run with
  | start =>
    exact ⟨_, rfl, servedBy_new capacity config radio rng, .empty neighbourCapacity⟩
  | call event run performed ih =>
    obtain ⟨m, rfl, served, remembers⟩ := ih
    have tuned : ServedBy config { m with station.radio := event.radio } :=
      served.withStation rfl
    obtain ⟨m', rfl, performs⟩ := performs_of_perform performed
    have learns := Performs.learns tuned performs remembers.within
    refine ⟨m', rfl, servedBy_performs performs tuned, ?_⟩
    rw [hopsHeard_concat]
    exact remembers.learn learns

/-- All through a run the link remembers at most sixteen neighbours, nobody twice and only such as
    accepted frames have come from; it remembers all of these until there are sixteen. A call that
    changes them is the receipt of a frame from a neighbour not known, which takes the place of at
    most one other, and of none while there is room. So the neighbour that an accepted frame comes
    from is known when it has been taken in. -/
theorem remembers_of_run
    (run : Run (.new .acknowledged capacity config radio rng) history link) :
    ∃ m, link = .acknowledged m ∧
      Remembers 16 (hopsHeard config.address history) m.neighbours ∧
      ∀ (radio : ρ) (now : Tick),
        (∀ (call : Call) (answer : Answer ε) (after : Link ρ γ),
          (link.setRadio radio).perform now call = .ok (answer, after) →
            ∃ m', after = .acknowledged m' ∧
              Learns 16 (call.lastHop? config.address) m.neighbours m'.neighbours) ∧
        ∀ frame hop, lastHop? config.address frame = some hop → hop.IsSingle →
          ∃ (answer : Answer ε) (after : Link ρ γ),
            (link.setRadio radio).perform now (.receive frame) = .ok (answer, after) ∧
              after.knows hop = true := by
  obtain ⟨m, rfl, served, remembers⟩ := exists_remembers_of_run run
  refine ⟨m, rfl, remembers, fun radio now => ?_⟩
  have tuned : ServedBy config { m with station.radio := radio } := served.withStation rfl
  constructor
  · intro call answer after performed
    obtain ⟨m', rfl, performs⟩ := performs_of_perform performed
    have learns := Performs.learns tuned performs remembers.within
    exact ⟨m', rfl, learns⟩
  · intro frame hop heard single
    have received := Reception.learns tuned.toServed
      (reception_receive { m with station.radio := radio } frame) remembers.within
    rw [tuned.config, heard] at received
    refine ⟨_, _, rfl, ?_⟩
    have known := received.mem single
    change (_ || List.contains _ hop) = true
    rw [Bool.or_eq_true, List.contains_iff_mem]
    exact .inr known

end Running

/-- Fifteen nodes with short addresses and one with a long address; then one of them again, one that
    does not tell its address, and one whose address is that of many. -/
def visitors : List Address :=
  (List.range 15).map (fun n => .short (n + 2).toUInt16) ++
    [.long (.replicate 8 3), .short 2, .unspecified, .short 0x8000]

/-- Each of them sends a packet to all. -/
def visits : List (Tick × (Bench → Bench) × Call) :=
  visitors.map fun hop =>
    (5, id, .receive (Descriptor.headerBytes { src := hop, dst := .broadcast }))

/-- An acknowledgement from one more node. -/
def strangerAck : Bytes :=
  Descriptor.headerBytes { src := .short 40, dst := .short 1, seq := 9, flags := { isAck := true } }

/-- All places are taken when an acknowledgement comes that nobody waits for. -/
theorem remembers_of_run_full :
    ∃ (history : List (Event Bench BenchError)) (m : Acknowledged Bench StepGenerator),
      Run (.new .acknowledged 2 { address := .short 1 } {} ⟨0, 0⟩) history (.acknowledged m) ∧
        (visitors.take 16).all m.knows = true ∧
        Remembers 16 (hopsHeard (.short 1) history) m.neighbours ∧
        lastHop? (.short 1) strangerAck = some (.short 40) ∧ (Address.short 40).IsSingle ∧
        ∃ (answer : Answer BenchError) (after : Link Bench StepGenerator),
          (Link.acknowledged m).perform 6 (.receive strangerAck) = .ok (answer, after) ∧
            after.knows (.short 40) = true ∧ after.knows (.short 2) = false := by
  obtain ⟨history, link, run, shown⟩ := exists_run_of_replay (ε := BenchError) visits
    (fun _ link => decide ((visitors.take 16).all link.knows = true ∧
      (link.receive (ε := BenchError) strangerAck).2.knows (.short 2) = false))
    (show ((Link.new .acknowledged 2 { address := .short 1 } ({} : Bench)
      (⟨0, 0⟩ : StepGenerator)).replay _).toOption.any _ = true by decide +kernel)
  obtain ⟨m, rfl, remembers, next⟩ := remembers_of_run run
  obtain ⟨known, forgotten⟩ := of_decide_eq_true shown
  obtain ⟨answer, after, performed, knows⟩ :=
    (next m.station.radio 6).2 strangerAck (.short 40) rfl ⟨rfl, rfl⟩
  cases performed
  exact ⟨history, m, run, known, remembers, rfl, ⟨rfl, rfl⟩, _, _, rfl, knows, forgotten⟩

end Acknowledged

end Link

end MoteLink
