import Mathlib.Data.Finmap
import MoteLink.Proofs.Relay

/-!
# Who receives at an endpoint

The table of receivers is a map from endpoints to handlers, with a bound on the endpoints. It is
kept as a list whose order changes when a receiver goes, and an endpoint stands in it once. So a
packet for this node is handed to the receiver at its endpoint and to the one for all endpoints, to
each of them once, and nothing of it goes to the link.
-/

namespace MoteLink

variable {α μ ε : Type}

/-! ## Requests -/

/-- What is asked of a table of receivers. -/
inductive ReceiverRequest (α : Type) where
  | register (endpoint : UInt8) (handle : α → Descriptor → Bytes → α)
  | unregister (endpoint : UInt8)

/-- What a request comes to. -/
inductive ReceiverReply where
  | registered
  | refused (reason : ReceiverError)
  /-- Tells whether there was a receiver. -/
  | unregistered (found : Bool)
  deriving DecidableEq, Repr

/-- Requests one after the other, and the replies to them. -/
def serveAll {σ : Type} (serve : σ → ReceiverRequest α → ReceiverReply × σ) (s : σ) :
    List (ReceiverRequest α) → List ReceiverReply × σ
  | [] => ([], s)
  | request :: rest =>
    let (reply, s) := serve s request
    let (replies, s) := serveAll serve s rest
    (reply :: replies, s)

/-- A forwarder that refuses a receiver stays as it is. -/
def Forwarder.serve (f : Forwarder α) : ReceiverRequest α → ReceiverReply × Forwarder α
  | .register endpoint handle =>
    match f.register endpoint handle with
    | .ok f => (.registered, f)
    | .error reason => (.refused reason, f)
  | .unregister endpoint =>
    let (found, f) := f.unregister endpoint
    (.unregistered found, f)

/-- The handlers at the endpoints where somebody receives. -/
abbrev Directory (α : Type) := Finmap fun _ : UInt8 => α → Descriptor → Bytes → α

namespace Directory

/-- A new endpoint is refused where there are `capacity` others. -/
def serve (capacity : Nat) (m : Directory α) : ReceiverRequest α → ReceiverReply × Directory α
  | .register endpoint handle =>
    if endpoint ∉ m ∧ m.keys.card = capacity then (.refused .tableFull, m)
    else (.registered, m.insert endpoint handle)
  | .unregister endpoint => (.unregistered (decide (endpoint ∈ m)), m.erase endpoint)

/-- The handlers that a packet for the endpoint is meant for. -/
def handlersFor (m : Directory α) (endpoint : UInt8) : List (α → Descriptor → Bytes → α) :=
  (m.lookup endpoint).toList ++
    if endpoint = anyEndpoint then [] else (m.lookup anyEndpoint).toList

end Directory

/-! ## Tables that list a directory -/

/-- The receivers are those of the directory, in whatever order. -/
structure Lists (receivers : List (Receiver α)) (m : Directory α) : Prop where
  nodup : (receivers.map Receiver.endpoint).Nodup
  mem_iff : ∀ endpoint handle, ⟨endpoint, handle⟩ ∈ receivers ↔ m.lookup endpoint = some handle

namespace Lists

variable {receivers others : List (Receiver α)} {m : Directory α} {endpoint : UInt8}
  {handle : α → Descriptor → Bytes → α}

theorem empty : Lists ([] : List (Receiver α)) ∅ := ⟨List.nodup_nil, by simp⟩

theorem perm (lists : Lists receivers m) (same : receivers.Perm others) : Lists others m where
  nodup := (same.map _).nodup_iff.mp lists.nodup
  mem_iff endpoint handle := same.mem_iff.symm.trans (lists.mem_iff endpoint handle)

theorem mem_endpoints_iff (lists : Lists receivers m) :
    endpoint ∈ receivers.map Receiver.endpoint ↔ endpoint ∈ m := by
  rw [Finmap.mem_iff, List.mem_map]
  constructor
  · rintro ⟨⟨endpoint, handle⟩, listed, rfl⟩
    exact ⟨handle, (lists.mem_iff endpoint handle).mp listed⟩
  · rintro ⟨handle, found⟩
    exact ⟨⟨endpoint, handle⟩, (lists.mem_iff endpoint handle).mpr found, rfl⟩

theorem card_keys (lists : Lists receivers m) : m.keys.card = receivers.length := by
  have same : m.keys = (receivers.map Receiver.endpoint).toFinset := by
    ext endpoint
    rw [Finmap.mem_keys, List.mem_toFinset, lists.mem_endpoints_iff]
  rw [same, List.toFinset_card_of_nodup lists.nodup, List.length_map]

theorem cons (lists : Lists receivers m) (new : endpoint ∉ m) :
    Lists (⟨endpoint, handle⟩ :: receivers) (m.insert endpoint handle) where
  nodup := List.nodup_cons.mpr ⟨fun listed => new (lists.mem_endpoints_iff.mp listed), lists.nodup⟩
  mem_iff other handle' := by
    rw [List.mem_cons, Receiver.mk.injEq, lists.mem_iff]
    by_cases same : other = endpoint
    · subst same
      rw [Finmap.lookup_insert, Finmap.lookup_eq_none.mpr new]
      simp [eq_comm]
    · rw [Finmap.lookup_insert_of_ne m same]
      simp [same]

theorem tail {r : Receiver α} (lists : Lists (r :: receivers) m) :
    Lists receivers (m.erase r.endpoint) where
  nodup := (List.nodup_cons.mp lists.nodup).2
  mem_iff endpoint handle := by
    by_cases same : endpoint = r.endpoint
    · subst same
      rw [Finmap.lookup_erase]
      have gone := (List.nodup_cons.mp lists.nodup).1
      exact ⟨fun listed => absurd (List.mem_map_of_mem listed) gone, nofun⟩
    · rw [Finmap.lookup_erase_ne same, ← lists.mem_iff, List.mem_cons]
      exact ⟨.inr, fun listed => listed.resolve_left fun first => same (by rw [← first])⟩

theorem filter_eq_nil (lists : Lists receivers m) (absent : endpoint ∉ m) :
    (receivers.filter fun r => r.endpoint == endpoint) = [] := by
  rw [List.filter_eq_nil_iff]
  intro r listed here
  exact absent (lists.mem_endpoints_iff.mp (eq_of_beq here ▸ List.mem_map_of_mem listed))

/-- An endpoint is listed once at most. -/
theorem handlers_perm (lists : Lists receivers m) (endpoint : UInt8) :
    ((receivers.filter fun r => r.endpoint == endpoint).map Receiver.handle).Perm
      (m.lookup endpoint).toList := by
  cases found : m.lookup endpoint with
  | none =>
    rw [lists.filter_eq_nil (Finmap.lookup_eq_none.mp found)]
    exact .nil
  | some handle =>
    have listed := (lists.mem_iff endpoint handle).mpr found
    obtain ⟨before, after, split⟩ := List.append_of_mem listed
    have front : receivers.Perm (⟨endpoint, handle⟩ :: (before ++ after)) :=
      split ▸ List.perm_middle
    have others := (lists.perm front).tail.filter_eq_nil Finmap.notMem_erase_self
    refine ((front.filter _).map _).trans ?_
    rw [List.filter_cons_of_pos (by simp), others]
    exact .refl _

section Places

variable {i : Nat} (place : i < receivers.length) (here : receivers[i].endpoint = endpoint)
include here

theorem eraseIdx (lists : Lists receivers m) :
    Lists (receivers.eraseIdx i) (m.erase endpoint) := by
  subst here
  exact (lists.perm (List.getElem_cons_eraseIdx_perm place).symm).tail

theorem set (lists : Lists receivers m) :
    Lists (receivers.set i ⟨endpoint, handle⟩) (m.insert endpoint handle) := by
  have same : (m.erase endpoint).insert endpoint handle = m.insert endpoint handle := by
    apply Finmap.ext_lookup
    intro other
    by_cases at_endpoint : other = endpoint
    · subst at_endpoint
      rw [Finmap.lookup_insert, Finmap.lookup_insert]
    · rw [Finmap.lookup_insert_of_ne _ at_endpoint, Finmap.lookup_insert_of_ne _ at_endpoint,
        Finmap.lookup_erase_ne at_endpoint]
  have front : Lists (⟨endpoint, handle⟩ :: receivers.eraseIdx i)
      ((m.erase endpoint).insert endpoint handle) :=
    (lists.eraseIdx place here).cons Finmap.notMem_erase_self
  exact same ▸ front.perm (List.set_perm_cons_eraseIdx place _).symm

theorem swapErase (lists : Lists receivers m) :
    Lists (MoteLink.swapErase receivers i) (m.erase endpoint) :=
  (lists.eraseIdx place here).perm (swapErase_perm_eraseIdx place).symm

end Places

end Lists

namespace Forwarder

/-! ## What a request does -/

/-- The forwarder has these settings, and its table lists the directory. -/
structure Keeps (config : ForwarderConfig) (capacity : Nat) (f : Forwarder α) (m : Directory α) :
    Prop where
  config_eq : f.config = config
  capacity_eq : f.capacity = capacity
  lists : Lists f.receivers m
  room : f.receivers.length ≤ capacity

variable {config : ForwarderConfig} {capacity : Nat} {f : Forwarder α} {m : Directory α}
  {endpoint : UInt8} {handle : α → Descriptor → Bytes → α}

theorem find?_eq_none_iff (lists : Lists f.receivers m) :
    f.find? endpoint = none ↔ endpoint ∉ m := by
  rw [find?, List.findIdx?_eq_none_iff, ← lists.mem_endpoints_iff, List.mem_map]
  constructor
  · rintro nobody ⟨r, listed, here⟩
    simpa [here] using nobody r listed
  · intro absent r listed
    exact beq_eq_false_iff_ne.mpr fun here => absent ⟨r, listed, here⟩

theorem endpoint_of_find? {i : Nat} (found : f.find? endpoint = some i) :
    ∃ place : i < f.receivers.length, f.receivers[i].endpoint = endpoint := by
  obtain ⟨place, here, -⟩ := List.findIdx?_eq_some_iff_getElem.mp found
  exact ⟨place, eq_of_beq here⟩

namespace Keeps

theorem full_iff (keeps : Keeps config capacity f m) :
    m.keys.card = capacity ↔ ¬f.receivers.length < f.capacity := by
  rw [keeps.lists.card_keys, keeps.capacity_eq]
  have := keeps.room
  omega

theorem register_eq_error_iff (keeps : Keeps config capacity f m) :
    f.register endpoint handle = .error .tableFull ↔ endpoint ∉ m ∧ m.keys.card = capacity := by
  rw [← find?_eq_none_iff keeps.lists, keeps.full_iff, register]
  cases found : f.find? endpoint with
  | some i => exact ⟨nofun, nofun⟩
  | none =>
    by_cases room : f.receivers.length < f.capacity
    · simp [room]
    · simp [room]

theorem register (keeps : Keeps config capacity f m) {f' : Forwarder α}
    (registered : f.register endpoint handle = .ok f') :
    Keeps config capacity f' (m.insert endpoint handle) := by
  unfold Forwarder.register at registered
  cases found : f.find? endpoint with
  | some i =>
    rw [found] at registered
    cases registered
    obtain ⟨place, here⟩ := endpoint_of_find? found
    exact ⟨keeps.config_eq, keeps.capacity_eq, keeps.lists.set place here,
      by rw [List.length_set]; exact keeps.room⟩
  | none =>
    rw [found] at registered
    by_cases room : f.receivers.length < f.capacity
    · simp only [if_pos room] at registered
      cases registered
      have new := (find?_eq_none_iff keeps.lists).mp found
      refine ⟨keeps.config_eq, keeps.capacity_eq,
        (keeps.lists.cons new).perm (List.perm_append_singleton _ _).symm, ?_⟩
      rw [List.length_append, List.length_singleton]
      exact keeps.capacity_eq ▸ room
    · simp only [if_neg room] at registered
      cases registered

theorem unregister (keeps : Keeps config capacity f m) (endpoint : UInt8) :
    (f.unregister endpoint).1 = decide (endpoint ∈ m) ∧
      Keeps config capacity (f.unregister endpoint).2 (m.erase endpoint) := by
  cases found : f.find? endpoint with
  | none =>
    have absent := (find?_eq_none_iff keeps.lists).mp found
    have same : m.erase endpoint = m := by
      apply Finmap.ext_lookup
      intro other
      by_cases at_endpoint : other = endpoint
      · rw [at_endpoint, Finmap.lookup_erase, Finmap.lookup_eq_none.mpr absent]
      · exact Finmap.lookup_erase_ne at_endpoint
    rw [unregister_of_absent found, same]
    exact ⟨(decide_eq_false absent).symm, keeps⟩
  | some i =>
    obtain ⟨place, here⟩ := endpoint_of_find? found
    have present : endpoint ∈ m :=
      keeps.lists.mem_endpoints_iff.mp (here ▸ List.mem_map_of_mem (List.getElem_mem place))
    rw [Forwarder.unregister, found]
    refine ⟨(decide_eq_true present).symm, keeps.config_eq, keeps.capacity_eq,
      keeps.lists.swapErase place here, ?_⟩
    exact (length_swapErase _ i).trans_le ((Nat.sub_le _ _).trans keeps.room)

/-- A receiver is refused just if it would be one too many. -/
theorem refuses_iff (keeps : Keeps config capacity f m) :
    f.serve (.register endpoint handle) = (.refused .tableFull, f) ↔
      endpoint ∉ m ∧ m.keys.card = capacity := by
  rw [← keeps.register_eq_error_iff, Forwarder.serve]
  cases registered : f.register endpoint handle with
  | ok f' => simp
  | error reason => cases reason; simp

/-- The forwarder and the directory give the same reply. -/
theorem serve (keeps : Keeps config capacity f m) (request : ReceiverRequest α) :
    (f.serve request).1 = (m.serve capacity request).1 ∧
      Keeps config capacity (f.serve request).2 (m.serve capacity request).2 := by
  cases request with
  | register endpoint handle =>
    rw [Forwarder.serve, Directory.serve]
    cases registered : f.register endpoint handle with
    | error reason =>
      cases reason
      rw [if_pos (keeps.register_eq_error_iff.mp registered)]
      exact ⟨rfl, keeps⟩
    | ok f' =>
      have accepted : ¬(endpoint ∉ m ∧ m.keys.card = capacity) := by
        intro full
        rw [keeps.register_eq_error_iff.mpr full] at registered
        cases registered
      rw [if_neg accepted]
      exact ⟨rfl, keeps.register registered⟩
  | unregister endpoint =>
    obtain ⟨found, after⟩ := keeps.unregister endpoint
    exact ⟨congrArg ReceiverReply.unregistered found, after⟩

theorem serveAll (keeps : Keeps config capacity f m) (requests : List (ReceiverRequest α)) :
    (MoteLink.serveAll Forwarder.serve f requests).1 =
        (MoteLink.serveAll (Directory.serve capacity) m requests).1 ∧
      Keeps config capacity (MoteLink.serveAll Forwarder.serve f requests).2
        (MoteLink.serveAll (Directory.serve capacity) m requests).2 := by
  induction requests generalizing f m with
  | nil => exact ⟨rfl, keeps⟩
  | cons request rest ih =>
    obtain ⟨reply, after⟩ := keeps.serve request
    obtain ⟨replies, final⟩ := ih after
    exact ⟨congrArg₂ List.cons reply replies, final⟩

end Keeps

/-! ## Deliveries -/

/-- The receivers that get a packet are those that it is meant for. -/
theorem receiversAt_perm (lists : Lists f.receivers m) (endpoint : UInt8) :
    ((f.receiversAt endpoint).map Receiver.handle).Perm (m.handlersFor endpoint) := by
  unfold Directory.handlersFor
  by_cases all : endpoint = anyEndpoint
  · subst all
    rw [if_pos rfl, List.append_nil, receiversAt]
    simp only [Bool.or_self]
    exact lists.handlers_perm anyEndpoint
  · have parts := List.filter_append_perm (fun r => r.endpoint == endpoint)
      (f.receiversAt endpoint)
    have own : (f.receiversAt endpoint).filter (fun r => r.endpoint == endpoint) =
        f.receivers.filter fun r => r.endpoint == endpoint := by
      rw [receiversAt, List.filter_filter]
      apply List.filter_congr
      intro r _
      cases r.endpoint == endpoint <;> rfl
    have rest : (f.receiversAt endpoint).filter (fun r => !(r.endpoint == endpoint)) =
        f.receivers.filter fun r => r.endpoint == anyEndpoint := by
      rw [receiversAt, List.filter_filter]
      apply List.filter_congr
      intro r _
      by_cases here : r.endpoint = endpoint
      · simp [here, all]
      · rw [beq_eq_false_iff_ne.mpr here]
        rfl
    rw [own, rest] at parts
    rw [if_neg all]
    refine (parts.symm.map _).trans ?_
    rw [List.map_append]
    exact (lists.handlers_perm endpoint).append (lists.handlers_perm anyEndpoint)

theorem forward_of_arrival {submit : μ → Descriptor → Bytes → Except ε UInt8 × μ} {d : Descriptor}
    (transit : d.flags.isLocal = false)
    (here : d.dst = f.config.address ∨ d.dst.isBroadcast = true) (link : μ) (ctx : α) (now : Tick)
    (payload : Bytes) :
    f.forward submit link ctx now d payload =
      (.ok (f.deliver ctx d payload).1, link, (f.deliver ctx d payload).2) := by
  have arrived : (d.dst == f.config.address || d.dst.isBroadcast) = true := by simpa using here
  rw [forward, if_neg (by simp [transit]), if_pos arrived]

/-- The receivers of a forwarder that has started with none are a directory of at most `capacity`
    endpoints. To every request there is the reply that the directory gives, and afterwards the
    table holds each endpoint of the directory once, with its handler, and nothing else. A receiver
    is refused just if it would be one too many. A packet that has come to its destination is given
    to the handler at its endpoint and to the one for all endpoints, to each once and to no other,
    and what is told is how many these are. -/
theorem serves_directory (config : ForwarderConfig) (capacity : Nat)
    (requests : List (ReceiverRequest α)) {f : Forwarder α} {replies : List ReceiverReply}
    (served : MoteLink.serveAll Forwarder.serve { config, capacity } requests = (replies, f)) :
    ∃ m : Directory α,
      MoteLink.serveAll (Directory.serve capacity) ∅ requests = (replies, m) ∧
      f.config = config ∧ (f.receivers.map Receiver.endpoint).Nodup ∧
      (∀ endpoint handle, ⟨endpoint, handle⟩ ∈ f.receivers ↔ m.lookup endpoint = some handle) ∧
      m.keys.card ≤ capacity ∧
      (∀ endpoint handle, f.serve (.register endpoint handle) = (.refused .tableFull, f) ↔
        endpoint ∉ m ∧ m.keys.card = capacity) ∧
      ∀ {μ ε : Type} (submit : μ → Descriptor → Bytes → Except ε UInt8 × μ) (link : μ) (ctx : α)
        (now : Tick) (d : Descriptor) (payload : Bytes), d.flags.isLocal = false →
        d.dst = config.address ∨ d.dst.isBroadcast = true →
        f.submissions submit link ctx now d payload = [] ∧
        ∃ called : List (α → Descriptor → Bytes → α), called.Perm (m.handlersFor d.dstEndpoint) ∧
          f.forward submit link ctx now d payload =
            (.ok (if called = [] then .dropped .noReceiver else .delivered called.length), link,
              called.foldl (fun ctx handle => handle ctx d payload) ctx) := by
  have start : Keeps config capacity ({ config, capacity } : Forwarder α) ∅ :=
    ⟨rfl, rfl, .empty, Nat.zero_le _⟩
  obtain ⟨same, keeps⟩ := start.serveAll requests
  rw [served] at same keeps
  refine ⟨_, Prod.ext same.symm rfl, keeps.config_eq, keeps.lists.nodup, keeps.lists.mem_iff,
    keeps.lists.card_keys.trans_le keeps.room, fun _ _ => keeps.refuses_iff, ?_⟩
  intro μ ε submit link ctx now d payload transit here
  rw [← keeps.config_eq] at here
  refine ⟨?_, _, receiversAt_perm keeps.lists d.dstEndpoint, ?_⟩
  · rw [submissions, forward_of_arrival transit here]
  · rw [forward_of_arrival transit here, deliver, List.foldl_map]
    simp

/-- Writes a number down. -/
def writeDown (n : Nat) : List Nat → Descriptor → Bytes → List Nat := fun ctx _ _ => n :: ctx

/-- A full table in which one handler is put in another's place, and one entry into the place of
    another. The receivers for all endpoints have been there longest. -/
theorem serves_directory_full :
    ∃ f : Forwarder (List Nat), MoteLink.serveAll Forwarder.serve
        { config := { address := .short 7 }, capacity := 3 }
        [.register 5 (writeDown 1), .register anyEndpoint (writeDown 2), .register 6 (writeDown 3),
          .register 8 (writeDown 4), .register 6 (writeDown 5), .unregister 5,
          .register 8 (writeDown 6), .unregister 5] =
      ([.registered, .registered, .registered, .refused .tableFull, .registered,
        .unregistered true, .registered, .unregistered false], f) ∧
    ∃ called : List (List Nat → Descriptor → Bytes → List Nat),
      called.Perm [writeDown 5, writeDown 2] ∧
      f.forward (fun link _ _ => (Except.error (), link)) () [] 40
          { src := .short 1, dst := .short 7, dstEndpoint := 6 } [1, 2] =
        (.ok (.delivered 2), (), called.foldl (fun ctx handle => handle ctx
          { src := .short 1, dst := .short 7, dstEndpoint := 6 } [1, 2]) []) := by
  refine ⟨_, rfl, ?_⟩
  obtain ⟨m, served, -, -, -, -, -, delivers⟩ := serves_directory (α := List Nat)
    { address := .short 7 } 3
    [.register 5 (writeDown 1), .register anyEndpoint (writeDown 2), .register 6 (writeDown 3),
      .register 8 (writeDown 4), .register 6 (writeDown 5), .unregister 5,
      .register 8 (writeDown 6), .unregister 5] rfl
  obtain ⟨-, called, meant, forwarded⟩ := delivers (fun link _ _ => (Except.error (), link)) ()
    [] 40 { src := .short 1, dst := .short 7, dstEndpoint := 6 } [1, 2] rfl (.inl rfl)
  cases served
  have two : called.length = 2 := meant.length_eq
  refine ⟨called, meant, ?_⟩
  rw [forwarded, if_neg (List.ne_nil_of_length_eq_add_one two), two]

end Forwarder

end MoteLink
