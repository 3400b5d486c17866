import MoteLink.Proofs.Node.Deed

/-!
# The link's alarm mirrors the link

Every operation that may move the link's next deadline sets the link's alarm to it before it
returns, also where it fails. Whatever else is done to the alarms in a pass, none that is registered
is given up, so the alarm is there to be set. A link that holds a packet has a next deadline, and so
a node with a busy link has a wake-up.
-/

namespace MoteLink

open Link

variable {ρ γ α κ ε : Type}

namespace Node

/-- The link's alarm is scheduled for the link's next deadline, and idle if there is none. -/
structure Mirrors (n : Node ρ γ α κ) : Prop where
  scheduled_iff : ∀ deadline, n.alarms.state n.linkAlarm = .ok (.scheduled deadline) ↔
    n.stack.link.nextDeadline n.stack.clock = some deadline
  idle_iff : n.alarms.state n.linkAlarm = .ok .idle ↔
    n.stack.link.nextDeadline n.stack.clock = none

variable {n m n' : Node ρ γ α κ}

theorem mirrors_rearm (known : (n.alarms.get? n.linkAlarm).isSome) : n.rearm.Mirrors := by
  have sets := n.stack.sets_arm known
  have deadline : n.rearm.alarms.deadline? n.linkAlarm =
      n.stack.link.nextDeadline n.stack.clock := by
    change (n.stack.arm n.alarms n.linkAlarm).deadline? n.linkAlarm = _
    rw [sets.deadline?_eq, Function.update_self]
  have still : (n.rearm.alarms.get? n.linkAlarm).isSome := by
    rw [Alarms.isSome_get?_iff] at known ⊢
    exact sets.count.symm ▸ known
  refine ⟨fun tick => ?_, ?_⟩
  · rw [Alarms.state_eq_scheduled_iff]
    exact deadline ▸ Iff.rfl
  · rw [Alarms.state_eq_idle_iff]
    exact ⟨fun idle => deadline.symm.trans idle.2, fun none => ⟨still, deadline.trans none⟩⟩

/-- A node with a busy link has a wake-up. -/
theorem Mirrors.isSome_nextWakeup (mirrors : n.Mirrors) (upright : n.alarms.Upright)
    {deadline : Tick} (next : n.stack.link.nextDeadline n.stack.clock = some deadline) :
    n.nextWakeup.isSome := by
  have scheduled := (mirrors.scheduled_iff deadline).mpr next
  obtain ⟨l, shows⟩ := upright.shows
  have queued : n.linkAlarm ∈ n.alarms.queue :=
    shows.mem_queue_iff.mpr ⟨deadline, Alarms.state_eq_scheduled_iff.mp scheduled⟩
  refine upright.isSome_nextDeadline_iff.mpr ?_
  rw [Alarms.hasPending_iff]
  exact List.ne_nil_of_mem queued

section Requests

variable {β : Type} {request : Except (LinkError ε) β × Link ρ γ}

theorem afterRequest_eq_ok {b : β} (granted : n.afterRequest request = (.ok b, n')) :
    n' = (n.setLink request.2).rearm := by
  obtain ⟨result, link⟩ := request
  cases result with
  | error e => cases granted
  | ok done => cases granted; rfl

theorem afterRequest_eq_error {e : LinkError ε}
    (refused : n.afterRequest request = (.error e, n')) : n' = n.setLink request.2 := by
  obtain ⟨result, link⟩ := request
  cases result with
  | error e => cases refused; rfl
  | ok done => cases refused

end Requests

variable [Transceiver ρ ε] [RandomSource γ]

/-- Deeds lead from one node to another, whose link has the same alarm. -/
def Leads (n n' : Node ρ γ α κ) : Prop :=
  n'.linkAlarm = n.linkAlarm ∧
    ∃ history, Trace Does (n.stack, n.alarms) history (n'.stack, n'.alarms)

namespace Leads

theorem refl (n : Node ρ γ α κ) : n.Leads n := ⟨rfl, [], .nil _⟩

theorem trans (first : n.Leads m) (second : m.Leads n') : n.Leads n' := by
  obtain ⟨same, before, start⟩ := first
  obtain ⟨same', after, next⟩ := second
  exact ⟨same'.trans same, before ++ after, start.append next⟩

theorem stack {s : Stack ρ γ α} (becomes : n.stack.Becomes s) : n.Leads { n with stack := s } :=
  ⟨rfl, _, .single (.stack becomes)⟩

theorem alarms {a : Alarms (Duty κ)} {e : Alarms.Event (Duty κ)}
    (happens : Alarms.Happens n.alarms e a) : n.Leads { n with alarms := a } :=
  ⟨rfl, _, .single (.alarms happens)⟩

theorem rearm (leads : n.Leads m) : n.Leads m.rearm :=
  leads.trans ⟨rfl, _, .single (.arm m.linkAlarm)⟩

end Leads

theorem leads_call (n : Node ρ γ α κ) (call : Call) {answer : Answer ε} {link : Link ρ γ}
    (performed : n.stack.link.perform n.stack.clock call = .ok (answer, link)) :
    n.Leads (n.setLink link) :=
  .stack (Stack.Changes.call call performed).becomes

/-! ## Operations -/

variable [Backlog ρ]

/-- An operation that sets the link's alarm. The last three may have failed. -/
inductive Arms (n : Node ρ γ α κ) : Node ρ γ α κ → Prop
  | send {dst : Address} {payload : Bytes} {seq : UInt8} {n' : Node ρ γ α κ}
      (granted : n.send dst payload = (.ok seq, n')) : Arms n n'
  | submit {d : Descriptor} {payload : Bytes} {seq : UInt8} {n' : Node ρ γ α κ}
      (granted : n.submit d payload = (.ok seq, n')) : Arms n n'
  | cancel (seq : UInt8) : Arms n (n.cancel seq).2
  | forward (d : Descriptor) (payload : Bytes) : Arms n (n.forward d payload).2
  | receive {frame : Bytes} {result : Except (LinkError ε) (Option Forwarded)}
      {n' : Node ρ γ α κ} (received : n.receive frame = .ok (result, n')) : Arms n n'
  | process {app : κ → AlarmId → Nat → Stack ρ γ α × Alarms (Duty κ) →
        Except Halt (Stack ρ γ α × Alarms (Duty κ))}
      {result : Except (LinkError ε) Nat} {n' : Node ρ γ α κ} (lawful : Lawful app)
      (processed : n.process app = .ok (result, n')) : Arms n n'

/-- One operation of a node, or what the clock, the medium and the application do in between. -/
inductive Operates (n : Node ρ γ α κ) : Node ρ γ α κ → Prop
  | arms {n' : Node ρ γ α κ} (arms : Arms n n') : Operates n n'
  | start : Operates n n.start.2
  | sendRefused {dst : Address} {payload : Bytes} {e : LinkError ε} {n' : Node ρ γ α κ}
      (refused : n.send dst payload = (.error e, n')) : Operates n n'
  | submitRefused {d : Descriptor} {payload : Bytes} {e : LinkError ε} {n' : Node ρ γ α κ}
      (refused : n.submit d payload = (.error e, n')) : Operates n n'
  | register {endpoint : UInt8} {handle : α → Descriptor → Bytes → α} {n' : Node ρ γ α κ}
      (registered : n.register endpoint handle = .ok n') : Operates n n'
  | unregister (endpoint : UInt8) : Operates n (n.unregister endpoint).2
  | takeOutcome : Operates n n.takeOutcome.2
  | takeOutcomes : Operates n n.takeOutcomes.2
  | addAlarm {label : κ} {arg : Nat} {id : AlarmId} {n' : Node ρ γ α κ}
      (added : n.addAlarm label arg = .ok (id, n')) : Operates n n'
  | request {r : Alarms.Request (Duty κ)} {a : Alarms (Duty κ)} (granted : n.alarms.ask r = .ok a) :
      Operates n { n with alarms := a }
  | wait (now : Tick) : Operates n (n.atTick now)
  | medium (f : ρ → ρ) : Operates n (n.mapRadio f)
  | app (app : α) : Operates n { n with stack := { n.stack with app } }

/-- The operation sets the link's alarm last. -/
theorem exists_rearm_of_arms (arms : n.Arms n') : ∃ m, n.Leads m ∧ n' = m.rearm := by
  cases arms with
  | @send dst payload seq n' granted =>
    cases afterRequest_eq_ok granted
    exact ⟨_, n.leads_call (.send dst payload) rfl, rfl⟩
  | @submit d payload seq n' granted =>
    cases afterRequest_eq_ok granted
    exact ⟨_, n.leads_call (.submit d payload) rfl, rfl⟩
  | cancel seq => exact ⟨_, n.leads_call (.cancel seq) rfl, rfl⟩
  | forward d payload => exact ⟨_, .stack (n.stack.becomes_forward d payload), rfl⟩
  | @receive frame result n' received =>
    unfold receive at received
    have heard := n.stack.becomes_handleFrame frame
    dsimp only at received
    split at received <;> rename_i served
    · cases received
    · cases received
      exact ⟨_, .stack (heard.trans (Stack.becomes_of_service served)), rfl⟩
  | process lawful processed =>
    obtain ⟨drained, moments, last, ⟨r, drains⟩, unfolds, rfl⟩ :=
      completes_of_process lawful processed
    refine ⟨_, ?_, rfl⟩
    exact ⟨rfl, _, .cons (.stack (Stack.becomes_of_drainRadio drains)) <|
      .cons (.alarms .newPass) unfolds.trace⟩

theorem leads_of_operates (operates : n.Operates n') : n.Leads n' := by
  cases operates with
  | arms arms =>
    obtain ⟨m, leads, rfl⟩ := exists_rearm_of_arms arms
    exact leads.rearm
  | start => exact .stack (Stack.Changes.radio _).becomes
  | @sendRefused dst payload e n' refused =>
    cases afterRequest_eq_error refused
    exact n.leads_call (.send dst payload) rfl
  | @submitRefused d payload e n' refused =>
    cases afterRequest_eq_error refused
    exact n.leads_call (.submit d payload) rfl
  | @register endpoint handle n' registered =>
    unfold register at registered
    rcases added : n.stack.forwarder.register endpoint handle with e | forwarder
    · rw [added] at registered
      cases registered
    · rw [added] at registered
      cases registered
      exact .stack (Stack.Changes.above forwarder n.stack.app n.stack.outcomes).becomes
  | unregister endpoint => exact .stack (Stack.Changes.above _ n.stack.app n.stack.outcomes).becomes
  | takeOutcome => exact .stack (Stack.Changes.above n.stack.forwarder n.stack.app _).becomes
  | takeOutcomes => exact .stack (Stack.Changes.above n.stack.forwarder n.stack.app _).becomes
  | @addAlarm label arg id n' added =>
    unfold addAlarm at added
    rcases registered : n.alarms.register (.app label) arg with e | ⟨id, alarms⟩
    · rw [registered] at added
      cases added
    · rw [registered] at added
      cases added
      refine .alarms (.granted (r := .register (.app label) arg) ?_)
      rw [Alarms.ask, registered]
      rfl
  | request granted => exact .alarms (.granted granted)
  | wait now => exact ⟨rfl, _, .single (.wait now)⟩
  | medium f => exact .stack (Stack.Changes.radio _).becomes
  | app app => exact .stack (Stack.Changes.above n.stack.forwarder app n.stack.outcomes).becomes

/-! ## Every run -/

/-- In every run of a node, whatever the actions of its alarms do, the link's alarm mirrors the link
    after each operation that sets it, and at every moment, within such an operation too, a link
    that is busy has a next deadline. -/
theorem mirrors_of_arms {method : Method} {capacity : Nat} {config : Config} {radio : ρ} {rng : γ}
    {forwarder : Forwarder α} {app : α} {alarmCapacity : Nat} {fresh : Node ρ γ α κ}
    (built : new (.new method capacity config radio rng) forwarder app alarmCapacity = .ok fresh)
    (run : Relation.ReflTransGen Operates fresh n) :
    (∀ n', n.Arms n' → n'.Mirrors ∧ (n'.stack.link.isBusy = true → n'.nextWakeup.isSome)) ∧
      ∀ history s a, Trace Does (n.stack, n.alarms) history (s, a) → s.link.isBusy = true →
        ∀ now, (s.link.nextDeadline now).isSome := by
  obtain ⟨link, upright, -, known⟩ := new_eq_ok built
  have served : fresh.stack.link.Served := by
    rw [link]
    exact served_new method capacity config radio rng
  have leads : fresh.Leads n := by
    induction run with
    | refl => exact .refl fresh
    | tail _ operates ih => exact ih.trans (leads_of_operates operates)
  have kept {m : Node ρ γ α κ} (leads : fresh.Leads m) :
      m.alarms.Upright ∧ (m.alarms.get? m.linkAlarm).isSome ∧ m.stack.link.Served := by
    obtain ⟨same, history, trace⟩ := leads
    rw [same]
    exact ⟨upright_of_deeds trace upright, known_of_deeds trace known,
      served_of_deeds trace served⟩
  refine ⟨fun n' arms => ?_, fun history s a trace busy now => ?_⟩
  · obtain ⟨m, reached, rfl⟩ := exists_rearm_of_arms arms
    have whole := leads.trans reached
    have mirrors := mirrors_rearm (kept whole).2.1
    refine ⟨mirrors, fun busy => ?_⟩
    obtain ⟨upright, -, served⟩ := kept whole.rearm
    rw [served.isBusy_eq m.rearm.stack.clock] at busy
    obtain ⟨deadline, next⟩ := Option.isSome_iff_exists.mp busy
    exact mirrors.isSome_nextWakeup upright next
  · have still : s.link.Served := served_of_deeds trace (kept leads).2.2
    rw [← still.isBusy_eq now]
    exact busy

/-- An action that takes the link's alarm away and has the link send a packet. -/
def meddle : Unit → AlarmId → Nat → Stack Bench StepGenerator Unit × Alarms (Duty Unit) →
    Except Halt (Stack Bench StepGenerator Unit × Alarms (Duty Unit)) :=
  fun _ _ _ (s, a) =>
    match a.cancel 0 with
    | .error _ => .ok (s, a)
    | .ok a => .ok ({ s with link := (s.link.send (.short 2) [7]).2 }, a)

theorem lawful_meddle : Lawful meddle := by
  rintro label id arg ⟨s, a⟩ after acted
  unfold meddle at acted
  dsimp only at acted
  split at acted <;> rename_i cancelled
  · cases acted
    exact ⟨[], .nil _⟩
  · cases acted
    have sent : s.Becomes { s with link := (s.link.send (.short 2) [7]).2 } :=
      (Stack.Changes.call (.send (.short 2) [7]) rfl).becomes
    exact ⟨_, .cons (.alarms (.granted (r := .cancel 0) cancelled)) (.single (.stack sent))⟩

/-- The application's alarm fires, and its action leaves the link busy and the link's alarm idle.
    The alarm is set before the pass returns. -/
theorem mirrors_of_arms_meddle :
    ∃ fresh added waits rests : Node Bench StepGenerator Unit Unit,
      new (.new .acknowledged 1 { address := .short 1 } {} ⟨0, 0⟩)
          { config := { address := .short 1 }, capacity := 0 } () 2 = .ok fresh ∧
        (fresh.atTick 5).addAlarm () 0 = .ok (1, added) ∧
        added.alarms.ask (.scheduleAt 1 5) = .ok waits.alarms ∧
        waits.process meddle = .ok (.ok 1, rests) ∧ rests.stack.link.isBusy = true ∧
        rests.Mirrors ∧ rests.nextWakeup.isSome := by
  obtain ⟨fresh, added, alarms, rests, built, adds, granted, processed, busy⟩ :
      ∃ (fresh added : Node Bench StepGenerator Unit Unit) (alarms : Alarms (Duty Unit))
        (rests : Node Bench StepGenerator Unit Unit),
        new (.new .acknowledged 1 { address := .short 1 } {} ⟨0, 0⟩)
            { config := { address := .short 1 }, capacity := 0 } () 2 = .ok fresh ∧
          (fresh.atTick 5).addAlarm () 0 = .ok (1, added) ∧
          added.alarms.ask (.scheduleAt 1 5) = .ok alarms ∧
          process meddle { added with alarms } = .ok (.ok 1, rests) ∧
          rests.stack.link.isBusy = true :=
    ⟨_, _, _, _, rfl, rfl, rfl, rfl, rfl⟩
  have run : Relation.ReflTransGen Operates fresh { added with alarms } :=
    .tail (.tail (.single (.wait 5)) (.addAlarm adds)) (.request granted)
  have mirrors := (mirrors_of_arms built run).1 rests (.process lawful_meddle processed)
  exact ⟨fresh, added, { added with alarms }, rests, built, adds, granted, processed, busy,
    mirrors.1, mirrors.2 busy⟩

end Node

end MoteLink
