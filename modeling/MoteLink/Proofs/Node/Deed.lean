import Mathlib.Logic.Relation
import MoteLink.Proofs.Alarm.Upright
import MoteLink.Proofs.Link.Deadline
import MoteLink.Proofs.Node.Collecting

/-!
# What is done at a node

A stack is changed by calls to its link, by the medium and by the application. What is done at a
node are such changes, events of its alarm table, and the two things that its own code does to the
link's alarm: it serves the link when the alarm fires, and it arms the alarm. A pass whose actions
do nothing else to the stack and to the alarms is done by such deeds, one after the other.
-/

namespace MoteLink

open Link

variable {ρ γ α κ ε : Type}

namespace Stack

variable [Transceiver ρ ε] [RandomSource γ] {s s' s'' : Stack ρ γ α}

/-- One change of a stack, without change of its clock. -/
inductive Changes (s : Stack ρ γ α) : Stack ρ γ α → Prop
  | call (call : Call) {answer : Answer ε} {link : Link ρ γ}
      (performed : s.link.perform s.clock call = .ok (answer, link)) : Changes s { s with link }
  | radio (radio : ρ) : Changes s { s with link := s.link.setRadio radio }
  | above (forwarder : Forwarder α) (app : α) (outcomes : Fifo Outcome) :
      Changes s { s with forwarder, app, outcomes }

/-- Any changes, one after the other. -/
def Becomes (s s' : Stack ρ γ α) : Prop := Relation.ReflTransGen Changes s s'

theorem Changes.becomes (change : s.Changes s') : s.Becomes s' := .single change

namespace Becomes

theorem refl (s : Stack ρ γ α) : s.Becomes s := Relation.ReflTransGen.refl

theorem trans (first : s.Becomes s') (second : s'.Becomes s'') : s.Becomes s'' :=
  Relation.ReflTransGen.trans first second

theorem clock_eq (becomes : s.Becomes s') : s'.clock = s.clock := by
  induction becomes with
  | refl => rfl
  | tail _ change ih => cases change <;> exact ih

theorem served (becomes : s.Becomes s') (served : s.link.Served) : s'.link.Served := by
  induction becomes with
  | refl => exact served
  | tail _ change ih =>
    cases change with
    | call call performed => exact ih.perform performed
    | radio radio => exact ih.setRadio radio
    | above forwarder app outcomes => exact ih

end Becomes

theorem becomes_forward (s : Stack ρ γ α) (d : Descriptor) (payload : Bytes) :
    s.Becomes (s.forward d payload).2 := by
  have asked : s.Becomes { s with link := (s.forward d payload).2.link } := by
    change s.Becomes
      { s with link := (s.forwarder.forward submit s.link s.app s.clock d payload).2.1 }
    rcases s.forwarder.link_forward submit s.link s.app s.clock d payload with same | ⟨sent, asked⟩
    · rw [same]
      exact .refl s
    · rw [asked]
      exact (Changes.call (.submit sent payload) rfl).becomes
  exact asked.trans (Changes.above s.forwarder (s.forward d payload).2.app s.outcomes).becomes

theorem becomes_handleFrame (s : Stack ρ γ α) (frame : Bytes) :
    s.Becomes (s.handleFrame frame).2 := by
  have heard : s.Becomes { s with link := (s.link.receive frame).2 } :=
    (Changes.call (.receive frame) rfl).becomes
  unfold handleFrame
  split <;> rename_i received <;> rw [received] at heard
  · exact heard
  · exact heard.trans (becomes_forward _ _ _)

theorem becomes_of_takeFrame {count count' : Nat} {r : Except (LinkError ε) Bool}
    (taken : takeFrame (count, s) = .ok (r, count', s')) : s.Becomes s' := by
  have fetched (radio : ρ) : s.Becomes { s with link := s.link.setRadio radio } :=
    (Changes.radio radio).becomes
  rw [takeFrame] at taken
  split at taken
  · cases taken
  · cases taken
    exact fetched _
  · cases taken
    exact fetched _
  · cases taken
    exact (fetched _).trans (becomes_handleFrame _ _)

theorem becomes_of_drainRadio [Backlog ρ] {r : Except (LinkError ε) Nat}
    (drained : s.drainRadio = .ok (r, s')) : s.Becomes s' := by
  have keep (t : Nat × Stack ρ γ α) (r : Except (LinkError ε) Bool) (t' : Nat × Stack ρ γ α)
      (reached : s.Becomes t.2) (taken : takeFrame t = .ok (r, t')) : s.Becomes t'.2 :=
    reached.trans (becomes_of_takeFrame taken)
  unfold drainRadio at drained
  split at drained <;> rename_i settled
  · cases drained
  · cases drained
    exact settle_invariant keep (.refl s) settled
  · cases drained
    exact settle_invariant keep (.refl s) settled

theorem becomes_of_collectOne {r : Except (LinkError ε) Bool}
    (taken : s.collectOne = .ok (r, s')) : s.Becomes s' := by
  unfold collectOne at taken
  split at taken <;> rename_i polled
  · cases taken
  all_goals have called := (Changes.call .poll (perform_poll polled)).becomes
  · cases taken
    exact called
  · cases taken
    exact called
  · rename_i outcome link
    cases taken
    exact called.trans (Changes.above s.forwarder s.app (s.outcomes.push outcome)).becomes

theorem becomes_of_service {r : Except (LinkError ε) Unit} (served : s.service = .ok (r, s')) :
    s.Becomes s' := by
  have keep (t : Stack ρ γ α) (r : Except (LinkError ε) Bool) (t' : Stack ρ γ α)
      (reached : s.Becomes t) (taken : t.collectOne = .ok (r, t')) : s.Becomes t' :=
    reached.trans (becomes_of_collectOne taken)
  exact settle_invariant keep (.refl s) served

/-- Unless sensing fails, serving the link leaves no deadline that has passed. -/
theorem isAfter_of_service {deadline : Tick} (served : s.link.Served)
    (serves : s.service = .ok (.ok (), s')) (short : s'.link.ShortWaits s'.clock)
    (next : s'.link.nextDeadline s'.clock = some deadline) :
    Tick.isAfter deadline s'.clock = true ∨ Tick.isAfter s'.clock deadline = false := by
  have keep (t : Stack ρ γ α) (r : Except (LinkError ε) Bool) (t' : Stack ρ γ α)
      (reached : s.Becomes t) (taken : t.collectOne = .ok (r, t')) : s.Becomes t' :=
    reached.trans (becomes_of_collectOne taken)
  obtain ⟨last, reached, rests⟩ := settle_eq_ok keep (.refl s) serves
  unfold collectOne at rests
  split at rests <;> rename_i polled
  · cases rests
  · cases rests
  · cases rests
    exact isAfter_of_poll (reached.served served) polled short next
  · cases rests

/-! ## Arming an alarm -/

omit [Transceiver ρ ε] [RandomSource γ] in
/-- An armed alarm is scheduled for the link's next deadline, or idle if there is none. -/
theorem sets_arm (s : Stack ρ γ α) {a : Alarms κ} {id : AlarmId} (known : (a.get? id).isSome) :
    a.Sets id (s.link.nextDeadline s.clock) (s.arm a id) := by
  have granted {r : Except AlarmError (Alarms κ)}
      (refused : ∀ error, r = .error error ↔ a.get? id = none ∧ error = .unknown id) :
      ∃ a', r = .ok a' := by
    cases r with
    | ok a' => exact ⟨a', rfl⟩
    | error e =>
      rw [((refused e).mp rfl).1] at known
      cases known
  unfold arm
  cases s.link.nextDeadline s.clock with
  | none =>
    obtain ⟨a', ok⟩ := granted (r := a.cancel id) fun _ => Alarms.cancel_eq_error_iff
    simp only [ok]
    exact Alarms.sets_cancel ok
  | some deadline =>
    obtain ⟨a', ok⟩ := granted (r := a.scheduleAt id deadline)
      fun _ => Alarms.scheduleAt_eq_error_iff
    simp only [ok]
    exact Alarms.sets_scheduleAt ok

omit [Transceiver ρ ε] [RandomSource γ] in
/-- Arming an alarm is a request like any other. -/
theorem happens_arm (s : Stack ρ γ α) (a : Alarms κ) (id : AlarmId) :
    ∃ e, Alarms.Happens a e (s.arm a id) := by
  unfold arm
  cases s.link.nextDeadline s.clock with
  | none =>
    rcases asked : a.cancel id with e | a'
    · exact ⟨_, .refused (r := .cancel id) asked⟩
    · exact ⟨_, .granted (r := .cancel id) asked⟩
  | some deadline =>
    rcases asked : a.scheduleAt id deadline with e | a'
    · simp only [asked]
      exact ⟨_, .refused (r := .scheduleAt id deadline) asked⟩
    · simp only [asked]
      exact ⟨_, .granted (r := .scheduleAt id deadline) asked⟩

end Stack

namespace Node

theorem new_eq_ok {link : Link ρ γ} {forwarder : Forwarder α} {app : α} {alarmCapacity : Nat}
    {n : Node ρ γ α κ}
    (built : new link forwarder app alarmCapacity = .ok n) :
    n.stack.link = link ∧ n.alarms.Upright ∧ n.alarms.Shows [] ∧
      (n.alarms.get? n.linkAlarm).isSome := by
  unfold new at built
  rcases registered : ({ capacity := alarmCapacity } : Alarms (Duty κ)).register .link 0
    with e | ⟨id, alarms⟩
  · rw [registered] at built
    cases built
  · rw [registered] at built
    cases built
    have asked : ({ capacity := alarmCapacity } : Alarms (Duty κ)).ask (.register .link 0) =
        .ok alarms := by
      rw [Alarms.ask, registered]
      rfl
    have upright := Alarms.upright_new (κ := Duty κ) alarmCapacity
    refine ⟨rfl, upright.happens (.granted asked), ?_, ?_⟩
    · exact (Alarms.Happens.granted asked).shows (Alarms.shows_new alarmCapacity) (Nat.zero_le _)
    obtain ⟨-, -, rfl⟩ := Alarms.registers_of_ask asked
    unfold Alarms.register at registered
    dsimp only at registered
    split at registered
    · cases registered
    · cases registered
      rfl

/-- One thing that is done at a node. -/
inductive Deed (κ : Type) where
  /-- The stack is changed. -/
  | stack
  | wait (now : Tick)
  | alarms (e : Alarms.Event (Duty κ))
  /-- An alarm fires that serves the link and is armed again; serving it may have failed. -/
  | serve (now : Tick) (id : AlarmId) (ok : Bool)
  | arm (id : AlarmId)

variable [Transceiver ρ ε] [RandomSource γ]

/-- The deed leads from one stack with its alarms to another. -/
inductive Does : Stack ρ γ α × Alarms (Duty κ) → Deed κ → Stack ρ γ α × Alarms (Duty κ) → Prop
  | stack {s s' : Stack ρ γ α} {a : Alarms (Duty κ)} (becomes : s.Becomes s') :
      Does (s, a) .stack (s', a)
  | wait {s : Stack ρ γ α} {a : Alarms (Duty κ)} (now : Tick) :
      Does (s, a) (.wait now) ({ s with clock := now }, a)
  | alarms {s : Stack ρ γ α} {a a' : Alarms (Duty κ)} {e : Alarms.Event (Duty κ)}
      (happens : Alarms.Happens a e a') : Does (s, a) (.alarms e) (s, a')
  | serve {s s' : Stack ρ γ α} {a : Alarms (Duty κ)} {now : Tick} {id : AlarmId}
      {r : Registration (Duty κ)} {result : Except (LinkError ε) Unit}
      (due : a.head now = .due id r) (isLink : r.action = .link)
      (served : s.service = .ok (result, s')) :
      Does (s, a) (.serve now id result.isOk) (s', s'.arm (a.release id) id)
  | arm {s : Stack ρ γ α} {a : Alarms (Duty κ)} (id : AlarmId) :
      Does (s, a) (.arm id) (s, s.arm a id)

variable {t t' last : Stack ρ γ α × Alarms (Duty κ)} {deed : Deed κ}
  {history : List (Deed κ × Stack ρ γ α × Alarms (Duty κ))}

/-- Deeds do nothing to the alarms that cannot happen to an alarm table. -/
theorem Does.trace_alarms (does : Does t deed t') :
    ∃ history, Trace Alarms.Happens t.2 history t'.2 := by
  cases does with
  | stack becomes => exact ⟨[], .nil _⟩
  | wait now => exact ⟨[], .nil _⟩
  | alarms happens => exact ⟨_, .single happens⟩
  | serve due isLink served =>
    obtain ⟨e, arms⟩ := Stack.happens_arm _ _ _
    exact ⟨_, .cons (.fire due) (.single arms)⟩
  | arm id =>
    obtain ⟨e, arms⟩ := Stack.happens_arm _ _ _
    exact ⟨_, .single arms⟩

theorem Does.upright (does : Does t deed t') (upright : t.2.Upright) : t'.2.Upright := by
  obtain ⟨history, trace⟩ := does.trace_alarms
  exact Alarms.upright_of_trace trace upright

/-- An alarm that is registered stays registered. -/
theorem Does.known (does : Does t deed t') {id : AlarmId} (known : (t.2.get? id).isSome) :
    (t'.2.get? id).isSome := by
  obtain ⟨history, trace⟩ := does.trace_alarms
  refine trace.keeps (I := fun a => (a.get? id).isSome) known fun a e a' known happens => ?_
  rw [Alarms.isSome_get?_iff] at known ⊢
  exact Nat.lt_of_lt_of_le known happens.count_mono

/-- Whatever is done, what is in flight at the link fits its phase. -/
theorem Does.served (does : Does t deed t') (served : t.1.link.Served) : t'.1.link.Served := by
  cases does with
  | stack becomes => exact becomes.served served
  | wait now => exact served
  | alarms happens => exact served
  | serve due isLink serves => exact (Stack.becomes_of_service serves).served served
  | arm id => exact served

/-- The clock moves only while the node waits. -/
theorem Does.clock_eq (does : Does t deed t') (still : ∀ now, deed ≠ .wait now) :
    t'.1.clock = t.1.clock := by
  cases does with
  | stack becomes => exact becomes.clock_eq
  | wait now => exact absurd rfl (still now)
  | alarms happens => rfl
  | serve due isLink served => exact (Stack.becomes_of_service served).clock_eq
  | arm id => rfl

theorem upright_of_deeds (trace : Trace Does t history last) (upright : t.2.Upright) :
    last.2.Upright :=
  trace.keeps (I := fun t => t.2.Upright) upright fun _ _ _ upright does => does.upright upright

theorem known_of_deeds {id : AlarmId} (trace : Trace Does t history last)
    (known : (t.2.get? id).isSome) : (last.2.get? id).isSome :=
  trace.keeps (I := fun t => (t.2.get? id).isSome) known fun _ _ _ known does => does.known known

theorem served_of_deeds (trace : Trace Does t history last) (served : t.1.link.Served) :
    last.1.link.Served :=
  trace.keeps (I := fun t => t.1.link.Served) served fun _ _ _ served does => does.served served

/-! ## Passes -/

variable {app : κ → AlarmId → Nat → Stack ρ γ α × Alarms (Duty κ) →
    Except Halt (Stack ρ γ α × Alarms (Duty κ))}
  {now : Tick}

/-- What an application's alarms do is done by deeds. -/
def Lawful (app : κ → AlarmId → Nat → Stack ρ γ α × Alarms (Duty κ) →
    Except Halt (Stack ρ γ α × Alarms (Duty κ))) : Prop :=
  ∀ label id arg before after, app label id arg before = .ok after →
    ∃ history, Trace Does before history after

/-- A pass in single moments: what is done from one to the next, including what the application's
    alarms do. -/
inductive Unfolds (app : κ → AlarmId → Nat → Stack ρ γ α × Alarms (Duty κ) →
      Except Halt (Stack ρ γ α × Alarms (Duty κ))) (now : Tick) :
    List (Deed κ × Stack ρ γ α × Alarms (Duty κ)) → Stack ρ γ α × Alarms (Duty κ) →
      Stack ρ γ α × Alarms (Duty κ) → Prop
  | done {s : Stack ρ γ α} {a : Alarms (Duty κ)} (nothing : a.head now = .done) :
      Unfolds app now [] (s, a) (s, a)
  | drop {s : Stack ρ γ α} {a : Alarms (Duty κ)} {id : AlarmId}
      {moments : List (Deed κ × Stack ρ γ α × Alarms (Duty κ))}
      {last : Stack ρ γ α × Alarms (Duty κ)} (stray : a.head now = .stray id)
      (rest : Unfolds app now moments (s, a.unlink id) last) :
      Unfolds app now ((.alarms (.drop now id), s, a.unlink id) :: moments) (s, a) last
  | link {s s' : Stack ρ γ α} {a : Alarms (Duty κ)} {id : AlarmId} {r : Registration (Duty κ)}
      {result : Except (LinkError ε) Unit}
      {moments : List (Deed κ × Stack ρ γ α × Alarms (Duty κ))}
      {last : Stack ρ γ α × Alarms (Duty κ)} (due : a.head now = .due id r)
      (isLink : r.action = .link) (served : s.service = .ok (result, s'))
      (rest : Unfolds app now moments (s', s'.arm (a.release id) id) last) :
      Unfolds app now ((.serve now id result.isOk, s', s'.arm (a.release id) id) :: moments)
        (s, a) last
  | app {s : Stack ρ γ α} {a : Alarms (Duty κ)} {id : AlarmId} {r : Registration (Duty κ)}
      {label : κ} {after last : Stack ρ γ α × Alarms (Duty κ)}
      {script moments : List (Deed κ × Stack ρ γ α × Alarms (Duty κ))}
      (due : a.head now = .due id r) (isApp : r.action = .app label)
      (acted : app label id r.arg (s, a.release id) = .ok after)
      (done : Trace Does (s, a.release id) script after)
      (rest : Unfolds app now moments after last) :
      Unfolds app now ((.alarms (.fire now id), s, a.release id) :: (script ++ moments)) (s, a) last

theorem unfolds_of_fires (lawful : Lawful app)
    {shots : List (Shot (Duty κ) (Stack ρ γ α))} (fires : Alarms.Fires (act app) now shots t last) :
    ∃ moments, Unfolds app now moments t last := by
  induction fires with
  | done nothing => exact ⟨[], .done nothing⟩
  | stray head rest ih =>
    obtain ⟨moments, later⟩ := ih
    exact ⟨_, .drop head later⟩
  | @due s a id r after shots last head acted rest ih =>
    obtain ⟨moments, later⟩ := ih
    cases duty : r.action with
    | link =>
      rw [duty, act] at acted
      split at acted <;> rename_i served
      · cases acted
      · cases acted
        exact ⟨_, .link head duty served later⟩
    | app label =>
      rw [duty] at acted
      obtain ⟨script, done⟩ := lawful _ _ _ _ _ acted
      exact ⟨_, .app head duty acted done later⟩

namespace Unfolds

variable {moments : List (Deed κ × Stack ρ γ α × Alarms (Duty κ))}

theorem trace (unfolds : Unfolds app now moments t last) : Trace Does t moments last := by
  induction unfolds with
  | done nothing => exact .nil _
  | drop stray rest ih => exact .cons (.alarms (.drop stray)) ih
  | link due isLink served rest ih => exact .cons (.serve due isLink served) ih
  | app due isApp acted done rest ih => exact .cons (.alarms (.fire due)) (done.append ih)

theorem head_eq_done (unfolds : Unfolds app now moments t last) : last.2.head now = .done := by
  induction unfolds with
  | done nothing => exact nothing
  | drop stray rest ih => exact ih
  | link due isLink served rest ih => exact ih
  | app due isApp acted done rest ih => exact ih

end Unfolds

/-- A pass of a node: the radio is drained, the pass begins, these moments follow up to the last
    one, and the link's alarm is armed. -/
structure Completes [Backlog ρ] (app : κ → AlarmId → Nat → Stack ρ γ α × Alarms (Duty κ) →
      Except Halt (Stack ρ γ α × Alarms (Duty κ))) (n : Node ρ γ α κ) (drained : Stack ρ γ α)
    (moments : List (Deed κ × Stack ρ γ α × Alarms (Duty κ)))
    (last : Stack ρ γ α × Alarms (Duty κ)) (n' : Node ρ γ α κ) : Prop where
  drains : ∃ r, n.stack.drainRadio = .ok (r, drained)
  unfolds : Unfolds app drained.clock moments (drained, n.alarms.beginPass) last
  rearms : n' = rearm { n with stack := last.1, alarms := last.2 }

theorem completes_of_process [Backlog ρ] (lawful : Lawful app) {n n' : Node ρ γ α κ}
    {result : Except (LinkError ε) Nat} (processed : n.process app = .ok (result, n')) :
    ∃ drained moments last, n.Completes app drained moments last n' := by
  unfold process at processed
  split at processed <;> rename_i drains
  · cases processed
  · split at processed <;> rename_i fired
    · cases processed
    · cases processed
      obtain ⟨shots, fires, -⟩ := Alarms.fires_of_process fired
      obtain ⟨moments, unfolds⟩ := unfolds_of_fires lawful fires
      exact ⟨_, moments, _, ⟨_, drains⟩, unfolds, rfl⟩

end Node

end MoteLink
