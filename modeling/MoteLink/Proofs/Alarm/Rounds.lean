import MoteLink.Proofs.Alarm.Script
import MoteLink.Proofs.Alarm.Upright

/-!
# The rounds of a pass

Actions that make requests and begin no passes of their own may schedule any alarm for any tick, the
one that fires included, as often as they like. The pass ends all the same: what they schedule bears
its number and waits for the next pass, so each round fires an alarm that has waited since before
the pass, and none fires twice.
-/

namespace MoteLink

variable {κ σ : Type}

/-- What the action of an alarm asks for, told from the alarm, the context and the table. -/
abbrev Wishes (κ σ : Type) := κ → AlarmId → Nat → σ × Alarms κ → List (Alarms.Request κ)

namespace Alarms

/-- The alarms after some requests, whether granted or refused. -/
def askAll (a : Alarms κ) (rs : List (Request κ)) : Alarms κ :=
  rs.foldl (fun a r => (a.reply r).2) a

/-- The action that makes these requests and brings about this context. -/
def asking (wishes : Wishes κ σ) (next : κ → AlarmId → Nat → σ × Alarms κ → σ) : Action κ σ :=
  fun label id arg s => .ok (next label id arg s, s.2.askAll (wishes label id arg s))

/-- An alarm that fires for its deadline. -/
structure Firing (κ σ : Type) extends Shot κ σ where
  deadline : Tick

/-- One round of a pass: the alarm at the head of the queue is due, and its action runs. -/
inductive Round (act : Action κ σ) (now : Tick) :
    σ × Alarms κ → Firing κ σ → σ × Alarms κ → Prop
  | fire {ctx : σ} {a : Alarms κ} {id : AlarmId} {r : Registration κ} {deadline : Tick}
      {after : σ × Alarms κ} (due : a.head now = .due id r)
      (booked : a.deadline? id = some deadline)
      (acted : act r.action id r.arg (ctx, a.release id) = .ok after) :
      Round act now (ctx, a)
        { id, label := r.action, arg := r.arg, before := (ctx, a.release id), after, deadline }
        after

variable {a a' : Alarms κ} {id : AlarmId} {now : Tick}

/-! ## Requests -/

/-- A request sets the alarm that it is for. If there is no such alarm, or if it is for none, it
    leaves all bookings alone. It begins no pass. -/
theorem happens_reply (upright : a.Upright) (r : Request κ) :
    ∃ e, Happens a e (a.reply r).2 ∧ e ≠ .newPass ∧
      ((∃ id, r.target? = some id ∧ e.sets? = some (id, r.deadline?)) ∨
        e.sets? = none ∧ ∀ id, r.target? = some id → a.get? id = none) := by
  unfold reply
  rcases asked : a.ask r with error | after
  · refine ⟨.refused r error, .refused asked, by simp, .inr ⟨rfl, fun id target => ?_⟩⟩
    rcases (ask_eq_error_iff upright.count).mp asked with ⟨other, same, unknown, -⟩ | ⟨none, -⟩
    · cases target.symm.trans same
      exact get?_eq_none_iff.mpr unknown
    · cases target.symm.trans none
  · refine ⟨.granted r, .granted asked, by simp, ?_⟩
    cases target : r.target? with
    | some id => exact .inl ⟨id, rfl, by simp [Event.sets?, target]⟩
    | none => exact .inr ⟨by simp [Event.sets?, target], by simp⟩

/-- What each granted or refused request of an action keeps, the action keeps. -/
theorem askAll_keeps {I : Alarms κ → Prop} {rs : List (Request κ)} (start : I a)
    (keep : ∀ r ∈ rs, ∀ b, I b → I (b.reply r).2) : I (a.askAll rs) := by
  induction rs generalizing a with
  | nil => exact start
  | cons r rs ih =>
    obtain ⟨first, others⟩ := List.forall_mem_cons.mp keep
    exact ih (first a start) others

theorem Upright.askAll (upright : a.Upright) (rs : List (Request κ)) : (a.askAll rs).Upright :=
  askAll_keeps upright fun r _ _ upright =>
    let ⟨_, happens, _⟩ := happens_reply upright r
    upright.happens happens

/-! ## What has waited since before the pass -/

/-- Since a pass began in `start`, these alarms have fired, none of them twice, and nothing has come
    to be booked but under the number of the pass. What is booked otherwise was so at the start and
    has not fired. -/
structure Aged (start : Alarms κ) (fired : List AlarmId) (a : Alarms κ) : Prop where
  upright : a.Upright
  pass : a.pass = start.pass
  nodup : fired.Nodup
  queued : fired ⊆ start.queue
  old : ∀ id deadline pass, a.booking? id = some (deadline, pass) → pass ≠ start.pass →
    start.booking? id = some (deadline, pass) ∧ id ∉ fired

namespace Aged

variable {start : Alarms κ} {fired : List AlarmId}

theorem refl (upright : a.Upright) : Aged a [] a :=
  ⟨upright, rfl, List.nodup_nil, List.nil_subset _, fun _ _ _ booked _ =>
    ⟨booked, List.not_mem_nil⟩⟩

theorem length_le (aged : Aged start fired a) : fired.length ≤ start.queue.length :=
  (aged.nodup.subperm aged.queued).length_le

theorem sets {deadline : Option Tick} (aged : Aged start fired a) (sets : a.Sets id deadline a')
    (upright : a'.Upright) : Aged start fired a' := by
  refine ⟨upright, sets.pass.trans aged.pass, aged.nodup, aged.queued, ?_⟩
  intro other d pass booked old
  rw [sets.bookings] at booked
  by_cases same : other = id
  · -- A booking that is new bears the number of the pass.
    rw [same, Function.update_self] at booked
    obtain ⟨tick, -, pair⟩ := Option.map_eq_some_iff.mp booked
    exact absurd ((Prod.mk.inj pair).2.symm.trans aged.pass) old
  · rw [Function.update_of_ne same] at booked
    exact aged.old other d pass booked old

theorem reply (aged : Aged start fired a) (r : Request κ) : Aged start fired (a.reply r).2 := by
  obtain ⟨e, happens, begun, ⟨id, -, sets⟩ | ⟨none, -⟩⟩ := happens_reply aged.upright r
  · exact aged.sets (happens.sets sets) (aged.upright.happens happens)
  · have keeps := happens.keeps none
    refine ⟨aged.upright.happens happens, (keeps.pass begun).trans aged.pass, aged.nodup,
      aged.queued, ?_⟩
    rw [keeps.bookings]
    exact aged.old

/-- The alarm that fires has waited for its deadline since before the pass, and it is not one that
    has fired already. Whatever its action asks for, it does not come to fire again. -/
theorem fire {r : Registration κ} (aged : Aged start fired a) (upright : start.Upright)
    (due : a.head now = .due id r) (rs : List (Request κ)) :
    start.deadline? id = a.deadline? id ∧
      Aged start (fired ++ [id]) ((a.release id).askAll rs) := by
  obtain ⟨found, deadline, rest, -, booked, -, stamp⟩ := head_eq_due due
  have sets := sets_release (Option.isSome_of_eq_some found)
  obtain ⟨before, unfired⟩ := aged.old id deadline r.pass booked (aged.pass ▸ stamp)
  have scheduled : start.deadline? id = some deadline := deadline?_eq_some_iff.mpr ⟨_, before⟩
  refine ⟨scheduled.trans (deadline?_eq_some_iff.mpr ⟨_, booked⟩).symm, ?_⟩
  have released := aged.sets sets (aged.upright.happens (.fire due))
  refine askAll_keeps ⟨released.upright, released.pass, ?_, ?_, ?_⟩ fun r _ _ aged => aged.reply r
  · rw [← List.concat_eq_append]
    exact aged.nodup.concat unfired
  · obtain ⟨l, shows⟩ := upright.shows
    refine List.append_subset.mpr ⟨aged.queued, ?_⟩
    exact List.cons_subset.mpr ⟨shows.mem_queue_iff.mpr ⟨deadline, scheduled⟩, List.nil_subset _⟩
  · intro other d pass booking old
    obtain ⟨first, unfired⟩ := released.old other d pass booking old
    refine ⟨first, fun member => ?_⟩
    rcases List.mem_append.mp member with earlier | last
    · exact unfired earlier
    · rw [List.mem_singleton.mp last, sets.bookings, Function.update_self] at booking
      cases booking

end Aged

/-! ## All rounds of a pass -/

section Rounds

variable {wishes : Wishes κ σ} {next : κ → AlarmId → Nat → σ × Alarms κ → σ} {s last : σ × Alarms κ}
  {rounds : List (Firing κ σ × (σ × Alarms κ))} {start : Alarms κ} {fired : List AlarmId}

/-- Each of the alarms that fire has waited for its deadline since before the pass, and the deadline
    has come. -/
theorem aged_of_rounds (trace : Trace (Round (asking wishes next) now) s rounds last)
    (upright : s.2.Upright) :
    Aged s.2 (rounds.map (·.1.id)) last.2 ∧
      ∀ round ∈ rounds, s.2.deadline? round.1.id = some round.1.deadline ∧
        Tick.hasReached round.1.deadline now = true := by
  refine trace.invariant (K := fun _ => True)
    (I := fun past t => Aged s.2 (past.map (·.1.id)) t.2 ∧
      ∀ round ∈ past, s.2.deadline? round.1.id = some round.1.deadline ∧
        Tick.hasReached round.1.deadline now = true) ?_ ?_ fun _ _ => trivial
  · exact ⟨.refl upright, List.forall_mem_nil _⟩
  · rintro past t firing after ⟨aged, each⟩ ⟨due, booked, acted⟩ -
    cases acted
    obtain ⟨same, aged'⟩ := aged.fire upright due _
    obtain ⟨-, deadline, -, -, booking, reached, -⟩ := head_eq_due due
    cases (deadline?_eq_some_iff.mpr ⟨_, booking⟩).symm.trans booked
    refine ⟨by rw [List.map_append]; exact aged', fun round member => ?_⟩
    rcases List.mem_append.mp member with earlier | new
    · exact each round earlier
    · rw [List.mem_singleton.mp new]
      exact ⟨same.trans booked, by simp [Tick.hasReached, reached]⟩

/-- With one round for each alarm in the queue that has not fired, and one to see that nothing is
    due, the pass comes to its end. -/
theorem rounds_of_aged (wishes : Wishes κ σ) (next : κ → AlarmId → Nat → σ × Alarms κ → σ)
    (now : Tick) (aged : Aged start fired s.2) (upright : start.Upright) {steps : Nat}
    (enough : fired.length + steps = start.queue.length + 1) (count : Nat) :
    ∃ rounds last, Trace (Round (asking wishes next) now) s rounds last ∧
      last.2.head now = .done ∧
      fireDue (asking wishes next) now steps count s = .ok (count + rounds.length, last) := by
  induction steps generalizing fired count s with
  | zero =>
    have bounded := aged.length_le
    omega
  | succ steps ih =>
    obtain ⟨ctx, a⟩ := s
    rw [fireDue]
    cases head : a.head now with
    | done => exact ⟨[], (ctx, a), .nil _, head, rfl⟩
    | stray id => exact absurd head (aged.upright.head_ne_stray now)
    | due id r =>
      obtain ⟨-, aged'⟩ := aged.fire upright head (wishes r.action id r.arg (ctx, a.release id))
      obtain ⟨-, deadline, -, -, booking, -⟩ := head_eq_due head
      have booked := deadline?_eq_some_iff.mpr ⟨_, booking⟩
      have counted : (fired ++ [id]).length + steps = start.queue.length + 1 := by
        rw [List.length_append, List.length_singleton]
        omega
      obtain ⟨rounds, last, trace, ended, completed⟩ :=
        ih (s := (next r.action id r.arg (ctx, a.release id), _)) aged' counted (count + 1)
      refine ⟨_, last, .cons (.fire head booked rfl) trace, ended, ?_⟩
      rw [List.length_cons, Nat.add_comm rounds.length, ← Nat.add_assoc]
      exact completed

theorem Upright.beginPass (upright : a.Upright) : a.beginPass.Upright :=
  upright.happens .newPass

/-- A pass whose actions only make requests comes to its end. -/
theorem rounds_of_process (upright : a.Upright) (wishes : Wishes κ σ)
    (next : κ → AlarmId → Nat → σ × Alarms κ → σ) (now : Tick) (ctx : σ) :
    ∃ rounds last, Trace (Round (asking wishes next) now) (ctx, a.beginPass) rounds last ∧
      last.2.head now = .done ∧
      process (asking wishes next) now (ctx, a) = .ok (rounds.length, last) := by
  obtain ⟨rounds, last, passed, ended, completed⟩ :=
    rounds_of_aged wishes next now (s := (ctx, a.beginPass)) (.refl upright.beginPass)
      upright.beginPass (Nat.zero_add _) 0
  rw [Nat.zero_add] at completed
  exact ⟨rounds, last, passed, ended, completed⟩

end Rounds

/-- Whatever the actions of a pass ask for, the pass ends. It fires each alarm at most once, and
    only alarms that were scheduled when it began, for the deadline that they had then and that had
    come. -/
theorem process_ends {capacity : Nat} {history : List (Event κ × Alarms κ)}
    (trace : Trace Happens ({ capacity } : Alarms κ) history a) (wishes : Wishes κ σ)
    (next : κ → AlarmId → Nat → σ × Alarms κ → σ) (now : Tick) (ctx : σ) :
    ∃ rounds last,
      Trace (Round (asking wishes next) now) (ctx, a.beginPass) rounds last ∧
        last.2.head now = .done ∧
        process (asking wishes next) now (ctx, a) = .ok (rounds.length, last) ∧
        (rounds.map (·.1.id)).Nodup ∧ rounds.length ≤ a.queue.length ∧
        ∀ round ∈ rounds, a.state round.1.id = .ok (.scheduled round.1.deadline) ∧
          Tick.hasReached round.1.deadline now = true := by
  have upright := upright_of_trace trace (upright_new capacity)
  obtain ⟨rounds, last, passed, ended, completed⟩ := rounds_of_process upright wishes next now ctx
  obtain ⟨aged, each⟩ := aged_of_rounds passed upright.beginPass
  have bounded := aged.length_le
  rw [List.length_map] at bounded
  refine ⟨rounds, last, passed, ended, completed, aged.nodup, bounded, fun round member => ?_⟩
  obtain ⟨scheduled, reached⟩ := each round member
  exact ⟨state_eq_scheduled_iff.mpr scheduled, reached⟩

/-- What an action asks for that sets its alarm anew, twice, and both times for a tick that has
    passed. -/
def overdue : Wishes Unit Unit :=
  fun _ id _ _ => [.scheduleAt id 0, .scheduleAt id 4]

/-- Two such alarms are due. Each fires once, and waits for a tick that has passed in the end. -/
theorem process_ends_overdue :
    ∃ (history : List (Event Unit × Alarms Unit)) (a : Alarms Unit)
        (rounds : List (Firing Unit Unit × (Unit × Alarms Unit))) (last : Unit × Alarms Unit),
      Trace Happens { capacity := 2 } history a ∧
        history.map Prod.fst =
          [.granted (.register () 0), .granted (.register () 0), .granted (.scheduleAt 0 3),
            .granted (.scheduleAt 1 4)] ∧
        Trace (Round (asking overdue fun _ _ _ _ => ()) 5) ((), a.beginPass) rounds last ∧
        process (asking overdue fun _ _ _ _ => ()) 5 ((), a) = .ok (2, last) ∧
        rounds.length = 2 ∧ (rounds.map (·.1.id)).Nodup ∧
        last.2.state 0 = .ok (.scheduled 4) ∧ last.2.head 5 = .done := by
  have run : ∃ (history : List (Event Unit × Alarms Unit)) (a : Alarms Unit)
      (last : Unit × Alarms Unit), Trace Happens { capacity := 2 } history a ∧
        history.map Prod.fst =
          [.granted (.register () 0), .granted (.register () 0), .granted (.scheduleAt 0 3),
            .granted (.scheduleAt 1 4)] ∧
        process (asking overdue fun _ _ _ _ => ()) 5 ((), a) = .ok (2, last) ∧
        last.2.state 0 = .ok (.scheduled 4) :=
    ⟨_, _, _, .cons (.granted rfl) <| .cons (.granted rfl) <| .cons (.granted rfl) <|
      .single (.granted rfl), rfl, rfl, rfl⟩
  obtain ⟨history, a, last, trace, events, completed, state⟩ := run
  obtain ⟨rounds, last', passed, ended, counted, nodup, -⟩ :=
    process_ends trace overdue (fun _ _ _ _ => ()) 5 ()
  have same := Except.ok.inj (completed.symm.trans counted)
  obtain ⟨count, rfl⟩ := Prod.mk.inj same
  exact ⟨history, a, rounds, last, trace, events, passed, completed, count.symm, nodup, state,
    ended⟩

end Alarms

end MoteLink
