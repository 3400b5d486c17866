import Mathlib.Data.List.Perm.Subperm
import MoteLink.Proofs.Alarm.Agenda
import MoteLink.Proofs.Alarm.InPlace

/-!
# The queue and the alarms that are scheduled

Whatever happens to an alarm table, its queue holds the scheduled alarms, each once. So there is
room in the queue for every alarm that is registered, and a pass never meets a number that has no
place there.
-/

namespace MoteLink

namespace Agenda

/-- What an event does to an agenda that is kept by deadlines. -/
def set (l : Agenda) (id : AlarmId) : Option Tick → Agenda
  | none => strike id l
  | some deadline => insert id deadline (strike id l)

end Agenda

variable {κ : Type}

namespace Alarms

variable {a a' : Alarms κ} {e : Event κ} {l : Agenda} {id : AlarmId} {deadline : Tick}

/-- The agenda lists the scheduled alarms with their deadlines, in the order of the queue. -/
structure Shows (a : Alarms κ) (l : Agenda) : Prop where
  queue : a.queue = l.map Prod.fst
  nodup : (l.map Prod.fst).Nodup
  mem_iff : ∀ id deadline, (id, deadline) ∈ l ↔ a.deadline? id = some deadline

/-- The queue holds the scheduled alarms, each once, and there are not too many alarms. -/
structure Upright (a : Alarms κ) : Prop where
  shows : ∃ l, a.Shows l
  count : a.registered.length ≤ min a.capacity 256

namespace Shows

theorem mem_queue_iff (shows : a.Shows l) :
    id ∈ a.queue ↔ ∃ deadline, a.deadline? id = some deadline := by
  simp only [shows.queue, List.mem_map, Prod.exists, exists_and_right, exists_eq_right,
    shows.mem_iff]

theorem unqueued (shows : a.Shows l) (idle : a.booking? id = none) : id ∉ a.queue := by
  rw [shows.mem_queue_iff, deadline?_eq_none_iff.mpr idle]
  simp

/-- There is room in the queue for an alarm that is registered. -/
theorem room (shows : a.Shows l) (known : (a.get? id).isSome)
    (count : a.registered.length ≤ a.capacity) : (a.queue.erase id).length < a.capacity := by
  have nodup : a.queue.Nodup := shows.queue ▸ shows.nodup
  -- The alarms in the queue and this one have different numbers, all of them less than the count.
  have distinct : ((id :: a.queue.erase id).map UInt8.toNat).Nodup := by
    refine List.Nodup.map (fun x y => UInt8.toNat_inj.mp) (List.nodup_cons.mpr ⟨?_, nodup.erase id⟩)
    exact fun member => (nodup.mem_erase_iff.mp member).1 rfl
  have bounded : (id :: a.queue.erase id).map UInt8.toNat ⊆ List.range a.registered.length := by
    intro place member
    obtain ⟨other, mem, rfl⟩ := List.mem_map.mp member
    rw [List.mem_range, ← isSome_get?_iff]
    rcases List.mem_cons.mp mem with rfl | mem
    · exact known
    · obtain ⟨deadline, booked⟩ := shows.mem_queue_iff.mp (List.mem_of_mem_erase mem)
      obtain ⟨pass, booked⟩ := deadline?_eq_some_iff.mp booked
      exact isSome_get?_of_booking? booked
  have fewer := (distinct.subperm bounded).length_le
  simp only [List.length_map, List.length_cons, List.length_range] at fewer
  omega

end Shows

/-- An alarm goes into the queue where its deadline goes into the agenda. -/
theorem map_fst_insert (shown : ∀ entry ∈ l, a.deadline? entry.1 = some entry.2) :
    a.insertByDeadline id deadline (l.map Prod.fst) = (l.insert id deadline).map Prod.fst := by
  have again : l = (l.map Prod.fst).map fun id => (id, (a.deadline? id).getD deadline) := by
    rw [List.map_map]
    refine (List.map_id l).symm.trans (List.map_congr_left fun entry member => ?_)
    simp [shown entry member]
  generalize l.map Prod.fst = queue at again ⊢
  subst again
  unfold insertByDeadline Agenda.insert
  simp only [← List.map_reverse, List.takeWhile_map, List.dropWhile_map, List.map_append,
    List.map_cons, List.map_map]
  simp [Function.comp_def, Agenda.isLater]

/-- What is set in the table is set in the agenda. -/
theorem Sets.shows {deadline : Option Tick} (sets : a.Sets id deadline a') (shows : a.Shows l)
    (count : a.registered.length ≤ a.capacity) : a'.Shows (l.set id deadline) := by
  have queue := sets.queue shows.unqueued
  have rest : ∀ entry ∈ l.strike id, a'.deadline? entry.1 = some entry.2 := by
    intro entry member
    obtain ⟨listed, other⟩ := Agenda.mem_strike.mp member
    rw [sets.deadline?_eq, Function.update_of_ne other]
    exact (shows.mem_iff _ _).mp listed
  have erased : a.queue.erase id = (l.strike id).map Prod.fst := by
    rw [Agenda.map_fst_strike shows.nodup, shows.queue]
  have nodup : ((l.strike id).map Prod.fst).Nodup := by
    rw [Agenda.map_fst_strike shows.nodup]
    exact shows.nodup.erase id
  cases deadline with
  | none =>
    refine ⟨queue.trans erased, nodup, fun other tick => ?_⟩
    by_cases same : other = id
    · subst same
      simp [Agenda.set, sets.deadline?_eq]
    · simp [Agenda.set, sets.deadline?_eq, same, shows.mem_iff]
  | some deadline =>
    refine ⟨?_, ?_, fun other tick => ?_⟩
    · rw [queue]
      simp only [if_pos (shows.room sets.known count)]
      rw [erased, map_fst_insert rest]
      rfl
    · refine Agenda.nodup_insert nodup fun member => ?_
      obtain ⟨entry, listed, same⟩ := List.mem_map.mp member
      exact (Agenda.mem_strike.mp listed).2 same
    · by_cases same : other = id
      · subst same
        simp [Agenda.set, Agenda.mem_insert, sets.deadline?_eq, eq_comm]
      · simp [Agenda.set, Agenda.mem_insert, sets.deadline?_eq, same, shows.mem_iff]

/-- What an event that sets no alarm leaves alone. -/
theorem Keeps.shows (keeps : a.Keeps e a') (shows : a.Shows l) : a'.Shows l := by
  refine ⟨?_, shows.nodup, fun id deadline => ?_⟩
  · rcases keeps.queue with same | ⟨id, rest, queued, idle⟩
    · rw [same, shows.queue]
    · -- A number that is not booked has no place in the queue.
      refine absurd ?_ (shows.unqueued idle)
      rw [queued]
      exact List.mem_cons_self
  · rw [deadline?_eq, keeps.bookings, ← deadline?_eq]
    exact shows.mem_iff id deadline

/-- The agenda after an event. -/
def Event.agenda (e : Event κ) (l : Agenda) : Agenda :=
  match e.sets? with
  | none => l
  | some (id, deadline) => l.set id deadline

theorem Happens.shows (happens : Happens a e a') (shows : a.Shows l)
    (count : a.registered.length ≤ a.capacity) : a'.Shows (e.agenda l) := by
  unfold Event.agenda
  split <;> rename_i sets
  · exact (happens.keeps sets).shows shows
  · exact (happens.sets sets).shows shows count

theorem shows_new (capacity : Nat) : ({ capacity } : Alarms κ).Shows [] := by
  refine ⟨rfl, List.nodup_nil, fun id deadline => ?_⟩
  simp [deadline?, get?]

theorem upright_new (capacity : Nat) : ({ capacity } : Alarms κ).Upright :=
  ⟨⟨[], shows_new capacity⟩, Nat.zero_le _⟩

theorem Upright.count_le (upright : a.Upright) : a.registered.length ≤ a.capacity :=
  Nat.le_trans upright.count (Nat.min_le_left _ _)

theorem Upright.happens (upright : a.Upright) (happens : Happens a e a') : a'.Upright := by
  obtain ⟨l, shows⟩ := upright.shows
  exact ⟨⟨e.agenda l, happens.shows shows upright.count_le⟩, happens.count_le upright.count⟩

theorem upright_of_trace {history : List (Event κ × Alarms κ)} (trace : Trace Happens a history a')
    (upright : a.Upright) : a'.Upright :=
  trace.keeps upright fun _ _ _ upright happens => upright.happens happens

theorem capacity_of_trace {history : List (Event κ × Alarms κ)}
    (trace : Trace Happens a history a') : a'.capacity = a.capacity :=
  trace.keeps (I := fun b => b.capacity = a.capacity) rfl
    fun _ _ _ same happens => happens.capacity.trans same

namespace Upright

variable (upright : a.Upright)
include upright

theorem head_ne_stray (now : Tick) : a.head now ≠ .stray id := by
  intro stray
  obtain ⟨l, shows⟩ := upright.shows
  obtain ⟨rest, queued, idle⟩ := head_eq_stray stray
  refine shows.unqueued idle ?_
  rw [queued]
  exact List.mem_cons_self

theorem isSome_nextDeadline_iff : a.nextDeadline.isSome ↔ a.hasPending = true := by
  obtain ⟨l, shows⟩ := upright.shows
  rw [hasPending_iff]
  unfold nextDeadline
  cases queued : a.queue with
  | nil => simp
  | cons id rest =>
    have member : id ∈ a.queue := by
      rw [queued]
      exact List.mem_cons_self
    obtain ⟨deadline, booked⟩ := shows.mem_queue_iff.mp member
    simp [booked]

end Upright

/-! ## Refusals -/

section Refusals

variable {error : AlarmError}

theorem scheduleAt_eq_error_iff :
    a.scheduleAt id deadline = .error error ↔ a.get? id = none ∧ error = .unknown id := by
  unfold scheduleAt
  rcases a.get? id with - | r <;> simp [eq_comm]

theorem cancel_eq_error_iff :
    a.cancel id = .error error ↔ a.get? id = none ∧ error = .unknown id := by
  unfold cancel
  rcases a.get? id with - | r
  · simp [eq_comm]
  · by_cases idle : r.state = .idle <;> simp [idle]

theorem rebind_eq_error_iff {action : κ} {arg : Nat} :
    a.rebind id action arg = .error error ↔ a.get? id = none ∧ error = .unknown id := by
  rw [← cancel_eq_error_iff]
  unfold rebind
  split <;> rename_i cancelled <;> simp [cancelled]

theorem register_eq_error_iff {action : κ} {arg : Nat}
    (count : a.registered.length ≤ min a.capacity 256) :
    a.register action arg = .error error ↔
      a.registered.length = min a.capacity 256 ∧ error = .tableFull := by
  have full : (255 < a.registered.length ∨ a.capacity ≤ a.registered.length) ↔
      a.registered.length = min a.capacity 256 := by
    omega
  unfold register
  simp only [full]
  split <;> rename_i place <;> simp [place, eq_comm]

/-- A request is refused for an alarm that is not registered, or if no further one can be. -/
theorem ask_eq_error_iff {r : Request κ} (count : a.registered.length ≤ min a.capacity 256) :
    a.ask r = .error error ↔
      (∃ id, r.target? = some id ∧ a.registered.length ≤ id.toNat ∧ error = .unknown id) ∨
        r.target? = none ∧ a.registered.length = min a.capacity 256 ∧ error = .tableFull := by
  simp only [← get?_eq_none_iff]
  cases r with
  | register action arg =>
    have refused : a.ask (.register action arg) = .error error ↔
        a.register action arg = .error error := by
      change (a.register action arg).map Prod.snd = _ ↔ _
      rcases a.register action arg with failed | registered <;> simp [Except.map]
    simp [refused, register_eq_error_iff count, Request.target?]
  | rebind id action arg => simp [ask, rebind_eq_error_iff, Request.target?]
  | schedule now id delay => simp [ask, schedule, scheduleAt_eq_error_iff, Request.target?]
  | scheduleAt id deadline => simp [ask, scheduleAt_eq_error_iff, Request.target?]
  | cancel id => simp [ask, cancel_eq_error_iff, Request.target?]

end Refusals

/-! ## Every run -/

/-- At every moment of every run, in and between passes and the passes that their actions begin,
    the queue holds the scheduled alarms, each once. So there is room for every alarm that is put
    into it, and no pass meets a number that has no place there. A request that is refused in place
    leaves the table as it was. -/
theorem queue_of_trace {capacity : Nat} {history : List (Event κ × Alarms κ)}
    (trace : Trace Happens ({ capacity } : Alarms κ) history a) :
    a.queue.Nodup ∧
      (∀ id, id ∈ a.queue ↔ ∃ deadline, a.state id = .ok (.scheduled deadline)) ∧
      (∀ id ∈ a.queue, id.toNat < a.registered.length) ∧
      a.registered.length ≤ min capacity 256 ∧
      (∀ id deadline a', a.scheduleAt id deadline = .ok a' →
        (a.queue.erase id).length < capacity ∧
          a'.queue = a'.insertByDeadline id deadline (a.queue.erase id)) ∧
      (∀ now id, a.head now ≠ .stray id) ∧
      (a.nextDeadline.isSome ↔ a.hasPending = true) ∧
      (∀ r error, a.ask r = .error error ↔
        (∃ id, r.target? = some id ∧ a.registered.length ≤ id.toNat ∧ error = .unknown id) ∨
          r.target? = none ∧ a.registered.length = min capacity 256 ∧ error = .tableFull) ∧
      ∀ r, (InPlace.ask r).run a =
        match a.ask r with
        | .ok a' => .ok () a'
        | .error error => .error error a := by
  have upright := upright_of_trace trace (upright_new capacity)
  have room : a.capacity = capacity := capacity_of_trace trace
  obtain ⟨l, shows⟩ := upright.shows
  have count := upright.count
  refine ⟨shows.queue ▸ shows.nodup, ?_, ?_, room ▸ count, ?_,
    fun now id => upright.head_ne_stray now, upright.isSome_nextDeadline_iff, ?_, ?_⟩
  · intro id
    simp only [shows.mem_queue_iff, state_eq_scheduled_iff]
  · intro id member
    obtain ⟨deadline, booked⟩ := shows.mem_queue_iff.mp member
    obtain ⟨pass, booked⟩ := deadline?_eq_some_iff.mp booked
    exact isSome_get?_iff.mp (isSome_get?_of_booking? booked)
  · intro id deadline a' ok
    have sets := sets_scheduleAt ok
    have fits := shows.room sets.known upright.count_le
    refine ⟨room ▸ fits, ?_⟩
    rw [sets.queue shows.unqueued]
    exact if_pos fits
  · intro r error
    rw [ask_eq_error_iff count, room]
  · intro r
    rw [InPlace.run_ask]
    cases a.ask r <;> rfl

/-- An action that schedules its alarm anew and begins a pass of its own. -/
def passAgain : Action Unit Unit :=
  fun _ id _ (ctx, a) =>
    match a.scheduleAt id 9 with
    | .error _ => .ok (ctx, a)
    | .ok a => (passWithin 3 (fun _ _ _ s => .ok s) 5 (ctx, a)).map Prod.snd

theorem trace_of_passAgain {label : Unit} {arg : Nat} {before after : Unit × Alarms Unit}
    (acted : passAgain label id arg before = .ok after) :
    ∃ history, Trace Happens before.2 history after.2 := by
  obtain ⟨ctx, a⟩ := before
  unfold passAgain at acted
  dsimp only at acted
  split at acted <;> rename_i scheduled
  · cases acted
    exact ⟨[], .nil a⟩
  · rename_i later
    rcases passed : passWithin 3 (fun _ _ _ s => .ok s) 5 (ctx, later) with halt | ⟨fired, last⟩
    · rw [passed] at acted
      cases acted
    · rw [passed] at acted
      cases acted
      obtain ⟨history, trace⟩ := trace_of_passWithin passed fun _ _ _ before after same => by
        cases same
        exact ⟨[], .nil before.2⟩
      exact ⟨_, .cons (.granted (r := .scheduleAt id 9) scheduled) trace⟩

/-- Two alarms are due. The first one's action begins a pass that fires the second. -/
theorem queue_of_trace_passAgain :
    ∃ (first second both after : Alarms Unit) (history : List (Event Unit × Alarms Unit)),
      ({ capacity := 2 } : Alarms Unit).register () 0 = .ok (0, first) ∧
        first.register () 0 = .ok (1, second) ∧
        (second.scheduleAt 0 3).bind (·.scheduleAt 1 4) = .ok both ∧
        passWithin 3 passAgain 5 ((), both) = .ok (1, (), after) ∧
        Trace Happens { capacity := 2 } history after ∧ after.queue = [0] ∧
        after.queue.Nodup ∧ (∀ now id, after.head now ≠ .stray id) := by
  have setUp : ∃ (history : List (Event Unit × Alarms Unit)) (first second both : Alarms Unit),
      ({ capacity := 2 } : Alarms Unit).register () 0 = .ok (0, first) ∧
        first.register () 0 = .ok (1, second) ∧
        (second.scheduleAt 0 3).bind (·.scheduleAt 1 4) = .ok both ∧
        Trace Happens { capacity := 2 } history both ∧
        ∃ after, passWithin 3 passAgain 5 ((), both) = .ok (1, (), after) ∧ after.queue = [0] :=
    ⟨_, _, _, _, rfl, rfl, rfl,
      .cons (.granted (r := .register () 0) rfl) <| .cons (.granted (r := .register () 0) rfl) <|
        .cons (.granted (r := .scheduleAt 0 3) rfl) <|
        .single (.granted (r := .scheduleAt 1 4) rfl),
      _, rfl, rfl⟩
  obtain ⟨before, first, second, both, one, two, scheduled, start, after, passed, queue⟩ := setUp
  obtain ⟨history, trace⟩ := trace_of_passWithin passed fun _ _ _ _ _ => trace_of_passAgain
  have whole := start.append trace
  obtain ⟨nodup, -, -, -, -, settled, -⟩ := queue_of_trace whole
  exact ⟨first, second, both, after, before ++ history, one, two, scheduled, passed, whole, queue,
    nodup, settled⟩

end Alarms

end MoteLink
