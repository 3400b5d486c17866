import MoteLink.Proofs.Alarm.Upright

/-!
# The order of the queue

As long as all deadlines lie within half a turn of the clock, which may pass tick zero and may move
from one moment to the next, the queue is sorted by deadline, and alarms for the same tick are in
the order in which they were scheduled last.
-/

namespace MoteLink

namespace Agenda

/-- What an event does to an agenda that is kept by the order of scheduling. -/
def setLast (l : Agenda) (id : AlarmId) : Option Tick → Agenda
  | none => strike id l
  | some deadline => strike id l ++ [(id, deadline)]

theorem dueAt_set {l m : Agenda} (same : ∀ tick, dueAt tick l = dueAt tick m) (id : AlarmId)
    (deadline : Option Tick) (tick : Tick) :
    dueAt tick (l.set id deadline) = dueAt tick (m.setLast id deadline) := by
  cases deadline with
  | none =>
    change dueAt tick (strike id l) = dueAt tick (strike id m)
    rw [dueAt_strike, dueAt_strike, same]
  | some deadline =>
    change dueAt tick (insert id deadline (strike id l)) =
      dueAt tick (strike id m ++ [(id, deadline)])
    rw [dueAt_insert, dueAt_append, dueAt_append, dueAt_strike, dueAt_strike, same]

/-- Only a new entry needs a window. -/
theorem Ordered.set {l : Agenda} {id : AlarmId} {deadline : Option Tick} (ordered : Ordered l)
    (window : deadline.isSome → ∃ base, Within base (l.set id deadline)) :
    Ordered (l.set id deadline) := by
  cases deadline with
  | none => exact ordered.strike id
  | some deadline =>
    obtain ⟨base, within⟩ := window rfl
    exact (ordered.strike id).insert within

end Agenda

variable {κ : Type}

namespace Alarms

variable {a a' : Alarms κ} {id : AlarmId} {l : Agenda} {history : List (Event κ × Alarms κ)}
  {base : Tick}

/-- The scheduled alarms with their deadlines, in the order in which they were scheduled last. -/
def scheduledIn (history : List (Event κ × Alarms κ)) : Agenda :=
  history.foldl (fun l entry =>
    match entry.1.sets? with
    | none => l
    | some (id, deadline) => l.setLast id deadline) []

theorem scheduledIn_concat (history : List (Event κ × Alarms κ)) (e : Event κ) (a : Alarms κ) :
    scheduledIn (history ++ [(e, a)]) =
      match e.sets? with
      | none => scheduledIn history
      | some (id, deadline) => (scheduledIn history).setLast id deadline := by
  rw [scheduledIn, List.foldl_append]
  rfl

/-- All deadlines lie in the half turn that begins at `base`. -/
def InWindow (a : Alarms κ) (base : Tick) : Prop :=
  ∀ id deadline, a.deadline? id = some deadline → Tick.InHalfTurn base deadline

theorem Shows.within (shows : a.Shows l) (window : a.InWindow base) : l.Within base := by
  intro entry member
  exact window entry.1 entry.2 ((shows.mem_iff _ _).mp member)

/-- Setting an alarm keeps the queue in order if all deadlines lie in one window afterwards. -/
theorem Sets.ordered {deadline : Option Tick} (sets : a.Sets id deadline a') (shows : a.Shows l)
    (ordered : l.Ordered) (upright : a.Upright)
    (window : deadline.isSome → ∃ base, a'.InWindow base) :
    a'.Shows (l.set id deadline) ∧ (l.set id deadline).Ordered := by
  have shown := sets.shows shows upright.count_le
  refine ⟨shown, ordered.set fun scheduled => ?_⟩
  obtain ⟨base, window⟩ := window scheduled
  exact ⟨base, shown.within window⟩

theorem Happens.ordered {e : Event κ} (happens : Happens a e a') (shows : a.Shows l)
    (ordered : l.Ordered) (upright : a.Upright) (window : a'.InWindow base) :
    a'.Shows (e.agenda l) ∧ (e.agenda l).Ordered := by
  unfold Event.agenda
  split <;> rename_i sets
  · exact ⟨(happens.keeps sets).shows shows, ordered⟩
  · exact (happens.sets sets).ordered shows ordered upright fun _ => ⟨base, window⟩

/-- For each tick the queue is in the order of scheduling. It is in the order of deadlines as well,
    if at every moment all of them have been in one window. -/
theorem agenda_of_trace {capacity : Nat}
    (trace : Trace Happens ({ capacity } : Alarms κ) history a) :
    ∃ l, a.Shows l ∧ (∀ tick, l.dueAt tick = (scheduledIn history).dueAt tick) ∧
      ((∀ entry ∈ history, ∃ base, entry.2.InWindow base) → l.Ordered) := by
  refine (trace.invariant (K := fun _ => True)
    (I := fun past a => a.Upright ∧ ∃ l, a.Shows l ∧
      (∀ tick, l.dueAt tick = (scheduledIn past).dueAt tick) ∧
      ((∀ entry ∈ past, ∃ base, entry.2.InWindow base) → l.Ordered)) ?_ ?_ fun _ _ => trivial).2
  · exact ⟨upright_new capacity, [], shows_new capacity, fun _ => rfl, fun _ => List.Pairwise.nil⟩
  · rintro past a e a' ⟨upright, l, shows, same, ordered⟩ happens -
    refine ⟨upright.happens happens, e.agenda l, happens.shows shows upright.count_le,
      fun tick => ?_, fun windows => ?_⟩
    · rw [scheduledIn_concat, Event.agenda]
      rcases e.sets? with - | ⟨id, deadline⟩
      · exact same tick
      · exact Agenda.dueAt_set same id deadline tick
    · obtain ⟨earlier, now⟩ := List.forall_mem_append.mp windows
      obtain ⟨base, window⟩ := now _ (List.mem_singleton_self _)
      exact (happens.ordered shows (ordered earlier) upright window).2

/-- The deadline at the head of the queue is the earliest one. -/
theorem Shows.nextDeadline_eq_some_iff (shows : a.Shows l) (ordered : l.Ordered)
    (window : a.InWindow base) {deadline : Tick} :
    a.nextDeadline = some deadline ↔
      (∃ id, a.deadline? id = some deadline) ∧
        ∀ id other, a.deadline? id = some other → deadline - base ≤ other - base := by
  cases l with
  | nil =>
    have none (id : AlarmId) (deadline : Tick) : a.deadline? id ≠ some deadline := by
      rw [Ne, ← shows.mem_iff]
      exact List.not_mem_nil
    simp [Alarms.nextDeadline, shows.queue, none]
  | cons entry rest =>
    obtain ⟨first, tick⟩ := entry
    have booked : a.deadline? first = some tick := (shows.mem_iff _ _).mp List.mem_cons_self
    have next : a.nextDeadline = some tick := by
      simp [Alarms.nextDeadline, shows.queue, booked]
    have earliest (id : AlarmId) (other : Tick) (scheduled : a.deadline? id = some other) :
        tick - base ≤ other - base := by
      rcases List.mem_cons.mp ((shows.mem_iff id other).mpr scheduled) with same | later
      · cases same
        exact UInt32.le_refl _
      · have upTo := (List.pairwise_cons.mp ordered).1 _ later
        exact (Tick.isAfter_eq_false_iff (window _ _ booked) (window _ _ scheduled)).mp upTo
    rw [next]
    constructor
    · rintro same
      cases same
      exact ⟨⟨first, booked⟩, earliest⟩
    · rintro ⟨⟨id, scheduled⟩, least⟩
      have both := UInt32.le_antisymm (earliest id deadline scheduled) (least first tick booked)
      rw [(UInt32.sub_left_inj base).mp both]

/-- If at every moment of a run all deadlines lie in one window, then the queue is the stable sort
    of what is scheduled by deadline, and the deadline that comes next is the earliest one. -/
theorem queue_eq_mergeSort {capacity : Nat}
    (trace : Trace Happens ({ capacity } : Alarms κ) history a)
    (windows : ∀ entry ∈ history, ∃ base, entry.2.InWindow base) (window : a.InWindow base) :
    a.queue = ((scheduledIn history).mergeSort (Agenda.isSooner base)).map Prod.fst ∧
      ((scheduledIn history).map Prod.fst).Nodup ∧
      (∀ id deadline, (id, deadline) ∈ scheduledIn history ↔
        a.state id = .ok (.scheduled deadline)) ∧
      (∀ deadline, a.nextDeadline = some deadline ↔
        (∃ id, a.state id = .ok (.scheduled deadline)) ∧
          ∀ id other, a.state id = .ok (.scheduled other) → deadline - base ≤ other - base) := by
  obtain ⟨l, shows, same, ordered⟩ := agenda_of_trace trace
  have sorted := Agenda.eq_mergeSort (ordered windows) (shows.within window) same
  have perm : l.Perm (scheduledIn history) := sorted ▸ List.mergeSort_perm _ _
  refine ⟨?_, ?_, ?_, ?_⟩
  · rw [shows.queue, ← sorted]
  · exact (perm.map Prod.fst).nodup_iff.mp shows.nodup
  · intro id deadline
    rw [state_eq_scheduled_iff, ← shows.mem_iff, perm.mem_iff]
  · intro deadline
    simp only [state_eq_scheduled_iff]
    exact shows.nextDeadline_eq_some_iff (ordered windows) window

/-- The computed form of a window. -/
def fitsWindow (a : Alarms κ) (base : Tick) : Bool :=
  a.registered.all fun r => r.booking?.all fun booked => Tick.InHalfTurn base booked.1

theorem inWindow_of_fitsWindow (fits : a.fitsWindow base = true) : a.InWindow base := by
  intro id deadline scheduled
  obtain ⟨pass, booked⟩ := deadline?_eq_some_iff.mp scheduled
  exact of_decide_eq_true (forall_booking? fits booked)

/-- The window passes tick zero. The first alarm, scheduled anew for the same tick, goes behind the
    third, and the second one fires last. -/
theorem queue_eq_mergeSort_wrapped :
    ∃ (history : List (Event Unit × Alarms Unit)) (a : Alarms Unit),
      Trace Happens { capacity := 3 } history a ∧
        history.map Prod.fst =
          [.granted (.register () 0), .granted (.register () 0), .granted (.register () 0),
            .granted (.scheduleAt 0 0xffffffff), .granted (.scheduleAt 1 2),
            .granted (.schedule 0xfffffff0 2 15), .granted (.scheduleAt 0 0xffffffff), .newPass,
            .fire 0xffffffff 2] ∧
        a.queue = [0, 1] ∧
        a.queue = ((scheduledIn history).mergeSort (Agenda.isSooner 0xfffffff0)).map Prod.fst ∧
        a.nextDeadline = some 0xffffffff ∧
        ∀ id other, a.state id = .ok (.scheduled other) →
          0xffffffff - 0xfffffff0 ≤ other - 0xfffffff0 := by
  have run : ∃ (history : List (Event Unit × Alarms Unit)) (a : Alarms Unit),
      Trace Happens { capacity := 3 } history a ∧
        history.map Prod.fst =
          [.granted (.register () 0), .granted (.register () 0), .granted (.register () 0),
            .granted (.scheduleAt 0 0xffffffff), .granted (.scheduleAt 1 2),
            .granted (.schedule 0xfffffff0 2 15), .granted (.scheduleAt 0 0xffffffff), .newPass,
            .fire 0xffffffff 2] ∧
        a.queue = [0, 1] ∧ a.nextDeadline = some 0xffffffff ∧
        (history.all fun entry => entry.2.fitsWindow 0xfffffff0) = true ∧
        a.fitsWindow 0xfffffff0 = true :=
    ⟨_, _, .cons (.granted rfl) <| .cons (.granted rfl) <| .cons (.granted rfl) <|
      .cons (.granted rfl) <| .cons (.granted rfl) <| .cons (.granted rfl) <|
      .cons (.granted rfl) <| .cons .newPass <| .single (.fire rfl),
      rfl, rfl, rfl, rfl, rfl⟩
  obtain ⟨history, a, trace, events, queue, next, windows, window⟩ := run
  obtain ⟨sorted, -, -, earliest⟩ := queue_eq_mergeSort trace
    (fun entry member => ⟨_, inWindow_of_fitsWindow (List.all_eq_true.mp windows entry member)⟩)
    (inWindow_of_fitsWindow window)
  exact ⟨history, a, trace, events, queue, sorted, next, ((earliest _).mp next).2⟩

end Alarms

end MoteLink
