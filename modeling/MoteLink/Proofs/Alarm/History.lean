import Mathlib.Logic.Function.Basic
import MoteLink.Proofs.Alarm.Firing
import MoteLink.Proofs.Trace

/-!
# What happens to an alarm table

Requests, granted or refused, and the steps of passes are all that happens to an alarm table. The
steps are kept apart, so that a pass whose actions make requests and begin passes of their own is a
trace like any other.
-/

namespace MoteLink

variable {κ σ : Type}

namespace Alarms

/-- What can be asked of an alarm table. -/
inductive Request (κ : Type) where
  | register (action : κ) (arg : Nat)
  | rebind (id : AlarmId) (action : κ) (arg : Nat)
  | schedule (now : Tick) (id : AlarmId) (delay : UInt32)
  | scheduleAt (id : AlarmId) (deadline : Tick)
  | cancel (id : AlarmId)
  deriving DecidableEq, Repr

namespace Request

/-- The alarm that is asked for. A registration asks for none that is there. -/
def target? : Request κ → Option AlarmId
  | .register _ _ => none
  | .rebind id _ _ => some id
  | .schedule _ id _ => some id
  | .scheduleAt id _ => some id
  | .cancel id => some id

/-- The deadline that the alarm is to have. -/
def deadline? : Request κ → Option Tick
  | .schedule now _ delay => some (now + delay)
  | .scheduleAt _ deadline => some deadline
  | _ => none

end Request

/-- The alarms after a request. -/
def ask (a : Alarms κ) : Request κ → Except AlarmError (Alarms κ)
  | .register action arg => (a.register action arg).map Prod.snd
  | .rebind id action arg => a.rebind id action arg
  | .schedule now id delay => a.schedule now id delay
  | .scheduleAt id deadline => a.scheduleAt id deadline
  | .cancel id => a.cancel id

/-- One thing that happens to an alarm table. -/
inductive Event (κ : Type) where
  | granted (r : Request κ)
  | refused (r : Request κ) (e : AlarmError)
  | newPass
  | fire (now : Tick) (id : AlarmId)
  /-- A number that has no place in the queue is taken out of it. -/
  | drop (now : Tick) (id : AlarmId)
  deriving DecidableEq, Repr

/-- The alarm that an event schedules or makes idle, with its deadline in the first case. -/
def Event.sets? : Event κ → Option (AlarmId × Option Tick)
  | .granted r => r.target?.map fun id => (id, r.deadline?)
  | .fire _ id => some (id, none)
  | _ => none

/-- The event leads from one alarm table to another. -/
inductive Happens : Alarms κ → Event κ → Alarms κ → Prop
  | granted {a a' : Alarms κ} {r : Request κ} (ok : a.ask r = .ok a') : Happens a (.granted r) a'
  | refused {a : Alarms κ} {r : Request κ} {e : AlarmError} (error : a.ask r = .error e) :
      Happens a (.refused r e) a
  | newPass {a : Alarms κ} : Happens a .newPass a.beginPass
  | fire {a : Alarms κ} {now : Tick} {id : AlarmId} {r : Registration κ}
      (due : a.head now = .due id r) : Happens a (.fire now id) (a.release id)
  | drop {a : Alarms κ} {now : Tick} {id : AlarmId} (stray : a.head now = .stray id) :
      Happens a (.drop now id) (a.unlink id)

/-! ## Passes -/

section Passes

variable {act : Action κ σ} {now : Tick} {shots : List (Shot κ σ)} {s last : σ × Alarms κ}

/-- What the steps of a pass and the actions that it calls do, the pass does. -/
theorem Fires.follows {R : σ × Alarms κ → σ × Alarms κ → Prop} (fires : Fires act now shots s last)
    (refl : ∀ t, R t t) (trans : ∀ t u v, R t u → R u v → R t v)
    (stray : ∀ ctx a id, a.head now = .stray id → R (ctx, a) (ctx, a.unlink id))
    (due : ∀ shot ∈ shots, ∀ a r, a.head now = .due shot.id r → shot.label = r.action →
      shot.before.2 = a.release shot.id → R (shot.before.1, a) shot.after) : R s last := by
  induction fires with
  | done nothing => exact refl _
  | stray head rest ih => exact trans _ _ _ (stray _ _ _ head) (ih due)
  | due head acted rest ih =>
    obtain ⟨first, others⟩ := List.forall_mem_cons.mp due
    exact trans _ _ _ (first _ _ head rfl rfl) (ih others)

theorem trace_of_fires (fires : Fires act now shots s last)
    (each : ∀ shot ∈ shots, ∃ history, Trace Happens shot.before.2 history shot.after.2) :
    ∃ history, Trace Happens s.2 history last.2 := by
  refine fires.follows (R := fun t u => ∃ history, Trace Happens t.2 history u.2) ?_ ?_ ?_ ?_
  · exact fun t => ⟨[], .nil t.2⟩
  · rintro t u v ⟨first, start⟩ ⟨second, next⟩
    exact ⟨first ++ second, start.append next⟩
  · exact fun ctx a id head => ⟨_, .single (.drop head)⟩
  · intro shot fired a r head _ released
    obtain ⟨history, trace⟩ := each shot fired
    exact ⟨_, .cons (.fire head) (released ▸ trace)⟩

/-- A pass whose actions do nothing else to the alarms than what can happen to them is such a thing
    itself, so actions may begin passes of this kind. -/
theorem trace_of_passWithin {rounds fired : Nat}
    (completed : passWithin rounds act now s = .ok (fired, last))
    (each : ∀ label id arg before after, act label id arg before = .ok after →
      ∃ history, Trace Happens before.2 history after.2) :
    ∃ history, Trace Happens s.2 history last.2 := by
  obtain ⟨shots, fires, -⟩ := fires_of_fireDue completed
  have acted : ∀ shot ∈ shots, ∃ history, Trace Happens shot.before.2 history shot.after.2 := by
    intro shot fired
    exact each _ _ _ _ _ (fires.acted shot fired)
  obtain ⟨history, trace⟩ := trace_of_fires fires acted
  exact ⟨_, .cons .newPass trace⟩

end Passes

/-! ## Bookings -/

end Alarms

/-- Deadline of an alarm and the pass in which it was scheduled, if it is scheduled. -/
def Registration.booking? (r : Registration κ) : Option (Tick × UInt32) :=
  match r.state with
  | .idle => none
  | .scheduled deadline => some (deadline, r.pass)

namespace Alarms

variable {a a' : Alarms κ} {e : Event κ} {id : AlarmId} {r : Registration κ} {deadline now : Tick}

def booking? (a : Alarms κ) (id : AlarmId) : Option (Tick × UInt32) :=
  (a.get? id).bind Registration.booking?

theorem deadline?_eq (a : Alarms κ) (id : AlarmId) :
    a.deadline? id = (a.booking? id).map Prod.fst := by
  unfold deadline? booking?
  rcases a.get? id with - | ⟨action, arg, - | deadline, pass⟩ <;> rfl

theorem deadline?_eq_some_iff :
    a.deadline? id = some deadline ↔ ∃ pass, a.booking? id = some (deadline, pass) := by
  simp [deadline?_eq]

theorem deadline?_eq_none_iff : a.deadline? id = none ↔ a.booking? id = none := by
  simp [deadline?_eq]

theorem state_eq_scheduled_iff :
    a.state id = .ok (.scheduled deadline) ↔ a.deadline? id = some deadline := by
  unfold state deadline?
  rcases a.get? id with - | ⟨action, arg, - | deadline, pass⟩ <;> simp

theorem state_eq_idle_iff :
    a.state id = .ok .idle ↔ (a.get? id).isSome ∧ a.deadline? id = none := by
  unfold state deadline?
  rcases a.get? id with - | ⟨action, arg, - | deadline, pass⟩ <;> simp

theorem get?_eq_none_iff : a.get? id = none ↔ a.registered.length ≤ id.toNat :=
  List.getElem?_eq_none_iff

theorem isSome_get?_iff : (a.get? id).isSome ↔ id.toNat < a.registered.length := by
  simp [get?]

theorem isSome_get?_of_booking? {booked : Tick × UInt32} (booking : a.booking? id = some booked) :
    (a.get? id).isSome := by
  obtain ⟨r, found, -⟩ := Option.bind_eq_some_iff.mp booking
  rw [found, Option.isSome_some]

theorem get?_modify_of_ne {other : AlarmId} (a : Alarms κ) (f : Registration κ → Registration κ)
    (ne : other ≠ id) : (a.modify id f).get? other = a.get? other := by
  have apart : id.toNat ≠ other.toNat := fun same => ne (UInt8.toNat_inj.mp same).symm
  exact List.getElem?_modify_ne _ _ apart

theorem booking?_modify (a : Alarms κ) (id : AlarmId) (f : Registration κ → Registration κ) :
    (a.modify id f).booking? =
      Function.update a.booking? id (((a.get? id).map f).bind Registration.booking?) := by
  funext other
  by_cases same : other = id
  · subst same
    simp [booking?, get?, modify]
  · rw [Function.update_of_ne same, booking?, get?_modify_of_ne a f same, booking?]

/-- What all registrations have in common is computed from the table. -/
theorem forall_booking? {p : Tick × UInt32 → Bool} {booked : Tick × UInt32}
    (all : (a.registered.all fun r => r.booking?.all p) = true)
    (booking : a.booking? id = some booked) : p booked = true := by
  obtain ⟨r, found, held⟩ := Option.bind_eq_some_iff.mp booking
  have own := List.all_eq_true.mp all r (List.mem_of_getElem? found)
  rw [held] at own
  exact own

/-- The head of the queue is stray, has to wait, or is due. It has to wait for its deadline, or for
    the next pass because it was scheduled in this one. -/
theorem head_cases (a : Alarms κ) (now : Tick) :
    (a.queue = [] ∧ a.head now = .done) ∨
      ∃ id rest, a.queue = id :: rest ∧
        ((a.booking? id = none ∧ a.head now = .stray id) ∨
          ∃ r deadline, a.get? id = some r ∧ a.booking? id = some (deadline, r.pass) ∧
            (((Tick.isAfter deadline now = true ∨ r.pass = a.pass) ∧ a.head now = .done) ∨
              ((Tick.isAfter deadline now = false ∧ r.pass ≠ a.pass) ∧
                a.head now = .due id r))) := by
  unfold head
  cases queued : a.queue with
  | nil => exact .inl ⟨rfl, rfl⟩
  | cons id rest =>
    refine .inr ⟨id, rest, rfl, ?_⟩
    cases found : a.get? id with
    | none => exact .inl ⟨by simp [booking?, found], by simp [found]⟩
    | some r =>
      cases state : r.state with
      | idle =>
        refine .inl ⟨?_, by simp [found, state]⟩
        simp [booking?, found, Registration.booking?, state]
      | scheduled deadline =>
        refine .inr ⟨r, deadline, rfl, by simp [booking?, found, Registration.booking?, state], ?_⟩
        by_cases waits : Tick.isAfter deadline now = true ∨ r.pass = a.pass
        · exact .inl ⟨waits, by simp [found, state, waits]⟩
        · rw [not_or, Bool.not_eq_true] at waits
          exact .inr ⟨waits, by simp [found, state, waits]⟩

theorem head_eq_due (due : a.head now = .due id r) :
    a.get? id = some r ∧ ∃ deadline rest, a.queue = id :: rest ∧
      a.booking? id = some (deadline, r.pass) ∧ Tick.isAfter deadline now = false ∧
      r.pass ≠ a.pass := by
  rcases a.head_cases now with ⟨-, done⟩ | ⟨first, rest, queued, ⟨-, stray⟩ |
    ⟨registration, deadline, found, booked, ⟨-, done⟩ | ⟨ready, same⟩⟩⟩
  · cases done.symm.trans due
  · cases stray.symm.trans due
  · cases done.symm.trans due
  · cases same.symm.trans due
    exact ⟨found, deadline, rest, queued, booked, ready⟩

theorem head_eq_stray (stray : a.head now = .stray id) :
    ∃ rest, a.queue = id :: rest ∧ a.booking? id = none := by
  rcases a.head_cases now with ⟨-, done⟩ | ⟨first, rest, queued, ⟨idle, same⟩ |
    ⟨registration, deadline, -, -, ⟨-, done⟩ | ⟨-, due⟩⟩⟩
  · cases done.symm.trans stray
  · cases same.symm.trans stray
    exact ⟨rest, queued, idle⟩
  · cases done.symm.trans stray
  · cases due.symm.trans stray

theorem head_eq_done (done : a.head now = .done) :
    a.queue = [] ∨ ∃ id rest deadline pass, a.queue = id :: rest ∧
      a.booking? id = some (deadline, pass) ∧
      (Tick.isAfter deadline now = true ∨ pass = a.pass) := by
  rcases a.head_cases now with ⟨empty, -⟩ | ⟨first, rest, queued, ⟨-, stray⟩ |
    ⟨registration, deadline, -, booked, ⟨waits, -⟩ | ⟨-, due⟩⟩⟩
  · exact .inl empty
  · cases stray.symm.trans done
  · exact .inr ⟨first, rest, deadline, registration.pass, queued, booked, waits⟩
  · cases due.symm.trans done

/-! ## What an event sets -/

/-- From `a` to `a'` one registered alarm is given another deadline, or none, and leaves the queue.
    With a deadline it is put into the queue anew, if there is room. The others stay as they are. -/
structure Sets (a : Alarms κ) (id : AlarmId) (deadline : Option Tick) (a' : Alarms κ) : Prop where
  known : (a.get? id).isSome
  capacity : a'.capacity = a.capacity
  count : a'.registered.length = a.registered.length
  pass : a'.pass = a.pass
  bookings : a'.booking? = Function.update a.booking? id (deadline.map (·, a.pass))
  others : ∀ other, other ≠ id → a'.get? other = a.get? other
  queue : (a.booking? id = none → id ∉ a.queue) →
    a'.queue =
      match deadline with
      | none => a.queue.erase id
      | some deadline =>
        if (a.queue.erase id).length < a.capacity then
          a'.insertByDeadline id deadline (a.queue.erase id)
        else a.queue.erase id

theorem Sets.deadline?_eq {deadline : Option Tick} (sets : a.Sets id deadline a') :
    a'.deadline? = Function.update a.deadline? id deadline := by
  funext other
  rw [Alarms.deadline?_eq, sets.bookings]
  by_cases same : other = id
  · simp [same, Function.comp_def]
  · rw [Function.update_of_ne same, Function.update_of_ne same, Alarms.deadline?_eq]

/-- From `a` to `a'` no alarm is given another booking, and none that is booked leaves the queue. -/
structure Keeps (a : Alarms κ) (e : Event κ) (a' : Alarms κ) : Prop where
  capacity : a'.capacity = a.capacity
  count : a'.registered.length = a.registered.length ∨
    a.registered.length ≤ 255 ∧ a.registered.length < a.capacity ∧
      a'.registered.length = a.registered.length + 1
  pass : e ≠ .newPass → a'.pass = a.pass
  bookings : a'.booking? = a.booking?
  others : ∀ id, (a.get? id).isSome → a'.get? id = a.get? id
  queue : a'.queue = a.queue ∨ ∃ id rest, a.queue = id :: rest ∧ a.booking? id = none

theorem sets_release (known : (a.get? id).isSome) : a.Sets id none (a.release id) := by
  refine ⟨known, rfl, a.length_registered_modify id _, rfl, ?_,
    fun other ne => a.get?_modify_of_ne _ ne, fun _ => rfl⟩
  change (a.modify id _).booking? = _
  rw [booking?_modify]
  obtain ⟨r, found⟩ := Option.isSome_iff_exists.mp known
  rw [found]
  rfl

theorem isSome_get?_release (known : (a.get? id).isSome) : ((a.release id).get? id).isSome := by
  rw [isSome_get?_iff, (sets_release known).count, ← isSome_get?_iff]
  exact known

theorem sets_cancel (ok : a.cancel id = .ok a') : a.Sets id none a' := by
  unfold cancel at ok
  split at ok <;> rename_i found
  · cases ok
  · rename_i r
    have known : (a.get? id).isSome := by
      rw [found, Option.isSome_some]
    split at ok <;> rename_i state
    · cases ok
      have idle : a.booking? id = none := by
        simp [booking?, found, Registration.booking?, state]
      refine ⟨known, rfl, rfl, rfl, ?_, fun other ne => rfl, fun unqueued => ?_⟩
      · rw [Option.map_none, ← idle, Function.update_eq_self]
      · exact (List.erase_of_not_mem (unqueued idle)).symm
    · cases ok
      exact sets_release known

theorem sets_rebind {action : κ} {arg : Nat} (ok : a.rebind id action arg = .ok a') :
    a.Sets id none a' := by
  unfold rebind at ok
  split at ok <;> rename_i cancelled
  · cases ok
  · rename_i idle
    cases ok
    have sets := sets_cancel cancelled
    have none : idle.booking? id = none := by
      rw [sets.bookings, Function.update_self, Option.map_none]
    refine ⟨sets.known, sets.capacity, ?_, sets.pass, ?_, fun other ne => ?_, sets.queue⟩
    · rw [length_registered_modify, sets.count]
    · -- Another action leaves the booking as it is.
      rw [booking?_modify, sets.bookings, Function.update_idem]
      congr 1
      unfold booking? at none
      rcases found : idle.get? id with - | r
      · rfl
      · rw [found] at none
        exact none
    · rw [idle.get?_modify_of_ne _ ne, sets.others other ne]

theorem sets_scheduleAt (ok : a.scheduleAt id deadline = .ok a') :
    a.Sets id (some deadline) a' := by
  unfold scheduleAt at ok
  split at ok <;> rename_i found
  · cases ok
  · rename_i r
    have known : (a.get? id).isSome := by
      rw [found, Option.isSome_some]
    have idle_iff : r.state = .idle ↔ a.booking? id = none := by
      rcases r with ⟨action, arg, - | scheduled, pass⟩ <;>
        simp [booking?, found, Registration.booking?]
    have bookings : (a.modify id fun r =>
        { r with state := .scheduled deadline, pass := a.pass }).booking? =
        Function.update a.booking? id (some (deadline, a.pass)) := by
      rw [booking?_modify, found]
      rfl
    have count := a.length_registered_modify id fun r =>
      { r with state := .scheduled deadline, pass := a.pass }
    have others (other : AlarmId) (ne : other ≠ id) := a.get?_modify_of_ne (fun r =>
      { r with state := .scheduled deadline, pass := a.pass }) ne
    cases ok
    by_cases idle : r.state = .idle
    · simp only [idle, ↓reduceIte, link]
      split <;> rename_i room
      · refine ⟨known, rfl, count, rfl, bookings, others, fun unqueued => ?_⟩
        rw [List.erase_of_not_mem (unqueued (idle_iff.mp idle))]
        exact (if_pos room).symm
      · refine ⟨known, rfl, count, rfl, bookings, others, fun unqueued => ?_⟩
        rw [List.erase_of_not_mem (unqueued (idle_iff.mp idle))]
        exact (if_neg room).symm
    · simp only [idle, ↓reduceIte, link]
      split <;> rename_i room
      · exact ⟨known, rfl, count, rfl, bookings, others, fun _ => (if_pos room).symm⟩
      · exact ⟨known, rfl, count, rfl, bookings, others, fun _ => (if_neg room).symm⟩

theorem sets_of_ask {r : Request κ} (ok : a.ask r = .ok a') (target : r.target? = some id) :
    a.Sets id r.deadline? a' := by
  cases r with
  | register action arg => cases target
  | rebind other action arg => cases target; exact sets_rebind ok
  | schedule now other delay => cases target; exact sets_scheduleAt ok
  | scheduleAt other deadline => cases target; exact sets_scheduleAt ok
  | cancel other => cases target; exact sets_cancel ok

/-- There is a number and room for an alarm that is registered. -/
theorem registers_of_ask {action : κ} {arg : Nat} (ok : a.ask (.register action arg) = .ok a') :
    a.registered.length ≤ 255 ∧ a.registered.length < a.capacity ∧
      a' = { a with registered := a.registered ++ [{ action, arg }] } := by
  change (a.register action arg).map Prod.snd = .ok a' at ok
  unfold register at ok
  dsimp only at ok
  split at ok <;> rename_i full
  · cases ok
  · cases ok
    simp only [not_or, Nat.not_lt, Nat.not_le] at full
    exact ⟨full.1, full.2, rfl⟩

/-- An alarm is idle at first. -/
theorem booking?_append (a : Alarms κ) (action : κ) (arg : Nat) :
    ({ a with registered := a.registered ++ [{ action, arg }] } : Alarms κ).booking? =
      a.booking? := by
  funext id
  unfold booking? get?
  rcases Nat.lt_trichotomy id.toNat a.registered.length with before | new | behind
  · rw [List.getElem?_append_left before]
  · simp [new, Registration.booking?]
  · rw [List.getElem?_eq_none (Nat.le_of_lt behind), List.getElem?_eq_none]
    rw [List.length_append, List.length_singleton]
    exact behind

namespace Happens

/-- An event that sets an alarm changes nothing about the others. -/
theorem sets {deadline? : Option Tick} (happens : Happens a e a')
    (sets : e.sets? = some (id, deadline?)) : a.Sets id deadline? a' := by
  cases happens with
  | granted ok =>
    obtain ⟨target, asked, same⟩ := Option.map_eq_some_iff.mp sets
    cases same
    exact sets_of_ask ok asked
  | fire due =>
    cases sets
    obtain ⟨found, -⟩ := head_eq_due due
    exact sets_release (Option.isSome_of_eq_some found)
  | refused error => cases sets
  | newPass => cases sets
  | drop stray => cases sets

/-- An event that sets no alarm registers one at most. -/
theorem keeps (happens : Happens a e a') (none : e.sets? = none) : a.Keeps e a' := by
  cases happens with
  | granted ok =>
    rename_i r
    cases r with
    | register action arg =>
      obtain ⟨numbered, room, rfl⟩ := registers_of_ask ok
      refine ⟨rfl, .inr ⟨numbered, room, ?_⟩, fun _ => rfl, booking?_append a action arg,
        fun id known => ?_, .inl rfl⟩
      · rw [List.length_append, List.length_singleton]
      · exact List.getElem?_append_left (isSome_get?_iff.mp known)
    | rebind other action arg => cases none
    | schedule now other delay => cases none
    | scheduleAt other deadline => cases none
    | cancel other => cases none
  | refused error => exact ⟨rfl, .inl rfl, fun _ => rfl, rfl, fun _ _ => rfl, .inl rfl⟩
  | newPass =>
    exact ⟨rfl, .inl rfl, fun same => absurd rfl same, rfl, fun _ _ => rfl, .inl rfl⟩
  | fire due => cases none
  | drop stray =>
    obtain ⟨rest, queued, idle⟩ := head_eq_stray stray
    exact ⟨rfl, .inl rfl, fun _ => rfl, rfl, fun _ _ => rfl, .inr ⟨_, rest, queued, idle⟩⟩

theorem capacity (happens : Happens a e a') : a'.capacity = a.capacity := by
  cases sets : e.sets? with
  | some change => exact (happens.sets sets).capacity
  | none => exact (happens.keeps sets).capacity

/-- No alarm that is registered is given up. -/
theorem count_mono (happens : Happens a e a') : a.registered.length ≤ a'.registered.length := by
  cases sets : e.sets? with
  | some change => exact Nat.le_of_eq (happens.sets sets).count.symm
  | none =>
    rcases (happens.keeps sets).count with same | ⟨-, -, more⟩ <;> omega

/-- Alarms are registered one by one, each with a number and in a place of its own. -/
theorem count_le (happens : Happens a e a') (start : a.registered.length ≤ min a.capacity 256) :
    a'.registered.length ≤ min a'.capacity 256 := by
  rw [happens.capacity]
  cases sets : e.sets? with
  | some change =>
    rw [(happens.sets sets).count]
    exact start
  | none =>
    rcases (happens.keeps sets).count with same | ⟨numbered, room, more⟩
    · rw [same]
      exact start
    · omega

end Happens

end Alarms

end MoteLink
