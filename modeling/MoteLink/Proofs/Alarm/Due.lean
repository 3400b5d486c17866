import MoteLink.Proofs.Alarm.Order
import MoteLink.Proofs.Alarm.Rounds

/-!
# What fires in a pass

While the deadlines lie in one window with the clock, and actions schedule nothing before the tick
of the pass, what they schedule goes behind every alarm that is due. So a pass fires the alarms that
are due when it begins, in the order of their deadlines and of their scheduling, but for those that
an action before them has set anew, unless one of them stands behind an alarm for a later tick.
That does not come about while at every moment all deadlines lie in one window.
-/

namespace MoteLink

namespace Agenda

/-- Setting an alarm does not show where the alarm is left out. -/
theorem filter_map_set {p : AlarmId → Bool} {id : AlarmId} (out : p id = false) (l : Agenda)
    (deadline : Option Tick) :
    ((l.set id deadline).map Prod.fst).filter p = (l.map Prod.fst).filter p := by
  have struck : ((strike id l).map Prod.fst).filter p = (l.map Prod.fst).filter p := by
    simp only [strike, List.filter_map, List.filter_filter]
    congr 1
    refine List.filter_congr fun entry _ => ?_
    by_cases same : entry.1 = id <;> simp [same, out]
  cases deadline with
  | none => exact struck
  | some deadline =>
    obtain ⟨before, later, split, inserted, -⟩ := exists_insert id deadline (strike id l)
    rw [← struck, set, inserted, split]
    simp [out]

/-- No entry whose tick has come at `now` stands behind one for a later tick. -/
def Clear (now : Tick) (l : Agenda) : Prop :=
  l.Pairwise fun x y => Tick.hasReached y.2 now = true → Tick.isAfter x.2 y.2 = false

theorem Ordered.clear {l : Agenda} (ordered : Ordered l) (now : Tick) : Clear now l := by
  refine List.Pairwise.imp ?_ ordered
  intro x y upTo _
  exact upTo

/-- A new entry that is not for a tick before `now` goes behind all those whose tick has come. -/
theorem Clear.set {base now : Tick} {id : AlarmId} {l : Agenda} {deadline : Option Tick}
    (clear : Clear now l) (within : Within base (l.set id deadline))
    (here : Tick.InHalfTurn base now)
    (upcoming : ∀ tick, deadline = some tick → Tick.isAfter now tick = false) :
    Clear now (l.set id deadline) := by
  have struck : Clear now (strike id l) := List.Pairwise.filter _ clear
  cases deadline with
  | none => exact struck
  | some deadline =>
    obtain ⟨before, later, split, inserted, after, upTo⟩ := exists_insert id deadline (strike id l)
    have notBefore := upcoming deadline rfl
    rw [Agenda.set, inserted] at within ⊢
    rw [split] at struck
    obtain ⟨front, back, across⟩ := List.pairwise_append.mp struck
    have there : Tick.InHalfTurn base deadline :=
      within _ (List.mem_append_right _ List.mem_cons_self)
    rw [Tick.isAfter_eq_false_iff here there] at notBefore
    refine List.pairwise_append.mpr ⟨front, List.pairwise_cons.mpr ⟨?_, back⟩, ?_⟩
    · -- What stands behind the new entry is for a later tick than it, so its tick has not come.
      intro y member reached
      have inside : Tick.InHalfTurn base y.2 :=
        within y (List.mem_append_right _ (List.mem_cons_of_mem _ member))
      have less := (Tick.isAfter_iff inside there).mp (after y member)
      rw [Tick.hasReached, Bool.not_eq_true', Tick.isAfter_eq_false_iff inside here] at reached
      exact absurd (UInt32.lt_of_lt_of_le less (UInt32.le_trans reached notBefore))
        (UInt32.lt_irrefl _)
    · intro x left y right reached
      rcases List.mem_cons.mp right with rfl | right
      · -- The entry just before the new one is not for a later tick, so its tick has come as well.
        rcases List.eq_nil_or_concat' before with rfl | ⟨first, last, rfl⟩
        · cases left
        have near : Tick.isAfter last.2 deadline = false := by
          apply upTo
          simp
        rcases List.mem_append.mp left with earlier | same
        · have inside : Tick.InHalfTurn base x.2 := within x (List.mem_append_left _ left)
          have between : Tick.InHalfTurn base last.2 := by
            apply within
            simp
          rw [Tick.hasReached, Bool.not_eq_true', Tick.isAfter_eq_false_iff there here] at reached
          rw [Tick.isAfter_eq_false_iff between there] at near
          have up := (List.pairwise_append.mp front).2.2 x earlier last
            (List.mem_singleton_self last)
          rw [Tick.hasReached, Bool.not_eq_true', Tick.isAfter_eq_false_iff between here,
            Tick.isAfter_eq_false_iff inside between] at up
          rw [Tick.isAfter_eq_false_iff inside there]
          exact UInt32.le_trans (up (UInt32.le_trans near reached)) near
        · rw [List.mem_singleton.mp same]
          exact near
      · exact across x left y right reached

/-- The entries whose tick has come stand in the order of a stable sort. -/
theorem Clear.filter_eq {base now : Tick} {l m : Agenda} (clear : Clear now l)
    (within : Within base l) (same : ∀ tick, dueAt tick l = dueAt tick m) :
    l.filter (fun entry => Tick.hasReached entry.2 now) =
      (m.mergeSort (isSooner base)).filter fun entry => Tick.hasReached entry.2 now := by
  apply eq_of_dueAt
  · refine List.Pairwise.imp_of_mem ?_ (clear.filter _)
    intro x y left right upTo
    obtain ⟨left, -⟩ := List.mem_filter.mp left
    obtain ⟨right, reached⟩ := List.mem_filter.mp right
    exact decide_eq_true
      ((Tick.isAfter_eq_false_iff (within x left) (within y right)).mp (upTo reached))
  · exact (List.pairwise_mergeSort (isSooner_trans base) (isSooner_total base) m).filter _
  · intro tick
    have parted (l : Agenda) : dueAt tick (l.filter fun entry => Tick.hasReached entry.2 now) =
        (dueAt tick l).filter fun entry => Tick.hasReached entry.2 now := by
      simp only [dueAt, List.filter_filter, Bool.and_comm]
    rw [parted, parted, same, dueAt_mergeSort]

/-- Setting an alarm keeps a relation between entries and those behind them, if nothing is asked of
    the new entry but towards those for a later tick. -/
theorem pairwise_set {R : AlarmId × Tick → AlarmId × Tick → Prop} {id : AlarmId} {l : Agenda}
    {deadline : Option Tick} (ordered : (strike id l).Pairwise R)
    (behind : ∀ tick x, R x (id, tick))
    (ahead : ∀ tick y, Tick.isAfter y.2 tick = true → R (id, tick) y) :
    (l.set id deadline).Pairwise R := by
  cases deadline with
  | none => exact ordered
  | some deadline =>
    obtain ⟨before, later, split, inserted, after, -⟩ := exists_insert id deadline (strike id l)
    rw [split] at ordered
    obtain ⟨front, back, across⟩ := List.pairwise_append.mp ordered
    rw [set, inserted]
    refine List.pairwise_append.mpr ⟨front, List.pairwise_cons.mpr ⟨?_, back⟩, ?_⟩
    · exact fun y member => ahead deadline y (after y member)
    · intro x left y right
      rcases List.mem_cons.mp right with rfl | right
      · exact behind deadline x
      · exact across x left y right

end Agenda

variable {κ σ : Type}

namespace Alarms

/-- What the request schedules is for a tick in the half turn that begins at `base`, and not before
    `now`. A delay is counted from a clock that has not gone back, and does not pass the end of the
    half turn. -/
def Request.Within (base now : Tick) : Request κ → Prop
  | .schedule clock _ delay =>
    now - base ≤ clock - base ∧ (clock - base).toNat + delay.toNat < 0x80000000
  | .scheduleAt _ deadline => Tick.InHalfTurn base deadline ∧ Tick.isAfter now deadline = false
  | _ => True

instance (base now : Tick) (r : Request κ) : Decidable (r.Within base now) := by
  cases r <;> unfold Request.Within <;> infer_instance

/-- The alarm has been scheduled in the current pass. -/
def IsNew (a : Alarms κ) (id : AlarmId) : Prop :=
  ∃ deadline, a.booking? id = some (deadline, a.pass)

/-- The alarm is to fire in the current pass: its deadline has come, and it has not been scheduled
    since the pass began. -/
def isDue (a : Alarms κ) (now : Tick) (id : AlarmId) : Bool :=
  (a.booking? id).any fun booked => Tick.hasReached booked.1 now && booked.2 != a.pass

/-- The alarms that are to fire in the current pass, in the order of the queue. -/
def due (a : Alarms κ) (now : Tick) : List AlarmId :=
  a.queue.filter (a.isDue now)

variable {a a' : Alarms κ} {id other : AlarmId} {base now : Tick}
  {history : List (Event κ × Alarms κ)}

theorem Request.Within.deadline {r : Request κ} {deadline : Tick} (within : r.Within base now)
    (here : Tick.InHalfTurn base now) (asked : r.deadline? = some deadline) :
    Tick.InHalfTurn base deadline ∧ Tick.isAfter now deadline = false := by
  cases r with
  | schedule clock id delay =>
    cases asked
    obtain ⟨ahead, short⟩ := within
    have far : (clock + delay - base).toNat = (clock - base).toNat + delay.toNat := by
      have wrapped := delay.toNat_lt
      have turn := clock.toNat_lt
      have first := base.toNat_lt
      simp only [UInt32.toNat_sub, UInt32.toNat_add] at short ⊢
      omega
    have inside : Tick.InHalfTurn base (clock + delay) := by
      rw [Tick.InHalfTurn, UInt32.lt_iff_toNat_lt, far]
      exact short
    refine ⟨inside, (Tick.isAfter_eq_false_iff here inside).mpr ?_⟩
    rw [UInt32.le_iff_toNat_le] at ahead ⊢
    omega
  | scheduleAt id tick =>
    cases asked
    exact within
  | register action arg => cases asked
  | rebind id action arg => cases asked
  | cancel id => cases asked

theorem isDue_iff : a.isDue now id = true ↔ ∃ tick pass, a.booking? id = some (tick, pass) ∧
    Tick.isAfter tick now = false ∧ pass ≠ a.pass := by
  simp [isDue, Option.any_eq_true, Tick.hasReached]

/-! ## What an action leaves of it -/

theorem Sets.isNew_iff {deadline : Option Tick} (sets : a.Sets id deadline a') (ne : other ≠ id) :
    a'.IsNew other ↔ a.IsNew other := by
  simp only [IsNew, sets.bookings, sets.pass, Function.update_of_ne ne]

theorem Sets.isNew {deadline : Tick} (sets : a.Sets id (some deadline) a') : a'.IsNew id :=
  ⟨deadline, by rw [sets.bookings, sets.pass, Function.update_self, Option.map_some]⟩

/-- An alarm that is set is not to fire in the current pass. -/
theorem Sets.isDue_eq {deadline : Option Tick} (sets : a.Sets id deadline a') (other : AlarmId) :
    a'.isDue now other = (a.isDue now other && other != id) := by
  unfold isDue
  rw [sets.bookings, sets.pass]
  by_cases same : other = id
  · rw [same, Function.update_self]
    cases deadline <;> simp
  · simp [same]

/-- No alarm of the queue whose deadline has come stands behind one for a later tick. -/
def Unobstructed (a : Alarms κ) (now : Tick) : Prop :=
  a.queue.Pairwise fun id other => ∀ tick tick', a.deadline? id = some tick →
    a.deadline? other = some tick' → Tick.hasReached tick' now = true →
      Tick.isAfter tick tick' = false

theorem Shows.unobstructed_iff {l : Agenda} (shows : a.Shows l) :
    a.Unobstructed now ↔ l.Clear now := by
  rw [Unobstructed, shows.queue, List.pairwise_map, Agenda.Clear]
  constructor
  · refine List.Pairwise.imp_of_mem fun left right upTo => ?_
    exact upTo _ _ ((shows.mem_iff _ _).mp left) ((shows.mem_iff _ _).mp right)
  · refine List.Pairwise.imp_of_mem fun left right upTo tick tick' first second => ?_
    cases first.symm.trans ((shows.mem_iff _ _).mp left)
    cases second.symm.trans ((shows.mem_iff _ _).mp right)
    exact upTo

/-- In a pass at `now` no alarm whose deadline has come stands behind one for a later tick. Those
    that have been scheduled since it began are not for a tick before `now`, and stand in front of
    others only for an earlier tick. -/
structure Tidy (base now : Tick) (a : Alarms κ) : Prop where
  upright : a.Upright
  window : a.InWindow base
  here : Tick.InHalfTurn base now
  agenda : ∃ l, a.Shows l ∧ l.Clear now ∧
    l.Pairwise fun x y => a.IsNew x.1 → ¬a.IsNew y.1 → Tick.isAfter y.2 x.2 = true
  upcoming : ∀ id deadline, a.booking? id = some (deadline, a.pass) →
    Tick.isAfter now deadline = false

namespace Tidy

variable {r : Registration κ} {deadline : Option Tick}

theorem sets (tidy : Tidy base now a) (sets : a.Sets id deadline a') (upright : a'.Upright)
    (fits : ∀ tick, deadline = some tick →
      Tick.InHalfTurn base tick ∧ Tick.isAfter now tick = false) :
    Tidy base now a' ∧ a'.due now = (a.due now).filter (· != id) := by
  obtain ⟨l, shows, clear, new⟩ := tidy.agenda
  have window : a'.InWindow base := by
    intro other tick scheduled
    rw [sets.deadline?_eq] at scheduled
    by_cases same : other = id
    · rw [same, Function.update_self] at scheduled
      exact (fits tick scheduled).1
    · rw [Function.update_of_ne same] at scheduled
      exact tidy.window other tick scheduled
  have shown := sets.shows shows tidy.upright.count_le
  have kept := clear.set (shown.within window) tidy.here fun tick asked => (fits tick asked).2
  refine ⟨⟨upright, window, tidy.here, ⟨l.set id deadline, shown, kept, ?_⟩, ?_⟩, ?_⟩
  · have old : (Agenda.strike id l).Pairwise fun x y =>
        a'.IsNew x.1 → ¬a'.IsNew y.1 → Tick.isAfter y.2 x.2 = true := by
      refine List.Pairwise.imp_of_mem ?_ (new.filter _)
      intro x y left right apart
      rwa [sets.isNew_iff (Agenda.mem_strike.mp left).2,
        sets.isNew_iff (Agenda.mem_strike.mp right).2]
    -- The entry that is put in is new, and stands in front of later ones only.
    cases deadline with
    | none => exact old
    | some tick =>
      exact Agenda.pairwise_set old (fun _ _ _ isOld => absurd sets.isNew isOld)
        fun _ _ later _ _ => later
  · intro other tick booked
    rw [sets.bookings, sets.pass] at booked
    by_cases same : other = id
    · rw [same, Function.update_self] at booked
      obtain ⟨tick', scheduled, pair⟩ := Option.map_eq_some_iff.mp booked
      cases pair
      exact (fits tick scheduled).2
    · rw [Function.update_of_ne same] at booked
      exact tidy.upcoming other tick booked
  · have out : a'.isDue now id = false := by
      simp [sets.isDue_eq]
    unfold due
    rw [shown.queue, Agenda.filter_map_set out, ← shows.queue, List.filter_filter]
    exact List.filter_congr fun other _ => by rw [sets.isDue_eq, Bool.and_comm]

theorem keeps {e : Event κ} (tidy : Tidy base now a) (keeps : a.Keeps e a') (upright : a'.Upright)
    (begun : e ≠ .newPass) : Tidy base now a' ∧ a'.due now = a.due now := by
  obtain ⟨l, shows, clear, new⟩ := tidy.agenda
  have shown := keeps.shows shows
  have pass := keeps.pass begun
  have same : a'.IsNew = a.IsNew := by
    funext id
    simp only [IsNew, keeps.bookings, pass]
  refine ⟨⟨upright, fun id tick scheduled => ?_, tidy.here, ⟨l, shown, clear, same ▸ new⟩, ?_⟩, ?_⟩
  · rw [deadline?_eq, keeps.bookings, ← deadline?_eq] at scheduled
    exact tidy.window id tick scheduled
  · rw [keeps.bookings, pass]
    exact tidy.upcoming
  · have sameDue : a'.isDue now = a.isDue now := by
      funext id
      simp only [isDue, keeps.bookings, pass]
    rw [due, due, shown.queue, ← shows.queue, sameDue]

/-- An alarm that an action asks something for does not fire any more in this pass. -/
theorem reply {r : Request κ} (tidy : Tidy base now a) (within : r.Within base now) :
    Tidy base now (a.reply r).2 ∧
      (a.reply r).2.due now = (a.due now).filter fun id => r.target? != some id := by
  obtain ⟨e, happens, begun, ⟨id, target, sets⟩ | ⟨none, unknown⟩⟩ := happens_reply tidy.upright r
  · obtain ⟨tidy', left⟩ := tidy.sets (happens.sets sets) (tidy.upright.happens happens)
      fun tick asked => within.deadline tidy.here asked
    refine ⟨tidy', left.trans (List.filter_congr fun other _ => ?_)⟩
    rw [target]
    simp [bne, BEq.comm]
  · obtain ⟨tidy', same⟩ := tidy.keeps (happens.keeps none) (tidy.upright.happens happens) begun
    refine ⟨tidy', same.trans (List.filter_eq_self.mpr fun id member => ?_).symm⟩
    -- No alarm that is due is unknown.
    rw [bne_iff_ne]
    intro target
    obtain ⟨tick, pass, booked, -⟩ := isDue_iff.mp (List.mem_filter.mp member).2
    simp [booking?, unknown id target] at booked

theorem askAll {rs : List (Request κ)} (tidy : Tidy base now a)
    (within : ∀ r ∈ rs, r.Within base now) :
    Tidy base now (a.askAll rs) ∧
      (a.askAll rs).due now = (a.due now).filter fun id => !rs.any (·.target? == some id) := by
  induction rs generalizing a with
  | nil => exact ⟨tidy, by simp [Alarms.askAll]⟩
  | cons r rs ih =>
    obtain ⟨first, others⟩ := List.forall_mem_cons.mp within
    obtain ⟨tidy', left⟩ := tidy.reply first
    obtain ⟨tidy'', rest⟩ := ih tidy' others
    refine ⟨tidy'', rest.trans ?_⟩
    rw [left, List.filter_filter]
    exact List.filter_congr fun id _ => by simp [bne, Bool.and_comm]

/-- The alarm at the head of the queue is the first one that is to fire. -/
theorem due_eq_cons (tidy : Tidy base now a) (head : a.head now = .due id r) :
    a.due now = id :: (a.release id).due now ∧ id ∉ (a.release id).due now ∧
      Tidy base now (a.release id) := by
  obtain ⟨found, deadline, rest, queued, booked, reached, stamp⟩ := head_eq_due head
  have isDue : a.isDue now id = true := isDue_iff.mpr ⟨deadline, r.pass, booked, reached, stamp⟩
  obtain ⟨tidy', left⟩ := tidy.sets (sets_release (Option.isSome_of_eq_some found))
    (tidy.upright.happens (.fire head)) (by simp)
  obtain ⟨l, shows, -⟩ := tidy.agenda
  have nodup : (a.due now).Nodup := (shows.queue ▸ shows.nodup).filter _
  have split : a.due now = id :: rest.filter (a.isDue now) := by
    rw [due, queued, List.filter_cons_of_pos isDue]
  rw [split] at nodup left ⊢
  have others : ∀ other ∈ rest.filter (a.isDue now), (other != id) = true := by
    intro other member
    rw [bne_iff_ne]
    rintro rfl
    exact (List.nodup_cons.mp nodup).1 member
  rw [List.filter_cons_of_neg (by simp), List.filter_eq_self.mpr others] at left
  rw [left]
  exact ⟨rfl, (List.nodup_cons.mp nodup).1, tidy'⟩

/-- A pass ends when no alarm is to fire any more: one that has to wait stands in front of those
    only that are for a later tick, or for the same one and new as well. -/
theorem due_eq_nil (tidy : Tidy base now a) (done : a.head now = .done) : a.due now = [] := by
  obtain ⟨l, shows, clear, new⟩ := tidy.agenda
  have here := tidy.here
  rcases head_eq_done done with empty | ⟨id, rest, deadline, pass, queued, booked, waits⟩
  · rw [due, empty, List.filter_nil]
  refine List.filter_eq_nil_iff.mpr fun other _ isDue => ?_
  obtain ⟨tick, stamp, booking, ready, old⟩ := isDue_iff.mp isDue
  have scheduled := deadline?_eq_some_iff.mpr ⟨_, booked⟩
  have listed := (shows.mem_iff other tick).mpr (deadline?_eq_some_iff.mpr ⟨_, booking⟩)
  have here' := tidy.window id deadline scheduled
  have there := shows.within tidy.window _ listed
  -- The agenda begins with the alarm at the head of the queue.
  rw [shows.queue] at queued
  obtain ⟨⟨first, tick'⟩, later, rfl, rfl, -⟩ := List.map_eq_cons_iff.mp queued
  cases ((shows.mem_iff first tick').mp List.mem_cons_self).symm.trans scheduled
  have reached : Tick.hasReached tick now = true := by rw [Tick.hasReached, ready]; rfl
  rw [Tick.isAfter_eq_false_iff there here] at ready
  rcases List.mem_cons.mp listed with same | behind
  · cases same
    cases booking.symm.trans booked
    rcases waits with early | isNew
    · rw [Tick.isAfter_iff there here] at early
      exact UInt32.not_lt.mpr ready early
    · exact old isNew
  · rcases waits with early | isNew
    · have upTo := (List.pairwise_cons.mp clear).1 _ behind reached
      rw [Tick.isAfter_eq_false_iff here' there] at upTo
      rw [Tick.isAfter_iff here' here] at early
      exact UInt32.not_lt.mpr (UInt32.le_trans upTo ready) early
    · have notNew : ¬a.IsNew other := by
        rintro ⟨tick, other'⟩
        exact old (Prod.mk.inj (Option.some.inj (booking.symm.trans other'))).2
      have later := (List.pairwise_cons.mp new).1 _ behind ⟨deadline, isNew ▸ booked⟩ notNew
      have upcoming := tidy.upcoming first deadline (isNew ▸ booked)
      rw [Tick.isAfter_iff there here'] at later
      rw [Tick.isAfter_eq_false_iff here here'] at upcoming
      exact UInt32.not_lt.mpr (UInt32.le_trans ready upcoming) later

end Tidy

/-! ## The whole pass -/

section Rounds

variable {wishes : Wishes κ σ} {next : κ → AlarmId → Nat → σ × Alarms κ → σ} {s last : σ × Alarms κ}
  {rounds : List (Firing κ σ × (σ × Alarms κ))}

/-- What the action of the alarm asks for. -/
def Firing.asks (firing : Firing κ σ) (wishes : Wishes κ σ) : List (Request κ) :=
  wishes firing.label firing.id firing.arg firing.before

/-- Some action has asked something for the alarm in these rounds, up to the one in which the alarm
    fires. -/
def setBefore (wishes : Wishes κ σ) (rounds : List (Firing κ σ × (σ × Alarms κ))) (id : AlarmId) :
    Bool :=
  (rounds.takeWhile (·.1.id != id)).any fun round =>
    (round.1.asks wishes).any (·.target? == some id)

theorem setBefore_cons (round : Firing κ σ × (σ × Alarms κ)) (id : AlarmId) :
    setBefore wishes (round :: rounds) id =
      (round.1.id != id &&
        ((round.1.asks wishes).any (·.target? == some id) || setBefore wishes rounds id)) := by
  unfold setBefore
  by_cases same : round.1.id = id <;> simp [same]

/-- In one round the first of the alarms that are to fire does so, and those for which its action
    asks something drop out. -/
theorem Tidy.round {firing : Firing κ σ} {after : σ × Alarms κ} (tidy : Tidy base now s.2)
    (round : Round (asking wishes next) now s firing after)
    (within : ∀ r ∈ firing.asks wishes, r.Within base now) :
    Tidy base now after.2 ∧ ∃ rest, s.2.due now = firing.id :: rest ∧ firing.id ∉ rest ∧
      after.2.due now = rest.filter fun id => !(firing.asks wishes).any (·.target? == some id) := by
  obtain ⟨head, booked, acted⟩ := round
  cases acted
  obtain ⟨split, apart, released⟩ := tidy.due_eq_cons head
  obtain ⟨tidy', left⟩ := released.askAll within
  exact ⟨tidy', _, split, apart, left⟩

/-- What is to fire fires, but for what an action before it has set anew. -/
theorem fired_eq_filter (trace : Trace (Round (asking wishes next) now) s rounds last)
    (done : last.2.head now = .done) (tidy : Tidy base now s.2)
    (within : ∀ round ∈ rounds, ∀ r ∈ round.1.asks wishes, r.Within base now) :
    rounds.map (·.1.id) = (s.2.due now).filter fun id => !setBefore wishes rounds id := by
  induction trace with
  | nil s =>
    rw [tidy.due_eq_nil done]
    rfl
  | @cons s t last firing rest first later ih =>
    obtain ⟨own, others⟩ := List.forall_mem_cons.mp within
    obtain ⟨tidy', tail, split, apart, left⟩ := tidy.round first own
    rw [List.map_cons, ih done tidy' others, left, split, List.filter_filter,
      List.filter_cons_of_pos (by simp [setBefore_cons])]
    refine congrArg (firing.id :: ·) (List.filter_congr fun other member => ?_)
    have ne : firing.id ≠ other := fun same => apart (same ▸ member)
    rw [setBefore_cons]
    simp [ne, Bool.and_comm]

/-- An alarm is idle and out of the queue when its action begins. -/
theorem released_of_rounds (trace : Trace (Round (asking wishes next) now) s rounds last)
    (upright : s.2.Upright) :
    ∀ round ∈ rounds, round.1.before.2.state round.1.id = .ok .idle ∧
      round.1.id ∉ round.1.before.2.queue := by
  refine (trace.invariant (K := fun _ => True)
    (I := fun past t => t.2.Upright ∧ ∀ round ∈ past,
      round.1.before.2.state round.1.id = .ok .idle ∧ round.1.id ∉ round.1.before.2.queue)
    ?_ ?_ fun _ _ => trivial).2
  · exact ⟨upright, List.forall_mem_nil _⟩
  · rintro past t firing after ⟨upright, each⟩ ⟨due, booked, acted⟩ -
    rename_i ctx a id r deadline
    cases acted
    obtain ⟨found, -⟩ := head_eq_due due
    have known := Option.isSome_of_eq_some found
    have none : (a.release id).booking? id = none := by
      rw [(sets_release known).bookings, Function.update_self, Option.map_none]
    have released := upright.happens (.fire due)
    obtain ⟨l, shows⟩ := released.shows
    refine ⟨released.askAll _, fun round member => ?_⟩
    rcases List.mem_append.mp member with earlier | new
    · exact each round earlier
    · rw [List.mem_singleton.mp new]
      exact ⟨state_eq_idle_iff.mpr ⟨isSome_get?_release known, deadline?_eq_none_iff.mpr none⟩,
        shows.unqueued none⟩

/-- An alarm that does not fire, and for which no action asks anything, keeps its booking. -/
theorem booking?_of_rounds (trace : Trace (Round (asking wishes next) now) s rounds last)
    (upright : s.2.Upright)
    (untouched : ∀ round ∈ rounds, round.1.id ≠ id ∧
      ∀ r ∈ round.1.asks wishes, r.target? ≠ some id) :
    last.2.booking? id = s.2.booking? id := by
  refine (trace.invariant
    (K := fun round => round.1.id ≠ id ∧ ∀ r ∈ round.1.asks wishes, r.target? ≠ some id)
    (I := fun _ t => t.2.Upright ∧ t.2.booking? id = s.2.booking? id) ⟨upright, rfl⟩ ?_ untouched).2
  rintro past t firing after ⟨upright, same⟩ ⟨due, booked, acted⟩ ⟨other, unasked⟩
  rename_i ctx a fired r deadline
  cases acted
  obtain ⟨found, -⟩ := head_eq_due due
  have released : (a.release fired).booking? id = s.2.booking? id := by
    rw [(sets_release (Option.isSome_of_eq_some found)).bookings,
      Function.update_of_ne (Ne.symm other)]
    exact same
  refine askAll_keeps (I := fun b => b.Upright ∧ b.booking? id = s.2.booking? id)
    ⟨upright.happens (.fire due), released⟩ ?_
  rintro r member b ⟨upright, same⟩
  obtain ⟨e, happens, -, ⟨target, asked, sets⟩ | ⟨none, -⟩⟩ := happens_reply upright r
  · have ne : id ≠ target := fun eq => unasked r member (eq ▸ asked)
    refine ⟨upright.happens happens, ?_⟩
    rw [(happens.sets sets).bookings, Function.update_of_ne ne, same]
  · exact ⟨upright.happens happens, by rw [(happens.keeps none).bookings, same]⟩

end Rounds

/-! ## Passes that begin -/

/-- The passes since an alarm was set, with the event counted in. -/
def Event.countPasses (id : AlarmId) (passes : Nat) : Event κ → Nat
  | .newPass => passes + 1
  | e =>
    match e.sets? with
    | some (other, _) => if other = id then 0 else passes
    | none => passes

/-- The passes that have begun since the alarm was set last. -/
def passesSince (id : AlarmId) (history : List (Event κ × Alarms κ)) : Nat :=
  history.foldl (fun passes entry => entry.1.countPasses id passes) 0

theorem passesSince_concat (id : AlarmId) (history : List (Event κ × Alarms κ)) (e : Event κ)
    (a : Alarms κ) :
    passesSince id (history ++ [(e, a)]) = e.countPasses id (passesSince id history) := by
  rw [passesSince, List.foldl_append]
  rfl

theorem Event.countPasses_of_sets {e : Event κ} {deadline : Option Tick} (passes : Nat)
    (sets : e.sets? = some (other, deadline)) :
    e.countPasses id passes = if other = id then 0 else passes := by
  cases e with
  | newPass => cases sets
  | granted r => simp [countPasses, sets]
  | refused r error => cases sets
  | fire now id => simp [countPasses, sets]
  | drop now id => cases sets

theorem Event.countPasses_of_none {e : Event κ} (passes : Nat) (none : e.sets? = none)
    (ne : e ≠ .newPass) : e.countPasses id passes = passes := by
  cases e with
  | newPass => exact absurd rfl ne
  | granted r => simp [countPasses, none]
  | refused r error => rfl
  | fire now id => cases none
  | drop now id => rfl

/-- An alarm bears the number of the pass in which it was scheduled, as many passes ago as have
    begun since. -/
theorem pass_eq_of_trace {capacity : Nat} {deadline : Tick} {pass : UInt32}
    (trace : Trace Happens ({ capacity } : Alarms κ) history a)
    (booked : a.booking? id = some (deadline, pass)) :
    a.pass = pass + .ofNat (passesSince id history) := by
  refine trace.invariant (K := fun _ => True)
    (I := fun past a => ∀ id deadline pass, a.booking? id = some (deadline, pass) →
      a.pass = pass + .ofNat (passesSince id past)) ?_ ?_ (fun _ _ => trivial) _ _ _ booked
  · intro id deadline pass booked
    cases booked
  · intro past a e a' known happens _ id deadline pass booked
    rw [passesSince_concat]
    cases sets : e.sets? with
    | some change =>
      obtain ⟨other, tick⟩ := change
      have change := happens.sets sets
      rw [Event.countPasses_of_sets _ sets, change.pass]
      rw [change.bookings] at booked
      by_cases same : other = id
      · rw [same, Function.update_self] at booked
        obtain ⟨tick', -, pair⟩ := Option.map_eq_some_iff.mp booked
        cases pair
        simp [same]
      · rw [Function.update_of_ne (Ne.symm same)] at booked
        rw [if_neg same]
        exact known id deadline pass booked
    | none =>
      have keeps := happens.keeps sets
      rw [keeps.bookings] at booked
      have before := known id deadline pass booked
      by_cases newPass : e = .newPass
      · subst newPass
        cases happens
        change a.pass + 1 = pass + .ofNat (passesSince id past + 1)
        rw [before, UInt32.ofNat_add, UInt32.add_assoc]
        rfl
      · rw [Event.countPasses_of_none _ sets newPass, keeps.pass newPass]
        exact before

/-- When a pass begins, no alarm seems to have been scheduled in it, unless a full turn of passes
    has begun since. -/
theorem tidy_of_trace {capacity : Nat} (trace : Trace Happens ({ capacity } : Alarms κ) history a)
    (unobstructed : a.Unobstructed now) (window : a.InWindow base) (here : Tick.InHalfTurn base now)
    (recent : ∀ id ∈ a.queue, passesSince id history + 1 < 0x100000000) :
    Tidy base now a.beginPass ∧ a.beginPass.due now =
      (((scheduledIn history).mergeSort (Agenda.isSooner base)).filter fun entry =>
        Tick.hasReached entry.2 now).map Prod.fst := by
  obtain ⟨l, shows, same, -⟩ := agenda_of_trace trace
  have clear := shows.unobstructed_iff.mp unobstructed
  have upright := upright_of_trace trace (upright_new capacity)
  have shown : a.beginPass.Shows l :=
    (Happens.newPass.keeps rfl).shows shows
  have old (id : AlarmId) (deadline : Tick) (pass : UInt32)
      (booked : a.booking? id = some (deadline, pass)) : pass ≠ a.pass + 1 := by
    have begun := recent id (shows.mem_queue_iff.mpr ⟨_, deadline?_eq_some_iff.mpr ⟨_, booked⟩⟩)
    rw [pass_eq_of_trace trace booked]
    intro turned
    have counts := congrArg UInt32.toNat turned
    have bound := pass.toNat_lt
    simp only [UInt32.toNat_add, UInt32.toNat_ofNat', UInt32.reduceToNat] at counts
    omega
  refine ⟨⟨upright.beginPass, window, here, ⟨l, shown, clear, ?_⟩, ?_⟩, ?_⟩
  · refine List.pairwise_of_forall fun x y => ?_
    rintro ⟨deadline, booked⟩
    exact absurd rfl (old _ _ _ booked)
  · intro id deadline booked
    exact absurd rfl (old _ _ _ booked)
  · rw [due, shown.queue, ← clear.filter_eq (shows.within window) same, List.filter_map]
    refine congrArg _ (List.filter_congr fun entry member => ?_)
    obtain ⟨pass, booked⟩ := deadline?_eq_some_iff.mp ((shows.mem_iff _ _).mp member)
    have begun : a.beginPass.booking? entry.1 = some (entry.2, pass) := booked
    have past : pass ≠ a.beginPass.pass := old _ _ _ booked
    simp [isDue, begun, past]

/-- As long as at every moment all deadlines lie in one window, no alarm is in the way of one that
    is due. -/
theorem unobstructed_of_trace {capacity : Nat}
    (trace : Trace Happens ({ capacity } : Alarms κ) history a)
    (windows : ∀ entry ∈ history, ∃ base, entry.2.InWindow base) (now : Tick) :
    a.Unobstructed now := by
  obtain ⟨l, shows, -, ordered⟩ := agenda_of_trace trace
  exact shows.unobstructed_iff.mpr ((ordered windows).clear now)

/-- Let all deadlines lie in one window with the clock, and let no alarm that is scheduled bear the
    number of the pass by having been scheduled a full turn of passes ago. If no alarm that is due
    stands behind one for a later tick, as is the case where at every moment all deadlines have been
    in one window, then the pass fires just those alarms that are due, in the order of their
    deadlines and, for one tick, of their scheduling, but for those for which an earlier action has
    asked something, if all that actions schedule lies in the window as well, and not before the
    tick of the pass. An alarm is idle and out of the queue when its action begins. One that is not
    due and for which no action asks anything keeps its deadline. -/
theorem process_fires_due {capacity : Nat}
    (trace : Trace Happens ({ capacity } : Alarms κ) history a) (window : a.InWindow base)
    (here : Tick.InHalfTurn base now)
    (recent : ∀ id ∈ a.queue, passesSince id history + 1 < 0x100000000) (wishes : Wishes κ σ)
    (next : κ → AlarmId → Nat → σ × Alarms κ → σ) (ctx : σ) :
    (∀ id deadline, (id, deadline) ∈ scheduledIn history ↔
        a.state id = .ok (.scheduled deadline)) ∧
      ((∀ entry ∈ history, ∃ base, entry.2.InWindow base) → a.Unobstructed now) ∧
      ∃ rounds last,
        Trace (Round (asking wishes next) now) (ctx, a.beginPass) rounds last ∧
          last.2.head now = .done ∧
          process (asking wishes next) now (ctx, a) = .ok (rounds.length, last) ∧
          (∀ round ∈ rounds, round.1.before.2.state round.1.id = .ok .idle ∧
            round.1.id ∉ round.1.before.2.queue) ∧
          (a.Unobstructed now →
            (∀ round ∈ rounds, ∀ r ∈ round.1.asks wishes, r.Within base now) →
            rounds.map (·.1.id) =
              ((((scheduledIn history).mergeSort (Agenda.isSooner base)).filter fun entry =>
                Tick.hasReached entry.2 now).map Prod.fst).filter fun id =>
                  !setBefore wishes rounds id) ∧
          ∀ id deadline, a.state id = .ok (.scheduled deadline) →
            Tick.hasReached deadline now = false →
            (∀ round ∈ rounds, ∀ r ∈ round.1.asks wishes, r.target? ≠ some id) →
            last.2.state id = .ok (.scheduled deadline) := by
  obtain ⟨l, shows, same, -⟩ := agenda_of_trace trace
  have upright := upright_of_trace trace (upright_new capacity)
  obtain ⟨rounds, last, passed, ended, completed⟩ := rounds_of_process upright wishes next now ctx
  obtain ⟨-, each⟩ := aged_of_rounds passed upright.beginPass
  refine ⟨fun id deadline => ?_, fun windows => unobstructed_of_trace trace windows now, rounds,
    last, passed, ended, completed, released_of_rounds passed upright.beginPass,
    fun unobstructed within => ?_, ?_⟩
  · rw [state_eq_scheduled_iff, ← shows.mem_iff, Agenda.mem_iff_of_dueAt same]
  · obtain ⟨tidy, begun⟩ := tidy_of_trace trace unobstructed window here recent
    rw [fired_eq_filter passed ended tidy within, begun]
  · intro id deadline scheduled early untouched
    have apart : ∀ round ∈ rounds, round.1.id ≠ id := by
      rintro round member rfl
      obtain ⟨fired, reached⟩ := each round member
      cases fired.symm.trans (state_eq_scheduled_iff.mp scheduled)
      exact Bool.noConfusion (early.symm.trans reached)
    have kept := booking?_of_rounds passed upright.beginPass fun round member =>
      ⟨apart round member, untouched round member⟩
    rw [state_eq_scheduled_iff] at scheduled ⊢
    rw [deadline?_eq, kept]
    exact (deadline?_eq a id).symm.trans scheduled

/-- Alarm 1, for a tick between those of the other two, is cancelled, and so alarm 0, for a later
    tick, is left in front of alarm 2, which is due. The deadlines lie in one window with the clock
    then, but not before. The pass fires nothing. -/
theorem process_fires_due_obstructed :
    ∃ (history : List (Event Unit × Alarms Unit)) (a : Alarms Unit) (last : Unit × Alarms Unit),
      Trace Happens { capacity := 4 } history a ∧
        history.map Prod.fst =
          [.granted (.register () 0), .granted (.register () 0), .granted (.register () 0),
            .granted (.scheduleAt 0 0), .granted (.scheduleAt 1 0x60000000),
            .granted (.scheduleAt 2 0xc0000000), .granted (.cancel 1)] ∧
        a.InWindow 0xc0000000 ∧ Tick.InHalfTurn 0xc0000000 0xc0000000 ∧
        (∀ id ∈ a.queue, passesSince id history + 1 < 0x100000000) ∧
        (((scheduledIn history).mergeSort (Agenda.isSooner 0xc0000000)).filter fun entry =>
          Tick.hasReached entry.2 0xc0000000).map Prod.fst = [2] ∧
        process (asking (fun _ _ _ _ => []) fun _ _ _ _ => ()) 0xc0000000 ((), a) = .ok (0, last) ∧
        last.2.state 2 = .ok (.scheduled 0xc0000000) := by
  have run : ∃ (history : List (Event Unit × Alarms Unit)) (a : Alarms Unit)
      (last : Unit × Alarms Unit), Trace Happens { capacity := 4 } history a ∧
        history.map Prod.fst =
          [.granted (.register () 0), .granted (.register () 0), .granted (.register () 0),
            .granted (.scheduleAt 0 0), .granted (.scheduleAt 1 0x60000000),
            .granted (.scheduleAt 2 0xc0000000), .granted (.cancel 1)] ∧
        a.fitsWindow 0xc0000000 = true ∧
        (a.queue.all fun id => passesSince id history + 1 < 0x100000000) = true ∧
        scheduledIn history = [(0, 0), (2, 0xc0000000)] ∧
        process (asking (fun _ _ _ _ => []) fun _ _ _ _ => ()) 0xc0000000 ((), a) = .ok (0, last) ∧
        last.2.state 2 = .ok (.scheduled 0xc0000000) :=
    ⟨_, _, _, .cons (.granted rfl) <| .cons (.granted rfl) <| .cons (.granted rfl) <|
      .cons (.granted rfl) <| .cons (.granted rfl) <| .cons (.granted rfl) <|
      .single (.granted rfl), rfl, rfl, rfl, rfl, rfl, rfl⟩
  obtain ⟨history, a, last, trace, events, window, recent, scheduled, completed, left⟩ := run
  refine ⟨history, a, last, trace, events, inWindow_of_fitsWindow window, by decide,
    fun id member => of_decide_eq_true (List.all_eq_true.mp recent id member), ?_, completed, left⟩
  have sorted : (scheduledIn history).mergeSort (Agenda.isSooner 0xc0000000) =
      [(2, 0xc0000000), (0, 0)] := by
    simp [scheduled, List.mergeSort, List.MergeSort.Internal.splitInTwo, Agenda.isSooner]
  rw [sorted]
  decide

/-- The action of alarm 1 cancels alarm 3 and sets its own alarm anew, for the tick of the pass. -/
def meddling : Wishes Unit Unit :=
  fun _ id _ _ => if id = 1 then [.cancel 3, .schedule 5 1 0] else []

/-- The window passes tick zero, and a pass has been run before. Alarms 0 and 2 are for the same
    tick, alarm 3 is cancelled before its turn, and alarm 4 is not due. -/
theorem process_fires_due_meddled :
    ∃ (history : List (Event Unit × Alarms Unit)) (a : Alarms Unit)
        (rounds : List (Firing Unit Unit × (Unit × Alarms Unit))) (last : Unit × Alarms Unit),
      Trace Happens { capacity := 5 } history a ∧
        history.map Prod.fst =
          [.granted (.register () 0), .granted (.register () 0), .granted (.register () 0),
            .granted (.register () 0), .granted (.register () 0), .granted (.scheduleAt 0 2),
            .granted (.scheduleAt 2 2), .granted (.scheduleAt 1 0xfffffffe), .newPass,
            .granted (.scheduleAt 3 5), .granted (.scheduleAt 4 100)] ∧
        process (asking meddling fun _ _ _ _ => ()) 5 ((), a) = .ok (3, last) ∧
        rounds.map (·.1.id) = [1, 0, 2, 3].filter (fun id => !setBefore meddling rounds id) ∧
        last.2.queue = [1, 4] ∧ last.2.state 4 = .ok (.scheduled 100) := by
  have run : ∃ (history : List (Event Unit × Alarms Unit)) (a : Alarms Unit)
      (last : Unit × Alarms Unit), Trace Happens { capacity := 5 } history a ∧
        history.map Prod.fst =
          [.granted (.register () 0), .granted (.register () 0), .granted (.register () 0),
            .granted (.register () 0), .granted (.register () 0), .granted (.scheduleAt 0 2),
            .granted (.scheduleAt 2 2), .granted (.scheduleAt 1 0xfffffffe), .newPass,
            .granted (.scheduleAt 3 5), .granted (.scheduleAt 4 100)] ∧
        process (asking meddling fun _ _ _ _ => ()) 5 ((), a) = .ok (3, last) ∧
        last.2.queue = [1, 4] ∧
        (history.all fun entry => entry.2.fitsWindow 0xfffffff0) = true ∧
        a.fitsWindow 0xfffffff0 = true ∧
        (a.queue.all fun id => passesSince id history + 1 < 0x100000000) = true ∧
        scheduledIn history = [(0, 2), (2, 2), (1, 0xfffffffe), (3, 5), (4, 100)] ∧
        a.state 4 = .ok (.scheduled 100) :=
    ⟨_, _, _, .cons (.granted rfl) <| .cons (.granted rfl) <| .cons (.granted rfl) <|
      .cons (.granted rfl) <| .cons (.granted rfl) <| .cons (.granted rfl) <|
      .cons (.granted rfl) <| .cons (.granted rfl) <| .cons .newPass <| .cons (.granted rfl) <|
      .single (.granted rfl), rfl, rfl, rfl, rfl, rfl, rfl, rfl, rfl⟩
  obtain ⟨history, a, last, trace, events, completed, queue, windows, window, recent, scheduled,
    later⟩ := run
  obtain ⟨-, clear, rounds, last', -, -, counted, -, fired, kept⟩ := process_fires_due trace
    (inWindow_of_fitsWindow window) (by decide : Tick.InHalfTurn 0xfffffff0 5)
    (fun id member => of_decide_eq_true (List.all_eq_true.mp recent id member))
    meddling (fun _ _ _ _ => ()) ()
  have unobstructed := clear fun entry member =>
    ⟨_, inWindow_of_fitsWindow (List.all_eq_true.mp windows entry member)⟩
  obtain ⟨-, rfl⟩ := Prod.mk.inj (Except.ok.inj (completed.symm.trans counted))
  have asked (id : AlarmId) :
      ∀ r ∈ meddling () id 0 ((), a), r.Within 0xfffffff0 5 ∧ r.target? ≠ some 4 := by
    unfold meddling
    split <;> decide
  refine ⟨history, a, rounds, last, trace, events, completed, ?_, queue, ?_⟩
  · have sorted : (scheduledIn history).mergeSort (Agenda.isSooner 0xfffffff0) =
        [(1, 0xfffffffe), (0, 2), (2, 2), (3, 5), (4, 100)] := by
      simp [scheduled, List.mergeSort, List.MergeSort.Internal.splitInTwo, Agenda.isSooner]
    rw [fired unobstructed fun round _ r member => (asked round.1.id r member).1, sorted]
    rfl
  · exact kept 4 100 later (by decide) fun round _ r member => (asked round.1.id r member).2

end Alarms

end MoteLink
