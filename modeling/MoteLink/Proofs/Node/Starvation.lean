import MoteLink.Proofs.Alarm.Order
import MoteLink.Proofs.Node.Deed

/-!
# Alarms that are passed over

What is scheduled in a pass waits for the next one, and a pass ends at the first alarm that has to
wait. An alarm that is due is passed over if it stands behind such an alarm. The actions of alarms
schedule nothing before the tick of the pass, so only the link's alarm can get in front: served in
vain, because the channel could not be assessed, it is armed again for a deadline that has passed.
-/

namespace MoteLink

open Link

namespace Agenda

/-- What is set for another alarm stands in front of an entry only if it was there before or is for
    an earlier tick. -/
theorem exists_set {id x : AlarmId} (ne : x ≠ id) (tick : Tick) (before behind : Agenda)
    (deadline : Option Tick) :
    ∃ before' behind',
      (before ++ (x, tick) :: behind : Agenda).set id deadline = before' ++ (x, tick) :: behind' ∧
        ∀ entry ∈ before', entry ∈ before ∧ entry.1 ≠ id ∨
          entry.1 = id ∧ deadline = some entry.2 ∧ Tick.isAfter tick entry.2 = true := by
  have struck : strike id (before ++ (x, tick) :: behind) =
      strike id before ++ (x, tick) :: strike id behind := by
    simp [strike, ne]
  have old (entry : AlarmId × Tick) (member : entry ∈ strike id before) :
      entry ∈ before ∧ entry.1 ≠ id := mem_strike.mp member
  cases deadline with
  | none => exact ⟨_, _, struck, fun entry member => .inl (old entry member)⟩
  | some deadline =>
    obtain ⟨before', behind', inserted, front⟩ :=
      exists_insert_of_split id deadline (strike id before) (strike id behind) (x, tick)
    refine ⟨before', behind', (congrArg _ struck).trans inserted, fun entry member => ?_⟩
    rcases front entry member with kept | ⟨rfl, earlier⟩
    · exact .inl (old entry kept)
    · exact .inr ⟨rfl, rfl, earlier⟩

end Agenda

variable {ρ γ α κ ε : Type}

namespace Node

/-! ## One alarm in a pass -/

/-- What is asked of each moment of a pass at `now` for the sake of the alarm `x`: the clock stands
    still, the application leaves this alarm and the arming of the link's alarm alone and schedules
    alarms by delays that end in one window with the clock, where all deadlines lie, and no alarm
    bears the number of a pass that begins, as one would that was scheduled a full turn of passes
    ago. -/
structure Calm (now : Tick) (x : AlarmId) (entry : Deed κ × Stack ρ γ α × Alarms (Duty κ)) :
    Prop where
  still : ∀ tick, entry.1 ≠ .wait tick
  unarmed : ∀ id, entry.1 ≠ .arm id
  untouched : ∀ r, entry.1 = .alarms (.granted r) → r.target? ≠ some x
  relative : ∀ r deadline, entry.1 = .alarms (.granted r) → r.deadline? = some deadline →
    ∃ delay : UInt32, delay < 0x80000000 ∧ deadline = now + delay
  window : ∃ base, Tick.InHalfTurn base now ∧ entry.2.2.InWindow base
  begins : entry.1 = .alarms .newPass → ∀ id deadline pass,
    entry.2.2.booking? id = some (deadline, pass) → pass ≠ entry.2.2.pass

/-- An alarm that the application leaves alone is set by firing only. -/
theorem Calm.fires_of_sets {now : Tick} {x : AlarmId} {e : Alarms.Event (Duty κ)}
    {t : Stack ρ γ α × Alarms (Duty κ)} {deadline : Option Tick} (calm : Calm now x (.alarms e, t))
    (sets : e.sets? = some (x, deadline)) : ∃ tick, e = .fire tick x := by
  cases e with
  | granted r =>
    obtain ⟨target, asked, same⟩ := Option.map_eq_some_iff.mp sets
    cases same
    exact absurd asked (calm.untouched r rfl)
  | fire tick id =>
    cases sets
    exact ⟨tick, rfl⟩
  | refused r error => cases sets
  | newPass => cases sets
  | drop tick id => cases sets

/-- What the application schedules is not for a tick before `now`. -/
theorem Calm.isAfter_of_sets {now : Tick} {x id : AlarmId} {e : Alarms.Event (Duty κ)}
    {t : Stack ρ γ α × Alarms (Duty κ)} {deadline : Tick} (calm : Calm now x (.alarms e, t))
    (sets : e.sets? = some (id, some deadline)) : Tick.isAfter now deadline = false := by
  cases e with
  | granted r =>
    obtain ⟨target, asked, same⟩ := Option.map_eq_some_iff.mp sets
    obtain ⟨delay, short, rfl⟩ := calm.relative r deadline rfl (Prod.mk.inj same).2
    exact Tick.isAfter_of_wait now short
  | fire tick id => cases sets
  | refused r error => cases sets
  | newPass => cases sets
  | drop tick id => cases sets

/-- The moment at which an alarm has served the link and is armed for a deadline. -/
def Serves (entry : Deed κ × Stack ρ γ α × Alarms (Duty κ)) (id : AlarmId) (deadline : Tick) :
    Prop :=
  (∃ now ok, entry.1 = .serve now id ok) ∧ entry.2.2.deadline? id = some deadline

/-- The alarm `x` waits for `tick` as it did when the pass began. What was scheduled in this pass
    stands in front of it only for an earlier tick, and is for a tick before `now` only if it has
    served the link. -/
structure Waits (now tick : Tick) (x : AlarmId) (r : Registration (Duty κ))
    (past : List (Deed κ × Stack ρ γ α × Alarms (Duty κ))) (t : Stack ρ γ α × Alarms (Duty κ)) :
    Prop where
  clock : t.1.clock = now
  found : t.2.get? x = some r
  old : r.pass ≠ t.2.pass
  upright : t.2.Upright
  place : ∃ before behind : Agenda, t.2.Shows (before ++ (x, tick) :: behind) ∧
    Agenda.Ordered (before ++ (x, tick) :: behind) ∧
    ∀ entry ∈ before, t.2.booking? entry.1 = some (entry.2, t.2.pass) →
      Tick.isAfter tick entry.2 = true
  recent : ∀ id deadline, t.2.booking? id = some (deadline, t.2.pass) →
    Tick.isAfter now deadline = false ∨ ∃ entry ∈ past, Serves entry id deadline

namespace Waits

variable {now tick : Tick} {x id : AlarmId} {r : Registration (Duty κ)} {s s' : Stack ρ γ α}
  {a a' : Alarms (Duty κ)} {t : Stack ρ γ α × Alarms (Duty κ)}
  {past past' : List (Deed κ × Stack ρ γ α × Alarms (Duty κ))}

/-- The alarm goes on waiting when another one is set, if not for a tick before `now` other than by
    serving the link. -/
theorem sets {deadline : Option Tick} (waits : Waits now tick x r past (s, a))
    (sets : a.Sets id deadline a') (ne : x ≠ id) (upright : a'.Upright)
    (clock : s'.clock = now) (more : past ⊆ past')
    (window : deadline.isSome → ∃ base, a'.InWindow base)
    (new : ∀ d, deadline = some d →
      Tick.isAfter now d = false ∨ ∃ entry ∈ past', Serves entry id d) :
    Waits now tick x r past' (s', a') := by
  obtain ⟨before, behind, shows, ordered, ahead⟩ := waits.place
  obtain ⟨before', behind', split, front⟩ := Agenda.exists_set ne tick before behind deadline
  obtain ⟨shown, kept⟩ := sets.ordered shows ordered waits.upright window
  rw [split] at shown kept
  refine ⟨clock, (sets.others x ne).trans waits.found, sets.pass.symm ▸ waits.old, upright,
    ⟨before', behind', shown, kept, ?_⟩, ?_⟩
  · intro entry member booked
    rcases front entry member with ⟨old, other⟩ | ⟨-, -, earlier⟩
    · rw [sets.pass, sets.bookings, Function.update_of_ne other] at booked
      exact ahead entry old booked
    · exact earlier
  · intro other d booked
    rw [sets.pass, sets.bookings] at booked
    by_cases same : other = id
    · rw [same, Function.update_self] at booked
      obtain ⟨d', scheduled, booking⟩ := Option.map_eq_some_iff.mp booked
      cases booking
      rw [same]
      exact new d scheduled
    · rw [Function.update_of_ne same] at booked
      rcases waits.recent other d booked with upTo | ⟨entry, member, serves⟩
      · exact .inl upTo
      · exact .inr ⟨entry, more member, serves⟩

/-- Where no alarm bears the number of the pass, the alarm waits as if the pass had just begun. -/
theorem of_none_recent (clock : s.clock = now) (found : a.get? x = some r) (upright : a.Upright)
    {l : Agenda} (shows : a.Shows l) (ordered : l.Ordered) (listed : (x, tick) ∈ l)
    (none_recent : ∀ id deadline pass, a.booking? id = some (deadline, pass) → pass ≠ a.pass) :
    Waits now tick x r past (s, a) := by
  obtain ⟨before, behind, rfl⟩ := List.append_of_mem listed
  refine ⟨clock, found, ?_, upright, ⟨before, behind, shows, ordered, ?_⟩, ?_⟩
  · obtain ⟨pass, booked⟩ := Alarms.deadline?_eq_some_iff.mp ((shows.mem_iff x tick).mp listed)
    have own := none_recent x tick pass booked
    unfold Alarms.booking? at booked
    rw [found] at booked
    rcases r with ⟨action, arg, - | scheduled, stamp⟩
    · cases booked
    · cases booked
      exact own
  · exact fun entry _ booked => absurd rfl (none_recent _ _ _ booked)
  · exact fun id deadline booked => absurd rfl (none_recent _ _ _ booked)

/-- The alarm goes on waiting when no alarm is set. -/
theorem keeps {e : Alarms.Event (Duty κ)} (waits : Waits now tick x r past (s, a))
    (happens : Alarms.Happens a e a') (none : e.sets? = none)
    (begins : e = .newPass → ∀ id deadline pass, a'.booking? id = some (deadline, pass) →
      pass ≠ a'.pass) : Waits now tick x r past (s, a') := by
  have keeps := happens.keeps none
  have upright := waits.upright.happens happens
  have found : a'.get? x = some r :=
    (keeps.others x (Option.isSome_of_eq_some waits.found)).trans waits.found
  obtain ⟨before, behind, shows, ordered, ahead⟩ := waits.place
  have shown := keeps.shows shows
  by_cases newPass : e = .newPass
  · exact of_none_recent waits.clock found upright shown ordered (by simp) (begins newPass)
  · have pass := keeps.pass newPass
    refine ⟨waits.clock, found, pass.symm ▸ waits.old, upright,
      ⟨before, behind, shown, ordered, ?_⟩, ?_⟩
    · rw [pass, keeps.bookings]
      exact ahead
    · rw [pass, keeps.bookings]
      exact waits.recent

theorem mono (waits : Waits now tick x r past t) (more : past ⊆ past') :
    Waits now tick x r past' t := by
  refine ⟨waits.clock, waits.found, waits.old, waits.upright, waits.place, ?_⟩
  intro id deadline booked
  rcases waits.recent id deadline booked with upTo | ⟨entry, member, serves⟩
  · exact .inl upTo
  · exact .inr ⟨entry, more member, serves⟩

end Waits

/-! ## Deeds -/

variable [Transceiver ρ ε] [RandomSource γ] {t t' : Stack ρ γ α × Alarms (Duty κ)} {deed : Deed κ}
  {history : List (Deed κ × Stack ρ γ α × Alarms (Duty κ))}

/-- Whatever is done, the queue stays in order if all deadlines lie in one window afterwards. -/
theorem Does.ordered {l : Agenda} {base : Tick} (does : Does t deed t') (shows : t.2.Shows l)
    (ordered : l.Ordered) (upright : t.2.Upright) (window : t'.2.InWindow base) :
    ∃ l' : Agenda, t'.2.Shows l' ∧ l'.Ordered := by
  cases does with
  | stack becomes => exact ⟨l, shows, ordered⟩
  | wait now => exact ⟨l, shows, ordered⟩
  | alarms happens => exact ⟨_, happens.ordered shows ordered upright window⟩
  | @serve s s' a now id r result due isLink served =>
    -- Between the release and the arming no new deadline needs a window.
    obtain ⟨found, -⟩ := Alarms.head_eq_due due
    have released := Alarms.sets_release (Option.isSome_of_eq_some found)
    obtain ⟨shown, kept⟩ := released.ordered shows ordered upright nofun
    obtain ⟨e, arms⟩ := Stack.happens_arm _ _ _
    exact ⟨_, arms.ordered shown kept (upright.happens (.fire due)) window⟩
  | arm id =>
    obtain ⟨e, arms⟩ := Stack.happens_arm _ _ _
    exact ⟨_, arms.ordered shows ordered upright window⟩

theorem ordered_of_deeds {fresh : Stack ρ γ α × Alarms (Duty κ)}
    (past : Trace Does fresh history t) (upright : fresh.2.Upright) (empty : fresh.2.Shows [])
    (windows : ∀ entry ∈ history, ∃ base, entry.2.2.InWindow base) :
    t.2.Upright ∧ ∃ l : Agenda, t.2.Shows l ∧ l.Ordered := by
  refine past.invariant (K := fun entry => ∃ base, entry.2.2.InWindow base)
    (I := fun _ t => t.2.Upright ∧ ∃ l : Agenda, t.2.Shows l ∧ l.Ordered)
    ⟨upright, [], empty, List.Pairwise.nil⟩ ?_ windows
  rintro past t deed t' ⟨upright, l, shows, ordered⟩ does ⟨base, window⟩
  exact ⟨does.upright upright, does.ordered shows ordered upright window⟩

namespace Waits

variable {now tick : Tick} {x : AlarmId} {r : Registration (Duty κ)}
  {past : List (Deed κ × Stack ρ γ α × Alarms (Duty κ))}

/-- In a calm moment an alarm of the application goes on waiting or fires. -/
theorem step (waits : Waits now tick x r past t) (isApp : r.action ≠ .link)
    (does : Does t deed t') (calm : Calm now x (deed, t')) :
    Waits now tick x r (past ++ [(deed, t')]) t' ∨
      (∃ tick, deed = .alarms (.fire tick x)) ∧ t'.2.booking? x = none := by
  obtain ⟨base, -, window⟩ := calm.window
  have more : past ⊆ past ++ [(deed, t')] := List.subset_append_left _ _
  have clock := (does.clock_eq calm.still).trans waits.clock
  cases does with
  | @stack s s' a becomes =>
    have longer := waits.mono more
    exact .inl ⟨clock, longer.found, longer.old, longer.upright, longer.place, longer.recent⟩
  | wait tick => exact absurd rfl (calm.still tick)
  | arm id => exact absurd rfl (calm.unarmed id)
  | @alarms s a a' e happens =>
    rcases sets : e.sets? with - | ⟨id, deadline⟩
    · refine .inl ((waits.mono more).keeps happens sets fun newPass => ?_)
      exact calm.begins (congrArg Deed.alarms newPass)
    by_cases own : id = x
    · -- The application leaves the alarm alone, so this is its turn.
      subst own
      obtain ⟨tick, rfl⟩ := calm.fires_of_sets sets
      refine .inr ⟨⟨tick, rfl⟩, ?_⟩
      rw [(happens.sets sets).bookings, Function.update_self]
      cases sets
      rfl
    · refine .inl (waits.sets (happens.sets sets) (Ne.symm own) (waits.upright.happens happens)
        waits.clock more (fun _ => ⟨base, window⟩) fun d scheduled => .inl ?_)
      subst scheduled
      exact calm.isAfter_of_sets sets
  | @serve s s' a now' id r' result due isLink served =>
    obtain ⟨found, -⟩ := Alarms.head_eq_due due
    have ne : x ≠ id := by
      rintro rfl
      cases found.symm.trans waits.found
      exact isApp isLink
    have released := Alarms.sets_release (Option.isSome_of_eq_some found)
    have known := Alarms.isSome_get?_release released.known
    have middle := waits.upright.happens (.fire due)
    have arms := s'.sets_arm known
    obtain ⟨e, arming⟩ := s'.happens_arm (a.release id) id
    have between : Waits now tick x r past (s', a.release id) :=
      waits.sets released ne middle clock (List.Subset.refl past) nofun nofun
    refine .inl (between.sets arms ne (middle.happens arming) clock more
      (fun _ => ⟨base, window⟩) fun d next => .inr ?_)
    refine ⟨_, List.mem_append_right _ (List.mem_singleton_self _), ⟨⟨_, _, rfl⟩, ?_⟩⟩
    rw [arms.deadline?_eq, Function.update_self, next]

end Waits

/-- In a calm moment an alarm that is idle stays idle. -/
theorem Does.idle {now : Tick} {x : AlarmId} (does : Does t deed t') (calm : Calm now x (deed, t'))
    (idle : t.2.booking? x = none) : t'.2.booking? x = none := by
  cases does with
  | stack becomes => exact idle
  | wait tick => exact absurd rfl (calm.still tick)
  | arm id => exact absurd rfl (calm.unarmed id)
  | alarms happens =>
    rename_i e
    rcases sets : e.sets? with - | ⟨id, deadline⟩
    · rw [(happens.keeps sets).bookings]
      exact idle
    · rw [(happens.sets sets).bookings, Function.update_of_ne, idle]
      rintro rfl
      -- The alarm is not in the queue, so it does not fire.
      obtain ⟨tick, rfl⟩ := calm.fires_of_sets sets
      cases happens with
      | fire due =>
        obtain ⟨-, tick, rest, -, booked, -⟩ := Alarms.head_eq_due due
        cases idle.symm.trans booked
  | serve due isLink served =>
    rename_i s s' a now id r result
    obtain ⟨found, tick, rest, -, booked, -⟩ := Alarms.head_eq_due due
    have ne : x ≠ id := by
      rintro rfl
      cases idle.symm.trans booked
    have released := Alarms.sets_release (Option.isSome_of_eq_some found)
    have known := Alarms.isSome_get?_release released.known
    rw [(s'.sets_arm known).bookings, Function.update_of_ne ne, released.bookings,
      Function.update_of_ne ne, idle]

/-! ## The whole pass -/

/-- At the end of a pass the alarm still stands behind one that has served the link in this pass and
    is armed for an earlier tick. -/
def PassedOver (x : AlarmId) (tick : Tick)
    (moments : List (Deed κ × Stack ρ γ α × Alarms (Duty κ)))
    (last : Stack ρ γ α × Alarms (Duty κ)) : Prop :=
  last.2.deadline? x = some tick ∧
    ∃ id deadline, last.2.queue.head? = some id ∧ last.2.deadline? id = some deadline ∧
      Tick.isAfter tick deadline = true ∧ ∃ entry ∈ moments, Serves entry id deadline

variable {now tick : Tick} {x : AlarmId} {r : Registration (Duty κ)}
  {moments : List (Deed κ × Stack ρ γ α × Alarms (Duty κ))} {last : Stack ρ γ α × Alarms (Duty κ)}

omit [Transceiver ρ ε] [RandomSource γ] in
/-- A pass ends before an alarm that is due only if that alarm is passed over. -/
theorem Waits.passedOver {base : Tick} (waits : Waits now tick x r moments last)
    (reached : Tick.hasReached tick now = true) (done : last.2.head now = .done)
    (inWindow : Tick.InHalfTurn base now) (window : last.2.InWindow base) :
    PassedOver x tick moments last := by
  obtain ⟨before, behind, shows, ordered, ahead⟩ := waits.place
  have listed : (x, tick) ∈ (before ++ (x, tick) :: behind : Agenda) := by simp
  have own : last.2.deadline? x = some tick := (shows.mem_iff x tick).mp listed
  have due : tick - base ≤ now - base := by
    refine (Tick.isAfter_eq_false_iff (window x tick own) inWindow).mp ?_
    simpa [Tick.hasReached] using reached
  refine ⟨own, ?_⟩
  rcases Alarms.head_eq_done done with empty | ⟨id, rest, deadline, pass, queued, booked, stops⟩
  · rw [shows.queue] at empty
    simp at empty
  have scheduled : last.2.deadline? id = some deadline :=
    Alarms.deadline?_eq_some_iff.mpr ⟨pass, booked⟩
  have there := window id deadline scheduled
  have head := shows.queue.symm.trans queued
  -- The head of the queue is due, so it was scheduled in this pass and is another alarm.
  cases before with
  | nil =>
    obtain ⟨rfl, -⟩ := List.cons.inj head
    cases own.symm.trans scheduled
    rcases stops with later | same
    · rw [Tick.isAfter_iff there inWindow, ← UInt32.not_le] at later
      exact absurd due later
    · unfold Alarms.booking? at booked
      rw [waits.found] at booked
      refine absurd ?_ waits.old
      rcases r with ⟨action, arg, - | due, stamp⟩
      · cases booked
      · cases booked
        exact same
  | cons entry before =>
    obtain ⟨rfl, -⟩ := List.cons.inj head
    have first : last.2.deadline? entry.1 = some entry.2 :=
      (shows.mem_iff _ _).mp (List.mem_append_left _ List.mem_cons_self)
    cases first.symm.trans scheduled
    have upTo : Tick.isAfter entry.2 tick = false :=
      (List.pairwise_append.mp ordered).2.2 entry List.mem_cons_self (x, tick) List.mem_cons_self
    rw [Tick.isAfter_eq_false_iff there (window x tick own)] at upTo
    rcases stops with later | rfl
    · rw [Tick.isAfter_iff there inWindow, ← UInt32.not_le] at later
      exact absurd (UInt32.le_trans upTo due) later
    · have earlier := ahead entry List.mem_cons_self booked
      refine ⟨entry.1, entry.2, ?_, scheduled, earlier, ?_⟩
      · rw [queued]
        rfl
      · rcases waits.recent _ _ booked with notBefore | serves
        · rw [Tick.isAfter_eq_false_iff inWindow there, ← UInt32.not_lt] at notBefore
          rw [Tick.isAfter_iff (window x tick own) there] at earlier
          exact absurd (UInt32.lt_of_lt_of_le earlier due) notBefore
        · exact serves

omit [Transceiver ρ ε] [RandomSource γ] in
theorem Waits.booked (waits : Waits now tick x r moments t) : t.2.deadline? x = some tick := by
  obtain ⟨before, behind, shows, -⟩ := waits.place
  exact (shows.mem_iff x tick).mp (by simp)

/-- In a calm pass an alarm of the application fires or waits, and is idle once it has fired. -/
theorem fires_or_waits (trace : Trace Does t moments last) (start : Waits now tick x r [] t)
    (isApp : r.action ≠ .link) (calm : ∀ entry ∈ moments, Calm now x entry) :
    ((∃ entry ∈ moments, ∃ now, entry.1 = .alarms (.fire now x)) → last.2.booking? x = none) ∧
      ((∃ entry ∈ moments, ∃ now, entry.1 = .alarms (.fire now x)) ∨
        Waits now tick x r moments last) := by
  refine trace.invariant (K := Calm now x) (I := fun past t =>
    ((∃ entry ∈ past, ∃ now, entry.1 = .alarms (.fire now x)) → t.2.booking? x = none) ∧
      ((∃ entry ∈ past, ∃ now, entry.1 = .alarms (.fire now x)) ∨ Waits now tick x r past t))
    ⟨by simp, .inr start⟩ ?_ calm
  rintro past t deed t' ⟨idles, fired | waits⟩ does calm
  · refine ⟨fun _ => does.idle calm (idles fired), .inl ?_⟩
    obtain ⟨entry, member, fires⟩ := fired
    exact ⟨entry, List.mem_append_left _ member, fires⟩
  · rcases waits.step isApp does calm with waits | ⟨fires, idle⟩
    · refine ⟨?_, .inr waits⟩
      rintro ⟨entry, member, tick, fires⟩
      rcases List.mem_append.mp member with old | new
      · exact does.idle calm (idles ⟨entry, old, tick, fires⟩)
      · cases List.mem_singleton.mp new
        cases fires
        cases does with
        | alarms happens =>
          rw [(happens.sets rfl).bookings, Function.update_self]
          rfl
    · exact ⟨fun _ => idle, .inl ⟨_, List.mem_append_right _ (List.mem_singleton_self _), fires⟩⟩

/-! ## Serving the link without failure -/

/-- An alarm that serves the link without failure is not armed for a tick that has passed. -/
theorem Does.ahead {id : AlarmId} {start deadline : Tick} (does : Does t (.serve start id true) t')
    (served : t.1.link.Served) (short : t'.1.link.ShortWaits t'.1.clock)
    (armed : t'.2.deadline? id = some deadline) :
    Tick.isAfter deadline t'.1.clock = true ∨ Tick.isAfter t'.1.clock deadline = false := by
  generalize same : Deed.serve start id true = deed at does
  cases does with
  | stack becomes => cases same
  | wait tick => cases same
  | alarms happens => cases same
  | arm id => cases same
  | @serve s s' a tick id r result due isLink serves =>
    obtain ⟨rfl, rfl, ok⟩ := Deed.serve.inj same
    cases result with
    | error e => cases ok
    | ok done =>
      obtain ⟨found, -⟩ := Alarms.head_eq_due due
      have arms := s'.sets_arm (Alarms.isSome_get?_release (Option.isSome_of_eq_some found))
      rw [arms.deadline?_eq, Function.update_self] at armed
      exact Stack.isAfter_of_service served serves short armed

/-- If an alarm has served the link without failure in this moment, and no wait of the link is too
    long, then it is not armed for a tick before `now`. -/
def Prompt (now : Tick) (entry : Deed κ × Stack ρ γ α × Alarms (Duty κ)) : Prop :=
  ∀ start id deadline, entry.1 = .serve start id true → entry.2.1.link.ShortWaits now →
    entry.2.2.deadline? id = some deadline →
    Tick.isAfter deadline now = true ∨ Tick.isAfter now deadline = false

theorem prompt_of_calm (trace : Trace Does t moments last) (clock : t.1.clock = now)
    (served : t.1.link.Served) (calm : ∀ entry ∈ moments, Calm now x entry) :
    ∀ entry ∈ moments, Prompt now entry := by
  refine (trace.invariant (K := Calm now x) (I := fun past t =>
    t.1.clock = now ∧ t.1.link.Served ∧ ∀ entry ∈ past, Prompt now entry)
    ⟨clock, served, List.forall_mem_nil _⟩ ?_ calm).2.2
  rintro past t deed t' ⟨clock, served, all⟩ does calm
  have still : t'.1.clock = now := (does.clock_eq calm.still).trans clock
  refine ⟨still, does.served served, fun entry member => ?_⟩
  rcases List.mem_append.mp member with old | new
  · exact all entry old
  · rw [List.mem_singleton.mp new]
    rintro start id deadline isServe short armed
    subst still
    cases isServe
    exact does.ahead served short armed

omit [RandomSource γ] [Transceiver ρ ε] in
/-- An alarm that is passed over stands behind one that has served the link in vain, unless some
    wait of the link is too long. -/
theorem PassedOver.serves_in_vain {base : Tick} (overtaken : PassedOver x tick moments last)
    (prompt : ∀ entry ∈ moments, Prompt now entry) (reached : Tick.hasReached tick now = true)
    (short : ∀ entry ∈ moments, entry.2.1.link.ShortWaits now)
    (inWindow : Tick.InHalfTurn base now) (window : last.2.InWindow base) :
    ∃ entry ∈ moments, ∃ start id, entry.1 = .serve start id false := by
  obtain ⟨own, id, deadline, -, scheduled, earlier, entry, member, ⟨start, ok, isServe⟩, armed⟩ :=
    overtaken
  cases ok with
  | false => exact ⟨entry, member, start, id, isServe⟩
  | true =>
    have here := window x tick own
    have there := window id deadline scheduled
    have due : tick - base ≤ now - base := by
      refine (Tick.isAfter_eq_false_iff here inWindow).mp ?_
      simpa [Tick.hasReached] using reached
    rw [Tick.isAfter_iff here there] at earlier
    have passed := UInt32.lt_of_lt_of_le earlier due
    rcases prompt entry member start id deadline isServe (short entry member) armed with
      later | notBefore
    · rw [Tick.isAfter_iff there inWindow] at later
      exact absurd (UInt32.le_of_lt later) (UInt32.not_le.mpr passed)
    · rw [Tick.isAfter_eq_false_iff inWindow there] at notBefore
      exact absurd passed (UInt32.not_lt.mpr notBefore)

variable [Backlog ρ]

/-- In a pass an alarm of the application that is due, and that the application leaves alone, fires
    unless it is passed over. If no alarm serves the link in vain, and no wait of the link is too
    long, it fires, whatever else fails at the radio. -/
theorem fires_iff_not_passedOver {method : Method} {capacity : Nat} {config : Config} {radio : ρ}
    {rng : γ} {forwarder : Forwarder α} {state : α} {alarmCapacity : Nat}
    {fresh n n' : Node ρ γ α κ}
    (built : new (.new method capacity config radio rng) forwarder state alarmCapacity = .ok fresh)
    (past : Trace Does (fresh.stack, fresh.alarms) history (n.stack, n.alarms))
    (windows : ∀ entry ∈ history, ∃ base, entry.2.2.InWindow base)
    {app : κ → AlarmId → Nat → Stack ρ γ α × Alarms (Duty κ) →
      Except Halt (Stack ρ γ α × Alarms (Duty κ))}
    {drained : Stack ρ γ α} (completes : n.Completes app drained moments last n')
    {label : κ} {arg : Nat} {pass : UInt32}
    (waits : n.alarms.get? x =
      some { action := .app label, arg, state := .scheduled tick, pass })
    (reached : Tick.hasReached tick n.stack.clock = true)
    (calm : ∀ entry ∈ (.alarms .newPass, drained, n.alarms.beginPass) :: moments,
      Calm n.stack.clock x entry) :
    ((∃ entry ∈ moments, ∃ now, entry.1 = .alarms (.fire now x)) ↔
        ¬PassedOver x tick moments last) ∧
      ((∀ entry ∈ moments, entry.2.1.link.ShortWaits n.stack.clock) →
        (∀ entry ∈ moments, ∀ start id, entry.1 ≠ .serve start id false) →
        ∃ entry ∈ moments, ∃ now, entry.1 = .alarms (.fire now x)) := by
  obtain ⟨link, upright, empty, -⟩ := new_eq_ok built
  have servedFresh : fresh.stack.link.Served := by
    rw [link]
    exact served_new method capacity config radio rng
  have served : n.stack.link.Served := served_of_deeds past servedFresh
  obtain ⟨upright, l, shows, ordered⟩ := ordered_of_deeds past upright empty windows
  obtain ⟨r, drains⟩ := completes.drains
  have drain := Stack.becomes_of_drainRadio drains
  have trace := completes.unfolds.trace
  obtain ⟨begins, during⟩ := List.forall_mem_cons.mp calm
  -- At the end of the pass the clock and all deadlines still lie in one window.
  obtain ⟨base, inWindow, window⟩ :
      ∃ base, Tick.InHalfTurn base n.stack.clock ∧ last.2.InWindow base := by
    rcases trace.last_mem with same | ⟨e, member⟩
    · rw [same]
      exact begins.window
    · exact (during _ member).window
  have listed : (x, tick) ∈ l := by
    rw [shows.mem_iff, Alarms.deadline?, waits]
  have start : Waits n.stack.clock tick x
      { action := .app label, arg, state := .scheduled tick, pass } []
      (drained, n.alarms.beginPass) :=
    .of_none_recent drain.clock_eq waits (upright.happens .newPass)
      ((Alarms.Happens.newPass.keeps rfl).shows shows) ordered listed (begins.begins rfl)
  obtain ⟨idles, fired | still⟩ := fires_or_waits trace start (by simp) during
  · refine ⟨⟨fun _ overtaken => ?_, fun _ => fired⟩, fun _ _ => fired⟩
    have booked := overtaken.1
    rw [Alarms.deadline?_eq, idles fired] at booked
    cases booked
  · have overtaken : PassedOver x tick moments last :=
      still.passedOver reached (drain.clock_eq ▸ completes.unfolds.head_eq_done) inWindow window
    refine ⟨⟨fun fired => ?_, fun none => absurd overtaken none⟩, fun short noneInVain => ?_⟩
    · have booked := still.booked
      rw [Alarms.deadline?_eq, idles fired] at booked
      cases booked
    · have prompt := prompt_of_calm trace drain.clock_eq (drain.served served) during
      obtain ⟨entry, member, start, id, inVain⟩ :=
        overtaken.serves_in_vain prompt reached short inWindow window
      exact absurd inVain (noneInVain entry member start id)

/-- The radio cannot receive, but the link sends its packet, and the alarm of the application fires
    behind the link's alarm. -/
theorem fires_iff_not_passedOver_deaf :
    ∃ (fresh added sends deaf rests : Node Bench StepGenerator Unit Unit)
      (alarms : Alarms (Duty Unit)) (drained : Stack Bench StepGenerator Unit)
      (moments : List (Deed Unit × Stack Bench StepGenerator Unit × Alarms (Duty Unit)))
      (last : Stack Bench StepGenerator Unit × Alarms (Duty Unit)),
      new (.new .carrierSense 1 { address := .short 1, maxInitialBackoff := 0 } {} ⟨0, 0⟩)
          { config := { address := .short 1 }, capacity := 0 } () 2 = .ok fresh ∧
        (fresh.atTick 5).addAlarm () 0 = .ok (1, added) ∧
        added.alarms.ask (.schedule 5 1 0) = .ok alarms ∧
        send { added with alarms } (.short 2) [7] = (.ok 1, sends) ∧
        (sends.mapRadio fun r => { r with failsReceive := true }) = deaf ∧
        deaf.process idle = .ok (.error (.radio .rejected), rests) ∧
        deaf.Completes idle drained moments last rests ∧
        ∃ entry ∈ moments, ∃ now, entry.1 = .alarms (.fire now 1) := by
  obtain ⟨fresh, added, sends, deaf, rests, alarms, drained, moments, last, history, built, adds,
      granted, sent, deafened, processed, completes, clock, past, windows, waits, window, older,
      deeds, during, short⟩ :
      ∃ (fresh added sends deaf rests : Node Bench StepGenerator Unit Unit)
        (alarms : Alarms (Duty Unit)) (drained : Stack Bench StepGenerator Unit)
        (moments : List (Deed Unit × Stack Bench StepGenerator Unit × Alarms (Duty Unit)))
        (last : Stack Bench StepGenerator Unit × Alarms (Duty Unit))
        (history : List (Deed Unit × Stack Bench StepGenerator Unit × Alarms (Duty Unit))),
        new (.new .carrierSense 1 { address := .short 1, maxInitialBackoff := 0 } {} ⟨0, 0⟩)
            { config := { address := .short 1 }, capacity := 0 } () 2 = .ok fresh ∧
          (fresh.atTick 5).addAlarm () 0 = .ok (1, added) ∧
          added.alarms.ask (.schedule 5 1 0) = .ok alarms ∧
          send { added with alarms } (.short 2) [7] = (.ok 1, sends) ∧
          (sends.mapRadio fun r => { r with failsReceive := true }) = deaf ∧
          deaf.process idle = .ok (.error (.radio .rejected), rests) ∧
          deaf.Completes idle drained moments last rests ∧
          deaf.stack.clock = 5 ∧
          Trace Does (fresh.stack, fresh.alarms) history (deaf.stack, deaf.alarms) ∧
          (history.all fun entry => entry.2.2.fitsWindow 0) = true ∧
          deaf.alarms.get? 1 =
            some { action := .app (), arg := 0, state := .scheduled 5, pass := 0 } ∧
          deaf.alarms.beginPass.fitsWindow 0 = true ∧
          (deaf.alarms.beginPass.registered.all fun r =>
            r.booking?.all fun booked => booked.2 != deaf.alarms.beginPass.pass) = true ∧
          moments.map Prod.fst = [.serve 5 0 true, .alarms (.fire 5 1)] ∧
          (moments.all fun entry => entry.2.2.fitsWindow 0) = true ∧
          ∀ entry ∈ moments, ∃ m, entry.2.1.link = .carrierSense m ∧
            m.station.config.maxInitialBackoff = 0 :=
    ⟨_, _, _, _, _, _, _, _, _, _, rfl, rfl, rfl, rfl, rfl, rfl,
      ⟨⟨_, rfl⟩, .link rfl rfl rfl <| .app rfl rfl rfl (.nil _) <| .done rfl, rfl⟩, rfl,
      .cons (.wait 5) <| .cons (.alarms (.granted (r := .register (.app ()) 0) rfl)) <|
        .cons (.alarms (.granted (r := .schedule 5 1 0) rfl)) <|
        .cons (.stack (Stack.Changes.call (.send (.short 2) [7]) rfl).becomes) <| .cons (.arm 0) <|
        .single (.stack (Stack.Changes.radio _).becomes),
      rfl, rfl, rfl, rfl, rfl, rfl,
      List.forall_mem_cons.mpr ⟨⟨_, rfl, rfl⟩, List.forall_mem_singleton.mpr ⟨_, rfl, rfl⟩⟩⟩
  have calm : ∀ entry ∈ (.alarms .newPass, drained, deaf.alarms.beginPass) :: moments,
      Calm deaf.stack.clock 1 entry := by
    rw [clock]
    refine List.forall_mem_cons.mpr ⟨⟨nofun, nofun, nofun, nofun, ?_, ?_⟩, fun entry member => ?_⟩
    · exact ⟨0, by decide, Alarms.inWindow_of_fitsWindow window⟩
    · intro _ id deadline pass booking
      exact bne_iff_ne.mp (Alarms.forall_booking? older booking)
    · have deed : entry.1 ∈ moments.map Prod.fst := List.mem_map_of_mem member
      rw [deeds, List.mem_cons, List.mem_singleton] at deed
      have window := Alarms.inWindow_of_fitsWindow (List.all_eq_true.mp during entry member)
      rcases entry with ⟨_, t⟩
      rcases deed with rfl | rfl
      · exact ⟨nofun, nofun, nofun, nofun, ⟨0, by decide, window⟩, nofun⟩
      · exact ⟨nofun, nofun, nofun, nofun, ⟨0, by decide, window⟩, nofun⟩
  refine ⟨fresh, added, sends, deaf, rests, alarms, drained, moments, last, built, adds, granted,
    sent, deafened, processed, completes, ?_⟩
  refine (fires_iff_not_passedOver built past ?_ completes waits ?_ calm).2 ?_ ?_
  · intro entry member
    exact ⟨0, Alarms.inWindow_of_fitsWindow (List.all_eq_true.mp windows entry member)⟩
  · rw [clock]
    rfl
  · intro entry member
    obtain ⟨m, isSensing, never⟩ := short entry member
    rw [isSensing]
    change m.station.config.maxInitialBackoff ≤ _
    rw [never]
    exact UInt32.zero_le
  · intro entry member start id inVain
    have deed : entry.1 ∈ moments.map Prod.fst := List.mem_map_of_mem member
    rw [deeds, inVain] at deed
    simp at deed

/-- A node whose link never backs off, with an alarm of the application for tick 10, has a packet to
    send. The channel cannot be assessed, neither at tick 5 nor at tick 10. The link's alarm, armed
    again for tick 5, is in front of the other one, which is due at tick 10 and does not fire. -/
theorem starved_of_failed_assessment :
    ∃ (fresh added sends first second : Node Bench StepGenerator Unit Unit)
      (alarms : Alarms (Duty Unit)),
      new (.new .carrierSense 1 { address := .short 1, maxInitialBackoff := 0 } {} ⟨0, 0⟩)
          { config := { address := .short 1 }, capacity := 0 } () 2 = .ok fresh ∧
        (fresh.atTick 5).addAlarm () 0 = .ok (1, added) ∧
        added.alarms.schedule 5 1 5 = .ok alarms ∧
        send { added with alarms } (.short 2) [7] = (.ok 1, sends) ∧
        (sends.mapRadio fun r => { r with failsAssessment := true }).process idle =
          .ok (.ok 1, first) ∧
        first.alarms.InWindow 0 ∧
        first.alarms.state 1 = .ok (.scheduled 10) ∧ Tick.hasReached 10 10 = true ∧
        (first.atTick 10).process idle = .ok (.ok 1, second) ∧
        second.alarms.state 1 = .ok (.scheduled 10) ∧ second.nextWakeup = some 5 :=
  ⟨_, _, _, _, _, _, rfl, rfl, rfl, rfl, rfl,
    Alarms.inWindow_of_fitsWindow rfl, rfl, rfl, rfl, rfl, rfl⟩

end Node

end MoteLink
