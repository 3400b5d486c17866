import MoteLink.Alarm.Worker
import MoteLink.Proofs.Alarm.History

/-!
# What becomes of a raised flag

An interrupt that finds an alarm due raises a flag, and the worker takes the flag before it knows
whether it may have the alarms. If someone holds them, no pass is run and the flag is down all the
same. Nothing else but a pass lowers it: the flag is up for as long as no call for a pass has been
refused since it was last raised.
-/

namespace MoteLink

variable {κ σ : Type}

namespace Worker

/-- Alarms that someone holds. -/
def held (a : Alarms κ) (raised : Bool) : Worker κ :=
  { alarms := { value := a, locked := true }, raised }

/-- One thing that happens to shared alarms or to the flag. -/
inductive Event (κ : Type) where
  /-- The interrupt asks for due alarms, and is told whether it has raised the flag. -/
  | signal (now : Tick) (told : Bool)
  | raise
  | lock
  | denied
  /-- Whoever holds the alarms does something with them. -/
  | use (e : Alarms.Event κ)
  | unlock
  /-- A call for a pass finds the flag down. -/
  | idle
  /-- A call for a pass takes the flag and then does not get the alarms. -/
  | missed
  /-- A call for a pass takes the flag, gets the alarms and begins. -/
  | startPass
  deriving DecidableEq, Repr

/-- The event puts the flag up. -/
def Event.raises : Event κ → Bool
  | .signal _ told => told
  | .raise => true
  | _ => false

/-- The event is something that whoever holds the alarms does. -/
def Event.isOfHolder : Event κ → Bool
  | .use _ | .unlock => true
  | _ => false

/-- What a call for a pass comes to. -/
def answer (w : Worker κ) : Event κ :=
  if w.raised then if w.alarms.locked then .missed else .startPass else .idle

/-- The event leads from one state of alarms and flag to another. What is called while the alarms
    are held, by an interrupt or from within a pass, happens between the steps of their holder. -/
inductive Happens : Worker κ → Event κ → Worker κ → Prop
  | signal (w : Worker κ) (now : Tick) :
      Happens w (.signal now (w.signalReady now).1) (w.signalReady now).2
  | raise (w : Worker κ) : Happens w .raise w.raise
  | lock {w : Worker κ} (free : w.alarms.locked = false) :
      Happens w .lock { w with alarms := w.alarms.hold }
  | denied {w : Worker κ} (refused : w.alarms.locked = true) : Happens w .denied w
  | use {a a' : Alarms κ} {raised : Bool} {e : Alarms.Event κ} (does : Alarms.Happens a e a') :
      Happens (held a raised) (.use e) (held a' raised)
  | unlock {w : Worker κ} (holding : w.alarms.locked = true) :
      Happens w .unlock { w with alarms := w.alarms.free }
  | idle {w : Worker κ} (down : w.raised = false) : Happens w .idle w.take.2
  | missed {w : Worker κ} (up : w.raised = true) (refused : w.alarms.locked = true) :
      Happens w .missed w.take.2
  | startPass {w : Worker κ} (up : w.raised = true) (free : w.alarms.locked = false) :
      Happens w .startPass (held w.alarms.value.beginPass w.take.2.raised)

/-- A call for a pass has been refused, and the flag has not been raised since. -/
def Missed (history : List (Event κ × Worker κ)) : Prop :=
  ∃ before w after, history = before ++ (.missed, w) :: after ∧
    ∀ entry ∈ after, entry.1.raises = false

variable {w w' last : Worker κ} {a a' : Alarms κ} {raised : Bool} {e : Event κ}
  {history : List (Event κ × Worker κ)} {act : Action κ σ} {now : Tick} {ctx ctx' : σ}
  {rounds fired : Nat}

/-! ## Calls for a pass -/

/-- Everything that a call for a pass can come to. -/
inductive Called (act : Action κ σ) (rounds : Nat) (now : Tick) (ctx : σ) (w : Worker κ) :
    Nat × σ × Worker κ → Prop
  | idle (down : w.raised = false) : Called act rounds now ctx w (0, ctx, w.take.2)
  | missed (up : w.raised = true) (refused : w.alarms.locked = true) :
      Called act rounds now ctx w (0, ctx, w.take.2)
  | served {fired : Nat} {ctx' : σ} {value : Alarms κ} (up : w.raised = true)
      (free : w.alarms.locked = false)
      (passed : Alarms.passWithin rounds act now (ctx, w.alarms.value) = .ok (fired, ctx', value)) :
      Called act rounds now ctx w (fired, ctx', { alarms := { value }, raised := false })

theorem called_of_runPendingWithin {result : Nat × σ × Worker κ}
    (returned : w.runPendingWithin rounds act now ctx = .ok result) :
    Called act rounds now ctx w result := by
  obtain ⟨⟨value, locked⟩, raised⟩ := w
  unfold runPendingWithin at returned
  cases raised with
  | false =>
    cases returned
    exact .idle rfl
  | true =>
    cases locked with
    | true =>
      cases returned
      exact .missed rfl rfl
    | false =>
      simp only [take, Bool.false_eq_true, ↓reduceIte] at returned
      split at returned <;> rename_i passed
      · cases returned
      · cases returned
        exact .served rfl rfl passed

/-- What the holder does with the alarms before letting go of them leaves the flag alone. -/
theorem trace_of_uses {uses : List (Alarms.Event κ × Alarms κ)}
    (trace : Trace Alarms.Happens a uses a') (raised : Bool) :
    ∃ history, Trace Happens (held a raised) history { alarms := { value := a' }, raised } ∧
      ∀ entry ∈ history, entry.1.isOfHolder = true := by
  induction trace with
  | nil a => exact ⟨_, .single (.unlock rfl), by simp [Event.isOfHolder]⟩
  | cons first rest ih =>
    obtain ⟨history, later, ofHolder⟩ := ih
    exact ⟨_, .cons (.use first) later, List.forall_mem_cons.mpr ⟨rfl, ofHolder⟩⟩

/-- What is done under the lock happens in these steps, if it is no more than what can happen to
    alarms. -/
theorem trace_of_lock? {β : Type} {use : Alarms κ → β × Alarms κ} {b : β}
    {after : Guarded (Alarms κ)} (granted : w.alarms.lock? use = some (b, after))
    (does : ∃ uses, Trace Alarms.Happens w.alarms.value uses (use w.alarms.value).2) :
    ∃ v history, Trace Happens w ((.lock, v) :: history) { w with alarms := after } ∧
      ∀ entry ∈ history, entry.1.isOfHolder = true := by
  obtain ⟨⟨value, locked⟩, raised⟩ := w
  cases locked with
  | true => cases granted
  | false =>
    cases granted
    obtain ⟨uses, used⟩ := does
    obtain ⟨history, later, ofHolder⟩ := trace_of_uses used raised
    exact ⟨_, history, .cons (.lock rfl) later, ofHolder⟩

/-- A holder refuses everyone else. -/
theorem denied_of_lock? {β : Type} {use : Alarms κ → β × Alarms κ}
    (refused : w.alarms.lock? use = none) : Happens w .denied w := by
  cases locked : w.alarms.locked with
  | true => exact .denied locked
  | false => simp [Guarded.lock?, locked] at refused

/-- What a call does happens in these steps, if actions do no more than what can happen to
    alarms. -/
theorem trace_of_runPendingWithin
    (returned : w.runPendingWithin rounds act now ctx = .ok (fired, ctx', w'))
    (each : ∀ label id arg before after, act label id arg before = .ok after →
      ∃ uses, Trace Alarms.Happens before.2 uses after.2) :
    ∃ v history, Trace Happens w ((w.answer, v) :: history) w' ∧
      ∀ entry ∈ history, entry.1.isOfHolder = true := by
  cases called_of_runPendingWithin returned with
  | idle down =>
    rw [answer, if_neg (by simp [down])]
    exact ⟨_, [], .single (.idle down), List.forall_mem_nil _⟩
  | missed up refused =>
    rw [answer, if_pos up, if_pos refused]
    exact ⟨_, [], .single (.missed up refused), List.forall_mem_nil _⟩
  | served up free passed =>
    obtain ⟨shots, fires, -⟩ := Alarms.fires_of_fireDue passed
    obtain ⟨uses, used⟩ := Alarms.trace_of_fires fires fun shot member =>
      each _ _ _ _ _ (fires.acted shot member)
    obtain ⟨history, later, ofHolder⟩ := trace_of_uses used false
    rw [answer, if_pos up, if_neg (by simp [free])]
    exact ⟨_, history, .cons (.startPass up free) later, ofHolder⟩

/-! ## The flag along a run -/

theorem raised_signalReady (w : Worker κ) (now : Tick) :
    (w.signalReady now).2.raised = (w.raised || (w.signalReady now).1) := by
  unfold signalReady
  split <;> simp [raise]

/-- Only calls for a pass lower the flag. -/
theorem Happens.raised_iff (happens : Happens w e w') (unserved : e ≠ .startPass) :
    w'.raised = true ↔ e.raises = true ∨ w.raised = true ∧ e ≠ .missed := by
  cases happens with
  | signal now => simp [raised_signalReady, Event.raises, or_comm]
  | raise => simp [Worker.raise, Event.raises]
  | lock free => simp [Event.raises]
  | denied refused => simp [Event.raises]
  | use does => simp [Event.raises, held]
  | unlock holding => simp [Event.raises]
  | idle down => simp [Event.raises, take, down]
  | missed up refused => simp [Event.raises, take]
  | startPass up free => exact absurd rfl unserved

theorem not_missed_nil : ¬Missed ([] : List (Event κ × Worker κ)) := by
  rintro ⟨before, w, after, split, -⟩
  simp at split

theorem missed_concat_iff :
    Missed (history ++ [(e, w)]) ↔ e = .missed ∨ Missed history ∧ e.raises = false := by
  constructor
  · rintro ⟨before, w', after, split, silent⟩
    rcases List.eq_nil_or_concat after with rfl | ⟨after, entry, rfl⟩
    · obtain ⟨-, same⟩ := List.append_inj' split rfl
      cases same
      exact .inl rfl
    · rw [List.concat_eq_append, ← List.cons_append, ← List.append_assoc] at split
      obtain ⟨rfl, same⟩ := List.append_inj' split rfl
      cases same
      rw [List.concat_eq_append, List.forall_mem_append] at silent
      exact .inr ⟨⟨before, w', after, rfl, silent.1⟩, silent.2 _ List.mem_cons_self⟩
  · rintro (rfl | ⟨⟨before, w', after, rfl, silent⟩, quiet⟩)
    · exact ⟨history, w, [], rfl, List.forall_mem_nil _⟩
    · refine ⟨before, w', after ++ [(e, w)], by simp, ?_⟩
      rw [List.forall_mem_append]
      exact ⟨silent, List.forall_mem_singleton.mpr quiet⟩

/-- A flag that was up is up still, unless a call has been refused since it was last raised. -/
theorem raised_iff_not_missed (trace : Trace Happens w history last) (up : w.raised = true)
    (unserved : ∀ entry ∈ history, entry.1 ≠ .startPass) :
    last.raised = true ↔ ¬Missed history := by
  refine trace.invariant (I := fun past s => s.raised = true ↔ ¬Missed past)
    (K := fun entry => entry.1 ≠ .startPass) ?_ ?_ unserved
  · exact ⟨fun _ => not_missed_nil, fun _ => up⟩
  · intro past s e t so_far step unserved
    rw [step.raised_iff unserved, so_far, missed_concat_iff]
    by_cases missed : e = .missed
    · simp [missed, Event.raises]
    · cases e.raises <;> simp [missed]

/-- A call for a pass lowers a flag that was up without running a pass just where the alarms are
    held. So a flag that was up once, and one that an interrupt was told to have raised, is up until
    a pass begins just where no call for a pass has been refused since it was last raised. The steps
    are those of the calls: one for a pass begins with its answer, one that is granted the alarms
    with the lock, and the rest is what is done with the alarms until they are let go. -/
theorem raised_iff_of_trace (w : Worker κ) :
    (∀ (act : Action κ σ) (rounds : Nat) (now : Tick) (ctx ctx' : σ) (fired : Nat) (w' : Worker κ),
      w.runPendingWithin rounds act now ctx = .ok (fired, ctx', w') →
        ((w'.raised = false → w.raised = false ∨ w.alarms.locked = false ∧
            Alarms.passWithin rounds act now (ctx, w.alarms.value) =
              .ok (fired, ctx', w'.alarms.value)) ↔
          ¬(w.raised = true ∧ w.alarms.locked = true)) ∧
        ((∀ label id arg before after, act label id arg before = .ok after →
            ∃ uses, Trace Alarms.Happens before.2 uses after.2) →
          ∃ v history, Trace Happens w ((w.answer, v) :: history) w' ∧
            ∀ entry ∈ history, entry.1.isOfHolder = true)) ∧
      (∀ (β : Type) (use : Alarms κ → β × Alarms κ),
        (w.alarms.lock? use = none → Happens w .denied w) ∧
        ∀ b after, w.alarms.lock? use = some (b, after) →
          (∃ uses, Trace Alarms.Happens w.alarms.value uses (use w.alarms.value).2) →
          ∃ v history, Trace Happens w ((.lock, v) :: history) { w with alarms := after } ∧
            ∀ entry ∈ history, entry.1.isOfHolder = true) ∧
      ∀ history last, Trace Happens w history last →
        (w.raised = true → (∀ entry ∈ history, entry.1 ≠ .startPass) →
          (last.raised = true ↔ ¬Missed history)) ∧
        ∀ before now v after, history = before ++ (.signal now true, v) :: after →
          (∀ entry ∈ after, entry.1 ≠ .startPass) → (last.raised = true ↔ ¬Missed after) := by
  refine ⟨?_, fun β use => ⟨denied_of_lock?, fun b after => trace_of_lock?⟩, ?_⟩
  · intro act rounds now ctx ctx' fired w' returned
    refine ⟨?_, trace_of_runPendingWithin returned⟩
    cases called_of_runPendingWithin returned with
    | idle down => simp [down]
    | missed up refused => simp [take, up, refused]
    | served up free passed => simp [free, passed]
  · intro history last trace
    refine ⟨fun up unserved => raised_iff_not_missed trace up unserved, ?_⟩
    rintro before now v after rfl unserved
    obtain ⟨u, -, signalled⟩ := trace.split
    cases signalled with
    | cons signal later =>
      have up : v.raised = true :=
        (signal.raised_iff (by simp)).mpr (.inl rfl)
      exact raised_iff_not_missed later up unserved

/-- An alarm that is due at tick 0, with no one holding it and the flag down. -/
def ringing : Worker Unit :=
  { alarms := { value :=
      { capacity := 1
        registered := [{ action := (), arg := 0, state := .scheduled 0 }]
        queue := [0] } } }

/-- The flag that was raised for the alarm stays up while someone has the alarms, and the call that
    comes afterwards runs the pass. -/
theorem raised_iff_of_trace_ringing :
    (ringing.signalReady 0).1 = true ∧
      Trace Happens ringing [(.signal 0 true, ringing.raise),
        (.lock, held ringing.alarms.value true), (.denied, held ringing.alarms.value true),
        (.unlock, ringing.raise)] ringing.raise ∧
      ringing.raise.raised = true ∧
      ∃ value, ringing.raise.runPending (fun _ _ _ s => .ok s) 0 () =
          .ok (1, (), { alarms := { value } }) ∧
        Alarms.process (fun _ _ _ s => .ok s) 0 ((), ringing.alarms.value) =
          .ok (1, (), value) := by
  have trace : Trace Happens ringing [(.signal 0 true, ringing.raise),
      (.lock, held ringing.alarms.value true), (.denied, held ringing.alarms.value true),
      (.unlock, ringing.raise)] ringing.raise :=
    .cons (.signal ringing 0) (.cons (.lock rfl) (.cons (.denied rfl) (.single (.unlock rfl))))
  obtain ⟨-, -, runs⟩ := raised_iff_of_trace (σ := Unit) ringing
  obtain ⟨-, signalled⟩ := runs _ _ trace
  have up : ringing.raise.raised = true := by
    refine (signalled [] 0 _ _ rfl (by simp)).mpr ?_
    rintro ⟨before, w, after, split, -⟩
    have missed : (Event.missed, w) ∈ before ++ (.missed, w) :: after := by simp
    rw [← split] at missed
    simp at missed
  obtain ⟨calls, -⟩ := raised_iff_of_trace (σ := Unit) ringing.raise
  have served := (calls (fun _ _ _ s => .ok s) 2 0 () () 1 _ rfl).1.mpr (by decide)
  rcases served rfl with down | ⟨-, passed⟩
  · rw [up] at down
    cases down
  · exact ⟨rfl, trace, up, _, rfl, passed⟩

/-- Someone has the alarms when the worker is called after an interrupt has raised the flag. The
    call runs no pass, the alarm is due as before, and the flag is down. -/
theorem lost_while_held :
    ∃ last : Worker Unit,
      Trace Happens ringing [(.signal 0 true, ringing.raise),
        (.lock, held ringing.alarms.value true), (.missed, last)] last ∧
      (held ringing.alarms.value true).runPending (fun _ _ _ s => .ok s) 0 () = .ok (0, (), last) ∧
      last.raised = false ∧ last.alarms.value = ringing.alarms.value ∧
      last.alarms.value.hasReady 0 = true :=
  ⟨_, .cons (.signal ringing 0) (.cons (.lock rfl) (.single (.missed rfl rfl))), rfl, rfl, rfl, rfl⟩

end Worker

end MoteLink
