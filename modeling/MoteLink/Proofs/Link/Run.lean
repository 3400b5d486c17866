import MoteLink.Link.Basic

/-!
# Runs of a link

A run is a sequence of calls in any order. Each call finds the clock at some tick and the radio in
some state: between calls the medium may do to the radio whatever it likes. A call that halts ends
the run before it has an answer.
-/

namespace MoteLink

namespace Link

variable {ρ γ ε : Type}

/-- What may be asked of a link. -/
inductive Call where
  | send (dst : Address) (payload : Bytes)
  | submit (d : Descriptor) (payload : Bytes)
  | receive (frame : Bytes)
  | poll
  | cancel (seq : UInt8)
  deriving DecidableEq

/-- The call submits a packet. -/
def Call.submits : Call → Bool
  | .send _ _ => true
  | .submit _ _ => true
  | _ => false

/-- What a link answers; radio errors are of type `ε`. -/
inductive Answer (ε : Type) where
  | submitted (result : Except (LinkError ε) UInt8)
  | received (delivery : Option Delivery)
  | polled (result : Except (LinkError ε) (Option Outcome))
  | cancelled (found : Bool)

/-- One call of a run: the clock and the radio that it found, and its answer. -/
structure Event (ρ ε : Type) where
  now : Tick
  radio : ρ
  call : Call
  answer : Answer ε

/-- The descriptor and the payload that a call submits, where it submits a packet. A plain `send`
    makes up the descriptor from the link's configuration. -/
def submission? (link : Link ρ γ) : Call → Option (Descriptor × Bytes)
  | .send dst payload =>
    some (link.station.localDescriptor dst (link.method == .acknowledged), payload)
  | .submit d payload => some (d, payload)
  | _ => none

theorem submits_of_submission? {link : Link ρ γ} {call : Call} {packet : Descriptor × Bytes}
    (submits : link.submission? call = some packet) : call.submits = true := by
  cases call with
  | send dst payload => rfl
  | submit d payload => rfl
  | receive frame => cases submits
  | poll => cases submits
  | cancel seq => cases submits

variable [Transceiver ρ ε] [RandomSource γ]

/-- Make one call. -/
def perform (link : Link ρ γ) (now : Tick) : Call → Except Halt (Answer ε × Link ρ γ)
  | .send dst payload => .ok ((link.send dst payload).map .submitted id)
  | .submit d payload => .ok ((link.submit d payload).map .submitted id)
  | .receive frame => .ok ((link.receive frame).map .received id)
  | .poll => (link.poll now).map (·.map .polled id)
  | .cancel seq => .ok ((link.cancel seq).map .cancelled id)

/-- A plain `send` submits the descriptor that the link makes up. -/
theorem perform_of_submission? {link : Link ρ γ} {now : Tick} {call : Call} {d : Descriptor}
    {payload : Bytes} (submits : link.submission? call = some (d, payload)) :
    link.perform (ε := ε) now call =
      .ok (.submitted (link.submit d payload).1, (link.submit (ε := ε) d payload).2) := by
  cases call with
  | send dst payload =>
    cases submits
    cases link <;> rfl
  | submit d payload =>
    cases submits
    rfl
  | receive | poll | cancel => cases submits

/-- The link comes from `start` by the calls of the history, the oldest of which stands first. -/
inductive Run (start : Link ρ γ) : List (Event ρ ε) → Link ρ γ → Prop
  | start : Run start [] start
  | call {history : List (Event ρ ε)} {link after : Link ρ γ} (event : Event ρ ε)
      (run : Run start history link)
      (performed : (link.setRadio event.radio).perform event.now event.call =
        .ok (event.answer, after)) : Run start (history ++ [event]) after

/-- What holds at the start and is kept by the medium and by every call holds all through a run. -/
theorem Run.invariant {start link : Link ρ γ} {history : List (Event ρ ε)}
    (run : Run start history link) (inv : Link ρ γ → Prop) (first : inv start)
    (medium : ∀ link radio, inv link → inv (link.setRadio radio))
    (call : ∀ link now call (answer : Answer ε) after, inv link →
      link.perform now call = .ok (answer, after) → inv after) : inv link := by
  induction run with
  | start => exact first
  | call event run performed ih => exact call _ _ _ _ _ (medium _ _ ih) performed

/-- A run with this history ends in one state. -/
theorem Run.eq_of_run {start link link' : Link ρ γ} {history : List (Event ρ ε)}
    (run : Run start history link) (run' : Run start history link') : link' = link := by
  induction run generalizing link' with
  | start =>
    generalize none_made : ([] : List (Event ρ ε)) = history at run'
    cases run' with
    | start => rfl
    | call event run performed => simp at none_made
  | @call history link after event run performed ih =>
    generalize whole : history ++ [event] = history' at run'
    cases run' with
    | start => simp at whole
    | @call earlier link' after' last run' performed' =>
      obtain ⟨rfl, same⟩ := List.append_inj' whole rfl
      cases same
      rw [ih run', performed] at performed'
      cases performed'
      rfl

/-- The state in which a call of the history was made, and the state after it. -/
theorem Run.split {start link : Link ρ γ} {before later : List (Event ρ ε)} {event : Event ρ ε}
    (run : Run start (before ++ event :: later) link) :
    ∃ found after, Run start before found ∧
      (found.setRadio event.radio).perform event.now event.call = .ok (event.answer, after) := by
  generalize whole : before ++ event :: later = history at run
  induction run generalizing later with
  | start => simp at whole
  | @call history link after last run performed ih =>
    rcases List.eq_nil_or_concat later with rfl | ⟨rest, next, rfl⟩
    · obtain ⟨rfl, same⟩ := List.append_inj' whole rfl
      cases same
      exact ⟨link, after, run, performed⟩
    · rw [List.concat_eq_append, ← List.cons_append, ← List.append_assoc] at whole
      obtain ⟨earlier, -⟩ := List.append_inj' whole rfl
      exact ih earlier

/-- Make the calls one after the other. Before each one the medium changes the radio. -/
def replay (link : Link ρ γ) :
    List (Tick × (ρ → ρ) × Call) → Except Halt (List (Event ρ ε) × Link ρ γ)
  | [] => .ok ([], link)
  | (now, medium, call) :: rest =>
    let radio := medium link.radio
    match (link.setRadio radio).perform now call with
    | .error halt => .error halt
    | .ok (answer, after) =>
      match after.replay rest with
      | .error halt => .error halt
      | .ok (history, last) => .ok ({ now, radio, call, answer } :: history, last)

theorem Run.append_replay {start link last : Link ρ γ} {before after : List (Event ρ ε)}
    {calls : List (Tick × (ρ → ρ) × Call)} (run : Run start before link)
    (replayed : link.replay calls = .ok (after, last)) : Run start (before ++ after) last := by
  induction calls generalizing before after link with
  | nil =>
    cases replayed
    rw [List.append_nil]
    exact run
  | cons first rest ih =>
    obtain ⟨now, medium, call⟩ := first
    rw [replay] at replayed
    split at replayed <;> rename_i performed
    · cases replayed
    · split at replayed <;> rename_i later
      · cases replayed
      · cases replayed
        have longer := ih (run.call ⟨now, medium link.radio, call, _⟩ performed) later
        rwa [List.append_assoc] at longer

theorem run_of_replay {start last : Link ρ γ} {history : List (Event ρ ε)}
    (calls : List (Tick × (ρ → ρ) × Call)) (replayed : start.replay calls = .ok (history, last)) :
    Run start history last :=
  Run.append_replay .start replayed

/-- What can be seen of the calls that are made one after the other is true of a run. -/
theorem exists_run_of_replay {start : Link ρ γ} (calls : List (Tick × (ρ → ρ) × Call))
    (seen : List (Event ρ ε) → Link ρ γ → Bool)
    (shown : ((start.replay calls).toOption.any fun result => seen result.1 result.2) = true) :
    ∃ history link, Run start history link ∧ seen history link = true := by
  cases replayed : start.replay (ε := ε) calls with
  | error halt =>
    rw [replayed] at shown
    cases shown
  | ok result =>
    rw [replayed] at shown
    exact ⟨result.1, result.2, run_of_replay calls replayed, shown⟩

end Link

end MoteLink
