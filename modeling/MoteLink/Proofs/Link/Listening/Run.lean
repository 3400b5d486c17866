import MoteLink.Proofs.Link.Listening.Step
import MoteLink.Proofs.Trace
import MoteLink.Radio.Bench

/-!
# Runs that listen first

The step log of a run tells what is seen of a link whose radio is under close observation: it has a
record for each step that the link takes while it is polled, and one for each other call. Every run
of a link that senses the channel has a step log, which shows that it listens before it sends.
-/

namespace MoteLink

namespace Link

variable {ρ γ ε : Type} {c : Config} {time : Nat}

/-- The packet that waits to listen, where the link senses the channel. -/
def wait? : Link ρ γ → Option Wait
  | .passThrough _ => none
  | .carrierSense m => m.wait?
  | .acknowledged m => m.wait?
  | .timeSlot _ => none

/-- The dealings that the link has had with its radio. -/
def dealings (link : Link (Monitor ρ) γ) : List Dealing := link.station.dealings

/-- Every packet held can be laid out. -/
def Sound (link : Link ρ γ) : Prop :=
  ∀ i p, link.outbox.contentAt? i = some p → p.descriptor.layoutError? = none

/-- The record tells what is seen of a link as it goes from one state to another. -/
structure Seen (time : Nat) (call? : Option Call) (link : Link (Monitor ρ) γ) (b : StepRecord)
    (after : Link (Monitor ρ) γ) : Prop where
  time : b.time = time
  call : b.call? = call?
  before : b.before = link.wait?
  dealings : after.dealings = link.dealings ++ b.dealings
  after : b.after = after.wait?

section StepLog

variable [Transceiver ρ ε] [RandomSource γ]

/-- The record tells of a step that the link takes while it is polled. -/
def SeenStep (time : Nat) (link : Link (Monitor ρ) γ) (b : StepRecord)
    (after : Link (Monitor ρ) γ) : Prop :=
  Step (ε := ε) (.ofNat time) link after ∧ Seen time none link b after

/-- The link comes from `start` by the calls of the history, which were made at these times, and the
    log tells of each step that was taken in a poll, and of each other call. The medium has not
    touched the list of dealings, and the clock shows the real time modulo `2 ^ 32`. -/
inductive StepLog (start : Link (Monitor ρ) γ) :
    List (Event (Monitor ρ) ε) → List Nat → List StepRecord → Link (Monitor ρ) γ → Prop
  | start : StepLog start [] [] [] start
  | poll {history : List (Event (Monitor ρ) ε)} {times : List Nat} {log : List StepRecord}
      {link rested after : Link (Monitor ρ) γ} {time : Nat} {radio : Monitor ρ}
      {result : Except (LinkError ε) (Option Outcome)}
      {entries : List (StepRecord × Link (Monitor ρ) γ)} {outcomes : Fifo Outcome}
      (stepLog : StepLog start history times log link)
      (untouched : radio.dealings = link.dealings)
      (polled : (link.setRadio radio).poll (.ofNat time) = .ok (result, after))
      (taken : Trace (SeenStep (ε := ε) time) (link.setRadio radio) entries rested)
      (fetched : after = rested.setStation { rested.station with outcomes }) :
      StepLog start (history ++ [⟨.ofNat time, radio, .poll, .polled result⟩]) (times ++ [time])
        (log ++ entries.map Prod.fst) after
  | call {history : List (Event (Monitor ρ) ε)} {times : List Nat} {log : List StepRecord}
      {link after : Link (Monitor ρ) γ} {time : Nat} {radio : Monitor ρ} {call : Call}
      {answer : Answer ε} {b : StepRecord} (stepLog : StepLog start history times log link)
      (untouched : radio.dealings = link.dealings) (other : call ≠ .poll)
      (performed : (link.setRadio radio).perform (.ofNat time) call = .ok (answer, after))
      (seen : Seen time (some call) (link.setRadio radio) b after) :
      StepLog start (history ++ [⟨.ofNat time, radio, call, answer⟩]) (times ++ [time])
        (log ++ [b]) after

end StepLog

/-- The calls of a run, made of a link whose radio is under close observation. -/
def monitored (calls : List (Nat × (ρ → ρ) × Call)) :
    List (Tick × (Monitor ρ → Monitor ρ) × Call) :=
  calls.map fun entry => (.ofNat entry.1, Monitor.disturb entry.2.1, entry.2.2)

/-! ## Packets that can be laid out -/

section Soundness

variable {link after : Link ρ γ}

theorem sound_new (method : Method) (capacity : Nat) (config : Config) (radio : ρ) (rng : γ) :
    (Link.new method capacity config radio rng).Sound := by
  intro i p content
  rw [contentAt?_new] at content
  cases content

theorem Sound.keeps (sound : link.Sound) (keeps : link.outbox.Keeps after.outbox) : after.Sound :=
  fun i p content => sound i p (keeps i p content)

theorem Sound.fills {d : Descriptor} {payload : Bytes} {result : Except (LinkError ε) UInt8}
    (sound : link.Sound) (fills : link.outbox.Fills d payload result after.outbox) :
    after.Sound := by
  intro i p content
  rcases fills i with same | ⟨-, seq, headerLength, ticket, -, laid, placed⟩
  · exact sound i p (same ▸ content)
  · rw [content] at placed
    cases placed
    exact laid

theorem Sound.flying (sound : link.Sound) : ∀ p ∈ link.outbox.flying,
    p.descriptor.layoutError? = none := by
  intro p member
  obtain ⟨i, place⟩ := List.mem_iff_getElem?.mp (Outbox.mem_flying.mp member)
  exact sound i p.untried (Outbox.contentAt?_of_slot place)

variable [Transceiver ρ ε]

theorem Sound.submit (sound : link.Sound) (d : Descriptor) (payload : Bytes) :
    (link.submit (ε := ε) d payload).2.Sound :=
  sound.fills (link.fills_submit d payload)

theorem Sound.send (sound : link.Sound) (dst : Address) (payload : Bytes) :
    (link.send (ε := ε) dst payload).2.Sound := by
  cases link with
  | passThrough m => exact sound
  | carrierSense m => exact sound.submit _ payload
  | acknowledged m => exact sound.submit _ payload
  | timeSlot m => exact sound.submit _ payload

theorem Sound.call [RandomSource γ] {now : Tick} {call : Call} {answer : Answer ε}
    (sound : link.Sound) (served : link.Served) (other : call ≠ .poll)
    (performed : link.perform now call = .ok (answer, after)) : after.Sound := by
  cases call with
  | send dst payload =>
    cases performed
    exact sound.send dst payload
  | submit d payload =>
    cases performed
    exact sound.submit d payload
  | receive frame =>
    cases performed
    exact sound.keeps (keeps_receive served frame)
  | cancel seq =>
    cases performed
    exact sound.keeps (link.keeps_cancel seq)
  | poll => exact absurd rfl other

end Soundness

/-! ## Every run has a step log -/

section Runs

variable {link rested after : Link (Monitor ρ) γ} {log : List StepRecord} {call : Call}

/-- What has been seen of a link until `time`, from its start on. -/
structure Watched (c : Config) (time : Nat) (log : List StepRecord) (link : Link (Monitor ρ) γ) :
    Prop where
  queueing : Queueing c link
  sound : link.Sound
  flow : Flow c log link.wait?
  past : ∀ b ∈ log, b.time ≤ time
  dealings : link.dealings = log.flatMap StepRecord.dealings

theorem wait?_setStation (link : Link ρ γ) (s : Station ρ γ) :
    (link.setStation s).wait? = link.wait? := by
  cases link <;> rfl

namespace Watched

theorem new {method : Method} (queues : method = .carrierSense ∨ method = .acknowledged)
    (capacity : Nat) (config : Config) (radio : ρ) (rng : γ) (time : Nat) :
    Watched config time [] (.new method capacity config ⟨radio, []⟩ rng) := by
  constructor
  case queueing => exact .new queues capacity config _ rng
  case sound => exact sound_new method capacity config _ rng
  case flow => rcases queues with rfl | rfl <;> exact .nil
  case past => exact List.forall_mem_nil _
  case dealings => rcases queues with rfl | rfl <;> rfl

theorem later {time' : Nat} (watched : Watched c time log link) (later : time ≤ time') :
    Watched c time' log link :=
  { watched with past := fun b member => Nat.le_trans (watched.past b member) later }

theorem setStation (watched : Watched c time log link) {s : Station (Monitor ρ) γ}
    (config : s.config = link.station.config) (radio : s.radio.dealings = link.dealings) :
    Watched c time log (link.setStation s) := by
  constructor
  case queueing =>
    cases watched.queueing with
    | carrierSense served => exact .carrierSense (served.withStation config)
    | acknowledged served => exact .acknowledged (served.withStation config)
  case sound =>
    rw [Sound, outbox_setStation]
    exact watched.sound
  case flow =>
    rw [wait?_setStation]
    exact watched.flow
  case past => exact watched.past
  case dealings =>
    rw [← watched.dealings, ← radio, Link.dealings, station_setStation]
    rfl

/-- Something has been seen that follows. -/
theorem see (watched : Watched c time log link) {call? : Option Call}
    (passes : Station.Passes c time call? link.station link.wait? after.station after.wait?)
    (queueing : Queueing c after) (sound : after.Sound) :
    ∃ b, Seen time call? link b after ∧ Watched c time (log ++ [b]) after := by
  obtain ⟨dealings, grown, follows⟩ := passes
  refine ⟨⟨time, call?, link.wait?, dealings, after.wait?⟩, ⟨rfl, rfl, rfl, grown, rfl⟩, ?_⟩
  constructor
  case queueing => exact queueing
  case sound => exact sound
  case flow => exact watched.flow.snoc watched.past follows
  case past =>
    exact List.forall_mem_append.mpr ⟨watched.past, List.forall_mem_singleton.mpr (Nat.le_refl _)⟩
  case dealings =>
    rw [List.flatMap_append, ← watched.dealings, List.flatMap_singleton]
    exact grown

variable [Transceiver ρ ε] [RandomSource γ]

theorem step (watched : Watched c time log link) (step : Step (.ofNat time) link after) :
    ∃ b, SeenStep (ε := ε) time link b after ∧ Watched c time (log ++ [b]) after := by
  have sound := watched.sound.keeps (step.keeps watched.queueing.served)
  have next : Queueing c after ∧
      Station.Passes c time none link.station link.wait? after.station after.wait? := by
    obtain ⟨r, taken⟩ := step
    cases watched.queueing with
    | carrierSense served =>
      cases stepped_of_step taken with
      | carrierSense stepped =>
        have kept := CarrierSense.servedBy_step served stepped
        have transition := CarrierSense.transition_of_step served.served stepped
        have passes := transition.passes served.served kept.served watched.sound.flying
        rw [served.config] at passes
        exact ⟨.carrierSense kept, passes⟩
    | acknowledged served =>
      cases stepped_of_step taken with
      | acknowledged stepped =>
        have kept := Acknowledged.servedBy_step served stepped
        have transition := Acknowledged.transition_of_step served.toServed stepped
        have passes := transition.passes served.toServed kept.toServed watched.sound.flying
        rw [served.config] at passes
        exact ⟨.acknowledged kept, passes⟩
  obtain ⟨b, seen, watched'⟩ := watched.see next.2 next.1 sound
  exact ⟨b, ⟨step, seen⟩, watched'⟩

theorem steps (watched : Watched c time log link) (steps : Steps (.ofNat time) link rested) :
    ∃ entries, Trace (SeenStep (ε := ε) time) link entries rested ∧
      Watched c time (log ++ entries.map Prod.fst) rested := by
  induction steps with
  | refl => exact ⟨[], .nil link, by rwa [List.map_nil, List.append_nil]⟩
  | tail _ step ih =>
    obtain ⟨entries, trace, watched⟩ := ih
    obtain ⟨b, seenStep, watched⟩ := watched.step step
    refine ⟨entries ++ [(b, _)], trace.append (.single seenStep), ?_⟩
    rwa [List.map_append, ← List.append_assoc]

theorem perform {answer : Answer ε} (watched : Watched c time log link) (other : call ≠ .poll)
    (performed : link.perform (.ofNat time) call = .ok (answer, after)) :
    ∃ b, Seen time (some call) link b after ∧ Watched c time (log ++ [b]) after := by
  have sound := watched.sound.call watched.queueing.served other performed
  have kept := (watched.queueing.perform performed).1
  have passes : Station.Passes c time (some call) link.station link.wait? after.station
      after.wait? := by
    cases watched.queueing with
    | carrierSense served =>
      obtain ⟨m', rfl, performs⟩ := CarrierSense.performs_of_perform performed
      rw [← served.config]
      exact performs.passes served.served other
    | acknowledged served =>
      obtain ⟨m', rfl, performs⟩ := Acknowledged.performs_of_perform performed
      rw [← served.config]
      exact performs.passes served.toServed other
  exact watched.see passes kept sound

end Watched

variable [Transceiver ρ ε] [RandomSource γ] {start last : Link (Monitor ρ) γ}
  {before history : List (Event (Monitor ρ) ε)} {times : List Nat}

/-- A call goes on with the log. -/
theorem StepLog.go_on {radio : Monitor ρ} {answer : Answer ε}
    (stepLog : StepLog start before times log link) (watched : Watched c time log link)
    (untouched : radio.dealings = link.dealings)
    (performed : (link.setRadio radio).perform (.ofNat time) call = .ok (answer, after)) :
    ∃ more, StepLog start (before ++ [⟨.ofNat time, radio, call, answer⟩]) (times ++ [time])
        (log ++ more) after ∧ Watched c time (log ++ more) after := by
  have tuned : Watched c time log (link.setRadio radio) := watched.setStation rfl untouched
  by_cases polls : call = .poll
  · subst polls
    obtain ⟨result, rfl, polled⟩ := exists_poll_of_perform performed
    obtain ⟨rested, outcomes, steps, rfl, -⟩ := steps_of_poll polled
    obtain ⟨entries, trace, watched⟩ := tuned.steps steps
    exact ⟨_, stepLog.poll untouched polled trace rfl, watched.setStation rfl rfl⟩
  · obtain ⟨b, seen, watched⟩ := tuned.perform polls performed
    exact ⟨[b], stepLog.call untouched polls performed seen, watched⟩

theorem StepLog.append_replay {calls : List (Nat × (ρ → ρ) × Call)}
    (stepLog : StepLog start before times log link) (watched : Watched c time log link)
    (soon : ∀ entry ∈ calls, time ≤ entry.1)
    (sorted : (calls.map Prod.fst).Pairwise fun a b => a ≤ b)
    (replayed : link.replay (monitored calls) = .ok (history, last)) :
    ∃ more time', StepLog start (before ++ history) (times ++ calls.map Prod.fst) (log ++ more)
        last ∧ Watched c time' (log ++ more) last := by
  induction calls generalizing before times log link time history with
  | nil =>
    cases replayed
    exact ⟨[], time, by simpa using stepLog, by rwa [List.append_nil]⟩
  | cons first rest ih =>
    obtain ⟨next, medium, what⟩ := first
    rw [monitored, List.map_cons, replay] at replayed
    obtain ⟨after_it, sorted⟩ := List.pairwise_cons.mp sorted
    split at replayed <;> rename_i performed
    · cases replayed
    · split at replayed <;> rename_i replayed'
      · cases replayed
      · cases replayed
        have now := watched.later (soon _ List.mem_cons_self)
        have untouched : (Monitor.disturb medium link.radio).dealings = link.dealings := rfl
        obtain ⟨more, stepLog, watched⟩ := stepLog.go_on now untouched performed
        obtain ⟨rest_of_it, time', stepLog, watched⟩ := ih stepLog watched
          (fun entry member => after_it _ (List.mem_map_of_mem member)) sorted replayed'
        refine ⟨more ++ rest_of_it, time', ?_, ?_⟩
        · simpa using stepLog
        · rwa [← List.append_assoc]

/-- In every run of a link that senses the channel, with real time that is never set back and with
    random backoffs of half a turn of the clock at most, the step log of the run shows that the link
    listens before it sends, whatever the radio answers. -/
theorem listensFirst_of_replay {method : Method}
    (queues : method = .carrierSense ∨ method = .acknowledged) {capacity : Nat} {config : Config}
    {radio : ρ} {rng : γ} {calls : List (Nat × (ρ → ρ) × Call)}
    (half : config.maxInitialBackoff ≤ 0x80000000)
    (sorted : (calls.map Prod.fst).Pairwise fun a b => a ≤ b)
    (replayed : (Link.new method capacity config (⟨radio, []⟩ : Monitor ρ) rng).replay
      (monitored calls) = .ok (history, last)) :
    ∃ log, StepLog (.new method capacity config ⟨radio, []⟩ rng) history (calls.map Prod.fst) log
        last ∧ last.dealings = log.flatMap StepRecord.dealings ∧ ListensFirst config log := by
  have watched := Watched.new queues capacity config radio rng 0
  obtain ⟨log, time, stepLog, watched⟩ := StepLog.append_replay .start watched
    (fun _ _ => Nat.zero_le _) sorted replayed
  exact ⟨log, stepLog, watched.dealings, watched.flow.listensFirst half⟩

/-- A link that goes on regardless when it finds the channel busy a second time. -/
def jammedLink : Link (Monitor Bench) StepGenerator :=
  .new .acknowledged 1
    { address := .short 1, ackTimeout := 10, maxAttempts := 2, retryTimeout := 5
      maxBusyAssessments := 1 } ⟨{}, []⟩ ⟨0, 0⟩

/-- A packet is submitted just before the clock wraps. The first assessment fails, the next finds
    the channel busy, and the one after that finds it clear; later it is busy for good. -/
def jam : List (Nat × (Bench → Bench) × Call) :=
  [(4294967295, id, .submit
      { dst := .short 2, seq := 1, sendAt := 4294967295, flags := { ackRequested := true } } [7]),
    (4294967295, fun r => { r with failsAssessment := true }, .poll),
    (4294967295, fun r => { r with failsAssessment := false, assessments := [false, true] },
      .poll),
    (4294967296, id, .poll), (4294967306, fun r => { r with busy := true }, .poll),
    (4294967311, id, .poll), (4294967312, id, .poll)]

/-- The packet is handed to the radio in two attempts, once the channel is clear and once although
    it is busy. -/
theorem listensFirst_of_replay_jammed :
    ∃ (history : List (Event (Monitor Bench) BenchError))
      (link : Link (Monitor Bench) StepGenerator) (log : List StepRecord),
      jammedLink.replay (monitored jam) = .ok (history, link) ∧
      link.dealings.map Dealing.assessment? =
        [some none, some (some false), some (some true), none, some (some false),
          some (some false), none] ∧
      StepLog jammedLink history (jam.map Prod.fst) log link ∧
      ListensFirst jammedLink.station.config log := by
  have replayed : jammedLink.replay (ε := BenchError) (monitored jam) = .ok (_, _) := rfl
  obtain ⟨log, stepLog, -, listens⟩ :=
    listensFirst_of_replay (.inr rfl) (by decide) (by decide) replayed
  exact ⟨_, _, log, replayed, rfl, stepLog, listens⟩

end Runs

end Link

end MoteLink
