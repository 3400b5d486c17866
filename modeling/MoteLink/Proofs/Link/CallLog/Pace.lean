import MoteLink.Proofs.Link.CallLog.Discipline

/-!
# The pace of attempts

Between two attempts on a packet an acknowledged link waits three times: for the acknowledgement,
then longer with every attempt, and last for a clear channel. The first two waits end at ticks that
the phase remembers, and ticks wrap. In the real times of a log each of these ticks is a time that
is not reached early, so that the waits add up.
-/

namespace MoteLink.Link

/-- An attempt: when the packet was handed to the radio, and whether the radio took it. -/
structure Try where
  time : Nat
  packet : Packet
  taken : Bool
  deriving DecidableEq, Repr

/-- The wait for an acknowledgement, where there can come one. -/
def Try.wait (c : Config) (attempt : Try) : Nat :=
  if attempt.taken then c.ackTimeout.toNat else 0

def Incident.attempt? (time : Nat) : Incident → Option Try
  | .handed packet taken => some { time, packet, taken }
  | _ => none

/-- The attempts, in the order in which they were made. -/
def triesIn (log : List (Nat × Incident)) : List Try := log.filterMap fun e => e.2.attempt? e.1

/-- The attempts since a packet has last gone in flight. -/
def latestTries (log : List (Nat × Incident)) : List Try :=
  log.foldl (fun tries e =>
    if e.2.started?.isSome then [] else tries ++ (e.2.attempt? e.1).toList) []

/-- Both waits after a try end while the comparison of ticks can be relied on. -/
structure Config.Paceable (c : Config) : Prop where
  ackTimeout : c.ackTimeout.toNat ≤ 2 ^ 31
  retryTimeout : c.retryTimeout.toNat * c.maxAttempts.toNat ≤ 2 ^ 31

/-- In the flight of a packet, which lasts until the next one starts, an attempt waits for the one
    before it to fail, and then for as many times the retry timeout as attempts have been made. -/
def Paced (c : Config) (log : List (Nat × Incident)) : Prop :=
  ∀ before flight after begun p, log = before ++ (begun, Incident.started p) :: (flight ++ after) →
    startedIn flight = [] →
    ∀ earlier first second later, triesIn flight = earlier ++ first :: second :: later →
      first.packet = p ∧ second.packet = p ∧
        first.time + first.wait c + (earlier.length + 1) * c.retryTimeout.toNat ≤ second.time

/-- The last of the tries has failed by `time`. -/
def HasFailed (c : Config) (tries : List Try) (time : Nat) : Prop :=
  ∃ last, tries.getLast? = some last ∧ last.time + last.wait c ≤ time

/-- After these tries another one may be made at `time`. -/
def Allowed (c : Config) (tries : List Try) (time : Nat) : Prop :=
  ∀ last, tries.getLast? = some last →
    last.time + last.wait c + tries.length * c.retryTimeout.toNat ≤ time

variable {c : Config} {log before after : List (Nat × Incident)} {time time' : Nat}
  {incident : Incident} {p q : Packet} {tries : List Try}

/-! ## Attempts in a log -/

theorem latestTries_concat (log : List (Nat × Incident)) (time : Nat) (incident : Incident) :
    latestTries (log ++ [(time, incident)]) =
      if incident.started?.isSome then []
      else latestTries log ++ (incident.attempt? time).toList := by
  unfold latestTries
  rw [List.foldl_append]
  rfl

theorem latestTries_keep (grounded : incident.started? = none)
    (idle : incident.attempt? time = none) :
    latestTries (log ++ [(time, incident)]) = latestTries log := by
  rw [latestTries_concat, grounded, idle]
  exact List.append_nil _

theorem Incident.quiet (incident : Incident) (quiet : incident.isQuiet = true) (time : Nat) :
    incident.started? = none ∧ incident.attempt? time = none := by
  cases incident with
  | started p => cases quiet
  | handed p taken => cases quiet
  | accepted p => exact ⟨rfl, rfl⟩
  | expired p => exact ⟨rfl, rfl⟩
  | acked p ack => exact ⟨rfl, rfl⟩
  | ended p reason => exact ⟨rfl, rfl⟩
  | cancelled p => exact ⟨rfl, rfl⟩
  | replied t => exact ⟨rfl, rfl⟩

theorem latestTries_quiet {incidents : List Incident}
    (quiet : ∀ incident ∈ incidents, incident.isQuiet = true) :
    latestTries (log ++ stamp time incidents) = latestTries log := by
  induction incidents generalizing log with
  | nil => rw [stamp, List.map_nil, List.append_nil]
  | cons incident rest ih =>
    obtain ⟨first, later⟩ := List.forall_mem_cons.mp quiet
    obtain ⟨grounded, idle⟩ := incident.quiet first time
    have next : latestTries (log ++ [(time, incident)] ++ stamp time rest) = _ := ih later
    rw [latestTries_keep grounded idle, List.append_assoc] at next
    exact next

/-- While no other packet starts the attempts of a flight are the latest ones. -/
theorem latestTries_of_flight {flight : List (Nat × Incident)} {begun : Nat}
    (alone : startedIn flight = []) :
    latestTries (before ++ (begun, .started p) :: flight) = triesIn flight := by
  induction flight using List.reverseRecOn with
  | nil =>
    rw [latestTries_concat]
    rfl
  | append_singleton flight entry ih =>
    obtain ⟨time, incident⟩ := entry
    rw [startedIn_concat, List.append_eq_nil_iff] at alone
    have grounded : incident.started? = none := Option.toList_eq_nil_iff.mp alone.2
    rw [← List.cons_append, ← List.append_assoc, latestTries_concat, ih alone.1, grounded]
    simp only [Option.isSome_none, Bool.false_eq_true, ↓reduceIte, triesIn, List.filterMap_append]
    cases incident <;> rfl

theorem triesIn_eq_append_cons {earlier later : List Try} {attempt : Try}
    (tried : triesIn log = earlier ++ attempt :: later) :
    ∃ front rest, log = front ++ (attempt.time, .handed attempt.packet attempt.taken) :: rest ∧
      triesIn front = earlier := by
  obtain ⟨front, rest, rfl, before, tail⟩ := List.filterMap_eq_append_iff.mp tried
  obtain ⟨idle, ⟨time, incident⟩, rest, rfl, silent, shown, -⟩ := List.filterMap_eq_cons_iff.mp tail
  cases incident <;> cases shown
  refine ⟨front ++ idle, rest, (List.append_assoc _ _ _).symm, ?_⟩
  rw [triesIn, List.filterMap_append, before, List.filterMap_eq_nil_iff.mpr silent, List.append_nil]

theorem Allowed.later (allowed : Allowed c tries time) (later : time ≤ time') :
    Allowed c tries time' := by
  intro last found
  exact (allowed last found).trans later

theorem allowed_nil : Allowed c [] time := by
  intro last found
  cases found

/-! ## One incident more -/

/-- Every attempt has been allowed at its time, and the packet in flight counts its attempts. -/
structure Pacing (c : Config) (log : List (Nat × Incident)) (flying : Option Packet) : Prop where
  allowed : ∀ before after time p taken, log = before ++ (time, Incident.handed p taken) :: after →
    Allowed c (latestTries before) time
  counted : ∀ p, flying = some p → (latestTries log).length = p.attempts.toNat

namespace Pacing

variable {flying flying' : Option Packet}

theorem nothing : Pacing c [] none := by
  constructor
  case allowed =>
    intro before after time p taken split
    cases before <;> cases split
  case counted =>
    intro p flies
    cases flies

theorem allowed_concat (pacing : Pacing c log flying)
    (next : ∀ p taken, incident = .handed p taken → Allowed c (latestTries log) time)
    {taken : Bool}
    (split : log ++ [(time, incident)] = before ++ (time', .handed p taken) :: after) :
    Allowed c (latestTries before) time' := by
  rcases List.eq_nil_or_concat after with rfl | ⟨rest, last, rfl⟩
  · obtain ⟨rfl, same⟩ := List.append_inj' split rfl
    cases same
    exact next _ _ rfl
  · rw [List.concat_eq_append, ← List.cons_append, ← List.append_assoc] at split
    exact pacing.allowed _ _ _ _ _ (List.append_inj' split rfl).1

/-- Incidents of other kinds change nothing, also where the packet in flight is let go. -/
theorem keep (pacing : Pacing c log flying) (grounded : incident.started? = none)
    (idle : incident.attempt? time = none) (stays : ∀ p, flying' = some p → flying = some p) :
    Pacing c (log ++ [(time, incident)]) flying' := by
  constructor
  case allowed =>
    intro before after time' p taken split
    refine pacing.allowed_concat ?_ split
    rintro q taken' rfl
    cases idle
  case counted =>
    intro p flies
    rw [latestTries_keep grounded idle]
    exact pacing.counted p (stays p flies)

/-- Incidents of other kinds, all at one time. -/
theorem quiet {incidents : List Incident} (pacing : Pacing c log flying)
    (quiet : ∀ incident ∈ incidents, incident.isQuiet = true)
    (stays : ∀ p, flying' = some p → flying = some p) :
    Pacing c (log ++ stamp time incidents) flying' := by
  induction incidents generalizing log with
  | nil =>
    rw [stamp, List.map_nil, List.append_nil]
    exact ⟨pacing.allowed, fun p flies => pacing.counted p (stays p flies)⟩
  | cons incident rest ih =>
    obtain ⟨first, later⟩ := List.forall_mem_cons.mp quiet
    obtain ⟨grounded, idle⟩ := incident.quiet first time
    have next := ih (pacing.keep grounded idle fun p flies => flies) later
    rw [List.append_assoc] at next
    exact next

theorem start (pacing : Pacing c log flying) (untried : p.attempts = 0) :
    Pacing c (log ++ [(time, .started p)]) (some p) := by
  constructor
  case allowed =>
    intro before after time' q taken split
    refine pacing.allowed_concat ?_ split
    rintro q taken' same
    cases same
  case counted =>
    intro q flies
    cases flies
    rw [latestTries_concat, untried]
    rfl

theorem hand {taken : Bool} (pacing : Pacing c log (some p))
    (allowed : Allowed c (latestTries log) time)
    (counted : q.attempts.toNat = p.attempts.toNat + 1) :
    Pacing c (log ++ [(time, .handed p.untried taken)]) (some q) := by
  constructor
  case allowed =>
    intro before after time' r taken' split
    exact pacing.allowed_concat (fun _ _ _ => allowed) split
  case counted =>
    intro r flies
    cases flies
    rw [counted, ← pacing.counted p rfl, latestTries_concat]
    exact List.length_append

section Flights

variable {line : Line} {flight : List (Nat × Incident)} {begun : Nat} (pacing : Pacing c log flying)
  (leads : Line.Leads {} log line)
  (split : log = before ++ (begun, .started p) :: (flight ++ after))
  (alone : startedIn flight = [])
include pacing leads split alone

/-- What is tried in a flight is its packet, and each try is allowed after those before it. -/
theorem of_flight {earlier later : List Try} {attempt : Try}
    (tried : triesIn flight = earlier ++ attempt :: later) :
    attempt.packet = p ∧ Allowed c earlier attempt.time := by
  obtain ⟨front, rest, rfl, rfl⟩ := triesIn_eq_append_cons tried
  rw [startedIn_append, List.append_eq_nil_iff] at alone
  rw [List.append_assoc, List.cons_append, ← List.cons_append, ← List.append_assoc] at split
  have allowed := pacing.allowed _ _ _ _ _ split
  rw [latestTries_of_flight alone.1] at allowed
  refine ⟨?_, allowed⟩
  rw [split] at leads
  obtain ⟨done, started⟩ := leads.started_of_handed
  have current : startedIn (before ++ (begun, .started p) :: front) = startedIn before ++ [p] := by
    rw [startedIn_append]
    exact congrArg (fun later => startedIn before ++ p :: later) alone.1
  rw [current] at started
  exact (List.singleton_inj.mp (List.append_inj' started rfl).2).symm

end Flights

/-- What is allowed keeps the pace. -/
theorem paced {line : Line} (pacing : Pacing c log flying) (leads : Line.Leads {} log line) :
    Paced c log := by
  intro before flight after begun p split alone earlier first second later tried
  obtain ⟨same, -⟩ := pacing.of_flight leads split alone tried
  have next : triesIn flight = (earlier ++ [first]) ++ second :: later := by
    rw [tried, List.append_assoc, List.singleton_append]
  obtain ⟨same', allowed⟩ := pacing.of_flight leads split alone next
  have wait := allowed first List.getLast?_concat
  rw [List.length_append, List.length_singleton] at wait
  exact ⟨same, same', wait⟩

end Pacing

/-! ## Waiting -/

/-- What the phase of an acknowledged link remembers of the tries on the packet in flight. -/
def AckPhase.Timed (c : Config) (time : Nat) (tries : List Try) : AckPhase → Prop
  | .idle => True
  | .backoff _ _ => Allowed c tries time
  | .awaitingAck expiry => ∃ last, tries.getLast? = some last ∧ last.taken = true ∧
      last.time ≤ time ∧ expiry = .ofNat (last.time + c.ackTimeout.toNat)
  | .retryWait expiry => ∃ since ≤ time, HasFailed c tries since ∧
      expiry = .ofNat (since + tries.length * c.retryTimeout.toNat)

namespace AckPhase

variable {phase : AckPhase} {expiry : Tick} {attempts : UInt8}

theorem Timed.later (timed : phase.Timed c time tries) (later : time ≤ time') :
    phase.Timed c time' tries := by
  cases phase with
  | idle => trivial
  | backoff expiry busy => exact Allowed.later timed later
  | awaitingAck expiry =>
    obtain ⟨last, found, taken, made, ends⟩ := timed
    exact ⟨last, found, taken, made.trans later, ends⟩
  | retryWait expiry =>
    obtain ⟨since, begun, failed, ends⟩ := timed
    exact ⟨since, begun.trans later, failed, ends⟩

/-- The wait for an acknowledgement begins with the attempt. -/
theorem timed_awaitingAck (c : Config) (time : Nat) (p : Packet) :
    (awaitingAck (.ofNat time + c.ackTimeout)).Timed c time (tries ++ [⟨time, p, true⟩]) := by
  refine ⟨⟨time, p, true⟩, List.getLast?_concat, rfl, Nat.le_refl _, ?_⟩
  rw [UInt32.ofNat_add, UInt32.ofNat_toNat]

theorem Timed.hasFailed (timed : (awaitingAck expiry).Timed c time tries) (paceable : c.Paceable)
    (passed : Tick.hasReached expiry (.ofNat time) = true) : HasFailed c tries time := by
  obtain ⟨last, found, taken, made, rfl⟩ := timed
  refine ⟨last, found, ?_⟩
  rw [Try.wait, if_pos taken]
  exact Tick.le_of_hasReached made paceable.ackTimeout passed

theorem retryBackoff_eq (paceable : c.Paceable) (below : attempts < c.maxAttempts) :
    c.retryBackoff attempts = .ofNat (attempts.toNat * c.retryTimeout.toNat) := by
  have few : attempts.toNat ≤ c.maxAttempts.toNat := Nat.le_of_lt (UInt8.lt_iff_toNat_lt.mp below)
  have short := (Nat.mul_le_mul_left c.retryTimeout.toNat few).trans paceable.retryTimeout
  have longest : Tick.longest.toNat = 4294967295 := rfl
  rw [← UInt32.ofNat_toNat (x := c.retryBackoff attempts), Config.retryBackoff,
    Tick.toNat_mulCapped, UInt8.toNat_toUInt32, Nat.min_eq_left (by omega), Nat.mul_comm]

/-- The wait for the next attempt begins when the last one has failed. -/
theorem timed_retryWait (paceable : c.Paceable) (failed : HasFailed c tries time)
    (counted : tries.length = attempts.toNat) (left : attempts < c.maxAttempts) :
    (retryWait (.ofNat time + c.retryBackoff attempts)).Timed c time tries := by
  refine ⟨time, Nat.le_refl _, failed, ?_⟩
  rw [retryBackoff_eq paceable left, counted, UInt32.ofNat_add]

theorem Timed.allowed (timed : (retryWait expiry).Timed c time tries) (paceable : c.Paceable)
    (few : tries.length ≤ c.maxAttempts.toNat)
    (passed : Tick.hasReached expiry (.ofNat time) = true) : Allowed c tries time := by
  obtain ⟨since, begun, ⟨last, found, failed⟩, rfl⟩ := timed
  have short : tries.length * c.retryTimeout.toNat ≤ 2 ^ 31 := by
    rw [Nat.mul_comm]
    exact (Nat.mul_le_mul_left _ few).trans paceable.retryTimeout
  have waited := Tick.le_of_hasReached begun short passed
  intro last' found'
  cases found.symm.trans found'
  omega

end AckPhase

end MoteLink.Link
