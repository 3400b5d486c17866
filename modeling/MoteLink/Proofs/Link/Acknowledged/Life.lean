import MoteLink.Proofs.Link.Acknowledged.Step
import MoteLink.Proofs.Link.CallLog.Incident
import MoteLink.Proofs.Trace

/-!
# The life of a packet

From the moment a place takes in a packet until it lets go of it a few things can happen there.
`Stage.Step` lists them one by one, as a machine that knows nothing of the link around the place.
`Life` lists what a whole life can look like: failed attempts first, and then one of few endings.
Every life that the machine can lead is of this shape, and the limit on the number of attempts and
the conditions of both outcomes are read off it.
-/

namespace MoteLink.Link

/-- How far a place is with its packet. -/
inductive Stage where
  | vacant
  /-- No attempt is under way. -/
  | ready (p : Packet) (failures : Nat)
  /-- The radio has taken the packet. -/
  | awaiting (p : Packet) (failures : Nat) (expiry : Tick)
  /-- What has become of the packet is settled but not yet told. -/
  | over (p : Packet) (reason : Option FailureReason)

namespace Stage

/-- The stage after one more failed attempt. -/
def afterFailure (c : Config) (p : Packet) (failures : Nat) (reason : FailureReason) : Stage :=
  if failures + 1 < c.attemptLimit then .ready p (failures + 1) else .over p (some reason)

/-- What can happen at `now`, and what comes of it. -/
inductive Step (c : Config) (now : Tick) : Stage → Incident → Stage → Prop
  | accept {p : Packet} (sound : p.descriptor.layoutError? = none) :
      Step c now .vacant (.accepted p) (.ready p 0)
  | refuse {p : Packet} {failures : Nat} :
      Step c now (.ready p failures) (.handed p false) (afterFailure c p failures .radio)
  | await {p : Packet} {failures : Nat} (asks : p.needsAck = true) :
      Step c now (.ready p failures) (.handed p true) (.awaiting p failures (now + c.ackTimeout))
  | send {p : Packet} {failures : Nat} (silent : p.needsAck = false) :
      Step c now (.ready p failures) (.handed p true) (.over p none)
  | expire {p : Packet} {failures : Nat} {expiry : Tick}
      (passed : Tick.hasReached expiry now = true) :
      Step c now (.awaiting p failures expiry) (.expired p) (afterFailure c p failures .ackTimeout)
  | ack {p : Packet} {failures : Nat} {expiry : Tick} {ack : Descriptor} (answers : p.AckedBy ack) :
      Step c now (.awaiting p failures expiry) (.acked p ack) (.over p none)
  | finish {p : Packet} {reason : Option FailureReason} :
      Step c now (.over p reason) (.ended p reason) .vacant
  | cancelReady {p : Packet} {failures : Nat} :
      Step c now (.ready p failures) (.cancelled p) .vacant
  | cancelAwaiting {p : Packet} {failures : Nat} {expiry : Tick} :
      Step c now (.awaiting p failures expiry) (.cancelled p) .vacant

/-- One step after the other, each at its tick. -/
def Leads (c : Config) : Stage → List (Tick × Incident) → Stage → Prop :=
  Path fun s entry s' => Step c entry.1 s entry.2 s'

variable {c : Config} {s s' : Stage} {now : Tick} {incident : Incident}

theorem afterFailure_of_limit {failures : Nat} (limit : failures + 1 = c.attemptLimit) (p : Packet)
    (reason : FailureReason) : afterFailure c p failures reason = .over p (some reason) :=
  if_neg (Nat.not_lt.mpr (Nat.le_of_eq limit.symm))

end Stage

/-! ## Failed attempts -/

/-- A row of failed attempts on a packet, each with the reason for its failure: the radio refuses
    the packet, or it takes it and the wait for an acknowledgement passes. -/
inductive Failures (c : Config) (p : Packet) : List (Tick × Incident) → List FailureReason → Prop
  | none : Failures c p [] []
  | refused {life : List (Tick × Incident)} {reasons : List FailureReason}
      (earlier : Failures c p life reasons) (now : Tick) :
      Failures c p (life ++ [(now, .handed p false)]) (reasons ++ [.radio])
  | unanswered {life : List (Tick × Incident)} {reasons : List FailureReason} {sent now : Tick}
      (earlier : Failures c p life reasons)
      (passed : Tick.hasReached (sent + c.ackTimeout) now = true) (asks : p.needsAck = true) :
      Failures c p (life ++ [(sent, .handed p true), (now, .expired p)])
        (reasons ++ [.ackTimeout])

/-- What can follow on failed attempts, and the stage that is reached by it. -/
inductive Ending (c : Config) (p : Packet) (reasons : List FailureReason) :
    List (Tick × Incident) → Stage → Prop
  | ready (left : reasons.length < c.attemptLimit) :
      Ending c p reasons [] (.ready p reasons.length)
  | awaiting {sent : Tick} (left : reasons.length < c.attemptLimit) (asks : p.needsAck = true) :
      Ending c p reasons [(sent, .handed p true)]
        (.awaiting p reasons.length (sent + c.ackTimeout))
  | spent {reason : FailureReason} (limit : reasons.length = c.attemptLimit)
      (last : reasons.getLast? = some reason) : Ending c p reasons [] (.over p (some reason))
  | givenUp {reason : FailureReason} {now : Tick} (limit : reasons.length = c.attemptLimit)
      (last : reasons.getLast? = some reason) :
      Ending c p reasons [(now, .ended p (some reason))] .vacant
  | acked {sent now : Tick} {ack : Descriptor} (left : reasons.length < c.attemptLimit)
      (asks : p.needsAck = true) (answers : p.AckedBy ack) :
      Ending c p reasons [(sent, .handed p true), (now, .acked p ack)] (.over p none)
  | confirmed {sent now now' : Tick} {ack : Descriptor} (left : reasons.length < c.attemptLimit)
      (asks : p.needsAck = true) (answers : p.AckedBy ack) :
      Ending c p reasons [(sent, .handed p true), (now, .acked p ack),
        (now', .ended p none)] .vacant
  | taken {sent : Tick} (left : reasons.length < c.attemptLimit) (silent : p.needsAck = false) :
      Ending c p reasons [(sent, .handed p true)] (.over p none)
  | sent {sent now : Tick} (left : reasons.length < c.attemptLimit)
      (silent : p.needsAck = false) :
      Ending c p reasons [(sent, .handed p true), (now, .ended p none)]
        .vacant
  | cancelled {now : Tick} (left : reasons.length < c.attemptLimit) :
      Ending c p reasons [(now, .cancelled p)] .vacant
  | cancelledAwaiting {sent now : Tick} (left : reasons.length < c.attemptLimit)
      (asks : p.needsAck = true) :
      Ending c p reasons [(sent, .handed p true), (now, .cancelled p)] .vacant

/-- What has happened to the packet `p` since it came into the place, and the stage that it has
    reached by that. -/
inductive Life (c : Config) (p : Packet) : List (Tick × Incident) → Stage → Prop
  | mk {tries rest : List (Tick × Incident)} {reasons : List FailureReason} {s : Stage}
      (failed : Failures c p tries reasons) (ending : Ending c p reasons rest s) :
      Life c p (tries ++ rest) s

/-- Without their ticks, the things that happened. -/
def happened (life : List (Tick × Incident)) : List Incident := life.map Prod.snd

/-- What the radio was asked to transmit. -/
def attempts (life : List (Tick × Incident)) : List Transmission :=
  life.filterMap fun entry => entry.2.transmission?

/-- The reasons for which attempts have failed. -/
def setbacks (life : List (Tick × Incident)) : List FailureReason :=
  life.filterMap fun entry => entry.2.failure?

section Lists

variable (first second : List (Tick × Incident))

@[simp] theorem happened_append : happened (first ++ second) = happened first ++ happened second :=
  List.map_append

@[simp] theorem attempts_append : attempts (first ++ second) = attempts first ++ attempts second :=
  List.filterMap_append

@[simp] theorem setbacks_append : setbacks (first ++ second) = setbacks first ++ setbacks second :=
  List.filterMap_append

end Lists

variable {c : Config} {p : Packet} {life more : List (Tick × Incident)}
  {reasons : List FailureReason} {s s' : Stage} {now : Tick}

theorem Failures.cases_of_mem (failed : Failures c p life reasons) {incident : Incident}
    (member : incident ∈ happened life) :
    (∃ taken, incident = .handed p taken) ∨ incident = .expired p := by
  induction failed with
  | none => cases member
  | refused earlier now ih =>
    rw [happened_append, List.mem_append] at member
    rcases member with before | last
    · exact ih before
    · left
      exact ⟨false, List.mem_singleton.mp last⟩
  | unanswered earlier passed asks ih =>
    rw [happened_append, List.mem_append] at member
    rcases member with before | last
    · exact ih before
    · rcases List.mem_cons.mp last with handed | expired
      · left
        exact ⟨true, handed⟩
      · right
        exact List.mem_singleton.mp expired

/-- Where no acknowledgement is asked for, a packet that the radio takes has not failed. -/
theorem Failures.needsAck_of_mem (failed : Failures c p life reasons)
    (taken : .handed p true ∈ happened life) : p.needsAck = true := by
  induction failed with
  | none => cases taken
  | refused earlier now ih =>
    rw [happened_append, List.mem_append] at taken
    rcases taken with before | last
    · exact ih before
    · have same : Incident.handed p true = .handed p false :=
        List.mem_singleton.mp last
      cases same
  | unanswered earlier passed asks ih => exact asks

theorem Failures.length_attempts (failed : Failures c p life reasons) :
    (attempts life).length = reasons.length := by
  induction failed with
  | none => rfl
  | refused earlier now ih =>
    rw [attempts_append, List.length_append, List.length_append, ih]
    rfl
  | unanswered earlier passed asks ih =>
    rw [attempts_append, List.length_append, List.length_append, ih]
    rfl

theorem Failures.setbacks_eq (failed : Failures c p life reasons) : setbacks life = reasons := by
  induction failed with
  | none => rfl
  | refused earlier now ih =>
    rw [setbacks_append, ih]
    rfl
  | unanswered earlier passed asks ih =>
    rw [setbacks_append, ih]
    rfl

/-! ## The machine leads no other life -/

theorem Ending.of_failure {reason : FailureReason} (left : reasons.length < c.attemptLimit) :
    Ending c p (reasons ++ [reason]) [] (Stage.afterFailure c p reasons.length reason) := by
  have counted : (reasons ++ [reason]).length = reasons.length + 1 := List.length_append
  unfold Stage.afterFailure
  by_cases again : reasons.length + 1 < c.attemptLimit
  · rw [if_pos again, ← counted]
    exact .ready (by omega)
  · rw [if_neg again]
    exact .spent (by omega) List.getLast?_concat

/-- A packet has just been taken in. -/
theorem Life.start (c : Config) (p : Packet) : Life c p [] (.ready p 0) := by
  have limit : 0 < c.attemptLimit := Nat.lt_of_lt_of_le Nat.zero_lt_one (Nat.le_max_left _ _)
  exact .mk .none (.ready limit)

/-- One more thing happens in the life of a packet. -/
theorem Life.step {incident : Incident} (alive : Life c p life s)
    (step : Stage.Step c now s incident s') (held : incident.accepted? = none) :
    Life c p (life ++ [(now, incident)]) s' := by
  obtain ⟨failed, ending⟩ := alive
  rw [List.append_assoc]
  cases step with
  | accept sound => cases held
  | refuse =>
    cases ending with
    | ready left =>
      have longer := Life.mk (failed.refused now) (.of_failure left)
      rwa [List.append_nil] at longer
  | await asks =>
    cases ending with
    | ready left => exact .mk failed (.awaiting left asks)
  | send silent =>
    cases ending with
    | ready left => exact .mk failed (.taken left silent)
  | expire passed =>
    cases ending with
    | awaiting left asks =>
      have longer := Life.mk (failed.unanswered passed asks) (.of_failure left)
      rwa [List.append_nil] at longer
  | ack answers =>
    cases ending with
    | awaiting left asks => exact .mk failed (.acked left asks answers)
  | finish =>
    cases ending with
    | spent limit last => exact .mk failed (.givenUp limit last)
    | acked left asks answers => exact .mk failed (.confirmed left asks answers)
    | taken left silent => exact .mk failed (.sent left silent)
  | cancelReady =>
    cases ending with
    | ready left => exact .mk failed (.cancelled left)
  | cancelAwaiting =>
    cases ending with
    | awaiting left asks => exact .mk failed (.cancelledAwaiting left asks)

theorem Life.leads (alive : Life c p life s) (leads : Stage.Leads c s more s')
    (held : ∀ incident ∈ happened more, incident.accepted? = none) :
    Life c p (life ++ more) s' := by
  induction leads with
  | nil =>
    rw [List.append_nil]
    exact alive
  | snoc earlier last ih =>
    rw [happened_append] at held
    obtain ⟨before, after⟩ := List.forall_mem_append.mp held
    rw [← List.append_assoc]
    exact (ih before).step last (after _ (List.mem_singleton_self _))

/-- What happens in a place from an acceptance until the next one is a life of the accepted
    packet. -/
theorem life_of_leads {before : List (Tick × Incident)}
    (leads : Stage.Leads c s (before ++ (now, .accepted p) :: life) s')
    (held : ∀ incident ∈ happened life, incident.accepted? = none) : Life c p life s' := by
  obtain ⟨left, right, -, here, later⟩ := leads.split
  cases here with
  | accept sound =>
    exact Life.leads (.start c p) later held

/-- Whatever happens to a packet in its life happens to no other one. -/
theorem Life.packet_of_mem (alive : Life c p life s) {incident : Incident}
    (member : incident ∈ happened life) : incident.packet? = some p := by
  obtain ⟨failed, ending⟩ := alive
  rw [happened_append, List.mem_append] at member
  rcases member with before | after
  · rcases failed.cases_of_mem before with ⟨taken, rfl⟩ | rfl <;> rfl
  · cases ending <;> simp only [happened, List.map_nil, List.map_cons, List.mem_cons,
      List.not_mem_nil, or_false] at after
    all_goals rcases after with rfl | rfl | rfl <;> rfl

/-- A packet whose outcome is settled to be a success has been acknowledged, or was not to be. -/
theorem Life.cause_of_over {q : Packet} (alive : Life c p life s) (settled : s = .over q none) :
    q.needsAck = false ∨ ∃ now ack, (now, .acked q ack) ∈ life ∧ q.AckedBy ack := by
  obtain ⟨failed, ending⟩ := alive
  cases ending with
  | taken left silent =>
    cases settled
    exact .inl silent
  | @acked sent now ack left asks answers =>
    cases settled
    right
    exact ⟨now, ack, List.mem_append_right _ (List.mem_cons_of_mem _ List.mem_cons_self), answers⟩
  | _ => cases settled

/-- A place that was vacant is so again, or leads the life of a packet that it has taken in. -/
theorem Stage.Leads.since {log : List (Tick × Incident)} (leads : Stage.Leads c .vacant log s) :
    s = .vacant ∨ ∃ before now p life, log = before ++ (now, .accepted p) :: life ∧
      Life c p life s := by
  induction leads with
  | nil => exact .inl rfl
  | @snoc log mid after entry earlier last ih =>
    obtain ⟨now, incident⟩ := entry
    right
    cases accepts : incident.accepted? with
    | some q =>
      cases last <;> cases accepts
      exact ⟨log, now, q, [], rfl, .start c q⟩
    | none =>
      rcases ih with rfl | ⟨before, start, p, life, rfl, alive⟩
      · cases last
        cases accepts
      · refine ⟨before, start, p, life ++ [(now, incident)], ?_, alive.step last accepts⟩
        rw [List.append_assoc, List.cons_append]

/-- What happens to a packet in a place happens after it has been taken in there. -/
theorem Stage.Leads.accepted_of_mem {log : List (Tick × Incident)} {incident : Incident}
    (leads : Stage.Leads c .vacant log s) (member : (now, incident) ∈ log)
    (concerns : incident.packet? = some p) : ∃ earlier, (earlier, .accepted p) ∈ log := by
  obtain ⟨before, after, rfl⟩ := List.append_of_mem member
  obtain ⟨mid, next, earlier, here, -⟩ := leads.split
  cases accepts : incident.accepted? with
  | some q =>
    cases here <;> cases accepts
    cases concerns
    exact ⟨now, member⟩
  | none =>
    rcases Stage.Leads.since earlier with rfl | ⟨front, start, q, life, rfl, alive⟩
    · cases here
      cases accepts
    · have lived := alive.step here accepts
      have mine := lived.packet_of_mem (List.mem_map_of_mem (List.mem_append_right _
        (List.mem_singleton_self (now, incident))))
      obtain rfl : q = p := Option.some.inj (mine.symm.trans concerns)
      exact ⟨start, List.mem_append_left _ (List.mem_append_right _ List.mem_cons_self)⟩

/-- Where the outcome told is that the packet is sent, an acknowledgement of it has come, or none
    was asked for. -/
theorem Stage.Leads.cause_of_ended {log : List (Tick × Incident)}
    (leads : Stage.Leads c .vacant log s) (member : (now, .ended p none) ∈ log) :
    p.needsAck = false ∨ ∃ time ack, (time, .acked p ack) ∈ log ∧ p.AckedBy ack := by
  obtain ⟨before, after, rfl⟩ := List.append_of_mem member
  obtain ⟨mid, next, earlier, here, -⟩ := leads.split
  cases here with
  | finish =>
    rcases Stage.Leads.since earlier with impossible | ⟨front, start, q, life, rfl, alive⟩
    · cases impossible
    · rcases alive.cause_of_over rfl with silent | ⟨time, ack, acked, answers⟩
      · exact .inl silent
      · right
        refine ⟨time, ack, ?_, answers⟩
        exact List.mem_append_left _ (List.mem_append_right _ (List.mem_cons_of_mem _ acked))

end MoteLink.Link
