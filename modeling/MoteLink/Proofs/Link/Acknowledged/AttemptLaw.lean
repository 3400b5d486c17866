import MoteLink.Proofs.Link.CallLog.Run
import MoteLink.Radio.Bench

/-!
# The law of attempts

A packet is handed to the radio a limited number of times and always as the same frame. It is given
up when all attempts have failed, and sent when it is acknowledged or, where nobody is asked to
acknowledge it, taken by the radio; after that nothing happens to it. The law is read off the shape
of a life, and every recording has a log in which every life is of that shape.
-/

namespace MoteLink.Link

/-- The law on the attempts that are made on the packet `p`, where `life` is all that has happened
    to it in its place. -/
structure Lawful (c : Config) (p : Packet) (life : List (Tick × Incident)) : Prop where
  /-- The radio is asked a limited number of times, -/
  few : (attempts life).length ≤ c.attemptLimit
  /-- and every time to transmit the same. -/
  same : ∀ t ∈ attempts life, t.header = p.descriptor.headerBytes ∧ t.payload = p.payload
  /-- The packet is given up as soon as all its attempts have failed and not before, for the reason
      of the last failure. -/
  failed_iff : ∀ reason, .ended p (some reason) ∈ happened life ↔
    ∃ tries rest reasons, life = tries ++ rest ∧ Failures c p tries reasons ∧
      reasons.length = c.attemptLimit ∧ reasons.getLast? = some reason
  /-- The packet is sent as soon as it is acknowledged or, where nobody is asked to acknowledge it,
      taken by the radio, and not before. -/
  sent_iff : .ended p none ∈ happened life ↔
    (∃ ack, .acked p ack ∈ happened life) ∨
      (p.needsAck = false ∧ .handed p true ∈ happened life)
  /-- Only an acknowledgement of this packet counts, and only right after an attempt. -/
  acked : ∀ before after now ack, life = before ++ (now, .acked p ack) :: after → p.AckedBy ack ∧
    ∃ earlier sent, before = earlier ++ [(sent, .handed p true)]
  /-- All that happens in the place happens to this packet, -/
  own : ∀ incident ∈ happened life, incident.packet? = some p
  /-- and nothing more when its outcome has been told. -/
  last : ∀ before after now q reason, life = before ++ (now, .ended q reason) :: after → after = []

variable {c : Config} {p : Packet} {life tries rest : List (Tick × Incident)}
  {reasons : List FailureReason} {s : Stage} {now : Tick}

/-! ## Reading the law off a life -/

theorem mem_attempts {t : Transmission} :
    t ∈ attempts life ↔ ∃ incident ∈ happened life, incident.transmission? = some t := by
  unfold attempts happened
  rw [List.mem_filterMap]
  constructor
  · rintro ⟨entry, member, shown⟩
    exact ⟨entry.2, List.mem_map_of_mem member, shown⟩
  · rintro ⟨incident, member, shown⟩
    obtain ⟨entry, among, rfl⟩ := List.mem_map.mp member
    exact ⟨entry, among, shown⟩

theorem Failures.not_acked (failed : Failures c p tries reasons) (ack : Descriptor) :
    .acked p ack ∉ happened tries := by
  intro member
  rcases failed.cases_of_mem member with ⟨taken, handed⟩ | expired
  · cases handed
  · cases expired

theorem Failures.not_ended (failed : Failures c p tries reasons) (q : Packet)
    (reason : Option FailureReason) : .ended q reason ∉ happened tries := by
  intro member
  rcases failed.cases_of_mem member with ⟨taken, handed⟩ | expired
  · cases handed
  · cases expired

theorem Ending.taken_of_handed (ending : Ending c p reasons rest s) {incident : Incident}
    {t : Transmission} (member : incident ∈ happened rest)
    (shown : incident.transmission? = some t) : t = p.transmission true := by
  cases ending <;> simp only [happened, List.map_nil, List.map_cons, List.mem_cons,
    List.not_mem_nil, or_false] at member
  all_goals rcases member with rfl | rfl | rfl <;> cases shown <;> rfl

theorem Life.transmission_of_handed (alive : Life c p life s) {incident : Incident}
    {t : Transmission} (member : incident ∈ happened life)
    (shown : incident.transmission? = some t) : ∃ taken, t = p.transmission taken := by
  obtain ⟨failed, ending⟩ := alive
  rw [happened_append, List.mem_append] at member
  rcases member with before | after
  · rcases failed.cases_of_mem before with ⟨taken, rfl⟩ | rfl
    · cases shown
      exact ⟨taken, rfl⟩
    · cases shown
  · exact ⟨true, ending.taken_of_handed after shown⟩

/-- An ending makes another attempt only where the limit leaves one. -/
theorem Ending.length_attempts_le (ending : Ending c p reasons rest s) :
    reasons.length + (attempts rest).length ≤ c.attemptLimit := by
  cases ending with
  | ready left => exact Nat.le_of_lt left
  | awaiting left asks => exact left
  | spent limit last => exact Nat.le_of_eq limit
  | givenUp limit last => exact Nat.le_of_eq limit
  | acked left asks answers => exact left
  | confirmed left asks answers => exact left
  | taken left silent => exact left
  | sent left silent => exact left
  | cancelled left => exact Nat.le_of_lt left
  | cancelledAwaiting left asks => exact left

theorem Life.length_attempts_le (alive : Life c p life s) :
    (attempts life).length ≤ c.attemptLimit := by
  obtain ⟨failed, ending⟩ := alive
  rw [attempts_append, List.length_append, failed.length_attempts]
  exact ending.length_attempts_le

/-- A packet that is given up has spent all its attempts. -/
theorem Ending.limit_of_failed {reason : FailureReason} (ending : Ending c p reasons rest s)
    (told : .ended p (some reason) ∈ happened rest) :
    reasons.length = c.attemptLimit ∧ reasons.getLast? = some reason := by
  cases ending <;> simp [happened] at told
  case givenUp reason' now limit last =>
    rw [told]
    exact ⟨limit, last⟩

/-- No ending counts as a failed attempt. -/
theorem Ending.setbacks_eq (ending : Ending c p reasons rest s) : setbacks rest = [] := by
  cases ending <;> rfl

/-- With all attempts spent the packet is given up at once. -/
theorem Ending.failed_of_limit {reason : FailureReason} (ending : Ending c p reasons rest s)
    (settled : ∀ q reason, s ≠ .over q reason) (limit : reasons.length = c.attemptLimit)
    (last : reasons.getLast? = some reason) :
    .ended p (some reason) ∈ happened rest := by
  cases ending with
  | ready left => omega
  | awaiting left asks => omega
  | spent limit last => exact absurd rfl (settled _ _)
  | givenUp limit last' =>
    rw [last] at last'
    cases last'
    exact List.mem_singleton_self _
  | acked left asks answers => omega
  | confirmed left asks answers => omega
  | taken left silent => omega
  | sent left silent => omega
  | cancelled left => omega
  | cancelledAwaiting left asks => omega

theorem Life.failed_iff (alive : Life c p life s) (settled : ∀ q reason, s ≠ .over q reason)
    (reason : FailureReason) : .ended p (some reason) ∈ happened life ↔
      ∃ tries rest reasons, life = tries ++ rest ∧ Failures c p tries reasons ∧
        reasons.length = c.attemptLimit ∧ reasons.getLast? = some reason := by
  obtain @⟨tries, rest, reasons, s, failed, ending⟩ := alive
  constructor
  · intro told
    rw [happened_append, List.mem_append] at told
    rcases told with before | after
    · exact absurd before (failed.not_ended _ _)
    · obtain ⟨limit, last⟩ := ending.limit_of_failed after
      exact ⟨tries, rest, reasons, rfl, failed, limit, last⟩
  · rintro ⟨tries', rest', reasons', same, failed', limit, last⟩
    -- Both ways to part the life show the same setbacks, and there are no more than the limit.
    have shown : reasons = reasons' ++ setbacks rest' := by
      have parted := congrArg setbacks same
      rw [setbacks_append, setbacks_append, failed.setbacks_eq, failed'.setbacks_eq,
        ending.setbacks_eq, List.append_nil] at parted
      exact parted
    have most := ending.length_attempts_le
    have counted := congrArg List.length shown
    rw [List.length_append] at counted
    have none_later : setbacks rest' = [] := List.length_eq_zero_iff.mp (by omega)
    rw [none_later, List.append_nil] at shown
    subst shown
    rw [happened_append]
    exact List.mem_append_right _ (ending.failed_of_limit settled limit last)

theorem Ending.cause_of_sent (ending : Ending c p reasons rest s)
    (told : .ended p none ∈ happened rest) :
    (∃ ack, .acked p ack ∈ happened rest) ∨
      (p.needsAck = false ∧ .handed p true ∈ happened rest) := by
  cases ending with
  | ready left => cases told
  | awaiting left asks => cases List.mem_singleton.mp told
  | spent limit last => cases told
  | givenUp limit last =>
    cases List.mem_singleton.mp told
  | @acked sent now ack left asks answers =>
    left
    exact ⟨ack, List.mem_cons_of_mem _ List.mem_cons_self⟩
  | @confirmed sent now now' ack left asks answers =>
    left
    exact ⟨ack, List.mem_cons_of_mem _ List.mem_cons_self⟩
  | taken left silent =>
    right
    exact ⟨silent, List.mem_cons_self⟩
  | sent left silent =>
    right
    exact ⟨silent, List.mem_cons_self⟩
  | cancelled left => cases List.mem_singleton.mp told
  | cancelledAwaiting left asks => simp [happened] at told

theorem Ending.sent_of_cause (ending : Ending c p reasons rest s)
    (settled : ∀ q reason, s ≠ .over q reason)
    (cause : (∃ ack, .acked p ack ∈ happened rest) ∨
      (p.needsAck = false ∧ .handed p true ∈ happened rest)) :
    .ended p none ∈ happened rest := by
  cases ending with
  | acked left asks answers => exact absurd rfl (settled _ _)
  | taken left silent => exact absurd rfl (settled _ _)
  | spent limit last => exact absurd rfl (settled _ _)
  | _ => simp_all [happened]

theorem Life.sent_iff (alive : Life c p life s) (settled : ∀ q reason, s ≠ .over q reason) :
    .ended p none ∈ happened life ↔
      (∃ ack, .acked p ack ∈ happened life) ∨
        (p.needsAck = false ∧ .handed p true ∈ happened life) := by
  obtain ⟨failed, ending⟩ := alive
  simp only [happened_append, List.mem_append]
  constructor
  · rintro (before | after)
    · exact absurd before (failed.not_ended _ _)
    · rcases ending.cause_of_sent after with ⟨ack, acked⟩ | ⟨silent, taken⟩
      · left
        exact ⟨ack, .inr acked⟩
      · right
        exact ⟨silent, .inr taken⟩
  · intro cause
    right
    apply ending.sent_of_cause settled
    rcases cause with ⟨ack, before | after⟩ | ⟨silent, before | after⟩
    · exact absurd before (failed.not_acked ack)
    · left
      exact ⟨ack, after⟩
    · have asks := failed.needsAck_of_mem before
      rw [silent] at asks
      cases asks
    · right
      exact ⟨silent, after⟩

/-- A list is parted at an entry that its front does not hold: the parting lies in the back. -/
theorem append_eq_of_not_mem {α : Type} {front back before after : List α} {entry : α}
    (same : front ++ back = before ++ entry :: after) (absent : entry ∉ front) :
    ∃ middle, before = front ++ middle ∧ back = middle ++ entry :: after := by
  rcases List.append_eq_append_iff.mp same with ⟨middle, rfl, parted⟩ | ⟨middle, rfl, parted⟩
  · exact ⟨middle, rfl, parted⟩
  · cases middle with
    | nil => exact ⟨[], by simp, by simpa using parted.symm⟩
    | cons first others =>
      rw [List.cons_append, List.cons.injEq] at parted
      rw [parted.1] at absent
      exact absurd (List.mem_append_right _ List.mem_cons_self) absent

theorem Ending.acked_after_attempt (ending : Ending c p reasons rest s)
    {middle after : List (Tick × Incident)} {ack : Descriptor}
    (parted : rest = middle ++ (now, .acked p ack) :: after) :
    p.AckedBy ack ∧ ∃ sent, middle = [(sent, .handed p true)] := by
  have found : (now, Incident.acked p ack) ∈ rest := by
    rw [parted]
    exact List.mem_append_right _ List.mem_cons_self
  cases ending with
  | @acked sent now' ack' left asks answers =>
    rcases middle with _ | ⟨first, _ | ⟨second, others⟩⟩ <;> simp at parted
    obtain ⟨rfl, ⟨-, rfl⟩, -⟩ := parted
    exact ⟨answers, sent, rfl⟩
  | @confirmed sent now' now'' ack' left asks answers =>
    rcases middle with _ | ⟨first, _ | ⟨second, _ | ⟨third, others⟩⟩⟩ <;> simp at parted
    obtain ⟨rfl, ⟨-, rfl⟩, -⟩ := parted
    exact ⟨answers, sent, rfl⟩
  | _ => simp at found

theorem Life.acked_after_attempt (alive : Life c p life s) {before after : List (Tick × Incident)}
    {ack : Descriptor} (parted : life = before ++ (now, .acked p ack) :: after) :
    p.AckedBy ack ∧ ∃ earlier sent, before = earlier ++ [(sent, .handed p true)] := by
  obtain @⟨tries, rest, reasons, s, failed, ending⟩ := alive
  have absent : (now, Incident.acked p ack) ∉ tries := by
    intro member
    exact failed.not_acked ack (List.mem_map_of_mem member)
  obtain ⟨middle, rfl, split⟩ := append_eq_of_not_mem parted absent
  obtain ⟨answers, sent, rfl⟩ := ending.acked_after_attempt split
  exact ⟨answers, tries, sent, rfl⟩

theorem Ending.nothing_after_end (ending : Ending c p reasons rest s)
    {middle after : List (Tick × Incident)} {q : Packet} {reason : Option FailureReason}
    (parted : rest = middle ++ (now, .ended q reason) :: after) : after = [] := by
  have found : (now, Incident.ended q reason) ∈ rest := by
    rw [parted]
    exact List.mem_append_right _ List.mem_cons_self
  cases ending with
  | givenUp limit last =>
    rcases middle with _ | ⟨first, others⟩ <;> simp at parted
    exact parted.2
  | confirmed left asks answers =>
    rcases middle with _ | ⟨first, _ | ⟨second, _ | ⟨third, others⟩⟩⟩ <;> simp at parted
    exact parted.2.2.2
  | sent left silent =>
    rcases middle with _ | ⟨first, _ | ⟨second, others⟩⟩ <;> simp at parted
    exact parted.2.2
  | _ => simp at found

theorem Life.nothing_after_end (alive : Life c p life s) {before after : List (Tick × Incident)}
    {q : Packet} {reason : Option FailureReason}
    (parted : life = before ++ (now, .ended q reason) :: after) : after = [] := by
  obtain @⟨tries, rest, reasons, s, failed, ending⟩ := alive
  have absent : (now, Incident.ended q reason) ∉ tries := by
    intro member
    exact failed.not_ended q reason (List.mem_map_of_mem member)
  obtain ⟨middle, -, split⟩ := append_eq_of_not_mem parted absent
  exact ending.nothing_after_end split

/-- Whatever happens to a packet, its attempts follow the law, unless its outcome is settled and yet
    to be told. -/
theorem Life.lawful (alive : Life c p life s) (settled : ∀ q reason, s ≠ .over q reason) :
    Lawful c p life where
  few := alive.length_attempts_le
  same := by
    intro t attempted
    obtain ⟨incident, member, shown⟩ := mem_attempts.mp attempted
    obtain ⟨taken, rfl⟩ := alive.transmission_of_handed member shown
    exact ⟨rfl, rfl⟩
  failed_iff := alive.failed_iff settled
  sent_iff := alive.sent_iff settled
  acked := fun before after now ack parted => alive.acked_after_attempt parted
  own := fun incident member => alive.packet_of_mem member
  last := fun before after now q reason parted => alive.nothing_after_end parted

/-! ## Waiting for an acknowledgement -/

theorem Failures.last_ne (failed : Failures c p tries reasons) (front : List (Tick × Incident))
    (sent : Tick) : tries ≠ front ++ [(sent, .handed p true)] := by
  intro parted
  cases failed with
  | none => cases front <;> cases parted
  | refused earlier now => cases List.singleton_inj.mp (List.append_inj' parted rfl).2
  | @unanswered life reasons sent' now earlier passed asks =>
    have shifted : (life ++ [(sent', .handed p true)]) ++ [(now, .expired p)] =
        front ++ [(sent, .handed p true)] := by
      rw [List.append_assoc]
      exact parted
    cases List.singleton_inj.mp (List.append_inj' shifted rfl).2

/-- A packet that asks for an acknowledgement and that the radio has taken just now waits. All the
    attempts before have failed. -/
theorem Life.awaiting_of_handed {sent : Tick}
    (alive : Life c p (life ++ [(sent, .handed p true)]) s)
    (settled : ∀ q reason, s ≠ .over q reason) (asks : p.needsAck = true) :
    s = .awaiting p (attempts life).length (sent + c.ackTimeout) := by
  generalize whole : life ++ [(sent, .handed p true)] = all at alive
  obtain @⟨tries, rest, reasons, s, failed, ending⟩ := alive
  have last : (tries ++ rest).getLast? = some (sent, .handed p true) := by
    rw [← whole]
    exact List.getLast?_concat
  cases ending with
  | ready left =>
    rw [List.append_nil] at whole
    exact absurd whole.symm (failed.last_ne life sent)
  | @awaiting sent' left asks =>
    obtain ⟨rfl, same⟩ := List.append_inj' whole rfl
    cases same
    rw [failed.length_attempts]
  | spent limit last => exact absurd rfl (settled _ _)
  | acked left asks answers => exact absurd rfl (settled _ _)
  | taken left silent => exact absurd rfl (settled _ _)
  | sent left silent =>
    rw [asks] at silent
    cases silent
  | _ => simp at last

/-! ## Every log follows the law -/

/-- The place `i` waits for an acknowledgement of the packet `p`: after `life` the radio has taken
    the packet at the tick `sent`, and nothing has happened in the place since. -/
structure Awaits {ρ ε : Type} (records : List (CallRecord ρ ε Entry)) (i : Nat) (p : Packet)
    (life : List (Tick × Incident)) (sent : Tick) : Prop where
  asks : p.needsAck = true
  handed : ∃ before now, courseAt i records =
    before ++ (now, .accepted p) :: (life ++ [(sent, .handed p true)])
  held : ∀ incident ∈ happened life, incident.accepted? = none

section Logs

variable {ρ γ ε : Type} [Transceiver ρ ε] [RandomSource γ] {capacity : Nat} {config : Config}
  {radio : ρ} {rng : γ} {records before after : List (CallRecord (Recorder ρ) ε Entry)}
  {record : CallRecord (Recorder ρ) ε Entry} {reached : Lined ρ γ} {i : Nat} {sent : Tick}

theorem CallLog.lawful {earlier : List (Tick × Incident)}
    (log : CallLog (.new .acknowledged capacity config ⟨radio, []⟩ rng) records reached)
    (parted : courseAt i records = earlier ++ (now, .accepted p) :: life)
    (held : ∀ incident ∈ happened life, incident.accepted? = none) : Lawful config p life := by
  have leads := log.stages rfl i
  rw [parted] at leads
  have alive : Life config p life (reached.link.stageAt i) := life_of_leads leads held
  exact alive.lawful (reached.link.stageAt_ne_over i)

/-- A place that waits by the log is one that waits by its slot and the phase. -/
theorem CallLog.stageAt_of_awaits
    (log : CallLog (.new .acknowledged capacity config ⟨radio, []⟩ rng) records reached)
    (awaits : Awaits records i p life sent) :
    reached.link.stageAt i = .awaiting p (attempts life).length (sent + config.ackTimeout) := by
  obtain ⟨before, now, parted⟩ := awaits.handed
  have leads := log.stages rfl i
  rw [parted] at leads
  have alive : Life config p (life ++ [(sent, .handed p true)]) (reached.link.stageAt i) := by
    apply life_of_leads leads
    intro incident member
    rw [happened_append, List.mem_append] at member
    rcases member with earlier | last
    · exact awaits.held incident earlier
    · rw [List.mem_singleton.mp last]
      rfl
  exact alive.awaiting_of_handed (reached.link.stageAt_ne_over i) awaits.asks

/-- While a packet waits for an acknowledgement a received frame is what decides: the packet is sent
    if the frame is for this node and acknowledges it, and not otherwise. -/
theorem CallLog.ended_iff_acked {frame : Bytes}
    (log : CallLog (.new .acknowledged capacity config ⟨radio, []⟩ rng)
      (before ++ record :: after) reached)
    (call : record.event.call = .receive frame) (awaits : Awaits before i p life sent) :
    ⟨some i, .ended p none⟩ ∈ record.entries ↔
      ∃ d, (new .acknowledged capacity config (⟨radio, []⟩ : Recorder ρ) rng).station.listen
        frame = some d ∧ p.AckedBy d.descriptor := by
  obtain ⟨a, b, earlier, here, -⟩ := log.split
  constructor
  · intro told
    have written := here.written
    rw [call] at written
    exact written.acked_of_ended told
  · rintro ⟨d, heard, answers⟩
    have waits := earlier.stageAt_of_awaits awaits
    rw [(here.staged rfl).heeds frame d i p _ _ call heard waits answers]
    exact List.mem_cons_of_mem _ List.mem_cons_self

/-- What a poll still does where it is settled what has become of the packet. -/
theorem ended_of_over {reason : Option FailureReason}
    (leads : Stage.Leads c (.over p reason) rest s)
    (own : ∀ time incident, (time, incident) ∈ rest → time = now ∧ incident.isOwn = true)
    (settled : ∀ q reason, s ≠ .over q reason) : rest = [(now, .ended p reason)] := by
  cases rest with
  | nil => exact absurd leads.eq_of_nil (settled _ _)
  | cons first others =>
    obtain ⟨time, incident⟩ := first
    obtain ⟨freed, step, later⟩ := leads.of_cons
    obtain ⟨rfl, -⟩ := own time incident List.mem_cons_self
    cases step with
    | finish =>
      cases others with
      | nil => rfl
      | cons second more =>
        obtain ⟨taken, step, -⟩ := later.of_cons
        obtain ⟨-, mine⟩ := own second.1 second.2 (List.mem_cons_of_mem _ List.mem_cons_self)
        generalize second.2 = incident at step mine
        cases step with
        | accept sound => cases mine

/-- While a packet waits for an acknowledgement a poll is what ends the wait: not before its time
    and not after it, and if that was the last attempt the packet is given up at once. -/
theorem CallLog.prompt_of_poll
    (log : CallLog (.new .acknowledged capacity config ⟨radio, []⟩ rng)
      (before ++ record :: after) reached)
    (call : record.event.call = .poll) (awaits : Awaits before i p life sent) :
    Prompt record.event.now (sent + config.ackTimeout) p
        (placeLog i record.event.now record.entries) ∧
      (Tick.hasReached (sent + config.ackTimeout) record.event.now = true →
        (attempts life).length + 1 = config.attemptLimit →
        placeLog i record.event.now record.entries = [(record.event.now, .expired p),
          (record.event.now, .ended p (some .ackTimeout))]) := by
  obtain ⟨a, b, earlier, here, -⟩ := log.split
  have waits := earlier.stageAt_of_awaits awaits
  have staged := here.staged rfl
  have leads : Stage.Leads config (a.link.stageAt i)
      (placeLog i record.event.now record.entries) (b.link.stageAt i) := staged.tracks i
  have ends := staged.prompt i p _ _ call waits
  refine ⟨ends, fun passed limit => ?_⟩
  obtain ⟨later, told⟩ := ends.late passed
  rw [waits, told] at leads
  obtain ⟨reached, step, rest⟩ := leads.of_cons
  have written := here.written
  rw [call] at written
  rw [told]
  cases step with
  | expire passed =>
    rw [Stage.afterFailure_of_limit limit] at rest
    refine congrArg _ (ended_of_over rest ?_ (b.link.stageAt_ne_over i))
    intro time incident member
    have among : (time, incident) ∈ placeLog i record.event.now record.entries := by
      rw [told]
      exact List.mem_cons_of_mem _ member
    obtain ⟨rfl, there, -⟩ := mem_placeLog.mp among
    obtain ⟨j, -, mine⟩ := Entry.eq_of_isOwn (written.isOwn_of_poll _ there)
    exact ⟨rfl, mine⟩

end Logs

namespace Acknowledged

variable {ρ γ ε : Type} [Transceiver ρ ε] [RandomSource γ] {capacity : Nat} {config : Config}
  {radio : ρ} {rng : γ}

/-- Whatever is asked of an acknowledged link and whatever radio and medium do, its recording has a
    log in which the attempts on every packet follow the law, from the acceptance of the packet
    until its place takes in the next one. While a packet waits for an acknowledgement, a frame for
    this node that acknowledges it makes the link tell that it is sent, and no other frame does; and
    a poll ends the wait if the time for the acknowledgement has passed, and not otherwise. If that
    was the last attempt allowed, the same poll tells that the packet has failed. -/
theorem lawful_of_recording {history : List (Event (Recorder ρ) ε)} {link : Link (Recorder ρ) γ}
    (recording : Recording (.new .acknowledged capacity config ⟨radio, []⟩ rng) history link) :
    ∃ records, TrueTo (.new .acknowledged capacity config ⟨radio, []⟩ rng) history
        (history.map fun event => event.now.toNat) link records ∧
      (∀ i before now p life, courseAt i records = before ++ (now, .accepted p) :: life →
        (∀ incident ∈ happened life, incident.accepted? = none) → Lawful config p life) ∧
      (∀ before record after i p life sent frame, records = before ++ record :: after →
        record.event.call = .receive frame → Awaits before i p life sent →
        (⟨some i, .ended p none⟩ ∈ record.entries ↔
          ∃ d, (new .acknowledged capacity config (⟨radio, []⟩ : Recorder ρ) rng).station.listen
            frame = some d ∧ p.AckedBy d.descriptor)) ∧
      ∀ before record after i p life sent, records = before ++ record :: after →
        record.event.call = .poll → Awaits before i p life sent →
        Prompt record.event.now (sent + config.ackTimeout) p
            (placeLog i record.event.now record.entries) ∧
          (Tick.hasReached (sent + config.ackTimeout) record.event.now = true →
            (attempts life).length + 1 = config.attemptLimit →
            placeLog i record.event.now record.entries = [(record.event.now, .expired p),
              (record.event.now, .ended p (some .ackTimeout))]) := by
  obtain ⟨records, line, log, trueTo⟩ := exists_log_of_recording (.inr rfl) recording
  refine ⟨records, trueTo, ?_, ?_, ?_⟩
  · intro i before now p life parted held
    exact log.lawful parted held
  · rintro before record after i p life sent frame rfl call awaits
    exact log.ended_iff_acked call awaits
  · rintro before record after i p life sent rfl call awaits
    exact log.prompt_of_poll call awaits

/-- A packet is sent once more after its first attempt has not been answered, and is then
    acknowledged. -/
theorem lawful_of_recording_retried :
    ∃ (history : List (Event (Recorder Bench) BenchError))
      (link : Link (Recorder Bench) StepGenerator)
      (records : List (CallRecord (Recorder Bench) BenchError Entry)),
      Recording (.new .acknowledged 1
        { address := .short 1, maxAttempts := 2, maxInitialBackoff := 0 } ⟨{}, []⟩ ⟨0, 0⟩)
        history link ∧
      link.record = [⟨[0xa4, 0x80, 1, 0, 2, 0, 1], [7], true⟩,
        ⟨[0xa4, 0x80, 1, 0, 2, 0, 1], [7], true⟩] ∧
      link.station.outcomes.items = [.sent 1 (.short 2)] ∧
      TrueTo (.new .acknowledged 1
        { address := .short 1, maxAttempts := 2, maxInitialBackoff := 0 } ⟨{}, []⟩ ⟨0, 0⟩)
        history [5, 5, 205, 305, 306] link records ∧
      ∀ i before now p life, courseAt i records = before ++ (now, .accepted p) :: life →
        (∀ incident ∈ happened life, incident.accepted? = none) →
        Lawful { address := .short 1, maxAttempts := 2, maxInitialBackoff := 0 } p life := by
  have recording : Recording (ε := BenchError) (.new .acknowledged 1
      { address := .short 1, maxAttempts := 2, maxInitialBackoff := 0 }
      (⟨{}, []⟩ : Recorder Bench) (⟨0, 0⟩ : StepGenerator)) _ _ :=
    recording_of_replay [(5, id, .send (.short 2) [7]), (5, id, .poll), (205, id, .poll),
      (305, id, .poll), (306, id, .receive [0xa4, 0x40, 2, 0, 1, 0, 1])] rfl
  obtain ⟨records, trueTo, lawful, -⟩ := lawful_of_recording recording
  exact ⟨_, _, records, recording, rfl, rfl, trueTo, lawful⟩

end Acknowledged

end MoteLink.Link
