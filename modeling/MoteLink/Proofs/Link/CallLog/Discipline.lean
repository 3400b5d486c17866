import Mathlib.Data.List.Infix
import MoteLink.Proofs.Link.CallLog.Line
import MoteLink.Proofs.Tick

/-!
# Packets are served in turn

What a log says of the packets follows from what can happen to a line. Every step of the line adds
to the lists of packets accepted, started, ended and cancelled what its incident shows, and moves
packets from one to the next; the discipline of the service is read off the lists.
-/

namespace MoteLink.Link

variable {log before after : List (Nat × Incident)} {time : Nat} {incident : Incident}
  {p q : Packet}

section Lists

variable (log time incident)

/-- What a new entry adds to a list that is read off the incidents. -/
theorem filterMap_concat {β : Type} (view : Incident → Option β) :
    (log ++ [(time, incident)]).filterMap (fun e => view e.2) =
      log.filterMap (fun e => view e.2) ++ (view incident).toList := by
  rw [List.filterMap_append]
  cases shown : view incident <;> simp [shown]

theorem acceptedIn_concat :
    acceptedIn (log ++ [(time, incident)]) = acceptedIn log ++ incident.accepted?.toList :=
  filterMap_concat log time incident Incident.accepted?

theorem startedIn_concat :
    startedIn (log ++ [(time, incident)]) = startedIn log ++ incident.started?.toList :=
  filterMap_concat log time incident Incident.started?

theorem endedIn_concat :
    endedIn (log ++ [(time, incident)]) = endedIn log ++ incident.ended?.toList :=
  filterMap_concat log time incident Incident.ended?

theorem cancelledIn_concat :
    cancelledIn (log ++ [(time, incident)]) = cancelledIn log ++ incident.cancelled?.toList :=
  filterMap_concat log time incident Incident.cancelled?

end Lists

theorem acceptedIn_append (first second : List (Nat × Incident)) :
    acceptedIn (first ++ second) = acceptedIn first ++ acceptedIn second :=
  List.filterMap_append

theorem startedIn_append (first second : List (Nat × Incident)) :
    startedIn (first ++ second) = startedIn first ++ startedIn second :=
  List.filterMap_append

theorem mem_acceptedIn : p ∈ acceptedIn log ↔ ∃ time, (time, .accepted p) ∈ log := by
  unfold acceptedIn
  rw [List.mem_filterMap]
  constructor
  · rintro ⟨⟨time, incident⟩, member, shown⟩
    cases incident <;> simp_all [Incident.accepted?]
    exact ⟨time, member⟩
  · rintro ⟨time, member⟩
    exact ⟨_, member, rfl⟩

theorem mem_startedIn : p ∈ startedIn log ↔ ∃ time, (time, .started p) ∈ log := by
  unfold startedIn
  rw [List.mem_filterMap]
  constructor
  · rintro ⟨⟨time, incident⟩, member, shown⟩
    cases incident <;> simp_all [Incident.started?]
    exact ⟨time, member⟩
  · rintro ⟨time, member⟩
    exact ⟨_, member, rfl⟩

namespace Line

variable {line line' : Line} {now : Tick}

/-! ## One step -/

namespace Step

variable (step : line.Step now incident line')
include step

theorem accepted_eq : line'.accepted = line.accepted + incident.accepted?.toList.length := by
  cases step <;> rfl

/-- The line takes in what is accepted, at its end. -/
theorem waiting_sublist : line'.waiting.Sublist (line.waiting ++ incident.accepted?.toList) := by
  cases step with
  | accept untried sound => exact .refl _
  | start grounded member due oldest =>
    exact List.erase_sublist.trans (List.sublist_append_left _ _)
  | hand flies same => exact List.sublist_append_left _ _
  | expire flies => exact List.sublist_append_left _ _
  | ack flies => exact List.sublist_append_left _ _
  | finish flies => exact List.sublist_append_left _ _
  | withdraw member => exact List.erase_sublist.trans (List.sublist_append_left _ _)
  | abandon flies => exact List.sublist_append_left _ _
  | reply t => exact List.sublist_append_left _ _

/-- Who leaves the line has gone in flight or is cancelled. -/
theorem leaves (member : p ∈ line.waiting ++ incident.accepted?.toList) :
    p ∈ line'.waiting ∨ p ∈ incident.started?.toList ∨ p ∈ incident.cancelled?.toList := by
  cases step with
  | accept untried sound => exact .inl member
  | @start q grounded there due first =>
    rw [show (Incident.started q).accepted?.toList = [] from rfl, List.append_nil] at member
    by_cases same : p = q
    · right
      left
      rw [same]
      exact List.mem_singleton_self q
    · exact .inl ((List.mem_erase_of_ne same).mpr member)
  | hand flies same => exact .inl (by simpa [Incident.accepted?] using member)
  | expire flies => exact .inl (by simpa [Incident.accepted?] using member)
  | ack flies => exact .inl (by simpa [Incident.accepted?] using member)
  | finish flies => exact .inl (by simpa [Incident.accepted?] using member)
  | @withdraw q there =>
    rw [show (Incident.cancelled q).accepted?.toList = [] from rfl, List.append_nil] at member
    by_cases same : p = q
    · right
      right
      rw [same]
      exact List.mem_singleton_self q
    · exact .inl ((List.mem_erase_of_ne same).mpr member)
  | abandon flies => exact .inl (by simpa [Incident.accepted?] using member)
  | reply t => exact .inl (by simpa [Incident.accepted?] using member)

theorem number (entered : incident.accepted? = some p) : p.ticket = .ofNat line.accepted := by
  cases step with
  | accept untried sound =>
    cases entered
    rfl
  | start grounded member due oldest => cases entered
  | hand flies same => cases entered
  | expire flies => cases entered
  | ack flies => cases entered
  | finish flies => cases entered
  | withdraw member => cases entered
  | abandon flies => cases entered
  | reply t => cases entered

end Step

/-- Packets in line have not been tried, and all packets held can be laid out. -/
structure Tidy (line : Line) : Prop where
  untried : ∀ p ∈ line.waiting, p.attempts = 0
  sound : ∀ p ∈ line.packets, p.descriptor.layoutError? = none

theorem tidy_empty : Tidy {} := ⟨List.forall_mem_nil _, List.forall_mem_nil _⟩

theorem Step.tidy (step : line.Step now incident line') (tidy : line.Tidy) : line'.Tidy := by
  have waits {q : Packet} (member : q ∈ line.waiting) : q.descriptor.layoutError? = none :=
    tidy.sound q (List.mem_append_right _ member)
  have flies {q : Packet} (there : line.flying = some q) : q.descriptor.layoutError? = none :=
    tidy.sound q (List.mem_append_left _ (Option.mem_toList.mpr there))
  cases step with
  | @accept r untried sound =>
    constructor
    case untried =>
      intro q member
      rcases List.mem_append.mp member with older | last
      · exact tidy.untried q older
      · rw [List.mem_singleton.mp last]
        exact untried
    case sound =>
      intro q member
      rcases List.mem_append.mp member with flying | queued
      · exact flies (Option.mem_toList.mp flying)
      · rcases List.mem_append.mp queued with older | last
        · exact waits older
        · rw [List.mem_singleton.mp last]
          exact sound
  | @start r grounded there due first =>
    constructor
    case untried =>
      intro q member
      exact tidy.untried q (List.mem_of_mem_erase member)
    case sound =>
      intro q member
      rcases List.mem_append.mp member with flying | queued
      · rw [← Option.mem_some.mp (Option.mem_toList.mp flying)]
        exact waits there
      · exact waits (List.mem_of_mem_erase queued)
  | @hand r q taken there same =>
    refine ⟨tidy.untried, ?_⟩
    intro s member
    rcases List.mem_append.mp member with flying | queued
    · rw [← Option.mem_some.mp (Option.mem_toList.mp flying)]
      have alike : q.untried.descriptor = r.untried.descriptor := congrArg Packet.descriptor same
      rw [show q.descriptor = r.descriptor from alike]
      exact flies there
    · exact waits queued
  | expire there => exact tidy
  | ack there => exact tidy
  | finish there => exact ⟨tidy.untried, fun q member => waits member⟩
  | @withdraw r there =>
    constructor
    case untried =>
      intro q member
      exact tidy.untried q (List.mem_of_mem_erase member)
    case sound =>
      intro q member
      rcases List.mem_append.mp member with flying | queued
      · exact flies (Option.mem_toList.mp flying)
      · exact waits (List.mem_of_mem_erase queued)
  | abandon there => exact ⟨tidy.untried, fun q member => waits member⟩
  | reply t => exact tidy

theorem Leads.tidy {start : Line} (leads : Leads start log line) (tidy : start.Tidy) :
    line.Tidy := by
  induction leads with
  | nil => exact tidy
  | snoc leads step ih => exact step.tidy ih

/-- The packet in flight is the one started last, and of those before it the ended ones have ended
    in the order in which they were started. -/
def Flight (started ended : List Packet) (flying : Option Packet) : Prop :=
  ∃ done, started = done ++ (flying.map Packet.untried).toList ∧ ended.Sublist done

theorem Step.flight {started ended : List Packet} (step : line.Step now incident line')
    (tidy : line.Tidy) (flight : Flight started ended line.flying) :
    Flight (started ++ incident.started?.toList) (ended ++ incident.ended?.toList)
      line'.flying := by
  obtain ⟨done, split, order⟩ := flight
  cases step with
  | accept untried sound =>
    simp only [Incident.started?, Incident.ended?, Option.toList_none, List.append_nil]
    exact ⟨done, split, order⟩
  | @start r grounded there due first =>
    have fresh := Packet.untried_of_attempts (tidy.untried r there)
    rw [grounded] at split
    refine ⟨started, ?_, ?_⟩
    · simp [Incident.started?, fresh]
    · simpa [Incident.ended?, split] using order
  | @hand r q taken there same =>
    rw [there] at split
    refine ⟨done, ?_, by simpa [Incident.ended?] using order⟩
    simpa [Incident.started?, same] using split
  | expire there =>
    simp only [Incident.started?, Incident.ended?, Option.toList_none, List.append_nil]
    exact ⟨done, split, order⟩
  | ack there =>
    simp only [Incident.started?, Incident.ended?, Option.toList_none, List.append_nil]
    exact ⟨done, split, order⟩
  | @finish r reason there =>
    rw [there] at split
    refine ⟨started, by simp [Incident.started?], ?_⟩
    rw [split]
    exact order.append (.refl _)
  | withdraw there =>
    simp only [Incident.started?, Incident.ended?, Option.toList_none, List.append_nil]
    exact ⟨done, split, order⟩
  | @abandon r there =>
    refine ⟨started, by simp [Incident.started?], ?_⟩
    rw [split]
    simpa [Incident.ended?] using order.trans (List.sublist_append_left _ _)
  | reply t =>
    simp only [Incident.started?, Incident.ended?, Option.toList_none, List.append_nil]
    exact ⟨done, split, order⟩

/-! ## A whole log -/

/-- What a log has to say of the line that it has led to. -/
structure Recorded (log : List (Nat × Incident)) (line : Line) : Prop where
  tidy : line.Tidy
  accepted : line.accepted = (acceptedIn log).length
  numbered : numberAll (acceptedIn log) = acceptedIn log
  waiting : line.waiting.Sublist (acceptedIn log)
  left : ∀ p ∈ acceptedIn log, p ∈ line.waiting ∨ p ∈ startedIn log ∨ p ∈ cancelledIn log
  flight : Flight (startedIn log) (endedIn log) line.flying

theorem recorded_empty : Recorded [] {} := by
  constructor
  case tidy => exact tidy_empty
  case accepted => rfl
  case numbered => rfl
  case waiting => exact .refl _
  case left => exact List.forall_mem_nil _
  case flight => exact ⟨[], rfl, .refl _⟩

theorem Recorded.step (recorded : Recorded log line)
    (step : line.Step (.ofNat time) incident line') :
    Recorded (log ++ [(time, incident)]) line' := by
  constructor
  case tidy => exact step.tidy recorded.tidy
  case accepted => rw [step.accepted_eq, recorded.accepted, acceptedIn_concat, List.length_append]
  case numbered =>
    rw [acceptedIn_concat]
    cases entered : incident.accepted? with
    | none =>
      rw [Option.toList_none, List.append_nil]
      exact recorded.numbered
    | some p =>
      have number := step.number entered
      rw [recorded.accepted] at number
      rw [Option.toList_some, numberAll_append_singleton, recorded.numbered, ← number]
  case waiting =>
    rw [acceptedIn_concat]
    exact step.waiting_sublist.trans (recorded.waiting.append (.refl _))
  case left =>
    intro p member
    rw [acceptedIn_concat] at member
    rw [startedIn_concat, cancelledIn_concat]
    have elsewhere : p ∈ line.waiting ++ incident.accepted?.toList ∨ p ∈ startedIn log ∨
        p ∈ cancelledIn log := by
      rcases List.mem_append.mp member with older | last
      · rcases recorded.left p older with waits | gone
        · exact .inl (List.mem_append_left _ waits)
        · exact .inr gone
      · exact .inl (List.mem_append_right _ last)
    rcases elsewhere with waits | started | cancelled
    · rcases step.leaves waits with there | started | cancelled
      · exact .inl there
      · exact .inr (.inl (List.mem_append_right _ started))
      · exact .inr (.inr (List.mem_append_right _ cancelled))
    · exact .inr (.inl (List.mem_append_left _ started))
    · exact .inr (.inr (List.mem_append_left _ cancelled))
  case flight =>
    rw [startedIn_concat, endedIn_concat]
    exact step.flight recorded.tidy recorded.flight

theorem Leads.recorded (leads : Leads {} log line) : Recorded log line := by
  induction leads with
  | nil => exact recorded_empty
  | snoc leads step ih => exact ih.step step

theorem Step.accepted_le (step : line.Step now incident line') :
    line.accepted ≤ line'.accepted := by
  rw [step.accepted_eq]
  exact Nat.le_add_right _ _

theorem Leads.accepted_le (leads : Leads line log line') : line.accepted ≤ line'.accepted := by
  induction leads with
  | nil => exact Nat.le_refl _
  | snoc leads step ih => exact ih.trans step.accepted_le

namespace Recorded

variable (recorded : Recorded log line)
include recorded

/-- The numbers of acceptance tell packets apart and increase. -/
theorem ascending (few : line.accepted < 2 ^ 32) :
    (acceptedIn log).Pairwise fun p q => p.ticket < q.ticket := by
  rw [recorded.accepted] at few
  have increasing := pairwise_numberAll (Nat.le_of_lt few)
  rwa [recorded.numbered] at increasing

theorem below (few : line.accepted < 2 ^ 32) (member : p ∈ acceptedIn log) :
    p.ticket.toNat < line.accepted := by
  rw [recorded.accepted] at few ⊢
  obtain ⟨i, within, rfl⟩ := List.mem_iff_getElem.mp member
  rw [ticket_of_numberAll recorded.numbered (List.getElem?_eq_getElem within),
    UInt32.toNat_ofNat_of_lt' (Nat.lt_trans within few)]
  exact within

theorem nodup (few : line.accepted < 2 ^ 32) : (acceptedIn log).Nodup := by
  rw [recorded.accepted] at few
  have distinct := nodup_numberAll (Nat.le_of_lt few)
  rw [recorded.numbered] at distinct
  exact distinct.of_map Packet.untried

end Recorded

/-! ## A packet goes in flight -/

/-- No packet is accepted twice. -/
theorem not_mem_acceptedIn (leads : Leads {} (before ++ after) line) (few : line.accepted < 2 ^ 32)
    (earlier : p ∈ acceptedIn before) : p ∉ acceptedIn after := by
  have distinct := leads.recorded.nodup few
  rw [acceptedIn_append] at distinct
  exact List.disjoint_of_nodup_append distinct earlier

theorem Leads.waiting_sublist {start : Line} (leads : Leads start log line) :
    line.waiting.Sublist (start.waiting ++ acceptedIn log) := by
  induction leads with
  | nil => exact List.sublist_append_left _ _
  | snoc leads step ih =>
    rw [acceptedIn_concat, ← List.append_assoc]
    exact step.waiting_sublist.trans (ih.append (.refl _))

/-- A packet that is handed to the radio is the one started last. -/
theorem Leads.started_of_handed {taken : Bool}
    (leads : Leads {} (before ++ (time, .handed p taken) :: after) line) :
    ∃ done, startedIn before = done ++ [p] := by
  obtain ⟨left, right, first, here, -⟩ := leads.split
  obtain ⟨done, split, -⟩ := first.recorded.flight
  cases here with
  | hand flies same =>
    rw [flies] at split
    exact ⟨done, split⟩

/-- A packet that goes in flight has waited in line until then, and does not wait after. -/
theorem Leads.waits_until_started (leads : Leads {} (before ++ (time, .started p) :: after) line)
    (few : line.accepted < 2 ^ 32) :
    p ∈ acceptedIn before ∧ p ∉ line.waiting := by
  obtain ⟨left, right, first, here, rest⟩ := leads.split
  have recorded := first.recorded
  cases here with
  | start grounded member due next =>
    have origin : p ∈ acceptedIn before := recorded.waiting.subset member
    refine ⟨origin, ?_⟩
    intro back
    rcases List.mem_append.mp (rest.waiting_sublist.subset back) with stayed | returned
    · have fewer : left.accepted < 2 ^ 32 := Nat.lt_of_le_of_lt rest.accepted_le few
      have distinct := (recorded.nodup fewer).sublist recorded.waiting
      exact distinct.not_mem_erase stayed
    · exact not_mem_acceptedIn leads few origin returned

/-- A packet goes in flight once. -/
theorem Leads.nodup_startedIn (leads : Leads {} log line) (few : line.accepted < 2 ^ 32) :
    (startedIn log).Nodup := by
  induction leads with
  | nil => exact List.nodup_nil
  | @snoc log line line' entry leads step ih =>
    obtain ⟨time, incident⟩ := entry
    have fewer : line.accepted < 2 ^ 32 := Nat.lt_of_le_of_lt step.accepted_le few
    rw [startedIn_concat]
    cases step with
    | @start p grounded member due first =>
      apply List.nodup_append.mpr
      refine ⟨ih fewer, List.nodup_singleton p, ?_⟩
      rintro q started r last rfl
      rw [List.mem_singleton.mp last] at started
      obtain ⟨time', earlier⟩ := mem_startedIn.mp started
      obtain ⟨front, back, rfl⟩ := List.append_of_mem earlier
      exact (Leads.waits_until_started leads fewer).2 member
    | accept untried sound => simpa [Incident.started?] using ih fewer
    | hand flies same => simpa [Incident.started?] using ih fewer
    | expire flies => simpa [Incident.started?] using ih fewer
    | ack flies => simpa [Incident.started?] using ih fewer
    | finish flies => simpa [Incident.started?] using ih fewer
    | withdraw member => simpa [Incident.started?] using ih fewer
    | abandon flies => simpa [Incident.started?] using ih fewer
    | reply t => simpa [Incident.started?] using ih fewer

end Line

/-! ## Discipline -/

/-- The discipline of the service, in the real times of a log. -/
structure ServedInTurn (log : List (Nat × Incident)) : Prop where
  /-- A packet is not handed to the radio before its send time, where that was half a turn ahead at
      most when the packet was accepted. -/
  held_back : ∀ start wait time p taken, (start, Incident.accepted p) ∈ log → wait ≤ 2 ^ 31 →
    p.descriptor.sendAt = .ofNat (start + wait) → (time, Incident.handed p taken) ∈ log →
    start + wait ≤ time
  /-- Between two attempts on a packet no other packet is handed to the radio. -/
  contiguous : ∀ before between after time time' p taken taken',
    log = before ++ (time, Incident.handed p taken) ::
      (between ++ (time', .handed p taken') :: after) →
    ∀ moment q taken, (moment, Incident.handed q taken) ∈ between → q = p
  /-- A packet that was accepted earlier and is due has gone in flight earlier, or is cancelled. -/
  in_turn : ∀ before after time p q, log = before ++ (time, Incident.started q) :: after →
    [p, q].Sublist (acceptedIn log) → p.isDue (.ofNat time) = true →
    p ∈ startedIn before ∨ p ∈ cancelledIn before
  /-- Outcomes are told in the order in which the packets have gone in flight. -/
  in_order : (endedIn log).Sublist (startedIn log)
  /-- A packet goes in flight once. -/
  once : (startedIn log).Nodup

/-- In a list without duplicates nothing follows the entry that stands last. -/
theorem eq_nil_of_last {α : Type} {l more done : List α} {a : α}
    (same : l ++ [a] ++ more = done ++ [a]) (nodup : (done ++ [a]).Nodup) : more = [] := by
  rcases List.eq_nil_or_concat more with rfl | ⟨rest, last, rfl⟩
  · rfl
  · rw [List.concat_eq_append, ← List.append_assoc] at same
    obtain ⟨front, last_eq⟩ := List.append_inj' same rfl
    rw [← front] at nodup
    have twice : a ∈ l ++ [a] ++ rest :=
      List.mem_append_left _ (List.mem_append_right _ (List.mem_singleton_self a))
    exact absurd (List.mem_singleton_self a) (List.disjoint_of_nodup_append nodup twice)

namespace Line

variable {line : Line}

section Discipline

variable (leads : Leads {} log line) (few : line.accepted < 2 ^ 32)
include leads few

theorem Leads.held_back (sorted : log.Pairwise fun a b => a.1 ≤ b.1) {start wait : Nat}
    {taken : Bool} (accepted : (start, .accepted p) ∈ log) (short : wait ≤ 2 ^ 31)
    (sendAt : p.descriptor.sendAt = .ofNat (start + wait))
    (handed : (time, .handed p taken) ∈ log) : start + wait ≤ time := by
  obtain ⟨before, after, rfl⟩ := List.append_of_mem handed
  obtain ⟨done, started⟩ := leads.started_of_handed
  have flown : p ∈ startedIn before := by
    rw [started]
    exact List.mem_append_right _ (List.mem_singleton_self p)
  obtain ⟨begun, earlier⟩ := mem_startedIn.mp flown
  obtain ⟨front, back, rfl⟩ := List.append_of_mem earlier
  rw [List.append_assoc, List.cons_append] at leads sorted accepted
  have origin := (leads.waits_until_started few).1
  -- The acceptance stands before the start, for a packet is accepted once.
  have placed : (start, .accepted p) ∈ front := by
    rcases List.mem_append.mp accepted with there | later
    · exact there
    · exact absurd (mem_acceptedIn.mpr ⟨start, later⟩) (not_mem_acceptedIn leads few origin)
  obtain ⟨-, tail, ordered⟩ := List.pairwise_append.mp sorted
  have first : start ≤ begun := ordered _ placed _ List.mem_cons_self
  have next : begun ≤ time :=
    (List.pairwise_cons.mp tail).1 _ (List.mem_append_right _ List.mem_cons_self)
  obtain ⟨left, right, -, here, -⟩ := leads.split
  cases here with
  | start grounded member due next' =>
    rw [Packet.isDue, sendAt] at due
    exact (Tick.le_of_hasReached first short due).trans next

theorem Leads.contiguous {between : List (Nat × Incident)} {time' moment : Nat}
    {taken taken' taken'' : Bool}
    (split : log = before ++ (time, .handed p taken) ::
      (between ++ (time', .handed p taken') :: after))
    (member : (moment, .handed q taken'') ∈ between) : q = p := by
  obtain ⟨left, right, rfl⟩ := List.append_of_mem member
  subst split
  -- What has been started when `p`, then `q` and then `p` again is handed to the radio.
  obtain ⟨done₁, first⟩ := leads.started_of_handed
  rw [List.append_assoc, List.cons_append, ← List.cons_append, ← List.append_assoc] at leads
  obtain ⟨done₂, second⟩ := leads.started_of_handed
  rw [← List.cons_append, ← List.append_assoc] at leads
  obtain ⟨done₃, third⟩ := leads.started_of_handed
  have distinct := leads.nodup_startedIn few
  rw [startedIn_append, third] at distinct
  rw [startedIn_append, second] at third
  rw [startedIn_append, first] at second
  rw [← second, List.append_assoc] at third
  have nothing := eq_nil_of_last third (distinct.sublist (List.sublist_append_left _ _))
  rw [(List.append_eq_nil_iff.mp nothing).1, List.append_nil] at second
  exact (List.singleton_inj.mp (List.append_inj' second rfl).2).symm

theorem Leads.in_turn (split : log = before ++ (time, .started q) :: after)
    (order : [p, q].Sublist (acceptedIn log)) (due : p.isDue (.ofNat time) = true) :
    p ∈ startedIn before ∨ p ∈ cancelledIn before := by
  subst split
  have ascending := leads.recorded.ascending few
  have less : p.ticket < q.ticket :=
    (List.pairwise_cons.mp (ascending.sublist order)).1 q (List.mem_singleton_self q)
  have differs {r : Packet} (greater : q.ticket < r.ticket) : p ≠ r := by
    rintro rfl
    exact UInt32.lt_irrefl _ (UInt32.lt_trans less greater)
  obtain ⟨left, right, first, here, rest⟩ := leads.split
  have recorded := first.recorded
  have fewer : left.accepted < 2 ^ 32 :=
    Nat.lt_of_le_of_lt (here.accepted_le.trans rest.accepted_le) few
  cases here with
  | start grounded member isDue oldest =>
    have known : q ∈ acceptedIn before := recorded.waiting.subset member
    have earlier : p ∈ acceptedIn before := by
      have somewhere := order.subset List.mem_cons_self
      rw [acceptedIn_append] at ascending somewhere
      rcases List.mem_append.mp somewhere with there | later
      · exact there
      · exact absurd rfl (differs ((List.pairwise_append.mp ascending).2.2 q known p later))
    rcases recorded.left p earlier with waits | gone
    · have atMost := ticket_le_of_age fewer (recorded.below fewer known) (oldest p waits due)
      exact absurd less (UInt32.not_lt.mpr atMost)
    · exact gone

/-- Whatever incidents are made of a line, its packets are served in turn, as long as the numbers of
    acceptance do not come round. -/
theorem Leads.servedInTurn (sorted : log.Pairwise fun a b => a.1 ≤ b.1) : ServedInTurn log := by
  constructor
  case held_back =>
    intro start wait time p taken accepted short sendAt handed
    exact leads.held_back few sorted accepted short sendAt handed
  case contiguous =>
    intro before between after time time' p taken taken' split moment q taken'' member
    exact leads.contiguous few split member
  case in_turn =>
    intro before after time p q split order due
    exact leads.in_turn few split order due
  case in_order =>
    obtain ⟨done, split, order⟩ := leads.recorded.flight
    rw [split]
    exact order.trans (List.sublist_append_left _ _)
  case once => exact leads.nodup_startedIn few

end Discipline

end Line

end MoteLink.Link
