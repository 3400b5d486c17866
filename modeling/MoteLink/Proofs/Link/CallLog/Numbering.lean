import MoteLink.Proofs.Link.CallLog.Discipline

/-!
# The course of each packet

Packets may be alike in all that they carry, and in the course of time even in the numbers of their
acceptance, which wrap. A numbered incident says which packet it concerns, counting the packets in
the order of their acceptance without end. Whatever happens to a line can be numbered so that each
packet goes its own way: it waits, it may fly, and when its outcome is told or it is cancelled it is
gone.
-/

namespace MoteLink.Link

/-- An incident, and the packet that it concerns: the first one accepted has the number zero. -/
structure NumberedIncident where
  number : Option Nat
  incident : Incident
  deriving DecidableEq, Repr

/-- What has become of a packet. -/
inductive Condition where
  | waiting (p : Packet)
  | flying (p : Packet)
  | gone (p : Packet)

namespace Condition

def packet : Condition → Packet
  | .waiting p => p
  | .flying p => p
  | .gone p => p

def waiting? : Condition → Option Packet
  | .waiting p => some p
  | _ => none

def flying? : Condition → Option Packet
  | .flying p => some p
  | _ => none

/-- How a packet goes on. There is no way on for one that is gone. -/
inductive Step : Condition → Incident → Condition → Prop
  | start (p : Packet) : Step (.waiting p) (.started p) (.flying p)
  | hand (p : Packet) (taken : Bool) : Step (.flying p) (.handed p taken) (.flying p)
  | expire (p : Packet) : Step (.flying p) (.expired p) (.flying p)
  | ack (p : Packet) (ack : Descriptor) : Step (.flying p) (.acked p ack) (.flying p)
  | finish (p : Packet) (reason : Option FailureReason) :
      Step (.flying p) (.ended p reason) (.gone p)
  | withdraw (p : Packet) : Step (.waiting p) (.cancelled p) (.gone p)
  | abandon (p : Packet) : Step (.flying p) (.cancelled p) (.gone p)

variable {c c' : Condition} {incident : Incident}

theorem Step.packet_eq (step : c.Step incident c') : c'.packet = c.packet := by
  cases step <;> rfl

theorem Step.accepted?_eq (step : c.Step incident c') : incident.accepted? = none := by
  cases step <;> rfl

end Condition

/-- What happens to one packet, from its acceptance on, and the condition that it leads to. -/
inductive Course : List Incident → Condition → Prop
  | accepted (p : Packet) : Course [.accepted p] (.waiting p)
  | next {incidents : List Incident} {incident : Incident} {c c' : Condition}
      (course : Course incidents c) (step : c.Step incident c') :
      Course (incidents ++ [incident]) c'

namespace Course

variable {incidents front back : List Incident} {c : Condition} {p : Packet}

theorem eq_waiting (course : Course [.accepted p] c) : c = .waiting p := by
  generalize only : [Incident.accepted p] = incidents at course
  cases course with
  | accepted q =>
    cases only
    rfl
  | @next incidents incident c c' course step =>
    have last : [] ++ [Incident.accepted p] = incidents ++ [incident] := only
    obtain ⟨-, same⟩ := List.append_inj' last rfl
    cases same
    cases step

theorem of_waiting (course : Course incidents (.waiting p)) : incidents = [.accepted p] := by
  generalize reached : Condition.waiting p = c at course
  cases course with
  | accepted q =>
    cases reached
    rfl
  | next course step =>
    cases reached
    cases step

/-- A packet goes in flight when it has only been accepted. -/
theorem of_started (course : Course (front ++ .started p :: back) c) : front = [.accepted p] := by
  generalize whole : front ++ .started p :: back = incidents at course
  induction course generalizing back with
  | accepted q => cases front <;> simp at whole
  | @next incidents incident c c' course step ih =>
    rcases List.eq_nil_or_concat back with rfl | ⟨rest, last, rfl⟩
    · obtain ⟨rfl, same⟩ := List.append_inj' whole rfl
      cases same
      cases step with
      | start q => exact course.of_waiting
    · rw [List.concat_eq_append, ← List.cons_append, ← List.append_assoc] at whole
      exact ih (List.append_inj' whole rfl).1

/-- A packet that is not gone yet has not been cancelled. -/
theorem not_cancelled (course : Course incidents c) (here : c ≠ .gone c.packet) (p : Packet) :
    .cancelled p ∉ incidents := by
  induction course with
  | accepted q => exact fun member => nomatch List.mem_singleton.mp member
  | next course step ih =>
    intro member
    rcases List.mem_append.mp member with earlier | last
    · cases step with
      | start q => exact ih nofun earlier
      | hand q taken => exact ih nofun earlier
      | expire q => exact ih nofun earlier
      | ack q ack => exact ih nofun earlier
      | finish q reason => exact here rfl
      | withdraw q => exact here rfl
      | abandon q => exact here rfl
    · cases List.mem_singleton.mp last
      cases step with
      | withdraw q => exact here rfl
      | abandon q => exact here rfl

/-- Nothing happens to a packet any more once it has been cancelled. -/
theorem eq_nil_of_cancelled (course : Course (front ++ .cancelled p :: back) c) : back = [] := by
  generalize whole : front ++ .cancelled p :: back = incidents at course
  cases course with
  | accepted q => cases front <;> simp at whole
  | @next incidents incident c c' course step =>
    rcases List.eq_nil_or_concat back with rfl | ⟨rest, last, rfl⟩
    · rfl
    · rw [List.concat_eq_append, ← List.cons_append, ← List.append_assoc] at whole
      obtain ⟨rfl, -⟩ := List.append_inj' whole rfl
      have before : Incident.cancelled p ∈ front ++ .cancelled p :: rest :=
        List.mem_append_right _ List.mem_cons_self
      have here : c ≠ .gone c.packet := by cases step <;> nofun
      exact absurd before (course.not_cancelled here p)

end Course

/-! ## Numbered incidents -/

/-- What has happened to the packet with this number. -/
def courseOf (n : Nat) (log : List NumberedIncident) : List Incident :=
  log.filterMap fun r => if r.number = some n then some r.incident else none

/-- The packets accepted, in the order of their numbers. -/
def acceptedBy (log : List NumberedIncident) : List Packet :=
  log.filterMap fun r => r.incident.accepted?

section Lists

variable {n k : Nat} {log : List NumberedIncident} {incident : Incident}

theorem courseOf_append (n : Nat) (first second : List NumberedIncident) :
    courseOf n (first ++ second) = courseOf n first ++ courseOf n second :=
  List.filterMap_append

theorem courseOf_cons_self (n : Nat) (incident : Incident) (log : List NumberedIncident) :
    courseOf n (⟨some n, incident⟩ :: log) = incident :: courseOf n log := by
  simp [courseOf]

theorem courseOf_concat_self (n : Nat) (log : List NumberedIncident) (incident : Incident) :
    courseOf n (log ++ [⟨some n, incident⟩]) = courseOf n log ++ [incident] := by
  rw [courseOf_append, courseOf_cons_self]
  rfl

theorem courseOf_concat_of_ne {number : Option Nat} (other : number ≠ some n)
    (log : List NumberedIncident) (incident : Incident) :
    courseOf n (log ++ [⟨number, incident⟩]) = courseOf n log := by
  rw [courseOf_append]
  simp [courseOf, other]

theorem courseOf_eq_nil_iff : courseOf n log = [] ↔ ∀ r ∈ log, r.number ≠ some n := by
  simp [courseOf, List.filterMap_eq_nil_iff]

theorem acceptedBy_append (first second : List NumberedIncident) :
    acceptedBy (first ++ second) = acceptedBy first ++ acceptedBy second :=
  List.filterMap_append

end Lists

/-- Each incident concerns the packet with its number, and replies concern none. -/
structure Attributed (log : List NumberedIncident) : Prop where
  /-- The packet accepted as the `n`-th goes by the incidents with this number. -/
  course : ∀ n p, (acceptedBy log)[n]? = some p →
    ∃ c, c.packet = p ∧ Course (courseOf n log) c
  /-- No incident has a number that has not been given. -/
  unknown : ∀ n, (acceptedBy log).length ≤ n → courseOf n log = []
  reply : ∀ incident, ⟨none, incident⟩ ∈ log → ∃ t, incident = .replied t

/-- The packet with this number has been accepted and has not left the line since. -/
def Waits (n : Nat) (p : Packet) (log : List NumberedIncident) : Prop :=
  courseOf n log = [.accepted p]

namespace Attributed

variable {n : Nat} {log before later : List NumberedIncident} {r : NumberedIncident}
  {incident : Incident} {p : Packet}

/-- All incidents but replies concern a packet. -/
theorem exists_number (attributed : Attributed log) (member : r ∈ log)
    (own : ∀ t, r.incident ≠ .replied t) : ∃ n, r = ⟨some n, r.incident⟩ := by
  obtain ⟨number, incident⟩ := r
  cases number with
  | none =>
    obtain ⟨t, reply⟩ := attributed.reply incident member
    exact absurd reply (own t)
  | some n => exact ⟨n, rfl⟩

/-- An incident with a number stands in the course of a packet. -/
theorem exists_course (attributed : Attributed (before ++ ⟨some n, incident⟩ :: later)) :
    ∃ c, Course (courseOf n before ++ incident :: courseOf n later) c := by
  have parted : courseOf n (before ++ ⟨some n, incident⟩ :: later) =
      courseOf n before ++ incident :: courseOf n later := by
    rw [courseOf_append, courseOf_cons_self]
  rw [← parted]
  by_cases known : n < (acceptedBy (before ++ ⟨some n, incident⟩ :: later)).length
  · obtain ⟨c, -, course⟩ := attributed.course n _ (List.getElem?_eq_getElem known)
    exact ⟨c, course⟩
  · have nothing := attributed.unknown n (Nat.le_of_not_lt known)
    rw [parted] at nothing
    exact absurd nothing (List.append_ne_nil_of_right_ne_nil _ (List.cons_ne_nil _ _))

/-- When a packet has been cancelled no incident concerns it any more. -/
theorem number_ne_of_cancelled
    (attributed : Attributed (before ++ ⟨some n, .cancelled p⟩ :: later)) :
    ∀ r ∈ later, r.number ≠ some n := by
  obtain ⟨c, course⟩ := attributed.exists_course
  exact courseOf_eq_nil_iff.mp course.eq_nil_of_cancelled

/-- A packet that goes in flight has waited until then. -/
theorem waits_of_started (attributed : Attributed (before ++ ⟨some n, .started p⟩ :: later)) :
    Waits n p before := by
  obtain ⟨c, course⟩ := attributed.exists_course
  exact course.of_started

end Attributed

/-! ## The packets of a line -/

/-- The log leads each of the packets accepted to its condition, and these are the packets of the
    line. -/
structure Numbering (log : List NumberedIncident) (conditions : List Condition) (line : Line) :
    Prop where
  accepted : acceptedBy log = conditions.map Condition.packet
  course : ∀ n c, conditions[n]? = some c → Course (courseOf n log) c
  unknown : ∀ n, conditions.length ≤ n → courseOf n log = []
  reply : ∀ incident, ⟨none, incident⟩ ∈ log → ∃ t, incident = .replied t
  waiting : (conditions.filterMap Condition.waiting?).Perm line.waiting
  flying : conditions.filterMap Condition.flying? = (line.flying.map Packet.untried).toList

namespace Numbering

variable {log : List NumberedIncident} {conditions conditions' : List Condition} {line line' : Line}
  {c c' : Condition} {n : Nat} {p : Packet} {incident : Incident} {now : Tick}

section Reading

variable (numbering : Numbering log conditions line)
include numbering

theorem attributed : Attributed log := by
  constructor
  case course =>
    intro n p there
    rw [numbering.accepted, List.getElem?_map] at there
    obtain ⟨c, found, shown⟩ := Option.map_eq_some_iff.mp there
    exact ⟨c, shown, numbering.course n c found⟩
  case unknown =>
    intro n beyond
    rw [numbering.accepted, List.length_map] at beyond
    exact numbering.unknown n beyond
  case reply => exact numbering.reply

/-- One incident more that concerns a packet does not count. -/
theorem reply_concat (n : Nat) (incident : Incident) :
    ∀ other, ⟨none, other⟩ ∈ log ++ [⟨some n, incident⟩] → ∃ t, other = .replied t := by
  intro other member
  rcases List.mem_append.mp member with earlier | last
  · exact numbering.reply other earlier
  · cases List.mem_singleton.mp last

theorem waits_iff : Waits n p log ↔ conditions[n]? = some (.waiting p) := by
  constructor
  · intro waits
    cases found : conditions[n]? with
    | none =>
      have nothing := numbering.unknown n (List.getElem?_eq_none_iff.mp found)
      rw [show courseOf n log = [.accepted p] from waits] at nothing
      cases nothing
    | some c =>
      have course := numbering.course n c found
      rw [show courseOf n log = [.accepted p] from waits] at course
      rw [course.eq_waiting]
  · intro found
    exact (numbering.course n _ found).of_waiting

theorem exists_waits (member : p ∈ line.waiting) :
    ∃ n : Nat, conditions[n]? = some (.waiting p) := by
  obtain ⟨c, among, shown⟩ := List.mem_filterMap.mp (numbering.waiting.mem_iff.mpr member)
  obtain ⟨n, found⟩ := List.mem_iff_getElem?.mp among
  cases c with
  | waiting q =>
    cases shown
    exact ⟨n, found⟩
  | flying q => cases shown
  | gone q => cases shown

theorem mem_of_waits (waits : Waits n p log) : p ∈ line.waiting := by
  have found := List.mem_of_getElem? (numbering.waits_iff.mp waits)
  exact numbering.waiting.mem_iff.mp (List.mem_filterMap.mpr ⟨_, found, rfl⟩)

theorem exists_flies (flies : line.flying = some p) :
    ∃ n : Nat, conditions[n]? = some (.flying p.untried) := by
  have only : conditions.filterMap Condition.flying? = [p.untried] := by
    rw [numbering.flying, flies]
    rfl
  have member : p.untried ∈ conditions.filterMap Condition.flying? := by
    rw [only]
    exact List.mem_singleton_self _
  obtain ⟨c, among, shown⟩ := List.mem_filterMap.mp member
  obtain ⟨n, found⟩ := List.mem_iff_getElem?.mp among
  cases c with
  | flying q =>
    cases shown
    exact ⟨n, found⟩
  | waiting q => cases shown
  | gone q => cases shown

/-- What waits when a packet has left the line. -/
theorem waiting_of_left (left : Replaces n (.waiting p) c' conditions conditions')
    (gone : c'.waiting? = none) :
    (conditions'.filterMap Condition.waiting?).Perm (line.waiting.erase p) := by
  have moved := left.perm_filterMap Condition.waiting?
  rw [gone] at moved
  have parted : (conditions.filterMap Condition.waiting?).Perm
      (p :: conditions'.filterMap Condition.waiting?) := moved
  have rest := parted.erase p
  rw [List.erase_cons_head] at rest
  exact rest.symm.trans (numbering.waiting.erase p)

/-- Nothing flies when the packet in flight is gone. -/
theorem flying_of_landed (flies : line.flying = some p)
    (landed : Replaces n (.flying p.untried) c' conditions conditions') (gone : c'.flying? = none) :
    conditions'.filterMap Condition.flying? = [] := by
  have moved := landed.perm_filterMap Condition.flying?
  rw [gone, numbering.flying, flies] at moved
  have parted : [p.untried].Perm (p.untried :: conditions'.filterMap Condition.flying?) := moved
  exact List.nil_perm.mp ((List.perm_cons p.untried).mp parted)

end Reading

/-! ## One incident more -/

section Growing

variable (numbering : Numbering log conditions line)
include numbering

theorem enter (p : Packet) (waiting : line'.waiting = line.waiting ++ [p])
    (flying : line'.flying = line.flying) :
    Numbering (log ++ [⟨some conditions.length, .accepted p⟩]) (conditions ++ [.waiting p])
      line' := by
  constructor
  case accepted =>
    rw [acceptedBy_append, numbering.accepted, List.map_append]
    rfl
  case course =>
    intro n c found
    by_cases last : n = conditions.length
    · rw [last, List.getElem?_concat_length] at found
      cases found
      rw [last, courseOf_concat_self, numbering.unknown _ (Nat.le_refl _)]
      exact .accepted p
    · have within : n < conditions.length := by
        have below := (List.getElem?_eq_some_iff.mp found).1
        rw [List.length_append, List.length_singleton] at below
        omega
      rw [List.getElem?_append_left within] at found
      rw [courseOf_concat_of_ne (by simpa using Ne.symm last)]
      exact numbering.course n c found
  case unknown =>
    intro n beyond
    rw [List.length_append, List.length_singleton] at beyond
    rw [courseOf_concat_of_ne (by simp; omega)]
    exact numbering.unknown n (by omega)
  case reply => exact numbering.reply_concat _ _
  case waiting =>
    rw [List.filterMap_append, waiting]
    exact numbering.waiting.append (.refl _)
  case flying =>
    rw [List.filterMap_append, numbering.flying, flying]
    exact List.append_nil _

/-- One of the packets goes on. -/
theorem follow (replaced : Replaces n c c' conditions conditions') (step : c.Step incident c')
    (waiting : (conditions'.filterMap Condition.waiting?).Perm line'.waiting)
    (flying : conditions'.filterMap Condition.flying? = (line'.flying.map Packet.untried).toList) :
    Numbering (log ++ [⟨some n, incident⟩]) conditions' line' := by
  have below : n < conditions.length := (List.getElem?_eq_some_iff.mp replaced.found).1
  constructor
  case accepted =>
    have nothing : acceptedBy [⟨some n, incident⟩] = [] := by simp [acceptedBy, step.accepted?_eq]
    have same : conditions[n].packet = c.packet := by
      have found := replaced.found
      rw [List.getElem?_eq_getElem below] at found
      rw [Option.some.inj found]
    rw [acceptedBy_append, nothing, List.append_nil, numbering.accepted, replaced.changed,
      List.map_set, step.packet_eq, ← same, ← List.getElem_map Condition.packet]
    · exact (List.set_getElem_self _).symm
    · rw [List.length_map]
      exact below
  case course =>
    intro k d found
    rw [replaced.changed] at found
    by_cases same : k = n
    · rw [same, List.getElem?_set_self below] at found
      cases found
      rw [same, courseOf_concat_self]
      exact (numbering.course n c replaced.found).next step
    · rw [List.getElem?_set_ne (Ne.symm same)] at found
      rw [courseOf_concat_of_ne (by simpa using Ne.symm same)]
      exact numbering.course k d found
  case unknown =>
    intro k beyond
    rw [replaced.length_eq] at beyond
    rw [courseOf_concat_of_ne (by simp; omega)]
    exact numbering.unknown k beyond
  case reply => exact numbering.reply_concat _ _
  case waiting => exact waiting
  case flying => exact flying

theorem answer (t : Transmission) :
    Numbering (log ++ [⟨none, .replied t⟩]) conditions line := by
  have apart (n : Nat) : courseOf n (log ++ [⟨none, .replied t⟩]) = courseOf n log :=
    courseOf_concat_of_ne (by simp) log _
  constructor
  case accepted =>
    rw [acceptedBy_append, numbering.accepted]
    exact List.append_nil _
  case course =>
    intro n c found
    rw [apart]
    exact numbering.course n c found
  case unknown =>
    intro n beyond
    rw [apart]
    exact numbering.unknown n beyond
  case reply =>
    intro incident member
    rcases List.mem_append.mp member with earlier | last
    · exact numbering.reply incident earlier
    · cases List.mem_singleton.mp last
      exact ⟨t, rfl⟩
  case waiting => exact numbering.waiting
  case flying => exact numbering.flying

section Flying

variable (flies : line.flying = some p)
include flies

/-- The packet in flight stays in flight. -/
theorem stay (step : (Condition.flying p.untried).Step incident (.flying p.untried))
    (waiting : line'.waiting = line.waiting)
    (flying : line'.flying.map Packet.untried = some p.untried) :
    ∃ n conditions', Numbering (log ++ [⟨some n, incident⟩]) conditions' line' := by
  obtain ⟨n, found⟩ := numbering.exists_flies flies
  have stays : Replaces n (.flying p.untried) (.flying p.untried) conditions
      (conditions.set n (.flying p.untried)) := ⟨found, rfl⟩
  refine ⟨n, _, numbering.follow stays step ?_ ?_⟩
  · rw [stays.filterMap_eq rfl, waiting]
    exact numbering.waiting
  · rw [stays.filterMap_eq rfl, numbering.flying, flies, flying, Option.map_some]

/-- The packet in flight is gone. -/
theorem land (step : (Condition.flying p.untried).Step incident (.gone p.untried)) :
    ∃ n conditions', Numbering (log ++ [⟨some n, incident⟩]) conditions' line.land := by
  obtain ⟨n, found⟩ := numbering.exists_flies flies
  have landed : Replaces n (.flying p.untried) (.gone p.untried) conditions
      (conditions.set n (.gone p.untried)) := ⟨found, rfl⟩
  refine ⟨n, _, numbering.follow landed step ?_ (numbering.flying_of_landed flies landed rfl)⟩
  rw [landed.filterMap_eq rfl]
  exact numbering.waiting

end Flying

/-- Whatever happens to a line, it happens to one of its packets. -/
theorem step (tidy : line.Tidy) (step : line.Step now incident line') :
    ∃ number conditions', Numbering (log ++ [⟨number, incident⟩]) conditions' line' := by
  have numbered : (∃ n conditions', Numbering (log ++ [⟨some n, incident⟩]) conditions' line') →
      ∃ number conditions', Numbering (log ++ [⟨number, incident⟩]) conditions' line' := by
    rintro ⟨n, conditions', longer⟩
    exact ⟨some n, conditions', longer⟩
  cases step with
  | @accept p untried sound => exact ⟨_, _, numbering.enter (line.numbered p) rfl rfl⟩
  | @start p grounded member due oldest =>
    obtain ⟨n, found⟩ := numbering.exists_waits member
    have left : Replaces n (.waiting p) (.flying p) conditions (conditions.set n (.flying p)) :=
      ⟨found, rfl⟩
    refine ⟨some n, _, numbering.follow left (.start p) (numbering.waiting_of_left left rfl) ?_⟩
    have moved := left.perm_filterMap Condition.flying?
    rw [numbering.flying, grounded] at moved
    have flown : [p].Perm ((conditions.set n (.flying p)).filterMap Condition.flying?) := moved
    rw [← List.singleton_perm.mp flown, Line.flying_launch, Option.map_some,
      Packet.untried_of_attempts (tidy.untried p member)]
    rfl
  | @hand p q taken flies same =>
    exact numbered (numbering.stay flies (.hand p.untried taken) rfl (congrArg some same))
  | @expire p flies =>
    exact numbered (numbering.stay flies (.expire p.untried) rfl (congrArg _ flies))
  | @ack p ack flies =>
    exact numbered (numbering.stay flies (.ack p.untried ack) rfl (congrArg _ flies))
  | @finish p reason flies => exact numbered (numbering.land flies (.finish p.untried reason))
  | @withdraw p member =>
    obtain ⟨n, found⟩ := numbering.exists_waits member
    have left : Replaces n (.waiting p) (.gone p) conditions (conditions.set n (.gone p)) :=
      ⟨found, rfl⟩
    refine ⟨some n, _, numbering.follow left (.withdraw p) (numbering.waiting_of_left left rfl) ?_⟩
    rw [left.filterMap_eq rfl]
    exact numbering.flying
  | @abandon p flies => exact numbered (numbering.land flies (.abandon p.untried))
  | reply t => exact ⟨none, conditions, numbering.answer t⟩

/-- Whatever happens to a line in the course of time can be numbered. -/
theorem leads {dated : List (Nat × Incident)} (tidy : line.Tidy) (leads : line.Leads dated line') :
    ∃ more conditions', more.map NumberedIncident.incident = dated.map Prod.snd ∧
      Numbering (log ++ more) conditions' line' := by
  induction leads with
  | nil =>
    refine ⟨[], conditions, rfl, ?_⟩
    rw [List.append_nil]
    exact numbering
  | @snoc dated right right' entry leads step ih =>
    obtain ⟨more, conditions', same, reached⟩ := ih
    obtain ⟨number, conditions'', next⟩ := reached.step (Line.Leads.tidy leads tidy) step
    refine ⟨more ++ [⟨number, entry.2⟩], conditions'', ?_, ?_⟩
    · rw [List.map_append, List.map_append, same]
      rfl
    · rw [← List.append_assoc]
      exact next

end Growing

end Numbering

end MoteLink.Link
