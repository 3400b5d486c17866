import Mathlib.Data.List.DropRight
import MoteLink.Proofs.Link.Acknowledged.Life
import MoteLink.Proofs.Link.Run
import MoteLink.Proofs.Tick
import MoteLink.Radio.Monitor

/-!
# Listening before sending

The record of a step is what is seen of a link that senses the channel while it goes from one state
to the next: the packet that waits to listen, before and after, and the dealings with the radio in
between. `StepRecord.Follows` lists what a step can be, whatever access method the link has. From
this it follows that a packet is handed to the radio only when the channel has just been assessed,
and how often and when that is done in each attempt on the packet.
-/

namespace MoteLink

/-- An acknowledgement of the packet that the frame brings was transmitted. -/
def Transmission.Acknowledges (t : Transmission) (frame : Bytes) : Prop :=
  ∃ d ack : Descriptor, ∃ payload, Descriptor.read? frame = some (d, payload) ∧
    ack.flags.isAck = true ∧ ack.seq = d.seq ∧ t.header = ack.headerBytes ∧ t.payload = []

namespace Link

/-- A packet in flight that waits to listen at `expiry`. In this attempt on it the channel has been
    found busy `busy` times. -/
structure Wait where
  packet : Packet
  expiry : Tick
  busy : UInt8
  deriving DecidableEq, Repr

/-- What is seen of a link, in real time, as it goes from one state to the next. -/
structure StepRecord where
  time : Nat
  /-- What is asked of the link. While it is polled it takes steps by itself. -/
  call? : Option Call
  before : Option Wait
  dealings : List Dealing
  after : Option Wait

namespace StepRecord

/-- The channel has been found busy. -/
def isBusy (b : StepRecord) : Bool := b.dealings.contains (.assessed (some false))

/-- The channel has been found busy, and the packet is to listen again `delay` ticks later. -/
def Postpones (b : StepRecord) (delay : Nat) : Prop :=
  ∃ w, b.before = some w ∧ b.dealings = [.assessed (some false)] ∧
    b.after = some { w with expiry := .ofNat (b.time + delay), busy := w.busy + 1 }

/-- The channel has been assessed, and the packet that has waited for it is handed to the radio. -/
def Hands (b : StepRecord) (w : Wait) (clear : Bool) : Prop :=
  b.before = some w ∧ b.after = none ∧ ∃ taken,
    b.dealings = [.assessed (some clear), .transmitted (w.packet.transmission taken)]

/-- Everything that a step can be. -/
inductive Follows (c : Config) : StepRecord → Prop
  | rest {time : Nat} {call? : Option Call} {wait : Option Wait} :
      Follows c ⟨time, call?, wait, [], wait⟩
  | start {time : Nat} {p : Packet} {expiry : Tick} :
      Follows c ⟨time, none, none, [], some ⟨p, expiry, 0⟩⟩
  | deaf {time : Nat} {w : Wait} (reached : Tick.hasReached w.expiry (.ofNat time) = true) :
      Follows c ⟨time, none, some w, [.assessed none], some w⟩
  | postpone {time delay : Nat} {w : Wait}
      (reached : Tick.hasReached w.expiry (.ofNat time) = true)
      (left : w.busy < c.maxBusyAssessments) (positive : 1 ≤ delay)
      (short : delay ≤ max 1 c.maxInitialBackoff.toNat) :
      Follows c ⟨time, none, some w, [.assessed (some false)],
        some { w with expiry := .ofNat (time + delay), busy := w.busy + 1 }⟩
  | hand {time : Nat} {w : Wait} {clear taken : Bool}
      (reached : Tick.hasReached w.expiry (.ofNat time) = true)
      (spent : clear = false → c.maxBusyAssessments ≤ w.busy) :
      Follows c ⟨time, none, some w,
        [.assessed (some clear), .transmitted (w.packet.transmission taken)], none⟩
  | cancel {time : Nat} {w : Wait} :
      Follows c ⟨time, some (.cancel w.packet.descriptor.seq), some w, [], none⟩
  | answer {time : Nat} {frame : Bytes} {wait : Option Wait} {t : Transmission}
      (acknowledges : t.Acknowledges frame) :
      Follows c ⟨time, some (.receive frame), wait, [.transmitted t], wait⟩

/-- What an assessment comes to for the packet that has waited for it. -/
inductive Heard (c : Config) (b : StepRecord) (w : Wait) : Option Bool → Prop
  | deaf (only : b.dealings = [.assessed none]) (kept : b.after = some w) : Heard c b w none
  | postpone {delay : Nat} (left : w.busy < c.maxBusyAssessments) (positive : 1 ≤ delay)
      (short : delay ≤ max 1 c.maxInitialBackoff.toNat) (postpones : b.Postpones delay) :
      Heard c b w (some false)
  | hand {clear : Bool} (spent : clear = false → c.maxBusyAssessments ≤ w.busy)
      (hands : b.Hands w clear) : Heard c b w (some clear)

namespace Follows

variable {c : Config} {b : StepRecord} {t : Transmission}

theorem heard_of_assessed {answer : Option Bool} (follows : b.Follows c)
    (assessed : .assessed answer ∈ b.dealings) :
    ∃ w, b.before = some w ∧ Tick.hasReached w.expiry (.ofNat b.time) = true ∧
      Heard c b w answer := by
  cases follows with
  | rest | start | cancel => cases assessed
  | deaf reached =>
    cases List.mem_singleton.mp assessed
    exact ⟨_, rfl, reached, .deaf rfl rfl⟩
  | postpone reached left positive short =>
    cases List.mem_singleton.mp assessed
    exact ⟨_, rfl, reached, .postpone left positive short ⟨_, rfl, rfl, rfl⟩⟩
  | hand reached spent =>
    rcases List.mem_pair.mp assessed with same | same
    · cases same
      exact ⟨_, rfl, reached, .hand spent ⟨rfl, rfl, _, rfl⟩⟩
    · cases same
  | answer acknowledges => cases List.mem_singleton.mp assessed

theorem hands_of_transmitted (follows : b.Follows c) (own : b.call? = none)
    (transmitted : .transmitted t ∈ b.dealings) :
    ∃ w clear, b.Hands w clear ∧ (clear = false → c.maxBusyAssessments ≤ w.busy) := by
  cases follows with
  | rest | start => cases transmitted
  | deaf | postpone => cases List.mem_singleton.mp transmitted
  | hand reached spent => exact ⟨_, _, ⟨rfl, rfl, _, rfl⟩, spent⟩
  | cancel | answer => cases own

theorem answer_of_transmitted {call : Call} (follows : b.Follows c) (asked : b.call? = some call)
    (transmitted : .transmitted t ∈ b.dealings) :
    ∃ frame, call = .receive frame ∧ t.Acknowledges frame := by
  cases follows with
  | rest | cancel => cases transmitted
  | start | deaf | postpone | hand => cases asked
  | answer acknowledges =>
    cases asked
    cases List.mem_singleton.mp transmitted
    exact ⟨_, rfl, acknowledges⟩

end Follows

end StepRecord

/-- The records, oldest first, lead from rest to where a packet waits to listen or none does. -/
inductive Flow (c : Config) : List StepRecord → Option Wait → Prop
  | nil : Flow c [] none
  | snoc {past : List StepRecord} {b : StepRecord} (flow : Flow c past b.before)
      (later : ∀ earlier ∈ past, earlier.time ≤ b.time) (follows : b.Follows c) :
      Flow c (past ++ [b]) b.after

/-! ## Attempts -/

/-- The steps of the attempt that goes on: those since a packet has come to wait. -/
def attempt (past : List StepRecord) : List StepRecord := past.rtakeWhile fun b => b.before.isSome

/-- How often the channel has been found busy in the attempt that goes on. -/
def busyAnswers (past : List StepRecord) : Nat := (attempt past).countP StepRecord.isBusy

/-- In each attempt the channel is assessed until it is found clear, or found busy once more than is
    allowed for. Just then, at the same time and in the same step, the packet is handed to the
    radio, and no packet is handed to it otherwise. -/
structure ListensFirst (c : Config) (log : List StepRecord) : Prop where
  /-- What a link does not transmit by itself are acknowledgements. -/
  asked : ∀ b ∈ log, ∀ call t, b.call? = some call → .transmitted t ∈ b.dealings →
    ∃ frame, call = .receive frame ∧ t.Acknowledges frame
  /-- What a link does transmit by itself is the packet that has waited for that. -/
  handed : ∀ past b later t, log = past ++ b :: later → b.call? = none →
    .transmitted t ∈ b.dealings → ∃ w clear, b.Hands w clear ∧
      (∀ e ∈ attempt past, e.before.map Wait.packet = some w.packet ∧
        .assessed (some true) ∉ e.dealings) ∧
      busyAnswers past ≤ c.maxBusyAssessments.toNat ∧
      (clear = false → busyAnswers past = c.maxBusyAssessments.toNat)
  ended : ∀ past b later clear, log = past ++ b :: later → .assessed (some clear) ∈ b.dealings →
    clear = true ∨ c.maxBusyAssessments.toNat ≤ busyAnswers past → ∃ w, b.Hands w clear
  postponed : ∀ past b later, log = past ++ b :: later → .assessed (some false) ∈ b.dealings →
    busyAnswers past < c.maxBusyAssessments.toNat →
    ∃ delay, 1 ≤ delay ∧ delay ≤ max 1 c.maxInitialBackoff.toNat ∧ b.Postpones delay
  /-- After an answer that has put it off the channel is not assessed before that time. -/
  waited : ∀ past b later answer, log = past ++ b :: later → .assessed answer ∈ b.dealings →
    ∀ e ∈ attempt past, e.isBusy = true →
      ∃ delay, 1 ≤ delay ∧ delay ≤ max 1 c.maxInitialBackoff.toNat ∧ e.Postpones delay ∧
        e.time + delay ≤ b.time
  failed : ∀ b ∈ log, .assessed none ∈ b.dealings →
    ∃ w, b.before = some w ∧ b.dealings = [.assessed none] ∧ b.after = some w

section Attempts

variable {c : Config} {past later log : List StepRecord} {b : StepRecord} {w : Wait}
  {wait : Option Wait}

theorem attempt_append_of_waits (past : List StepRecord) (waits : b.before = some w) :
    attempt (past ++ [b]) = attempt past ++ [b] :=
  List.rtakeWhile_concat_pos _ _ _ (by rw [waits]; rfl)

theorem attempt_append_of_rests (past : List StepRecord) (rests : b.before = none) :
    attempt (past ++ [b]) = [] :=
  List.rtakeWhile_concat_neg _ _ _ (by rw [rests]; exact Bool.false_ne_true)

theorem time_le_of_attempt {time : Nat} (all : ∀ e ∈ past, e.time ≤ time) :
    ∀ e ∈ attempt past, e.time ≤ time :=
  fun e member => all e ((List.rtakeWhile_suffix _ _).subset member)

/-- What is known of the steps of an attempt while its packet waits. -/
structure Attempting (c : Config) (w : Wait) (records : List StepRecord) : Prop where
  same : ∀ e ∈ records, e.before.map Wait.packet = some w.packet
  unclear : ∀ e ∈ records, .assessed (some true) ∉ e.dealings
  busy : records.countP StepRecord.isBusy = w.busy.toNat
  within : w.busy ≤ c.maxBusyAssessments
  waited : ∀ e ∈ records, e.isBusy = true →
    ∃ delay, 1 ≤ delay ∧ delay ≤ max 1 c.maxInitialBackoff.toNat ∧ e.Postpones delay ∧
      ∀ time, (∀ e ∈ records, e.time ≤ time) → Tick.hasReached w.expiry (.ofNat time) = true →
        e.time + delay ≤ time

namespace Attempting

variable {records : List StepRecord}

theorem start (c : Config) (p : Packet) (expiry : Tick) : Attempting c ⟨p, expiry, 0⟩ [] := by
  constructor
  case same => exact List.forall_mem_nil _
  case unclear => exact List.forall_mem_nil _
  case busy => rfl
  case within => exact UInt8.zero_le
  case waited => exact List.forall_mem_nil _

/-- A step without an answer to an assessment changes nothing of it. -/
theorem rest (attempting : Attempting c w records) (waits : b.before = some w)
    (unanswered : ∀ clear, .assessed (some clear) ∉ b.dealings) :
    Attempting c w (records ++ [b]) := by
  have idle : b.isBusy = false := by
    rw [StepRecord.isBusy, List.contains_eq_mem, decide_eq_false_iff_not]
    exact unanswered false
  constructor
  case same =>
    refine List.forall_mem_append.mpr ⟨attempting.same, List.forall_mem_singleton.mpr ?_⟩
    rw [waits]
    rfl
  case unclear =>
    exact List.forall_mem_append.mpr
      ⟨attempting.unclear, List.forall_mem_singleton.mpr (unanswered true)⟩
  case busy =>
    rw [List.countP_append, attempting.busy, List.countP_singleton, idle]
    rfl
  case within => exact attempting.within
  case waited =>
    refine List.forall_mem_append.mpr ⟨?_, List.forall_mem_singleton.mpr ?_⟩
    · intro e member busy
      obtain ⟨delay, positive, short, postpones, due⟩ := attempting.waited e member busy
      refine ⟨delay, positive, short, postpones, fun time all reached => ?_⟩
      exact due time (List.forall_mem_append.mp all).1 reached
    · intro busy
      rw [idle] at busy
      cases busy

/-- A busy channel is counted, and puts the next assessment off. -/
theorem postpone {time delay : Nat} (attempting : Attempting c w records)
    (half : c.maxInitialBackoff ≤ 0x80000000) (sorted : ∀ e ∈ records, e.time ≤ time)
    (reached : Tick.hasReached w.expiry (.ofNat time) = true)
    (left : w.busy < c.maxBusyAssessments) (positive : 1 ≤ delay)
    (short : delay ≤ max 1 c.maxInitialBackoff.toNat) :
    Attempting c { w with expiry := .ofNat (time + delay), busy := w.busy + 1 }
      (records ++ [⟨time, none, some w, [.assessed (some false)],
        some { w with expiry := .ofNat (time + delay), busy := w.busy + 1 }⟩]) := by
  have counted : (w.busy + 1).toNat = w.busy.toNat + 1 := by
    have bound := c.maxBusyAssessments.toNat_lt
    rw [UInt8.lt_iff_toNat_lt] at left
    rw [UInt8.toNat_add]
    simp only [UInt8.reduceToNat]
    omega
  have turn : delay ≤ 0x80000000 := by
    rw [UInt32.le_iff_toNat_le] at half
    exact Nat.le_trans short (Nat.max_le.mpr ⟨by decide, half⟩)
  constructor
  case same =>
    exact List.forall_mem_append.mpr ⟨attempting.same, List.forall_mem_singleton.mpr rfl⟩
  case unclear =>
    exact List.forall_mem_append.mpr
      ⟨attempting.unclear, List.forall_mem_singleton.mpr (by simp)⟩
  case busy =>
    rw [List.countP_append, attempting.busy, counted]
    rfl
  case within =>
    rw [UInt8.lt_iff_toNat_lt] at left
    rw [UInt8.le_iff_toNat_le, counted]
    exact left
  case waited =>
    refine List.forall_mem_append.mpr ⟨?_, List.forall_mem_singleton.mpr ?_⟩
    · intro e member busy
      obtain ⟨pause, some_pause, short_pause, postpones, due⟩ := attempting.waited e member busy
      -- What has been put off to an earlier time is not put off by this step.
      have passed := due time sorted reached
      refine ⟨pause, some_pause, short_pause, postpones, fun time' all _ => ?_⟩
      exact Nat.le_trans passed (all _ (List.mem_append_right _ (List.mem_singleton_self _)))
    · intro _
      refine ⟨delay, positive, short, ⟨w, rfl, rfl, rfl⟩, fun time' all reached' => ?_⟩
      have begun : time ≤ time' := all _ (List.mem_append_right _ (List.mem_singleton_self _))
      exact Tick.le_of_hasReached begun turn reached'

end Attempting

namespace Flow

theorem split (flow : Flow c (past ++ b :: later) wait) :
    Flow c past b.before ∧ (∀ e ∈ past, e.time ≤ b.time) ∧ b.Follows c := by
  generalize whole : past ++ b :: later = log at flow
  induction flow generalizing later with
  | nil => simp at whole
  | snoc flow sorted follows ih =>
    rcases List.eq_nil_or_concat later with rfl | ⟨rest, last, rfl⟩
    · obtain ⟨rfl, same⟩ := List.append_inj' whole rfl
      cases same
      exact ⟨flow, sorted, follows⟩
    · rw [List.concat_eq_append, ← List.cons_append, ← List.append_assoc] at whole
      obtain ⟨earlier, -⟩ := List.append_inj' whole rfl
      exact ih earlier

/-- While a packet waits the steps of the attempt on it account for its wait. -/
theorem attempting (flow : Flow c past wait) (half : c.maxInitialBackoff ≤ 0x80000000)
    (waits : wait = some w) : Attempting c w (attempt past) := by
  induction flow generalizing w with
  | nil => cases waits
  | @snoc past b flow sorted follows ih =>
    cases follows with
    | rest =>
      subst waits
      rw [attempt_append_of_waits past rfl]
      exact (ih rfl).rest rfl fun clear => List.not_mem_nil
    | start =>
      cases waits
      rw [attempt_append_of_rests past rfl]
      exact .start c _ _
    | deaf reached =>
      cases waits
      rw [attempt_append_of_waits past rfl]
      exact (ih rfl).rest rfl (by simp)
    | postpone reached left positive short =>
      cases waits
      rw [attempt_append_of_waits past rfl]
      exact (ih rfl).postpone half (time_le_of_attempt sorted) reached left positive short
    | hand reached spent => cases waits
    | cancel => cases waits
    | answer acknowledges =>
      subst waits
      rw [attempt_append_of_waits past rfl]
      exact (ih rfl).rest rfl (by simp)

/-- Steps that lead from rest to anywhere listen before they send. -/
theorem listensFirst (flow : Flow c log wait) (half : c.maxInitialBackoff ≤ 0x80000000) :
    ListensFirst c log := by
  constructor
  case asked =>
    intro b member call t asked transmitted
    obtain ⟨past, later, rfl⟩ := List.append_of_mem member
    exact flow.split.2.2.answer_of_transmitted asked transmitted
  case handed =>
    rintro past b later t rfl own transmitted
    obtain ⟨before, -, follows⟩ := flow.split
    obtain ⟨w, clear, hands, spent⟩ := follows.hands_of_transmitted own transmitted
    have attempting := before.attempting half hands.1
    have within := UInt8.le_iff_toNat_le.mp attempting.within
    refine ⟨w, clear, hands, fun e there => ⟨attempting.same e there, attempting.unclear e there⟩,
      ?_, fun busy => ?_⟩
    · rw [busyAnswers, attempting.busy]
      exact within
    · rw [busyAnswers, attempting.busy]
      exact Nat.le_antisymm within (UInt8.le_iff_toNat_le.mp (spent busy))
  case ended =>
    rintro past b later clear rfl answered last
    obtain ⟨before, -, follows⟩ := flow.split
    obtain ⟨w, waits, -, heard⟩ := follows.heard_of_assessed answered
    have attempting := before.attempting half waits
    cases heard with
    | hand spent hands => exact ⟨w, hands⟩
    | postpone left positive short postpones =>
      rw [busyAnswers, attempting.busy] at last
      rw [UInt8.lt_iff_toNat_lt] at left
      rcases last with last | last
      · cases last
      · omega
  case postponed =>
    rintro past b later rfl answered left
    obtain ⟨before, -, follows⟩ := flow.split
    obtain ⟨w, waits, -, heard⟩ := follows.heard_of_assessed answered
    have attempting := before.attempting half waits
    cases heard with
    | hand spent hands =>
      have full := UInt8.le_iff_toNat_le.mp (spent rfl)
      rw [busyAnswers, attempting.busy] at left
      omega
    | postpone left positive short postpones => exact ⟨_, positive, short, postpones⟩
  case waited =>
    rintro past b later answer rfl answered e there busy
    obtain ⟨before, sorted, follows⟩ := flow.split
    obtain ⟨w, waits, reached, -⟩ := follows.heard_of_assessed answered
    obtain ⟨delay, positive, short, postpones, due⟩ :=
      (before.attempting half waits).waited e there busy
    exact ⟨delay, positive, short, postpones, due b.time (time_le_of_attempt sorted) reached⟩
  case failed =>
    intro b member unanswered
    obtain ⟨past, later, rfl⟩ := List.append_of_mem member
    obtain ⟨w, waits, -, heard⟩ := flow.split.2.2.heard_of_assessed unanswered
    cases heard with
    | deaf only kept => exact ⟨w, waits, only, kept⟩

end Flow

end Attempts

end Link

end MoteLink
