import MoteLink.Proofs.Header.Layout
import MoteLink.Proofs.Link.Conveyance
import MoteLink.Proofs.Link.Listening.Attempt

/-!
# Steps that listen first

What is seen of a link whose radio is under close observation, in each step that it takes while it
is polled and in each other call, is one of the steps that `StepRecord.Follows` lists. Both access
methods that sense the channel leave it to their station, so most of it is shown there.
-/

namespace MoteLink

namespace Link

variable {ρ γ ε : Type} {c : Config} {time : Nat} {p : Packet}

/-! ## Packets that wait -/

namespace Outbox

variable {o o' : Outbox} {seq : UInt8}

/-- The packet in flight, if it waits to listen. -/
def wait? (o : Outbox) : Option (Tick × UInt8) → Option Wait
  | none => none
  | some (expiry, busy) => o.flying.head?.map fun p => ⟨p, expiry, busy⟩

theorem wait?_of_flying (one : o.flying = [p]) (expiry : Tick) (busy : UInt8) :
    o.wait? (some (expiry, busy)) = some ⟨p, expiry, busy⟩ := by
  rw [wait?, one]
  rfl

theorem wait?_of_grounded (grounded : o.flying = []) (backoff? : Option (Tick × UInt8)) :
    o.wait? backoff? = none := by
  cases backoff? with
  | none => rfl
  | some backoff =>
    rw [wait?, grounded]
    rfl

theorem wait?_congr (flying : o'.flying = o.flying) : o'.wait? = o.wait? := by
  funext backoff?
  cases backoff? with
  | none => rfl
  | some backoff => rw [wait?, wait?, flying]

/-- The packet that was in flight is removed, and no other one is in flight then. -/
theorem flying_of_remove (few : o.flying.length ≤ 1)
    (removed : o.remove seq = some (.inFlight p, o')) :
    o.flying = [p] ∧ o'.flying = [] ∧ p.descriptor.seq = seq := by
  obtain ⟨i, q, freed, held, carries, -⟩ := remove_eq_some removed
  cases held
  have all : o.flying.Perm (p :: o'.flying) := flying_perm freed
  have none_left : o'.flying = [] := by
    have length := all.length_eq
    rw [List.length_cons] at length
    exact List.length_eq_zero_iff.mp (by omega)
  rw [none_left] at all
  exact ⟨List.perm_singleton.mp all, none_left, carries⟩

end Outbox

/-! ## Stations -/

namespace Station

variable {s s' s'' : Station (Monitor ρ) γ} {expiry expiry' : Tick} {busy busy' : UInt8}

/-- The dealings that the station has had with its radio. -/
def dealings (s : Station (Monitor ρ) γ) : List Dealing := s.radio.dealings

/-- The dealings that the station has with its radio between two states, and what they come to for
    the packet that waits, make up a step that follows. -/
def Passes (c : Config) (time : Nat) (call? : Option Call) (s : Station (Monitor ρ) γ)
    (before : Option Wait) (s' : Station (Monitor ρ) γ) (after : Option Wait) : Prop :=
  ∃ dealings, s'.dealings = s.dealings ++ dealings ∧
    StepRecord.Follows c ⟨time, call?, before, dealings, after⟩

theorem passes_rest (c : Config) (time : Nat) (call? : Option Call) (wait : Option Wait)
    (same : s'.radio = s.radio) : Passes c time call? s wait s' wait := by
  refine ⟨[], ?_, .rest⟩
  rw [List.append_nil, dealings, same, dealings]

theorem Passes.setStation {call? : Option Call} {before after : Option Wait}
    (passes : Passes c time call? s before s' after) (same : s''.radio = s'.radio) :
    Passes c time call? s before s'' after := by
  rw [Passes, dealings, same]
  exact passes

/-- What is removed from the outbox does not wait any longer. -/
theorem passes_remove {o o' : Outbox} {seq : UInt8} {slot : Slot} (few : o.flying.length ≤ 1)
    (removed : o.remove seq = some (slot, o')) (c : Config) (time : Nat)
    (s : Station (Monitor ρ) γ) (backoff? : Option (Tick × UInt8)) :
    Passes c time (some (.cancel seq)) s (o.wait? backoff?) s (o'.wait? backoff?) := by
  rcases Outbox.remove_cases removed with ⟨p, rfl, flying, -⟩ | ⟨p, rfl, -⟩
  · rw [Outbox.wait?_congr flying]
    exact passes_rest c time _ _ rfl
  · obtain ⟨one, grounded, rfl⟩ := Outbox.flying_of_remove few removed
    rw [Outbox.wait?_of_grounded grounded]
    cases backoff? with
    | none => exact passes_rest c time _ none rfl
    | some backoff =>
      obtain ⟨expiry, busy⟩ := backoff
      rw [Outbox.wait?_of_flying one]
      exact ⟨[], (List.append_nil _).symm, .cancel (w := ⟨p, expiry, busy⟩)⟩

theorem radio_of_prepare {s s' : Station ρ γ} {d : Descriptor} {payload : Bytes}
    {prepared : Except (LinkError ε) Packet} (checked : s.prepare d payload = (prepared, s')) :
    s'.radio = s.radio := by
  obtain ⟨seq, counted⟩ := s.station_prepare (ε := ε) d payload
  rw [checked] at counted
  rw [show s' = { s with seq } from counted]

theorem Submitted.radio_eq {s s' : Station ρ γ} {o o' : Outbox} {d : Descriptor} {payload : Bytes}
    {result : Except (LinkError ε) UInt8} (submitted : s.Submitted o d payload result s' o') :
    s'.radio = s.radio := by
  cases submitted with
  | unfit prepared | full prepared refused | accepted prepared placed =>
    exact radio_of_prepare prepared

/-- An attempt begins with no assessment counted. -/
theorem passes_start [RandomSource γ] {now : Tick} (c : Config) (time : Nat) (p : Packet)
    (drawn : s.firstBackoff now = .ok (expiry, s')) :
    Passes c time none s none s' (some ⟨p, expiry, 0⟩) := by
  refine ⟨[], ?_, .start⟩
  rw [List.append_nil, dealings, radio_of_firstBackoff drawn, dealings]

/-- Backing off takes one tick at least, and no more than is configured. -/
theorem pending_of_backOffAgain [RandomSource γ] {s s' : Station ρ γ}
    (again : s.backOffAgain busy (.ofNat time) = .ok (.pending expiry' busy', s')) :
    busy' = busy + 1 ∧ ∃ delay, 1 ≤ delay ∧ delay ≤ max 1 s.config.maxInitialBackoff.toNat ∧
      expiry' = .ofNat (time + delay) := by
  unfold backOffAgain at again
  split at again <;> rename_i backoff _ drawn
  · cases again
  split at again
  · cases again
  cases again
  have short := UInt32.le_iff_toNat_le.mp (le_of_drawBackoff drawn)
  refine ⟨rfl, (if backoff = 0 then 1 else backoff).toNat, ?_, ?_, ?_⟩
  · split <;> rename_i zero
    · exact Nat.le_refl 1
    · exact Nat.pos_of_ne_zero fun same => zero (UInt32.toNat_inj.mp same)
  · split
    · exact Nat.le_max_left _ _
    · exact Nat.le_trans short (Nat.le_max_right _ _)
  · rw [UInt32.ofNat_add, UInt32.ofNat_toNat]

variable [Transceiver ρ ε]

theorem dealings_of_transmit {d : Descriptor} {payload : Bytes}
    {result : Except (LinkError ε) Nat} (sound : d.layoutError? = none)
    (sent : s.transmit d payload = (result, s')) :
    s'.dealings = s.dealings ++ [.transmitted ⟨d.headerBytes, payload, result.isOk⟩] := by
  have told := s.isOk_transmit (ε := ε) sound payload
  have radio := s.radio_transmit (ε := ε) sound payload
  have written := Monitor.dealings_send (ε := ε) s.radio d.headerBytes payload
  rw [← told, ← radio, sent] at written
  exact written

theorem dealings_of_channelClear {answer : Except (LinkError ε) Bool}
    (heard : s.channelClear = (answer, s')) :
    s'.dealings = s.dealings ++ [.assessed answer.toOption] := by
  have told : (s.channelClear (ε := ε)).1.toOption =
      (Transceiver.channelClear (ε := ε) s.radio).1.toOption := by
    unfold channelClear onRadio
    dsimp only
    cases (Transceiver.channelClear (ε := ε) s.radio).1 <;> rfl
  have written : (s.channelClear (ε := ε)).2.dealings = _ :=
    Monitor.dealings_channelClear (ε := ε) s.radio
  rw [← told, heard] at written
  exact written

/-- A frame that asks for it is acknowledged. -/
theorem passes_sendAck {frame : Bytes} {d : Delivery} (c : Config) (time : Nat)
    (wait : Option Wait) (heard : s.listen frame = some d)
    (here : d.descriptor.nextHop = s.config.address) :
    Passes c time (some (.receive frame)) s wait (s.sendAck (ε := ε) d.descriptor).2 wait := by
  obtain ⟨read, -⟩ := s.listen_eq_some_iff.mp heard
  have sound := s.layoutError?_ackFor (Descriptor.layoutError?_of_read? read) here
  refine ⟨_, dealings_of_transmit (ε := ε) sound rfl, .answer ?_⟩
  exact ⟨d.descriptor, s.ackFor d.descriptor, d.payload, read, rfl, rfl, rfl, rfl⟩

variable [RandomSource γ]

namespace Sensed

theorem passes_error {e : LinkError ε} (p : Packet)
    (sensed : s.Sensed expiry busy (.ofNat time) (.error e) s') :
    Passes s.config time none s (some ⟨p, expiry, busy⟩) s' (some ⟨p, expiry, busy⟩) := by
  cases sensed with
  | deaf passed heard => exact ⟨_, dealings_of_channelClear heard, .deaf passed⟩

theorem passes_pending (p : Packet)
    (sensed : s.Sensed (ε := ε) expiry busy (.ofNat time) (.ok (.pending expiry' busy')) s') :
    Passes s.config time none s (some ⟨p, expiry, busy⟩) s' (some ⟨p, expiry', busy'⟩) := by
  cases sensed with
  | early before => exact passes_rest s.config time none _ rfl
  | again passed heard left drawn =>
    have told := dealings_of_channelClear heard
    have same := sameBooks_of_channelClear heard
    obtain ⟨rfl, delay, positive, short, rfl⟩ := pending_of_backOffAgain drawn
    rw [same.config] at short
    rw [dealings, ← radio_of_backOffAgain drawn] at told
    exact ⟨_, told, .postpone passed left positive short⟩

/-- The packet that has waited is handed to the radio in the same step. -/
theorem passes_clear {result : Except (LinkError ε) Nat} (sound : p.descriptor.layoutError? = none)
    (sensed : s.Sensed (ε := ε) expiry busy (.ofNat time) (.ok .clear) s')
    (sent : s'.transmit p.descriptor p.payload = (result, s'')) :
    Passes s.config time none s (some ⟨p, expiry, busy⟩) s'' none := by
  have transmitted := dealings_of_transmit sound sent
  cases sensed with
  | clear passed heard =>
    rw [dealings_of_channelClear heard, List.append_assoc] at transmitted
    exact ⟨_, transmitted, .hand (w := ⟨p, expiry, busy⟩) passed nofun⟩
  | regardless passed heard spent =>
    rw [dealings_of_channelClear heard, List.append_assoc] at transmitted
    exact ⟨_, transmitted, .hand (w := ⟨p, expiry, busy⟩) passed fun _ => spent⟩
  | again passed heard left drawn =>
    obtain ⟨-, -, backoff, waits⟩ := backOffAgain_eq_ok drawn
    cases waits

end Sensed

end Station

/-! ## Carrier sense -/

/-- The end of the wait to listen, and how often the channel has been found busy. -/
def CarrierPhase.backoff? : CarrierPhase → Option (Tick × UInt8)
  | .idle => none
  | .backoff expiry busy => some (expiry, busy)

namespace CarrierSense

/-- The packet that waits to listen. -/
def wait? (m : CarrierSense ρ γ) : Option Wait := m.outbox.wait? m.phase.backoff?

theorem wait?_of_idle {m : CarrierSense ρ γ} (quiet : m.phase = .idle) : m.wait? = none := by
  rw [wait?, quiet]
  rfl

theorem wait?_of_backoff {m : CarrierSense ρ γ} {expiry : Tick} {busy : UInt8}
    (phase : m.phase = .backoff expiry busy) (one : m.outbox.flying = [p]) :
    m.wait? = some ⟨p, expiry, busy⟩ := by
  rw [wait?, phase]
  exact Outbox.wait?_of_flying one expiry busy

variable {m m' : CarrierSense (Monitor ρ) γ}

open Station (Passes)

theorem passes_cancel (served : m.Served) (c : Config) (time : Nat) (seq : UInt8) :
    Passes c time (some (.cancel seq)) m.station m.wait? (m.cancel seq).2.station
      (m.cancel seq).2.wait? := by
  unfold cancel
  cases removed : m.outbox.remove seq with
  | none => exact Station.passes_rest c time _ _ rfl
  | some entry =>
    obtain ⟨slot, outbox⟩ := entry
    have passes := Station.passes_remove served.length_flying_le removed c time m.station
      m.phase.backoff?
    cases slot with
    | idle | queued q => exact passes
    | inFlight q =>
      obtain ⟨-, grounded, -⟩ := Outbox.flying_of_remove served.length_flying_le removed
      rw [Outbox.wait?_of_grounded grounded] at passes
      exact passes

variable [Transceiver ρ ε]

/-- Whether it is taken or refused, the packet does not wait to listen any longer. -/
theorem Attempt.handed {i : Nat} {reason : Option FailureReason}
    (attempted : Attempt (ε := ε) m i p reason m') :
    m'.wait? = none ∧ ∃ (result : Except (LinkError ε) Nat) (station : Station (Monitor ρ) γ),
      m.station.transmit p.descriptor p.payload = (result, station) ∧
        m'.station.radio = station.radio := by
  cases attempted with
  | refused sent => exact ⟨rfl, _, _, sent, rfl⟩
  | done sent => exact ⟨rfl, _, _, sent, rfl⟩

variable [RandomSource γ]

theorem Transition.passes {r : Except (LinkError ε) Bool}
    (taken : Transition (.ofNat time) m r m') (served : m.Served) (served' : m'.Served)
    (sound : ∀ p ∈ m.outbox.flying, p.descriptor.layoutError? = none) :
    Passes m.station.config time none m.station m.wait? m'.station m'.wait? := by
  cases taken with
  | rest quiet early => exact Station.passes_rest _ time none _ rfl
  | @start i outbox expiry station quiet started drawn =>
    obtain ⟨-, j, p, -, one⟩ := served'.flying_of_backoff rfl
    have after : CarrierSense.wait? { m with station, outbox, phase := .backoff expiry 0 } =
        some ⟨p, expiry, 0⟩ := wait?_of_backoff rfl one
    rw [wait?_of_idle quiet, after]
    exact Station.passes_start _ time p drawn
  | @deaf expiry busy e station phase sensed =>
    obtain ⟨-, i, p, -, one⟩ := served.flying_of_backoff phase
    have before := wait?_of_backoff phase one
    have after : CarrierSense.wait? { m with station } = some ⟨p, expiry, busy⟩ := before
    rw [before, after]
    exact sensed.passes_error p
  | @hold expiry expiry' busy busy' station phase sensed =>
    obtain ⟨-, i, p, -, one⟩ := served.flying_of_backoff phase
    have after : CarrierSense.wait? { m with station, phase := .backoff expiry' busy' } =
        some ⟨p, expiry', busy'⟩ := wait?_of_backoff rfl one
    rw [wait?_of_backoff phase one, after]
    exact sensed.passes_pending p
  | @attempt expiry busy station i p reason m' phase sensed found attempted =>
    obtain ⟨-, j, q, -, one⟩ := served.flying_of_backoff phase
    obtain rfl := Outbox.eq_of_flying one found
    obtain ⟨gone, result, station', sent, radio⟩ := attempted.handed
    have passes := sensed.passes_clear (sound q (one ▸ List.mem_singleton_self q)) sent
    rw [wait?_of_backoff phase one, gone]
    exact passes.setStation radio

theorem Performs.passes {call : Call} {answer : Answer ε}
    (performs : Performs m (.ofNat time) call answer m') (served : m.Served)
    (other : call ≠ .poll) :
    Passes m.station.config time (some call) m.station m.wait? m'.station m'.wait? := by
  cases performs with
  | @submit call d payload submits =>
    obtain ⟨submitted, phase⟩ := m.submitted_submit (ε := ε) d payload
    have kept := Outbox.wait?_congr submitted.outbox.1
    rw [wait?, wait?, phase, kept]
    exact Station.passes_rest _ time _ _ submitted.radio_eq
  | receive frame => exact Station.passes_rest _ time _ _ rfl
  | poll polled => exact absurd rfl other
  | cancel seq => exact passes_cancel served _ time seq

end CarrierSense

/-! ## Carrier sense with acknowledgements -/

/-- The end of the wait to listen, and how often the channel has been found busy. -/
def AckPhase.backoff? : AckPhase → Option (Tick × UInt8)
  | .backoff expiry busy => some (expiry, busy)
  | _ => none

namespace Acknowledged

/-- The packet that waits to listen. -/
def wait? (m : Acknowledged ρ γ) : Option Wait := m.outbox.wait? m.phase.backoff?

theorem wait?_of_phase {m : Acknowledged ρ γ} (other : m.phase.backoff? = none) :
    m.wait? = none := by
  rw [wait?, other]
  rfl

theorem wait?_of_backoff {m : Acknowledged ρ γ} {expiry : Tick} {busy : UInt8}
    (phase : m.phase = .backoff expiry busy) (one : m.outbox.flying = [p]) :
    m.wait? = some ⟨p, expiry, busy⟩ := by
  rw [wait?, phase]
  exact Outbox.wait?_of_flying one expiry busy

variable {m m' : Acknowledged (Monitor ρ) γ} {i : Nat}

open Station (Passes)

theorem passes_cancel (served : m.Served) (c : Config) (time : Nat) (seq : UInt8) :
    Passes c time (some (.cancel seq)) m.station m.wait? (m.cancel seq).2.station
      (m.cancel seq).2.wait? := by
  unfold cancel
  cases removed : m.outbox.remove seq with
  | none => exact Station.passes_rest c time _ _ rfl
  | some entry =>
    obtain ⟨slot, outbox⟩ := entry
    have passes := Station.passes_remove served.length_flying_le removed c time m.station
      m.phase.backoff?
    cases slot with
    | idle | queued q => exact passes
    | inFlight q =>
      obtain ⟨-, grounded, -⟩ := Outbox.flying_of_remove served.length_flying_le removed
      rw [Outbox.wait?_of_grounded grounded] at passes
      exact passes

theorem Setback.rests {now : Tick} {reason : FailureReason}
    (setback : Setback now m i p reason m') :
    m'.wait? = none ∧ m'.station.radio = m.station.radio := by
  cases setback with
  | again left => exact ⟨rfl, rfl⟩
  | giveUp spent => exact ⟨rfl, rfl⟩

theorem Acknowledgement.passes {ack : Descriptor} (noted : Acknowledgement m ack m') (c : Config)
    (time : Nat) (call? : Option Call) :
    Passes c time call? m.station m.wait? m'.station m'.wait? := by
  cases noted with
  | unexpected phase | mismatch phase found other => exact Station.passes_rest c time call? _ rfl
  | matching phase found seq sender =>
    have before : m.wait? = none := wait?_of_phase (phase ▸ rfl)
    rw [before]
    exact Station.passes_rest c time call? none rfl

variable [Transceiver ρ ε]

/-- Whatever comes of an attempt, the packet does not wait to listen any longer. -/
theorem Attempt.handed {now : Tick} (attempted : Attempt (ε := ε) now m i p m') :
    m'.wait? = none ∧ ∃ (result : Except (LinkError ε) Nat) (station : Station (Monitor ρ) γ),
      m.station.transmit p.descriptor p.payload = (result, station) ∧
        m'.station.radio = station.radio := by
  cases attempted with
  | refused sent setback =>
    obtain ⟨rests, radio⟩ := setback.rests
    exact ⟨rests, _, _, sent, radio⟩
  | await sent asks => exact ⟨rfl, _, _, sent, rfl⟩
  | done sent silent => exact ⟨rfl, _, _, sent, rfl⟩

theorem Reception.passes {frame : Bytes} {delivery : Option Delivery} (served : m.Served)
    (received : Reception (ε := ε) m frame delivery m') (c : Config) (time : Nat) :
    Passes c time (some (.receive frame)) m.station m.wait? m'.station m'.wait? := by
  have learned (a : Address) : (m.learn a).wait? = m.wait? := by
    rw [wait?, wait?, m.outbox_learn a, m.phase_learn a]
  cases received with
  | ignored unheard => exact Station.passes_rest c time _ _ rfl
  | @acknowledgement d heard isAck =>
    have noted := acknowledgement_of_handleAck (served_learn served d.descriptor.prevHop)
      d.descriptor
    rw [← learned d.descriptor.prevHop, ← m.station_learn d.descriptor.prevHop]
    exact noted.passes c time _
  | @answered d heard isData asks here =>
    have same : Acknowledged.wait? { m.learn d.descriptor.prevHop with
        station := (m.station.sendAck (ε := ε) d.descriptor).2 } = m.wait? :=
      learned d.descriptor.prevHop
    rw [same]
    exact Station.passes_sendAck c time m.wait? heard here
  | @delivered d heard isData silent =>
    rw [learned]
    exact Station.passes_rest c time _ _ (by rw [m.station_learn])

variable [RandomSource γ]

theorem Transition.passes {r : Except (LinkError ε) Bool}
    (taken : Transition (.ofNat time) m r m') (served : m.Served) (served' : m'.Served)
    (sound : ∀ p ∈ m.outbox.flying, p.descriptor.layoutError? = none) :
    Passes m.station.config time none m.station m.wait? m'.station m'.wait? := by
  cases taken with
  | rest quiet early => exact Station.passes_rest _ time none _ rfl
  | @start i outbox expiry station quiet started drawn =>
    obtain ⟨j, p, -, one⟩ := served'.inFlight?_of_phase nofun
    have before : m.wait? = none := wait?_of_phase (quiet ▸ rfl)
    have after : Acknowledged.wait? { m with station, outbox, phase := .backoff expiry 0 } =
        some ⟨p, expiry, 0⟩ := wait?_of_backoff rfl one
    rw [before, after]
    exact Station.passes_start _ time p drawn
  | @deaf expiry busy e station phase sensed =>
    obtain ⟨i, p, -, one⟩ := served.inFlight?_of_phase (phase ▸ nofun)
    have before := wait?_of_backoff phase one
    have after : Acknowledged.wait? { m with station } = some ⟨p, expiry, busy⟩ := before
    rw [before, after]
    exact sensed.passes_error p
  | @hold expiry expiry' busy busy' station phase sensed =>
    obtain ⟨i, p, -, one⟩ := served.inFlight?_of_phase (phase ▸ nofun)
    have after : Acknowledged.wait? { m with station, phase := .backoff expiry' busy' } =
        some ⟨p, expiry', busy'⟩ := wait?_of_backoff rfl one
    rw [wait?_of_backoff phase one, after]
    exact sensed.passes_pending p
  | @attempt expiry busy station i p m' phase sensed found attempted =>
    obtain ⟨j, q, -, one⟩ := served.inFlight?_of_phase (phase ▸ nofun)
    obtain rfl := Outbox.eq_of_flying one found
    obtain ⟨gone, result, station', sent, radio⟩ := attempted.handed
    have passes := sensed.passes_clear (sound q (one ▸ List.mem_singleton_self q)) sent
    rw [wait?_of_backoff phase one, gone]
    exact passes.setStation radio
  | await phase early | pause phase early => exact Station.passes_rest _ time none _ rfl
  | timeout phase passed found setback =>
    obtain ⟨rests, radio⟩ := setback.rests
    have before : m.wait? = none := wait?_of_phase (phase ▸ rfl)
    rw [before, rests]
    exact Station.passes_rest _ time none none radio
  | retry phase passed =>
    -- So does the next attempt, which does not wait before it listens for the first time.
    obtain ⟨i, p, -, one⟩ := served.inFlight?_of_phase (phase ▸ nofun)
    have before : m.wait? = none := wait?_of_phase (phase ▸ rfl)
    have after : Acknowledged.wait? { m with phase := .backoff (.ofNat time) 0 } =
        some ⟨p, .ofNat time, 0⟩ := wait?_of_backoff rfl one
    rw [before, after]
    exact ⟨[], (List.append_nil _).symm, .start⟩

theorem Performs.passes {call : Call} {answer : Answer ε}
    (performs : Performs m (.ofNat time) call answer m') (served : m.Served)
    (other : call ≠ .poll) :
    Passes m.station.config time (some call) m.station m.wait? m'.station m'.wait? := by
  cases performs with
  | @submit call d payload submits =>
    obtain ⟨submitted, phase⟩ := m.submitted_submit (ε := ε) d payload
    have kept := Outbox.wait?_congr submitted.outbox.1
    rw [wait?, wait?, phase, kept]
    exact Station.passes_rest _ time _ _ submitted.radio_eq
  | receive received => exact received.passes served _ time
  | poll polled => exact absurd rfl other
  | cancel seq => exact passes_cancel served _ time seq

end Acknowledged

end Link

end MoteLink
