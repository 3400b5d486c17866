import MoteLink.Proofs.Link.TimeSlot
import MoteLink.Radio.Recorder

/-!
# Recordings

A recording is a run of a link whose radio is under observation. The medium may do to the observed
radio whatever it likes, but it does not touch the record: what stands there is what the link has
had transmitted, in order. Of the station's operations only transmitting adds to it.
-/

namespace MoteLink

namespace Link

variable {ρ γ ε : Type} [Transceiver ρ ε]

omit [Transceiver ρ ε] in
theorem isOk_map {α β : Type} (f : α → β) (outcome : Except ε α) :
    (outcome.map f).isOk = outcome.isOk := by
  cases outcome <;> rfl

namespace Station

variable {s s' : Station (Recorder ρ) γ}

/-- What the radio was asked to transmit. -/
def record (s : Station (Recorder ρ) γ) : List Transmission := s.radio.record

omit [Transceiver ρ ε] in
theorem isOk_onRadio {α : Type} (s : Station ρ γ) (request : ρ → Except ε α × ρ) :
    (s.onRadio request).1.isOk = (request s.radio).1.isOk := by
  unfold onRadio
  dsimp only
  cases (request s.radio).1 <;> rfl

/-- The station is told what the radio answers. -/
theorem isOk_transmit (s : Station ρ γ) {d : Descriptor} (sound : d.layoutError? = none)
    (payload : Bytes) : (s.transmit (ε := ε) d payload).1.isOk =
      (Transceiver.send (ε := ε) s.radio d.headerBytes payload).1.isOk := by
  have encoded := Descriptor.encodeWithin_eq_ok_iff.mpr
    ⟨sound, Descriptor.length_headerBytes_le sound, rfl⟩
  simp only [transmit, encoded, isOk_map]
  exact s.isOk_onRadio (ε := ε) fun r => Transceiver.send r d.headerBytes payload

/-- A packet that can be laid out is written down behind its header. -/
theorem record_of_transmit {d : Descriptor} {payload : Bytes} {result : Except (LinkError ε) Nat}
    (sound : d.layoutError? = none) (sent : s.transmit d payload = (result, s')) :
    s'.record = s.record ++ [⟨d.headerBytes, payload, result.isOk⟩] := by
  have told := s.isOk_transmit (ε := ε) sound payload
  have radio := s.radio_transmit (ε := ε) sound payload
  have written := Recorder.record_send (ε := ε) s.radio d.headerBytes payload
  rw [← told, ← radio, sent] at written
  exact written

/-- An answer that can be laid out is written down. -/
theorem record_sendAck {d : Descriptor} (sound : (s.ackFor d).layoutError? = none) :
    (s.sendAck (ε := ε) d).2.record = s.record ++ [⟨(s.ackFor d).headerBytes, [],
      (Transceiver.send (ε := ε) s.radio (s.ackFor d).headerBytes []).1.isOk⟩] := by
  have radio := s.radio_transmit (ε := ε) sound []
  have written := Recorder.record_send (ε := ε) s.radio (s.ackFor d).headerBytes []
  rw [← radio] at written
  exact written

omit [Transceiver ρ ε] in
theorem record_of_prepare {d : Descriptor} {payload : Bytes}
    {prepared : Except (LinkError ε) Packet} (checked : s.prepare d payload = (prepared, s')) :
    s'.record = s.record := by
  obtain ⟨seq, counted⟩ := s.station_prepare (ε := ε) d payload
  rw [checked] at counted
  rw [show s' = { s with seq } from counted]
  rfl

theorem record_of_channelClear {answer : Except (LinkError ε) Bool}
    (heard : s.channelClear = (answer, s')) : s'.record = s.record := by
  have kept : (s.channelClear (ε := ε)).2.record = s.record :=
    Recorder.record_channelClear (ε := ε) s.radio
  rwa [heard] at kept

variable [RandomSource γ] {busy : UInt8} {expiry now : Tick}

omit [Transceiver ρ ε] in
theorem record_of_firstBackoff (drawn : s.firstBackoff now = .ok (expiry, s')) :
    s'.record = s.record :=
  congrArg Recorder.record (radio_of_firstBackoff drawn)

omit [Transceiver ρ ε] in
theorem record_of_backOffAgain {access : Access}
    (again : s.backOffAgain busy now = .ok (access, s')) : s'.record = s.record :=
  congrArg Recorder.record (radio_of_backOffAgain again)

/-- Listening to the channel transmits nothing. -/
theorem Sensed.record_eq {answer : Except (LinkError ε) Access}
    (sensed : Sensed s expiry busy now answer s') : s'.record = s.record := by
  cases sensed with
  | early => rfl
  | deaf passed heard => exact record_of_channelClear heard
  | clear passed heard => exact record_of_channelClear heard
  | regardless passed heard => exact record_of_channelClear heard
  | again passed heard left drawn =>
    exact (record_of_backOffAgain drawn).trans (record_of_channelClear heard)

end Station

/-- The link's radio has been asked to transmit this. -/
def record (link : Link (Recorder ρ) γ) : List Transmission := link.station.record

variable [RandomSource γ]

/-- The link comes from `start` by the calls of the history, oldest first, and each call has found
    the record as the call before has left it. -/
inductive Recording (start : Link (Recorder ρ) γ) :
    List (Event (Recorder ρ) ε) → Link (Recorder ρ) γ → Prop
  | start : Recording start [] start
  | call {history : List (Event (Recorder ρ) ε)} {link after : Link (Recorder ρ) γ}
      (event : Event (Recorder ρ) ε) (recording : Recording start history link)
      (untouched : event.radio.record = link.record)
      (performed : (link.setRadio event.radio).perform event.now event.call =
        .ok (event.answer, after)) : Recording start (history ++ [event]) after

theorem Recording.run {start link : Link (Recorder ρ) γ} {history : List (Event (Recorder ρ) ε)}
    (recording : Recording start history link) : Run start history link := by
  induction recording with
  | start => exact .start
  | call event recording untouched performed ih => exact ih.call event performed

/-- The calls of a run, made of a link whose radio is under observation. -/
def observed (calls : List (Tick × (ρ → ρ) × Call)) :
    List (Tick × (Recorder ρ → Recorder ρ) × Call) :=
  calls.map fun entry => (entry.1, Recorder.disturb entry.2.1, entry.2.2)

theorem Recording.append_replay {start link last : Link (Recorder ρ) γ}
    {before after : List (Event (Recorder ρ) ε)} {calls : List (Tick × (ρ → ρ) × Call)}
    (recording : Recording start before link)
    (replayed : link.replay (observed calls) = .ok (after, last)) :
    Recording start (before ++ after) last := by
  induction calls generalizing before after link with
  | nil =>
    cases replayed
    rw [List.append_nil]
    exact recording
  | cons first rest ih =>
    obtain ⟨now, medium, what⟩ := first
    rw [observed, List.map_cons, replay] at replayed
    split at replayed <;> rename_i performed
    · cases replayed
    · split at replayed <;> rename_i later
      · cases replayed
      · cases replayed
        have next := recording.call ⟨now, Recorder.disturb medium link.radio, what, _⟩ rfl performed
        have longer := ih next later
        rwa [List.append_assoc] at longer

theorem recording_of_replay {start last : Link (Recorder ρ) γ}
    {history : List (Event (Recorder ρ) ε)} (calls : List (Tick × (ρ → ρ) × Call))
    (replayed : start.replay (observed calls) = .ok (history, last)) :
    Recording start history last :=
  Recording.append_replay .start replayed

end Link

end MoteLink
