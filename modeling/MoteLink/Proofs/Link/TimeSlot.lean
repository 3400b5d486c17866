import MoteLink.Proofs.Header.RoundTrip
import MoteLink.Proofs.Link.Run
import MoteLink.Proofs.Link.Station

/-!
# Calls of a time-slot link

What a submission stores and what a release does to the packet that waits. No call changes the
configuration.
-/

namespace MoteLink

namespace Link

variable {ρ γ ε : Type} {now : Tick} {p : Packet}

/-- A packet that can be laid out is handed to the radio behind its header. -/
theorem Station.radio_transmit [Transceiver ρ ε] (s : Station ρ γ) {d : Descriptor}
    (sound : d.layoutError? = none) (payload : Bytes) :
    (s.transmit d payload).2.radio = (Transceiver.send s.radio d.headerBytes payload).2 := by
  have encoded := Descriptor.encodeWithin_eq_ok_iff.mpr
    ⟨sound, Descriptor.length_headerBytes_le sound, rfl⟩
  simp only [transmit, encoded]
  rfl

namespace TimeSlot

variable {m : TimeSlot ρ γ}

theorem submit_eq_ok {d : Descriptor} {payload : Bytes} {seq : UInt8} {m' : TimeSlot ρ γ}
    (submitted : m.submit (ε := ε) d payload = (.ok seq, m')) :
    ∃ p station, m.station.prepare (ε := ε) d payload = (.ok p, station) ∧
      m' = { station, pending := some p } := by
  unfold submit at submitted
  split at submitted
  · cases submitted
  · split at submitted <;> rename_i prepared
    · cases submitted
    · cases submitted
      exact ⟨_, _, prepared, rfl⟩

theorem config_submit (m : TimeSlot ρ γ) (d : Descriptor) (payload : Bytes) :
    (m.submit (ε := ε) d payload).2.station.config = m.station.config := by
  unfold submit
  split
  · rfl
  · split <;> rename_i prepared
    · exact (Station.sameBooks_of_prepare prepared).1
    · exact (Station.sameBooks_of_prepare prepared).1

theorem station_cancel (m : TimeSlot ρ γ) (seq : UInt8) : (m.cancel seq).2.station = m.station := by
  unfold cancel
  split <;> rfl

variable [Transceiver ρ ε]

theorem release_of_early (waiting : m.pending = some p) (early : m.isReady p now = false) :
    m.release (ε := ε) now = m := by
  unfold release
  rw [waiting]
  simp [early]

theorem release_of_ready (waiting : m.pending = some p) (ready : m.isReady p now = true)
    (sound : p.descriptor.layoutError? = none) :
    (m.release (ε := ε) now).pending = none ∧ (m.release (ε := ε) now).station.radio =
      (Transceiver.send m.station.radio p.descriptor.headerBytes p.payload).2 := by
  have handed := m.station.radio_transmit (ε := ε) sound p.payload
  unfold release
  simp only [waiting, ready, ↓reduceIte]
  split <;> rename_i sent
  · rw [sent] at handed
    exact ⟨rfl, handed⟩
  · rw [sent] at handed
    exact ⟨rfl, handed⟩

theorem settings_release (m : TimeSlot ρ γ) (now : Tick) :
    (m.release (ε := ε) now).station.config = m.station.config ∧
      (m.release (ε := ε) now).station.seq = m.station.seq := by
  unfold release
  split
  · exact ⟨rfl, rfl⟩
  · split
    · split <;> rename_i sent
      · have same := Station.sameBooks_of_transmit sent
        exact ⟨same.config, same.seq⟩
      · have same := Station.sameBooks_of_transmit sent
        exact ⟨same.config, same.seq⟩
    · exact ⟨rfl, rfl⟩

/-- No call changes the method or the configuration of a time-slot link. -/
theorem config_of_perform [RandomSource γ] {call : Call} {answer : Answer ε} {after : Link ρ γ}
    (performed : (Link.timeSlot m).perform now call = .ok (answer, after)) :
    ∃ m' : TimeSlot ρ γ, after = .timeSlot m' ∧ m'.station.config = m.station.config := by
  cases call with
  | send dst payload =>
    cases performed
    exact ⟨_, rfl, m.config_submit (ε := ε) _ _⟩
  | submit d payload =>
    cases performed
    exact ⟨_, rfl, m.config_submit (ε := ε) _ _⟩
  | receive frame =>
    cases performed
    exact ⟨m, rfl, rfl⟩
  | poll =>
    cases performed
    exact ⟨_, rfl, (m.settings_release (ε := ε) now).1⟩
  | cancel seq =>
    cases performed
    exact ⟨_, rfl, congrArg Station.config (m.station_cancel seq)⟩

/-- All through a run a time-slot link keeps its method and its configuration. -/
theorem config_of_run [RandomSource γ] {capacity : Nat} {config : Config} {radio : ρ} {rng : γ}
    {history : List (Event ρ ε)} {link : Link ρ γ}
    (run : Run (.new .timeSlot capacity config radio rng) history link) :
    ∃ m, link = .timeSlot m ∧ m.station.config = config := by
  refine run.invariant (fun link => ∃ m, link = .timeSlot m ∧ m.station.config = config)
    ⟨_, rfl, rfl⟩ ?_ ?_
  · rintro _ radio ⟨m, rfl, same⟩
    exact ⟨_, rfl, same⟩
  · rintro _ now call answer after ⟨m, rfl, same⟩ performed
    obtain ⟨m', rfl, kept⟩ := config_of_perform performed
    exact ⟨m', rfl, kept.trans same⟩

end TimeSlot

end Link

end MoteLink
