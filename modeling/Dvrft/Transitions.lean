import Dvrft.Correlation

/-!
The transitions of a timeline, all of them and each once: two channels are connected
at two times exactly when uncorrupted records of theirs stand there and the second time
is later by no more than the window. Differences that do not fit a signed word are
beyond every window, and they wrap to negative ones.
-/

namespace Dvrft.Transitions

open Machine Correlation

/-- One transition for each key. -/
theorem nodup_key_dedupe (seen : List TransitionKey) (ts : List CrossCameraTransition) :
    ((dedupe seen ts).map CrossCameraTransition.key).Nodup := by
  induction ts generalizing seen with
  | nil => exact .nil
  | cons t rest ih =>
    rw [dedupe]
    split_ifs with hseen
    · exact ih seen
    · rw [List.map_cons]
      refine List.nodup_cons.mpr ⟨?_, ih (t.key :: seen)⟩
      intro hmem
      have hunseen := (exists_mem_dedupe.mp (List.mem_map.mp hmem)).1
      exact hunseen (by simp)

/-- The signed difference lies in a window exactly when the true one does. -/
theorem elapsed_window_iff {start stop : UInt64} {maxWindowSecs : ℤ}
    (hwindow : maxWindowSecs < 2 ^ 63) :
    0 < elapsed start stop ∧ elapsed start stop ≤ maxWindowSecs ↔
      0 < (stop.toNat : ℤ) - start.toNat ∧ (stop.toNat : ℤ) - start.toNat ≤ maxWindowSecs := by
  by_cases hfar : stop.toNat - start.toNat < 2 ^ 63
  · rw [elapsed_of_lt hfar]
    omega
  · have hneg := elapsed_neg (Nat.le_of_not_lt hfar)
    omega

theorem elapsed_eq_sub {start stop : UInt64} (h : 0 < elapsed start stop) :
    elapsed start stop = (stop.toNat : ℤ) - start.toNat := by
  have hlt := lt_of_elapsed_pos h
  have hfits : stop.toNat - start.toNat < 2 ^ 63 := by
    by_contra hfar
    have hneg := elapsed_neg (Nat.le_of_not_lt hfar)
    omega
  rw [elapsed_of_lt hfits]
  omega

/-- An uncorrupted record of a channel at a time. -/
def Recorded (records : List RecordInput) (channel : UInt32) (time : UInt64) : Prop :=
  ∃ r ∈ records, r.isCorrupted = false ∧ r.channelId = channel ∧ r.timestamp = time

theorem eligible_iff {r : RecordInput} : eligible r ↔ r.isCorrupted = false ∧ 0 < r.channelId := by
  simp [eligible]

/-- The keys of the transitions: none twice, and those of two channels that recorded
one after the other within the window. -/
theorem detectTransitions_exact (records : List RecordInput) (maxWindowSecs : Int64) :
    let transitions := detectTransitions (mergeTimeline records) maxWindowSecs.toInt
    (transitions.map CrossCameraTransition.key).Nodup ∧
      (∀ c₁ c₂ t₁ t₂, (c₁, c₂, t₁, t₂) ∈ transitions.map CrossCameraTransition.key ↔
        Recorded records c₁ t₁ ∧ Recorded records c₂ t₂ ∧ c₁ ≠ c₂ ∧ 0 < c₁ ∧ 0 < c₂ ∧
          0 < (t₂.toNat : ℤ) - t₁.toNat ∧ (t₂.toNat : ℤ) - t₁.toNat ≤ maxWindowSecs.toInt) ∧
      ∀ t ∈ transitions, t.deltaSecs = (t.toTimestamp.toNat : ℤ) - t.fromTimestamp.toNat := by
  intro transitions
  have hwindow : maxWindowSecs.toInt < 2 ^ 63 := maxWindowSecs.toInt_lt
  refine ⟨?_, ?_, ?_⟩
  · dsimp only [transitions]
    unfold detectTransitions
    split_ifs
    · exact .nil
    · exact nodup_key_dedupe [] _
  · intro c₁ c₂ t₁ t₂
    rw [List.mem_map]
    constructor
    · intro h
      obtain ⟨t, ht, hkey⟩ := h
      obtain ⟨a, ha, b, hb, heligibleA, heligibleB, hchannels, hkey', -, -, hdelta, hpositive,
        hwithin⟩ := detectTransitions_sound ht
      rw [hkey, Prod.mk.injEq, Prod.mk.injEq, Prod.mk.injEq] at hkey'
      obtain ⟨rfl, rfl, rfl, rfl⟩ := hkey'
      rw [eligible_iff] at heligibleA heligibleB
      rw [hdelta] at hpositive hwithin
      exact ⟨⟨a, ha, heligibleA.1, rfl, rfl⟩, ⟨b, hb, heligibleB.1, rfl, rfl⟩, hchannels,
        heligibleA.2, heligibleB.2, (elapsed_window_iff hwindow).mp ⟨hpositive, hwithin⟩⟩
    · intro h
      obtain ⟨⟨a, ha, hintactA, rfl, rfl⟩, ⟨b, hb, hintactB, rfl, rfl⟩, hchannels, hposA, hposB,
        hdelta⟩ := h
      have heligibleA := eligible_iff.mpr ⟨hintactA, hposA⟩
      have heligibleB := eligible_iff.mpr ⟨hintactB, hposB⟩
      apply (exists_transition_iff maxWindowSecs.toInt ha hb heligibleA heligibleB hchannels).mpr
      exact (elapsed_window_iff hwindow).mpr hdelta
  · intro t ht
    obtain ⟨a, -, b, -, -, -, -, hkey, -, -, hdelta, hpositive, -⟩ := detectTransitions_sound ht
    rw [CrossCameraTransition.key, Prod.mk.injEq, Prod.mk.injEq, Prod.mk.injEq] at hkey
    obtain ⟨-, -, hfrom, hto⟩ := hkey
    rw [hdelta] at hpositive
    rw [hdelta, elapsed_eq_sub hpositive, hfrom, hto]

end Dvrft.Transitions
