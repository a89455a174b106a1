import Dvrft.Blackouts
import Dvrft.Timeline
import Mathlib.Data.List.Dedup

/-!
The alerts of a report against the distinct times of its records. There is one
for each two neighbouring times that are too far apart. The duration it reports
is their difference unless that leaves the signed range.
-/

namespace Dvrft.GapAlerts

open Machine Correlation Blackouts Timestamps Interpreter Database Timeline

def recordTime (r : ExtractedRecord) : ℕ := r.timestamp.toNat

/-- The times that some record carries, each once and in order. -/
def distinctTimes (records : List ExtractedRecord) : List ℕ :=
  ((records.map recordTime).filter (0 < ·)).dedup.insertionSort (· ≤ ·)

/-- Neighbouring times that are more than the threshold apart. -/
def gaps (records : List ExtractedRecord) (maxExpectedGapSecs : UInt64) : List (ℕ × ℕ) :=
  (consecutive (distinctTimes records)).filter fun p =>
    decide (maxExpectedGapSecs.toNat < p.2 - p.1)

/-- The alert names a record of each end. -/
def Between (records : List ExtractedRecord) (p : ℕ × ℕ) (alert : DiscontinuityAlert) : Prop :=
  ∃ a ∈ records, ∃ b ∈ records, recordTime a = p.1 ∧ recordTime b = p.2 ∧
    alert.startTimestamp = a.normalizedTimestamp ∧ alert.endTimestamp = b.normalizedTimestamp ∧
    alert.affectedChannels = [a.channelId, b.channelId]

/-- One alert for each gap, in the order of time, and its duration is the gap. -/
def AlertsExact (records : List ExtractedRecord) (maxExpectedGapSecs : UInt64)
    (found : List DiscontinuityAlert) : Prop :=
  List.Forall₂ (fun p alert => Between records p alert ∧ alert.durationSecs = (p.2 - p.1 : ℕ))
    (gaps records maxExpectedGapSecs) found

section Distinct

variable {α β : Type}

theorem consecutive_map (f : α → β) (xs : List α) :
    consecutive (xs.map f) = (consecutive xs).map (Prod.map f f) := by
  rw [consecutive, consecutive, ← List.map_tail, List.zip_map]

/-- A sorted list without its repetitions begins with the same member. -/
theorem exists_dedup_cons {a : ℕ} {rest : List ℕ} (hsorted : (a :: rest).Pairwise (· ≤ ·)) :
    ∃ tail, (a :: rest).dedup = a :: tail := by
  induction rest with
  | nil => exact ⟨[], rfl⟩
  | cons b rest ih =>
    obtain ⟨ha, hrest⟩ := List.pairwise_cons.mp hsorted
    by_cases hmem : a ∈ b :: rest
    · have hba : b ≤ a := by
        rcases List.mem_cons.mp hmem with rfl | hmem
        · exact le_rfl
        · exact (List.pairwise_cons.mp hrest).1 a hmem
      obtain rfl : a = b := le_antisymm (ha b List.mem_cons_self) hba
      rw [List.dedup_cons_of_mem hmem]
      exact ih hrest
    · exact ⟨_, List.dedup_cons_of_notMem hmem⟩

/-- The neighbours that differ are the neighbours among the distinct members. -/
theorem filter_consecutive_eq {xs : List ℕ} (hsorted : xs.Pairwise (· ≤ ·)) :
    (consecutive xs).filter (fun p => decide (p.1 < p.2)) = consecutive xs.dedup := by
  induction xs with
  | nil => rfl
  | cons a rest ih =>
    cases rest with
    | nil => rfl
    | cons b rest =>
      obtain ⟨ha, hrest⟩ := List.pairwise_cons.mp hsorted
      have hab := ha b List.mem_cons_self
      rw [consecutive_cons_cons, List.filter_cons, ih hrest]
      by_cases hlt : a < b
      · have hnotMem : a ∉ b :: rest := by
          intro hmem
          rcases List.mem_cons.mp hmem with rfl | hmem
          · omega
          · have hba := (List.pairwise_cons.mp hrest).1 a hmem
            omega
        obtain ⟨tail, htail⟩ := exists_dedup_cons hrest
        rw [if_pos (decide_eq_true hlt), List.dedup_cons_of_notMem hnotMem, htail,
          consecutive_cons_cons]
      · obtain rfl : a = b := by omega
        rw [if_neg (by simp), List.dedup_cons_of_mem List.mem_cons_self]

theorem dedup_insertionSort (xs : List ℕ) :
    (xs.insertionSort (· ≤ ·)).dedup = xs.dedup.insertionSort (· ≤ ·) := by
  have hleft : (xs.insertionSort (· ≤ ·)).dedup.Pairwise (· ≤ ·) :=
    (List.pairwise_insertionSort (· ≤ ·) xs).sublist (List.dedup_sublist _)
  have hright := List.pairwise_insertionSort (· ≤ ·) xs.dedup
  have hperm : (xs.insertionSort (· ≤ ·)).dedup.Perm (xs.dedup.insertionSort (· ≤ ·)) :=
    ((List.perm_insertionSort (· ≤ ·) xs).dedup).trans
      (List.perm_insertionSort (· ≤ ·) xs.dedup).symm
  exact hperm.eq_of_pairwise' hleft hright

end Distinct

variable {records : List ExtractedRecord}

/-- The two ends of a gap that some neighbouring records leave. -/
def tooFar (maxExpectedGapSecs : UInt64) (p : ℕ × ℕ) : Bool :=
  decide (p.1 < p.2) && decide (maxExpectedGapSecs.toNat < p.2 - p.1)

theorem datedRecords_times (records : List ExtractedRecord) :
    (datedRecords records).map recordTime =
      ((records.map recordTime).filter (0 < ·)).insertionSort (· ≤ ·) := by
  have hpos : ∀ r : ExtractedRecord, decide (0 < r.timestamp) = decide (0 < recordTime r) :=
    fun r => decide_eq_decide.mpr UInt64.lt_iff_toNat_lt
  have hperm : ((datedRecords records).map recordTime).Perm
      ((records.map recordTime).filter (0 < ·)) := by
    rw [List.filter_map]
    exact ((List.perm_insertionSort recordPrecedes _).map recordTime).trans
      (.of_eq (congrArg _ (List.filter_congr fun r _ => hpos r)))
  have hleft : ((datedRecords records).map recordTime).Pairwise (· ≤ ·) :=
    List.pairwise_map.mpr (List.pairwise_insertionSort recordPrecedes _)
  exact (hperm.trans (List.perm_insertionSort (· ≤ ·) _).symm).eq_of_pairwise' hleft
    (List.pairwise_insertionSort (· ≤ ·) _)

/-- The gaps are the ends of the neighbouring dated records that are too far apart. -/
theorem gaps_eq (records : List ExtractedRecord) (maxExpectedGapSecs : UInt64) :
    gaps records maxExpectedGapSecs =
      ((consecutive (datedRecords records)).filter fun p =>
        tooFar maxExpectedGapSecs (recordTime p.1, recordTime p.2)).map
          (Prod.map recordTime recordTime) := by
  have htimes : distinctTimes records = ((datedRecords records).map recordTime).dedup := by
    rw [datedRecords_times, dedup_insertionSort]
    rfl
  have hsorted : ((datedRecords records).map recordTime).Pairwise (· ≤ ·) :=
    List.pairwise_map.mpr (List.pairwise_insertionSort recordPrecedes _)
  rw [gaps, htimes, ← filter_consecutive_eq hsorted, List.filter_filter, consecutive_map,
    List.filter_map]
  simp only [tooFar, Function.comp_def, Prod.map, Bool.and_comm]

theorem alerts_eq (records : List ExtractedRecord) (maxExpectedGapSecs : UInt64) :
    alerts records maxExpectedGapSecs =
      ((consecutive (datedRecords records)).filter fun p =>
        tooFar maxExpectedGapSecs (recordTime p.1, recordTime p.2)).map alertFor := rfl

theorem between_alertFor {p : ExtractedRecord × ExtractedRecord}
    (hp : p ∈ consecutive (datedRecords records)) :
    Between records (Prod.map recordTime recordTime p) (alertFor p) := by
  obtain ⟨hfirst, hsecond⟩ := mem_of_mem_consecutive hp
  exact ⟨p.1, (mem_datedRecords.mp hfirst).1, p.2, (mem_datedRecords.mp hsecond).1, rfl, rfl, rfl,
    rfl, rfl⟩

/-- The cast of a difference of two words keeps it below half of the range only. -/
theorem asI64_eq_iff {n : ℕ} (h : n < 2 ^ 64) : asI64 n = n ↔ n < 2 ^ 63 := by
  rcases asI64_cases h with ⟨hlow, heq⟩ | ⟨hhigh, heq⟩
  · exact iff_of_true heq hlow
  · rw [heq]
    omega

/-- There is one alert for each gap, so only the cast can go wrong. -/
theorem alertsExact_iff (records : List ExtractedRecord) (maxExpectedGapSecs : UInt64) :
    AlertsExact records maxExpectedGapSecs (alerts records maxExpectedGapSecs) ↔
      ∀ p ∈ gaps records maxExpectedGapSecs, asI64 (p.2 - p.1) = (p.2 - p.1 : ℕ) := by
  rw [AlertsExact, gaps_eq, alerts_eq, List.forall₂_map_left_iff, List.forall₂_map_right_iff,
    List.forall₂_same]
  simp only [List.forall_mem_map]
  refine forall₂_congr fun p hp => ?_
  exact and_iff_right (between_alertFor (List.mem_of_mem_filter hp))

theorem lt_of_mem_gaps {maxExpectedGapSecs : UInt64} {p : ℕ × ℕ}
    (hp : p ∈ gaps records maxExpectedGapSecs) : p.2 < 2 ^ 64 := by
  rw [gaps_eq] at hp
  obtain ⟨q, -, rfl⟩ := List.mem_map.mp hp
  exact q.2.timestamp.toNat_lt

/-- The alerts of a report are exact when and only when no gap is of `2 ^ 63` seconds
or more. -/
theorem reconstructTimeline_alertsExact_iff (records : List ExtractedRecord)
    (carved : List CarvedFrame) (events : List CorrelatedDbEvent)
    (analytics : List AnalyticsDbDetection) (maxExpectedGapSecs : UInt64) :
    AlertsExact records maxExpectedGapSecs
        (reconstructTimeline records carved events analytics maxExpectedGapSecs).2 ↔
      ∀ p ∈ gaps records maxExpectedGapSecs, p.2 - p.1 < 2 ^ 63 := by
  refine (alertsExact_iff records maxExpectedGapSecs).trans (forall₂_congr fun p hp => ?_)
  exact asI64_eq_iff ((Nat.sub_le _ _).trans_lt (lt_of_mem_gaps hp))

def farRecord (timestamp : UInt64) : ExtractedRecord where
  blockIndex := 1
  byteOffset := 4096
  channelId := 1
  timestamp := timestamp
  normalizedTimestamp := sentinel
  sequenceNum := 1
  payloadOffset := 64
  payloadLen := 4032
  flags := 0
  isScrambled := false
  isCorrupted := false
  blockType := "video_frame"
  blake3Hash := ""
  descrambled := false
  descrambledBlake3Hash := none

/-- A gap of half the range is reported with a negative duration. -/
theorem reconstructTimeline_not_alertsExact :
    ¬ AlertsExact [farRecord 1, farRecord 0x8000000000000001] 60
      (reconstructTimeline [farRecord 1, farRecord 0x8000000000000001] [] [] [] 60).2 := by
  intro hexact
  have hgap : (1, 0x8000000000000001) ∈ gaps [farRecord 1, farRecord 0x8000000000000001] 60 := by
    decide
  exact absurd ((alertsExact_iff _ _).mp hexact _ hgap) (by decide)

end Dvrft.GapAlerts
