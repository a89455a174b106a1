import Dvrft.Database
import Dvrft.Texts
import Mathlib.Data.List.Infix
import Mathlib.Data.String.Basic

/-!
The timeline of a report: records, carved frames, correlated events and analytics
leads in one list, and an alert for every gap between neighbouring dated records
that is longer than expected. The texts that only describe an entry are left out.
-/

namespace Dvrft.Timeline

open Machine Texts Correlation Interpreter Database

structure TimelineEntry where
  timestamp : UInt64
  normalizedTimestamp : String
  channelId : Option UInt32
  entryType : String
  flagged : Bool
  deriving DecidableEq, Repr

structure DiscontinuityAlert where
  startTimestamp : String
  endTimestamp : String
  durationSecs : ℤ
  affectedChannels : List UInt32
  severity : String
  description : String
  deriving DecidableEq, Repr

def recordEntry (r : ExtractedRecord) : TimelineEntry :=
  ⟨r.timestamp, r.normalizedTimestamp, some r.channelId, "video_frame",
    r.isCorrupted || (r.isScrambled && !r.descrambled)⟩

def carvedEntry (_ : CarvedFrame) : TimelineEntry :=
  ⟨0, "CARVED_UNINDEXED", none, "carved_frame", true⟩

def eventEntry (e : CorrelatedDbEvent) : TimelineEntry :=
  ⟨0, e.startTimestamp, none, "correlated_" ++ e.eventType,
    textContains e.eventType "blackout" || decide (0.90 ≤ e.confidence)⟩

def analyticsEntry (a : AnalyticsDbDetection) : TimelineEntry :=
  ⟨a.timestamp, a.normalizedTimestamp, some a.channelId, "analytics_lead",
    decide (0.75 ≤ a.relevanceScore)⟩

/-- Undated entries come last; equal times are ordered by their texts. -/
def entryKey (e : TimelineEntry) : ℕ ×ₗ String :=
  toLex (if 0 < e.timestamp then e.timestamp.toNat else 2 ^ 64 - 1, e.normalizedTimestamp)

def entryPrecedes (a b : TimelineEntry) : Prop := entryKey a ≤ entryKey b

instance : DecidableRel entryPrecedes :=
  fun a b => inferInstanceAs (Decidable (entryKey a ≤ entryKey b))

instance : Std.Total entryPrecedes := ⟨fun a b => le_total (entryKey a) (entryKey b)⟩

instance : IsTrans TimelineEntry entryPrecedes := ⟨fun _ _ _ => le_trans⟩

def recordPrecedes (a b : ExtractedRecord) : Prop := a.timestamp.toNat ≤ b.timestamp.toNat

instance : DecidableRel recordPrecedes :=
  fun a b => inferInstanceAs (Decidable (a.timestamp.toNat ≤ b.timestamp.toNat))

instance : Std.Total recordPrecedes := ⟨fun a b => le_total a.timestamp.toNat b.timestamp.toNat⟩

instance : IsTrans ExtractedRecord recordPrecedes := ⟨fun _ _ _ => le_trans⟩

/-- The records with a time, in its order. -/
def datedRecords (records : List ExtractedRecord) : List ExtractedRecord :=
  (records.filter (0 < ·.timestamp)).insertionSort recordPrecedes

def alertFor (p : ExtractedRecord × ExtractedRecord) : DiscontinuityAlert :=
  let prev := p.1
  let curr := p.2
  let delta := curr.timestamp.toNat - prev.timestamp.toNat
  { startTimestamp := prev.normalizedTimestamp
    endTimestamp := curr.normalizedTimestamp
    durationSecs := asI64 delta
    affectedChannels := [prev.channelId, curr.channelId]
    severity := if 60 < delta then "CRITICAL" else if 30 < delta then "HIGH" else "MEDIUM"
    description := s!"Recording gap of {delta}s detected between {prev.normalizedTimestamp} " ++
      s!"and {curr.normalizedTimestamp} (CH {prev.channelId} -> CH {curr.channelId})" }

def alerts (records : List ExtractedRecord) (maxExpectedGapSecs : UInt64) :
    List DiscontinuityAlert :=
  ((consecutive (datedRecords records)).filter fun p =>
    decide (p.1.timestamp < p.2.timestamp) &&
      decide (maxExpectedGapSecs.toNat < p.2.timestamp.toNat - p.1.timestamp.toNat)).map alertFor

def reconstructTimeline (records : List ExtractedRecord) (carved : List CarvedFrame)
    (events : List CorrelatedDbEvent) (analytics : List AnalyticsDbDetection)
    (maxExpectedGapSecs : UInt64) : List TimelineEntry × List DiscontinuityAlert :=
  let entries := records.map recordEntry ++ carved.map carvedEntry ++ events.map eventEntry ++
    (analytics.filter fun a => decide (0.50 ≤ a.relevanceScore)).map analyticsEntry
  (entries.insertionSort entryPrecedes, alerts records maxExpectedGapSecs)

theorem mem_datedRecords {records : List ExtractedRecord} {r : ExtractedRecord} :
    r ∈ datedRecords records ↔ r ∈ records ∧ 0 < r.timestamp := by
  rw [datedRecords, (List.perm_insertionSort recordPrecedes _).mem_iff, List.mem_filter]
  simp

/-- There is an alert for each two neighbouring dated records that are too far apart. -/
theorem mem_alerts {records : List ExtractedRecord} {maxExpectedGapSecs : UInt64}
    {alert : DiscontinuityAlert} :
    alert ∈ alerts records maxExpectedGapSecs ↔
      ∃ p ∈ consecutive (datedRecords records),
        maxExpectedGapSecs.toNat < p.2.timestamp.toNat - p.1.timestamp.toNat ∧
        alertFor p = alert := by
  simp only [alerts, List.mem_map, List.mem_filter, Bool.and_eq_true, decide_eq_true_eq,
    UInt64.lt_iff_toNat_lt, and_assoc]
  refine exists_congr fun p => and_congr_right fun _ => ?_
  constructor
  · rintro ⟨-, hfar, halert⟩
    exact ⟨hfar, halert⟩
  · rintro ⟨hfar, halert⟩
    exact ⟨by omega, hfar, halert⟩

end Dvrft.Timeline
