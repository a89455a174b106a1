import Dvrft.Correlation
import Dvrft.Related

/-!
Correlation under a clock that is ahead. Only differences of times count, so the findings are
the same ones, as far ahead as the clock.
-/

namespace Dvrft.ClockShift

open Machine Correlation Related

/-- The same record under a clock that is `d` seconds ahead, as far as the findings rest on
it. What the clock writes for its times may be any text; `T` is what is known of the texts. -/
structure Ahead (d : ℕ) (T : String → String → Prop) (r r' : RecordInput) : Prop where
  blockIndex : r.blockIndex = r'.blockIndex
  channelId : r.channelId = r'.channelId
  timestamp : r.timestamp.toNat + d = r'.timestamp.toNat
  text : T r.normalizedTimestamp r'.normalizedTimestamp
  sequenceNum : r.sequenceNum = r'.sequenceNum
  isKeyframe : r.isKeyframe = r'.isKeyframe
  isCorrupted : r.isCorrupted = r'.isCorrupted

/-- The same record under a clock that is ahead. -/
structure RecordAhead (d : ℕ) (T : String → String → Prop) (r r' : RecordInput) : Prop
    extends Ahead d T r r' where
  byteOffset : r.byteOffset = r'.byteOffset
  isScrambled : r.isScrambled = r'.isScrambled
  descrambled : r.descrambled = r'.descrambled

/-- The same record at the same place of the timeline. -/
structure EventAhead (d : ℕ) (T : String → String → Prop) (e e' : TimelineEvent) : Prop
    extends RecordAhead d T e.toRecordInput e'.toRecordInput where
  sequenceOrder : e.sequenceOrder = e'.sequenceOrder

structure TransitionAhead (d : ℕ) (T : String → String → Prop) (t t' : CrossCameraTransition) :
    Prop where
  fromChannel : t.fromChannel = t'.fromChannel
  toChannel : t.toChannel = t'.toChannel
  fromTimestamp : t.fromTimestamp.toNat + d = t'.fromTimestamp.toNat
  toTimestamp : t.toTimestamp.toNat + d = t'.toTimestamp.toNat
  fromText : T t.fromNormalizedTs t'.fromNormalizedTs
  toText : T t.toNormalizedTs t'.toNormalizedTs
  deltaSecs : t.deltaSecs = t'.deltaSecs
  fromBlockIndex : t.fromBlockIndex = t'.fromBlockIndex
  toBlockIndex : t.toBlockIndex = t'.toBlockIndex
  confidence : t.confidence = t'.confidence

structure BlackoutAhead (d : ℕ) (T : String → String → Prop) (b b' : GlobalBlackoutAnomaly) :
    Prop where
  startTimestamp : b.startTimestamp.toNat + d = b'.startTimestamp.toNat
  endTimestamp : b.endTimestamp.toNat + d = b'.endTimestamp.toNat
  startText : T b.startNormalizedTs b'.startNormalizedTs
  endText : T b.endNormalizedTs b'.endNormalizedTs
  durationSecs : b.durationSecs = b'.durationSecs
  affectedChannels : b.affectedChannels = b'.affectedChannels
  severity : b.severity = b'.severity
  description : b.description = b'.description

variable {d : ℕ} {T : String → String → Prop}

theorem elapsed_ahead {start stop start' stop' : UInt64}
    (hstart : start.toNat + d = start'.toNat) (hstop : stop.toNat + d = stop'.toNat) :
    elapsed start stop = elapsed start' stop' := by
  unfold elapsed
  rw [← hstart, ← hstop, Nat.add_sub_add_right]

/-- Under the same clock and texts a finding is the same finding. -/
theorem TransitionAhead.eq {t t' : CrossCameraTransition} (h : TransitionAhead 0 (· = ·) t t') :
    t = t' := by
  obtain ⟨h₁, h₂, hfrom, hto, h₃, h₄, h₅, h₆, h₇, h₈⟩ := h
  cases t
  cases t'
  simp only [Nat.add_zero, UInt64.toNat_inj] at hfrom hto
  dsimp only at h₁ h₂ h₃ h₄ h₅ h₆ h₇ h₈
  subst h₁ h₂ hfrom hto h₃ h₄ h₅ h₆ h₇ h₈
  rfl

theorem BlackoutAhead.eq {b b' : GlobalBlackoutAnomaly} (h : BlackoutAhead 0 (· = ·) b b') :
    b = b' := by
  obtain ⟨hstart, hend, h₁, h₂, h₃, h₄, h₅, h₆⟩ := h
  cases b
  cases b'
  simp only [Nat.add_zero, UInt64.toNat_inj] at hstart hend
  dsimp only at h₁ h₂ h₃ h₄ h₅ h₆
  subst hstart hend h₁ h₂ h₃ h₄ h₅ h₆
  rfl

theorem precedes_ahead (a b a' b' : RecordInput) (ha : Ahead d T a b) (hb : Ahead d T a' b') :
    precedes a a' ↔ precedes b b' := by
  have hfirst : ∀ (n m : ℕ) (k k' : ℕ ×ₗ ℕ ×ₗ ℕ),
      toLex (n, k) ≤ toLex (m, k') ↔ toLex (n + d, k) ≤ toLex (m + d, k') := by
    intro n m k k'
    simp only [Prod.Lex.toLex_le_toLex, Nat.add_lt_add_iff_right, Nat.add_right_cancel_iff]
  unfold precedes sortKey
  rw [hfirst, ha.timestamp, hb.timestamp, ha.channelId, hb.channelId, ha.sequenceNum,
    hb.sequenceNum, ha.blockIndex, hb.blockIndex]

/-- The events of a transition, as far as it rests on them. -/
def Follows (d : ℕ) (T : String → String → Prop) (e e' : TimelineEvent) : Prop :=
  Ahead d T e.toRecordInput e'.toRecordInput

theorem mergeTimeline_related {R : RecordInput → RecordInput → Prop}
    (hahead : ∀ r r', R r r' → Ahead d T r r') {records records' : List RecordInput}
    (h : List.Forall₂ R records records') :
    List.Forall₂ (fun e e' => R e.toRecordInput e'.toRecordInput ∧
      e.sequenceOrder = e'.sequenceOrder) (mergeTimeline records) (mergeTimeline records') := by
  have hsorted := Related.insertionSort
    (fun a b a' b' ha hb => precedes_ahead a b a' b' (hahead _ _ ha) (hahead _ _ hb)) h
  unfold mergeTimeline
  rw [List.forall₂_map_left_iff, List.forall₂_map_right_iff]
  exact (Related.zipIdx hsorted 0).imp fun p q hpq => ⟨hpq.1, congrArg (· + 1) hpq.2⟩

theorem mergeTimeline_ahead {records records' : List RecordInput}
    (h : List.Forall₂ (Ahead d T) records records') :
    List.Forall₂ (Follows d T) (mergeTimeline records) (mergeTimeline records') :=
  (mergeTimeline_related (fun _ _ hr => hr) h).imp fun _ _ he => he.1

theorem eligible_ahead (r r' : RecordInput) (h : Ahead d T r r') : eligible r = eligible r' := by
  unfold eligible
  rw [h.isCorrupted, h.channelId]

theorem transition_ahead {a b a' b' : TimelineEvent} (ha : Follows d T a a')
    (hb : Follows d T b b') (maxWindowSecs : ℤ) :
    TransitionAhead d T (transition maxWindowSecs a b) (transition maxWindowSecs a' b') := by
  have hdelta := elapsed_ahead ha.timestamp hb.timestamp
  refine ⟨ha.channelId, hb.channelId, ha.timestamp, hb.timestamp, ha.text, hb.text, hdelta,
    ha.blockIndex, hb.blockIndex, ?_⟩
  unfold transition transitionConfidence
  dsimp only
  rw [hdelta, ha.isKeyframe, hb.isKeyframe]

theorem transitionsFrom_ahead {a a' : TimelineEvent} (ha : Follows d T a a')
    {events events' : List TimelineEvent} (h : List.Forall₂ (Follows d T) events events')
    (maxWindowSecs : ℤ) : List.Forall₂ (TransitionAhead d T)
      (transitionsFrom maxWindowSecs a events) (transitionsFrom maxWindowSecs a' events') := by
  induction h with
  | nil => exact .nil
  | @cons b b' rest rest' hb _ ih =>
    have hlt : b.timestamp < a.timestamp ↔ b'.timestamp < a'.timestamp := by
      rw [UInt64.lt_iff_toNat_lt, UInt64.lt_iff_toNat_lt, ← ha.timestamp, ← hb.timestamp,
        Nat.add_lt_add_iff_right]
    have hdelta := elapsed_ahead ha.timestamp hb.timestamp
    unfold transitionsFrom
    dsimp only
    rw [← hdelta, ← ha.channelId, ← hb.channelId]
    by_cases hbefore : b.timestamp < a.timestamp
    · rw [if_pos hbefore, if_pos (hlt.mp hbefore)]
      exact ih
    · rw [if_neg hbefore, if_neg fun h => hbefore (hlt.mpr h)]
      split_ifs
      · exact .nil
      · exact .cons (transition_ahead ha hb maxWindowSecs) ih
      · exact ih

theorem allTransitions_ahead {events events' : List TimelineEvent}
    (h : List.Forall₂ (Follows d T) events events') (maxWindowSecs : ℤ) :
    List.Forall₂ (TransitionAhead d T) (allTransitions maxWindowSecs events)
      (allTransitions maxWindowSecs events') := by
  induction h with
  | nil => exact .nil
  | cons ha hrest ih =>
    exact List.rel_append (transitionsFrom_ahead ha hrest maxWindowSecs) ih

/-- The keys of transitions that correspond. -/
def KeyAhead (d : ℕ) (k k' : TransitionKey) : Prop :=
  k.1 = k'.1 ∧ k.2.1 = k'.2.1 ∧ k.2.2.1.toNat + d = k'.2.2.1.toNat ∧
    k.2.2.2.toNat + d = k'.2.2.2.toNat

theorem biUnique_keyAhead (d : ℕ) : Relator.BiUnique (KeyAhead d) := by
  constructor
  · rintro ⟨c₁, c₂, t₁, t₂⟩ ⟨c₁', c₂', t₁', t₂'⟩ k ⟨h₁, h₂, h₃, h₄⟩ ⟨h₁', h₂', h₃', h₄'⟩
    have ht₁ : t₁ = t₁' := UInt64.toNat_inj.mp (Nat.add_right_cancel (h₃.trans h₃'.symm))
    have ht₂ : t₂ = t₂' := UInt64.toNat_inj.mp (Nat.add_right_cancel (h₄.trans h₄'.symm))
    exact Prod.ext (h₁.trans h₁'.symm) (Prod.ext (h₂.trans h₂'.symm) (Prod.ext ht₁ ht₂))
  · rintro k ⟨c₁, c₂, t₁, t₂⟩ ⟨c₁', c₂', t₁', t₂'⟩ ⟨h₁, h₂, h₃, h₄⟩ ⟨h₁', h₂', h₃', h₄'⟩
    have ht₁ : t₁ = t₁' := UInt64.toNat_inj.mp (h₃.symm.trans h₃')
    have ht₂ : t₂ = t₂' := UInt64.toNat_inj.mp (h₄.symm.trans h₄')
    exact Prod.ext (h₁.symm.trans h₁') (Prod.ext (h₂.symm.trans h₂') (Prod.ext ht₁ ht₂))

theorem dedupe_ahead {ts ts' : List CrossCameraTransition}
    (h : List.Forall₂ (TransitionAhead d T) ts ts') {seen seen' : List TransitionKey}
    (hseen : List.Forall₂ (KeyAhead d) seen seen') :
    List.Forall₂ (TransitionAhead d T) (dedupe seen ts) (dedupe seen' ts') := by
  induction h generalizing seen seen' with
  | nil => exact .nil
  | @cons t t' rest rest' ht _ ih =>
    have hkey : KeyAhead d t.key t'.key :=
      ⟨ht.fromChannel, ht.toChannel, ht.fromTimestamp, ht.toTimestamp⟩
    have hmem : t.key ∈ seen ↔ t'.key ∈ seen' := List.rel_mem (biUnique_keyAhead d) hkey hseen
    unfold dedupe
    by_cases hold : t.key ∈ seen
    · rw [if_pos hold, if_pos (hmem.mp hold)]
      exact ih hseen
    · rw [if_neg hold, if_neg fun h => hold (hmem.mpr h)]
      exact .cons ht (ih (.cons hkey hseen))

theorem detectTransitions_ahead {timeline timeline' : List TimelineEvent}
    (h : List.Forall₂ (Follows d T) timeline timeline') (maxWindowSecs : ℤ) :
    List.Forall₂ (TransitionAhead d T) (detectTransitions timeline maxWindowSecs)
      (detectTransitions timeline' maxWindowSecs) := by
  unfold detectTransitions
  rw [h.length_eq]
  split_ifs
  · exact .nil
  · exact dedupe_ahead (allTransitions_ahead (Related.filter
      (fun e e' he => eligible_ahead _ _ he) h) maxWindowSecs) .nil

def StampAhead (d : ℕ) (T : String → String → Prop) (s s' : Stamp) : Prop :=
  s.1.toNat + d = s'.1.toNat ∧ T s.2 s'.2

theorem channelTimes_ahead {records records' : List RecordInput}
    (h : List.Forall₂ (Ahead d T) records records') (channel : UInt32) :
    List.Forall₂ (StampAhead d T) (channelTimes records channel)
      (channelTimes records' channel) := by
  unfold channelTimes
  refine Related.insertionSort (fun a b a' b' ha hb => ?_) ?_
  · unfold earlier
    rw [← ha.1, ← hb.1, Nat.add_le_add_iff_right]
  · rw [List.forall₂_map_left_iff, List.forall₂_map_right_iff]
    refine (Related.filter (fun r r' hr => ?_) h).imp fun r r' hr => ⟨hr.timestamp, hr.text⟩
    rw [eligible_ahead r r' hr, hr.channelId]

theorem allChannels_ahead {records records' : List RecordInput}
    (h : List.Forall₂ (Ahead d T) records records') :
    allChannels records = allChannels records' := by
  unfold allChannels
  rw [Related.map_eq (fun r r' hr => hr.channelId) (Related.filter eligible_ahead h)]

theorem silentBetween_ahead {records records' : List RecordInput}
    (h : List.Forall₂ (Ahead d T) records records') (primary : UInt32)
    {start stop start' stop' : UInt64} (hstart : start.toNat + d = start'.toNat)
    (hstop : stop.toNat + d = stop'.toNat) :
    silentBetween records primary start stop = silentBetween records' primary start' stop' := by
  unfold silentBetween
  rw [allChannels_ahead h]
  congr 1
  funext other
  congr 2
  refine Related.any_eq (fun t t' ht => ?_) (channelTimes_ahead h other)
  have hafter : start.toNat + 1 < t.1.toNat ↔ start'.toNat + 1 < t'.1.toNat := by
    rw [← hstart, ← ht.1]
    omega
  have hbefore : t.1.toNat < stop.toNat - 1 ↔ t'.1.toNat < stop'.toNat - 1 := by
    rw [← hstop, ← ht.1]
    omega
  rw [decide_eq_decide.mpr hafter, decide_eq_decide.mpr hbefore]

theorem detectGlobalBlackouts_ahead {records records' : List RecordInput}
    (h : List.Forall₂ (Ahead d T) records records') (minGapSecs : ℤ) :
    List.Forall₂ (BlackoutAhead d T) (detectGlobalBlackouts records minGapSecs)
      (detectGlobalBlackouts records' minGapSecs) := by
  have hnil : records = [] ↔ records' = [] := by
    rw [← List.length_eq_zero_iff, ← List.length_eq_zero_iff, h.length_eq]
  unfold detectGlobalBlackouts
  by_cases hnone : records = [] ∨ minGapSecs ≤ 0
  · rw [if_pos hnone, if_pos (hnone.imp hnil.mp id)]
    exact .nil
  · rw [if_neg hnone, if_neg fun hnone' => hnone (hnone'.imp hnil.mpr id), allChannels_ahead h]
    cases allChannels records' with
    | nil => exact .nil
    | cons primary others =>
      dsimp only
      rw [List.forall₂_map_left_iff, List.forall₂_map_right_iff]
      refine (Related.filter (fun p p' hp => ?_)
        (Related.zip_tail (channelTimes_ahead h primary))).imp fun p p' hp => ?_
      · rw [elapsed_ahead hp.1.1 hp.2.1, silentBetween_ahead h primary hp.1.1 hp.2.1]
      · have hgap := elapsed_ahead hp.1.1 hp.2.1
        refine ⟨hp.1.1, hp.2.1, hp.1.2, hp.2.2, hgap, rfl, ?_, ?_⟩
        · unfold blackout
          dsimp only
          rw [hgap]
        · unfold blackout
          dsimp only
          rw [hgap]

/-- A report under the one clock and under the other. Of no records both are one report. -/
structure ReportAhead (d : ℕ) (T : String → String → Prop) (report report' : CorrelationReport) :
    Prop where
  totalRecords : report.totalRecords = report'.totalRecords
  activeChannels : report.activeChannels = report'.activeChannels
  minTimestamp : 0 < report.totalRecords →
    report.minTimestamp.toNat + d = report'.minTimestamp.toNat
  maxTimestamp : 0 < report.totalRecords →
    report.maxTimestamp.toNat + d = report'.maxTimestamp.toNat
  minText : 0 < report.totalRecords → T report.minNormalizedTs report'.minNormalizedTs
  maxText : 0 < report.totalRecords → T report.maxNormalizedTs report'.maxNormalizedTs
  noRecords : report.totalRecords = 0 → report = report'
  timelineEvents : List.Forall₂ (EventAhead d T) report.timelineEvents report'.timelineEvents
  transitions : List.Forall₂ (TransitionAhead d T) report.transitions report'.transitions
  blackouts : List.Forall₂ (BlackoutAhead d T) report.blackouts report'.blackouts

theorem endOf_ahead {event event' : Option TimelineEvent}
    (h : Option.Rel (EventAhead d T) event event') (hsome : event.isSome) :
    StampAhead d T (endOf event) (endOf event') := by
  cases h with
  | none => cases hsome
  | some he => exact ⟨he.timestamp, he.text⟩

/-- A clock that is ahead, whatever texts it writes, changes nothing in the report but the
times, and these by as much as it is ahead. -/
theorem report_ahead {records records' : List RecordInput}
    (h : List.Forall₂ (RecordAhead d T) records records') (windowSecs blackoutGapSecs : ℤ) :
    ReportAhead d T (generateCorrelationReport records windowSecs blackoutGapSecs)
      (generateCorrelationReport records' windowSecs blackoutGapSecs) := by
  have hahead : List.Forall₂ (Ahead d T) records records' := h.imp fun _ _ hr => hr.toAhead
  have htimeline : List.Forall₂ (EventAhead d T) (mergeTimeline records)
      (mergeTimeline records') :=
    (mergeTimeline_related (fun _ _ hr => hr.toAhead) h).imp fun _ _ he => ⟨he.1, he.2⟩
  have hlength : (mergeTimeline records).length = records.length := by
    simp [mergeTimeline]
  have hfirst : 0 < records.length → StampAhead d T (endOf (mergeTimeline records).head?)
      (endOf (mergeTimeline records').head?) := by
    intro hpos
    apply endOf_ahead (Related.head? htimeline)
    rw [List.isSome_head?, ← List.length_pos_iff, hlength]
    exact hpos
  have hlast : 0 < records.length → StampAhead d T (endOf (mergeTimeline records).getLast?)
      (endOf (mergeTimeline records').getLast?) := by
    intro hpos
    apply endOf_ahead (Related.getLast? htimeline)
    rw [List.getLast?_isSome, ← List.length_pos_iff, hlength]
    exact hpos
  have hchannels := Related.map_eq (f := RecordInput.channelId) (g := RecordInput.channelId)
    (fun r r' hr => hr.channelId) (Related.filter (p := fun r => decide (0 < r.channelId))
      (q := fun r => decide (0 < r.channelId)) (fun r r' hr => by rw [hr.channelId]) hahead)
  constructor
  case totalRecords => exact h.length_eq
  case activeChannels =>
    unfold generateCorrelationReport
    dsimp only
    rw [hchannels]
  case minTimestamp => exact fun hpos => (hfirst hpos).1
  case maxTimestamp => exact fun hpos => (hlast hpos).1
  case minText => exact fun hpos => (hfirst hpos).2
  case maxText => exact fun hpos => (hlast hpos).2
  case noRecords =>
    intro hnone
    obtain rfl : records = [] := List.length_eq_zero_iff.mp hnone
    obtain rfl : records' = [] := List.forall₂_nil_left_iff.mp h
    rfl
  case timelineEvents => exact htimeline
  case transitions =>
    exact detectTransitions_ahead (htimeline.imp fun _ _ he => he.toAhead) windowSecs
  case blackouts => exact detectGlobalBlackouts_ahead hahead blackoutGapSecs

/-- Two cameras, five seconds apart. -/
def passing (start : UInt64) (text : String) : List RecordInput :=
  [⟨0, 0, 1, start, text, 1, true, false, false, false⟩,
    ⟨1, 64, 2, start + 5, text, 1, true, true, true, false⟩]

theorem passing_ahead :
    List.Forall₂ (RecordAhead 3600 fun _ text' => text' = "later") (passing 100 "earlier")
      (passing 3700 "later") := by
  refine .cons ⟨⟨rfl, rfl, ?_, rfl, rfl, rfl, rfl⟩, rfl, rfl, rfl⟩
    (.cons ⟨⟨rfl, rfl, ?_, rfl, rfl, rfl, rfl⟩, rfl, rfl, rfl⟩ .nil)
  · decide
  · decide

theorem report_ahead_hour : ReportAhead 3600 (fun _ text' => text' = "later")
    (generateCorrelationReport (passing 100 "earlier") 10 15)
    (generateCorrelationReport (passing 3700 "later") 10 15) := report_ahead passing_ahead 10 15

end Dvrft.ClockShift
