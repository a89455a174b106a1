import Dvrft.Machine
import Mathlib.Data.List.Sort
import Mathlib.Data.Prod.Lex

/-!
Correlation across cameras: one chronological timeline of all channels, the
transitions of activity between two of them within a window, and the outages that
all of them share. Times are the raw integers of the records; a difference of two
is taken as signed seconds.
-/

namespace Dvrft.Correlation

open Machine

structure RecordInput where
  blockIndex : ℕ
  byteOffset : ℕ
  channelId : UInt32
  timestamp : UInt64
  normalizedTimestamp : String
  sequenceNum : UInt32
  isKeyframe : Bool
  isScrambled : Bool
  descrambled : Bool
  isCorrupted : Bool
  deriving DecidableEq, Repr

/-- A record and its place in the timeline, counted from one. -/
structure TimelineEvent extends RecordInput where
  sequenceOrder : ℕ
  deriving DecidableEq, Repr

structure CrossCameraTransition where
  fromChannel : UInt32
  toChannel : UInt32
  fromTimestamp : UInt64
  toTimestamp : UInt64
  fromNormalizedTs : String
  toNormalizedTs : String
  deltaSecs : ℤ
  fromBlockIndex : ℕ
  toBlockIndex : ℕ
  confidence : Float

structure GlobalBlackoutAnomaly where
  startTimestamp : UInt64
  endTimestamp : UInt64
  startNormalizedTs : String
  endNormalizedTs : String
  durationSecs : ℤ
  affectedChannels : List UInt32
  severity : String
  description : String
  deriving DecidableEq, Repr

/-- `(stop - start) as i64`, for `start ≤ stop`. -/
def elapsed (start stop : UInt64) : ℤ := asI64 (stop.toNat - start.toNat)

theorem elapsed_of_lt {start stop : UInt64} (h : stop.toNat - start.toNat < 2 ^ 63) :
    elapsed start stop = (stop.toNat - start.toNat : ℕ) := asI64_of_lt h

theorem elapsed_lt (start stop : UInt64) : elapsed start stop < 2 ^ 63 := asI64_lt _

/-- A difference that does not fit wraps to a negative one. -/
theorem elapsed_neg {start stop : UInt64} (h : 2 ^ 63 ≤ stop.toNat - start.toNat) :
    elapsed start stop < 0 := by
  have hlt := stop.toNat_lt
  unfold elapsed asI64
  rw [Nat.mod_eq_of_lt (by omega), if_neg (by omega)]
  omega

theorem lt_of_elapsed_pos {start stop : UInt64} (h : 0 < elapsed start stop) :
    start.toNat < stop.toNat := by
  by_contra hle
  rw [elapsed, Nat.sub_eq_zero_of_le (not_lt.mp hle)] at h
  exact absurd h (by decide)

/-- Time, channel, sequence number, block. -/
def sortKey (r : RecordInput) : ℕ ×ₗ ℕ ×ₗ ℕ ×ₗ ℕ :=
  toLex (r.timestamp.toNat, toLex (r.channelId.toNat, toLex (r.sequenceNum.toNat, r.blockIndex)))

def precedes (a b : RecordInput) : Prop := sortKey a ≤ sortKey b

instance : DecidableRel precedes := fun a b => inferInstanceAs (Decidable (sortKey a ≤ sortKey b))

instance : Std.Total precedes := ⟨fun a b => le_total (sortKey a) (sortKey b)⟩

instance : IsTrans RecordInput precedes := ⟨fun _ _ _ => le_trans⟩

def mergeTimeline (records : List RecordInput) : List TimelineEvent :=
  (records.insertionSort precedes).zipIdx.map fun p => ⟨p.1, p.2 + 1⟩

theorem precedes_timestamp {a b : RecordInput} (h : precedes a b) :
    a.timestamp.toNat ≤ b.timestamp.toNat := by
  rcases Prod.Lex.le_iff.mp h with hlt | ⟨heq, -⟩
  · exact hlt.le
  · exact heq.le

theorem map_mergeTimeline (records : List RecordInput) :
    (mergeTimeline records).map TimelineEvent.toRecordInput = records.insertionSort precedes := by
  rw [mergeTimeline, List.map_map]
  exact List.zipIdx_map_fst 0 _

theorem mem_mergeTimeline {records : List RecordInput} {r : RecordInput} :
    (∃ e ∈ mergeTimeline records, e.toRecordInput = r) ↔ r ∈ records := by
  rw [← List.mem_map, map_mergeTimeline, (List.perm_insertionSort precedes records).mem_iff]

/-- The timeline is in the order of time. -/
theorem mergeTimeline_sorted (records : List RecordInput) :
    (mergeTimeline records).Pairwise fun a b => a.timestamp.toNat ≤ b.timestamp.toNat := by
  have hsorted := List.pairwise_insertionSort precedes records
  rw [← map_mergeTimeline, List.pairwise_map] at hsorted
  exact hsorted.imp precedes_timestamp

/-- An uncorrupted record of a channel. -/
def eligible (r : RecordInput) : Bool := !r.isCorrupted && decide (0 < r.channelId)

/-- `x.clamp(low, high)`. -/
def clamp (x low high : Float) : Float := if x < low then low else if high < x then high else x

/-- The closer in time and the more keyframes, the more confident. -/
def transitionConfidence (fromEvent toEvent : TimelineEvent) (delta maxWindowSecs : ℤ) : Float :=
  let timeFactor := 1.0 - (Float.ofInt delta / (Float.ofInt maxWindowSecs + 1.0)) * 0.4
  let keyframeBoost :=
    if fromEvent.isKeyframe && toEvent.isKeyframe then 0.10
    else if fromEvent.isKeyframe || toEvent.isKeyframe then 0.05
    else 0.0
  clamp (timeFactor + keyframeBoost) 0.50 0.99

def transition (maxWindowSecs : ℤ) (fromEvent toEvent : TimelineEvent) :
    CrossCameraTransition :=
  let delta := elapsed fromEvent.timestamp toEvent.timestamp
  { fromChannel := fromEvent.channelId
    toChannel := toEvent.channelId
    fromTimestamp := fromEvent.timestamp
    toTimestamp := toEvent.timestamp
    fromNormalizedTs := fromEvent.normalizedTimestamp
    toNormalizedTs := toEvent.normalizedTimestamp
    deltaSecs := delta
    fromBlockIndex := fromEvent.blockIndex
    toBlockIndex := toEvent.blockIndex
    confidence := transitionConfidence fromEvent toEvent delta maxWindowSecs }

/-- The transitions that one event begins, up to the first event out of its window. -/
def transitionsFrom (maxWindowSecs : ℤ) (fromEvent : TimelineEvent) :
    List TimelineEvent → List CrossCameraTransition
  | [] => []
  | toEvent :: rest =>
    if toEvent.timestamp < fromEvent.timestamp then transitionsFrom maxWindowSecs fromEvent rest
    else
      let delta := elapsed fromEvent.timestamp toEvent.timestamp
      if maxWindowSecs < delta then []
      else if fromEvent.channelId ≠ toEvent.channelId ∧ 0 < delta then
        transition maxWindowSecs fromEvent toEvent :: transitionsFrom maxWindowSecs fromEvent rest
      else transitionsFrom maxWindowSecs fromEvent rest

def allTransitions (maxWindowSecs : ℤ) : List TimelineEvent → List CrossCameraTransition
  | [] => []
  | fromEvent :: rest =>
    transitionsFrom maxWindowSecs fromEvent rest ++ allTransitions maxWindowSecs rest

abbrev TransitionKey := UInt32 × UInt32 × UInt64 × UInt64

def CrossCameraTransition.key (t : CrossCameraTransition) : TransitionKey :=
  (t.fromChannel, t.toChannel, t.fromTimestamp, t.toTimestamp)

/-- The first transition of each key. -/
def dedupe (seen : List TransitionKey) : List CrossCameraTransition → List CrossCameraTransition
  | [] => []
  | t :: rest =>
    if t.key ∈ seen then dedupe seen rest else t :: dedupe (t.key :: seen) rest

def detectTransitions (timeline : List TimelineEvent) (maxWindowSecs : ℤ) :
    List CrossCameraTransition :=
  if timeline.length < 2 ∨ maxWindowSecs ≤ 0 then []
  else dedupe [] (allTransitions maxWindowSecs (timeline.filter fun e => eligible e.toRecordInput))

/-- Two events make a transition when their channels differ and the second is
later by no more than the window. -/
def Connects (maxWindowSecs : ℤ) (fromEvent toEvent : TimelineEvent) : Prop :=
  fromEvent.channelId ≠ toEvent.channelId ∧
    0 < elapsed fromEvent.timestamp toEvent.timestamp ∧
    elapsed fromEvent.timestamp toEvent.timestamp ≤ maxWindowSecs

/-- Leaving at the first event out of the window loses nothing: later events are
farther away, and beyond the signed range their distance is negative. -/
theorem mem_transitionsFrom {maxWindowSecs : ℤ} {fromEvent : TimelineEvent}
    {events : List TimelineEvent} {t : CrossCameraTransition}
    (hsorted : (fromEvent :: events).Pairwise fun a b =>
      a.timestamp.toNat ≤ b.timestamp.toNat) :
    t ∈ transitionsFrom maxWindowSecs fromEvent events ↔
      ∃ toEvent ∈ events, Connects maxWindowSecs fromEvent toEvent ∧
        t = transition maxWindowSecs fromEvent toEvent := by
  induction events with
  | nil => simp [transitionsFrom]
  | cons toEvent rest ih =>
    obtain ⟨hfrom, hrest⟩ := List.pairwise_cons.mp hsorted
    have hle := hfrom toEvent (by simp)
    have ih := ih (List.pairwise_cons.mpr
      ⟨fun e he => hfrom e (by simp [he]), (List.pairwise_cons.mp hrest).2⟩)
    have hnot : ¬ toEvent.timestamp < fromEvent.timestamp := by
      rw [UInt64.lt_iff_toNat_lt]
      omega
    rw [transitionsFrom, if_neg hnot]
    dsimp only
    split_ifs with hout hconnects
    · -- out of the window, and so is everything after it
      refine iff_of_false (by simp) ?_
      rintro ⟨e, he, ⟨-, hpositive, hwithin⟩, -⟩
      have hlater : toEvent.timestamp.toNat ≤ e.timestamp.toNat := by
        rcases List.mem_cons.mp he with rfl | he
        · exact le_rfl
        · exact (List.pairwise_cons.mp hrest).1 e he
      have hfits : e.timestamp.toNat - fromEvent.timestamp.toNat < 2 ^ 63 := by
        by_contra hfar
        exact absurd (elapsed_neg (not_lt.mp hfar)) (by omega)
      rw [elapsed_of_lt hfits] at hwithin
      rw [elapsed_of_lt (by omega)] at hout
      omega
    · rw [List.mem_cons, ih]
      simp only [List.mem_cons, exists_eq_or_imp]
      refine or_congr_left ⟨fun h => ⟨⟨hconnects.1, hconnects.2, by omega⟩, h⟩, fun h => h.2⟩
    · rw [ih]
      simp only [List.mem_cons, exists_eq_or_imp]
      refine (or_iff_right ?_).symm
      rintro ⟨⟨hchannels, hpositive, -⟩, -⟩
      exact hconnects ⟨hchannels, hpositive⟩

theorem mem_allTransitions {maxWindowSecs : ℤ} {events : List TimelineEvent}
    {t : CrossCameraTransition}
    (hsorted : events.Pairwise fun a b => a.timestamp.toNat ≤ b.timestamp.toNat) :
    t ∈ allTransitions maxWindowSecs events ↔
      ∃ fromEvent ∈ events, ∃ toEvent ∈ events, Connects maxWindowSecs fromEvent toEvent ∧
        t = transition maxWindowSecs fromEvent toEvent := by
  induction events with
  | nil => simp [allTransitions]
  | cons head rest ih =>
    have hhead := (List.pairwise_cons.mp hsorted).1
    have hrest := ih (List.pairwise_cons.mp hsorted).2
    rw [allTransitions, List.mem_append, mem_transitionsFrom hsorted, hrest]
    constructor
    · rintro (⟨b, hb, h⟩ | ⟨a, ha, b, hb, h⟩)
      · exact ⟨head, by simp, b, by simp [hb], h⟩
      · exact ⟨a, by simp [ha], b, by simp [hb], h⟩
    · rintro ⟨a, ha, b, hb, hconnects, rfl⟩
      have hlt := lt_of_elapsed_pos hconnects.2.1
      rcases List.mem_cons.mp ha with rfl | hrestA <;>
        rcases List.mem_cons.mp hb with rfl | hrestB
      · omega
      · exact .inl ⟨b, hrestB, hconnects, rfl⟩
      · have hle := hhead a hrestA
        omega
      · exact .inr ⟨a, hrestA, b, hrestB, hconnects, rfl⟩

theorem mem_of_mem_dedupe {seen : List TransitionKey} {ts : List CrossCameraTransition}
    {t : CrossCameraTransition} (h : t ∈ dedupe seen ts) : t ∈ ts := by
  induction ts generalizing seen with
  | nil => exact h
  | cons head rest ih =>
    rw [dedupe] at h
    split_ifs at h
    · exact List.mem_cons_of_mem _ (ih h)
    · rcases List.mem_cons.mp h with rfl | h
      · simp
      · exact List.mem_cons_of_mem _ (ih h)

/-- A key that is there keeps a transition. -/
theorem exists_mem_dedupe {seen : List TransitionKey} {ts : List CrossCameraTransition}
    {k : TransitionKey} :
    (∃ t ∈ dedupe seen ts, t.key = k) ↔ k ∉ seen ∧ ∃ t ∈ ts, t.key = k := by
  induction ts generalizing seen with
  | nil => simp [dedupe]
  | cons head rest ih =>
    rw [dedupe]
    split_ifs with hseen
    · rw [ih]
      simp only [List.mem_cons, exists_eq_or_imp]
      refine and_congr_right fun hk => (or_iff_right ?_).symm
      rintro rfl
      exact hk hseen
    · simp only [List.mem_cons, exists_eq_or_imp, ih]
      rcases eq_or_ne head.key k with rfl | hne
      · simp [hseen]
      · simp [hne, hne.symm]

/-- A reported transition joins two eligible records of different channels; its
delta is what elapsed between them. -/
theorem detectTransitions_sound {records : List RecordInput} {maxWindowSecs : ℤ}
    {t : CrossCameraTransition} (h : t ∈ detectTransitions (mergeTimeline records) maxWindowSecs) :
    ∃ a ∈ records, ∃ b ∈ records, eligible a ∧ eligible b ∧ a.channelId ≠ b.channelId ∧
      t.key = (a.channelId, b.channelId, a.timestamp, b.timestamp) ∧
      t.fromNormalizedTs = a.normalizedTimestamp ∧ t.toNormalizedTs = b.normalizedTimestamp ∧
      t.deltaSecs = elapsed a.timestamp b.timestamp ∧ 0 < t.deltaSecs ∧
      t.deltaSecs ≤ maxWindowSecs := by
  unfold detectTransitions at h
  split_ifs at h with hnothing
  · simp at h
  · obtain ⟨a, ha, b, hb, ⟨hchannels, hpositive, hwithin⟩, rfl⟩ :=
      (mem_allTransitions ((mergeTimeline_sorted records).filter _)).mp (mem_of_mem_dedupe h)
    obtain ⟨ha, heligibleA⟩ := List.mem_filter.mp ha
    obtain ⟨hb, heligibleB⟩ := List.mem_filter.mp hb
    exact ⟨a.toRecordInput, mem_mergeTimeline.mp ⟨a, ha, rfl⟩, b.toRecordInput,
      mem_mergeTimeline.mp ⟨b, hb, rfl⟩, heligibleA, heligibleB, hchannels, rfl, rfl, rfl, rfl,
      hpositive, hwithin⟩

/-- Of two eligible records of different channels a transition is reported
exactly when what elapsed lies in the window. -/
theorem exists_transition_iff {records : List RecordInput} (maxWindowSecs : ℤ)
    {a b : RecordInput} (ha : a ∈ records) (hb : b ∈ records) (heligibleA : eligible a)
    (heligibleB : eligible b) (hchannels : a.channelId ≠ b.channelId) :
    (∃ t ∈ detectTransitions (mergeTimeline records) maxWindowSecs,
      t.key = (a.channelId, b.channelId, a.timestamp, b.timestamp)) ↔
      0 < elapsed a.timestamp b.timestamp ∧ elapsed a.timestamp b.timestamp ≤ maxWindowSecs := by
  constructor
  · rintro ⟨t, ht, hkey⟩
    obtain ⟨a', -, b', -, -, -, -, hkey', -, -, hdelta, hpositive, hwithin⟩ :=
      detectTransitions_sound ht
    obtain ⟨-, -, htimeA, htimeB⟩ := by simpa using hkey.symm.trans hkey'
    rw [htimeA, htimeB, ← hdelta]
    exact ⟨hpositive, hwithin⟩
  · rintro ⟨hpositive, hwithin⟩
    obtain ⟨eventA, hmemA, rfl⟩ := mem_mergeTimeline.mpr ha
    obtain ⟨eventB, hmemB, rfl⟩ := mem_mergeTimeline.mpr hb
    have htwo : ¬ ((mergeTimeline records).length < 2 ∨ maxWindowSecs ≤ 0) := by
      rintro (hshort | hwindow)
      · have hsame : eventA = eventB := by
          match hevents : mergeTimeline records, hshort with
          | [], _ => simp [hevents] at hmemA
          | [e], _ =>
            rw [hevents, List.mem_singleton] at hmemA hmemB
            rw [hmemA, hmemB]
        exact hchannels (by rw [hsame])
      · omega
    rw [detectTransitions, if_neg htwo, exists_mem_dedupe]
    refine ⟨by simp, transition maxWindowSecs eventA eventB, ?_, rfl⟩
    rw [mem_allTransitions ((mergeTimeline_sorted records).filter _)]
    exact ⟨eventA, List.mem_filter.mpr ⟨hmemA, heligibleA⟩, eventB,
      List.mem_filter.mpr ⟨hmemB, heligibleB⟩, ⟨hchannels, hpositive, hwithin⟩, rfl⟩

abbrev Stamp := UInt64 × String

def RecordInput.stamp (r : RecordInput) : Stamp := (r.timestamp, r.normalizedTimestamp)

def earlier (a b : Stamp) : Prop := a.1.toNat ≤ b.1.toNat

instance : DecidableRel earlier := fun a b => inferInstanceAs (Decidable (a.1.toNat ≤ b.1.toNat))

instance : Std.Total earlier := ⟨fun a b => le_total a.1.toNat b.1.toNat⟩

instance : IsTrans Stamp earlier := ⟨fun _ _ _ => le_trans⟩

/-- The times of a channel's eligible records, in order. -/
def channelTimes (records : List RecordInput) (channel : UInt32) : List Stamp :=
  ((records.filter fun r => eligible r && r.channelId == channel).map
    RecordInput.stamp).insertionSort earlier

/-- The channels with eligible records, smallest first. -/
def allChannels (records : List RecordInput) : List UInt32 :=
  (((records.filter eligible).map RecordInput.channelId).eraseDups).insertionSort (· ≤ ·)

/-- `xs.windows(2)`. -/
def consecutive {α : Type} (xs : List α) : List (α × α) := xs.zip xs.tail

/-- No other channel records more than a second inside the interval. -/
def silentBetween (records : List RecordInput) (primary : UInt32) (start stop : UInt64) : Bool :=
  (allChannels records).all fun other => other == primary ||
    !(channelTimes records other).any fun t =>
      decide (start.toNat + 1 < t.1.toNat) && decide (t.1.toNat < stop.toNat - 1)

def blackout (channels : List UInt32) (p : Stamp × Stamp) : GlobalBlackoutAnomaly :=
  let gap := elapsed p.1.1 p.2.1
  { startTimestamp := p.1.1
    endTimestamp := p.2.1
    startNormalizedTs := p.1.2
    endNormalizedTs := p.2.2
    durationSecs := gap
    affectedChannels := channels
    severity := if 60 ≤ gap then "CRITICAL" else "HIGH"
    description := s!"Synchronous recording outage across all {channels.length} camera " ++
      s!"channel(s) lasting {gap} seconds" }

/-- Outages begin and end with two neighbouring records of the smallest channel. -/
def detectGlobalBlackouts (records : List RecordInput) (minGapSecs : ℤ) :
    List GlobalBlackoutAnomaly :=
  if records = [] ∨ minGapSecs ≤ 0 then []
  else match allChannels records with
    | [] => []
    | primary :: _ =>
      ((consecutive (channelTimes records primary)).filter fun p =>
        decide (minGapSecs ≤ elapsed p.1.1 p.2.1) &&
          silentBetween records primary p.1.1 p.2.1).map (blackout (allChannels records))

theorem mem_of_mem_consecutive {α : Type} {xs : List α} {p : α × α} (h : p ∈ consecutive xs) :
    p.1 ∈ xs ∧ p.2 ∈ xs := by
  obtain ⟨hfirst, hsecond⟩ := List.of_mem_zip (a := p.1) (b := p.2) h
  exact ⟨hfirst, List.mem_of_mem_tail hsecond⟩

theorem consecutive_of_pairwise {α : Type} {R : α → α → Prop} {xs : List α} (h : xs.Pairwise R) :
    ∀ p ∈ consecutive xs, R p.1 p.2 := by
  induction xs with
  | nil => simp [consecutive]
  | cons a rest ih =>
    obtain ⟨ha, hrest⟩ := List.pairwise_cons.mp h
    cases rest with
    | nil => simp [consecutive]
    | cons b rest =>
      intro p hp
      rcases List.mem_cons.mp hp with rfl | hp
      · exact ha b (by simp)
      · exact ih hrest p hp

theorem channelTimes_sorted (records : List RecordInput) (channel : UInt32) :
    (channelTimes records channel).Pairwise earlier := List.pairwise_insertionSort _ _

theorem mem_channelTimes {records : List RecordInput} {channel : UInt32} {s : Stamp} :
    s ∈ channelTimes records channel ↔
      ∃ r ∈ records, eligible r ∧ r.channelId = channel ∧ r.stamp = s := by
  rw [channelTimes, (List.perm_insertionSort earlier _).mem_iff, List.mem_map]
  simp [and_assoc]

/-- The neighbouring times of the smallest channel between which no other one records. -/
def silences (records : List RecordInput) : List (Stamp × Stamp) :=
  match allChannels records with
  | [] => []
  | primary :: _ =>
    (consecutive (channelTimes records primary)).filter fun p =>
      silentBetween records primary p.1.1 p.2.1

theorem mem_silences {records : List RecordInput} {p : Stamp × Stamp}
    (h : p ∈ silences records) :
    p.1.1.toNat ≤ p.2.1.toNat ∧
      (∃ r ∈ records, eligible r ∧ r.stamp = p.1) ∧ ∃ r ∈ records, eligible r ∧ r.stamp = p.2 := by
  unfold silences at h
  split at h
  · simp at h
  · rename_i primary _ _
    have hp := (List.mem_filter.mp h).1
    obtain ⟨hfirst, hsecond⟩ := mem_of_mem_consecutive hp
    obtain ⟨r1, hr1, heligible1, -, hstamp1⟩ := mem_channelTimes.mp hfirst
    obtain ⟨r2, hr2, heligible2, -, hstamp2⟩ := mem_channelTimes.mp hsecond
    exact ⟨consecutive_of_pairwise (channelTimes_sorted records primary) p hp,
      ⟨r1, hr1, heligible1, hstamp1⟩, ⟨r2, hr2, heligible2, hstamp2⟩⟩

/-- A reported outage is a silence at least as long as the gap; its duration is
what elapsed. -/
theorem detectGlobalBlackouts_sound {records : List RecordInput} {minGapSecs : ℤ}
    {b : GlobalBlackoutAnomaly} (h : b ∈ detectGlobalBlackouts records minGapSecs) :
    ∃ p ∈ silences records, (b.startTimestamp, b.startNormalizedTs) = p.1 ∧
      (b.endTimestamp, b.endNormalizedTs) = p.2 ∧ b.durationSecs = elapsed p.1.1 p.2.1 ∧
      0 < minGapSecs ∧ minGapSecs ≤ b.durationSecs := by
  unfold detectGlobalBlackouts at h
  split_ifs at h with hnothing
  · simp at h
  · unfold silences
    cases hchannels : allChannels records with
    | nil => simp [hchannels] at h
    | cons primary others =>
      simp only [hchannels] at h ⊢
      obtain ⟨p, hp, rfl⟩ := List.mem_map.mp h
      obtain ⟨hp, hgap⟩ := List.mem_filter.mp hp
      obtain ⟨hlong, hsilent⟩ := Bool.and_eq_true_iff.mp hgap
      exact ⟨p, List.mem_filter.mpr ⟨hp, hsilent⟩, rfl, rfl, rfl, by omega,
        of_decide_eq_true hlong⟩

/-- A silence is reported exactly when it is at least as long as the gap. -/
theorem exists_blackout_iff {records : List RecordInput} {minGapSecs : ℤ}
    {p : Stamp × Stamp} (hp : p ∈ silences records) (hpositive : 0 < minGapSecs) :
    (∃ b ∈ detectGlobalBlackouts records minGapSecs,
      (b.startTimestamp, b.startNormalizedTs) = p.1 ∧
      (b.endTimestamp, b.endNormalizedTs) = p.2) ↔ minGapSecs ≤ elapsed p.1.1 p.2.1 := by
  constructor
  · rintro ⟨b, hb, hstart, hstop⟩
    obtain ⟨q, -, hstart', hstop', hduration, -, hlong⟩ := detectGlobalBlackouts_sound hb
    rw [← hstart, ← hstop, hstart', hstop', ← hduration]
    exact hlong
  · intro hlong
    have hrecords : ¬ (records = [] ∨ minGapSecs ≤ 0) := by
      rintro (rfl | hgap)
      · obtain ⟨-, ⟨r, hr, -⟩, -⟩ := mem_silences hp
        simp at hr
      · omega
    unfold silences at hp
    rw [detectGlobalBlackouts, if_neg hrecords]
    cases hchannels : allChannels records with
    | nil => simp [hchannels] at hp
    | cons primary others =>
      simp only [hchannels] at hp ⊢
      obtain ⟨hp, hsilent⟩ := List.mem_filter.mp hp
      have hgap : (decide (minGapSecs ≤ elapsed p.1.1 p.2.1) &&
          silentBetween records primary p.1.1 p.2.1) = true := by
        rw [hsilent, Bool.and_true, decide_eq_true hlong]
      exact ⟨_, List.mem_map.mpr ⟨p, List.mem_filter.mpr ⟨hp, hgap⟩, rfl⟩, rfl, rfl⟩

structure CorrelationReport where
  totalRecords : ℕ
  activeChannels : List UInt32
  minTimestamp : UInt64
  maxTimestamp : UInt64
  minNormalizedTs : String
  maxNormalizedTs : String
  timelineEvents : List TimelineEvent
  transitions : List CrossCameraTransition
  blackouts : List GlobalBlackoutAnomaly

/-- Time and text of an end of the timeline, or the epoch. -/
def endOf (event : Option TimelineEvent) : Stamp :=
  (event.map fun e => e.toRecordInput.stamp).getD (0, "1970-01-01T00:00:00Z")

def generateCorrelationReport (records : List RecordInput) (windowSecs blackoutGapSecs : ℤ) :
    CorrelationReport :=
  let timeline := mergeTimeline records
  let first := endOf timeline.head?
  let last := endOf timeline.getLast?
  { totalRecords := records.length
    activeChannels := (((records.filter fun r => decide (0 < r.channelId)).map
      RecordInput.channelId).eraseDups).insertionSort (· ≤ ·)
    minTimestamp := first.1
    maxTimestamp := last.1
    minNormalizedTs := first.2
    maxNormalizedTs := last.2
    timelineEvents := timeline
    transitions := detectTransitions timeline windowSecs
    blackouts := detectGlobalBlackouts records blackoutGapSecs }

end Dvrft.Correlation
