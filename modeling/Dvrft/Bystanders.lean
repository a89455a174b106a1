import Dvrft.Correlation
import Dvrft.Selection

/-!
Blocks without a channel in a correlation report. Channels, transitions and outages
are those of the camera records alone. The first and the last time are taken from
the whole timeline, where a block without a channel stands like any other.
-/

namespace Dvrft.Bystanders

open Machine Correlation Selection

/-- The records of a channel. -/
def cameras (records : List RecordInput) : List RecordInput :=
  records.filter fun r => decide (0 < r.channelId)

/-- What a report finds out, its list of events aside. -/
structure SameFindings (a b : CorrelationReport) : Prop where
  activeChannels : a.activeChannels = b.activeChannels
  minTimestamp : a.minTimestamp = b.minTimestamp
  minNormalizedTs : a.minNormalizedTs = b.minNormalizedTs
  maxTimestamp : a.maxTimestamp = b.maxTimestamp
  maxNormalizedTs : a.maxNormalizedTs = b.maxNormalizedTs
  transitions : a.transitions = b.transitions
  blackouts : a.blackouts = b.blackouts

/-- Every block without a channel lies between two camera records, and one at the time of
the first carries its text. -/
structure Harmless (records : List RecordInput) : Prop where
  after : ∀ r ∈ records, r.channelId = 0 → ∃ c ∈ cameras records, c.timestamp ≤ r.timestamp
  before : ∀ r ∈ records, r.channelId = 0 → ∃ c ∈ cameras records, r.timestamp ≤ c.timestamp
  text : ∀ r ∈ records, r.channelId = 0 →
    ∀ first ∈ ((cameras records).insertionSort precedes).head?,
      r.timestamp = first.timestamp → r.normalizedTimestamp = first.normalizedTimestamp

variable {records records' : List RecordInput}

theorem mem_cameras {r : RecordInput} :
    r ∈ cameras records ↔ r ∈ records ∧ r.channelId ≠ 0 := by
  rw [cameras, List.mem_filter, decide_eq_true_eq, UInt32.pos_iff_ne_zero]

theorem filter_eligible_cameras (records : List RecordInput) :
    (cameras records).filter eligible = records.filter eligible := by
  rw [cameras, List.filter_filter]
  apply List.filter_congr
  intro r _
  simp [eligible]

/-- An event without its place in the timeline. -/
def unplaced (e : TimelineEvent) : TimelineEvent := ⟨e.toRecordInput, 0⟩

theorem transitionsFrom_unplaced (maxWindowSecs : ℤ) (fromEvent : TimelineEvent)
    (events : List TimelineEvent) :
    transitionsFrom maxWindowSecs (unplaced fromEvent) (events.map unplaced) =
      transitionsFrom maxWindowSecs fromEvent events := by
  induction events with
  | nil => rfl
  | cons e rest ih =>
    rw [List.map_cons, transitionsFrom, transitionsFrom, ih]
    rfl

theorem allTransitions_unplaced (maxWindowSecs : ℤ) (events : List TimelineEvent) :
    allTransitions maxWindowSecs (events.map unplaced) = allTransitions maxWindowSecs events := by
  induction events with
  | nil => rfl
  | cons e rest ih =>
    rw [List.map_cons, allTransitions, allTransitions, ih, transitionsFrom_unplaced]

theorem allTransitions_of_short (maxWindowSecs : ℤ) {events : List TimelineEvent}
    (h : events.length < 2) : allTransitions maxWindowSecs events = [] := by
  match events, h with
  | [], _ => rfl
  | [_], _ => rfl

/-- Fewer than two events make no transition, so the guard decides nothing more. -/
theorem detectTransitions_eq (timeline : List TimelineEvent) (maxWindowSecs : ℤ) :
    detectTransitions timeline maxWindowSecs =
      if maxWindowSecs ≤ 0 then []
      else dedupe [] (allTransitions maxWindowSecs
        (timeline.filter fun e => eligible e.toRecordInput)) := by
  unfold detectTransitions
  by_cases hwindow : maxWindowSecs ≤ 0
  · rw [if_pos (.inr hwindow), if_pos hwindow]
  · rw [if_neg hwindow]
    by_cases hshort : timeline.length < 2
    · rw [if_pos (.inl hshort),
        allTransitions_of_short maxWindowSecs ((List.length_filter_le _ _).trans_lt hshort)]
      rfl
    · rw [if_neg (by omega)]

/-- The eligible part of a timeline is that of the eligible records. -/
theorem filter_mergeTimeline (records : List RecordInput) :
    ((mergeTimeline records).filter fun e => eligible e.toRecordInput).map unplaced =
      ((records.filter eligible).insertionSort precedes).map fun r => ⟨r, 0⟩ := by
  rw [← filter_insertionSort, ← map_mergeTimeline, List.filter_map, List.map_map]
  rfl

theorem detectTransitions_congr (h : records.filter eligible = records'.filter eligible)
    (maxWindowSecs : ℤ) :
    detectTransitions (mergeTimeline records) maxWindowSecs =
      detectTransitions (mergeTimeline records') maxWindowSecs := by
  rw [detectTransitions_eq, detectTransitions_eq, ← allTransitions_unplaced,
    ← allTransitions_unplaced _ ((mergeTimeline records').filter _), filter_mergeTimeline,
    filter_mergeTimeline, h]

theorem channelTimes_congr (h : records.filter eligible = records'.filter eligible)
    (channel : UInt32) : channelTimes records channel = channelTimes records' channel := by
  have hchannel : ∀ rs : List RecordInput,
      rs.filter (fun r => eligible r && r.channelId == channel) =
        (rs.filter eligible).filter fun r => r.channelId == channel := by
    intro rs
    rw [List.filter_filter]
    exact List.filter_congr fun r _ => Bool.and_comm _ _
  rw [channelTimes, channelTimes, hchannel, hchannel, h]

theorem detectGlobalBlackouts_congr (h : records.filter eligible = records'.filter eligible)
    (hempty : records = [] ↔ records' = []) (minGapSecs : ℤ) :
    detectGlobalBlackouts records minGapSecs = detectGlobalBlackouts records' minGapSecs := by
  have hchannels : allChannels records = allChannels records' := by
    rw [allChannels, allChannels, h]
  have hsilent : silentBetween records = silentBetween records' := by
    funext primary start stop
    simp only [silentBetween, hchannels, channelTimes_congr h]
  simp only [detectGlobalBlackouts, hempty, hchannels, channelTimes_congr h, hsilent]

theorem precedes_channelId {a b : RecordInput} (h : precedes a b)
    (htime : a.timestamp = b.timestamp) : a.channelId ≤ b.channelId := by
  rcases Prod.Lex.le_iff.mp h with hlt | ⟨-, hle⟩
  · exact absurd (congrArg UInt64.toNat htime) hlt.ne
  · rcases Prod.Lex.le_iff.mp hle with hlt | ⟨heq, -⟩
    · exact UInt32.le_iff_toNat_le.mpr hlt.le
    · exact UInt32.le_iff_toNat_le.mpr heq.le

/-- The record at the front of the timeline, and the one at its end. -/
def firstOf (records : List RecordInput) : Option RecordInput :=
  (records.insertionSort precedes).head?

def lastOf (records : List RecordInput) : Option RecordInput :=
  (records.insertionSort precedes).getLast?

theorem insertionSort_ne_nil (h : records ≠ []) : records.insertionSort precedes ≠ [] := by
  intro hnil
  have hlength := List.length_insertionSort precedes records
  rw [hnil] at hlength
  exact h (List.eq_nil_of_length_eq_zero hlength.symm)

theorem exists_firstOf (h : records ≠ []) : ∃ f, firstOf records = some f :=
  ⟨_, List.head?_eq_some_head (insertionSort_ne_nil h)⟩

theorem exists_lastOf (h : records ≠ []) : ∃ l, lastOf records = some l :=
  ⟨_, List.getLast?_eq_some_getLast (insertionSort_ne_nil h)⟩

theorem endOf_head? {f : RecordInput} (h : firstOf records = some f) :
    endOf (mergeTimeline records).head? = f.stamp := by
  rw [firstOf, ← map_mergeTimeline, List.head?_map] at h
  obtain ⟨e, he, rfl⟩ := Option.map_eq_some_iff.mp h
  rw [he]
  rfl

theorem endOf_getLast? {l : RecordInput} (h : lastOf records = some l) :
    endOf (mergeTimeline records).getLast? = l.stamp := by
  rw [lastOf, ← map_mergeTimeline, List.getLast?_map] at h
  obtain ⟨e, he, rfl⟩ := Option.map_eq_some_iff.mp h
  rw [he]
  rfl

theorem timestamp_le_of_precedes {a b : RecordInput} (h : precedes a b) :
    a.timestamp ≤ b.timestamp := UInt64.le_iff_toNat_le.mpr (precedes_timestamp h)

/-- Harmless bystanders leave the first time and its text alone. -/
theorem Harmless.first (hharmless : Harmless records) (hcamera : cameras records ≠ []) :
    endOf (mergeTimeline records).head? = endOf (mergeTimeline (cameras records)).head? := by
  have hrecords : records ≠ [] := by
    rintro rfl
    exact hcamera rfl
  obtain ⟨f, hf⟩ := exists_firstOf hrecords
  obtain ⟨c, hc⟩ := exists_firstOf hcamera
  obtain ⟨hfmem, hleads⟩ := leads_of_head? hf
  obtain ⟨hcmem, hcleads⟩ := leads_of_head? hc
  rw [endOf_head? hf, endOf_head? hc]
  by_cases hzero : f.channelId = 0
  · obtain ⟨c', hc', hle⟩ := hharmless.after f hfmem hzero
    have hbefore := timestamp_le_of_precedes (hleads c (mem_cameras.mp hcmem).1)
    have hafter := timestamp_le_of_precedes (hcleads c' hc')
    have htime : f.timestamp = c.timestamp :=
      UInt64.le_antisymm hbefore (UInt64.le_trans hafter hle)
    rw [RecordInput.stamp, RecordInput.stamp, htime, hharmless.text f hfmem hzero c hc htime]
  · have hsame : firstOf (cameras records) = some f :=
      head?_insertionSort_filter hf (decide_eq_true (UInt32.pos_iff_ne_zero.mpr hzero))
    rw [Option.some.inj (hc.symm.trans hsame)]

theorem Harmless.last (hharmless : Harmless records) (hcamera : cameras records ≠ []) :
    endOf (mergeTimeline records).getLast? =
      endOf (mergeTimeline (cameras records)).getLast? := by
  have hrecords : records ≠ [] := by
    rintro rfl
    exact hcamera rfl
  obtain ⟨l, hl⟩ := exists_lastOf hrecords
  obtain ⟨hlmem, hfollows⟩ := follows_of_getLast? hl
  have hchannel : l.channelId ≠ 0 := by
    intro hzero
    -- at the same time a camera record stands behind a block without a channel
    obtain ⟨c, hc, hle⟩ := hharmless.before l hlmem hzero
    obtain ⟨hcmem, hcchannel⟩ := mem_cameras.mp hc
    have hprecedes := hfollows c hcmem
    have htime := UInt64.le_antisymm (timestamp_le_of_precedes hprecedes) hle
    have hle := precedes_channelId hprecedes htime
    rw [hzero] at hle
    exact hcchannel (UInt32.le_zero_iff.mp hle)
  have hsame : lastOf (cameras records) = some l :=
    getLast?_insertionSort_filter hl (decide_eq_true (UInt32.pos_iff_ne_zero.mpr hchannel))
  rw [endOf_getLast? hl, endOf_getLast? hsame]

theorem cameras_ne_nil {r : RecordInput} (hr : r ∈ records) (hchannel : 0 < r.channelId) :
    cameras records ≠ [] :=
  List.ne_nil_of_mem (mem_cameras.mpr ⟨hr, UInt32.pos_iff_ne_zero.mp hchannel⟩)

/-- What does not look at the ends of the timeline is that of the camera records. -/
theorem findings_congr (hsame : cameras records' = cameras records)
    (hcamera : cameras records ≠ []) (windowSecs blackoutGapSecs : ℤ) :
    let report := generateCorrelationReport records windowSecs blackoutGapSecs
    let report' := generateCorrelationReport records' windowSecs blackoutGapSecs
    report'.activeChannels = report.activeChannels ∧ report'.transitions = report.transitions ∧
      report'.blackouts = report.blackouts := by
  have heligible : records'.filter eligible = records.filter eligible := by
    rw [← filter_eligible_cameras, hsame, filter_eligible_cameras]
  have hnonempty : ∀ rs, cameras rs ≠ [] → rs ≠ [] := by
    rintro rs h rfl
    exact h rfl
  have hempty : records' = [] ↔ records = [] :=
    iff_of_false (hnonempty _ (hsame ▸ hcamera)) (hnonempty _ hcamera)
  refine ⟨?_, detectTransitions_congr heligible windowSecs,
    detectGlobalBlackouts_congr heligible hempty blackoutGapSecs⟩
  exact congrArg (fun rs : List RecordInput =>
    ((rs.map RecordInput.channelId).eraseDups).insertionSort (· ≤ ·)) hsame

/-- The ends of the timeline are all that a block without a channel can change. -/
theorem sameFindings_iff (hsame : cameras records' = cameras records)
    (hcamera : cameras records ≠ []) (windowSecs blackoutGapSecs : ℤ) :
    SameFindings (generateCorrelationReport records' windowSecs blackoutGapSecs)
        (generateCorrelationReport records windowSecs blackoutGapSecs) ↔
      endOf (mergeTimeline records').head? = endOf (mergeTimeline records).head? ∧
        endOf (mergeTimeline records').getLast? = endOf (mergeTimeline records).getLast? := by
  obtain ⟨hchannels, htransitions, hblackouts⟩ :=
    findings_congr hsame hcamera windowSecs blackoutGapSecs
  constructor
  · intro h
    exact ⟨Prod.ext h.minTimestamp h.minNormalizedTs, Prod.ext h.maxTimestamp h.maxNormalizedTs⟩
  · rintro ⟨hfirst, hlast⟩
    exact ⟨hchannels, congrArg Prod.fst hfirst, congrArg Prod.snd hfirst,
      congrArg Prod.fst hlast, congrArg Prod.snd hlast, htransitions, hblackouts⟩

/-- Two harmless lists with the same camera records. -/
theorem Harmless.sameFindings (hharmless : Harmless records) (hharmless' : Harmless records')
    (hsame : cameras records' = cameras records) (hcamera : cameras records ≠ [])
    (windowSecs blackoutGapSecs : ℤ) :
    SameFindings (generateCorrelationReport records' windowSecs blackoutGapSecs)
      (generateCorrelationReport records windowSecs blackoutGapSecs) := by
  have hcamera' : cameras records' ≠ [] := hsame ▸ hcamera
  refine (sameFindings_iff hsame hcamera _ _).mpr ⟨?_, ?_⟩
  · rw [hharmless.first hcamera, hharmless'.first hcamera', hsame]
  · rw [hharmless.last hcamera, hharmless'.last hcamera', hsame]

theorem Harmless.mono (hharmless : Harmless records) (hsubset : records' ⊆ records)
    (hsame : cameras records' = cameras records) : Harmless records' where
  after r hr hzero := hsame ▸ hharmless.after r (hsubset hr) hzero
  before r hr hzero := hsame ▸ hharmless.before r (hsubset hr) hzero
  text r hr hzero := hsame ▸ hharmless.text r (hsubset hr) hzero

/-- The camera records with one other record. -/
def onlyWith (r : RecordInput) (records : List RecordInput) : List RecordInput :=
  records.filter fun x => decide (0 < x.channelId) || decide (x = r)

theorem cameras_onlyWith (r : RecordInput) (records : List RecordInput) :
    cameras (onlyWith r records) = cameras records := by
  rw [cameras, onlyWith, List.filter_filter, cameras]
  apply List.filter_congr
  intro x _
  cases decide (0 < x.channelId) <;> rfl

theorem cameras_cameras (records : List RecordInput) :
    cameras (cameras records) = cameras records := by
  simp only [cameras, List.filter_filter, Bool.and_self]

/-- A record that could be taken out alone without a change is harmless. -/
theorem harmless_of_sameFindings (hcamera : cameras records ≠ [])
    {windowSecs blackoutGapSecs : ℤ}
    (h : ∀ records' : List RecordInput, records'.Sublist records →
      cameras records' = cameras records →
      SameFindings (generateCorrelationReport records' windowSecs blackoutGapSecs)
        (generateCorrelationReport records windowSecs blackoutGapSecs)) :
    Harmless records := by
  have hends : ∀ records' : List RecordInput, records'.Sublist records →
      cameras records' = cameras records →
      endOf (mergeTimeline records').head? = endOf (mergeTimeline records).head? ∧
        endOf (mergeTimeline records').getLast? = endOf (mergeTimeline records).getLast? :=
    fun records' hsub hsame => (sameFindings_iff hsame hcamera _ _).mp (h records' hsub hsame)
  obtain ⟨hfirst, hlast⟩ := hends (cameras records) (List.filter_sublist ..) (cameras_cameras _)
  obtain ⟨c, hc⟩ := exists_firstOf hcamera
  obtain ⟨d, hd⟩ := exists_lastOf hcamera
  rw [endOf_head? hc] at hfirst
  rw [endOf_getLast? hd] at hlast
  have halone : ∀ r ∈ records, r.channelId = 0 →
      (c.timestamp ≤ r.timestamp ∧ (r.timestamp = c.timestamp →
        r.normalizedTimestamp = c.normalizedTimestamp)) ∧ r.timestamp ≤ d.timestamp := by
    intro r hr hzero
    have hrmem : r ∈ onlyWith r records := List.mem_filter.mpr ⟨hr, by simp⟩
    obtain ⟨f, hf⟩ := exists_firstOf (List.ne_nil_of_mem hrmem)
    obtain ⟨l, hl⟩ := exists_lastOf (List.ne_nil_of_mem hrmem)
    obtain ⟨hfmem, hleads⟩ := leads_of_head? hf
    obtain ⟨-, hfollows⟩ := follows_of_getLast? hl
    obtain ⟨hfirst', hlast'⟩ := hends (onlyWith r records) (List.filter_sublist ..)
      (cameras_onlyWith r records)
    rw [endOf_head? hf, ← hfirst] at hfirst'
    rw [endOf_getLast? hl, ← hlast] at hlast'
    obtain ⟨hftime, hftext⟩ := Prod.mk.inj hfirst'
    obtain ⟨hltime, -⟩ := Prod.mk.inj hlast'
    have hprecedes := hleads r hrmem
    refine ⟨⟨hftime ▸ timestamp_le_of_precedes hprecedes, fun htime => ?_⟩,
      hltime ▸ timestamp_le_of_precedes (hfollows r hrmem)⟩
    -- at one time the block without a channel comes first, and it is the only one
    have hchannel := precedes_channelId hprecedes (hftime.trans htime.symm)
    rw [hzero] at hchannel
    have hfzero := UInt32.le_zero_iff.mp hchannel
    have hsame : f = r := by simpa [hfzero] using (List.mem_filter.mp hfmem).2
    rw [← hsame, hftext]
  refine ⟨fun r hr hzero => ⟨c, (leads_of_head? hc).1, (halone r hr hzero).1.1⟩,
    fun r hr hzero => ⟨d, (follows_of_getLast? hd).1, (halone r hr hzero).2⟩, ?_⟩
  intro r hr hzero first hfirst htime
  obtain rfl : c = first := Option.some.inj (hc.symm.trans hfirst)
  exact (halone r hr hzero).1.2 htime

/-- Blocks without a channel never touch channels, transitions and outages. Taking out any of
them changes nothing in the report exactly when all are harmless. -/
theorem generateCorrelationReport_bystanders (hcamera : ∃ r ∈ records, 0 < r.channelId)
    (windowSecs blackoutGapSecs : ℤ) :
    let report := fun rs => generateCorrelationReport rs windowSecs blackoutGapSecs
    ((∀ records' : List RecordInput, records'.Sublist records →
        cameras records' = cameras records → SameFindings (report records') (report records)) ↔
      Harmless records) ∧
    ∀ records', cameras records' = cameras records →
      (Harmless records → Harmless records' → SameFindings (report records') (report records)) ∧
      (report records').activeChannels = (report records).activeChannels ∧
      (report records').transitions = (report records).transitions ∧
      (report records').blackouts = (report records).blackouts := by
  obtain ⟨c, hc, hchannel⟩ := hcamera
  have hcamera := cameras_ne_nil hc hchannel
  refine ⟨⟨harmless_of_sameFindings hcamera, ?_⟩, ?_⟩
  · intro hharmless records' hsub hsame
    exact hharmless.sameFindings (hharmless.mono hsub.subset hsame) hsame hcamera _ _
  · intro records' hsame
    exact ⟨fun hharmless hharmless' => hharmless.sameFindings hharmless' hsame hcamera _ _,
      findings_congr hsame hcamera windowSecs blackoutGapSecs⟩

def reportRecord (channelId : UInt32) (timestamp : UInt64) : RecordInput where
  blockIndex := 1
  byteOffset := 4096
  channelId := channelId
  timestamp := timestamp
  normalizedTimestamp := ""
  sequenceNum := 1
  isKeyframe := true
  isScrambled := false
  descrambled := false
  isCorrupted := false

theorem generateCorrelationReport_bystanders_between :
    SameFindings (generateCorrelationReport [reportRecord 1 100, reportRecord 1 200] 10 60)
      (generateCorrelationReport [reportRecord 1 100, reportRecord 0 150, reportRecord 1 200] 10
        60) := by
  have hcamera : ∃ r ∈ [reportRecord 1 100, reportRecord 0 150, reportRecord 1 200],
      0 < r.channelId := ⟨reportRecord 1 100, by simp, by decide⟩
  have hall := (generateCorrelationReport_bystanders hcamera 10 60).1
  refine hall.mpr ⟨by decide, by decide, by decide⟩ _ ?_ rfl
  exact .cons_cons _ (.cons _ (.refl _))

/-- A superblock moves the first time of every report to the epoch. -/
theorem superblock_changes_findings :
    ¬ SameFindings (generateCorrelationReport [reportRecord 0 0, reportRecord 1 100] 10 60)
      (generateCorrelationReport [reportRecord 1 100] 10 60) :=
  fun h => absurd h.minTimestamp (by decide)

end Dvrft.Bystanders
