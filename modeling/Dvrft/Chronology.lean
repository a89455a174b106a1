import Dvrft.Instants
import Dvrft.InstantOrder
import Dvrft.Timeline
import Mathlib.Data.List.Pairwise

/-!
The order of a report's timeline. A correlated event carries its time as a text
only and goes behind everything that is dated. The timeline is chronological when
no dated entry is later than an event.
-/

namespace Dvrft.Chronology

open Gregorian InstantOrder Machine Platform Timestamps Interpreter Instants Database Timeline
  Errors

variable {X : Crates}

/-- Whole seconds of UTC, from the first to the end of the year 9999, with the text
that normalizing them gives. -/
structure UtcStamp (X : Crates) (raw : UInt64) (text : String) : Prop where
  positive : 0 < raw
  bounded : (raw.toNat : ℤ) ≤ civilSeconds 9999 12 31 23 59 59
  timed : ∃ encoding timezone : Option String, encoding.getD "unix_seconds" = "unix_seconds" ∧
    parseTimezoneOffset X timezone = (.ok 0 : Parsed ℤ) ∧ Timed X encoding timezone raw text

/-- What the report is made of: dated records and detections, and events that begin
with some record. -/
structure Inputs (X : Crates) (records : List ExtractedRecord) (events : List CorrelatedDbEvent)
    (analytics : List AnalyticsDbDetection) : Prop where
  dated : ∀ r ∈ records, UtcStamp X r.timestamp r.normalizedTimestamp
  detected : ∀ a ∈ analytics, UtcStamp X a.timestamp a.normalizedTimestamp
  begins : ∀ e ∈ events, ∃ r ∈ records, r.normalizedTimestamp = e.startTimestamp

/-- Entries whose text is that of an instant come in the order of their instants. -/
def Chronological (X : Crates) (entries : List TimelineEntry) : Prop :=
  entries.Pairwise fun a b => ∀ s t, X.chrono.Denotes a.normalizedTimestamp s →
    X.chrono.Denotes b.normalizedTimestamp t → s ≤ t

def relevant (analytics : List AnalyticsDbDetection) : List AnalyticsDbDetection :=
  analytics.filter fun a => decide (0.50 ≤ a.relevanceScore)

/-- One entry for each record, carved frame and event, and for each relevant detection. -/
def OneEach (records : List ExtractedRecord) (carved : List CarvedFrame)
    (events : List CorrelatedDbEvent) (analytics : List AnalyticsDbDetection)
    (entries : List TimelineEntry) : Prop :=
  entries.Perm (records.map recordEntry ++ carved.map carvedEntry ++ events.map eventEntry ++
    (relevant analytics).map analyticsEntry)

/-- No record and no relevant detection is later than the record an event begins with. -/
def EventsLatest (records : List ExtractedRecord) (events : List CorrelatedDbEvent)
    (analytics : List AnalyticsDbDetection) : Prop :=
  ∀ e ∈ events, ∀ r ∈ records, r.normalizedTimestamp = e.startTimestamp →
    (∀ r' ∈ records, r'.timestamp ≤ r.timestamp) ∧
    ∀ a ∈ relevant analytics, a.timestamp ≤ r.timestamp

theorem lastSecond_eq : civilSeconds 9999 12 31 23 59 59 = 253402300799 := by decide

theorem UtcStamp.denotes {raw : UInt64} {text : String} (h : UtcStamp X raw text) :
    X.chrono.Denotes text raw.toNat := by
  obtain ⟨encoding, timezone, hencoding, hzone, htimed⟩ := h.timed
  have hbound := h.bounded
  have hpositive := UInt64.lt_iff_toNat_lt.mp h.positive
  have hoffset : zoneOffset X timezone = 0 := by
    unfold zoneOffset
    rw [hzone]
  have hpacked : ¬ IsPacked encoding := by
    unfold IsPacked
    rw [hencoding]
    decide
  have hmillis : ¬ IsMillis encoding := by
    unfold IsMillis
    rw [hencoding]
    decide
  have hraw : raw.toNat ≠ 0 := hpositive.ne'
  rw [lastSecond_eq] at hbound
  have hin : X.chrono.InRange (raw.toNat : ℤ) := inRange_small X (by omega) (by omega)
  have hinstant : instantOf X encoding 0 raw.toNat = raw.toNat := by
    rw [instantOf, if_neg hraw, if_neg hpacked, if_neg hmillis, asI64_of_lt (by omega), unixInstant,
      if_pos ⟨hin, by simpa using hin⟩, sub_zero]
  have hdenotes := normalizeTimestamp_denotes htimed
  rwa [hoffset, hinstant] at hdenotes

theorem UtcStamp.eq {raw : UInt64} {text : String} (h : UtcStamp X raw text) {t : ℤ}
    (ht : X.chrono.Denotes text t) : t = raw.toNat :=
  Chrono.Denotes.unique X.chrono ht h.denotes

theorem UtcStamp.text {raw : UInt64} {text : String} (h : UtcStamp X raw text)
    (hrfc : ∀ t, X.chrono.InRange t → X.chrono.toRfc3339 t = rfc3339 t) :
    text = rfc3339 raw.toNat := by
  obtain ⟨hin, htext⟩ := h.denotes
  rw [← htext, hrfc _ hin]

theorem UtcStamp.lt {raw : UInt64} {text : String} (h : UtcStamp X raw text) :
    raw.toNat < 2 ^ 64 - 1 := by
  have hbound := h.bounded
  rw [lastSecond_eq] at hbound
  omega

theorem UtcStamp.fourDigitYear {raw : UInt64} {text : String} (h : UtcStamp X raw text) :
    FourDigitYear raw.toNat :=
  fourDigitYear_of_le (Int.natCast_nonneg _) h.bounded

section Entries

variable {records : List ExtractedRecord} {carved : List CarvedFrame}
  {events : List CorrelatedDbEvent} {analytics : List AnalyticsDbDetection}
  {maxExpectedGapSecs : UInt64}

theorem reconstructTimeline_oneEach :
    OneEach records carved events analytics
      (reconstructTimeline records carved events analytics maxExpectedGapSecs).1 :=
  List.perm_insertionSort entryPrecedes _

theorem reconstructTimeline_sorted :
    (reconstructTimeline records carved events analytics maxExpectedGapSecs).1.Pairwise
      entryPrecedes :=
  List.pairwise_insertionSort entryPrecedes _

/-- An entry with a time of its own. -/
def Dated (records : List ExtractedRecord) (analytics : List AnalyticsDbDetection)
    (entry : TimelineEntry) : Prop :=
  (∃ r ∈ records, entry = recordEntry r) ∨ ∃ a ∈ relevant analytics, entry = analyticsEntry a

theorem mem_timeline {entry : TimelineEntry} :
    entry ∈ (reconstructTimeline records carved events analytics maxExpectedGapSecs).1 ↔
      Dated records analytics entry ∨ (∃ e ∈ events, entry = eventEntry e) ∨
        ∃ c ∈ carved, entry = carvedEntry c := by
  rw [List.Perm.mem_iff reconstructTimeline_oneEach]
  simp only [List.mem_append, List.mem_map, Dated, eq_comm (a := entry)]
  constructor
  · rintro (((hrecord | hcarved) | hevent) | hdetection)
    · exact .inl (.inl hrecord)
    · exact .inr (.inr hcarved)
    · exact .inr (.inl hevent)
    · exact .inl (.inr hdetection)
  · rintro ((hrecord | hdetection) | hevent | hcarved)
    · exact .inl (.inl (.inl hrecord))
    · exact .inr hdetection
    · exact .inl (.inr hevent)
    · exact .inl (.inl (.inr hcarved))

theorem Dated.stamp (hinputs : Inputs X records events analytics) {entry : TimelineEntry}
    (h : Dated records analytics entry) :
    UtcStamp X entry.timestamp entry.normalizedTimestamp := by
  rcases h with ⟨r, hr, rfl⟩ | ⟨a, ha, rfl⟩
  · exact hinputs.dated r hr
  · exact hinputs.detected a (List.mem_of_mem_filter ha)

theorem entryKey_of_stamp {entry : TimelineEntry}
    (h : UtcStamp X entry.timestamp entry.normalizedTimestamp) :
    entryKey entry = toLex (entry.timestamp.toNat, entry.normalizedTimestamp) := by
  rw [entryKey, if_pos h.positive]

theorem entryKey_eventEntry (e : CorrelatedDbEvent) :
    entryKey (eventEntry e) = toLex (2 ^ 64 - 1, e.startTimestamp) := rfl

/-- Events go behind everything that is dated. -/
theorem not_eventEntry_precedes {entry : TimelineEntry}
    (h : UtcStamp X entry.timestamp entry.normalizedTimestamp) (e : CorrelatedDbEvent) :
    ¬ entryPrecedes (eventEntry e) entry := by
  have hlt := h.lt
  rw [entryPrecedes, entryKey_of_stamp h, entryKey_eventEntry, Prod.Lex.toLex_le_toLex]
  dsimp only
  omega

/-- What stands in front of an entry in the timeline does not follow it in the order,
and the reverse for two that the order tells apart. -/
theorem rel_of_not_precedes {R : TimelineEntry → TimelineEntry → Prop}
    (hR : (reconstructTimeline records carved events analytics
      maxExpectedGapSecs).1.Pairwise R)
    {a b : TimelineEntry}
    (ha : a ∈ (reconstructTimeline records carved events analytics maxExpectedGapSecs).1)
    (hb : b ∈ (reconstructTimeline records carved events analytics maxExpectedGapSecs).1)
    (hnot : ¬ entryPrecedes b a) : R a b := by
  have hne : a ≠ b := by
    rintro rfl
    exact hnot (le_refl (entryKey a))
  have hboth := (reconstructTimeline_sorted.and hR).imp
    (S := fun x y => (entryPrecedes x y ∧ R x y) ∨ (entryPrecedes y x ∧ R y x)) .inl
  have : Std.Symm fun x y => (entryPrecedes x y ∧ R x y) ∨ (entryPrecedes y x ∧ R y x) :=
    ⟨fun _ _ => Or.symm⟩
  rcases hboth.forall ha hb hne with ⟨-, h⟩ | ⟨hba, -⟩
  · exact h
  · exact absurd hba hnot

/-- An event behind a later entry is out of order. -/
theorem eventsLatest_of_chronological (hinputs : Inputs X records events analytics)
    (hchronological : Chronological X
      (reconstructTimeline records carved events analytics maxExpectedGapSecs).1) :
    EventsLatest records events analytics := by
  intro e he r hr hstart
  have hall : ∀ entry, Dated records analytics entry → entry.timestamp ≤ r.timestamp := by
    intro entry hdated
    have hstamp := hdated.stamp hinputs
    have hbegin := (hinputs.dated r hr).denotes
    rw [hstart] at hbegin
    have hle := rel_of_not_precedes hchronological (mem_timeline.mpr (.inl hdated))
      (mem_timeline.mpr (.inr (.inl ⟨e, he, rfl⟩))) (not_eventEntry_precedes hstamp e)
      _ _ hstamp.denotes hbegin
    rw [UInt64.le_iff_toNat_le]
    omega
  exact ⟨fun r' hr' => hall (recordEntry r') (.inl ⟨r', hr', rfl⟩),
    fun a ha => hall (analyticsEntry a) (.inr ⟨a, ha, rfl⟩)⟩

/-- The mark of a carved frame is not the text of an instant. -/
theorem carved_ne_rfc3339 (t : ℤ) : rfc3339 t ≠ "CARVED_UNINDEXED" := by
  intro h
  have hlast := congrArg (fun text : String => text.toList.getLast?) h
  simp [rfc3339, List.getLast?_append, List.getLast?_cons] at hlast

theorem chronological_of_eventsLatest
    (hrfc : ∀ t, X.chrono.InRange t → X.chrono.toRfc3339 t = rfc3339 t)
    (hinputs : Inputs X records events analytics)
    (hlatest : EventsLatest records events analytics) :
    Chronological X
      (reconstructTimeline records carved events analytics maxExpectedGapSecs).1 := by
  have hcarved : ∀ (c : CarvedFrame) (t : ℤ),
      ¬ X.chrono.Denotes (carvedEntry c).normalizedTimestamp t := by
    rintro c t ⟨hin, htext⟩
    exact carved_ne_rfc3339 t ((hrfc t hin).symm.trans htext)
  refine reconstructTimeline_sorted.imp_of_mem ?_
  intro a b ha hb hab s t hs ht
  rcases mem_timeline.mp ha with hdatedA | ⟨e, he, rfl⟩ | ⟨c, -, rfl⟩
  · have hstampA := hdatedA.stamp hinputs
    rw [hstampA.eq hs]
    rcases mem_timeline.mp hb with hdatedB | ⟨e, he, rfl⟩ | ⟨c, -, rfl⟩
    · -- both carry their time
      have hstampB := hdatedB.stamp hinputs
      rw [hstampB.eq ht]
      rw [entryPrecedes, entryKey_of_stamp hstampA, entryKey_of_stamp hstampB,
        Prod.Lex.toLex_le_toLex] at hab
      dsimp only at hab
      omega
    · obtain ⟨r, hr, hstart⟩ := hinputs.begins e he
      have hstamp : UtcStamp X r.timestamp e.startTimestamp := hstart ▸ hinputs.dated r hr
      rw [hstamp.eq ht]
      obtain ⟨hrecords, hdetections⟩ := hlatest e he r hr hstart
      rcases hdatedA with ⟨r', hr', rfl⟩ | ⟨d, hd, rfl⟩
      · exact Int.ofNat_le.mpr (UInt64.le_iff_toNat_le.mp (hrecords r' hr'))
      · exact Int.ofNat_le.mpr (UInt64.le_iff_toNat_le.mp (hdetections d hd))
    · exact absurd ht (hcarved c t)
  · rcases mem_timeline.mp hb with hdatedB | ⟨e', he', rfl⟩ | ⟨c, -, rfl⟩
    · exact absurd hab (not_eventEntry_precedes (hdatedB.stamp hinputs) e)
    · -- two events are ordered by their texts
      obtain ⟨r, hr, hstart⟩ := hinputs.begins e he
      obtain ⟨r', hr', hstart'⟩ := hinputs.begins e' he'
      have hstamp : UtcStamp X r.timestamp e.startTimestamp := hstart ▸ hinputs.dated r hr
      have hstamp' : UtcStamp X r'.timestamp e'.startTimestamp := hstart' ▸ hinputs.dated r' hr'
      rw [hstamp.eq hs, hstamp'.eq ht]
      rw [entryPrecedes, entryKey_eventEntry, entryKey_eventEntry, Prod.Lex.toLex_le_toLex,
        hstamp.text hrfc, hstamp'.text hrfc,
        rfc3339_le_iff hstamp.fourDigitYear hstamp'.fourDigitYear] at hab
      simpa using hab
    · exact absurd ht (hcarved c t)
  · exact absurd hs (hcarved c s)

/-- The timeline is chronological exactly when nothing dated is later than the record an
event begins with; it always has one entry for each of its inputs. -/
theorem reconstructTimeline_chronological_iff
    (hrfc : ∀ t, X.chrono.InRange t → X.chrono.toRfc3339 t = rfc3339 t)
    (hinputs : Inputs X records events analytics) (carved : List CarvedFrame)
    (maxExpectedGapSecs : UInt64) :
    (Chronological X
        (reconstructTimeline records carved events analytics maxExpectedGapSecs).1 ∧
      OneEach records carved events analytics
        (reconstructTimeline records carved events analytics maxExpectedGapSecs).1) ↔
      EventsLatest records events analytics := by
  rw [and_iff_left reconstructTimeline_oneEach]
  exact ⟨eventsLatest_of_chronological hinputs, chronological_of_eventsLatest hrfc hinputs⟩

end Entries

def stampedRecord (timestamp : UInt64) : ExtractedRecord where
  blockIndex := 1
  byteOffset := 4096
  channelId := 1
  timestamp := timestamp
  normalizedTimestamp := rfc3339 timestamp.toNat
  sequenceNum := 1
  payloadOffset := 64
  payloadLen := 4032
  flags := 0
  isScrambled := false
  isCorrupted := false
  blockType := "video_frame"
  blake3Hash := ""
  descrambled := false
  descrambledBlake3Hash := none

def transitionEvent (startTimestamp : UInt64) : CorrelatedDbEvent where
  id := none
  eventType := "cross_camera_transition"
  startTimestamp := rfc3339 startTimestamp.toNat
  endTimestamp := rfc3339 startTimestamp.toNat
  channelsInvolved := "1,2"
  confidence := 0.95
  detailsJson := ""

def twoRecords : List ExtractedRecord := [stampedRecord 1773800000, stampedRecord 1773800100]

theorem inputs_twoRecords {timestamp : UInt64}
    (h : timestamp = 1773800000 ∨ timestamp = 1773800100) :
    Inputs Crates.sample twoRecords [transitionEvent timestamp] [] := by
  have hstamp : ∀ r ∈ twoRecords, UtcStamp Crates.sample r.timestamp r.normalizedTimestamp := by
    intro r hr
    rcases List.mem_pair.mp hr with rfl | rfl
    · exact ⟨by decide, by decide, none, none, rfl, rfl, rfl⟩
    · exact ⟨by decide, by decide, none, none, rfl, rfl, rfl⟩
  refine ⟨hstamp, by simp, ?_⟩
  intro e he
  obtain rfl := List.mem_singleton.mp he
  rcases h with rfl | rfl
  · exact ⟨stampedRecord 1773800000, by simp [twoRecords], rfl⟩
  · exact ⟨stampedRecord 1773800100, by simp [twoRecords], rfl⟩

theorem reconstructTimeline_chronological_twoRecords :
    Chronological Crates.sample
        (reconstructTimeline twoRecords [] [transitionEvent 1773800100] [] 60).1 ∧
      OneEach twoRecords [] [transitionEvent 1773800100] []
        (reconstructTimeline twoRecords [] [transitionEvent 1773800100] [] 60).1 := by
  refine (reconstructTimeline_chronological_iff (fun _ _ => rfl)
    (inputs_twoRecords (.inr rfl)) [] 60).mpr ?_
  intro e he r hr hstart
  obtain rfl := List.mem_singleton.mp he
  rcases List.mem_pair.mp hr with rfl | rfl
  · exact absurd (rfc3339_injective hstart) (by decide)
  · refine ⟨?_, by simp [relevant]⟩
    intro r' hr'
    rcases List.mem_pair.mp hr' with rfl | rfl
    · exact UInt64.le_iff_toNat_le.mpr (by decide)
    · exact UInt64.le_refl _

/-- The second record stands in front of an event that begins with the first. -/
theorem reconstructTimeline_not_chronological :
    Inputs Crates.sample twoRecords [transitionEvent 1773800000] [] ∧
      ¬ Chronological Crates.sample
        (reconstructTimeline twoRecords [] [transitionEvent 1773800000] [] 60).1 := by
  have hinputs := inputs_twoRecords (.inl rfl)
  refine ⟨hinputs, fun hchronological => ?_⟩
  have hlatest := eventsLatest_of_chronological hinputs hchronological _ (List.mem_singleton_self _)
    (stampedRecord 1773800000) (by simp [twoRecords]) rfl
  exact absurd (hlatest.1 (stampedRecord 1773800100) (by simp [twoRecords])) (by decide)

end Dvrft.Chronology
