import Dvrft.Instants
import Dvrft.Timeline

/-!
Durations. Three consumers subtract the raw timestamps of two records and call the
difference seconds. Whether it is a number of seconds depends on the encoding:
milliseconds and packed dates count other units, and a timestamp that denotes no
instant counts as the epoch.
-/

namespace Dvrft.Durations

open Gregorian Errors Machine Platform Grammar Timestamps PackedDates Correlation Interpreter
  Timeline Instants

variable {X : Crates} {encoding : Option String} {offset : ℤ}

/-- The raw timestamps `a` and `b` are as far apart as the instants they denote:
in the same minute of packed dates; one millisecond apart at the turn of a second
(an unset timestamp can be right by accident west of Greenwich); in seconds, when
both denote instants. -/
def CountsSeconds (X : Crates) (encoding : Option String) (offset : ℤ) (a b : ℕ) : Prop :=
  if IsPacked encoding then a / 64 = b / 64
  else if IsMillis encoding then
    (a ≠ 0 ∧ b = a + 1 ∧ 1000 ∣ b ∧ Representable X offset (b / 1000 : ℕ)) ∨
      (a = 0 ∧ (b : ℤ) + offset = (b / 1000 : ℕ))
  else
    b - a < 2 ^ 63 ∧ Representable X offset (asI64 a) ∧ Representable X offset (asI64 b) ∧
      (a = 0 → offset = 0)

/-- Packed dates count seconds within one minute. The bits that a packed date
does not use only move two of them farther apart. -/
theorem packedSeconds_sub_eq_iff {a b : ℕ} (ha : ValidPacked a) (hb : ValidPacked b)
    (hlt : a < b) : packedSeconds b - packedSeconds a = (b : ℤ) - a ↔ a / 64 = b / 64 := by
  have hlowA : a = 4294967296 * (a / 4294967296) + lowBits a := by
    unfold lowBits
    omega
  have hlowB : b = 4294967296 * (b / 4294967296) + lowBits b := by
    unfold lowBits
    omega
  have hfewA : lowBits a < 4294967296 := Nat.mod_lt _ (by decide)
  have hfewB : lowBits b < 4294967296 := Nat.mod_lt _ (by decide)
  generalize a / 4294967296 = highA at *
  generalize b / 4294967296 = highB at *
  rcases Nat.lt_or_ge (lowBits b) (lowBits a) with hback | hle
  · have hless := packedSeconds_lt hb ha hback
    exact iff_of_false (by omega) (by omega)
  · obtain ⟨hsub, hiff⟩ := packedSeconds_sub ha hb hle
    constructor
    · intro heq
      have hhigh : highA = highB := by omega
      have hminute := hiff.mp (by omega)
      omega
    · intro hminute
      have hhigh : highA = highB := by omega
      have heq := hiff.mpr (by omega)
      omega

theorem representable_small (X : Crates) (secs : ℤ) (hoffset : -86400 < offset ∧ offset < 86400)
    (hlow : -1000000000 ≤ secs) (hhigh : secs ≤ 1000000000) : Representable X offset secs :=
  ⟨inRange_small X (by omega) (by omega), inRange_small X (by omega) (by omega)⟩

/-- A timestamp in seconds that denotes nothing is never right by accident: the
other one would have to be the offset itself. -/
theorem unixInstant_sub_iff {a b : ℕ} (hoffset : -86400 < offset ∧ offset < 86400) (hlt : a < b)
    (hb : b < 2 ^ 64) :
    unixInstant X offset (asI64 b) - unixInstant X offset (asI64 a) = (b : ℤ) - a ↔
      b - a < 2 ^ 63 ∧ Representable X offset (asI64 a) ∧ Representable X offset (asI64 b) := by
  have hcasesA := asI64_cases (show a < 2 ^ 64 by omega)
  have hcasesB := asI64_cases hb
  have hsmallA := representable_small X (asI64 a) hoffset
  have hsmallB := representable_small X (asI64 b) hoffset
  unfold unixInstant
  split_ifs with hrepB hrepA hrepA
  · have hboundsA := InRange.bounds hrepA.1
    have hboundsB := InRange.bounds hrepB.1
    simp only [hrepA, hrepB, and_true]
    omega
  · simp only [hrepA, false_and, and_false, iff_false]
    exact fun heq => hrepA (hsmallA (by omega) (by omega))
  · simp only [hrepB, and_false, iff_false]
    exact fun heq => hrepB (hsmallB (by omega) (by omega))
  · simp only [hrepA, false_and, and_false, iff_false]
    omega

/-- An unset timestamp counts as the epoch, whatever the zone. -/
theorem unixInstant_eq_iff {b : ℕ} (hoffset : -86400 < offset ∧ offset < 86400) (hpos : 0 < b)
    (hb : b < 2 ^ 64) :
    unixInstant X offset (asI64 b) = b ↔
      b < 2 ^ 63 ∧ Representable X offset (asI64 b) ∧ offset = 0 := by
  have hcases := asI64_cases hb
  unfold unixInstant
  split_ifs with hrep
  · have hbounds := InRange.bounds hrep.1
    simp only [hrep, true_and]
    omega
  · simp only [hrep, false_and, and_false, iff_false]
    omega

/-- Milliseconds: the whole seconds of neighbours differ by one at most. -/
theorem unixInstant_millis_sub_iff {a b : ℕ} (hoffset : -86400 < offset ∧ offset < 86400)
    (hlt : a < b) (hb : b < 2 ^ 64) :
    unixInstant X offset (asI64 (b / 1000)) - unixInstant X offset (asI64 (a / 1000)) =
        (b : ℤ) - a ↔
      b = a + 1 ∧ 1000 ∣ b ∧ Representable X offset (b / 1000 : ℕ) := by
  rw [asI64_of_lt (by omega), asI64_of_lt (by omega)]
  have hsmallB := representable_small X (b / 1000 : ℕ) hoffset
  have hbelow : Representable X offset (b / 1000 : ℕ) → Representable X offset (a / 1000 : ℕ) := by
    intro hrep
    have hyears := X.chrono.covers.1
    rw [show civilSeconds 1 1 1 0 0 0 = -62135596800 by decide] at hyears
    unfold Representable Chrono.InRange at hrep ⊢
    omega
  unfold unixInstant
  split_ifs with hrepB hrepA hrepA
  · simp only [hrepB, and_true]
    omega
  · exact absurd (hbelow hrepB) hrepA
  · simp only [hrepB, and_false, iff_false]
    exact fun heq => hrepB (hsmallB (by omega) (by omega))
  · simp only [hrepB, and_false, iff_false]
    omega

theorem unixInstant_millis_eq_iff {b : ℕ} (hoffset : -86400 < offset ∧ offset < 86400)
    (hpos : 0 < b) (hb : b < 2 ^ 64) :
    unixInstant X offset (asI64 (b / 1000)) = b ↔ (b : ℤ) + offset = (b / 1000 : ℕ) := by
  rw [asI64_of_lt (by omega)]
  have hsmall := representable_small X (b / 1000 : ℕ) hoffset
  unfold unixInstant
  split_ifs with hrep
  · omega
  · exact iff_of_false (by omega) fun heq => hrep (hsmall (by omega) (by omega))

/-- The difference of two raw timestamps is the difference of their instants
exactly when they count seconds. -/
theorem instantOf_sub_iff {a b : ℕ} (hoffset : -86400 < offset ∧ offset < 86400) (hlt : a < b)
    (hb : b < 2 ^ 64) (hvalid : IsPacked encoding → ValidPacked a ∧ ValidPacked b) :
    instantOf X encoding offset b - instantOf X encoding offset a = (b : ℤ) - a ↔
      CountsSeconds X encoding offset a b := by
  unfold CountsSeconds
  by_cases hpacked : IsPacked encoding
  · obtain ⟨hvalidA, hvalidB⟩ := hvalid hpacked
    rw [if_pos hpacked, instantOf_packed hpacked hoffset hvalidA,
      instantOf_packed hpacked hoffset hvalidB, ← packedSeconds_sub_eq_iff hvalidA hvalidB hlt]
    constructor <;> intro h <;> omega
  · have hb0 : b ≠ 0 := by omega
    rw [if_neg hpacked]
    by_cases hmillis : IsMillis encoding
    · have hinstant : ∀ raw, raw ≠ 0 → instantOf X encoding offset raw =
          unixInstant X offset (asI64 (raw / 1000)) := by
        intro raw hraw
        rw [instantOf, if_neg hraw, if_neg hpacked, if_pos hmillis]
      rw [if_pos hmillis, hinstant b hb0]
      rcases Nat.eq_zero_or_pos a with rfl | hapos
      · have hiff := unixInstant_millis_eq_iff (X := X) hoffset hlt hb
        simp only [instantOf, if_true, Nat.cast_zero, sub_zero, hiff, ne_eq, not_true, false_and,
          true_and, false_or]
      · have hiff := unixInstant_millis_sub_iff (X := X) hoffset hlt hb
        rw [hinstant a (by omega), hiff]
        simp only [ne_eq, show a ≠ 0 by omega, not_false_eq_true, true_and, false_and, or_false]
    · have hinstant : ∀ raw, raw ≠ 0 → instantOf X encoding offset raw =
          unixInstant X offset (asI64 raw) := by
        intro raw hraw
        rw [instantOf, if_neg hraw, if_neg hpacked, if_neg hmillis]
      rw [if_neg hmillis, hinstant b hb0]
      rcases Nat.eq_zero_or_pos a with rfl | hapos
      · have hiff := unixInstant_eq_iff (X := X) hoffset hlt hb
        have hzero : Representable X offset (asI64 0) :=
          representable_small X _ hoffset (by decide) (by decide)
        simp only [instantOf, if_true, Nat.cast_zero, sub_zero, hiff, hzero, Nat.sub_zero,
          true_and, true_implies]
      · have hiff := unixInstant_sub_iff (X := X) hoffset hlt hb
        rw [hinstant a (by omega), hiff]
        simp only [show a ≠ 0 by omega, false_implies, and_true]

/-- `secs` is the difference in seconds of the instants that two normalized texts denote. -/
def SecondsBetween (C : Chrono) (start stop : String) (secs : ℤ) : Prop :=
  ∃ a b, C.Denotes start a ∧ C.Denotes stop b ∧ secs = b - a

def inputs (records : List ExtractedRecord) : List RecordInput :=
  records.map ExtractedRecord.toCorrelationInput

/-- A reported delta is a difference in seconds, and of two eligible records of
different channels, one after the other, the difference decides whether they are
in the window. -/
def TransitionsInSeconds (X : Crates) (records : List ExtractedRecord) : Prop :=
  ∀ window : ℤ, window < 2 ^ 63 →
    (∀ t ∈ detectTransitions (mergeTimeline (inputs records)) window,
      SecondsBetween X.chrono t.fromNormalizedTs t.toNormalizedTs t.deltaSecs) ∧
    ∀ a ∈ inputs records, ∀ b ∈ inputs records, eligible a → eligible b →
      a.channelId ≠ b.channelId → a.timestamp < b.timestamp →
      ∀ secs, SecondsBetween X.chrono a.normalizedTimestamp b.normalizedTimestamp secs →
        ((∃ t ∈ detectTransitions (mergeTimeline (inputs records)) window,
          t.key = (a.channelId, b.channelId, a.timestamp, b.timestamp)) ↔
            0 < secs ∧ secs ≤ window)

/-- The same for the outages: the difference decides whether a silence is one. -/
def BlackoutsInSeconds (X : Crates) (records : List ExtractedRecord) : Prop :=
  ∀ minGap : ℤ, 0 < minGap → minGap < 2 ^ 63 →
    (∀ b ∈ detectGlobalBlackouts (inputs records) minGap,
      SecondsBetween X.chrono b.startNormalizedTs b.endNormalizedTs b.durationSecs) ∧
    ∀ p ∈ silences (inputs records), p.1.1 < p.2.1 →
      ∀ secs, SecondsBetween X.chrono p.1.2 p.2.2 secs →
        ((∃ b ∈ detectGlobalBlackouts (inputs records) minGap,
          (b.startTimestamp, b.startNormalizedTs) = p.1 ∧
          (b.endTimestamp, b.endNormalizedTs) = p.2) ↔ minGap ≤ secs)

/-- The same for the alerts: the difference decides whether two neighbours are
too far apart. -/
def AlertsInSeconds (X : Crates) (records : List ExtractedRecord) : Prop :=
  ∀ carved events analytics (maxGap : UInt64),
    (∀ alert ∈ (reconstructTimeline records carved events analytics maxGap).2,
      SecondsBetween X.chrono alert.startTimestamp alert.endTimestamp alert.durationSecs) ∧
    ∀ p ∈ consecutive (datedRecords records), p.1.timestamp < p.2.timestamp →
      ∀ secs, SecondsBetween X.chrono p.1.normalizedTimestamp p.2.normalizedTimestamp secs →
        ((∃ alert ∈ (reconstructTimeline records carved events analytics maxGap).2,
          alert.startTimestamp = p.1.normalizedTimestamp ∧
          alert.endTimestamp = p.2.normalizedTimestamp ∧
          alert.affectedChannels = [p.1.channelId, p.2.channelId]) ↔ maxGap.toNat < secs)

/-- Durations are in seconds: those reported, and those compared with a threshold. -/
structure DurationsInSeconds (X : Crates) (records : List ExtractedRecord) : Prop where
  transitions : TransitionsInSeconds X records
  blackouts : BlackoutsInSeconds X records
  alerts : AlertsInSeconds X records

section Laws

variable {timezone : Option String} {records : List ExtractedRecord}

/-- Two raw timestamps are as far apart as their instants. -/
def Exact (X : Crates) (encoding : Option String) (offset : ℤ) (a b : UInt64) : Prop :=
  instantOf X encoding offset b.toNat - instantOf X encoding offset a.toNat =
    (b.toNat : ℤ) - a.toNat

/-- What is too far apart for the signed type is never reported, and rightly when
the second instant is not later. -/
def ExactOrFar (X : Crates) (encoding : Option String) (offset : ℤ) (a b : UInt64) : Prop :=
  Exact X encoding offset a b ∨
    (2 ^ 63 ≤ b.toNat - a.toNat ∧
      instantOf X encoding offset b.toNat ≤ instantOf X encoding offset a.toNat)

/-- The texts of timed records denote instants, whose difference is determined. -/
theorem secondsBetween_iff {a b : UInt64} {textA textB : String} {secs : ℤ}
    (ha : Timed X encoding timezone a textA) (hb : Timed X encoding timezone b textB) :
    SecondsBetween X.chrono textA textB secs ↔
      secs = instantOf X encoding (zoneOffset X timezone) b.toNat -
        instantOf X encoding (zoneOffset X timezone) a.toNat := by
  have hdenotesA := normalizeTimestamp_denotes ha
  have hdenotesB := normalizeTimestamp_denotes hb
  constructor
  · rintro ⟨s, e, hs, he, rfl⟩
    rw [hs.unique X.chrono hdenotesA, he.unique X.chrono hdenotesB]
  · rintro rfl
    exact ⟨_, _, hdenotesA, hdenotesB, rfl⟩

theorem instantOf_bounds {a : UInt64} {text : String} (h : Timed X encoding timezone a text) :
    -2 ^ 62 < instantOf X encoding (zoneOffset X timezone) a.toNat ∧
      instantOf X encoding (zoneOffset X timezone) a.toNat < 2 ^ 62 :=
  InRange.bounds (normalizeTimestamp_denotes h).1

theorem timed_inputs
    (htimed : ∀ r ∈ records, Timed X encoding timezone r.timestamp r.normalizedTimestamp) :
    ∀ r ∈ inputs records, Timed X encoding timezone r.timestamp r.normalizedTimestamp := by
  intro r hr
  obtain ⟨record, hrecord, rfl⟩ := List.mem_map.mp hr
  exact htimed record hrecord

/-- Read off what elapsed: the raw difference, or a negative number. -/
theorem exactOrFar_iff {a b : UInt64} {textA textB : String}
    (ha : Timed X encoding timezone a textA) (hb : Timed X encoding timezone b textB)
    (hlt : a < b) :
    ExactOrFar X encoding (zoneOffset X timezone) a b ↔
      (0 < elapsed a b ∨
          instantOf X encoding (zoneOffset X timezone) a.toNat <
            instantOf X encoding (zoneOffset X timezone) b.toNat →
        elapsed a b = instantOf X encoding (zoneOffset X timezone) b.toNat -
          instantOf X encoding (zoneOffset X timezone) a.toNat) := by
  have hboundsA := instantOf_bounds ha
  have hboundsB := instantOf_bounds hb
  have hltNat := UInt64.lt_iff_toNat_lt.mp hlt
  unfold ExactOrFar Exact
  rcases Nat.lt_or_ge (b.toNat - a.toNat) (2 ^ 63) with hnear | hfar
  · rw [elapsed_of_lt hnear]
    omega
  · have hneg := elapsed_neg hfar
    omega

theorem transitionsInSeconds_iff
    (htimed : ∀ r ∈ inputs records, Timed X encoding timezone r.timestamp r.normalizedTimestamp) :
    TransitionsInSeconds X records ↔
      ∀ a ∈ inputs records, ∀ b ∈ inputs records, eligible a → eligible b →
        a.channelId ≠ b.channelId → a.timestamp < b.timestamp →
        ExactOrFar X encoding (zoneOffset X timezone) a.timestamp b.timestamp := by
  constructor
  · intro hlaw a ha b hb heligibleA heligibleB hchannels hlt
    rw [exactOrFar_iff (htimed a ha) (htimed b hb) hlt]
    have hboundsA := instantOf_bounds (htimed a ha)
    have hboundsB := instantOf_bounds (htimed b hb)
    have hwindow := fun window hbound => (hlaw window hbound).2 a ha b hb heligibleA heligibleB
      hchannels hlt _ ((secondsBetween_iff (htimed a ha) (htimed b hb)).mpr rfl)
    simp only [exists_transition_iff _ ha hb heligibleA heligibleB hchannels] at hwindow
    have hfits := elapsed_lt a.timestamp b.timestamp
    -- the windows that just reach one of the two differences
    have helapsed := hwindow (elapsed a.timestamp b.timestamp) hfits
    have hsecs := hwindow _ (show instantOf X encoding (zoneOffset X timezone) b.timestamp.toNat -
      instantOf X encoding (zoneOffset X timezone) a.timestamp.toNat < 2 ^ 63 by omega)
    omega
  · intro hexact window hbound
    constructor
    · intro t ht
      obtain ⟨a, ha, b, hb, heligibleA, heligibleB, hchannels, -, hfrom, hto, hdelta,
        hpositive, -⟩ := detectTransitions_sound ht
      rw [hdelta] at hpositive
      have hlt := UInt64.lt_iff_toNat_lt.mpr (lt_of_elapsed_pos hpositive)
      rw [hfrom, hto, hdelta, secondsBetween_iff (htimed a ha) (htimed b hb)]
      exact (exactOrFar_iff (htimed a ha) (htimed b hb) hlt).mp
        (hexact a ha b hb heligibleA heligibleB hchannels hlt) (.inl hpositive)
    · intro a ha b hb heligibleA heligibleB hchannels hlt secs hsecs
      rw [secondsBetween_iff (htimed a ha) (htimed b hb)] at hsecs
      have heq := (exactOrFar_iff (htimed a ha) (htimed b hb) hlt).mp
        (hexact a ha b hb heligibleA heligibleB hchannels hlt)
      rw [exists_transition_iff _ ha hb heligibleA heligibleB hchannels]
      omega

theorem blackoutsInSeconds_iff
    (htimed : ∀ r ∈ inputs records, Timed X encoding timezone r.timestamp r.normalizedTimestamp) :
    BlackoutsInSeconds X records ↔
      ∀ p ∈ silences (inputs records), p.1.1 < p.2.1 →
        ExactOrFar X encoding (zoneOffset X timezone) p.1.1 p.2.1 := by
  have hstamps : ∀ p ∈ silences (inputs records), Timed X encoding timezone p.1.1 p.1.2 ∧
      Timed X encoding timezone p.2.1 p.2.2 := by
    intro p hp
    obtain ⟨-, ⟨a, ha, -, hstampA⟩, ⟨b, hb, -, hstampB⟩⟩ := mem_silences hp
    rw [← hstampA, ← hstampB]
    exact ⟨htimed a ha, htimed b hb⟩
  constructor
  · intro hlaw p hp hlt
    obtain ⟨htimedA, htimedB⟩ := hstamps p hp
    rw [exactOrFar_iff htimedA htimedB hlt]
    have hboundsA := instantOf_bounds htimedA
    have hboundsB := instantOf_bounds htimedB
    have hfits := elapsed_lt p.1.1 p.2.1
    have hgap : ∀ minGap : ℤ, 0 < minGap → minGap < 2 ^ 63 →
        (minGap ≤ elapsed p.1.1 p.2.1 ↔
          minGap ≤ instantOf X encoding (zoneOffset X timezone) p.2.1.toNat -
            instantOf X encoding (zoneOffset X timezone) p.1.1.toNat) := by
      intro minGap hpositive hbound
      rw [← exists_blackout_iff hp hpositive]
      exact (hlaw minGap hpositive hbound).2 p hp hlt _
        ((secondsBetween_iff htimedA htimedB).mpr rfl)
    -- the gaps that are just as long as one of the two differences
    have helapsed := hgap (elapsed p.1.1 p.2.1)
    have hsecs := hgap (instantOf X encoding (zoneOffset X timezone) p.2.1.toNat -
      instantOf X encoding (zoneOffset X timezone) p.1.1.toNat)
    omega
  · intro hexact minGap hpositive hbound
    constructor
    · intro b hb
      obtain ⟨p, hp, hstart, hstop, hduration, -, hlong⟩ := detectGlobalBlackouts_sound hb
      obtain ⟨htimedA, htimedB⟩ := hstamps p hp
      rw [hduration] at hlong
      have hlt := UInt64.lt_iff_toNat_lt.mpr (lt_of_elapsed_pos (hpositive.trans_le hlong))
      rw [show b.startNormalizedTs = p.1.2 from congrArg Prod.snd hstart,
        show b.endNormalizedTs = p.2.2 from congrArg Prod.snd hstop, hduration,
        secondsBetween_iff htimedA htimedB]
      exact (exactOrFar_iff htimedA htimedB hlt).mp (hexact p hp hlt)
        (.inl (hpositive.trans_le hlong))
    · intro p hp hlt secs hsecs
      obtain ⟨htimedA, htimedB⟩ := hstamps p hp
      rw [secondsBetween_iff htimedA htimedB] at hsecs
      have heq := (exactOrFar_iff htimedA htimedB hlt).mp (hexact p hp hlt)
      rw [exists_blackout_iff hp hpositive]
      omega

/-- An exact difference is the one between the instants, and fits the signed type. -/
theorem secondsBetween_of_exact {a b : UInt64} {textA textB : String}
    (ha : Timed X encoding timezone a textA) (hb : Timed X encoding timezone b textB)
    (hlt : a < b) (hexact : Exact X encoding (zoneOffset X timezone) a b) :
    SecondsBetween X.chrono textA textB (b.toNat - a.toNat : ℕ) ∧
      asI64 (b.toNat - a.toNat) = (b.toNat - a.toNat : ℕ) := by
  have hltNat := UInt64.lt_iff_toNat_lt.mp hlt
  have hboundsA := instantOf_bounds ha
  have hboundsB := instantOf_bounds hb
  unfold Exact at hexact
  refine ⟨(secondsBetween_iff ha hb).mpr (by omega), ?_⟩
  exact asI64_of_lt (by omega)

theorem alertsInSeconds_iff
    (htimed : ∀ r ∈ records, Timed X encoding timezone r.timestamp r.normalizedTimestamp) :
    AlertsInSeconds X records ↔
      ∀ p ∈ consecutive (datedRecords records), p.1.timestamp < p.2.timestamp →
        Exact X encoding (zoneOffset X timezone) p.1.timestamp p.2.timestamp := by
  have hstamps : ∀ p ∈ consecutive (datedRecords records),
      Timed X encoding timezone p.1.timestamp p.1.normalizedTimestamp ∧
        Timed X encoding timezone p.2.timestamp p.2.normalizedTimestamp := by
    intro p hp
    obtain ⟨hfirst, hsecond⟩ := mem_of_mem_consecutive hp
    exact ⟨htimed p.1 (mem_datedRecords.mp hfirst).1, htimed p.2 (mem_datedRecords.mp hsecond).1⟩
  constructor
  · intro hlaw p hp hlt
    obtain ⟨htimedA, htimedB⟩ := hstamps p hp
    have hltNat := UInt64.lt_iff_toNat_lt.mp hlt
    have hbound := p.2.timestamp.toNat_lt
    -- the threshold that the two neighbours just exceed
    obtain ⟨hreported, hthreshold⟩ := hlaw [] [] []
      (UInt64.ofNat (p.2.timestamp.toNat - p.1.timestamp.toNat - 1))
    have hmax : (UInt64.ofNat (p.2.timestamp.toNat - p.1.timestamp.toNat - 1)).toNat =
        p.2.timestamp.toNat - p.1.timestamp.toNat - 1 :=
      UInt64.toNat_ofNat_of_lt' (show _ < 2 ^ 64 by omega)
    have halert : alertFor p ∈ alerts records
        (UInt64.ofNat (p.2.timestamp.toNat - p.1.timestamp.toNat - 1)) :=
      mem_alerts.mpr ⟨p, hp, by omega, rfl⟩
    have hduration := (secondsBetween_iff htimedA htimedB).mp (hreported _ halert)
    have hsecs := (hthreshold p hp hlt _ ((secondsBetween_iff htimedA htimedB).mpr rfl)).mp
      ⟨_, halert, rfl, rfl, rfl⟩
    have hwrap := asI64_cases (show p.2.timestamp.toNat - p.1.timestamp.toNat < 2 ^ 64 by omega)
    have hsame : (alertFor p).durationSecs =
        asI64 (p.2.timestamp.toNat - p.1.timestamp.toNat) := rfl
    unfold Exact
    omega
  · intro hexact carved events analytics maxGap
    have hdifference : ∀ p ∈ consecutive (datedRecords records),
        maxGap.toNat < p.2.timestamp.toNat - p.1.timestamp.toNat →
        SecondsBetween X.chrono p.1.normalizedTimestamp p.2.normalizedTimestamp
            (p.2.timestamp.toNat - p.1.timestamp.toNat : ℕ) ∧
          (alertFor p).durationSecs = (p.2.timestamp.toNat - p.1.timestamp.toNat : ℕ) := by
      intro p hp hfar
      have hlt : p.1.timestamp < p.2.timestamp := UInt64.lt_iff_toNat_lt.mpr (by omega)
      exact secondsBetween_of_exact (hstamps p hp).1 (hstamps p hp).2 hlt (hexact p hp hlt)
    constructor
    · intro alert halert
      obtain ⟨p, hp, hfar, rfl⟩ := mem_alerts.mp halert
      obtain ⟨hsecs, hduration⟩ := hdifference p hp hfar
      rw [hduration]
      exact hsecs
    · intro p hp hlt secs hsecs
      obtain ⟨htimedA, htimedB⟩ := hstamps p hp
      constructor
      · rintro ⟨alert, halert, hstart, hstop, -⟩
        obtain ⟨q, hq, hfar, rfl⟩ := mem_alerts.mp halert
        have hsecs' := (hdifference q hq hfar).1
        rw [show q.1.normalizedTimestamp = p.1.normalizedTimestamp from hstart,
          show q.2.normalizedTimestamp = p.2.normalizedTimestamp from hstop,
          secondsBetween_iff htimedA htimedB] at hsecs'
        rw [secondsBetween_iff htimedA htimedB] at hsecs
        omega
      · intro hthreshold
        have hsub := hexact p hp hlt
        rw [secondsBetween_iff htimedA htimedB] at hsecs
        unfold Exact at hsub
        exact ⟨_, mem_alerts.mpr ⟨p, hp, by omega, rfl⟩, rfl, rfl, rfl⟩

/-- The raw timestamps that correlation subtracts: of two channels, and around a
common silence. -/
def Correlated (records : List ExtractedRecord) (a b : UInt64) : Prop :=
  a < b ∧
    ((∃ r ∈ inputs records, ∃ r' ∈ inputs records, eligible r ∧ eligible r' ∧
        r.channelId ≠ r'.channelId ∧ r.timestamp = a ∧ r'.timestamp = b) ∨
      ∃ p ∈ silences (inputs records), p.1.1 = a ∧ p.2.1 = b)

/-- Those that the report's timeline subtracts. -/
def Neighbouring (records : List ExtractedRecord) (a b : UInt64) : Prop :=
  a < b ∧ ∃ p ∈ consecutive (datedRecords records), p.1.timestamp = a ∧ p.2.timestamp = b

theorem Correlated.mem {a b : UInt64} (h : Correlated records a b) :
    (∃ r ∈ records, r.timestamp = a) ∧ ∃ r ∈ records, r.timestamp = b := by
  have hinput : ∀ r ∈ inputs records, ∃ record ∈ records, record.timestamp = r.timestamp := by
    intro r hr
    obtain ⟨record, hrecord, rfl⟩ := List.mem_map.mp hr
    exact ⟨record, hrecord, rfl⟩
  obtain ⟨-, ⟨r, hr, r', hr', -, -, -, rfl, rfl⟩ | ⟨p, hp, rfl, rfl⟩⟩ := h
  · exact ⟨hinput r hr, hinput r' hr'⟩
  · obtain ⟨-, ⟨r, hr, -, hstamp⟩, ⟨r', hr', -, hstamp'⟩⟩ := mem_silences hp
    rw [← hstamp, ← hstamp']
    exact ⟨hinput r hr, hinput r' hr'⟩

theorem Neighbouring.mem {a b : UInt64} (h : Neighbouring records a b) :
    (∃ r ∈ records, r.timestamp = a) ∧ ∃ r ∈ records, r.timestamp = b := by
  obtain ⟨-, p, hp, rfl, rfl⟩ := h
  obtain ⟨hfirst, hsecond⟩ := mem_of_mem_consecutive hp
  exact ⟨⟨p.1, (mem_datedRecords.mp hfirst).1, rfl⟩, ⟨p.2, (mem_datedRecords.mp hsecond).1, rfl⟩⟩

theorem durationsInSeconds_iff_exact
    (htimed : ∀ r ∈ records, Timed X encoding timezone r.timestamp r.normalizedTimestamp) :
    DurationsInSeconds X records ↔
      (∀ a b, Correlated records a b → ExactOrFar X encoding (zoneOffset X timezone) a b) ∧
      ∀ a b, Neighbouring records a b → Exact X encoding (zoneOffset X timezone) a b := by
  have htransitions := transitionsInSeconds_iff (timed_inputs htimed)
  have hblackouts := blackoutsInSeconds_iff (timed_inputs htimed)
  have halerts := alertsInSeconds_iff htimed
  constructor
  · rintro ⟨h1, h2, h3⟩
    refine ⟨?_, ?_⟩
    · rintro a b ⟨hlt, ⟨r, hr, r', hr', heligible, heligible', hchannels, rfl, rfl⟩ |
        ⟨p, hp, rfl, rfl⟩⟩
      · exact htransitions.mp h1 r hr r' hr' heligible heligible' hchannels hlt
      · exact hblackouts.mp h2 p hp hlt
    · rintro a b ⟨hlt, p, hp, rfl, rfl⟩
      exact halerts.mp h3 p hp hlt
  · rintro ⟨hcorrelated, hneighbouring⟩
    refine ⟨htransitions.mpr ?_, hblackouts.mpr ?_, halerts.mpr ?_⟩
    · intro r hr r' hr' heligible heligible' hchannels hlt
      exact hcorrelated _ _ ⟨hlt, .inl ⟨r, hr, r', hr', heligible, heligible', hchannels, rfl, rfl⟩⟩
    · intro p hp hlt
      exact hcorrelated _ _ ⟨hlt, .inr ⟨p, hp, rfl, rfl⟩⟩
    · intro p hp hlt
      exact hneighbouring _ _ ⟨hlt, p, hp, rfl, rfl⟩

end Laws

/-- Durations are in seconds exactly when all raw timestamps that a consumer
subtracts count seconds; correlation also passes over two that are too far apart
for the signed type and not in the order of their instants. -/
theorem durationsInSeconds_iff {grammar : GrammarFile} {timezone : Option String}
    {records : List ExtractedRecord} (hclock : ClockOf grammar encoding timezone)
    (hinterpreted : ∀ r ∈ records, ∃ blockIndex byteOffset blockBytes blake3Hash,
      interpretBlock X grammar blockIndex byteOffset blockBytes blake3Hash = .ok r)
    (hvalid : IsPacked encoding → ∀ r ∈ records, ValidPacked r.timestamp.toNat) :
    DurationsInSeconds X records ↔
      (∀ a b, Correlated records a b →
        CountsSeconds X encoding (zoneOffset X timezone) a.toNat b.toNat ∨
          (2 ^ 63 ≤ b.toNat - a.toNat ∧
            instantOf X encoding (zoneOffset X timezone) b.toNat ≤
              instantOf X encoding (zoneOffset X timezone) a.toNat)) ∧
      ∀ a b, Neighbouring records a b →
        CountsSeconds X encoding (zoneOffset X timezone) a.toNat b.toNat := by
  have htimed : ∀ r ∈ records,
      Timed X encoding timezone r.timestamp r.normalizedTimestamp := by
    intro r hr
    obtain ⟨blockIndex, byteOffset, blockBytes, blake3Hash, hinterpret⟩ := hinterpreted r hr
    exact interpretBlock_timed hclock hinterpret
  have hexact : ∀ a b : UInt64, a < b →
      (∃ r ∈ records, r.timestamp = a) → (∃ r ∈ records, r.timestamp = b) →
      (Exact X encoding (zoneOffset X timezone) a b ↔
        CountsSeconds X encoding (zoneOffset X timezone) a.toNat b.toNat) := by
    rintro a b hlt ⟨r, hr, rfl⟩ ⟨r', hr', rfl⟩
    exact instantOf_sub_iff (zoneOffset_lt X timezone) (UInt64.lt_iff_toNat_lt.mp hlt)
      r'.timestamp.toNat_lt fun hpacked => ⟨hvalid hpacked r hr, hvalid hpacked r' hr'⟩
  rw [durationsInSeconds_iff_exact htimed]
  refine and_congr (forall₂_congr fun a b => forall_congr' fun h => ?_)
    (forall₂_congr fun a b => forall_congr' fun h => ?_)
  · rw [ExactOrFar, hexact a b h.1 h.mem.1 h.mem.2]
  · exact hexact a b h.1 h.mem.1 h.mem.2

instance (X : Crates) (encoding : Option String) (offset : ℤ) (a b : ℕ) :
    Decidable (CountsSeconds X encoding offset a b) := by
  unfold CountsSeconds
  infer_instance

/-- Frames of four bytes: the letter a, a channel and a timestamp. -/
def clockGrammar (encoding : String) : GrammarFile where
  id := "clock"
  name := "Clock"
  tier := 1
  descramblePlugin := none
  rules := []
  structures :=
    { superblock := none
      partitionTable := none
      videoBlock := ⟨4, ⟨4, ⟨0, some "a", none⟩,
        [⟨"u8", 1, none, some "channel_id", none, none, none⟩,
          ⟨"u16", 2, none, some "timestamp", some encoding, none, none⟩]⟩, ⟨4, 0⟩⟩ }

theorem clockOf_clockGrammar (encoding : String) :
    ClockOf (clockGrammar encoding) (some encoding) none := by
  simp [ClockOf, clockGrammar]

/-- Channel 1 at raw time 1000, channel 2 at raw time 3000. -/
def clockBlocks : List (List UInt8) := [[97, 1, 0xE8, 0x03], [97, 2, 0xB8, 0x0B]]

def clockRecords (encoding : String) : Parsed (List ExtractedRecord) :=
  clockBlocks.mapM fun block => interpretBlock .sample (clockGrammar encoding) 0 0 block ""

theorem clockRecords_times : ∀ encoding ∈ ["unix_seconds", "unix_millis"], ∃ a b,
    clockRecords encoding = .ok [a, b] ∧ a.timestamp = 1000 ∧ b.timestamp = 3000 ∧
      a.channelId = 1 ∧ b.channelId = 2 ∧ a.isCorrupted = false ∧ b.isCorrupted = false := by
  intro encoding hencoding
  simp only [List.mem_cons, List.not_mem_nil, or_false] at hencoding
  rcases hencoding with rfl | rfl
  · exact ⟨_, _, rfl, by decide, by decide, by decide, by decide, by decide, by decide⟩
  · exact ⟨_, _, rfl, by decide, by decide, by decide, by decide, by decide, by decide⟩

theorem clockRecords_interpreted {encoding : String} {records : List ExtractedRecord}
    (h : clockRecords encoding = .ok records) :
    ∀ r ∈ records, ∃ blockIndex byteOffset blockBytes blake3Hash,
      interpretBlock .sample (clockGrammar encoding) blockIndex byteOffset blockBytes blake3Hash =
        .ok r := by
  intro r hr
  obtain ⟨block, -, hblock⟩ := mem_of_mapM_ok h r hr
  exact ⟨0, 0, block, "", hblock⟩

theorem durationsInSeconds_iff_clock :
    ∃ records, clockRecords "unix_seconds" = .ok records ∧ DurationsInSeconds .sample records := by
  obtain ⟨a, b, hrecords, htimeA, htimeB, -⟩ := clockRecords_times "unix_seconds" (by simp)
  refine ⟨_, hrecords, (durationsInSeconds_iff (clockOf_clockGrammar "unix_seconds")
    (clockRecords_interpreted hrecords) (fun h => absurd h (by decide))).mpr ?_⟩
  have hpair : ∀ start stop : UInt64, start < stop → (∃ r ∈ [a, b], r.timestamp = start) →
      (∃ r ∈ [a, b], r.timestamp = stop) →
      CountsSeconds .sample (some "unix_seconds") (zoneOffset .sample none)
        start.toNat stop.toNat := by
    intro start stop hlt hstart hstop
    simp only [List.mem_cons, List.not_mem_nil, or_false, exists_eq_or_imp, exists_eq_left,
      htimeA, htimeB] at hstart hstop
    obtain ⟨rfl, rfl⟩ : start = 1000 ∧ stop = 3000 := by
      rcases hstart with rfl | rfl <;> rcases hstop with rfl | rfl <;> revert hlt <;> decide
    decide +kernel
  exact ⟨fun start stop h => .inl (hpair start stop h.1 h.mem.1 h.mem.2),
    fun start stop h => hpair start stop h.1 h.mem.1 h.mem.2⟩

/-- Two seconds apart under millisecond timestamps, reported as two thousand. -/
theorem millis_reported_as_seconds :
    ∃ a b, clockRecords "unix_millis" = .ok [a, b] ∧
      SecondsBetween Chrono.gregorian a.normalizedTimestamp b.normalizedTimestamp 2 ∧
      (∃ t ∈ detectTransitions (mergeTimeline (inputs [a, b])) 2000, t.deltaSecs = 2000) ∧
      ¬ DurationsInSeconds .sample [a, b] := by
  obtain ⟨a, b, hrecords, htimeA, htimeB, hchannelA, hchannelB, hcorruptA, hcorruptB⟩ :=
    clockRecords_times "unix_millis" (by simp)
  have htimed : ∀ r ∈ [a, b],
      Timed .sample (some "unix_millis") none r.timestamp r.normalizedTimestamp := by
    intro r hr
    obtain ⟨blockIndex, byteOffset, blockBytes, blake3Hash, hinterpret⟩ :=
      clockRecords_interpreted hrecords r hr
    exact interpretBlock_timed (clockOf_clockGrammar "unix_millis") hinterpret
  have hmemA : a.toCorrelationInput ∈ inputs [a, b] := List.mem_map.mpr ⟨a, by simp, rfl⟩
  have hmemB : b.toCorrelationInput ∈ inputs [a, b] := List.mem_map.mpr ⟨b, by simp, rfl⟩
  have heligibleA : eligible a.toCorrelationInput = true := by
    simp [eligible, ExtractedRecord.toCorrelationInput, hcorruptA, hchannelA]
  have heligibleB : eligible b.toCorrelationInput = true := by
    simp [eligible, ExtractedRecord.toCorrelationInput, hcorruptB, hchannelB]
  have hchannels : a.toCorrelationInput.channelId ≠ b.toCorrelationInput.channelId := by
    simp [ExtractedRecord.toCorrelationInput, hchannelA, hchannelB]
  have helapsed : elapsed a.toCorrelationInput.timestamp b.toCorrelationInput.timestamp = 2000 := by
    simp only [ExtractedRecord.toCorrelationInput, htimeA, htimeB]
    decide
  refine ⟨a, b, hrecords, ?_, ?_, fun h => ?_⟩
  · refine (secondsBetween_iff (htimed a (by simp)) (htimed b (by simp))).mpr ?_
    rw [htimeA, htimeB]
    decide +kernel
  · obtain ⟨t, ht, hkey⟩ := (exists_transition_iff 2000 hmemA hmemB heligibleA
      heligibleB hchannels).mpr (by rw [helapsed]; decide)
    refine ⟨t, ht, ?_⟩
    obtain ⟨a', -, b', -, -, -, -, hkey', -, -, hdelta, -⟩ := detectTransitions_sound ht
    obtain ⟨-, -, hfrom, hto⟩ := by simpa using hkey.symm.trans hkey'
    rw [hdelta, ← hfrom, ← hto, helapsed]
  · have hexact := ((durationsInSeconds_iff_exact htimed).mp h).1 1000 3000
      ⟨by decide, .inl ⟨_, hmemA, _, hmemB, heligibleA, heligibleB, hchannels, htimeA, htimeB⟩⟩
    revert hexact
    unfold ExactOrFar Exact
    decide +kernel

end Dvrft.Durations
