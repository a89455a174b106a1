import Dvrft.Correlation
import Dvrft.Instants

/-!
Packing a civil time. A time of the years 2000 to 2063 goes into 32 bits, the larger
field into the higher bits; what stands above them does not matter when it is read
back, and below 2^32 the packed times have the order of the instants.
-/

namespace Dvrft.Packing

open Gregorian Errors Machine Platform Timestamps PackedDates Correlation Interpreter Instants

/-- A field above `w` bits and what is below it. -/
theorem shiftLeft_or {w low : ℕ} (field : ℕ) (hlow : low < 2 ^ w) :
    field <<< w ||| low = field * 2 ^ w + low := by
  rw [← Nat.shiftLeft_add_eq_or_of_lt hlow, Nat.shiftLeft_eq]

/-- A civil date and time of the years that six bits can count from 2000. -/
structure CivilTime where
  fields : Packed
  year : 2000 ≤ fields.year ∧ fields.year ≤ 2063
  date : ValidDate fields.year fields.month fields.day
  time : ValidTime fields.hour fields.minute fields.second

namespace CivilTime

variable (d : CivilTime)

/-- Every field at its place in the 32 bits. -/
def pack : ℕ :=
  ((d.fields.year - 2000).toNat <<< 26) ||| (d.fields.month <<< 22) ||| (d.fields.day <<< 17) |||
    (d.fields.hour <<< 12) ||| (d.fields.minute <<< 6) ||| d.fields.second

/-- Seconds from the epoch, as if the time were meant in UTC. -/
def seconds : ℤ :=
  civilSeconds d.fields.year d.fields.month d.fields.day d.fields.hour d.fields.minute
    d.fields.second

theorem bounds : d.fields.month < 16 ∧ d.fields.day < 32 ∧ d.fields.hour < 32 ∧
    d.fields.minute < 64 ∧ d.fields.second < 64 := by
  have hmonth := d.date.month
  have hday := d.date.day.2.trans (daysInMonth_le _ _)
  have hhour := d.time.hour
  have hminute := d.time.minute
  have hsecond := d.time.second
  omega

/-- No two fields share a bit. -/
theorem pack_eq : d.pack = (d.fields.year - 2000).toNat * 2 ^ 26 + d.fields.month * 2 ^ 22 +
    d.fields.day * 2 ^ 17 + d.fields.hour * 2 ^ 12 + d.fields.minute * 2 ^ 6 +
      d.fields.second := by
  obtain ⟨hmonth, hday, hhour, hminute, hsecond⟩ := d.bounds
  unfold pack
  generalize (d.fields.year - 2000).toNat = year
  simp only [Nat.or_assoc]
  rw [shiftLeft_or (w := 6) _ (by omega), shiftLeft_or (w := 12) _ (by omega),
    shiftLeft_or (w := 17) _ (by omega), shiftLeft_or (w := 22) _ (by omega),
    shiftLeft_or (w := 26) _ (by omega)]
  omega

theorem lowBits_pack : lowBits d.pack = d.pack := by
  have hbounds := d.bounds
  have hyear := d.year
  rw [lowBits, pack_eq]
  omega

variable {d} {raw : ℕ}

/-- The bits above a packed time are not read. -/
theorem unpack_of_lowBits (hlow : lowBits raw = d.pack) : unpack raw = d.fields := by
  obtain ⟨hmonth, hday, hhour, hminute, hsecond⟩ := d.bounds
  have hyear := d.year
  rw [pack_eq, lowBits] at hlow
  change unpack raw = ⟨d.fields.year, d.fields.month, d.fields.day, d.fields.hour,
    d.fields.minute, d.fields.second⟩
  unfold unpack
  congr 1
  · omega
  · omega
  · omega
  · omega
  · omega
  · omega

theorem validPacked (hlow : lowBits raw = d.pack) : ValidPacked raw := by
  have hfields := unpack_of_lowBits hlow
  exact ⟨hfields ▸ d.date, hfields ▸ d.time⟩

theorem packedSeconds_of_lowBits (hlow : lowBits raw = d.pack) :
    packedSeconds raw = d.seconds := by
  unfold packedSeconds
  rw [unpack_of_lowBits hlow]
  rfl

variable {a b : CivilTime}

theorem seconds_lt_of_pack_lt (hlt : a.pack < b.pack) : a.seconds < b.seconds := by
  rw [← packedSeconds_of_lowBits a.lowBits_pack, ← packedSeconds_of_lowBits b.lowBits_pack]
  refine packedSeconds_lt (validPacked a.lowBits_pack) (validPacked b.lowBits_pack) ?_
  rw [lowBits_pack, lowBits_pack]
  exact hlt

theorem seconds_eq_of_pack_eq (heq : a.pack = b.pack) : a.seconds = b.seconds := by
  rw [← packedSeconds_of_lowBits a.lowBits_pack, ← packedSeconds_of_lowBits b.lowBits_pack, heq]

/-- Packed times compare like the instants of a zone. -/
theorem compare_pack (a b : CivilTime) (offset : ℤ) :
    compare a.pack b.pack = compare (a.seconds - offset) (b.seconds - offset) := by
  rcases lt_trichotomy a.pack b.pack with hlt | heq | hgt
  · have hseconds := seconds_lt_of_pack_lt hlt
    rw [compare_lt_iff_lt.mpr hlt, compare_lt_iff_lt.mpr (by omega)]
  · rw [compare_eq_iff_eq.mpr heq, seconds_eq_of_pack_eq heq, compare_eq_iff_eq.mpr rfl]
  · have hseconds := seconds_lt_of_pack_lt hgt
    rw [compare_gt_iff_gt.mpr hgt, compare_gt_iff_gt.mpr (by omega)]

end CivilTime

open CivilTime

variable {X : Crates} {encoding timezone : Option String} {offset : ℤ}

theorem instantOf_pack (hpacked : IsPacked encoding) (hoffset : -86400 < offset ∧ offset < 86400)
    {d : CivilTime} {raw : ℕ} (hlow : lowBits raw = d.pack) :
    instantOf X encoding offset raw = d.seconds - offset := by
  rw [instantOf_packed hpacked hoffset (validPacked hlow), packedSeconds_of_lowBits hlow]

/-- In a timeline the packed times are in the order of their instants. -/
theorem mergeTimeline_chronological (records : List RecordInput) (offset : ℤ) :
    (mergeTimeline records).Pairwise fun e e' => ∀ a b : CivilTime,
      e.timestamp.toNat = a.pack → e'.timestamp.toNat = b.pack →
        a.seconds - offset ≤ b.seconds - offset := by
  refine (mergeTimeline_sorted records).imp fun {e e'} hle a b ha hb => ?_
  rw [ha, hb] at hle
  rcases hle.lt_or_eq with hlt | heq
  · have hseconds := seconds_lt_of_pack_lt hlt
    omega
  · rw [seconds_eq_of_pack_eq heq]

/-- A packed time is normalized to its instant, and packed times are in the order of
their instants. -/
theorem packed_times_ordered (hpacked : IsPacked encoding)
    (hzone : parseTimezoneOffset X timezone = (.ok offset : Parsed ℤ)) :
    (∀ (d : CivilTime) (raw : ℕ), raw % 2 ^ 32 = d.pack →
      ∃ text, normalizeTimestamp X raw encoding timezone = (.ok text : Parsed String) ∧
        X.chrono.Denotes text (d.seconds - offset)) ∧
    (∀ a b : CivilTime,
      compare a.pack b.pack = compare (a.seconds - offset) (b.seconds - offset)) ∧
    ∀ records : List RecordInput,
      (mergeTimeline records).Pairwise fun e e' => ∀ a b : CivilTime,
        e.timestamp.toNat = a.pack → e'.timestamp.toNat = b.pack →
          a.seconds - offset ≤ b.seconds - offset := by
  refine ⟨fun d raw hlow => ?_, fun a b => compare_pack a b offset,
    fun records => mergeTimeline_chronological records offset⟩
  obtain ⟨text, htext, hdenotes⟩ := normalizeTimestamp_of_zone hzone raw
  rw [instantOf_pack hpacked (parseTimezoneOffset_lt hzone) hlow] at hdenotes
  exact ⟨text, htext, hdenotes⟩

/-- Half past four in the afternoon of 15 March 2024. -/
def afternoon : CivilTime where
  fields := ⟨2024, 3, 15, 16, 30, 45⟩
  year := by decide
  date := by decide
  time := by decide

theorem packed_times_ordered_east :
    ∃ text, normalizeTimestamp Crates.sample (2 ^ 40 + afternoon.pack) (some "dahua_packed")
        (some "+08:00") = (.ok text : Parsed String) ∧
      Crates.sample.chrono.Denotes text (afternoon.seconds - 28800) := by
  have hzone : parseTimezoneOffset Crates.sample (some "+08:00") = (.ok 28800 : Parsed ℤ) := by
    decide +kernel
  exact (packed_times_ordered (by decide) hzone).1 afternoon _ (by decide)

end Dvrft.Packing
