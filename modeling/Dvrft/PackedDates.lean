import Dvrft.Timestamps

/-!
Packed dates. The fields of a packed date stand in the order of their weight, so
packed dates compare like the times they name; but a minute takes 64 units and not
60, and every larger field wastes more, so the difference of two packed dates is a
number of seconds only within one minute.
-/

namespace Dvrft.PackedDates

open Gregorian Machine Platform Timestamps

/-- The date and the time exist. -/
structure ValidPacked (raw : ℕ) : Prop where
  date : ValidDate (unpack raw).year (unpack raw).month (unpack raw).day
  time : ValidTime (unpack raw).hour (unpack raw).minute (unpack raw).second

instance (raw : ℕ) : Decidable (ValidPacked raw) :=
  decidable_of_iff (ValidDate (unpack raw).year (unpack raw).month (unpack raw).day ∧
    ValidTime (unpack raw).hour (unpack raw).minute (unpack raw).second)
    ⟨fun h => ⟨h.1, h.2⟩, fun h => ⟨h.date, h.time⟩⟩

/-- The local time of a packed date, in seconds. -/
def packedSeconds (raw : ℕ) : ℤ :=
  let p := unpack raw
  civilSeconds p.year p.month p.day p.hour p.minute p.second

/-- Months of a packed date since the beginning of year 0. -/
def packedMonth (raw : ℕ) : ℤ := 12 * (unpack raw).year + (unpack raw).month - 1

theorem packedSeconds_eq {raw : ℕ} (h : ValidPacked raw) :
    packedSeconds raw = 86400 * (monthStart (packedMonth raw) + (unpack raw).day - 1) +
      3600 * (unpack raw).hour + 60 * (unpack raw).minute + (unpack raw).second := by
  unfold packedSeconds civilSeconds packedMonth
  dsimp only
  rw [dayNumber_eq_monthStart _ _ _ h.date.month]

/-- The bits that a packed date uses. -/
def lowBits (raw : ℕ) : ℕ := raw % 2 ^ 32

theorem lowBits_eq (raw : ℕ) :
    (lowBits raw : ℤ) = 67108864 * ((unpack raw).year - 2000) +
      4194304 * (unpack raw).month + 131072 * (unpack raw).day + 4096 * (unpack raw).hour +
      64 * (unpack raw).minute + (unpack raw).second := by
  simp only [lowBits, unpack]
  omega

theorem unpack_year (raw : ℕ) : 2000 ≤ (unpack raw).year ∧ (unpack raw).year ≤ 2063 := by
  simp only [unpack]
  omega

/-- A later month begins after the last day of an earlier one. -/
theorem monthStart_lt {raw : ℕ} (h : ValidPacked raw) {k : ℤ} (hk : packedMonth raw < k) :
    monthStart (packedMonth raw) + (unpack raw).day ≤ monthStart k := by
  obtain ⟨n, hn⟩ : ∃ n : ℕ, k = packedMonth raw + 1 + n :=
    ⟨(k - packedMonth raw - 1).toNat, by omega⟩
  have hnext := monthStart_succ (packedMonth raw)
  have hlater := (monthStart_add_le (packedMonth raw + 1) n).1
  have hmonth := h.date.month
  have hyear : packedMonth raw / 12 = (unpack raw).year := by
    unfold packedMonth
    omega
  have hindex : (packedMonth raw % 12).toNat + 1 = (unpack raw).month := by
    unfold packedMonth
    omega
  rw [hyear, hindex] at hnext
  have hday := h.date.day.2
  rw [hn]
  omega

theorem ValidPacked.bounds {raw : ℕ} (h : ValidPacked raw) :
    1 ≤ (unpack raw).month ∧ (unpack raw).month ≤ 12 ∧ 1 ≤ (unpack raw).day ∧
      (unpack raw).day ≤ 31 ∧ (unpack raw).hour < 24 ∧ (unpack raw).minute < 60 ∧
      (unpack raw).second < 60 :=
  ⟨h.date.month.1, h.date.month.2, h.date.day.1,
    h.date.day.2.trans (daysInMonth_le _ _), h.time.hour, h.time.minute, h.time.second⟩

/-- Packed dates lie in the years 2000 to 2063. -/
theorem packedSeconds_bounds {raw : ℕ} (h : ValidPacked raw) :
    946684800 ≤ packedSeconds raw ∧ packedSeconds raw < 3100000000 := by
  have hyear := unpack_year raw
  have hbounds := h.bounds
  obtain ⟨n, hn⟩ : ∃ n : ℕ, packedMonth raw = 24000 + n :=
    ⟨(packedMonth raw - 24000).toNat, by unfold packedMonth; omega⟩
  have hfew : n < 768 := by
    unfold packedMonth at hn
    omega
  have hstart := monthStart_add_le 24000 n
  rw [show monthStart 24000 = 10957 by decide] at hstart
  rw [packedSeconds_eq h, hn]
  generalize monthStart (24000 + n) = start at *
  omega

/-- Where two times of one month differ first. -/
theorem clock_cases {d h mi s d' h' mi' s' : ℕ} (hs : s < 60) (hmi : mi < 60) (hh : h < 24)
    (hle : 131072 * d + 4096 * h + 64 * mi + s ≤
      131072 * d' + 4096 * h' + 64 * mi' + s')
    (hs' : s' < 60) (hmi' : mi' < 60) (hh' : h' < 24) :
    d < d' ∨ (d = d' ∧ h < h') ∨ (d = d' ∧ h = h' ∧ mi < mi') ∨
      (d = d' ∧ h = h' ∧ mi = mi' ∧ s ≤ s') := by
  have hday : d ≤ d' := by omega
  rcases hday.lt_or_eq with hday | rfl
  · exact .inl hday
  · have hhour : h ≤ h' := by omega
    rcases hhour.lt_or_eq with hhour | rfl
    · exact .inr (.inl ⟨rfl, hhour⟩)
    · have hminute : mi ≤ mi' := by omega
      rcases hminute.lt_or_eq with hminute | rfl
      · exact .inr (.inr (.inl ⟨rfl, rfl, hminute⟩))
      · exact .inr (.inr (.inr ⟨rfl, rfl, rfl, by omega⟩))

section Two

variable {a b : ℕ}

/-- Packed dates compare like their months; in one month they compare like the
rest of their fields. -/
theorem packedMonth_le (ha : ValidPacked a) (hb : ValidPacked b)
    (hle : lowBits a ≤ lowBits b) :
    packedMonth a < packedMonth b ∨ (packedMonth a = packedMonth b ∧
      131072 * (unpack a).day + 4096 * (unpack a).hour + 64 * (unpack a).minute +
          (unpack a).second ≤
        131072 * (unpack b).day + 4096 * (unpack b).hour + 64 * (unpack b).minute +
          (unpack b).second) := by
  have hfieldsA := lowBits_eq a
  have hfieldsB := lowBits_eq b
  have hboundsA := ha.bounds
  have hboundsB := hb.bounds
  unfold packedMonth
  omega

/-- Packed dates compare like the times they name. -/
theorem packedSeconds_lt (ha : ValidPacked a) (hb : ValidPacked b)
    (hlt : lowBits a < lowBits b) : packedSeconds a < packedSeconds b := by
  have hboundsA := ha.bounds
  have hboundsB := hb.bounds
  rw [packedSeconds_eq ha, packedSeconds_eq hb]
  rcases packedMonth_le ha hb hlt.le with hmonth | ⟨hmonth, hclock⟩
  · have hstart := monthStart_lt ha hmonth
    generalize monthStart (packedMonth a) = startA at *
    generalize monthStart (packedMonth b) = startB at *
    omega
  · have hfieldsA := lowBits_eq a
    have hfieldsB := lowBits_eq b
    have hyear : (unpack a).year = (unpack b).year ∧ (unpack a).month = (unpack b).month := by
      unfold packedMonth at hmonth
      omega
    rw [hmonth]
    generalize monthStart (packedMonth b) = start at *
    rcases clock_cases (by omega) (by omega) (by omega) hclock (by omega) (by omega) (by omega)
      with hday | ⟨hday, hhour⟩ | ⟨hday, hhour, hminute⟩ | ⟨hday, hhour, hminute, hsecond⟩
    · omega
    · omega
    · omega
    · omega

/-- Two packed dates in order are no farther apart in time than as numbers, and
exactly as far only within one minute. -/
theorem packedSeconds_sub (ha : ValidPacked a) (hb : ValidPacked b)
    (hle : lowBits a ≤ lowBits b) :
    packedSeconds b - packedSeconds a ≤ (lowBits b : ℤ) - lowBits a ∧
      (packedSeconds b - packedSeconds a = (lowBits b : ℤ) - lowBits a ↔
        lowBits a / 64 = lowBits b / 64) := by
  have hfieldsA := lowBits_eq a
  have hfieldsB := lowBits_eq b
  have hboundsA := ha.bounds
  have hboundsB := hb.bounds
  rw [packedSeconds_eq ha, packedSeconds_eq hb]
  rcases packedMonth_le ha hb hle with hmonth | ⟨hmonth, hclock⟩
  · -- a month takes 4194304 units and at most 31 days of seconds
    obtain ⟨n, hn⟩ : ∃ n : ℕ, packedMonth b = packedMonth a + n :=
      ⟨(packedMonth b - packedMonth a).toNat, by omega⟩
    have hstart := (monthStart_add_le (packedMonth a) n).2
    rw [← hn] at hstart
    have hunits : 4194304 * (n : ℤ) ≤ 67108864 * (unpack b).year + 4194304 * (unpack b).month -
        (67108864 * (unpack a).year + 4194304 * (unpack a).month) := by
      unfold packedMonth at hn hmonth
      omega
    have hone : 1 ≤ n := by omega
    generalize monthStart (packedMonth a) = startA at *
    generalize monthStart (packedMonth b) = startB at *
    clear hle hn hmonth
    have hless : 86400 * (startB + (unpack b).day - 1) +
        3600 * (unpack b).hour + 60 * (unpack b).minute + (unpack b).second -
          (86400 * (startA + (unpack a).day - 1) +
            3600 * (unpack a).hour + 60 * (unpack a).minute + (unpack a).second) + 64 <
        (lowBits b : ℤ) - lowBits a := by
      rw [hfieldsA, hfieldsB]
      omega
    refine ⟨by omega, iff_of_false (by omega) (by omega)⟩
  · have hyear : (unpack a).year = (unpack b).year ∧ (unpack a).month = (unpack b).month := by
      unfold packedMonth at hmonth
      omega
    rw [hmonth, hfieldsA, hfieldsB, hyear.1, hyear.2]
    generalize monthStart (packedMonth b) = start at *
    rcases clock_cases (by omega) (by omega) (by omega) hclock (by omega) (by omega) (by omega)
      with hday | ⟨hday, hhour⟩ | ⟨hday, hhour, hminute⟩ | ⟨hday, hhour, hminute, hsecond⟩
    · refine ⟨by omega, iff_of_false (by omega) (by omega)⟩
    · refine ⟨by omega, iff_of_false (by omega) (by omega)⟩
    · refine ⟨by omega, iff_of_false (by omega) (by omega)⟩
    · refine ⟨by omega, iff_of_true (by omega) (by omega)⟩

end Two

end Dvrft.PackedDates
