import Mathlib.Data.Int.Notation
import Mathlib.Data.List.Basic
import Mathlib.Tactic.IntervalCases
import Mathlib.Tactic.Ring

/-!
The proleptic Gregorian calendar in days and seconds since 1970-01-01, and the
RFC 3339 text of an instant to the second. A date is turned into a day number
from the lengths of years and months alone; each month starts where the one
before it ends. The text determines the instant.
-/

namespace Dvrft.Gregorian

def leap (y : ℤ) : Prop := y % 4 = 0 ∧ (y % 100 ≠ 0 ∨ y % 400 = 0)

instance (y : ℤ) : Decidable (leap y) := by unfold leap; infer_instance

def daysInMonth (y : ℤ) (m : ℕ) : ℕ :=
  if m = 2 then (if leap y then 29 else 28)
  else if m = 4 ∨ m = 6 ∨ m = 9 ∨ m = 11 then 30 else 31

/-- Days of `years` whole years counted from 0001-01-01. -/
def yearsDays (years : ℤ) : ℤ := 365 * years + years / 4 - years / 100 + years / 400

/-- Days of a year before the first of month `m`. -/
def daysBeforeMonth (y : ℤ) (m : ℕ) : ℤ :=
  (match m with
    | 2 => 31 | 3 => 59 | 4 => 90 | 5 => 120 | 6 => 151 | 7 => 181
    | 8 => 212 | 9 => 243 | 10 => 273 | 11 => 304 | 12 => 334 | _ => 0) +
    (if 2 < m ∧ leap y then 1 else 0)

/-- Days from 1970-01-01 to the given date. -/
def dayNumber (y : ℤ) (m d : ℕ) : ℤ :=
  yearsDays (y - 1) + daysBeforeMonth y m + (d : ℤ) - 1 - 719162

structure ValidDate (y : ℤ) (m d : ℕ) : Prop where
  month : 1 ≤ m ∧ m ≤ 12
  day : 1 ≤ d ∧ d ≤ daysInMonth y m

structure ValidTime (h mi s : ℕ) : Prop where
  hour : h < 24
  minute : mi < 60
  second : s < 60

instance (y : ℤ) (m d : ℕ) : Decidable (ValidDate y m d) :=
  decidable_of_iff ((1 ≤ m ∧ m ≤ 12) ∧ 1 ≤ d ∧ d ≤ daysInMonth y m)
    ⟨fun h => ⟨h.1, h.2⟩, fun h => ⟨h.month, h.day⟩⟩

instance (h mi s : ℕ) : Decidable (ValidTime h mi s) :=
  decidable_of_iff (h < 24 ∧ mi < 60 ∧ s < 60)
    ⟨fun t => ⟨t.1, t.2.1, t.2.2⟩, fun t => ⟨t.hour, t.minute, t.second⟩⟩

/-- Seconds from the epoch to a civil date and time. -/
def civilSeconds (y : ℤ) (m d h mi s : ℕ) : ℤ :=
  86400 * dayNumber y m d + 3600 * (h : ℤ) + 60 * (mi : ℤ) + (s : ℤ)

theorem daysInMonth_le (y : ℤ) (m : ℕ) : daysInMonth y m ≤ 31 := by
  unfold daysInMonth
  split_ifs <;> omega

theorem yearsDays_succ (y : ℤ) :
    yearsDays y = yearsDays (y - 1) + 365 + (if leap y then 1 else 0) := by
  unfold yearsDays leap
  split_ifs <;> omega

/-- Months counted through all years, starting with month 0 in January of year 0. -/
def monthStart (k : ℤ) : ℤ := dayNumber (k / 12) ((k % 12).toNat + 1) 1

/-- A month begins where the month before it ends. -/
theorem monthStart_succ (k : ℤ) :
    monthStart (k + 1) = monthStart k + daysInMonth (k / 12) ((k % 12).toNat + 1) := by
  have hlow : 0 ≤ k % 12 := by omega
  have hhigh : k % 12 < 12 := by omega
  obtain ⟨y, hy⟩ : ∃ y, k / 12 = y := ⟨_, rfl⟩
  obtain ⟨j, hj⟩ : ∃ j : ℕ, k % 12 = j := ⟨(k % 12).toNat, by omega⟩
  have hjlt : j < 12 := by omega
  have hk : k = 12 * y + j := by omega
  have hstep := yearsDays_succ y
  unfold monthStart
  rw [hy, hj]
  by_cases hlast : j = 11
  · have hyear : (k + 1) / 12 = y + 1 := by omega
    have hmonth : (k + 1) % 12 = 0 := by omega
    subst hlast
    rw [hyear, hmonth]
    simp only [dayNumber, daysBeforeMonth, daysInMonth] at hstep ⊢
    rw [show y + 1 - 1 = y by omega, hstep]
    by_cases hleap : leap y <;> simp [hleap] <;> omega
  · have hyear : (k + 1) / 12 = y := by omega
    have hmonth : (k + 1) % 12 = ((j + 1 : ℕ) : ℤ) := by omega
    rw [hyear, hmonth]
    simp only [Int.toNat_natCast, dayNumber, daysInMonth]
    have hjlt' : j < 11 := by omega
    interval_cases j <;> by_cases hleap : leap y <;>
      simp [daysBeforeMonth, hleap] <;> omega

/-- Between two months lie at most 31 days for each month passed. -/
theorem monthStart_add_le (k : ℤ) (n : ℕ) :
    monthStart k ≤ monthStart (k + n) ∧ monthStart (k + n) ≤ monthStart k + 31 * (n : ℤ) := by
  induction n with
  | zero => simp
  | succ n ih =>
    have hstep := monthStart_succ (k + n)
    have hle := daysInMonth_le ((k + n) / 12) (((k + n) % 12).toNat + 1)
    rw [show k + ((n + 1 : ℕ) : ℤ) = k + n + 1 by push_cast; ring]
    push_cast
    omega

theorem dayNumber_eq_monthStart (y : ℤ) (m d : ℕ) (hm : 1 ≤ m ∧ m ≤ 12) :
    dayNumber y m d = monthStart (12 * y + (m : ℤ) - 1) + (d : ℤ) - 1 := by
  have hyear : (12 * y + (m : ℤ) - 1) / 12 = y := by omega
  have hmonth : ((12 * y + (m : ℤ) - 1) % 12).toNat + 1 = m := by omega
  unfold monthStart
  rw [hyear, hmonth]
  simp only [dayNumber]
  omega

/-- The number of whole years before day `n` counted from 0001-01-01: an
estimate from the mean length of a year, put right by at most one. -/
def wholeYears (n : ℤ) : ℤ :=
  let k := n * 400 / 146097
  if n < yearsDays k then k - 1
  else if yearsDays (k + 1) ≤ n then k + 1
  else k

theorem wholeYears_spec (n : ℤ) :
    yearsDays (wholeYears n) ≤ n ∧ n < yearsDays (wholeYears n + 1) := by
  unfold wholeYears yearsDays
  dsimp only
  generalize hk : n * 400 / 146097 = k
  split_ifs <;> omega

/-- The last month up to `m` that begins on day `n` of year `y` or before. -/
def monthUpTo (y n : ℤ) : ℕ → ℕ
  | m + 2 => if daysBeforeMonth y (m + 2) ≤ n then m + 2 else monthUpTo y n (m + 1)
  | _ => 1

structure Civil where
  year : ℤ
  month : ℕ
  day : ℕ
  hour : ℕ
  minute : ℕ
  second : ℕ
  deriving DecidableEq, Repr

def civil (t : ℤ) : Civil :=
  let n := t / 86400 + 719162
  let y := wholeYears n + 1
  let dayOfYear := n - yearsDays (y - 1)
  let m := monthUpTo y dayOfYear 12
  { year := y
    month := m
    day := (dayOfYear - daysBeforeMonth y m).toNat + 1
    hour := (t % 86400 / 3600).toNat
    minute := (t % 3600 / 60).toNat
    second := (t % 60).toNat }

theorem daysBeforeMonth_succ_le (y : ℤ) (m : ℕ) (hm : 1 ≤ m ∧ m ≤ 11) :
    daysBeforeMonth y (m + 1) ≤ daysBeforeMonth y m + 31 := by
  obtain ⟨hlow, hhigh⟩ := hm
  interval_cases m <;> by_cases hleap : leap y <;> simp [daysBeforeMonth, hleap]

theorem monthUpTo_spec (y n : ℤ) (m : ℕ) (hm : 1 ≤ m ∧ m ≤ 12) (hlow : 0 ≤ n)
    (hhigh : n ≤ daysBeforeMonth y m + 31) :
    1 ≤ monthUpTo y n m ∧ monthUpTo y n m ≤ m ∧ daysBeforeMonth y (monthUpTo y n m) ≤ n ∧
      n ≤ daysBeforeMonth y (monthUpTo y n m) + 31 := by
  induction m with
  | zero => omega
  | succ m ih =>
    cases m with
    | zero => simpa [monthUpTo, daysBeforeMonth, hlow] using hhigh
    | succ m =>
      unfold monthUpTo
      split_ifs with hstart
      · exact ⟨by omega, by omega, hstart, hhigh⟩
      · have hstep : daysBeforeMonth y (m + 2) ≤ daysBeforeMonth y (m + 1) + 31 :=
          daysBeforeMonth_succ_le y (m + 1) (by omega)
        obtain ⟨hone, hle, hfrom, hto⟩ := ih (by omega) (by omega)
        exact ⟨hone, by omega, hfrom, hto⟩

theorem dayOfYear_bounds (n : ℤ) :
    0 ≤ n - yearsDays (wholeYears n) ∧ n - yearsDays (wholeYears n) ≤ 365 := by
  have hyears := wholeYears_spec n
  have hsucc := yearsDays_succ (wholeYears n + 1)
  rw [show wholeYears n + 1 - 1 = wholeYears n by omega] at hsucc
  split_ifs at hsucc <;> omega

/-- The month of a day, as `civil` finds it. -/
theorem month_of_day_spec (y n : ℤ) (hlow : 0 ≤ n) (hhigh : n ≤ 365) :
    1 ≤ monthUpTo y n 12 ∧ monthUpTo y n 12 ≤ 12 ∧ daysBeforeMonth y (monthUpTo y n 12) ≤ n ∧
      n ≤ daysBeforeMonth y (monthUpTo y n 12) + 31 := by
  apply monthUpTo_spec y n 12 (by omega) hlow
  simp only [daysBeforeMonth]
  split_ifs <;> omega

/-- The date and time of an instant lead back to it. -/
theorem civilSeconds_civil (t : ℤ) :
    civilSeconds (civil t).year (civil t).month (civil t).day (civil t).hour
      (civil t).minute (civil t).second = t := by
  obtain ⟨hlow, hhigh⟩ := dayOfYear_bounds (t / 86400 + 719162)
  have hmonth := month_of_day_spec (wholeYears (t / 86400 + 719162) + 1) _ hlow hhigh
  simp only [civil, civilSeconds, dayNumber,
    show wholeYears (t / 86400 + 719162) + 1 - 1 = wholeYears (t / 86400 + 719162) by omega]
  omega

/-- The fields of a civil time fit the digits they are written with. -/
theorem civil_bounds (t : ℤ) :
    (civil t).month < 100 ∧ (civil t).day < 100 ∧ (civil t).hour < 100 ∧
      (civil t).minute < 100 ∧ (civil t).second < 100 := by
  obtain ⟨hlow, hhigh⟩ := dayOfYear_bounds (t / 86400 + 719162)
  have hmonth := month_of_day_spec (wholeYears (t / 86400 + 719162) + 1) _ hlow hhigh
  simp only [civil,
    show wholeYears (t / 86400 + 719162) + 1 - 1 = wholeYears (t / 86400 + 719162) by omega]
  omega

def twoDigits (n : ℕ) : List Char := [Nat.digitChar (n / 10), Nat.digitChar (n % 10)]

/-- Decimal digits, with zeros in front up to the width. -/
def padded (width n : ℕ) : List Char :=
  List.replicate (width - (Nat.toDigits 10 n).length) '0' ++ Nat.toDigits 10 n

/-- Four digits for the years 0 to 9999, a sign before any other year. -/
def yearText (y : ℤ) : List Char :=
  if 0 ≤ y ∧ y ≤ 9999 then padded 4 y.toNat
  else (if 0 ≤ y then '+' else '-') :: padded 4 y.natAbs

/-- `YYYY-MM-DDTHH:MM:SSZ`. -/
def rfc3339 (t : ℤ) : String :=
  let c := civil t
  String.ofList (yearText c.year ++
    ('-' :: twoDigits c.month ++ '-' :: twoDigits c.day ++ 'T' :: twoDigits c.hour ++
      ':' :: twoDigits c.minute ++ ':' :: twoDigits c.second ++ ['Z']))

theorem twoDigits_inj {a b : ℕ} (ha : a < 100) (hb : b < 100)
    (htens : Nat.digitChar (a / 10) = Nat.digitChar (b / 10))
    (hones : Nat.digitChar (a % 10) = Nat.digitChar (b % 10)) : a = b := by
  have hdigit : ∀ x < 10, ∀ y < 10, Nat.digitChar x = Nat.digitChar y → x = y := by decide
  have hdiv := hdigit (a / 10) (by omega) (b / 10) (by omega) htens
  have hmod := hdigit (a % 10) (by omega) (b % 10) (by omega) hones
  omega

theorem padded_injective (width : ℕ) : Function.Injective (padded width) := by
  have hvalue : ∀ n, Nat.ofDigitChars 10 (padded width n) 0 = n := by
    intro n
    rw [padded, Nat.ofDigitChars_append, Nat.ofDigitChars_replicate_zero, Nat.mul_zero,
      Nat.ofDigitChars_ten_toDigits]
  intro a b h
  rw [← hvalue a, h, hvalue b]

/-- Padded digits do not begin with a sign. -/
theorem padded_ne_cons (width n : ℕ) (sign : Char) (rest : List Char)
    (hsign : sign.isDigit = false) : padded width n ≠ sign :: rest := by
  intro h
  have hmem : sign ∈ padded width n := by rw [h]; exact List.mem_cons_self
  rcases List.mem_append.mp hmem with hzero | hdigit
  · rw [List.eq_of_mem_replicate hzero] at hsign
    exact absurd hsign (by decide)
  · rw [Nat.isDigit_of_mem_toDigits (by omega) (by omega) hdigit] at hsign
    exact absurd hsign (by decide)

theorem yearText_injective : Function.Injective yearText := by
  have hsign : ∀ y : ℤ, (if 0 ≤ y then '+' else '-').isDigit = false := by
    intro y
    split_ifs <;> rfl
  intro a b h
  unfold yearText at h
  by_cases ha : 0 ≤ a ∧ a ≤ 9999
  · by_cases hb : 0 ≤ b ∧ b ≤ 9999
    · rw [if_pos ha, if_pos hb] at h
      have hnat := padded_injective 4 h
      omega
    · rw [if_pos ha, if_neg hb] at h
      exact absurd h (padded_ne_cons 4 _ _ _ (hsign b))
  · by_cases hb : 0 ≤ b ∧ b ≤ 9999
    · rw [if_neg ha, if_pos hb] at h
      exact absurd h.symm (padded_ne_cons 4 _ _ _ (hsign a))
    · rw [if_neg ha, if_neg hb] at h
      obtain ⟨hhead, htail⟩ := List.cons.inj h
      have hnat := padded_injective 4 htail
      split_ifs at hhead
      · omega
      · exact absurd hhead (by decide)
      · exact absurd hhead (by decide)
      · omega

/-- The text of an instant determines it. -/
theorem rfc3339_injective : Function.Injective rfc3339 := by
  intro a b h
  have hlist := String.ofList_injective h
  obtain ⟨hyear, hrest⟩ := List.append_inj' hlist (by simp [twoDigits])
  simp only [twoDigits, List.cons_append, List.nil_append, List.cons.injEq, true_and,
    and_true] at hrest
  obtain ⟨hmo1, hmo2, hd1, hd2, hh1, hh2, hmi1, hmi2, hs1, hs2⟩ := hrest
  obtain ⟨hamo, had, hah, hami, has⟩ := civil_bounds a
  obtain ⟨hbmo, hbd, hbh, hbmi, hbs⟩ := civil_bounds b
  have hy := yearText_injective hyear
  have hmo := twoDigits_inj hamo hbmo hmo1 hmo2
  have hd := twoDigits_inj had hbd hd1 hd2
  have hh := twoDigits_inj hah hbh hh1 hh2
  have hmi := twoDigits_inj hami hbmi hmi1 hmi2
  have hs := twoDigits_inj has hbs hs1 hs2
  rw [← civilSeconds_civil a, ← civilSeconds_civil b, hy, hmo, hd, hh, hmi, hs]

example : rfc3339 1773800000 = "2026-03-18T02:13:20Z" := by decide

end Dvrft.Gregorian
