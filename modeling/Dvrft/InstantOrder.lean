import Dvrft.Gregorian
import Mathlib.Data.String.Basic

/-!
The order of RFC 3339 texts. Within the years that are written with four digits
all fields have one width, so the texts of two instants compare, letter by letter,
like the instants.
-/

namespace Dvrft.InstantOrder

open Gregorian

theorem yearsDays_mono {a b : ℤ} (h : a ≤ b) : yearsDays a ≤ yearsDays b := by
  unfold yearsDays
  omega

theorem wholeYears_mono {a b : ℤ} (h : a ≤ b) : wholeYears a ≤ wholeYears b := by
  by_contra hlt
  have ha := (wholeYears_spec a).1
  have hb := (wholeYears_spec b).2
  have hyears : yearsDays (wholeYears b + 1) ≤ yearsDays (wholeYears a) :=
    yearsDays_mono (by omega)
  omega

theorem monthUpTo_le (y n : ℤ) (m : ℕ) : monthUpTo y n m ≤ max m 1 := by
  induction m with
  | zero => simp [monthUpTo]
  | succ m ih =>
    cases m with
    | zero => simp [monthUpTo]
    | succ m =>
      unfold monthUpTo
      split_ifs
      · omega
      · omega

theorem monthUpTo_mono (y : ℤ) {a b : ℤ} (h : a ≤ b) (m : ℕ) :
    monthUpTo y a m ≤ monthUpTo y b m := by
  induction m with
  | zero => exact le_rfl
  | succ m ih =>
    cases m with
    | zero => exact le_rfl
    | succ m =>
      have hle := monthUpTo_le y a (m + 1)
      unfold monthUpTo
      split_ifs
      · exact le_rfl
      · omega
      · omega
      · exact ih

/-- The first field in which two civil times differ is smaller in the first. -/
def Before (a b : Civil) : Prop :=
  a.year < b.year ∨ a.year = b.year ∧ (a.month < b.month ∨ a.month = b.month ∧
    (a.day < b.day ∨ a.day = b.day ∧ (a.hour < b.hour ∨ a.hour = b.hour ∧
      (a.minute < b.minute ∨ a.minute = b.minute ∧ a.second < b.second))))

/-- Within a day the time of day decides. -/
theorem civil_before_of_same_day {s t : ℤ} (h : s < t) (hday : s / 86400 = t / 86400) :
    Before (civil s) (civil t) := by
  have hyear : (civil s).year = (civil t).year := by simp only [civil, hday]
  have hmonth : (civil s).month = (civil t).month := by simp only [civil, hday]
  have hsame : (civil s).day = (civil t).day := by simp only [civil, hday]
  refine .inr ⟨hyear, .inr ⟨hmonth, .inr ⟨hsame, ?_⟩⟩⟩
  simp only [civil]
  omega

/-- Of two days the year decides, then the month, then the day in it. -/
theorem civil_before_of_day_lt {s t : ℤ} (h : s / 86400 < t / 86400) :
    Before (civil s) (civil t) := by
  have hyears : wholeYears (s / 86400 + 719162) ≤ wholeYears (t / 86400 + 719162) :=
    wholeYears_mono (by omega)
  rcases hyears.lt_or_eq with hlt | hsame
  · exact .inl (by simp only [civil]; omega)
  · have hyear : (civil s).year = (civil t).year := by simp only [civil, hsame]
    obtain ⟨hlow, hhigh⟩ := dayOfYear_bounds (s / 86400 + 719162)
    obtain ⟨hlow', hhigh'⟩ := dayOfYear_bounds (t / 86400 + 719162)
    refine .inr ⟨hyear, ?_⟩
    simp only [civil, hsame] at *
    generalize wholeYears (t / 86400 + 719162) = y at *
    simp only [show y + 1 - 1 = y by omega]
    have hmonths := monthUpTo_mono (y + 1)
      (show s / 86400 + 719162 - yearsDays y ≤ t / 86400 + 719162 - yearsDays y by omega) 12
    rcases hmonths.lt_or_eq with hlt | hmonth
    · exact .inl hlt
    · have hs := month_of_day_spec (y + 1) _ hlow hhigh
      refine .inr ⟨hmonth, .inl ?_⟩
      rw [hmonth] at hs ⊢
      omega

theorem civil_before {s t : ℤ} (h : s < t) : Before (civil s) (civil t) := by
  rcases (show s / 86400 ≤ t / 86400 by omega).lt_or_eq with hlt | hsame
  · exact civil_before_of_day_lt hlt
  · exact civil_before_of_same_day h hsame

theorem append_lt_of_lt {a b : List Char} (hlen : a.length = b.length) (h : a < b)
    (c d : List Char) : a ++ c < b ++ d := by
  induction a generalizing b with
  | nil =>
    rw [List.eq_nil_of_length_eq_zero hlen.symm] at h
    exact absurd h (lt_irrefl _)
  | cons x a ih =>
    cases b with
    | nil => simp at hlen
    | cons y b =>
      rw [List.cons_append, List.cons_append, List.cons_lt_cons_iff]
      rcases List.cons_lt_cons_iff.mp h with hlt | ⟨rfl, hlt⟩
      · exact .inl hlt
      · exact .inr ⟨rfl, ih (by simpa using hlen) hlt⟩

/-- A field in front decides unless it is the same. -/
theorem field_lt {a b : List Char} (hlen : a.length = b.length) {sep : Char}
    {c d : List Char} (h : a < b ∨ a = b ∧ c < d) : a ++ sep :: c < b ++ sep :: d := by
  rcases h with hlt | ⟨rfl, hlt⟩
  · exact append_lt_of_lt hlen hlt _ _
  · induction a with
    | nil => exact List.cons_lt_cons_iff.mpr (.inr ⟨rfl, hlt⟩)
    | cons x a ih => exact List.cons_lt_cons_iff.mpr (.inr ⟨rfl, ih rfl⟩)

theorem twoDigits_lt {a b : ℕ} (h : a < b) (hb : b < 100) : twoDigits a < twoDigits b := by
  have hdigit : ∀ x < 10, ∀ y < x, Nat.digitChar y < Nat.digitChar x := by decide
  rw [twoDigits, twoDigits, List.cons_lt_cons_iff]
  rcases (show a / 10 ≤ b / 10 by omega).lt_or_eq with hlt | hsame
  · exact .inl (hdigit _ (by omega) _ hlt)
  · refine .inr ⟨by rw [hsame], List.cons_lt_cons_iff.mpr (.inl ?_)⟩
    exact hdigit _ (by omega) _ (by omega)

theorem twoDigits_field_lt {a b : ℕ} (hb : b < 100) {sep : Char} {c d : List Char}
    (h : a < b ∨ a = b ∧ c < d) : twoDigits a ++ sep :: c < twoDigits b ++ sep :: d :=
  field_lt (by rfl) (h.imp (fun hlt => twoDigits_lt hlt hb) (And.imp_left (congrArg twoDigits)))

theorem toDigits_ten_mul {n : ℕ} (h : 10 ≤ n) :
    Nat.toDigits 10 n = Nat.toDigits 10 (n / 10) ++ [Nat.digitChar (n % 10)] :=
  Nat.toDigits_of_base_le (by omega) h

/-- Four digits are twice two digits. -/
theorem padded_four {n : ℕ} (h : n < 10000) :
    padded 4 n = twoDigits (n / 100) ++ twoDigits (n % 100) := by
  have hthousands : n / 100 / 10 = n / 10 / 10 / 10 := by omega
  have hhundreds : n / 100 % 10 = n / 10 / 10 % 10 := by omega
  have htens : n % 100 / 10 = n / 10 % 10 := by omega
  have hones : n % 100 % 10 = n % 10 := by omega
  rw [padded, twoDigits, twoDigits, hthousands, hhundreds, htens, hones]
  by_cases hone : n < 10
  · rw [Nat.toDigits_of_lt_base hone, show n / 10 = 0 by omega, Nat.mod_eq_of_lt hone]
    rfl
  · rw [toDigits_ten_mul (by omega)]
    by_cases htwo : n / 10 < 10
    · rw [Nat.toDigits_of_lt_base htwo, show n / 10 / 10 = 0 by omega, Nat.mod_eq_of_lt htwo]
      rfl
    · rw [toDigits_ten_mul (by omega)]
      by_cases hthree : n / 10 / 10 < 10
      · rw [Nat.toDigits_of_lt_base hthree, show n / 10 / 10 / 10 = 0 by omega,
          Nat.mod_eq_of_lt hthree]
        rfl
      · rw [toDigits_ten_mul (by omega), Nat.toDigits_of_lt_base (by omega)]
        rfl

theorem padded_four_lt {a b : ℕ} (h : a < b) (hb : b < 10000) : padded 4 a < padded 4 b := by
  rw [padded_four (by omega), padded_four hb]
  rcases (show a / 100 ≤ b / 100 by omega).lt_or_eq with hlt | hsame
  · exact append_lt_of_lt (by rfl) (twoDigits_lt hlt (by omega)) _ _
  · have hlast : twoDigits (a % 100) < twoDigits (b % 100) := twoDigits_lt (by omega) (by omega)
    rw [hsame]
    exact List.cons_lt_cons_iff.mpr (.inr ⟨rfl, List.cons_lt_cons_iff.mpr (.inr ⟨rfl, hlast⟩)⟩)

/-- An instant of the years 0 to 9999. -/
def FourDigitYear (t : ℤ) : Prop := 0 ≤ (civil t).year ∧ (civil t).year ≤ 9999

theorem yearText_four {y : ℤ} (h : 0 ≤ y ∧ y ≤ 9999) : yearText y = padded 4 y.toNat := if_pos h

/-- Later instants have greater texts. -/
theorem rfc3339_lt {s t : ℤ} (hs : FourDigitYear s) (ht : FourDigitYear t) (h : s < t) :
    rfc3339 s < rfc3339 t := by
  obtain ⟨hmonth, hday, hhour, hminute, hsecond⟩ := civil_bounds t
  have hyearLength : (padded 4 (civil s).year.toNat).length =
      (padded 4 (civil t).year.toNat).length := by
    rw [padded_four (by have := hs.2; omega), padded_four (by have := ht.2; omega)]
    rfl
  rw [String.lt_iff_toList_lt, rfc3339, rfc3339, String.toList_ofList, String.toList_ofList,
    yearText_four hs, yearText_four ht]
  simp only [List.cons_append, List.append_assoc]
  refine field_lt hyearLength ?_
  rcases civil_before h with hlt | ⟨hsame, hrest⟩
  · have hbound := ht.2
    have hlow := hs.1
    exact .inl (padded_four_lt (by omega) (by omega))
  refine .inr ⟨by rw [hsame], ?_⟩
  refine twoDigits_field_lt hmonth (hrest.imp_right (And.imp_right fun hrest => ?_))
  refine twoDigits_field_lt hday (hrest.imp_right (And.imp_right fun hrest => ?_))
  refine twoDigits_field_lt hhour (hrest.imp_right (And.imp_right fun hrest => ?_))
  refine twoDigits_field_lt hminute (hrest.imp_right (And.imp_right fun hlt => ?_))
  exact append_lt_of_lt (by rfl) (twoDigits_lt hlt hsecond) _ _

/-- Before the end of the year 9999 a later instant has the greater text. -/
theorem fourDigitYear_of_le {t : ℤ} (hlow : 0 ≤ t) (hhigh : t ≤ civilSeconds 9999 12 31 23 59 59) :
    FourDigitYear t := by
  have hend : civilSeconds 9999 12 31 23 59 59 = 253402300799 := by decide
  obtain ⟨hfrom, hto⟩ := wholeYears_spec (t / 86400 + 719162)
  simp only [FourDigitYear, civil, yearsDays] at *
  omega

theorem rfc3339_le_iff {s t : ℤ} (hs : FourDigitYear s) (ht : FourDigitYear t) :
    rfc3339 s ≤ rfc3339 t ↔ s ≤ t := by
  constructor
  · intro hle
    by_contra hlt
    exact absurd (rfc3339_lt ht hs (not_le.mp hlt)) (not_lt.mpr hle)
  · intro hle
    rcases hle.lt_or_eq with hlt | rfl
    · exact (rfc3339_lt hs ht hlt).le
    · exact le_rfl

end Dvrft.InstantOrder
