import Dvrft.ZoneTexts

/-!
What a zone text means, against what is read off it. Texts of the grammar are read
rightly. Of the others only those come to zero, as they should, whose numbers come to
nothing or to a day or more; many a text outside the grammar shifts the clock, and some
end the program.
-/

namespace Dvrft.ZoneGrammar

open Machine Platform Timestamps ZoneTexts

variable {ε : Type}

/-- The number of two digits. -/
def twoDigits (a b : Char) : Option ℕ :=
  if a.isDigit ∧ b.isDigit then some (10 * (a.toNat - '0'.toNat) + (b.toNat - '0'.toNat))
  else none

/-- The seconds of hours and minutes of a day. -/
def clockSeconds (hours mins : Option ℕ) : Option ℤ := do
  let h ← hours
  let m ← mins
  if h ≤ 23 ∧ m ≤ 59 then some (h * 3600 + m * 60) else none

/-- `hh:mm`, `hhmm` or `hh`. -/
def clockTime : List Char → Option ℤ
  | [a, b, ':', c, d] => clockSeconds (twoDigits a b) (twoDigits c d)
  | [a, b, c, d] => clockSeconds (twoDigits a b) (twoDigits c d)
  | [a, b] => clockSeconds (twoDigits a b) (some 0)
  | _ => none

/-- A time of the grammar, with its sign. -/
def zoneTime : List Char → Option ℤ
  | '+' :: rest => clockTime rest
  | '-' :: rest => (clockTime rest).map Neg.neg
  | text => clockTime text

/-- What a text outside the grammar says is nothing. -/
def zoneMeaning (text : List Char) : ℤ := (zoneTime text).getD 0

/-- The seconds that are read off two numbers; a day or more is not taken. -/
def secondsRead (sign : ℤ) (hours mins : List Char) : ℤ :=
  let total := numberOf hours * 3600 + numberOf mins * 60
  if -86400 < total ∧ total < 86400 then sign * total else 0

theorem secondsEast_of_fits (X : Crates) {sign : ℤ} (hsign : sign = 1 ∨ sign = -1)
    {hours mins : List Char} (h : SecondsFit hours mins) :
    (secondsEast X sign (numberOf hours, numberOf mins) : Outcome ε ℤ) =
      .ok (secondsRead sign hours mins) := by
  obtain ⟨hhours, hmins, htotal⟩ := h
  have hsigned := fitsI32_signed hsign htotal
  unfold secondsEast secondsRead
  rw [Build.fitI32_of_fits _ hhours, ok_bind, Build.fitI32_of_fits _ hmins, ok_bind,
    Build.fitI32_of_fits _ htotal, ok_bind, Build.fitI32_of_fits _ hsigned, ok_bind,
    X.chrono.eastOpt_eq]
  dsimp only
  congr 1
  rcases hsign with rfl | rfl
  · split_ifs <;> first | rfl | omega
  · split_ifs <;> first | rfl | omega

/-- The sign that is read off the first character. -/
def signOf (s : List Char) : ℤ := if s.head? = some '-' then -1 else 1

theorem signOf_cases (s : List Char) : signOf s = 1 ∨ signOf s = -1 := by
  unfold signOf
  split_ifs
  · exact .inr rfl
  · exact .inl rfl

/-- A text that is neither empty nor UTC gives an offset in every build exactly when its
numbers can be told apart and fit, and it is the one they make. -/
theorem parseTimezoneOffset_ok_iff (X : Crates) {timezone : Option String} {s : List Char}
    (hs : trim (timezone.getD "").toList = s) (hempty : s ≠ [])
    (hutc : ¬ (s.map Char.toLower = ['u', 't', 'c'] ∨ s.map Char.toLower = ['z'])) (v : ℤ) :
    (∀ build, (parseTimezoneOffset (X.inBuild build) timezone : Outcome ε ℤ) = .ok v) ↔
      ∃ hours mins, ZoneNumbers (unsigned s) hours mins ∧ SecondsFit hours mins ∧
        v = secondsRead (signOf s) hours mins := by
  have heq : ∀ build, (parseTimezoneOffset (X.inBuild build) timezone : Outcome ε ℤ) =
      cutNumbers (unsigned s) >>= secondsEast (X.inBuild build) (signOf s) := by
    intro build
    rw [parseTimezoneOffset_eq, hs]
    dsimp only
    rw [if_neg hempty, if_neg hutc]
    rfl
  have hread : ∀ build hours mins, ZoneNumbers (unsigned s) hours mins →
      SecondsFit hours mins → (parseTimezoneOffset (X.inBuild build) timezone : Outcome ε ℤ) =
        .ok (secondsRead (signOf s) hours mins) := by
    intro build hours mins hnumbers hfit
    rw [heq, cutNumbers_ok_iff.mpr ⟨hours, mins, hnumbers, rfl⟩, ok_bind]
    exact secondsEast_of_fits _ (signOf_cases s) hfit
  constructor
  · intro h
    have hends : (parseTimezoneOffset (X.inBuild .debug) timezone : Outcome ε ℤ) ≠ panicked := by
      rw [h]
      exact ok_ne_panicked v
    rcases parseTimezoneOffset_ne_panicked_iff.mp hends with hnone | hzone |
      ⟨hours, mins, hnumbers, hfit⟩
    · exact absurd (hs.symm.trans hnone) hempty
    · exact absurd (hs ▸ hzone) hutc
    · rw [hs] at hnumbers
      have hvalue := h .debug
      rw [hread _ _ _ hnumbers hfit] at hvalue
      exact ⟨hours, mins, hnumbers, hfit, (Except.ok.inj hvalue).symm⟩
  · rintro ⟨hours, mins, hnumbers, hfit, rfl⟩ build
    exact hread build hours mins hnumbers hfit

theorem ne_of_isDigit {a c : Char} (ha : a.isDigit = true) (hc : c.isDigit = false) : a ≠ c := by
  rintro rfl
  rw [ha] at hc
  cases hc

theorem utf8Size_of_isDigit {a : Char} (ha : a.isDigit = true) : a.utf8Size = 1 := by
  simp only [Char.isDigit, Bool.and_eq_true, decide_eq_true_eq] at ha
  have hle : a.val ≤ 0x7F := UInt32.le_trans ha.2 (by decide)
  exact if_pos hle

theorem clockSeconds_eq_some {hours mins : Option ℕ} {v : ℤ}
    (h : clockSeconds hours mins = some v) :
    ∃ hh mm : ℕ, hours = some hh ∧ mins = some mm ∧ hh ≤ 23 ∧ mm ≤ 59 ∧
      v = hh * 3600 + mm * 60 := by
  obtain ⟨hh, hhours, h⟩ := Option.bind_eq_some_iff.mp h
  obtain ⟨mm, hmins, h⟩ := Option.bind_eq_some_iff.mp h
  split_ifs at h with hle
  exact ⟨hh, mm, hhours, hmins, hle.1, hle.2, (Option.some.inj h).symm⟩

/-- Two digits are read as their number. -/
theorem twoDigits_eq_some {a b : Char} {n : ℕ} (h : twoDigits a b = some n) :
    a.isDigit = true ∧ b.isDigit = true ∧ (n < 2 ^ 31 → numberOf [a, b] = n) := by
  unfold twoDigits at h
  split_ifs at h with hdigits
  obtain ⟨ha, hb⟩ := hdigits
  refine ⟨ha, hb, ?_⟩
  intro hsmall
  have hminus : a ≠ '-' := ne_of_isDigit ha rfl
  have hplus : a ≠ '+' := ne_of_isDigit ha rfl
  have hvalue : digitsValue [a, b] = some (n : ℤ) := by
    rw [← Option.some.inj h]
    simp [digitsValue, ha, hb, Nat.ofDigitChars]
  have hparse : parseI32 [a, b] = (digitsValue [a, b]).filter
      fun z => decide (-2 ^ 31 ≤ z ∧ z < 2 ^ 31) := by
    unfold parseI32
    split <;> simp_all
  rw [numberOf, hparse, hvalue, Option.filter_some, if_pos (by simp; omega), Option.getD_some]

/-- A clean text of the grammar, with the two numbers that are read off it. -/
structure Clocked (clean : List Char) (v : ℤ) (hours mins : List Char) : Prop where
  numbers : ZoneNumbers clean hours mins
  total : numberOf hours * 3600 + numberOf mins * 60 = v
  hours_le : 0 ≤ numberOf hours ∧ numberOf hours ≤ 23
  mins_le : 0 ≤ numberOf mins ∧ numberOf mins ≤ 59
  digit : ∃ a rest, clean = a :: rest ∧ a.isDigit = true

theorem clocked_of_clockSeconds {clean : List Char} {a b : Char} {minute : Option ℕ}
    {mins : List Char} {v : ℤ} (hclean : ∃ rest, clean = a :: rest)
    (h : clockSeconds (twoDigits a b) minute = some v)
    (hmins : ∀ mm : ℕ, minute = some mm → mm ≤ 59 → numberOf mins = mm)
    (hnumbers : ZoneNumbers clean [a, b] mins) : Clocked clean v [a, b] mins := by
  obtain ⟨hh, mm, hhours, hminute, hhle, hmle, rfl⟩ := clockSeconds_eq_some h
  obtain ⟨ha, -, hvalue⟩ := twoDigits_eq_some hhours
  obtain ⟨rest, rfl⟩ := hclean
  have hhour := hvalue (by omega)
  have hmin := hmins mm hminute hmle
  exact
    { numbers := hnumbers
      total := by rw [hhour, hmin]
      hours_le := by rw [hhour]; omega
      mins_le := by rw [hmin]; omega
      digit := ⟨a, rest, rfl, ha⟩ }

theorem isDigit_of_clockSeconds {a b c d : Char} {v : ℤ}
    (h : clockSeconds (twoDigits a b) (twoDigits c d) = some v) :
    a.isDigit = true ∧ b.isDigit = true ∧ c.isDigit = true ∧ d.isDigit = true := by
  obtain ⟨hh, mm, hhours, hmins, -⟩ := clockSeconds_eq_some h
  obtain ⟨ha, hb, -⟩ := twoDigits_eq_some hhours
  obtain ⟨hc, hd, -⟩ := twoDigits_eq_some hmins
  exact ⟨ha, hb, hc, hd⟩

theorem notMem_of_isDigit {text : List Char} {c : Char} (h : ∀ a ∈ text, a.isDigit = true)
    (hc : c.isDigit = false) : c ∉ text := by
  intro hmem
  rw [h c hmem] at hc
  cases hc

/-- Every time of the grammar is read off its two numbers. -/
theorem clocked_of_clockTime {clean : List Char} {v : ℤ} (h : clockTime clean = some v) :
    ∃ hours mins, Clocked clean v hours mins := by
  unfold clockTime at h
  split at h
  · rename_i a b c d
    obtain ⟨ha, hb, hc, hd⟩ := isDigit_of_clockSeconds h
    refine ⟨[a, b], [c, d], clocked_of_clockSeconds ⟨_, rfl⟩ h ?_ (.inl ?_)⟩
    · intro mm hmm hle
      exact (twoDigits_eq_some hmm).2.2 (by omega)
    · have hfront : ':' ∉ [a, b] := notMem_of_isDigit (by simp [ha, hb]) rfl
      have hback : ':' ∉ [c, d] := notMem_of_isDigit (by simp [hc, hd]) rfl
      exact (List.splitOn_append_cons_self_of_not_mem hfront [c, d]).trans
        (by rw [List.splitOn_eq_singleton hback])
  · rename_i a b c d
    obtain ⟨ha, hb, hc, hd⟩ := isDigit_of_clockSeconds h
    refine ⟨[a, b], [c, d], clocked_of_clockSeconds ⟨_, rfl⟩ h ?_ (.inr ⟨?_, .inl ?_⟩)⟩
    · intro mm hmm hle
      exact (twoDigits_eq_some hmm).2.2 (by omega)
    · rw [List.splitOn_eq_singleton (notMem_of_isDigit (by simp [ha, hb, hc, hd]) rfl)]
      simp
    · refine ⟨?_, rfl, ?_⟩
      · simp [utf8Length, utf8Size_of_isDigit, ha, hb, hc, hd]
      · simp [utf8Length, utf8Size_of_isDigit, ha, hb]
  · rename_i a b
    obtain ⟨hh, mm, hhours, -, -⟩ := clockSeconds_eq_some h
    obtain ⟨ha, hb, -⟩ := twoDigits_eq_some hhours
    refine ⟨[a, b], [], clocked_of_clockSeconds ⟨_, rfl⟩ h ?_ (.inr ⟨?_, .inr ⟨?_, rfl, rfl⟩⟩)⟩
    · intro mm hmm _
      obtain rfl := Option.some.inj hmm
      rfl
    · rw [List.splitOn_eq_singleton (notMem_of_isDigit (by simp [ha, hb]) rfl)]
      simp
    · simp [utf8Length, utf8Size_of_isDigit, ha, hb]
  · cases h

namespace Clocked

variable {clean hours mins : List Char} {v : ℤ}

theorem fits (h : Clocked clean v hours mins) : SecondsFit hours mins := by
  have hhours := h.hours_le
  have hmins := h.mins_le
  unfold SecondsFit FitsI32
  omega

theorem secondsRead_eq (h : Clocked clean v hours mins) (sign : ℤ) :
    secondsRead sign hours mins = sign * v := by
  have hhours := h.hours_le
  have hmins := h.mins_le
  have htotal := h.total
  unfold secondsRead
  dsimp only
  rw [htotal, if_pos (by omega)]

theorem unsigned_eq (h : Clocked clean v hours mins) : unsigned clean = clean := by
  obtain ⟨a, rest, rfl, ha⟩ := h.digit
  have hplus := ne_of_isDigit ha (c := '+') rfl
  have hminus := ne_of_isDigit ha (c := '-') rfl
  simp [unsigned, hplus, hminus]

end Clocked

/-- Every time of the grammar is read with its sign. -/
theorem zoneTime_read {s : List Char} {v : ℤ} (h : zoneTime s = some v) :
    ∃ hours mins, ZoneNumbers (unsigned s) hours mins ∧ SecondsFit hours mins ∧
      v = secondsRead (signOf s) hours mins := by
  unfold zoneTime at h
  split at h
  · rename_i rest
    obtain ⟨hours, mins, hclock⟩ := clocked_of_clockTime h
    refine ⟨hours, mins, ?_, hclock.fits, ?_⟩
    · have hunsigned : unsigned ('+' :: rest) = unsigned rest := rfl
      rw [hunsigned, hclock.unsigned_eq]
      exact hclock.numbers
    · rw [hclock.secondsRead_eq]
      exact (one_mul v).symm
  · rename_i rest
    obtain ⟨w, hw, rfl⟩ := Option.map_eq_some_iff.mp h
    obtain ⟨hours, mins, hclock⟩ := clocked_of_clockTime hw
    refine ⟨hours, mins, ?_, hclock.fits, ?_⟩
    · obtain ⟨a, tail, rfl, ha⟩ := hclock.digit
      have hunsigned : unsigned ('-' :: a :: tail) = a :: tail := by
        simp [unsigned, ne_of_isDigit ha (c := '-') rfl]
      rw [hunsigned]
      exact hclock.numbers
    · rw [hclock.secondsRead_eq]
      exact (neg_one_mul w).symm
  · obtain ⟨hours, mins, hclock⟩ := clocked_of_clockTime h
    refine ⟨hours, mins, ?_, hclock.fits, ?_⟩
    · rw [hclock.unsigned_eq]
      exact hclock.numbers
    · obtain ⟨a, tail, rfl, ha⟩ := hclock.digit
      have hsign : signOf (a :: tail) = 1 :=
        if_neg (by simpa using ne_of_isDigit ha (c := '-') rfl)
      rw [hclock.secondsRead_eq, hsign, one_mul]

theorem secondsRead_eq_zero_iff {sign : ℤ} (hsign : sign = 1 ∨ sign = -1)
    {hours mins : List Char} :
    secondsRead sign hours mins = 0 ↔
      numberOf hours * 3600 + numberOf mins * 60 = 0 ∨
        86400 ≤ |numberOf hours * 3600 + numberOf mins * 60| := by
  unfold secondsRead
  dsimp only
  generalize numberOf hours * 3600 + numberOf mins * 60 = total
  rw [le_abs]
  rcases hsign with rfl | rfl
  · split_ifs <;> omega
  · split_ifs <;> omega

/-- UTC has no digits, and means nothing. -/
theorem zoneTime_utc {s : List Char}
    (h : s.map Char.toLower = ['u', 't', 'c'] ∨ s.map Char.toLower = ['z']) :
    zoneTime s = none := by
  have hfirst : ∀ c rest, s = c :: rest → c ≠ '+' ∧ c ≠ '-' := by
    rintro c rest rfl
    constructor
    · rintro rfl
      rcases h with h | h <;> exact absurd (List.cons.inj h).1 (by decide)
    · rintro rfl
      rcases h with h | h <;> exact absurd (List.cons.inj h).1 (by decide)
  have hlength : s.length = 3 ∨ s.length = 1 := by
    rcases h with h | h
    · exact .inl (by simpa using congrArg List.length h)
    · exact .inr (by simpa using congrArg List.length h)
  unfold zoneTime
  split
  · exact absurd rfl (hfirst _ _ rfl).1
  · exact absurd rfl (hfirst _ _ rfl).2
  · unfold clockTime
    split
    all_goals first | rfl | simp at hlength

/-- A text of the grammar, UTC, or one whose numbers can be told apart, fit, and come to
nothing or to a day or more. -/
def ReadsRightly (s : List Char) : Prop :=
  (zoneTime s).isSome ∨ s = [] ∨
    (s.map Char.toLower = ['u', 't', 'c'] ∨ s.map Char.toLower = ['z']) ∨
    ∃ hours mins, ZoneNumbers (unsigned s) hours mins ∧ SecondsFit hours mins ∧
      (numberOf hours * 3600 + numberOf mins * 60 = 0 ∨
        86400 ≤ |numberOf hours * 3600 + numberOf mins * 60|)

/-- No build fails on a text, and all take it for what it means, exactly when it reads
rightly. -/
theorem parseTimezoneOffset_means_iff (X : Crates) (timezone : Option String) :
    (∀ build, (parseTimezoneOffset (X.inBuild build) timezone : Outcome ε ℤ) =
        .ok (zoneMeaning (trim (timezone.getD "").toList))) ↔
      ReadsRightly (trim (timezone.getD "").toList) := by
  generalize hs : trim (timezone.getD "").toList = s
  unfold ReadsRightly
  by_cases hempty : s = []
  · subst hempty
    refine iff_of_true ?_ (.inr (.inl rfl))
    intro build
    rw [parseTimezoneOffset_eq, hs]
    rfl
  by_cases hutc : s.map Char.toLower = ['u', 't', 'c'] ∨ s.map Char.toLower = ['z']
  · refine iff_of_true ?_ (.inr (.inr (.inl hutc)))
    intro build
    rw [parseTimezoneOffset_eq, hs]
    dsimp only
    rw [if_neg hempty, if_pos hutc, zoneMeaning, zoneTime_utc hutc]
    rfl
  rw [parseTimezoneOffset_ok_iff X hs hempty hutc, zoneMeaning]
  cases htime : zoneTime s with
  | some v => exact iff_of_true (zoneTime_read htime) (.inl rfl)
  | none =>
    constructor
    · rintro ⟨hours, mins, hnumbers, hfit, hzero⟩
      exact .inr (.inr (.inr ⟨hours, mins, hnumbers, hfit,
        (secondsRead_eq_zero_iff (signOf_cases s)).mp hzero.symm⟩))
    · rintro (hsome | hnil | hzone | ⟨hours, mins, hnumbers, hfit, hzero⟩)
      · cases hsome
      · exact absurd hnil hempty
      · exact absurd hzone hutc
      · exact ⟨hours, mins, hnumbers, hfit,
          ((secondsRead_eq_zero_iff (signOf_cases s)).mpr hzero).symm⟩

/-- A text whose second byte is inside a character ends the program, and minutes that no
clock shows move the time. -/
theorem zoneText_misread :
    (∀ build, (parseTimezoneOffset (Crates.sample.inBuild build) (some "0é1") : Outcome Unit ℤ) =
      panicked) ∧
    (∀ build, (parseTimezoneOffset (Crates.sample.inBuild build) (some "+08:99") :
      Outcome Unit ℤ) = .ok 34740) ∧ zoneMeaning (trim "+08:99".toList) = 0 := by
  refine ⟨fun build => ?_, fun build => ?_, ?_⟩
  · cases build <;> decide
  · cases build <;> decide
  · decide

end Dvrft.ZoneGrammar
