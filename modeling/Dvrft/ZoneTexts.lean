import Dvrft.Checked
import Dvrft.Timestamps

/-!
Which zone texts can be read. The text of a grammar is cut at its colon, or in the
middle if it is four bytes long, and its two numbers are turned into seconds in the
arithmetic of `i32`.
-/

namespace Dvrft.ZoneTexts

open Machine Platform Timestamps

variable {ε : Type}

theorem utf8Length_append (a b : List Char) :
    utf8Length (a ++ b) = utf8Length a + utf8Length b := by
  simp [utf8Length]

theorem utf8Length_pos {s : List Char} (h : s ≠ []) : 0 < utf8Length s := by
  cases s with
  | nil => exact absurd rfl h
  | cons c rest =>
    have hc := Char.utf8Size_pos c
    simp only [utf8Length, List.map_cons, List.sum_cons]
    omega

/-- Beginnings of a text with as many bytes are the same. -/
theorem eq_of_utf8Length_eq {a b a' b' : List Char} (hsame : a ++ b = a' ++ b')
    (hlength : utf8Length a = utf8Length a') : a = a' := by
  rcases List.append_eq_append_iff.mp hsame with ⟨rest, rfl, -⟩ | ⟨rest, rfl, -⟩
  · have hrest : rest = [] := by
      by_contra hne
      have hpos := utf8Length_pos hne
      rw [utf8Length_append] at hlength
      omega
    rw [hrest, List.append_nil]
  · have hrest : rest = [] := by
      by_contra hne
      have hpos := utf8Length_pos hne
      rw [utf8Length_append] at hlength
      omega
    rw [hrest, List.append_nil]

/-- A text is cut into two texts, the first of `n` bytes. -/
theorem splitAtByte_ok_iff {s a b : List Char} {n : ℕ} :
    (splitAtByte s n : Outcome ε (List Char × List Char)) = .ok (a, b) ↔
      s = a ++ b ∧ utf8Length a = n := by
  unfold splitAtByte
  constructor
  · intro h
    split at h
    · rename_i k hk
      obtain ⟨rfl, rfl⟩ := Prod.mk.inj (Except.ok.inj h)
      have hlength := List.find?_some hk
      exact ⟨(List.take_append_drop k s).symm, beq_iff_eq.mp hlength⟩
    · simp [panicked] at h
  · intro h
    obtain ⟨rfl, hlength⟩ := h
    have hcut : (utf8Length ((a ++ b).take a.length) == n) = true := by
      rw [List.take_left, beq_iff_eq]
      exact hlength
    cases hfind : (List.range ((a ++ b).length + 1)).find?
        fun k => utf8Length ((a ++ b).take k) == n with
    | none =>
      have hnone := List.find?_eq_none.mp hfind a.length
        (by rw [List.mem_range, List.length_append]; omega)
      exact absurd hcut hnone
    | some k =>
      have hfound := List.find?_some hfind
      have hk := beq_iff_eq.mp hfound
      have hsplit := List.take_append_drop k (a ++ b)
      have hfirst := eq_of_utf8Length_eq hsplit (hk.trans hlength.symm)
      rw [hfirst] at hsplit
      dsimp only
      rw [hfirst, List.append_cancel_left hsplit]

theorem onlyPanics_splitAtByte (s : List Char) (n : ℕ) :
    OnlyPanics (splitAtByte s n : Outcome ε (List Char × List Char)) := by
  unfold splitAtByte
  split
  · exact onlyPanics_ok _
  · exact onlyPanics_panicked

theorem splitAtByte_ne_panicked_iff {s : List Char} {n : ℕ} :
    (splitAtByte s n : Outcome ε (List Char × List Char)) ≠ panicked ↔
      ∃ a b, s = a ++ b ∧ utf8Length a = n := by
  constructor
  · intro h
    obtain ⟨⟨a, b⟩, hcut⟩ := (onlyPanics_splitAtByte s n).ok_of_ne_panicked h
    exact ⟨a, b, splitAtByte_ok_iff.mp hcut⟩
  · intro h
    obtain ⟨a, b, hcut⟩ := h
    rw [splitAtByte_ok_iff.mpr hcut]
    exact ok_ne_panicked _

/-- The two numbers of a zone text: at its colon, else after two of its four bytes, else the
whole text and nothing. -/
def ZoneNumbers (clean hours mins : List Char) : Prop :=
  clean.splitOn ':' = [hours, mins] ∨
    (¬ (∃ h m, clean.splitOn ':' = [h, m]) ∧
      ((utf8Length clean = 4 ∧ clean = hours ++ mins ∧ utf8Length hours = 2) ∨
        (utf8Length clean ≠ 4 ∧ hours = clean ∧ mins = [])))

/-- What is no number counts as zero. -/
def numberOf (s : List Char) : ℤ := (parseI32 s).getD 0

/-- The seconds of hours and minutes are numbers of `i32`, and so is their sum. -/
def SecondsFit (hours mins : List Char) : Prop :=
  FitsI32 (numberOf hours * 3600) ∧ FitsI32 (numberOf mins * 60) ∧
    FitsI32 (numberOf hours * 3600 + numberOf mins * 60)

/-- The text without the signs in front. -/
def unsigned (s : List Char) : List Char := (s.dropWhile (· == '+')).dropWhile (· == '-')

/-- No text, UTC, or a text whose numbers can be told apart and turned into seconds. -/
def ZoneReadable (timezone : Option String) : Prop :=
  let s := trim ((timezone.getD "").toList)
  s = [] ∨ (s.map Char.toLower = ['u', 't', 'c'] ∨ s.map Char.toLower = ['z']) ∨
    ∃ hours mins, ZoneNumbers (unsigned s) hours mins ∧ SecondsFit hours mins

/-- The numbers, as the interpreter cuts them out. -/
def cutNumbers (clean : List Char) : Outcome ε (ℤ × ℤ) :=
  match clean.splitOn ':' with
  | [h, m] => .ok ((parseI32 h).getD 0, (parseI32 m).getD 0)
  | _ =>
    if utf8Length clean = 4 then do
      let (h, m) ← splitAtByte clean 2
      .ok ((parseI32 h).getD 0, (parseI32 m).getD 0)
    else .ok ((parseI32 clean).getD 0, 0)

/-- The seconds, in the arithmetic of `i32`. -/
def secondsEast (X : Crates) (sign : ℤ) (p : ℤ × ℤ) : Outcome ε ℤ := do
  let hourSecs ← X.build.fitI32 (p.1 * 3600)
  let minSecs ← X.build.fitI32 (p.2 * 60)
  let total ← X.build.fitI32 (hourSecs + minSecs)
  let signed ← X.build.fitI32 (sign * total)
  .ok ((X.chrono.eastOpt signed).getD 0)

theorem parseTimezoneOffset_eq (X : Crates) (timezone : Option String) :
    (parseTimezoneOffset X timezone : Outcome ε ℤ) =
      let s := trim ((timezone.getD "").toList)
      if s = [] then .ok 0
      else if s.map Char.toLower = ['u', 't', 'c'] ∨ s.map Char.toLower = ['z'] then .ok 0
      else cutNumbers (unsigned s) >>= secondsEast X (if s.head? = some '-' then -1 else 1) := by
  unfold parseTimezoneOffset cutNumbers unsigned
  dsimp only
  generalize trim ((timezone.getD "").toList) = s
  congr 2
  generalize (s.dropWhile (· == '+')).dropWhile (· == '-') = clean
  generalize (if s.head? = some '-' then (-1 : ℤ) else 1) = sign
  generalize (splitAtByte clean 2 : Outcome ε (List Char × List Char)) = cut
  by_cases hfour : utf8Length clean = 4
  · simp only [if_pos hfour]
    cases cut <;> rcases clean.splitOn ':' with - | ⟨h, - | ⟨m, - | ⟨x, rest⟩⟩⟩ <;> rfl
  · simp only [if_neg hfour]
    rcases clean.splitOn ':' with - | ⟨h, - | ⟨m, - | ⟨x, rest⟩⟩⟩ <;> rfl

theorem cutNumbers_ok_iff {clean : List Char} {p : ℤ × ℤ} :
    (cutNumbers clean : Outcome ε (ℤ × ℤ)) = .ok p ↔
      ∃ hours mins, ZoneNumbers clean hours mins ∧ p = (numberOf hours, numberOf mins) := by
  unfold cutNumbers ZoneNumbers
  split
  · rename_i h m hparts
    constructor
    · intro hok
      exact ⟨h, m, .inl hparts, (Except.ok.inj hok).symm⟩
    · intro hnumbers
      obtain ⟨hours, mins, hsplit | ⟨hnot, -⟩, rfl⟩ := hnumbers
      · rw [hparts] at hsplit
        simp only [List.cons.injEq, and_true] at hsplit
        rw [← hsplit.1, ← hsplit.2]
        rfl
      · exact absurd ⟨h, m, hparts⟩ hnot
  · rename_i hparts
    have hnot : ¬ ∃ h m, clean.splitOn ':' = [h, m] := by
      intro h
      obtain ⟨h, m, hsplit⟩ := h
      exact hparts h m hsplit
    have hpieces : ∀ hours mins, clean.splitOn ':' ≠ [hours, mins] :=
      fun hours mins hsplit => hnot ⟨hours, mins, hsplit⟩
    split_ifs with hfour
    · rw [bind_ok]
      constructor
      · intro h
        obtain ⟨⟨hours, mins⟩, hcut, hok⟩ := h
        exact ⟨hours, mins, .inr ⟨hnot, .inl ⟨hfour, splitAtByte_ok_iff.mp hcut⟩⟩,
          (Except.ok.inj hok).symm⟩
      · intro h
        obtain ⟨hours, mins, hsplit | ⟨-, ⟨-, hcut⟩ | ⟨hother, -⟩⟩, rfl⟩ := h
        · exact absurd hsplit (hpieces hours mins)
        · exact ⟨(hours, mins), splitAtByte_ok_iff.mpr hcut, rfl⟩
        · exact absurd hfour hother
    · constructor
      · intro h
        exact ⟨clean, [], .inr ⟨hnot, .inr ⟨hfour, rfl, rfl⟩⟩, (Except.ok.inj h).symm⟩
      · intro h
        obtain ⟨hours, mins, hsplit | ⟨-, ⟨hother, -⟩ | ⟨-, rfl, rfl⟩⟩, rfl⟩ := h
        · exact absurd hsplit (hpieces hours mins)
        · exact absurd hother hfour
        · rfl

theorem onlyPanics_cutNumbers (clean : List Char) :
    OnlyPanics (cutNumbers clean : Outcome ε (ℤ × ℤ)) := by
  unfold cutNumbers
  split
  · exact onlyPanics_ok _
  · split_ifs
    · exact (onlyPanics_splitAtByte clean 2).bind fun p => onlyPanics_ok _
    · exact onlyPanics_ok _

theorem cutNumbers_ne_panicked_iff {clean : List Char} :
    (cutNumbers clean : Outcome ε (ℤ × ℤ)) ≠ panicked ↔
      ∃ hours mins, ZoneNumbers clean hours mins := by
  constructor
  · intro h
    obtain ⟨p, hp⟩ := (onlyPanics_cutNumbers clean).ok_of_ne_panicked h
    obtain ⟨hours, mins, hnumbers, -⟩ := cutNumbers_ok_iff.mp hp
    exact ⟨hours, mins, hnumbers⟩
  · intro h
    obtain ⟨hours, mins, hnumbers⟩ := h
    rw [cutNumbers_ok_iff.mpr ⟨hours, mins, hnumbers, rfl⟩]
    exact ok_ne_panicked _

/-- The sign of the seconds makes no difference, since they are a multiple of sixty. -/
theorem fitsI32_signed {sign hours mins : ℤ} (hsign : sign = 1 ∨ sign = -1)
    (h : FitsI32 (hours * 3600 + mins * 60)) : FitsI32 (sign * (hours * 3600 + mins * 60)) := by
  unfold FitsI32 at h ⊢
  rcases hsign with rfl | rfl
  · omega
  · omega

/-- The seconds fit exactly when those of the hours, of the minutes and of both do. -/
theorem secondsEast_ne_panicked_iff {X : Crates} {sign : ℤ} (hsign : sign = 1 ∨ sign = -1)
    {hours mins : List Char} :
    (secondsEast (X.inBuild .debug) sign (numberOf hours, numberOf mins) : Outcome ε ℤ) ≠
        panicked ↔ SecondsFit hours mins := by
  unfold secondsEast SecondsFit
  constructor
  · intro h
    simp only [bind_ne_panicked_iff] at h
    obtain ⟨hhours, h⟩ := h
    have hhoursFit := Build.debug_fitI32_ne_panicked_iff.mp hhours
    obtain ⟨hmins, h⟩ := h _ (Build.fitI32_of_fits _ hhoursFit)
    have hminsFit := Build.debug_fitI32_ne_panicked_iff.mp hmins
    obtain ⟨htotal, -⟩ := h _ (Build.fitI32_of_fits _ hminsFit)
    exact ⟨hhoursFit, hminsFit, Build.debug_fitI32_ne_panicked_iff.mp htotal⟩
  · intro h
    obtain ⟨hhours, hmins, htotal⟩ := h
    have hsigned := fitsI32_signed hsign htotal
    rw [Build.fitI32_of_fits _ hhours, ok_bind, Build.fitI32_of_fits _ hmins, ok_bind,
      Build.fitI32_of_fits _ htotal, ok_bind, Build.fitI32_of_fits _ hsigned, ok_bind]
    exact ok_ne_panicked _

theorem checkedBy_secondsEast (X : Crates) (build : Build) (sign : ℤ) (p : ℤ × ℤ) :
    CheckedBy (secondsEast (X.inBuild .debug) sign p : Outcome ε ℤ)
      (secondsEast (X.inBuild build) sign p) := by
  apply (build.checkedBy_fitI32 _).bind
  intro hourSecs
  apply (build.checkedBy_fitI32 _).bind
  intro minSecs
  apply (build.checkedBy_fitI32 _).bind
  intro total
  exact (build.checkedBy_fitI32 _).bind fun signed => .refl _

theorem onlyPanics_parseTimezoneOffset (X : Crates) (timezone : Option String) :
    OnlyPanics (parseTimezoneOffset X timezone : Outcome ε ℤ) := by
  rw [parseTimezoneOffset_eq]
  dsimp only
  generalize (if (trim (timezone.getD "").toList).head? = some '-' then (-1 : ℤ) else 1) = sign
  split_ifs
  · exact onlyPanics_ok 0
  · exact onlyPanics_ok 0
  · apply (onlyPanics_cutNumbers _).bind
    intro p
    apply (X.build.onlyPanics_fitI32 _).bind
    intro hourSecs
    apply (X.build.onlyPanics_fitI32 _).bind
    intro minSecs
    apply (X.build.onlyPanics_fitI32 _).bind
    intro total
    exact (X.build.onlyPanics_fitI32 _).bind fun signed => onlyPanics_ok _

/-- A zone text is read without a panic exactly when it is readable. -/
theorem parseTimezoneOffset_ne_panicked_iff {X : Crates} {timezone : Option String} :
    (parseTimezoneOffset (X.inBuild .debug) timezone : Outcome ε ℤ) ≠ panicked ↔
      ZoneReadable timezone := by
  rw [parseTimezoneOffset_eq]
  unfold ZoneReadable
  dsimp only
  generalize trim ((timezone.getD "").toList) = s
  by_cases hempty : s = []
  · rw [if_pos hempty]
    exact iff_of_true (ok_ne_panicked 0) (.inl hempty)
  · by_cases hutc : s.map Char.toLower = ['u', 't', 'c'] ∨ s.map Char.toLower = ['z']
    · rw [if_neg hempty, if_pos hutc]
      exact iff_of_true (ok_ne_panicked 0) (.inr (.inl hutc))
    · rw [if_neg hempty, if_neg hutc, bind_ne_panicked_iff, cutNumbers_ne_panicked_iff]
      have hsign : (if s.head? = some '-' then (-1 : ℤ) else 1) = 1 ∨
          (if s.head? = some '-' then (-1 : ℤ) else 1) = -1 := by
        split_ifs
        · exact .inr rfl
        · exact .inl rfl
      constructor
      · intro h
        obtain ⟨⟨hours, mins, hnumbers⟩, hseconds⟩ := h
        have hfit := hseconds _ (cutNumbers_ok_iff.mpr ⟨hours, mins, hnumbers, rfl⟩)
        exact .inr (.inr ⟨hours, mins, hnumbers, (secondsEast_ne_panicked_iff hsign).mp hfit⟩)
      · intro h
        rcases h with h | h | ⟨hours, mins, hnumbers, hfit⟩
        · exact absurd h hempty
        · exact absurd h hutc
        · refine ⟨⟨hours, mins, hnumbers⟩, ?_⟩
          intro p hp
          rw [cutNumbers_ok_iff.mpr ⟨hours, mins, hnumbers, rfl⟩] at hp
          rw [← Except.ok.inj hp]
          exact (secondsEast_ne_panicked_iff hsign).mpr hfit

theorem checkedBy_parseTimezoneOffset (X : Crates) (build : Build) (timezone : Option String) :
    CheckedBy (parseTimezoneOffset (X.inBuild .debug) timezone : Outcome ε ℤ)
      (parseTimezoneOffset (X.inBuild build) timezone) := by
  rw [parseTimezoneOffset_eq, parseTimezoneOffset_eq]
  exact .ite (.refl _) (.ite (.refl _)
    ((CheckedBy.refl _).bind (checkedBy_secondsEast X build _)))

/-- A timestamp that is not zero is turned into text exactly when its zone is readable. -/
theorem normalizeTimestamp_ne_panicked_iff {X : Crates} {raw : ℕ}
    {encoding timezone : Option String} :
    (normalizeTimestamp (X.inBuild .debug) raw encoding timezone : Outcome ε String) ≠ panicked ↔
      (raw ≠ 0 → ZoneReadable timezone) := by
  unfold normalizeTimestamp
  split_ifs with hzero
  · exact iff_of_true (ok_ne_panicked _) (fun h => absurd hzero h)
  · rw [bind_ne_panicked_iff, parseTimezoneOffset_ne_panicked_iff]
    constructor
    · intro h _
      exact h.1
    · intro h
      refine ⟨h hzero, ?_⟩
      intro offset _
      dsimp only
      split_ifs
      · exact ok_ne_panicked _
      · exact ok_ne_panicked _
      · exact ok_ne_panicked _

theorem checkedBy_normalizeTimestamp (X : Crates) (build : Build) (raw : ℕ)
    (encoding timezone : Option String) :
    CheckedBy (normalizeTimestamp (X.inBuild .debug) raw encoding timezone : Outcome ε String)
      (normalizeTimestamp (X.inBuild build) raw encoding timezone) :=
  .ite (.refl _) ((checkedBy_parseTimezoneOffset X build timezone).bind fun _ => .refl _)

end Dvrft.ZoneTexts
