import Dvrft.Instants

/-!
How exact a normalized timestamp is. A raw value names a local time and a zone; the
text is that of their instant, to the second, or the text of the epoch when the
calendar does not have both. Packed dates whose fields are no date are not refused:
they are read once more, as seconds in UTC.
-/

namespace Dvrft.Exactness

open Errors Machine Platform Timestamps PackedDates Interpreter Instants

variable {X : Crates} {encoding timezone : Option String} {offset : ℤ} {raw : ℕ}

/-- Seconds of local time, and how far east of UTC they are meant. -/
structure Reading where
  seconds : ℤ
  offset : ℤ
  deriving DecidableEq, Repr

namespace Reading

def instant (r : Reading) : ℤ := r.seconds - r.offset

/-- The text of the instant, if the calendar has it. -/
def text (X : Crates) (r : Reading) : String :=
  if Representable X r.offset r.seconds then X.chrono.toRfc3339 r.instant else sentinel

end Reading

/-- What a raw value names under an encoding and an offset. -/
def reading (encoding : Option String) (offset : ℤ) (raw : ℕ) : Reading :=
  if IsPacked encoding then
    if ValidPacked raw then ⟨packedSeconds raw, offset⟩ else ⟨raw, 0⟩
  else if IsMillis encoding then ⟨(raw / 1000 : ℕ), offset⟩
  else ⟨raw, offset⟩

/-- The text of exactly the instant that a raw value denotes, or the sentinel; what
is no packed date denotes no instant. -/
def ExactOrAbsent (X : Crates) (encoding : Option String) (offset : ℤ) (raw : ℕ)
    (text : String) : Prop :=
  text = sentinel ∨ (IsPacked encoding → ValidPacked raw) ∧
    X.chrono.Denotes text (reading encoding offset raw).instant

/-- The raw value is read as a count of seconds, and the sign bit turns it into an
earlier one, which the calendar has. -/
def Wraps (X : Crates) (encoding : Option String) (offset : ℤ) (raw : ℕ) : Prop :=
  ¬ IsMillis encoding ∧ ¬ (IsPacked encoding ∧ ValidPacked raw) ∧ 2 ^ 63 ≤ raw ∧
    Representable X (reading encoding offset raw).offset ((raw : ℤ) - 2 ^ 64)

instance (X : Crates) (encoding : Option String) (offset : ℤ) (raw : ℕ) :
    Decidable (Wraps X encoding offset raw) := by
  unfold Wraps
  infer_instance

/-- A count of seconds from the sign bit on is beyond the calendar. -/
theorem not_representable_of_le (h : 2 ^ 63 ≤ raw) : ¬ Representable X offset raw := by
  intro hrepresentable
  have hbounds := InRange.bounds hrepresentable.1
  omega

theorem normalizeUnix_asI64 (hraw : raw < 2 ^ 64)
    (hwraps : 2 ^ 63 ≤ raw → ¬ Representable X offset ((raw : ℤ) - 2 ^ 64)) :
    normalizeUnix X offset (asI64 raw) = Reading.text X ⟨raw, offset⟩ := by
  rw [normalizeUnix_eq, Reading.text]
  rcases asI64_cases hraw with ⟨-, hsecs⟩ | ⟨hbig, hsecs⟩
  · rw [hsecs]
    rfl
  · rw [hsecs, if_neg (hwraps hbig), if_neg (not_representable_of_le hbig)]

theorem normalizePacked_eq (hraw : raw < 2 ^ 64) (hoffset : -86400 < offset ∧ offset < 86400)
    (hpacked : IsPacked encoding) (hwraps : ¬ Wraps X encoding offset raw) :
    normalizePacked X offset raw = (reading encoding offset raw).text X := by
  have hkind : ¬ IsMillis encoding := by
    unfold IsPacked at hpacked
    unfold IsMillis
    rcases hpacked with hname | hname
    · rw [hname]
      decide
    · rw [hname]
      decide
  unfold Wraps at hwraps
  unfold reading at hwraps ⊢
  rw [if_pos hpacked] at hwraps ⊢
  rw [normalizePacked, packedInstant_eq X hoffset]
  by_cases hvalid : ValidPacked raw
  · have hinstant := packedInstant_inRange ((packedInstant_eq X hoffset raw).trans (if_pos hvalid))
    have hbounds := packedSeconds_bounds hvalid
    have hlocal : X.chrono.InRange (packedSeconds raw) :=
      inRange_small X (by omega) (by omega)
    rw [if_pos hvalid, if_pos hvalid, Reading.text, if_pos ⟨hlocal, hinstant⟩]
    rfl
  · rw [if_neg hvalid] at hwraps ⊢
    rw [if_neg hvalid]
    exact normalizeUnix_asI64 hraw fun hbig hneg =>
      hwraps ⟨hkind, fun h => hvalid h.2, hbig, hneg⟩

/-- A normalized timestamp is the text of exactly what its raw value names. -/
theorem normalizeTimestamp_exact (hraw : raw < 2 ^ 64)
    (hzone : parseTimezoneOffset X timezone = (.ok offset : Parsed ℤ))
    (hwraps : ¬ Wraps X encoding offset raw) :
    normalizeTimestamp X raw encoding timezone =
      (.ok (if raw = 0 then sentinel else (reading encoding offset raw).text X) :
        Parsed String) := by
  unfold normalizeTimestamp
  split_ifs with hzero
  · rfl
  · refine bind_ok.mpr ⟨offset, hzone, ?_⟩
    dsimp only
    split_ifs with hpacked hmillis
    · rw [normalizePacked_eq hraw (parseTimezoneOffset_lt hzone) hpacked hwraps]
    · have hsmall : raw / 1000 < 2 ^ 63 := by omega
      rw [reading, if_neg (show ¬ IsPacked encoding from hpacked),
        if_pos (show IsMillis encoding from hmillis), asI64_of_lt hsmall, normalizeUnix_eq]
      rfl
    · have hreading : reading encoding offset raw = ⟨raw, offset⟩ := by
        rw [reading, if_neg (show ¬ IsPacked encoding from hpacked),
          if_neg (show ¬ IsMillis encoding from hmillis)]
      unfold Wraps at hwraps
      rw [hreading] at hwraps ⊢
      rw [normalizeUnix_asI64 hraw fun hbig hneg =>
        hwraps ⟨hmillis, fun h => hpacked h.1, hbig, hneg⟩]

/-- Noon of 15 March 2024, eight hours east of Greenwich. -/
theorem normalizeTimestamp_exact_east :
    normalizeTimestamp Crates.sample 1625210880 (some "dahua_packed") (some "+08:00") =
      (.ok "2024-03-15T04:00:00Z" : Parsed String) := by
  have hzone : parseTimezoneOffset Crates.sample (some "+08:00") = (.ok 28800 : Parsed ℤ) := by
    decide +kernel
  rw [normalizeTimestamp_exact (by decide) hzone (by decide +kernel)]
  exact congrArg Except.ok (by decide +kernel)

/-- The thirtieth of February 2024 is no date, but read as seconds in UTC it falls into
June 2021; the largest count of seconds becomes the second before the epoch. -/
theorem normalizeTimestamp_inexact :
    normalizeTimestamp Crates.sample 1622982656 (some "dahua_packed") none =
        (.ok "2021-06-06T12:30:56Z" : Parsed String) ∧
      ¬ ExactOrAbsent Crates.sample (some "dahua_packed") 0 1622982656 "2021-06-06T12:30:56Z" ∧
      normalizeTimestamp Crates.sample (2 ^ 64 - 1) (some "unix_seconds") none =
        (.ok "1969-12-31T23:59:59Z" : Parsed String) ∧
      ¬ ExactOrAbsent Crates.sample (some "unix_seconds") 0 (2 ^ 64 - 1)
        "1969-12-31T23:59:59Z" := by
  refine ⟨by decide +kernel, ?_, by decide +kernel, ?_⟩
  · rintro (hsentinel | ⟨hvalid, -⟩)
    · exact absurd hsentinel (by decide)
    · exact absurd (hvalid (by decide)) (by decide)
  · rintro (hsentinel | ⟨-, hdenotes⟩)
    · exact absurd hsentinel (by decide)
    · exact absurd hdenotes.1 (by decide +kernel)

end Dvrft.Exactness
