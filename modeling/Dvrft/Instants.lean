import Dvrft.Interpreter
import Dvrft.PackedDates

/-!
The instant that an interpreted record stands for. A record keeps the raw integer
of its timestamp field and the normalized text; the text denotes the instant that
encoding and zone give to the integer, and the epoch when they give none.
-/

namespace Dvrft.Instants

open Gregorian Errors Machine Platform Grammar Timestamps PackedDates Interpreter

variable {X : Crates}

/-- The offset of a zone text that can be read. -/
def zoneOffset (X : Crates) (timezone : Option String) : ℤ :=
  match (parseTimezoneOffset X timezone : Parsed ℤ) with
  | .ok offset => offset
  | .error _ => 0

def IsPacked (encoding : Option String) : Prop :=
  encoding.getD "unix_seconds" = "dahua_packed" ∨ encoding.getD "unix_seconds" = "dhav_packed"

instance (encoding : Option String) : Decidable (IsPacked encoding) := by
  unfold IsPacked
  infer_instance

def IsMillis (encoding : Option String) : Prop :=
  encoding.getD "unix_seconds" = "unix_millis"

instance (encoding : Option String) : Decidable (IsMillis encoding) := by
  unfold IsMillis
  infer_instance

/-- A local time that the calendar has, and whose instant it has. -/
def Representable (X : Crates) (offset secs : ℤ) : Prop :=
  X.chrono.InRange secs ∧ X.chrono.InRange (secs - offset)

instance (X : Crates) (offset secs : ℤ) : Decidable (Representable X offset secs) := by
  unfold Representable
  infer_instance

def unixInstant (X : Crates) (offset secs : ℤ) : ℤ :=
  if Representable X offset secs then secs - offset else 0

/-- The instant of a raw timestamp under an encoding and an offset. -/
def instantOf (X : Crates) (encoding : Option String) (offset : ℤ) (raw : ℕ) : ℤ :=
  if raw = 0 then 0
  else if IsPacked encoding then
    (packedInstant X offset raw).getD (unixInstant X 0 (asI64 raw))
  else if IsMillis encoding then unixInstant X offset (asI64 (raw / 1000))
  else unixInstant X offset (asI64 raw)

theorem inRange_small (X : Crates) {t : ℤ} (hlow : -62135596800 ≤ t) (hhigh : t ≤ 253402300799) :
    X.chrono.InRange t := by
  refine X.chrono.inRange_of_years ?_ ?_
  · exact (by decide : civilSeconds 1 1 1 0 0 0 = -62135596800) ▸ hlow
  · exact (by decide : civilSeconds 9999 12 31 23 59 59 = 253402300799) ▸ hhigh

theorem InRange.bounds {t : ℤ} (h : X.chrono.InRange t) : -2 ^ 62 < t ∧ t < 2 ^ 62 := by
  have hnarrow := X.chrono.narrow
  unfold Chrono.InRange at h
  omega

/-- Seconds of local time become the text of their instant or the text of the epoch. -/
theorem normalizeUnix_eq (X : Crates) (offset secs : ℤ) :
    normalizeUnix X offset secs =
      if Representable X offset secs then X.chrono.toRfc3339 (secs - offset) else sentinel := by
  unfold normalizeUnix
  by_cases hin : X.chrono.InRange secs
  · rw [X.chrono.fromTimestamp_pos hin]
    by_cases hinstant : X.chrono.InRange (secs - offset)
    · rw [if_pos (show Representable X offset secs from ⟨hin, hinstant⟩)]
      dsimp only
      rw [X.chrono.fromLocal_pos hinstant]
      split_ifs with hoffset
      · rw [hoffset, sub_zero]
        rfl
      · rfl
    · have hoffset : offset ≠ 0 := by
        rintro rfl
        rw [sub_zero] at hinstant
        exact hinstant hin
      rw [if_neg hoffset, if_neg fun h : Representable X offset secs => hinstant h.2]
      dsimp only
      rw [X.chrono.fromLocal_neg hinstant]
      rfl
  · rw [X.chrono.fromTimestamp_neg hin, if_neg fun h : Representable X offset secs => hin h.1]
    exact ite_self _

theorem normalizeUnix_denotes (X : Crates) (offset secs : ℤ) :
    X.chrono.Denotes (normalizeUnix X offset secs) (unixInstant X offset secs) := by
  rw [normalizeUnix_eq, unixInstant]
  split_ifs with hrepresentable
  · exact X.chrono.denotes_of_inRange hrepresentable.2
  · exact X.chrono.denotes_epoch

/-- A packed date names its local time; its fields are too narrow for an instant
that the calendar does not have. -/
theorem packedInstant_eq (X : Crates) {offset : ℤ} (hoffset : -86400 < offset ∧ offset < 86400)
    (raw : ℕ) :
    packedInstant X offset raw =
      if ValidPacked raw then some (packedSeconds raw - offset) else none := by
  have hyear := unpack_year raw
  simp only [packedInstant, X.chrono.fromYmdOpt_eq _ _ _
    (show 1 ≤ (unpack raw).year ∧ (unpack raw).year ≤ 9999 by omega), X.chrono.andHmsOpt_eq,
    Option.bind_eq_bind]
  by_cases hvalid : ValidPacked raw
  · have hbounds := packedSeconds_bounds hvalid
    rw [if_pos hvalid, if_pos hvalid.date, Option.bind_some, if_pos hvalid.time, Option.bind_some]
    have hinstant : X.chrono.InRange (packedSeconds raw - offset) :=
      inRange_small X (by omega) (by omega)
    exact X.chrono.fromLocal_pos hinstant
  · rw [if_neg hvalid]
    by_cases hdate : ValidDate (unpack raw).year (unpack raw).month (unpack raw).day
    · rw [if_pos hdate, Option.bind_some, if_neg fun htime => hvalid ⟨hdate, htime⟩,
        Option.bind_none]
    · rw [if_neg hdate, Option.bind_none]

theorem packedInstant_inRange {offset : ℤ} {raw : ℕ} {t : ℤ}
    (h : packedInstant X offset raw = some t) : X.chrono.InRange t := by
  simp only [packedInstant, Option.bind_eq_bind, Option.bind_eq_some_iff] at h
  obtain ⟨date, -, naive, -, hlocal⟩ := h
  rw [X.chrono.fromLocal_eq] at hlocal
  split_ifs at hlocal with hin
  obtain rfl := Option.some.inj hlocal
  exact hin

theorem instantOf_packed {encoding : Option String} {offset : ℤ} {raw : ℕ}
    (hpacked : IsPacked encoding) (hoffset : -86400 < offset ∧ offset < 86400)
    (hvalid : ValidPacked raw) :
    instantOf X encoding offset raw = packedSeconds raw - offset := by
  have hraw : raw ≠ 0 := by
    rintro rfl
    exact absurd hvalid (by decide)
  rw [instantOf, if_neg hraw, if_pos hpacked, packedInstant_eq X hoffset, if_pos hvalid,
    Option.getD_some]

/-- A normalized text denotes the instant of its raw timestamp. -/
theorem normalizeTimestamp_denotes {raw : ℕ} {encoding timezone : Option String} {text : String}
    (h : normalizeTimestamp X raw encoding timezone = (.ok text : Parsed String)) :
    X.chrono.Denotes text (instantOf X encoding (zoneOffset X timezone) raw) := by
  unfold normalizeTimestamp at h
  unfold instantOf
  split_ifs at h with hzero
  · rw [if_pos hzero, ← Except.ok.inj h]
    exact X.chrono.denotes_epoch
  · obtain ⟨offset, hoffset, h⟩ := bind_ok.mp h
    have hzone : zoneOffset X timezone = offset := by
      unfold zoneOffset
      rw [hoffset]
    rw [if_neg hzero, hzone]
    dsimp only at h
    split_ifs at h with hpacked hmillis
    · rw [if_pos (show IsPacked encoding from hpacked), ← Except.ok.inj h, normalizePacked]
      cases hinstant : packedInstant X offset raw with
      | none => exact normalizeUnix_denotes X 0 (asI64 raw)
      | some t => exact X.chrono.denotes_of_inRange (packedInstant_inRange hinstant)
    · rw [if_neg (show ¬ IsPacked encoding from hpacked),
        if_pos (show IsMillis encoding from hmillis), ← Except.ok.inj h]
      exact normalizeUnix_denotes X offset _
    · rw [if_neg (show ¬ IsPacked encoding from hpacked),
        if_neg (show ¬ IsMillis encoding from hmillis), ← Except.ok.inj h]
      exact normalizeUnix_denotes X offset _

/-- A zone that can be read is enough for a text. -/
theorem normalizeTimestamp_of_zone {offset : ℤ} {encoding timezone : Option String}
    (hzone : parseTimezoneOffset X timezone = (.ok offset : Parsed ℤ)) (raw : ℕ) :
    ∃ text, normalizeTimestamp X raw encoding timezone = (.ok text : Parsed String) ∧
      X.chrono.Denotes text (instantOf X encoding offset raw) := by
  have hok : ∃ text, normalizeTimestamp X raw encoding timezone = (.ok text : Parsed String) := by
    unfold normalizeTimestamp
    rw [hzone]
    dsimp only [bind, Except.bind]
    split_ifs
    · exact ⟨_, rfl⟩
    · exact ⟨_, rfl⟩
    · exact ⟨_, rfl⟩
    · exact ⟨_, rfl⟩
  obtain ⟨text, htext⟩ := hok
  have hoffset : zoneOffset X timezone = offset := by
    unfold zoneOffset
    rw [hzone]
  exact ⟨text, htext, hoffset ▸ normalizeTimestamp_denotes htext⟩

theorem eastOpt_lt (X : Crates) (secs : ℤ) :
    -86400 < (X.chrono.eastOpt secs).getD 0 ∧ (X.chrono.eastOpt secs).getD 0 < 86400 := by
  rw [X.chrono.eastOpt_eq]
  split_ifs with hin
  · exact hin
  · decide

theorem parseTimezoneOffset_lt {ε : Type} {timezone : Option String} {offset : ℤ}
    (h : parseTimezoneOffset X timezone = (.ok offset : Outcome ε ℤ)) :
    -86400 < offset ∧ offset < 86400 := by
  unfold parseTimezoneOffset at h
  dsimp only at h
  by_cases hempty : trim (timezone.getD "").toList = []
  · rw [if_pos hempty] at h
    rw [← Except.ok.inj h]
    decide
  · rw [if_neg hempty] at h
    split at h
    · rw [← Except.ok.inj h]
      decide
    · -- every way to read the hours and minutes ends with the offset made of them
      split at h
      · simp only [bind_ok] at h
        obtain ⟨_, -, _, -, _, -, _, -, signed, -, h⟩ := h
        exact Except.ok.inj h ▸ eastOpt_lt X signed
      · split at h
        · simp only [bind_ok] at h
          obtain ⟨_, -, _, -, _, -, _, -, _, -, signed, -, h⟩ := h
          exact Except.ok.inj h ▸ eastOpt_lt X signed
        · simp only [bind_ok] at h
          obtain ⟨_, -, _, -, _, -, _, -, signed, -, h⟩ := h
          exact Except.ok.inj h ▸ eastOpt_lt X signed

theorem zoneOffset_lt (X : Crates) (timezone : Option String) :
    -86400 < zoneOffset X timezone ∧ zoneOffset X timezone < 86400 := by
  unfold zoneOffset
  split
  · rename_i offset hoffset
    exact parseTimezoneOffset_lt hoffset
  · decide

/-- Every timestamp field of the grammar has this encoding and zone. -/
def ClockOf (grammar : GrammarFile) (encoding timezone : Option String) : Prop :=
  ∀ field ∈ grammar.structures.videoBlock.header.fields, field.role = some "timestamp" →
    field.encoding = encoding ∧ field.timezone = timezone

/-- Raw timestamp and normalized text belong together. -/
def Timed (X : Crates) (encoding timezone : Option String) (raw : UInt64) (text : String) :
    Prop :=
  normalizeTimestamp X raw.toNat encoding timezone = (.ok text : Parsed String)

theorem timed_initial (encoding timezone : Option String) : Timed X encoding timezone 0 sentinel :=
  rfl

theorem readWord_lt {data : List UInt8} {field : FieldDef} {width n : ℕ}
    (h : readWord X data field width = .ok n) : n < 256 ^ width := by
  obtain ⟨stop, -, h⟩ := bind_ok.mp h
  by_cases hshort : data.length < stop
  · rw [if_pos hshort] at h
    rw [← Except.ok.inj h]
    positivity
  · rw [if_neg hshort] at h
    obtain ⟨bytes, hbytes, h⟩ := bind_ok.mp h
    have hlen : bytes.length = width := by
      have hall := mapM_ok.mp hbytes
      simpa using hall.length_eq.symm
    rw [← Except.ok.inj h, ← hlen]
    split_ifs
    · exact ofBeBytes_lt bytes
    · exact ofLeBytes_lt bytes

theorem readFieldValue_lt {data : List UInt8} {field : FieldDef} {n : ℕ}
    (h : readFieldValue X data field = .ok n) : n < 2 ^ 64 := by
  unfold readFieldValue at h
  split at h
  · split_ifs at h
    · rw [← Except.ok.inj h]
      decide
    · obtain ⟨b, -, h⟩ := bind_ok.mp h
      rw [← Except.ok.inj h]
      exact b.toNat_lt.trans (by decide)
  · exact (readWord_lt h).trans_le (by decide)
  · exact (readWord_lt h).trans_le (by decide)
  · exact (readWord_lt h).trans_le (by decide)
  · rw [← Except.ok.inj h]
    decide

theorem applyField_timed {data : List UInt8} {field : FieldDef} {v v' : HeaderValues}
    {encoding timezone : Option String}
    (hclock : field.role = some "timestamp" →
      field.encoding = encoding ∧ field.timezone = timezone)
    (hv : Timed X encoding timezone v.timestamp v.normalizedTimestamp)
    (h : applyField X data v field = .ok v') :
    Timed X encoding timezone v'.timestamp v'.normalizedTimestamp := by
  obtain ⟨val, hval, ⟨-, rfl⟩ | ⟨hrole, text, htext, rfl⟩ | ⟨-, rfl⟩ | ⟨-, rfl⟩ | ⟨-, rfl⟩ |
    ⟨-, rfl⟩⟩ := applyField_cases h
  · exact hv
  · obtain ⟨rfl, rfl⟩ := hclock hrole
    simp only [Timed, UInt64.toNat_ofNat_of_lt' (readFieldValue_lt hval)]
    exact htext
  · exact hv
  · split_ifs <;> exact hv
  · unfold applyFlags
    split <;> exact hv
  · exact hv

/-- An interpreted record carries its time twice, raw and normalized. -/
theorem interpretBlock_timed {grammar : GrammarFile} {blockIndex byteOffset : ℕ}
    {blockBytes : List UInt8} {blake3Hash : String} {r : ExtractedRecord}
    {encoding timezone : Option String} (hclock : ClockOf grammar encoding timezone)
    (h : interpretBlock X grammar blockIndex byteOffset blockBytes blake3Hash = .ok r) :
    Timed X encoding timezone r.timestamp r.normalizedTimestamp := by
  obtain ⟨-, magicBytes, -, ⟨-, hvideo⟩ | ⟨-, _, _, _, _, -, rfl⟩⟩ := interpretBlock_cases h
  · obtain ⟨v, payloadOffset, hv, -, rfl⟩ := parseVideoBlock_cases hvideo
    exact foldlM_invariant
      (P := fun v => Timed X encoding timezone v.timestamp v.normalizedTimestamp)
      (fun v v' field hfield hv hstep => applyField_timed (hclock field hfield) hv hstep)
      (timed_initial encoding timezone) hv
  · exact timed_initial encoding timezone

end Dvrft.Instants
