import Dvrft.Platform

/-!
From the raw integer of a timestamp field to the canonical text of an instant.
The zone text is read as the interpreter reads it, panics included. Whatever
cannot be turned into an instant becomes the text of the epoch.
-/

namespace Dvrft.Timestamps

open Machine Platform

variable {ε : Type}

/-- `char::is_whitespace`. -/
def isWhitespace (c : Char) : Bool :=
  let n := c.toNat
  (9 ≤ n && n ≤ 13) || n == 0x20 || n == 0x85 || n == 0xA0 || n == 0x1680 ||
    (0x2000 ≤ n && n ≤ 0x200A) || n == 0x2028 || n == 0x2029 || n == 0x202F ||
    n == 0x205F || n == 0x3000

def trim (s : List Char) : List Char :=
  ((s.dropWhile isWhitespace).reverse.dropWhile isWhitespace).reverse

def digitsValue (s : List Char) : Option ℤ :=
  if s ≠ [] ∧ s.all Char.isDigit then some (Nat.ofDigitChars 10 s 0) else none

/-- `str::parse::<i32>`. -/
def parseI32 (s : List Char) : Option ℤ :=
  let value := match s with
    | '-' :: digits => (digitsValue digits).map Neg.neg
    | '+' :: digits => digitsValue digits
    | digits => digitsValue digits
  value.filter fun z => decide (-2 ^ 31 ≤ z ∧ z < 2 ^ 31)

def utf8Length (s : List Char) : ℕ := (s.map Char.utf8Size).sum

/-- `s[..n]` and `s[n..]`, by bytes; a cut inside a character panics. -/
def splitAtByte (s : List Char) (n : ℕ) : Outcome ε (List Char × List Char) :=
  match (List.range (s.length + 1)).find? fun k => utf8Length (s.take k) == n with
  | some k => .ok (s.take k, s.drop k)
  | none => panicked

/-- The seconds east of UTC that a zone text stands for, zero by default. -/
def parseTimezoneOffset (X : Crates) (timezone : Option String) : Outcome ε ℤ :=
  let s := trim ((timezone.getD "").toList)
  if s = [] then .ok 0
  else if s.map Char.toLower = ['u', 't', 'c'] ∨ s.map Char.toLower = ['z'] then .ok 0
  else do
    let sign : ℤ := if s.head? = some '-' then -1 else 1
    let clean := (s.dropWhile (· == '+')).dropWhile (· == '-')
    let parts := clean.splitOn ':'
    let (hours, mins) ← match parts with
      | [h, m] => (.ok ((parseI32 h).getD 0, (parseI32 m).getD 0) : Outcome ε (ℤ × ℤ))
      | _ =>
        if utf8Length clean = 4 then do
          let (h, m) ← splitAtByte clean 2
          .ok ((parseI32 h).getD 0, (parseI32 m).getD 0)
        else .ok ((parseI32 clean).getD 0, 0)
    let hourSecs ← X.build.fitI32 (hours * 3600)
    let minSecs ← X.build.fitI32 (mins * 60)
    let total ← X.build.fitI32 (hourSecs + minSecs)
    let signed ← X.build.fitI32 (sign * total)
    .ok ((X.chrono.eastOpt signed).getD 0)

def sentinel : String := "1970-01-01T00:00:00Z"

/-- The text of a count of seconds taken as local time of the zone. -/
def normalizeUnix (X : Crates) (offset secs : ℤ) : String :=
  if offset = 0 then ((X.chrono.fromTimestamp secs).map X.chrono.toRfc3339).getD sentinel
  else
    match X.chrono.fromTimestamp secs with
    | some utc => ((X.chrono.fromLocal offset utc).map X.chrono.toRfc3339).getD sentinel
    | none => sentinel

/-- The civil fields of a Dahua packed timestamp. -/
structure Packed where
  year : ℤ
  month : ℕ
  day : ℕ
  hour : ℕ
  minute : ℕ
  second : ℕ
  deriving DecidableEq, Repr

/-- Year from 2000 in bits 26..31, month 22..25, day 17..21, hour 12..16,
minute 6..11, second 0..5. -/
def unpack (raw : ℕ) : Packed where
  year := ((raw / 2 ^ 26 % 64 : ℕ) : ℤ) + 2000
  month := raw / 2 ^ 22 % 16
  day := raw / 2 ^ 17 % 32
  hour := raw / 2 ^ 12 % 32
  minute := raw / 2 ^ 6 % 64
  second := raw % 64

/-- The instant of a packed local time, when its date and time exist. -/
def packedInstant (X : Crates) (offset : ℤ) (raw : ℕ) : Option ℤ := do
  let p := unpack raw
  let date ← X.chrono.fromYmdOpt p.year p.month p.day
  let naive ← X.chrono.andHmsOpt date p.hour p.minute p.second
  X.chrono.fromLocal offset naive

/-- What is not a packed date is taken as seconds in UTC. -/
def normalizePacked (X : Crates) (offset : ℤ) (raw : ℕ) : String :=
  match packedInstant X offset raw with
  | some t => X.chrono.toRfc3339 t
  | none => normalizeUnix X 0 (asI64 raw)

def normalizeTimestamp (X : Crates) (raw : ℕ) (encoding timezone : Option String) :
    Outcome ε String :=
  if raw = 0 then .ok sentinel
  else do
    let offset ← parseTimezoneOffset X timezone
    let enc := encoding.getD "unix_seconds"
    if enc = "dahua_packed" ∨ enc = "dhav_packed" then .ok (normalizePacked X offset raw)
    else if enc = "unix_millis" then .ok (normalizeUnix X offset (asI64 (raw / 1000)))
    else .ok (normalizeUnix X offset (asI64 raw))

end Dvrft.Timestamps
