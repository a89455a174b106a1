import Dvrft.Gregorian
import Dvrft.Machine
import Dvrft.StreamHash

/-!
What the engine is linked against: the digests, the calendar crate, the
allocator and the overflow mode of the build. Each is a parameter that comes with the documented
behaviour the engine relies on. Times are kept as seconds; the engine prints
no fraction of a second.
-/

namespace Dvrft.Platform

open Gregorian Machine StreamHash

/-- The part of `chrono` that the interpreter calls. -/
structure Chrono where
  minUtc : ℤ
  maxUtc : ℤ
  covers : minUtc ≤ civilSeconds 1 1 1 0 0 0 ∧ civilSeconds 9999 12 31 23 59 59 ≤ maxUtc
  narrow : -2 ^ 62 < minUtc ∧ maxUtc < 2 ^ 62
  /-- `FixedOffset::east_opt`, in seconds. -/
  eastOpt : ℤ → Option ℤ
  eastOpt_eq : ∀ secs, eastOpt secs = if -86400 < secs ∧ secs < 86400 then some secs else none
  /-- `DateTime::from_timestamp`. -/
  fromTimestamp : ℤ → Option ℤ
  fromTimestamp_eq : ∀ secs,
    fromTimestamp secs = if minUtc ≤ secs ∧ secs ≤ maxUtc then some secs else none
  /-- `NaiveDate::from_ymd_opt`, as a day number. -/
  fromYmdOpt : ℤ → ℕ → ℕ → Option ℤ
  fromYmdOpt_eq : ∀ y m d, 1 ≤ y ∧ y ≤ 9999 →
    fromYmdOpt y m d = if ValidDate y m d then some (dayNumber y m d) else none
  /-- `NaiveDate::and_hms_opt`, as civil seconds. -/
  andHmsOpt : ℤ → ℕ → ℕ → ℕ → Option ℤ
  andHmsOpt_eq : ∀ day h mi s, andHmsOpt day h mi s =
    if ValidTime h mi s then some (86400 * day + 3600 * (h : ℤ) + 60 * (mi : ℤ) + (s : ℤ))
    else none
  /-- `offset.from_local_datetime(naive).single()`, as the instant it names. -/
  fromLocal : ℤ → ℤ → Option ℤ
  fromLocal_eq : ∀ offset naive, fromLocal offset naive =
    if minUtc ≤ naive - offset ∧ naive - offset ≤ maxUtc then some (naive - offset) else none
  /-- `to_rfc3339_opts(SecondsFormat::Secs, true)`. -/
  toRfc3339 : ℤ → String
  toRfc3339_inj : ∀ a b, minUtc ≤ a ∧ a ≤ maxUtc → minUtc ≤ b ∧ b ≤ maxUtc →
    toRfc3339 a = toRfc3339 b → a = b
  toRfc3339_epoch : toRfc3339 0 = "1970-01-01T00:00:00Z"

namespace Chrono

variable (C : Chrono)

def InRange (t : ℤ) : Prop := C.minUtc ≤ t ∧ t ≤ C.maxUtc

instance (t : ℤ) : Decidable (C.InRange t) := by unfold InRange; infer_instance

/-- The instant a normalized timestamp stands for. -/
def Denotes (text : String) (t : ℤ) : Prop := C.InRange t ∧ C.toRfc3339 t = text

theorem Denotes.unique {text : String} {a b : ℤ} (ha : C.Denotes text a)
    (hb : C.Denotes text b) : a = b :=
  C.toRfc3339_inj a b ha.1 hb.1 (ha.2.trans hb.2.symm)

theorem inRange_of_years {t : ℤ} (hlow : civilSeconds 1 1 1 0 0 0 ≤ t)
    (hhigh : t ≤ civilSeconds 9999 12 31 23 59 59) : C.InRange t :=
  ⟨C.covers.1.trans hlow, hhigh.trans C.covers.2⟩

theorem fromTimestamp_pos {t : ℤ} (h : C.InRange t) : C.fromTimestamp t = some t :=
  (C.fromTimestamp_eq t).trans (if_pos h)

theorem fromTimestamp_neg {t : ℤ} (h : ¬ C.InRange t) : C.fromTimestamp t = none :=
  (C.fromTimestamp_eq t).trans (if_neg h)

theorem fromLocal_pos {offset naive : ℤ} (h : C.InRange (naive - offset)) :
    C.fromLocal offset naive = some (naive - offset) :=
  (C.fromLocal_eq offset naive).trans (if_pos h)

theorem fromLocal_neg {offset naive : ℤ} (h : ¬ C.InRange (naive - offset)) :
    C.fromLocal offset naive = none :=
  (C.fromLocal_eq offset naive).trans (if_neg h)

theorem inRange_zero : C.InRange 0 := C.inRange_of_years (by decide) (by decide)

theorem denotes_epoch : C.Denotes "1970-01-01T00:00:00Z" 0 :=
  ⟨C.inRange_zero, C.toRfc3339_epoch⟩

theorem denotes_of_inRange {t : ℤ} (h : C.InRange t) : C.Denotes (C.toRfc3339 t) t := ⟨h, rfl⟩

/-- The calendar itself, over the years the crate supports. -/
def gregorian : Chrono where
  minUtc := civilSeconds (-262143) 1 1 0 0 0
  maxUtc := civilSeconds 262142 12 31 23 59 59
  covers := by decide
  narrow := by decide
  eastOpt secs := if -86400 < secs ∧ secs < 86400 then some secs else none
  eastOpt_eq _ := rfl
  fromTimestamp secs :=
    if civilSeconds (-262143) 1 1 0 0 0 ≤ secs ∧ secs ≤ civilSeconds 262142 12 31 23 59 59
    then some secs else none
  fromTimestamp_eq _ := rfl
  fromYmdOpt y m d :=
    if -262143 ≤ y ∧ y ≤ 262142 ∧ ValidDate y m d then some (dayNumber y m d) else none
  fromYmdOpt_eq y m d hy := by
    have hrange : -262143 ≤ y ∧ y ≤ 262142 := by omega
    simp only [hrange, true_and]
  andHmsOpt day h mi s :=
    if ValidTime h mi s then some (86400 * day + 3600 * (h : ℤ) + 60 * (mi : ℤ) + (s : ℤ))
    else none
  andHmsOpt_eq _ _ _ _ := rfl
  fromLocal offset naive :=
    if civilSeconds (-262143) 1 1 0 0 0 ≤ naive - offset ∧
      naive - offset ≤ civilSeconds 262142 12 31 23 59 59 then some (naive - offset) else none
  fromLocal_eq _ _ := rfl
  toRfc3339 := rfc3339
  toRfc3339_inj _ _ _ _ h := rfc3339_injective h
  toRfc3339_epoch := by decide

end Chrono

structure Crates where
  build : Build
  sha256 : Hasher
  md5 : Hasher
  blake3 : List UInt8 → List UInt8
  blake3_size : ∀ bytes, (blake3 bytes).length = 32
  chrono : Chrono
  /-- The largest buffer the allocator grants: the one for a header is always granted, and no
  machine addresses 2^57 bytes. -/
  memory : ℕ
  memory_ge : 2 ^ 16 ≤ memory
  memory_lt : memory < 2 ^ 57

namespace Crates

/-- The same crates in a given build. -/
def inBuild (X : Crates) (build : Build) : Crates := { X with build := build }

/-- `vec![0u8; size]`, or `Vec::with_capacity` of so many bytes; a size that cannot be had
ends the program. -/
def allocate {ε : Type} (X : Crates) (size : ℕ) : Outcome ε Unit :=
  if size ≤ X.memory then .ok () else panicked

theorem allocate_ok {ε : Type} {X : Crates} {size : ℕ} {u : Unit} :
    (X.allocate size : Outcome ε Unit) = .ok u ↔ size ≤ X.memory := by
  unfold allocate panicked
  split_ifs with h <;> simp [h]

theorem allocate_of_le {ε : Type} (X : Crates) {size : ℕ} (h : size ≤ X.memory) :
    (X.allocate size : Outcome ε Unit) = .ok () := if_pos h

/-- `blake3::hash(bytes).to_hex().to_string()`. -/
def blake3Hex (X : Crates) (bytes : List UInt8) : String := hexEncode (X.blake3 bytes)

/-- `hex::encode(Md5::digest(bytes))`. -/
def md5Hex (X : Crates) (bytes : List UInt8) : String := hexEncode (X.md5.digest bytes)

def sha256Hex (X : Crates) (bytes : List UInt8) : String := hexEncode (X.sha256.digest bytes)

theorem blake3Hex_eq_iff (X : Crates) (a b : List UInt8) :
    X.blake3Hex a = X.blake3Hex b ↔ X.blake3 a = X.blake3 b := hexEncode_injective.eq_iff

theorem blake3Hex_ne_empty (X : Crates) (bytes : List UInt8) : X.blake3Hex bytes ≠ "" := by
  apply hexEncode_ne_empty
  apply List.ne_nil_of_length_pos
  rw [X.blake3_size]
  omega

def sha256Table : List (List UInt8 × ℕ) :=
  [([], 0xe3b0c44298fc1c149afbf4c8996fb92427ae41e4649b934ca495991b7852b855),
    ([97], 0xca978112ca1bbdcafac231b39a23dc4da786eff8147c4e72b9807785afee48bb),
    ([98], 0x3e23e8160039594a33894f6564e1b1348bbd7a0088d42c4acb73eeaed59c009d),
    ([99], 0x2e7d2c03a9507ae265ecf5b5356885a53393a2029d241394997265a1a25aefc6),
    ([97, 98], 0xfb8e20fc2e4c3f248c60c39bd652f3c1347298bb977b8b4d5903b85055620603),
    ([97, 98, 99], 0xba7816bf8f01cfea414140de5dae2223b00361a396177a9cb410ff61f20015ad)]

def md5Table : List (List UInt8 × ℕ) :=
  [([], 0xd41d8cd98f00b204e9800998ecf8427e),
    ([97], 0x0cc175b9c0f1b6a831c399e269772661),
    ([98], 0x92eb5ffee6ae2fec3ad71c777531578f),
    ([99], 0x4a8a08f09d37b73795649038408b5f33),
    ([97, 98], 0x187ef4436122d1cc2f40dc2b92f0eba0),
    ([97, 98, 99], 0x900150983cd24fb0d6963f7d28e17f72)]

def blake3Table : List (List UInt8 × ℕ) :=
  [([], 0xaf1349b9f5f9a1a6a0404dea36dcc9499bcb25c9adc112b7cc9a93cae41f3262),
    ([97], 0x17762fddd969a453925d65717ac3eea21320b66b54342fde15128d6caf21215f),
    ([98], 0x10e5cf3d3c8a4f9f3468c8cc58eea84892a22fdadbc1acb22410190044c1d553),
    ([99], 0xea7aa1fc9efdbe106dbb70369a75e9671fa29d52bd55536711bf197477b8f021),
    ([97, 98], 0x2dc99999a6aaef3f20349d2ed4057a2b54419545dabb809e6381de1bad8337e2),
    ([97, 98, 99], 0x6437b3ac38465133ffb63b75273a8db548c558465d79db03fd359c6cd5bd9d85)]

/-- Published digests where the table has one, elsewhere the bytes themselves
cut or filled up to the length of a digest. -/
def tableDigest (size : ℕ) (table : List (List UInt8 × ℕ)) (bytes : List UInt8) :
    List UInt8 :=
  match table.lookup bytes with
  | some digest => (leBytes size digest).reverse
  | none => (bytes ++ List.replicate size 0).take size

theorem length_tableDigest (size : ℕ) (table : List (List UInt8 × ℕ)) (bytes : List UInt8) :
    (tableDigest size table bytes).length = size := by
  unfold tableDigest
  cases table.lookup bytes <;> simp

def sample : Crates where
  build := .debug
  sha256 := .ofDigest (tableDigest 32 sha256Table)
  md5 := .ofDigest (tableDigest 16 md5Table)
  blake3 := tableDigest 32 blake3Table
  blake3_size := length_tableDigest 32 blake3Table
  chrono := .gregorian
  memory := 2 ^ 32
  memory_ge := by decide
  memory_lt := by decide

end Crates

end Dvrft.Platform
