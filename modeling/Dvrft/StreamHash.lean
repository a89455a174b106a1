import Mathlib.Data.List.Basic
import Mathlib.Data.Set.Function

/-!
Incremental digests and the texts they are stored as. The two laws of an
incremental digest make its state depend on the concatenation of what it was
fed, so feeding a sequence block by block gives the digest of the sequence.
Lower-case hexadecimal is injective and stays so when compared without regard
to the case of its letters.
-/

namespace Dvrft.StreamHash

/-- A digest computed piece by piece. -/
structure Hasher where
  State : Type
  new : State
  update : State → List UInt8 → State
  finalize : State → List UInt8
  update_nil : ∀ s, update s [] = s
  update_append : ∀ s a b, update (update s a) b = update s (a ++ b)

namespace Hasher

def digest (H : Hasher) (bytes : List UInt8) : List UInt8 := H.finalize (H.update H.new bytes)

/-- The incremental form of a one-shot digest: keep the bytes until the end. -/
def ofDigest (f : List UInt8 → List UInt8) : Hasher where
  State := List UInt8
  new := []
  update s bytes := s ++ bytes
  finalize := f
  update_nil := List.append_nil
  update_append := List.append_assoc

/-- Feeding pieces in order is feeding what they concatenate to. -/
theorem foldl_update (H : Hasher) (s : H.State) (pieces : List (List UInt8)) :
    pieces.foldl H.update s = H.update s pieces.flatten := by
  induction pieces generalizing s with
  | nil => simp [H.update_nil]
  | cons piece rest ih => rw [List.foldl_cons, ih, H.update_append, List.flatten_cons]

end Hasher

def hexDigit (n : ℕ) : Char := ("0123456789abcdef".toList)[n]?.getD '0'

/-- `hex::encode`: two lower-case digits a byte, the high half first. -/
def hexEncode (bytes : List UInt8) : String :=
  String.ofList (bytes.flatMap fun b => [hexDigit (b.toNat / 16), hexDigit (b.toNat % 16)])

def hexValue (c : Char) : Option ℕ :=
  if '0' ≤ c ∧ c ≤ '9' then some (c.toNat - '0'.toNat)
  else if 'a' ≤ c ∧ c ≤ 'f' then some (c.toNat - 'a'.toNat + 10)
  else if 'A' ≤ c ∧ c ≤ 'F' then some (c.toNat - 'A'.toNat + 10)
  else none

def hexDecodeChars : List Char → Option (List UInt8)
  | [] => some []
  | [_] => none
  | hi :: lo :: rest => do
    let h ← hexValue hi
    let l ← hexValue lo
    let tail ← hexDecodeChars rest
    some (UInt8.ofNat (16 * h + l) :: tail)

/-- `hex::decode`: digits of either case in pairs, nothing else. -/
def hexDecode (text : String) : Option (List UInt8) := hexDecodeChars text.toList

theorem hexValue_hexDigit (n : ℕ) (hn : n < 16) : hexValue (hexDigit n) = some n := by
  revert n
  decide

theorem toLower_hexDigit (n : ℕ) (hn : n < 16) : (hexDigit n).toLower = hexDigit n := by
  revert n
  decide

/-- Decoding undoes encoding. -/
theorem hexDecode_hexEncode (bytes : List UInt8) : hexDecode (hexEncode bytes) = some bytes := by
  unfold hexDecode hexEncode
  rw [String.toList_ofList]
  induction bytes with
  | nil => rfl
  | cons b rest ih =>
    have hb : b.toNat < 256 := b.toNat_lt
    have hhi := hexValue_hexDigit (b.toNat / 16) (by omega)
    have hlo := hexValue_hexDigit (b.toNat % 16) (by omega)
    have hbyte : UInt8.ofNat (16 * (b.toNat / 16) + b.toNat % 16) = b := by
      rw [Nat.div_add_mod, UInt8.ofNat_toNat]
    simp only [List.flatMap_cons, List.cons_append, List.nil_append, hexDecodeChars, hhi, hlo]
    simp only [bind, Option.bind, ih, hbyte]

theorem hexEncode_injective : Function.Injective hexEncode := by
  intro a b h
  have hdec := congrArg hexDecode h
  rw [hexDecode_hexEncode, hexDecode_hexEncode] at hdec
  exact Option.some.inj hdec

theorem hexEncode_ne_empty (bytes : List UInt8) (hne : bytes ≠ []) : hexEncode bytes ≠ "" := by
  intro h
  exact hne (hexEncode_injective (h.trans rfl))

/-- `str::eq_ignore_ascii_case`. -/
def eqIgnoreAsciiCase (a b : String) : Bool :=
  a.toList.map Char.toLower == b.toList.map Char.toLower

theorem toLower_hexEncode (bytes : List UInt8) :
    (hexEncode bytes).toList.map Char.toLower = (hexEncode bytes).toList := by
  unfold hexEncode
  rw [String.toList_ofList]
  induction bytes with
  | nil => rfl
  | cons b rest ih =>
    have hb : b.toNat < 256 := b.toNat_lt
    simp only [List.flatMap_cons, List.map_append, List.map_cons, List.map_nil, ih,
      toLower_hexDigit (b.toNat / 16) (by omega), toLower_hexDigit (b.toNat % 16) (by omega)]

/-- Ignoring case loses nothing on encoded bytes. -/
theorem eqIgnoreAsciiCase_hexEncode (a b : List UInt8) :
    eqIgnoreAsciiCase (hexEncode a) (hexEncode b) = true ↔ a = b := by
  unfold eqIgnoreAsciiCase
  rw [toLower_hexEncode, toLower_hexEncode, beq_iff_eq, String.toList_inj]
  exact hexEncode_injective.eq_iff

end Dvrft.StreamHash
