import Dvrft.Checksums
import Dvrft.Generator
import Dvrft.StreamKinds

/-!
The checksum in a video header. It divides by a generator with a last term and an odd number
of terms below its first, and the division of a single bit comes back to it only after more
bits than a header has.
-/

namespace Dvrft.HeaderCrc

open Acquisition Checksums Generator Machine StreamKinds

/-- The generator below its first term. -/
def ccitt : BitVec 16 := 0x1021#16

/-- The bits of a byte, the highest first. -/
def bitsOf (byte : UInt8) : List Bool := (List.range 8).map fun i => byte.toBitVec.getLsbD (7 - i)

def bits (data : Bytes) : List Bool := data.flatMap bitsOf

theorem crcBit_toBitVec (crc : UInt16) : (crcBit crc).toBitVec = step ccitt crc.toBitVec := by
  have hmask : crc &&& 0x8000 ≠ 0 ↔ crc.toBitVec.msb = true := by
    have hand : (crc &&& 0x8000).toBitVec =
        if crc.toBitVec.getLsbD 15 then BitVec.twoPow 16 15 else 0#16 :=
      BitVec.and_twoPow crc.toBitVec 15
    rw [Ne, ← UInt16.toBitVec_inj, hand, BitVec.msb_eq_getLsbD_last]
    cases crc.toBitVec.getLsbD 15 <;> decide
  unfold crcBit step gated
  simp only [hmask]
  cases crc.toBitVec.msb <;> simp [ccitt]

theorem iterate_crcBit (n : ℕ) (crc : UInt16) :
    (crcBit^[n] crc).toBitVec = (step ccitt)^[n] crc.toBitVec := by
  induction n generalizing crc with
  | zero => rfl
  | succ n ih => rw [Function.iterate_succ_apply, ih, crcBit_toBitVec]; rfl

theorem length_bitsOf (byte : UInt8) : (bitsOf byte).length = 8 := by simp [bitsOf]

theorem length_bits (data : Bytes) : (bits data).length = 8 * data.length := by
  induction data with
  | nil => rfl
  | cons byte data ih =>
    rw [bits, List.flatMap_cons, List.length_append, length_bitsOf, ← bits, ih, List.length_cons]
    omega

/-- A byte is put into the upper half of the register at once. -/
theorem word_bitsOf (byte : UInt8) :
    word 16 (bitsOf byte) = (byte.toUInt16 <<< (8 : UInt16)).toBitVec := by
  revert byte
  exact forall_byte (by decide +kernel)

/-- The bytewise loop is the division of the bits. -/
theorem foldl_toBitVec (data : Bytes) (crc : UInt16) :
    (data.foldl (fun crc byte => crcBit^[8] (crc ^^^ byte.toUInt16 <<< (8 : UInt16)))
      crc).toBitVec = run ccitt crc.toBitVec (bits data) := by
  induction data generalizing crc with
  | nil => rfl
  | cons byte data ih =>
    have hbyte : (crcBit^[8] (crc ^^^ byte.toUInt16 <<< (8 : UInt16))).toBitVec =
        run ccitt crc.toBitVec (bitsOf byte) := by
      rw [run_eq_iterate _ _ (by rw [length_bitsOf]; decide), length_bitsOf, word_bitsOf,
        iterate_crcBit, UInt16.toBitVec_xor]
    rw [List.foldl_cons, ih, hbyte, ← run_append]
    rfl

theorem computeHeaderCrc_toBitVec (data : Bytes) :
    (computeHeaderCrc data).toBitVec = run ccitt 0xFFFF#16 (bits data) :=
  foldl_toBitVec data 0xFFFF

/-- In how many bits two strings of bytes differ. -/
def distance (a b : Bytes) : ℕ := (List.zipWith xor (bits a) (bits b)).count true

theorem bits_append (a b : Bytes) : bits (a ++ b) = bits a ++ bits b := List.flatMap_append

theorem distance_append {a b a' b' : Bytes} (h : a.length = a'.length) :
    distance (a ++ b) (a' ++ b') = distance a a' + distance b b' := by
  have hlength : (bits a).length = (bits a').length := by rw [length_bits, length_bits, h]
  rw [distance, bits_append, bits_append, List.zipWith_append hlength, List.count_append]
  rfl

theorem bitsOf_injective : Function.Injective bitsOf := by
  intro a b h
  rw [← UInt8.toBitVec_inj]
  refine BitVec.eq_of_getLsbD_eq fun i hi => ?_
  have hplace := congrArg (fun l : List Bool => l[7 - i]?) h
  simp only [bitsOf, List.getElem?_map] at hplace
  rw [List.getElem?_range (by omega)] at hplace
  simpa [show 7 - (7 - i) = i by omega] using hplace

theorem bits_injective {a b : Bytes} (hlength : a.length = b.length) (h : bits a = bits b) :
    a = b := by
  induction a generalizing b with
  | nil => exact (List.length_eq_zero_iff.mp hlength.symm).symm
  | cons x a ih =>
    obtain ⟨y, b, rfl⟩ := List.exists_cons_of_length_eq_add_one hlength.symm
    rw [bits, bits, List.flatMap_cons, List.flatMap_cons] at h
    obtain ⟨hbyte, hrest⟩ := List.append_inj h (by rw [length_bitsOf, length_bitsOf])
    rw [bitsOf_injective hbyte, ih (by simpa using hlength) hrest]

/-- Words that differ differ in some bit. -/
theorem mem_zipWith_xor {xs ys : List Bool} (hlength : xs.length = ys.length) (h : xs ≠ ys) :
    true ∈ List.zipWith xor xs ys := by
  induction xs generalizing ys with
  | nil => exact absurd (List.length_eq_zero_iff.mp hlength.symm).symm h
  | cons x xs ih =>
    obtain ⟨y, ys, rfl⟩ := List.exists_cons_of_length_eq_add_one hlength.symm
    rw [List.zipWith_cons_cons, List.mem_cons]
    by_cases hxy : x = y
    · right
      refine ih (by simpa using hlength) fun hrest => h ?_
      rw [hxy, hrest]
    · left
      cases x <;> cases y <;> simp_all

theorem zipWith_xor_self (xs : List Bool) :
    List.zipWith xor xs xs = List.replicate xs.length false := by
  simp

/-- The order in which the bits of the checksum are stored. -/
def storedOrder : List ℕ := (List.range 8).map (7 - ·) ++ (List.range 8).map (15 - ·)

theorem bits_leBytes (x : UInt16) :
    bits (leBytes 2 x.toNat) = storedOrder.map x.toBitVec.getLsbD := by
  have hword : ∀ n i, i < 8 → (UInt8.ofNat (n % 256)).toBitVec.getLsbD i = n.testBit i := by
    intro n i hi
    rw [UInt8.toBitVec_ofNat', BitVec.getLsbD_ofNat, show 256 = 2 ^ 8 by rfl,
      Nat.testBit_mod_two_pow]
    simp [hi]
  have hlow : bitsOf (UInt8.ofNat (x.toNat % 256)) =
      (List.range 8).map fun i => x.toBitVec.getLsbD (7 - i) :=
    List.map_congr_left fun i _ => hword x.toNat (7 - i) (by omega)
  have hhigh : bitsOf (UInt8.ofNat (x.toNat / 256 % 256)) =
      (List.range 8).map fun i => x.toBitVec.getLsbD (15 - i) := by
    refine List.map_congr_left fun i hi => ?_
    have hlt := List.mem_range.mp hi
    rw [hword (x.toNat / 256) (7 - i) (by omega), show 256 = 2 ^ 8 by rfl,
      Nat.testBit_div_two_pow, show 7 - i + 8 = 15 - i by omega]
    rfl
  rw [storedOrder, List.map_append, List.map_map, List.map_map]
  simp only [leBytes, bits, List.flatMap_cons, List.flatMap_nil, List.append_nil, hlow, hhigh]
  rfl

theorem distance_leBytes (x y : UInt16) :
    distance (leBytes 2 x.toNat) (leBytes 2 y.toNat) = weight (x.toBitVec ^^^ y.toBitVec) := by
  have horder : storedOrder.Perm (List.range 16) := by decide
  have hcount : ∀ order : List ℕ,
      (List.zipWith xor (order.map x.toBitVec.getLsbD) (order.map y.toBitVec.getLsbD)).count true =
        order.countP (x.toBitVec ^^^ y.toBitVec).getLsbD := by
    intro order
    induction order with
    | nil => rfl
    | cons i order ih =>
      rw [List.map_cons, List.map_cons, List.zipWith_cons_cons, List.count_cons, ih,
        List.countP_cons, BitVec.getLsbD_xor]
      simp
  rw [distance, bits_leBytes, bits_leBytes, hcount, weight, horder.countP_eq]

/-- The length of the fields that the checksum is about. -/
def fieldsSize : ℕ := 26

/-- The checksum that is stored is that of the fields in front of it. -/
def Checked (block : Bytes) : Prop :=
  (block.drop fieldsSize).take 2 = leBytes 2 (computeHeaderCrc (block.take fieldsSize)).toNat

theorem checked_header (channelId : UInt32) (timestamp : UInt64) (seq : UInt32) (flags : UInt16) :
    Checked (header channelId timestamp seq flags) := by
  have hfields : (headerFields channelId timestamp seq flags).length = fieldsSize :=
    length_headerFields channelId timestamp seq flags
  rw [Checked, header, zeroFilled, List.append_assoc, List.drop_left' hfields,
    List.take_left' hfields, List.take_left' (length_leBytes _ _)]

/-- The division of one bit does not come back before the end of a header. -/
theorem period_ccitt : ∀ d, 0 < d → d < 8 * fieldsSize + 16 → (step ccitt)^[d] (top 16) ≠ top 16 := by
  have hall : ∀ d < 8 * fieldsSize + 16, 0 < d → (step ccitt)^[d] (top 16) ≠ top 16 := by
    decide +kernel
  exact fun d hpos hlt => hall d hlt hpos

/-- Checked blocks that differ in fields or checksum differ in four bits of them. -/
theorem four_le_distance {a b : Bytes} (ha : Checked a) (hb : Checked b)
    (hlength : a.length = b.length) (hlong : fieldsSize ≤ a.length)
    (hne : a.take (fieldsSize + 2) ≠ b.take (fieldsSize + 2)) :
    4 ≤ distance (a.take (fieldsSize + 2)) (b.take (fieldsSize + 2)) := by
  have hsplit : ∀ c : Bytes, Checked c → c.take (fieldsSize + 2) = c.take fieldsSize ++
      leBytes 2 (computeHeaderCrc (c.take fieldsSize)).toNat := by
    intro c hc
    rw [List.take_add, hc]
  have hfields : (a.take fieldsSize).length = (b.take fieldsSize).length := by
    rw [List.length_take, List.length_take, hlength]
  have hbits : (bits (a.take fieldsSize)).length = (bits (b.take fieldsSize)).length := by
    rw [length_bits, length_bits, hfields]
  have hdiffer : bits (a.take fieldsSize) ≠ bits (b.take fieldsSize) := by
    intro hsame
    apply hne
    rw [hsplit a ha, hsplit b hb, bits_injective hfields hsame]
  have hrun : run ccitt 0#16 (List.zipWith xor (bits (a.take fieldsSize))
      (bits (b.take fieldsSize))) = (computeHeaderCrc (a.take fieldsSize)).toBitVec ^^^
        (computeHeaderCrc (b.take fieldsSize)).toBitVec := by
    rw [computeHeaderCrc_toBitVec, computeHeaderCrc_toBitVec, ← run_xor _ _ _ hbits,
      BitVec.xor_self]
  rw [hsplit a ha, hsplit b hb, distance_append hfields, distance_leBytes, ← hrun]
  refine four_le_weight (by decide) (by decide) (by decide) period_ccitt ?_
    (mem_zipWith_xor hbits hdiffer)
  rw [List.length_zipWith, length_bits, length_bits, List.length_take]
  omega

/-- Fields that differ within sixteen bits have different checksums. -/
theorem computeHeaderCrc_burst {a b : Bytes} {front burst burst' back : List Bool}
    (ha : bits a = front ++ burst ++ back) (hb : bits b = front ++ burst' ++ back)
    (hlength : burst.length = burst'.length) (hfit : burst.length ≤ 16) (hne : burst ≠ burst') :
    computeHeaderCrc a ≠ computeHeaderCrc b := by
  intro hsame
  have hwhole : (bits a).length = (bits b).length := by
    rw [ha, hb]
    simp [hlength]
  have hdifference : List.zipWith xor (bits a) (bits b) =
      List.replicate front.length false ++ List.zipWith xor burst burst' ++
        List.replicate back.length false := by
    rw [ha, hb, List.zipWith_append (by simp [hlength]), List.zipWith_append rfl,
      zipWith_xor_self, zipWith_xor_self]
  have hrun := run_xor ccitt 0xFFFF#16 0xFFFF#16 hwhole
  rw [← computeHeaderCrc_toBitVec, ← computeHeaderCrc_toBitVec, hsame, BitVec.xor_self,
    BitVec.xor_self, hdifference] at hrun
  exact run_burst_ne_zero (g := ccitt) (by decide) (by rw [List.length_zipWith]; omega)
    (mem_zipWith_xor hlength hne) _ _ hrun

/-- A generated header passes its check, and no header that was damaged in up to three bits
of fields and checksum, or within sixteen consecutive bits of the fields, does. -/
theorem header_damage (channelId : UInt32) (timestamp : UInt64) (seq : UInt32) (flags : UInt16) :
    Checked (header channelId timestamp seq flags) ∧
    (∀ damaged : Bytes, damaged.length = (header channelId timestamp seq flags).length →
      damaged.take (fieldsSize + 2) ≠
          (header channelId timestamp seq flags).take (fieldsSize + 2) →
        distance ((header channelId timestamp seq flags).take (fieldsSize + 2))
            (damaged.take (fieldsSize + 2)) < 4 → ¬ Checked damaged) ∧
    ∀ (damaged : Bytes) (front burst burst' back : List Bool),
      bits ((header channelId timestamp seq flags).take fieldsSize) = front ++ burst ++ back →
      bits (damaged.take fieldsSize) = front ++ burst' ++ back →
      burst.length = burst'.length → burst.length ≤ 16 → burst ≠ burst' →
      (damaged.drop fieldsSize).take 2 =
          ((header channelId timestamp seq flags).drop fieldsSize).take 2 →
        ¬ Checked damaged := by
  have hchecked := checked_header channelId timestamp seq flags
  refine ⟨hchecked, ?_, ?_⟩
  · intro damaged hlength hne hfew hpasses
    have hlong : fieldsSize ≤ (header channelId timestamp seq flags).length := by
      rw [length_header]
      decide
    have hfour := four_le_distance hchecked hpasses hlength.symm hlong hne.symm
    omega
  · intro damaged front burst burst' back ha hb hlength hfit hne hstored hpasses
    have hsame : leBytes 2 (computeHeaderCrc (damaged.take fieldsSize)).toNat =
        leBytes 2 (computeHeaderCrc
          ((header channelId timestamp seq flags).take fieldsSize)).toNat :=
      hpasses.symm.trans (hstored.trans hchecked)
    have hsmall : ∀ crc : UInt16, crc.toNat % 256 ^ 2 = crc.toNat :=
      fun crc => Nat.mod_eq_of_lt crc.toNat_lt
    have hvalue := congrArg ofLeBytes hsame
    rw [ofLeBytes_leBytes, ofLeBytes_leBytes, hsmall, hsmall, UInt16.toNat_inj] at hvalue
    exact computeHeaderCrc_burst ha hb hlength hfit hne hvalue.symm

end Dvrft.HeaderCrc
