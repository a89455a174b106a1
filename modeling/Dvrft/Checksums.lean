import Mathlib.Data.List.Count
import Mathlib.Data.BitVec

/-!
Checksums by polynomial division. A register of `w` bits takes one bit at a time; what it
holds is linear in the bits, so the checksums of two words differ by the checksum of their
difference. From that: which differences a checksum cannot miss.
-/

namespace Dvrft.Checksums

variable {w : ℕ}

/-- A word that is there or not. -/
def gated (bit : Bool) (x : BitVec w) : BitVec w := if bit then x else 0#w

/-- The register moves up; what falls out of it brings the generator in. -/
def step (g crc : BitVec w) : BitVec w := crc <<< 1 ^^^ gated crc.msb g

/-- The highest place of the register. -/
def top (w : ℕ) : BitVec w := BitVec.twoPow w (w - 1)

def feed (g crc : BitVec w) (bit : Bool) : BitVec w := step g (crc ^^^ gated bit (top w))

def run (g crc : BitVec w) (bits : List Bool) : BitVec w := bits.foldl (feed g) crc

@[simp] theorem run_nil (g crc : BitVec w) : run g crc [] = crc := rfl

@[simp] theorem run_cons (g crc : BitVec w) (bit : Bool) (bits : List Bool) :
    run g crc (bit :: bits) = run g (feed g crc bit) bits := rfl

theorem run_append (g crc : BitVec w) (xs ys : List Bool) :
    run g crc (xs ++ ys) = run g (run g crc xs) ys := List.foldl_append

theorem xor_xor_xor_comm (a b c d : BitVec w) : a ^^^ b ^^^ (c ^^^ d) = a ^^^ c ^^^ (b ^^^ d) := by
  ac_rfl

theorem gated_xor (p q : Bool) (x : BitVec w) :
    gated (xor p q) x = gated p x ^^^ gated q x := by
  cases p <;> cases q <;> simp [gated]

theorem step_xor (g a b : BitVec w) : step g (a ^^^ b) = step g a ^^^ step g b := by
  rw [step, BitVec.msb_xor, gated_xor, BitVec.shiftLeft_xor_distrib]
  exact xor_xor_xor_comm _ _ _ _

theorem step_zero (g : BitVec w) : step g 0#w = 0#w := by
  have h := step_xor g 0#w 0#w
  rw [BitVec.xor_self, BitVec.xor_self] at h
  exact h

theorem feed_xor (g a b : BitVec w) (p q : Bool) :
    feed g (a ^^^ b) (xor p q) = feed g a p ^^^ feed g b q := by
  rw [feed, gated_xor, xor_xor_xor_comm, step_xor]
  rfl

/-- The registers of two words of one length differ by the register of the difference. -/
theorem run_xor (g a b : BitVec w) {xs ys : List Bool} (h : xs.length = ys.length) :
    run g (a ^^^ b) (List.zipWith xor xs ys) = run g a xs ^^^ run g b ys := by
  induction xs generalizing a b ys with
  | nil =>
    obtain rfl := List.length_eq_zero_iff.mp h.symm
    rfl
  | cons x xs ih =>
    obtain ⟨y, ys, rfl⟩ := List.exists_cons_of_length_eq_add_one h.symm
    rw [List.zipWith_cons_cons, run_cons, run_cons, run_cons, feed_xor]
    exact ih _ _ (by simpa using h)

theorem feed_false (g crc : BitVec w) : feed g crc false = step g crc := by
  simp [feed, gated]

theorem run_replicate_false (g crc : BitVec w) (n : ℕ) :
    run g crc (List.replicate n false) = (step g)^[n] crc := by
  induction n generalizing crc with
  | zero => rfl
  | succ n ih => rw [List.replicate_succ, run_cons, feed_false, ih, Function.iterate_succ_apply]

theorem iterate_step_zero (g : BitVec w) (n : ℕ) : (step g)^[n] 0#w = 0#w := by
  induction n with
  | zero => rfl
  | succ n ih => rw [Function.iterate_succ_apply, step_zero, ih]

/-- A register is that of an empty one, and its own content moved on. -/
theorem run_eq_xor (g crc : BitVec w) (bits : List Bool) :
    run g crc bits = run g 0#w bits ^^^ (step g)^[bits.length] crc := by
  have hzero : List.zipWith xor bits (List.replicate bits.length false) = bits := by
    induction bits with
    | nil => rfl
    | cons bit bits ih => simp [List.replicate_succ, ih]
  have hlength : bits.length = (List.replicate bits.length false).length := by simp
  have h := run_xor g 0#w crc hlength
  rw [hzero, BitVec.zero_xor, run_replicate_false] at h
  exact h

theorem eq_of_xor_eq_zero {a b : BitVec w} (h : a ^^^ b = 0#w) : a = b := BitVec.xor_eq_zero_iff.mp h

section Injective

variable {g : BitVec w} (hlast : g.getLsbD 0 = true)
include hlast

theorem eq_zero_of_step {crc : BitVec w} (h : step g crc = 0#w) : crc = 0#w := by
  have hbit : ∀ i, (crc <<< 1 ^^^ gated crc.msb g).getLsbD i = false := by
    intro i
    rw [show crc <<< 1 ^^^ gated crc.msb g = 0#w from h]
    simp
  have hmsb : crc.msb = false := by
    have hfirst := hbit 0
    cases hm : crc.msb with
    | false => rfl
    | true =>
      rw [hm, BitVec.getLsbD_xor, gated, if_pos rfl, hlast] at hfirst
      simp at hfirst
  refine BitVec.eq_of_getLsbD_eq fun i hi => ?_
  rw [BitVec.getLsbD_zero]
  rcases (by omega : i + 1 < w ∨ i = w - 1) with hin | rfl
  · have hnext := hbit (i + 1)
    rw [hmsb] at hnext
    rw [BitVec.getLsbD_eq_getElem hi]
    simpa [gated, hin] using hnext
  · rw [← BitVec.msb_eq_getLsbD_last]
    exact hmsb

theorem step_injective : Function.Injective (step g) := by
  intro a b h
  apply eq_of_xor_eq_zero
  apply eq_zero_of_step hlast
  rw [step_xor, h, BitVec.xor_self]

theorem eq_zero_of_iterate {crc : BitVec w} {n : ℕ} (h : (step g)^[n] crc = 0#w) :
    crc = 0#w :=
  (step_injective hlast).iterate n (h.trans (iterate_step_zero g n).symm)

end Injective

/-- A word of bits, its first one in the highest place. -/
def word (w : ℕ) : List Bool → BitVec w
  | [] => 0#w
  | bit :: bits => gated bit (top w) ^^^ word w bits >>> 1

theorem getLsbD_word (bits : List Bool) {i : ℕ} (hi : i < w) :
    (word w bits).getLsbD (w - 1 - i) = bits.getD i false := by
  induction bits generalizing i with
  | nil => simp [word]
  | cons bit bits ih =>
    rw [word, BitVec.getLsbD_xor, BitVec.getLsbD_ushiftRight]
    cases i with
    | zero =>
      have hout : (word w bits).getLsbD (1 + (w - 1 - 0)) = false :=
        BitVec.getLsbD_of_ge _ _ (by omega)
      have htop : (gated bit (top w)).getLsbD (w - 1 - 0) = bit := by
        cases bit with
        | false => simp [gated]
        | true => simp [gated, top, Nat.sub_lt hi Nat.one_pos]
      rw [hout, htop]
      simp
    | succ i =>
      have htop : (gated bit (top w)).getLsbD (w - 1 - (i + 1)) = false := by
        cases bit with
        | false => simp [gated]
        | true =>
          rw [gated, if_pos rfl, top, BitVec.getLsbD_twoPow]
          simp
          omega
      have hplace : 1 + (w - 1 - (i + 1)) = w - 1 - i := by omega
      rw [htop, hplace, ih (by omega)]
      simp

/-- A word that leaves the lowest place free only moves. -/
theorem step_word (g : BitVec w) {bits : List Bool} (h : bits.length + 1 ≤ w) :
    step g (word w bits >>> 1) = word w bits := by
  have hmsb : (word w bits >>> 1).msb = false := by
    rw [BitVec.msb_eq_getLsbD_last, BitVec.getLsbD_ushiftRight]
    exact BitVec.getLsbD_of_ge _ _ (by omega)
  rw [step, hmsb, gated, if_neg (by decide), BitVec.xor_zero]
  refine BitVec.eq_of_getLsbD_eq fun i hi => ?_
  rw [BitVec.getLsbD_shiftLeft, BitVec.getLsbD_ushiftRight]
  cases i with
  | zero =>
    have hlow := getLsbD_word (w := w) bits (i := w - 1) (by omega)
    rw [Nat.sub_self, List.getD_eq_getElem?_getD, List.getElem?_eq_none (by omega)] at hlow
    simpa using hlow.symm
  | succ i =>
    have hplace : 1 + (i + 1 - 1) = i + 1 := by omega
    rw [hplace]
    simp [hi]

/-- A word that fits into the register can be put there at once. -/
theorem run_eq_iterate (g crc : BitVec w) {bits : List Bool} (h : bits.length ≤ w) :
    run g crc bits = (step g)^[bits.length] (crc ^^^ word w bits) := by
  induction bits generalizing crc with
  | nil => exact BitVec.xor_zero.symm
  | cons bit bits ih =>
    rw [List.length_cons] at h
    have hback := step_word g h
    rw [run_cons, ih _ (by omega), List.length_cons, Function.iterate_succ_apply, word,
      ← BitVec.xor_assoc, step_xor, hback]
    rfl

theorem word_ne_zero {bits : List Bool} (hfit : bits.length ≤ w) (h : true ∈ bits) :
    word w bits ≠ 0#w := by
  obtain ⟨i, hi, hbit⟩ := List.getElem_of_mem h
  intro hzero
  have hplace := getLsbD_word (w := w) bits (i := i) (by omega)
  rw [hzero, List.getD_eq_getElem?_getD, List.getElem?_eq_getElem hi, hbit] at hplace
  simp at hplace

/-- A difference within as many bits as the register has is seen. -/
theorem run_burst_ne_zero {g : BitVec w} (hlast : g.getLsbD 0 = true) {burst : List Bool}
    (hfit : burst.length ≤ w) (h : true ∈ burst) (before after : ℕ) :
    run g 0#w (List.replicate before false ++ burst ++ List.replicate after false) ≠ 0#w := by
  rw [run_append, run_append, run_replicate_false, run_replicate_false, iterate_step_zero,
    run_eq_iterate g _ hfit, BitVec.zero_xor]
  intro hzero
  exact word_ne_zero hfit h (eq_zero_of_iterate hlast (eq_zero_of_iterate hlast hzero))

/-- How many bits of the word are set. -/
def weight (x : BitVec w) : ℕ := (List.range w).countP x.getLsbD

/-- Whether an odd number of the bits is set. -/
def odd (bits : List Bool) : Bool := bits.foldr xor false

@[simp] theorem odd_nil : odd [] = false := rfl

@[simp] theorem odd_cons (bit : Bool) (bits : List Bool) :
    odd (bit :: bits) = xor bit (odd bits) := rfl

theorem odd_eq (bits : List Bool) : odd bits = decide (bits.count true % 2 = 1) := by
  induction bits with
  | nil => rfl
  | cons bit bits ih =>
    rw [odd_cons, ih]
    cases bit with
    | false => simp
    | true =>
      rw [List.count_cons_self, Bool.true_xor, Bool.eq_iff_iff]
      simp only [Bool.not_eq_true', decide_eq_false_iff_not, decide_eq_true_eq]
      omega

theorem odd_append (xs ys : List Bool) : odd (xs ++ ys) = xor (odd xs) (odd ys) := by
  induction xs with
  | nil => simp
  | cons x xs ih => rw [List.cons_append, odd_cons, odd_cons, ih, Bool.xor_assoc]

theorem odd_map_xor {α : Type} (places : List α) (f g : α → Bool) :
    odd (places.map fun i => xor (f i) (g i)) = xor (odd (places.map f)) (odd (places.map g)) := by
  induction places with
  | nil => rfl
  | cons i places ih =>
    rw [List.map_cons, List.map_cons, List.map_cons, odd_cons, odd_cons, odd_cons, ih]
    cases f i <;> cases g i <;> simp

/-- The bits of a word, from the lowest place on. -/
def places (x : BitVec w) : List Bool := (List.range w).map x.getLsbD

theorem count_places (x : BitVec w) : (places x).count true = weight x := by
  rw [places, List.count, List.countP_map, weight]
  congr 1
  funext i
  simp

theorem odd_places_xor (x y : BitVec w) :
    odd (places (x ^^^ y)) = xor (odd (places x)) (odd (places y)) := by
  rw [places, places, places, ← odd_map_xor]
  congr 1
  exact List.map_congr_left fun i _ => BitVec.getLsbD_xor

/-- What moves up loses its highest place. -/
theorem odd_places_shiftLeft (x : BitVec w) :
    odd (places (x <<< 1)) = xor (odd (places x)) x.msb := by
  cases w with
  | zero => simp [places, BitVec.msb_eq_getLsbD_last]
  | succ n =>
    have hfirst : (x <<< 1).getLsbD 0 = false := by simp
    have hup : places (x <<< 1) = false :: (List.range n).map x.getLsbD := by
      rw [places, List.range_succ_eq_map, List.map_cons, List.map_map, hfirst]
      congr 1
      refine List.map_congr_left fun i hi => ?_
      have hlt := List.mem_range.mp hi
      rw [Function.comp_apply, BitVec.getLsbD_shiftLeft]
      simp [hlt]
    have hall : places x = (List.range n).map x.getLsbD ++ [x.msb] := by
      rw [places, List.range_succ, List.map_append, List.map_singleton,
        BitVec.msb_eq_getLsbD_last, Nat.add_sub_cancel]
    rw [hup, hall, odd_append]
    simp

theorem odd_places_zero : odd (places 0#w) = false := by
  have hself := odd_places_xor 0#w 0#w
  rw [BitVec.xor_self] at hself
  rw [hself, Bool.xor_self]

theorem odd_places_gated (bit : Bool) (x : BitVec w) :
    odd (places (gated bit x)) = (bit && odd (places x)) := by
  cases bit with
  | false => exact odd_places_zero
  | true => rfl

/-- A single place has weight one. -/
theorem weight_twoPow {i : ℕ} (hi : i < w) : weight (BitVec.twoPow w i) = 1 := by
  have hplaces : ∀ j ∈ List.range w, (BitVec.twoPow w i).getLsbD j = (j == i) := by
    intro j _
    rw [BitVec.getLsbD_twoPow]
    simp [hi, eq_comm, beq_eq_decide]
  rw [weight, List.countP_congr fun j hj => by rw [hplaces j hj]]
  exact List.count_eq_one_of_mem List.nodup_range (List.mem_range.mpr hi)

theorem odd_places_top (hpos : 0 < w) : odd (places (top w)) = true := by
  rw [odd_eq, count_places, top, weight_twoPow (by omega)]
  rfl

section Parity

variable {g : BitVec w} (hodd : odd (places g) = true)
include hodd

/-- A generator with an odd number of terms below its first keeps the parity. -/
theorem odd_places_step (crc : BitVec w) : odd (places (step g crc)) = odd (places crc) := by
  rw [step, odd_places_xor, odd_places_shiftLeft]
  rw [odd_places_gated, hodd, Bool.and_true, Bool.xor_assoc, Bool.xor_self, Bool.xor_false]

/-- The parity of the register is that of what was fed into it. -/
theorem odd_places_run (hpos : 0 < w) (crc : BitVec w) (bits : List Bool) :
    odd (places (run g crc bits)) = xor (odd (places crc)) (odd bits) := by
  induction bits generalizing crc with
  | nil => simp
  | cons bit bits ih =>
    rw [run_cons, ih, feed, odd_places_step hodd, odd_places_xor, odd_places_gated,
      odd_places_top hpos, Bool.and_true, Bool.xor_assoc, odd_cons]

end Parity

/-- Bits of which one is set, up to the first that is. -/
theorem exists_first {bits : List Bool} (h : true ∈ bits) :
    ∃ before rest, bits = List.replicate before false ++ true :: rest := by
  induction bits with
  | nil => exact absurd h List.not_mem_nil
  | cons bit bits ih =>
    cases bit with
    | true => exact ⟨0, bits, rfl⟩
    | false =>
      obtain ⟨before, rest, hrest⟩ := ih (by simpa using h)
      exact ⟨before + 1, rest, by rw [hrest]; rfl⟩

theorem count_first (before : ℕ) (rest : List Bool) :
    (List.replicate before false ++ true :: rest).count true = rest.count true + 1 := by
  rw [List.count_append, List.count_cons_self, List.count_replicate]
  simp

theorem eq_replicate_of_count {bits : List Bool} (h : bits.count true = 0) :
    bits = List.replicate bits.length false := by
  refine List.eq_replicate_iff.mpr ⟨rfl, fun bit hbit => ?_⟩
  cases bit with
  | false => rfl
  | true => exact absurd hbit (List.count_eq_zero.mp h)

/-- One bit, and how many come after it. -/
theorem run_first (g : BitVec w) (before : ℕ) (rest : List Bool) :
    run g 0#w (List.replicate before false ++ true :: rest) =
      run g 0#w rest ^^^ (step g)^[rest.length + 1] (top w) := by
  rw [run_append, run_replicate_false, iterate_step_zero, run_cons, feed, gated, if_pos rfl,
    BitVec.zero_xor, run_eq_xor, Function.iterate_succ_apply]

theorem run_single (g : BitVec w) (before : ℕ) {rest : List Bool} (h : rest.count true = 0) :
    run g 0#w (List.replicate before false ++ true :: rest) =
      (step g)^[rest.length + 1] (top w) := by
  rw [run_first, eq_replicate_of_count h, run_replicate_false, iterate_step_zero,
    BitVec.zero_xor, List.length_replicate]

theorem eq_zero_of_weight {x : BitVec w} (h : weight x = 0) : x = 0#w := by
  refine BitVec.eq_of_getLsbD_eq fun i hi => ?_
  have hnone := List.countP_eq_zero.mp h i (List.mem_range.mpr hi)
  simpa using hnone

theorem eq_twoPow_of_weight {x : BitVec w} (h : weight x = 1) :
    ∃ i < w, x = BitVec.twoPow w i := by
  rw [weight, List.countP_eq_length_filter, List.length_eq_one_iff] at h
  obtain ⟨i, hi⟩ := h
  have hset : ∀ j < w, x.getLsbD j = true ↔ j = i := by
    intro j hj
    have hmem : j ∈ (List.range w).filter x.getLsbD ↔ j = i := by rw [hi, List.mem_singleton]
    rw [← hmem, List.mem_filter, List.mem_range]
    exact ⟨fun h => ⟨hj, h⟩, fun h => h.2⟩
  have hlt : i < w := by
    have hmem : i ∈ (List.range w).filter x.getLsbD := by
      rw [hi]
      exact List.mem_singleton_self i
    exact List.mem_range.mp (List.mem_filter.mp hmem).1
  refine ⟨i, hlt, BitVec.eq_of_getLsbD_eq fun j hj => ?_⟩
  rw [Bool.eq_iff_iff, hset j hj, BitVec.getLsbD_twoPow]
  simp [hlt, eq_comm]

theorem step_twoPow (g : BitVec w) {i : ℕ} (hi : i + 1 < w) :
    step g (BitVec.twoPow w i) = BitVec.twoPow w (i + 1) := by
  have hmsb : (BitVec.twoPow w i).msb = false := by
    rw [BitVec.msb_eq_getLsbD_last, BitVec.getLsbD_twoPow]
    simp
    omega
  rw [step, hmsb, gated, if_neg (by decide), BitVec.xor_zero]
  refine BitVec.eq_of_getLsbD_eq fun j hj => ?_
  rw [BitVec.getLsbD_shiftLeft, BitVec.getLsbD_twoPow, BitVec.getLsbD_twoPow, Bool.eq_iff_iff]
  simp only [Bool.and_eq_true, Bool.not_eq_true', decide_eq_true_eq, decide_eq_false_iff_not]
  omega

/-- A place moves up to the highest one. -/
theorem iterate_twoPow (g : BitVec w) {i : ℕ} (hi : i < w) :
    (step g)^[w - 1 - i] (BitVec.twoPow w i) = top w := by
  induction hk : w - 1 - i generalizing i with
  | zero => rw [Function.iterate_zero_apply, top, show i = w - 1 by omega]
  | succ k ih =>
    rw [Function.iterate_succ_apply, step_twoPow g (by omega)]
    exact ih (by omega) (by omega)

/-- A difference of one, two or three bits, those of the checksum included, is seen, as long
as the division comes back to where it began only behind the end of the word. -/
theorem four_le_weight {g : BitVec w} (hlast : g.getLsbD 0 = true)
    (hodd : odd (places g) = true) (hpos : 0 < w) {n : ℕ}
    (hperiod : ∀ d, 0 < d → d < n + w → (step g)^[d] (top w) ≠ top w) {bits : List Bool}
    (hlen : bits.length ≤ n) (h : true ∈ bits) :
    4 ≤ bits.count true + weight (run g 0#w bits) := by
  have hset := List.count_pos_iff.mpr h
  have heven : (bits.count true + weight (run g 0#w bits)) % 2 = 0 := by
    have hsame := odd_places_run hodd hpos 0#w bits
    rw [odd_places_zero, Bool.false_xor, odd_eq, odd_eq, count_places, Bool.eq_iff_iff,
      decide_eq_true_eq, decide_eq_true_eq] at hsame
    omega
  by_contra hfew
  obtain ⟨before, rest, rfl⟩ := exists_first h
  have hcount := count_first before rest
  rw [List.length_append, List.length_replicate, List.length_cons] at hlen
  rcases (by omega : (rest.count true = 0 ∧
      weight (run g 0#w (List.replicate before false ++ true :: rest)) = 1) ∨
      (rest.count true = 1 ∧
        weight (run g 0#w (List.replicate before false ++ true :: rest)) = 0))
    with ⟨hnone, hone⟩ | ⟨hone, hnone⟩
  · -- one bit of the word, and one of the checksum
    rw [run_single g before hnone] at hone
    obtain ⟨i, hi, hplace⟩ := eq_twoPow_of_weight hone
    have htop := iterate_twoPow g hi
    rw [← hplace, ← Function.iterate_add_apply] at htop
    exact hperiod _ (by omega) (by omega) htop
  · -- two bits of the word
    have hzero := eq_zero_of_weight hnone
    obtain ⟨between, after, rfl⟩ := exists_first (List.count_pos_iff.mp (by omega :
      0 < rest.count true))
    have hafter : after.count true = 0 := by
      rw [count_first] at hone
      omega
    rw [run_first, run_single g between hafter] at hzero
    have hsame := eq_of_xor_eq_zero hzero
    rw [List.length_append, List.length_replicate, List.length_cons,
      show between + (after.length + 1) + 1 = after.length + 1 + (between + 1) by omega,
      Function.iterate_add_apply _ (after.length + 1) (between + 1)] at hsame
    rw [List.length_append, List.length_replicate, List.length_cons] at hlen
    exact hperiod _ (by omega) (by omega) ((step_injective hlast).iterate _ hsame).symm

end Dvrft.Checksums
