import Mathlib

/-!
Single-precision numbers. Comparison is that of a linear order on everything but
NaN, the smaller of two numbers is NaN only when both are, and adding a finite
number gives NaN only to NaN.
-/

namespace Dvrft.Binary32

open Float.Model Float.Model.UnpackedFloat

/-- `f32::min`: of a number and NaN it is the number. -/
def minimum (a b : Float32) : Float32 :=
  if a.isNaN then b
  else if b.isNaN then a
  else if b < a then b
  else a

/-- `f32::max`. -/
def maximum (a b : Float32) : Float32 :=
  if a.isNaN then b
  else if b.isNaN then a
  else if a < b then b
  else a

/-- The place of a number among all: the kind, then the exponent, then the digits. -/
def rank : UnpackedFloat → Lex (ℤ × Lex (ℤ × ℤ))
  | .infinity .negative => toLex (-2, toLex (0, 0))
  | .finite .negative m e _ => toLex (-1, toLex (-e, -(m : ℤ)))
  | .zero _ => toLex (0, toLex (0, 0))
  | .finite .positive m e _ => toLex (1, toLex (e, (m : ℤ)))
  | .infinity .positive => toLex (2, toLex (0, 0))
  | .notANumber => toLex (3, toLex (0, 0))

theorem compare_eq_lt_iff {a b : UnpackedFloat} (ha : a ≠ .notANumber) (hb : b ≠ .notANumber) :
    a.compare b = some .lt ↔ rank a < rank b := by
  cases a with
  | notANumber => exact absurd rfl ha
  | infinity s =>
    cases s <;> cases b with
    | notANumber => exact absurd rfl hb
    | infinity t => cases t <;> simp [UnpackedFloat.compare, rank, Prod.Lex.toLex_lt_toLex, compare]
    | zero t => simp [UnpackedFloat.compare, rank, Prod.Lex.toLex_lt_toLex]
    | finite t m e h =>
      cases t <;> dsimp only [UnpackedFloat.compare, rank] <;> simp [Prod.Lex.toLex_lt_toLex]
  | zero s =>
    cases b with
    | notANumber => exact absurd rfl hb
    | infinity t => cases t <;> simp [UnpackedFloat.compare, rank, Prod.Lex.toLex_lt_toLex]
    | zero t => simp [UnpackedFloat.compare, rank]
    | finite t m e h =>
      cases t <;> dsimp only [UnpackedFloat.compare, rank] <;> simp [Prod.Lex.toLex_lt_toLex]
  | finite s m e h =>
    cases s <;> cases b with
    | notANumber => exact absurd rfl hb
    | infinity t =>
      cases t <;> dsimp only [UnpackedFloat.compare, rank] <;> simp [Prod.Lex.toLex_lt_toLex]
    | zero t =>
      dsimp only [UnpackedFloat.compare, rank]
      simp [Prod.Lex.toLex_lt_toLex]
    | finite t m' e' h' =>
      cases t <;> dsimp only [UnpackedFloat.compare, rank] <;>
        simp [Prod.Lex.toLex_lt_toLex, Ordering.then_eq_lt, Ordering.then_eq_gt,
          compare_lt_iff_lt, compare_gt_iff_gt, @eq_comm ℤ e e']

theorem isNaN_iff {a : Float32} : a.isNaN = true ↔ a.toModel.unpack = .notANumber :=
  UnpackedFloat.isNaN_iff

/-- The numbers among the floats, each with its place. -/
def place (a : Float32) : Lex (ℤ × Lex (ℤ × ℤ)) := rank a.toModel.unpack

theorem lt_iff_place {a b : Float32} (ha : a.isNaN = false) (hb : b.isNaN = false) :
    a < b ↔ place a < place b := by
  have hna : a.toModel.unpack ≠ .notANumber := by
    intro h
    rw [isNaN_iff.mpr h] at ha
    exact absurd ha (by decide)
  have hnb : b.toModel.unpack ≠ .notANumber := by
    intro h
    rw [isNaN_iff.mpr h] at hb
    exact absurd hb (by decide)
  rw [place, place, ← compare_eq_lt_iff hna hnb]
  change a.lt b = true ↔ _
  unfold Float32.lt
  rw [decide_eq_true_iff]
  change (a.toModel.unpack.compare b.toModel.unpack == some .lt) = true ↔ _
  rw [beq_iff_eq]

theorem not_lt_of_lt {a b : Float32} (ha : a.isNaN = false) (hb : b.isNaN = false)
    (h : a < b) : ¬ b < a := by
  rw [lt_iff_place ha hb] at h
  rw [lt_iff_place hb ha]
  exact h.asymm

theorem not_lt_trans {a b c : Float32} (ha : a.isNaN = false) (hb : b.isNaN = false)
    (hc : c.isNaN = false) (hab : ¬ a < b) (hbc : ¬ b < c) : ¬ a < c := by
  rw [lt_iff_place ha hb] at hab
  rw [lt_iff_place hb hc] at hbc
  rw [lt_iff_place ha hc]
  exact not_lt.mpr ((not_lt.mp hbc).trans (not_lt.mp hab))

theorem isNaN_minimum_right {a b : Float32} (hb : b.isNaN = false) :
    (minimum a b).isNaN = false := by
  unfold minimum
  cases ha : a.isNaN with
  | true =>
    rw [if_pos rfl]
    exact hb
  | false =>
    rw [if_neg (by decide), hb, if_neg (by decide)]
    split_ifs
    · exact hb
    · exact ha

theorem dite_ne_notANumber {c : Prop} [Decidable c] {x : c → UnpackedFloat}
    {y : ¬ c → UnpackedFloat} (hx : ∀ h, x h ≠ .notANumber) (hy : ∀ h, y h ≠ .notANumber) :
    dite c x y ≠ .notANumber := by
  by_cases h : c
  · rw [dif_pos h]
    exact hx h
  · rw [dif_neg h]
    exact hy h

/-- Packing a number and reading it back gives a number. -/
theorem unpack_pack_ne_notANumber {spec : Format} {x : UnpackedFloat} (hx : x ≠ .notANumber) :
    UnpackedFloat.unpack spec (UnpackedFloat.pack spec x) ≠ .notANumber := by
  have hnumber : ∀ v : BitVec spec.numBits,
      (unpackExponent v = -1#_ → unpackMantissa v = 0#_) →
        UnpackedFloat.unpack spec v ≠ .notANumber := by
    intro v hv h
    unfold UnpackedFloat.unpack at h
    dsimp only at h
    by_cases hones : unpackExponent v = -1#_
    · rw [if_pos hones, if_pos (hv hones)] at h
      cases h
    · rw [if_neg hones] at h
      by_cases hzero : unpackExponent v = 0#_
      · rw [if_pos hzero] at h
        exact dite_ne_notANumber (fun _ hx => by cases hx) (fun _ hx => by cases hx) h
      · rw [if_neg hzero] at h
        cases h
  apply hnumber
  fun_cases UnpackedFloat.pack spec x with
  | case1 => exact absurd rfl hx
  | case2 s => simp [packedInfinity]
  | case3 s => simp [packedZero]
  | case4 s m e hm biasedExponent h => simp [packedInfinity]
  | case5 s m e hm actualMantissaBits biasedExponent h₁ h₂ =>
    intro hones
    have hwidth : biasedExponent % 2 ^ spec.exponentBits = biasedExponent :=
      Nat.mod_eq_of_lt (by omega)
    rw [unpackExponent_packComponents, BitVec.neg_one_eq_allOnes, ← BitVec.toNat_inj,
      BitVec.toNat_ofNat, BitVec.toNat_allOnes, hwidth] at hones
    omega
  | case6 s m e hm actualMantissaBits biasedExponent h₁ h₂ =>
    intro hones
    have hbits : 1 < 2 ^ spec.exponentBits := Nat.one_lt_two_pow (Nat.pos_iff_ne_zero.mp spec.he)
    rw [unpackExponent_packComponents, BitVec.neg_one_eq_allOnes, ← BitVec.toNat_inj,
      BitVec.toNat_ofNat, BitVec.toNat_allOnes, Nat.zero_mod] at hones
    omega

theorem normalize_ne_notANumber (spec : Format) (m e : ℤ) (s : Sign) :
    normalize spec m e s ≠ .notANumber := by
  have hround : ∀ sign digits exponent, round spec sign digits exponent ≠ .notANumber := by
    intro sign digits exponent
    unfold UnpackedFloat.round roundWithAccuracy
    exact dite_ne_notANumber (fun _ hx => by cases hx) (fun _ hx => by cases hx)
  unfold UnpackedFloat.normalize
  split
  · exact hround _ _ _
  · simp
  · exact hround _ _ _

/-- Adding a finite number to a number gives a number. -/
theorem isNaN_add_finite {a b : Float32} (ha : a.isNaN = false) (hb : b.isFinite = true) :
    (a + b).isNaN = false := by
  have hna : a.toModel.unpack ≠ .notANumber := by
    intro h
    rw [isNaN_iff.mpr h] at ha
    exact absurd ha (by decide)
  have hfinite : b.toModel.unpack.isFinite = true := hb
  have hsum : UnpackedFloat.add Format.binary32 a.toModel.unpack b.toModel.unpack ≠
      .notANumber := by
    cases hx : a.toModel.unpack with
    | notANumber => exact absurd hx hna
    | infinity s =>
      cases hy : b.toModel.unpack with
      | notANumber => simp [hy, UnpackedFloat.isFinite] at hfinite
      | infinity t => simp [hy, UnpackedFloat.isFinite] at hfinite
      | zero t => simp [UnpackedFloat.add]
      | finite t m e h =>
        change UnpackedFloat.infinity s ≠ .notANumber
        simp
    | zero s =>
      cases hy : b.toModel.unpack with
      | notANumber => simp [hy, UnpackedFloat.isFinite] at hfinite
      | infinity t => simp [hy, UnpackedFloat.isFinite] at hfinite
      | zero t =>
        simp only [UnpackedFloat.add]
        split_ifs <;> simp
      | finite t m e h =>
        change UnpackedFloat.finite t m e h ≠ .notANumber
        intro heq
        cases heq
    | finite s m e h =>
      cases hy : b.toModel.unpack with
      | notANumber => simp [hy, UnpackedFloat.isFinite] at hfinite
      | infinity t => simp [hy, UnpackedFloat.isFinite] at hfinite
      | zero t =>
        change UnpackedFloat.finite s m e h ≠ .notANumber
        intro heq
        cases heq
      | finite t m' e' h' => exact normalize_ne_notANumber _ _ _ _
  cases hnan : (a + b).isNaN with
  | false => rfl
  | true =>
    have hpacked : (a + b).toModel.unpack = UnpackedFloat.unpack Format.binary32
        (UnpackedFloat.pack Format.binary32
          (UnpackedFloat.add Format.binary32 a.toModel.unpack b.toModel.unpack)) := rfl
    rw [isNaN_iff, hpacked] at hnan
    exact absurd hnan (unpack_pack_ne_notANumber hsum)

end Dvrft.Binary32
