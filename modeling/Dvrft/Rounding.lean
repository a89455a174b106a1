import Dvrft.Binary64

/-!
Which double-precision results are numbers. Sums and products of numbers without a minus sign
have none either, and a count that is not zero becomes a number above zero.
-/

namespace Dvrft.Rounding

open Float.Model Float.Model.UnpackedFloat Binary64

/-- A number without a minus sign. -/
def Unsigned : UnpackedFloat → Prop
  | .notANumber => False
  | .infinity s | .zero s | .finite s _ _ _ => s = .positive

/-- A finite number above zero. -/
def Positive : UnpackedFloat → Prop
  | .finite s _ _ _ => s = .positive
  | _ => False

instance : DecidablePred Unsigned := fun x => by
  cases x with
  | notANumber => exact .isFalse id
  | infinity s => cases s <;> first | exact .isTrue rfl | exact .isFalse (by intro h; cases h)
  | zero s => cases s <;> first | exact .isTrue rfl | exact .isFalse (by intro h; cases h)
  | finite s _ _ _ => cases s <;> first | exact .isTrue rfl | exact .isFalse (by intro h; cases h)

instance : DecidablePred Positive := fun x => by
  cases x with
  | notANumber => exact .isFalse id
  | infinity s => exact .isFalse id
  | zero s => exact .isFalse id
  | finite s _ _ _ => cases s <;> first | exact .isTrue rfl | exact .isFalse (by intro h; cases h)

theorem Unsigned.ne_notANumber {x : UnpackedFloat} (h : Unsigned x) : x ≠ .notANumber := by
  rintro rfl
  exact h

theorem Positive.unsigned {x : UnpackedFloat} (h : Positive x) : Unsigned x := by
  cases x with
  | finite s m e hm => exact h
  | _ => exact h.elim

theorem unpackSign_packComponents {spec : Format} {sign : Sign} {exponent : BitVec _}
    {mantissa : BitVec _} :
    unpackSign (packComponents spec sign exponent mantissa) = sign.toBitVec := by
  ext i hi
  have hzero : i = 0 := by omega
  subst hzero
  simp [unpackSign, packComponents, BitVec.getLsbD_append, BitVec.getElem_append]

theorem ofBitVec_toBitVec (s : Sign) : Sign.ofBitVec s.toBitVec = s := by
  cases s <;> rfl

theorem unsigned_unpack {spec : Format} {v : BitVec spec.numBits}
    (hsign : Sign.ofBitVec (unpackSign v) = .positive)
    (h : UnpackedFloat.unpack spec v ≠ .notANumber) : Unsigned (UnpackedFloat.unpack spec v) := by
  revert h
  unfold UnpackedFloat.unpack
  dsimp only
  rw [hsign]
  split
  · split
    · exact fun _ => rfl
    · exact fun h => absurd rfl h
  · split
    · split
      · exact fun _ => rfl
      · exact fun _ => rfl
    · exact fun _ => rfl

/-- Packing keeps a number without a minus sign one. -/
theorem Unsigned.unpack_pack {spec : Format} {x : UnpackedFloat} (h : Unsigned x) :
    Unsigned (UnpackedFloat.unpack spec (UnpackedFloat.pack spec x)) := by
  refine unsigned_unpack ?_ (Binary32.unpack_pack_ne_notANumber h.ne_notANumber)
  fun_cases UnpackedFloat.pack spec x with
  | case1 => exact h.elim
  | case2 s => rw [packedInfinity, unpackSign_packComponents, ofBitVec_toBitVec, show s = _ from h]
  | case3 s => rw [packedZero, unpackSign_packComponents, ofBitVec_toBitVec, show s = _ from h]
  | case4 s m e hm biasedExponent hbig =>
    rw [packedInfinity, unpackSign_packComponents, ofBitVec_toBitVec, show s = _ from h]
  | case5 s m e hm actualMantissaBits biasedExponent h₁ h₂ =>
    rw [unpackSign_packComponents, ofBitVec_toBitVec, show s = _ from h]
  | case6 s m e hm actualMantissaBits biasedExponent h₁ h₂ =>
    rw [unpackSign_packComponents, ofBitVec_toBitVec, show s = _ from h]

theorem unsigned_roundWithAccuracy (spec : Format) (m : ℕ) (e : ℤ) (accuracy : Accuracy) :
    Unsigned (roundWithAccuracy spec .positive m e accuracy) := by
  unfold roundWithAccuracy
  dsimp only
  split
  · exact rfl
  · exact rfl

theorem unsigned_normalize (spec : Format) {m : ℤ} (hm : 0 ≤ m) (e : ℤ) :
    Unsigned (UnpackedFloat.normalize spec m e .positive) := by
  unfold UnpackedFloat.normalize
  split
  · next h =>
    have hneg := Int.compare_eq_lt.mp h
    omega
  · exact rfl
  · exact unsigned_roundWithAccuracy _ _ _ _

theorem Unsigned.add (spec : Format) {a b : UnpackedFloat} (ha : Unsigned a) (hb : Unsigned b) :
    Unsigned (UnpackedFloat.add spec a b) := by
  cases a with
  | notANumber => exact ha.elim
  | infinity s =>
    obtain rfl : s = .positive := ha
    cases b with
    | notANumber => exact hb.elim
    | infinity t =>
      obtain rfl : t = .positive := hb
      exact rfl
    | zero t => exact rfl
    | finite t m e h => exact rfl
  | zero s =>
    obtain rfl : s = .positive := ha
    cases b with
    | notANumber => exact hb.elim
    | infinity t => exact hb
    | zero t =>
      obtain rfl : t = .positive := hb
      exact rfl
    | finite t m e h => exact hb
  | finite s m e h =>
    obtain rfl : s = .positive := ha
    cases b with
    | notANumber => exact hb.elim
    | infinity t => exact hb
    | zero t => exact rfl
    | finite t m' e' h' =>
      obtain rfl : t = .positive := hb
      exact unsigned_normalize spec (by simp only [Sign.apply]; positivity) _

theorem Unsigned.mul (spec : Format) {a b : UnpackedFloat} (ha : Unsigned a) (hb : Positive b) :
    Unsigned (UnpackedFloat.mul spec a b) := by
  cases b with
  | finite t m' e' h' =>
    obtain rfl : t = .positive := hb
    cases a with
    | notANumber => exact ha.elim
    | infinity s =>
      obtain rfl : s = .positive := ha
      exact rfl
    | zero s =>
      obtain rfl : s = .positive := ha
      exact rfl
    | finite s m e h =>
      obtain rfl : s = .positive := ha
      exact unsigned_roundWithAccuracy _ _ _ _
  | _ => exact hb.elim

theorem Unsigned.div (spec : Format) {a b : UnpackedFloat} (ha : Unsigned a) (hb : Positive b) :
    Unsigned (UnpackedFloat.div spec a b) := by
  cases b with
  | finite t m' e' h' =>
    obtain rfl : t = .positive := hb
    cases a with
    | notANumber => exact ha.elim
    | infinity s =>
      obtain rfl : s = .positive := ha
      exact rfl
    | zero s =>
      obtain rfl : s = .positive := ha
      exact rfl
    | finite s m e h =>
      obtain rfl : s = .positive := ha
      exact unsigned_roundWithAccuracy _ _ _ _
  | _ => exact hb.elim

/-- A finite number above zero can be divided by any number without a minus sign. -/
theorem Positive.div (spec : Format) {a b : UnpackedFloat} (ha : Positive a) (hb : Unsigned b) :
    Unsigned (UnpackedFloat.div spec a b) := by
  cases a with
  | finite s m e h =>
    obtain rfl : s = .positive := ha
    cases b with
    | notANumber => exact hb.elim
    | infinity t =>
      obtain rfl : t = .positive := hb
      exact rfl
    | zero t =>
      obtain rfl : t = .positive := hb
      exact rfl
    | finite t m' e' h' =>
      obtain rfl : t = .positive := hb
      exact unsigned_roundWithAccuracy _ _ _ _
  | _ => exact ha.elim

theorem mantissa_shiftRight (em : ExtendedMantissa) (n : ℕ) :
    (em >>> n).mantissa = em.mantissa / 2 ^ n := by
  change (n.repeat ExtendedMantissa.shiftRightOne em).mantissa = _
  induction n with
  | zero => simp [Nat.repeat]
  | succ n ih =>
    rw [Nat.repeat, ExtendedMantissa.shiftRightOne, ih, Nat.div_div_eq_div_mul, pow_succ]

theorem roundedMantissa_bounds (em : ExtendedMantissa) :
    em.mantissa ≤ em.roundedMantissa ∧ em.roundedMantissa ≤ em.mantissa + 1 := by
  have hparity := Nat.mod_lt em.mantissa (show 0 < 2 by decide)
  obtain ⟨m, roundBit, stickyBit⟩ := em
  cases roundBit <;> cases stickyBit <;>
    simp only [ExtendedMantissa.roundedMantissa, ExtendedMantissa.accuracy,
      Accuracy.roundToNearestEven] at * <;> omega

/-- Digits and an exponent that double precision holds as they are. -/
def Fits (m : ℕ) (e : ℤ) : Prop := m < 2 ^ 53 ∧ -1074 ≤ e ∧ e < 972

theorem positive_unpack_pack {m : ℕ} {e : ℤ} (hm : 0 < m) (h : Fits m e) :
    Positive (UnpackedFloat.unpack Format.binary64
      (UnpackedFloat.pack Format.binary64 (.finite .positive m e hm))) := by
  obtain ⟨hdigits, hlow, hhigh⟩ := h
  have hpositive : ∀ v : BitVec Format.binary64.numBits,
      Sign.ofBitVec (unpackSign v) = .positive → unpackExponent v ≠ -1#11 →
        (unpackExponent v = 0#11 → unpackMantissa v ≠ 0#52) →
          Positive (UnpackedFloat.unpack Format.binary64 v) := by
    intro v hsign hones hzero
    unfold UnpackedFloat.unpack
    dsimp only
    rw [hsign, if_neg hones]
    split
    · next hexponent =>
      rw [dif_neg (hzero hexponent)]
      exact rfl
    · exact rfl
  have hbiased : (e + Format.binary64.exponentBias + (52 : ℕ)).toNat = (e + 1075).toNat := by
    rw [show ((Format.binary64.exponentBias : ℕ) : ℤ) = 1023 by rfl]
    omega
  have hsmall : (e + 1075).toNat + 1 < 2 ^ 11 := by omega
  unfold UnpackedFloat.pack
  dsimp only
  rw [hbiased, if_neg (by omega)]
  split
  · apply hpositive
    · rw [unpackSign_packComponents, ofBitVec_toBitVec]
    · rw [unpackExponent_packComponents, Ne, ← BitVec.toNat_inj, BitVec.toNat_ofNat,
        Nat.mod_eq_of_lt (by omega)]
      change (e + 1075).toNat ≠ 2047
      omega
    · intro hzero
      rw [unpackExponent_packComponents, ← BitVec.toNat_inj, BitVec.toNat_ofNat,
        Nat.mod_eq_of_lt (by omega)] at hzero
      change (e + 1075).toNat = 0 at hzero
      omega
  · next hbits =>
    have hshort : m < 2 ^ 52 := by
      have hlog : m.log2 < 53 := (Nat.log2_lt hm.ne').mpr hdigits
      have hne : m.log2 ≠ 52 := by
        intro h52
        exact hbits (by rw [h52]; rfl)
      exact (Nat.log2_lt hm.ne').mp (by omega)
    apply hpositive
    · rw [unpackSign_packComponents, ofBitVec_toBitVec]
    · rw [unpackExponent_packComponents]
      decide
    · intro _
      rw [unpackMantissa_packComponents, Ne, ← BitVec.toNat_inj, BitVec.toNat_ofNat,
        Nat.mod_eq_of_lt hshort]
      exact hm.ne'

theorem pos_shift {m k : ℕ} (hm : 0 < m) (hk : k ≤ m.log2) : 0 < m / 2 ^ k := by
  have hle : 2 ^ k ≤ m := (Nat.le_log2 hm.ne').mp hk
  exact Nat.div_pos hle (by positivity)

theorem shift_lt (m : ℕ) : m / 2 ^ (m.log2 - 52) < 2 ^ 53 := by
  refine Nat.div_lt_of_lt_mul ?_
  rw [← pow_add]
  exact Nat.lt_log2_self.trans_le (Nat.pow_le_pow_right (by decide) (by omega))

/-- Rounding keeps a number above zero, unless its last digit is below those of the format. -/
theorem exists_roundWithAccuracy {m : ℕ} {e : ℤ} (hm : 0 < m) (hlow : -1074 ≤ e)
    (hhigh : (m.log2 : ℤ) + e < 900) (hsmall : e < 900) :
    ∃ m' e', ∃ h : 0 < m', roundWithAccuracy Format.binary64 .positive m e .exact =
      .finite .positive m' e' h ∧ Fits m' e' := by
  -- how far a number is shifted to have the digits of the format
  have hshift : ∀ (n : ℕ) (f : ℤ), -1074 ≤ f →
      (Format.binary64.targetExponent (totalExponent n f) - f).toNat = n.log2 - 52 := by
    intro n f hf
    simp only [Format.targetExponent, totalExponent, Format.mantissaBits, Format.minExponent]
    omega
  have hmantissa : ∀ n : ℕ, (ExtendedMantissa.ofMantissaAndAccuracy n .exact).mantissa = n :=
    fun _ => rfl
  obtain ⟨em, hem⟩ : ∃ em, em = ExtendedMantissa.ofMantissaAndAccuracy m .exact >>>
    (m.log2 - 52) := ⟨_, rfl⟩
  have hcut : em.mantissa = m / 2 ^ (m.log2 - 52) := by
    rw [hem, mantissa_shiftRight, hmantissa]
  obtain ⟨hge, hle⟩ := roundedMantissa_bounds em
  have hpos : 0 < em.mantissa := hcut ▸ pos_shift hm (by omega)
  have hlt : em.mantissa < 2 ^ 53 := hcut ▸ shift_lt m
  have hlog : em.roundedMantissa.log2 ≤ 53 := by
    have h := (Nat.log2_lt (by omega)).mpr (show em.roundedMantissa < 2 ^ 54 by omega)
    omega
  have hfinal : 0 < em.roundedMantissa / 2 ^ (em.roundedMantissa.log2 - 52) :=
    pos_shift (by omega) (by omega)
  refine ⟨_, e + (m.log2 - 52 : ℕ) + (em.roundedMantissa.log2 - 52 : ℕ), hfinal, ?_, shift_lt _,
    by omega, by omega⟩
  unfold roundWithAccuracy shiftToTargetExponent shiftToExponent
  dsimp only
  rw [hshift m e hlow, ← hem, hshift _ _ (by omega)]
  simp only [mantissa_shiftRight, hmantissa]
  rw [dif_neg hfinal.ne']

/-- A count becomes a number above zero. -/
theorem positive_ofNat {n : ℕ} (hpos : 0 < n) (hlt : n < 2 ^ 64) :
    Positive (UnpackedFloat.unpack Format.binary64
      (UnpackedFloat.pack Format.binary64 (UnpackedFloat.ofNat Format.binary64 n))) := by
  have hlog : n.log2 < 64 := (Nat.log2_lt hpos.ne').mpr hlt
  have htarget : (0 - Format.binary64.targetExponent (totalExponent n 0)).toNat =
      52 - n.log2 := by
    simp only [Format.targetExponent, totalExponent, Format.mantissaBits, Format.minExponent]
    omega
  have hshifted : 0 < n <<< (52 - n.log2) := by
    rw [Nat.shiftLeft_eq]
    positivity
  have hbits : (n <<< (52 - n.log2)).log2 < 117 := by
    refine (Nat.log2_lt hshifted.ne').mpr ?_
    rw [Nat.shiftLeft_eq]
    calc n * 2 ^ (52 - n.log2) < 2 ^ 64 * 2 ^ 53 := by
          refine Nat.mul_lt_mul_of_lt_of_le hlt (Nat.pow_le_pow_right (by decide) (by omega))
            (by positivity)
      _ = 2 ^ 117 := by rw [← pow_add]
  obtain ⟨m, e, hm, hround, hfits⟩ := exists_roundWithAccuracy (e := 0 - (52 - n.log2 : ℕ))
    hshifted (by omega) (by omega) (by omega)
  have hwhole : UnpackedFloat.ofNat Format.binary64 n = .finite .positive m e hm := by
    rw [← hround, UnpackedFloat.ofNat, UnpackedFloat.ofInt, UnpackedFloat.normalize,
      Int.compare_eq_gt.mpr (by omega)]
    simp only [UnpackedFloat.round, decreaseExponent, Int.toNat_natCast, htarget]
  rw [hwhole]
  exact positive_unpack_pack hm hfits

/-- What is unpacked has the digits of the format, or the lowest exponent. -/
theorem unpack_finite {v : BitVec Format.binary64.numBits} {s : Sign} {m : ℕ} {e : ℤ} {hm : 0 < m}
    (h : UnpackedFloat.unpack Format.binary64 v = .finite s m e hm) :
    Fits m e ∧ (m.log2 = 52 ∨ m.log2 < 52 ∧ e = -1074) := by
  have hbias : ((Format.binary64.exponentBias : ℕ) : ℤ) = 1023 := rfl
  have hdigits : (unpackMantissa v).toNat < 2 ^ 52 := (unpackMantissa v).isLt
  unfold UnpackedFloat.unpack at h
  dsimp only at h
  split_ifs at h with hones hmantissa hzero hmantissa
  · obtain ⟨-, hm', he⟩ := UnpackedFloat.finite.inj h
    have hexponent : (unpackExponent v).toNat = 0 := by rw [hzero]; rfl
    rw [hexponent, hbias] at he
    have hlog : m.log2 < 52 := (Nat.log2_lt hm.ne').mpr (by omega)
    exact ⟨⟨by omega, by omega, by omega⟩, .inr ⟨hlog, by omega⟩⟩
  · obtain ⟨-, hm', he⟩ := UnpackedFloat.finite.inj h
    have hpos : 0 < (unpackExponent v).toNat := by
      rw [Nat.pos_iff_ne_zero, Ne, ← BitVec.toNat_zero, BitVec.toNat_inj]
      exact hzero
    have hlt : (unpackExponent v).toNat < 2047 := by
      have hbound := (unpackExponent v).isLt
      have hne : (unpackExponent v).toNat ≠ 2047 := by
        intro h2047
        apply hones
        rw [← BitVec.toNat_inj, h2047]
        rfl
      change _ < 2048 at hbound
      omega
    have hwhole : m = 2 ^ 52 + (unpackMantissa v).toNat := by
      rw [← hm', BitVec.toNat_append, ← Nat.shiftLeft_add_eq_or_of_lt hdigits]
      rfl
    rw [hbias] at he
    have hlog : m.log2 = 52 := (Nat.log2_eq_iff hm.ne').mpr (by omega)
    exact ⟨⟨by omega, by omega, by omega⟩, .inl hlog⟩

theorem shiftRight_exact (m k : ℕ) :
    ExtendedMantissa.ofMantissaAndAccuracy (m * 2 ^ k) .exact >>> k =
      ExtendedMantissa.ofMantissaAndAccuracy m .exact := by
  change k.repeat ExtendedMantissa.shiftRightOne _ = _
  induction k generalizing m with
  | zero => rw [pow_zero, mul_one, Nat.repeat]
  | succ k ih =>
    have heven : m * 2 ^ (k + 1) = m * 2 * 2 ^ k := by ring
    rw [Nat.repeat, heven, ih]
    simp [ExtendedMantissa.shiftRightOne, ExtendedMantissa.ofMantissaAndAccuracy]

theorem log2_mul_two_pow {m : ℕ} (hm : 0 < m) (k : ℕ) : (m * 2 ^ k).log2 = m.log2 + k := by
  rw [Nat.log2_eq_iff (by positivity)]
  constructor
  · rw [pow_add]
    exact Nat.mul_le_mul_right _ (Nat.log2_self_le hm.ne')
  · rw [Nat.add_right_comm, pow_add]
    exact Nat.mul_lt_mul_of_pos_right Nat.lt_log2_self (by positivity)

/-- Multiplying by one changes no number of the format. -/
theorem mul_one_finite {m : ℕ} {e : ℤ} (hm : 0 < m) (hlow : -1074 ≤ e)
    (hcanonical : m.log2 = 52 ∨ m.log2 < 52 ∧ e = -1074) (k : ℕ) (hone : 0 < 2 ^ k) :
    UnpackedFloat.mul Format.binary64 (.finite .positive m e hm)
      (.finite .positive (2 ^ k) (-k) hone) = .finite .positive m e hm := by
  have hfirst : (Format.binary64.targetExponent (totalExponent (m * 2 ^ k) (e + -k)) -
      (e + -k)).toNat = k := by
    simp only [Format.targetExponent, totalExponent, Format.mantissaBits, Format.minExponent,
      log2_mul_two_pow hm]
    omega
  have hsecond : (Format.binary64.targetExponent (totalExponent m e) - e).toNat = 0 := by
    simp only [Format.targetExponent, totalExponent, Format.mantissaBits, Format.minExponent]
    omega
  have hexponent : e + -(k : ℤ) + (k : ℕ) = e := by omega
  have hnone : ∀ em : ExtendedMantissa, em >>> 0 = em := fun _ => rfl
  change roundWithAccuracy _ _ _ _ _ = _
  unfold roundWithAccuracy shiftToTargetExponent shiftToExponent
  dsimp only
  rw [hfirst, shiftRight_exact, hexponent]
  have hrounded : (ExtendedMantissa.ofMantissaAndAccuracy m .exact).roundedMantissa = m := rfl
  have hmantissa : (ExtendedMantissa.ofMantissaAndAccuracy m .exact).mantissa = m := rfl
  simp only [hrounded, hsecond, hnone, hmantissa]
  rw [dif_neg hm.ne']
  simp
  rfl

/-- A float without a minus sign that is a number. -/
def IsUnsigned (x : Float) : Prop := Unsigned x.toModel.unpack

def IsPositive (x : Float) : Prop := Positive x.toModel.unpack

instance : DecidablePred IsUnsigned := fun _ => inferInstanceAs (Decidable (Unsigned _))

instance : DecidablePred IsPositive := fun _ => inferInstanceAs (Decidable (Positive _))

theorem isNaN_of_unsigned {x : Float} (h : IsUnsigned x) : x.isNaN = false := by
  cases hnan : x.isNaN with
  | false => rfl
  | true => exact absurd (Binary64.isNaN_iff.mp hnan) h.ne_notANumber

theorem IsUnsigned.add {x y : Float} (hx : IsUnsigned x) (hy : IsUnsigned y) :
    IsUnsigned (x + y) := (Unsigned.add Format.binary64 hx hy).unpack_pack

theorem IsUnsigned.mul {x y : Float} (hx : IsUnsigned x) (hy : IsPositive y) :
    IsUnsigned (x * y) := (Unsigned.mul Format.binary64 hx hy).unpack_pack

theorem IsUnsigned.div {x y : Float} (hx : IsUnsigned x) (hy : IsPositive y) :
    IsUnsigned (x / y) := (Unsigned.div Format.binary64 hx hy).unpack_pack

theorem IsPositive.div {x y : Float} (hx : IsPositive x) (hy : IsUnsigned y) :
    IsUnsigned (x / y) := (Positive.div Format.binary64 hx hy).unpack_pack

theorem isNaN_sub_of_finite {x y : Float} (hx : x.isFinite = true) (hy : IsUnsigned y) :
    (x - y).isNaN = false := by
  have hfinite : x.toModel.unpack.isFinite = true := hx
  have hunsigned : Unsigned y.toModel.unpack := hy
  have hdifference : UnpackedFloat.sub Format.binary64 x.toModel.unpack y.toModel.unpack ≠
      .notANumber := by
    cases hx : x.toModel.unpack with
    | notANumber => simp [hx, UnpackedFloat.isFinite] at hfinite
    | infinity s => simp [hx, UnpackedFloat.isFinite] at hfinite
    | zero s =>
      cases hy : y.toModel.unpack with
      | notANumber => exact absurd hy hunsigned.ne_notANumber
      | infinity t => exact UnpackedFloat.noConfusion
      | zero t =>
        simp only [UnpackedFloat.sub]
        split_ifs <;> simp
      | finite t m e h => exact UnpackedFloat.noConfusion
    | finite s m e h =>
      cases hy : y.toModel.unpack with
      | notANumber => exact absurd hy hunsigned.ne_notANumber
      | infinity t => exact UnpackedFloat.noConfusion
      | zero t => exact UnpackedFloat.noConfusion
      | finite t m' e' h' => exact Binary32.normalize_ne_notANumber _ _ _ _
  cases hnan : (x - y).isNaN with
  | false => rfl
  | true =>
    exact absurd (Binary64.isNaN_iff.mp hnan) (Binary32.unpack_pack_ne_notANumber hdifference)

theorem isNaN_add_of_finite {x y : Float} (hx : x.isNaN = false) (hy : y.isFinite = true) :
    (x + y).isNaN = false := by
  have hfinite : y.toModel.unpack.isFinite = true := hy
  have hsum : UnpackedFloat.add Format.binary64 x.toModel.unpack y.toModel.unpack ≠
      .notANumber := by
    cases hx' : x.toModel.unpack with
    | notANumber => exact absurd hx' (unpack_ne_of_number hx)
    | infinity s =>
      cases hy : y.toModel.unpack with
      | notANumber => simp [hy, UnpackedFloat.isFinite] at hfinite
      | infinity t => simp [hy, UnpackedFloat.isFinite] at hfinite
      | zero t => exact UnpackedFloat.noConfusion
      | finite t m e h => exact UnpackedFloat.noConfusion
    | zero s =>
      cases hy : y.toModel.unpack with
      | notANumber => simp [hy, UnpackedFloat.isFinite] at hfinite
      | infinity t => simp [hy, UnpackedFloat.isFinite] at hfinite
      | zero t =>
        simp only [UnpackedFloat.add]
        split_ifs <;> simp
      | finite t m e h => exact UnpackedFloat.noConfusion
    | finite s m e h =>
      cases hy : y.toModel.unpack with
      | notANumber => simp [hy, UnpackedFloat.isFinite] at hfinite
      | infinity t => simp [hy, UnpackedFloat.isFinite] at hfinite
      | zero t => exact UnpackedFloat.noConfusion
      | finite t m' e' h' => exact Binary32.normalize_ne_notANumber _ _ _ _
  cases hnan : (x + y).isNaN with
  | false => rfl
  | true => exact absurd (Binary64.isNaN_iff.mp hnan) (Binary32.unpack_pack_ne_notANumber hsum)

theorem isPositive_toFloat {n : UInt64} (hpos : 0 < n.toNat) : IsPositive n.toFloat :=
  positive_ofNat hpos n.toNat_lt

theorem isUnsigned_toFloat (n : UInt64) : IsUnsigned n.toFloat :=
  (unsigned_normalize _ (Int.natCast_nonneg _) _).unpack_pack

/-- The power of ten that a conversion of a natural number multiplies by. -/
def one : Float := Float.ofBits 0x3FF0000000000000

theorem unpack_one : one.toModel.unpack = .finite .positive (2 ^ 52) (-(52 : ℕ)) (by decide) := by
  rfl

theorem IsPositive.mul_one {x : Float} (hx : IsPositive x) : IsPositive (x * one) := by
  have hpositive : Positive x.toModel.unpack := hx
  change Positive (UnpackedFloat.unpack Format.binary64 (UnpackedFloat.pack Format.binary64
    (UnpackedFloat.mul Format.binary64 x.toModel.unpack one.toModel.unpack)))
  cases hunpacked : x.toModel.unpack with
  | finite s m e hm =>
    rw [hunpacked] at hpositive
    obtain rfl : s = .positive := hpositive
    obtain ⟨hfits, hcanonical⟩ := unpack_finite hunpacked
    rw [unpack_one, mul_one_finite hm hfits.2.1 hcanonical 52]
    exact positive_unpack_pack hm hfits
  | _ =>
    rw [hunpacked] at hpositive
    exact hpositive.elim

theorem ofNat_of_lt {n : ℕ} (h : n < 2 ^ 53) : Float.ofNat n = (UInt64.ofNat n).toFloat * one := by
  change Float.ofScientific n false 0 = _
  unfold Float.ofScientific
  rw [dif_pos ⟨h, by decide⟩]
  rfl

theorem mul_finite (spec : Format) {s t : Sign} {m n : ℕ} {e f : ℤ} {hm : 0 < m} {hn : 0 < n} :
    UnpackedFloat.mul spec (.finite s m e hm) (.finite t n f hn) =
      roundWithAccuracy spec (s * t) (m * n) (e + f) .exact := rfl

theorem ofScientific_natural {n : ℕ} (hpos : n ≠ 0) :
    UnpackedFloat.ofScientific Format.binary64 n 0 =
      roundWithAccuracy Format.binary64 .positive (n * 2 ^ 53) (-53) .exact := by
  have hbits : Format.binary64.mantissaBits = 53 := rfl
  have hlarge : ¬ (0 : ℤ) < -((2 ^ Format.binary64.exponentBits : ℤ) + n.log2) := by
    have hpow : (0 : ℤ) < 2 ^ Format.binary64.exponentBits := by positivity
    omega
  have hsign : Sign.positive * Sign.positive = Sign.positive := rfl
  have hten : n <<< Format.binary64.mantissaBits * 10 ^ (0 : ℤ).toNat = n * 2 ^ 53 := by
    rw [hbits, Nat.shiftLeft_eq, Int.toNat_zero, pow_zero, Nat.mul_one]
  unfold UnpackedFloat.ofScientific
  rw [dif_neg hpos, if_neg (by decide), if_neg hlarge, if_pos le_rfl, mul_finite, hsign, hten,
    hbits]
  rfl

theorem unpack_ofNat {n : ℕ} (h : ¬ n < 2 ^ 53) :
    (Float.ofNat n).toModel.unpack = UnpackedFloat.unpack Format.binary64
      (UnpackedFloat.pack Format.binary64
        (roundWithAccuracy Format.binary64 .positive (n * 2 ^ 53) (-53) .exact)) := by
  have hconversion : Float.ofNat n = Float.ofModel (Float.Model.ofScientific n (Int.ofNat 0)) := by
    change Float.ofScientific n false 0 = _
    unfold Float.ofScientific
    rw [dif_neg fun hfast => h hfast.1]
    rfl
  rw [hconversion, ← ofScientific_natural (by omega)]
  rfl

theorem isPositive_ofNat {n : ℕ} (hpos : 0 < n) (hlt : n < 2 ^ 64) :
    IsPositive (Float.ofNat n) := by
  by_cases hsmall : n < 2 ^ 53
  · rw [ofNat_of_lt hsmall]
    refine (isPositive_toFloat ?_).mul_one
    rw [UInt64.toNat_ofNat', Nat.mod_eq_of_lt (by omega)]
    exact hpos
  · have hlog : n.log2 < 64 := (Nat.log2_lt hpos.ne').mpr hlt
    obtain ⟨m, e, hm, hround, hfits⟩ := exists_roundWithAccuracy (m := n * 2 ^ 53) (e := -53)
      (by positivity) (by decide) (by rw [log2_mul_two_pow hpos]; omega) (by decide)
    rw [IsPositive, unpack_ofNat hsmall, hround]
    exact positive_unpack_pack hm hfits

theorem isUnsigned_ofNat (n : ℕ) : IsUnsigned (Float.ofNat n) := by
  by_cases hsmall : n < 2 ^ 53
  · rw [ofNat_of_lt hsmall]
    exact (isUnsigned_toFloat _).mul (by decide +kernel)
  · rw [IsUnsigned, unpack_ofNat hsmall]
    exact (unsigned_roundWithAccuracy _ _ _ _).unpack_pack

example : IsPositive 0.4 ∧ IsUnsigned 0.0 ∧ ¬ IsUnsigned (-0.0) := by decide +kernel

end Dvrft.Rounding
