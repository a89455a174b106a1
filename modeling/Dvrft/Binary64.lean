import Dvrft.Binary32

/-!
Double-precision numbers. Their comparisons are those of a linear order on everything but
NaN.
-/

namespace Dvrft.Binary64

open Float.Model Float.Model.UnpackedFloat

theorem isNaN_iff {a : Float} : a.isNaN = true ↔ a.toModel.unpack = .notANumber :=
  UnpackedFloat.isNaN_iff

theorem unpack_ne_of_number {a : Float} (h : a.isNaN = false) : a.toModel.unpack ≠ .notANumber := by
  intro hnan
  rw [isNaN_iff.mpr hnan] at h
  exact absurd h (by decide)

/-- The numbers among the floats, each with its place. -/
def place (a : Float) : Lex (ℤ × Lex (ℤ × ℤ)) := Binary32.rank a.toModel.unpack

theorem lt_iff_place {a b : Float} (ha : a.isNaN = false) (hb : b.isNaN = false) :
    a < b ↔ place a < place b := by
  rw [place, place,
    ← Binary32.compare_eq_lt_iff (unpack_ne_of_number ha) (unpack_ne_of_number hb)]
  change a.lt b = true ↔ _
  unfold Float.lt
  rw [decide_eq_true_iff]
  change (a.toModel.unpack.compare b.toModel.unpack == some .lt) = true ↔ _
  rw [beq_iff_eq]

/-- The comparison of numbers the other way round. -/
theorem compare_swap {a b : UnpackedFloat} (ha : a ≠ .notANumber) (hb : b ≠ .notANumber) :
    ∃ order, a.compare b = some order ∧ b.compare a = some order.swap := by
  cases a with
  | notANumber => exact absurd rfl ha
  | infinity s =>
    cases s <;> cases b with
    | notANumber => exact absurd rfl hb
    | infinity t => cases t <;> exact ⟨_, rfl, rfl⟩
    | zero t => exact ⟨_, rfl, rfl⟩
    | finite t m e h => cases t <;> exact ⟨_, rfl, rfl⟩
  | zero s =>
    cases b with
    | notANumber => exact absurd rfl hb
    | infinity t => cases t <;> exact ⟨_, rfl, rfl⟩
    | zero t => exact ⟨_, rfl, rfl⟩
    | finite t m e h => cases t <;> exact ⟨_, rfl, rfl⟩
  | finite s m e h =>
    cases b with
    | notANumber => exact absurd rfl hb
    | infinity t => cases s <;> cases t <;> exact ⟨_, rfl, rfl⟩
    | zero t => cases s <;> exact ⟨_, rfl, rfl⟩
    | finite t m' e' h' =>
      have hswap : ((compare e e').then (compare m m')).swap =
          (compare e' e).then (compare m' m) := by
        rw [Ordering.swap_then, ← Std.OrientedOrd.eq_swap, ← Std.OrientedOrd.eq_swap]
      cases s <;> cases t
      · exact ⟨_, rfl, congrArg some (congrArg Ordering.swap hswap.symm)⟩
      · exact ⟨_, rfl, rfl⟩
      · exact ⟨_, rfl, rfl⟩
      · exact ⟨_, rfl, congrArg some hswap.symm⟩

/-- Numbers that compare equal have one place; the two zeros are such. -/
theorem place_of_beq {a b : Float} (h : (a == b) = true) :
    a.isNaN = false ∧ b.isNaN = false ∧ place a = place b := by
  have hcompare : a.toModel.unpack.compare b.toModel.unpack = some .eq := by
    change a.beq b = true at h
    unfold Float.beq at h
    change (a.toModel.unpack.compare b.toModel.unpack == some .eq) = true at h
    exact beq_iff_eq.mp h
  have ha : a.toModel.unpack ≠ .notANumber := by
    intro hnan
    rw [hnan, UnpackedFloat.compare] at hcompare
    cases hcompare
  have hb : b.toModel.unpack ≠ .notANumber := by
    intro hnan
    rw [hnan] at hcompare
    cases hunpack : a.toModel.unpack <;> simp [hunpack, UnpackedFloat.compare] at hcompare
  refine ⟨?_, ?_, ?_⟩
  · rw [← Bool.not_eq_true, isNaN_iff]
    exact ha
  · rw [← Bool.not_eq_true, isNaN_iff]
    exact hb
  · obtain ⟨order, hab, hba⟩ := compare_swap ha hb
    obtain rfl : order = .eq := Option.some.inj (hab.symm.trans hcompare)
    apply le_antisymm
    · rw [place, place, ← not_lt, ← Binary32.compare_eq_lt_iff hb ha, hba]
      decide
    · rw [place, place, ← not_lt, ← Binary32.compare_eq_lt_iff ha hb, hab]
      decide

theorem le_iff_not_lt {a b : Float} (ha : a.isNaN = false) (hb : b.isNaN = false) :
    a ≤ b ↔ ¬ b < a := by
  obtain ⟨order, hab, hba⟩ := compare_swap (unpack_ne_of_number ha) (unpack_ne_of_number hb)
  have hle : a ≤ b ↔ order.isLE = true := by
    change a.le b = true ↔ _
    unfold Float.le
    rw [decide_eq_true_iff]
    change (a.toModel.unpack.compare b.toModel.unpack).any (·.isLE) = true ↔ _
    rw [hab, Option.any_some]
  have hlt : b < a ↔ order.swap = .lt := by
    change b.lt a = true ↔ _
    unfold Float.lt
    rw [decide_eq_true_iff]
    change (b.toModel.unpack.compare a.toModel.unpack == some .lt) = true ↔ _
    rw [hba, beq_iff_eq, Option.some.injEq]
  rw [hle, hlt]
  cases order <;> decide

theorem le_iff_place {a b : Float} (ha : a.isNaN = false) (hb : b.isNaN = false) :
    a ≤ b ↔ place a ≤ place b := by
  rw [le_iff_not_lt ha hb, lt_iff_place hb ha, not_lt]

/-- Only numbers are in order. -/
theorem number_of_le {a b : Float} (h : a ≤ b) : a.isNaN = false ∧ b.isNaN = false := by
  change a.le b = true at h
  unfold Float.le at h
  rw [decide_eq_true_iff] at h
  change (a.toModel.unpack.compare b.toModel.unpack).any (·.isLE) = true at h
  constructor
  · rw [← Bool.not_eq_true, isNaN_iff]
    intro hnan
    rw [hnan, UnpackedFloat.compare] at h
    cases h
  · rw [← Bool.not_eq_true, isNaN_iff]
    intro hnan
    rw [hnan] at h
    cases hunpack : a.toModel.unpack <;> simp [hunpack, UnpackedFloat.compare] at h

theorem not_le_of_isNaN {a b : Float} (ha : a.isNaN = true) : ¬ a ≤ b := by
  intro h
  rw [(number_of_le h).1] at ha
  exact absurd ha (by decide)

end Dvrft.Binary64
