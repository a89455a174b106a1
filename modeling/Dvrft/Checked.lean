import Dvrft.Machine

/-!
What a checked build shows. A computation of the checked build that does not panic has
not left the range of any of its numbers, so every other build computes the same. To
see when that is, a computation is taken apart along its steps.
-/

namespace Dvrft.Machine

variable {α β σ ε : Type}

@[simp] theorem ok_ne_panicked (a : α) : (.ok a : Outcome ε α) ≠ panicked := by
  simp [panicked]

@[simp] theorem fail_ne_panicked (e : ε) : (fail e : Outcome ε α) ≠ panicked := by
  simp [fail, panicked]

/-- A sequence ends without a panic if its parts do. -/
theorem bind_ne_panicked_iff {x : Outcome ε α} {f : α → Outcome ε β} :
    (x >>= f) ≠ panicked ↔ x ≠ panicked ∧ ∀ a, x = .ok a → f a ≠ panicked := by
  cases x with
  | error failure => simp [panicked, bind, Except.bind]
  | ok a => simp [panicked, bind, Except.bind]

/-- What does not panic and has no error of its own delivers a value. -/
theorem OnlyPanics.ok_of_ne_panicked {x : Outcome ε α} (hx : OnlyPanics x)
    (h : x ≠ panicked) : ∃ a, x = .ok a := by
  by_contra hno
  push Not at hno
  exact h (hx.eq_panicked hno)

/-- A fold whose steps have no error of their own, and panic on some elements whatever the
state is, ends well where none of these occurs. -/
theorem foldlM_ne_panicked_iff {f : σ → α → Outcome ε σ} {P : α → Prop}
    (honly : ∀ s x, OnlyPanics (f s x)) (hstep : ∀ s x, f s x ≠ panicked ↔ P x) (xs : List α)
    (s : σ) : xs.foldlM f s ≠ panicked ↔ ∀ x ∈ xs, P x := by
  induction xs generalizing s with
  | nil => exact iff_of_true (ok_ne_panicked s) (by simp)
  | cons x rest ih =>
    rw [List.foldlM_cons, bind_ne_panicked_iff, hstep, List.forall_mem_cons]
    constructor
    · intro h
      obtain ⟨s', hs'⟩ := (honly s x).ok_of_ne_panicked ((hstep s x).mpr h.1)
      exact ⟨h.1, (ih s').mp (h.2 s' hs')⟩
    · intro h
      exact ⟨h.1, fun s' _ => (ih s').mpr h.2⟩

/-- A traversal that can only panic ends well where none of its steps does. -/
theorem mapM_ne_panicked_iff {β : Type} {f : α → Outcome ε β} {xs : List α}
    (honly : ∀ x, OnlyPanics (f x)) : xs.mapM f ≠ panicked ↔ ∀ x ∈ xs, f x ≠ panicked := by
  induction xs with
  | nil => exact iff_of_true (ok_ne_panicked []) (by simp)
  | cons x rest ih =>
    rw [List.mapM_cons, bind_ne_panicked_iff, List.forall_mem_cons]
    refine and_congr_right fun hx => ?_
    obtain ⟨b, hb⟩ := (honly x).ok_of_ne_panicked hx
    rw [← ih]
    constructor
    · intro h
      exact (bind_ne_panicked_iff.mp (h b hb)).1
    · intro h b' _
      exact bind_ne_panicked_iff.mpr ⟨h, fun bs _ => ok_ne_panicked _⟩

theorem Build.debug_add_ne_panicked_iff {a b : ℕ} :
    (Build.debug.add a b : Outcome ε ℕ) ≠ panicked ↔ a + b < 2 ^ 64 := by
  unfold Build.add Build.fit
  split_ifs with hfits
  · exact iff_of_true (ok_ne_panicked _) hfits
  · exact iff_of_false (by simp) hfits

/-- The numbers of `i32`. -/
def FitsI32 (z : ℤ) : Prop := -2 ^ 31 ≤ z ∧ z < 2 ^ 31

instance : DecidablePred FitsI32 := fun z => by unfold FitsI32; infer_instance

theorem Build.fitI32_of_fits (build : Build) {z : ℤ} (h : FitsI32 z) :
    (build.fitI32 z : Outcome ε ℤ) = .ok z := if_pos h

theorem Build.debug_fitI32_ne_panicked_iff {z : ℤ} :
    (Build.debug.fitI32 z : Outcome ε ℤ) ≠ panicked ↔ FitsI32 z := by
  unfold Build.fitI32
  split_ifs with hfits
  · exact iff_of_true (ok_ne_panicked _) hfits
  · exact iff_of_false (by simp) hfits

/-- The second computation does what the first does, as far as the first does not panic. -/
def CheckedBy (x y : Outcome ε α) : Prop := x ≠ panicked → y = x

theorem CheckedBy.refl (x : Outcome ε α) : CheckedBy x x := fun _ => rfl

theorem CheckedBy.bind {x y : Outcome ε α} {f g : α → Outcome ε β} (h : CheckedBy x y)
    (hfg : ∀ a, CheckedBy (f a) (g a)) : CheckedBy (x >>= f) (y >>= g) := by
  intro hends
  obtain ⟨hx, hf⟩ := bind_ne_panicked_iff.mp hends
  rw [h hx]
  cases x with
  | error failure => rfl
  | ok a => exact hfg a (hf a rfl)

theorem CheckedBy.ite {p : Prop} [Decidable p] {x y x' y' : Outcome ε α} (h : CheckedBy x y)
    (h' : CheckedBy x' y') : CheckedBy (if p then x else x') (if p then y else y') := by
  split_ifs
  · exact h
  · exact h'

theorem checkedBy_foldlM {f g : σ → α → Outcome ε σ} (h : ∀ s x, CheckedBy (f s x) (g s x))
    (xs : List α) (s : σ) : CheckedBy (xs.foldlM f s) (xs.foldlM g s) := by
  induction xs generalizing s with
  | nil => exact .refl _
  | cons x rest ih =>
    rw [List.foldlM_cons, List.foldlM_cons]
    exact (h s x).bind ih

theorem Build.checkedBy_add (build : Build) (a b : ℕ) :
    CheckedBy (Build.debug.add a b : Outcome ε ℕ) (build.add a b) := by
  intro h
  have hfits := debug_add_ne_panicked_iff.mp h
  rw [add_of_lt _ hfits, add_of_lt _ hfits]

theorem Build.checkedBy_fitI32 (build : Build) (z : ℤ) :
    CheckedBy (Build.debug.fitI32 z : Outcome ε ℤ) (build.fitI32 z) := by
  intro h
  have hfits := debug_fitI32_ne_panicked_iff.mp h
  rw [fitI32_of_fits _ hfits, fitI32_of_fits _ hfits]

end Dvrft.Machine
