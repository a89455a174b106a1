import Mathlib.Algebra.GroupWithZero.Nat
import Mathlib.Data.List.Count
import Mathlib.Data.List.Perm.Basic

/-!
Counting by key. A tally is a list of keys with their counts; a key that is new goes to
the end. How often a key was counted does not depend on the order of the keys.
-/

namespace Dvrft.Tallies

variable {κ : Type} [DecidableEq κ]

/-- Count a key once more. -/
def bump : List (κ × ℕ) → κ → List (κ × ℕ)
  | [], key => [(key, 1)]
  | (k, n) :: rest, key => if k = key then (k, n + 1) :: rest else (k, n) :: bump rest key

def tally (keys : List κ) : List (κ × ℕ) := keys.foldl bump []

/-- All that was counted. -/
def total (counts : List (κ × ℕ)) : ℕ := (counts.map Prod.snd).sum

theorem total_bump (counts : List (κ × ℕ)) (key : κ) :
    total (bump counts key) = total counts + 1 := by
  unfold total
  induction counts with
  | nil => rfl
  | cons p rest ih =>
    obtain ⟨k, n⟩ := p
    unfold bump
    split_ifs
    · simp only [List.map_cons, List.sum_cons]
      omega
    · simp only [List.map_cons, List.sum_cons, ih]
      omega

theorem total_foldl (keys : List κ) (counts : List (κ × ℕ)) :
    total (keys.foldl bump counts) = total counts + keys.length := by
  induction keys generalizing counts with
  | nil => rfl
  | cons key rest ih =>
    rw [List.foldl_cons, ih, total_bump, List.length_cons]
    omega

theorem lookup_bump (counts : List (κ × ℕ)) (key x : κ) :
    (bump counts key).lookup x =
      if x = key then some ((counts.lookup key).getD 0 + 1) else counts.lookup x := by
  induction counts with
  | nil =>
    by_cases hx : x = key
    · simp [bump, hx]
    · simp [bump, hx]
  | cons p rest ih =>
    obtain ⟨k, n⟩ := p
    unfold bump
    by_cases hk : k = key
    · rw [if_pos hk, hk]
      by_cases hx : x = key
      · simp [hx]
      · simp [hx, List.lookup_cons, beq_eq_false_iff_ne.mpr hx]
    · rw [if_neg hk, List.lookup_cons, List.lookup_cons, List.lookup_cons, ih,
        beq_eq_false_iff_ne.mpr (Ne.symm hk)]
      by_cases hx : x = key
      · simp [hx, beq_eq_false_iff_ne.mpr (Ne.symm hk)]
      · simp [hx]

theorem getD_lookup_foldl (keys : List κ) (counts : List (κ × ℕ)) (x : κ) :
    ((keys.foldl bump counts).lookup x).getD 0 = (counts.lookup x).getD 0 + keys.count x := by
  induction keys generalizing counts with
  | nil => rfl
  | cons key rest ih =>
    rw [List.foldl_cons, ih, lookup_bump, List.count_cons]
    by_cases hx : x = key
    · rw [if_pos hx, hx, Option.getD_some, beq_self_eq_true, if_pos rfl]
      omega
    · rw [if_neg hx, if_neg (by simpa using Ne.symm hx), Nat.add_zero]

/-- A key that was not counted is not there. -/
theorem lookup_foldl_of_notMem {keys : List κ} {x : κ} (hx : x ∉ keys)
    (counts : List (κ × ℕ)) : (keys.foldl bump counts).lookup x = counts.lookup x := by
  induction keys generalizing counts with
  | nil => rfl
  | cons key rest ih =>
    rw [List.mem_cons, not_or] at hx
    rw [List.foldl_cons, ih hx.2, lookup_bump, if_neg hx.1]

theorem lookup_foldl_isSome {keys : List κ} {x : κ} {counts : List (κ × ℕ)}
    (h : x ∈ keys ∨ (counts.lookup x).isSome) :
    ((keys.foldl bump counts).lookup x).isSome := by
  induction keys generalizing counts with
  | nil => simpa using h
  | cons key rest ih =>
    rw [List.foldl_cons]
    apply ih
    rw [lookup_bump]
    by_cases hx : x = key
    · exact .inr (by rw [if_pos hx]; rfl)
    · rw [if_neg hx]
      rcases h with hmem | hsome
      · exact .inl ((List.mem_cons.mp hmem).resolve_left hx)
      · exact .inr hsome

/-- A tally has the keys that were counted, each with the number of its occurrences. -/
theorem lookup_tally (keys : List κ) (x : κ) :
    (tally keys).lookup x = if x ∈ keys then some (keys.count x) else none := by
  have hcount : ((tally keys).lookup x).getD 0 = keys.count x := by
    simpa [tally] using getD_lookup_foldl keys [] x
  by_cases hx : x ∈ keys
  · have hsome : ((tally keys).lookup x).isSome := lookup_foldl_isSome (.inl hx)
    obtain ⟨n, hlookup⟩ := Option.isSome_iff_exists.mp hsome
    rw [hlookup, Option.getD_some] at hcount
    rw [if_pos hx, hlookup, hcount]
  · rw [if_neg hx]
    exact lookup_foldl_of_notMem hx []

theorem lookup_tally_perm {keys keys' : List κ} (h : keys.Perm keys') (x : κ) :
    (tally keys).lookup x = (tally keys').lookup x := by
  rw [lookup_tally, lookup_tally, h.count_eq]
  exact if_congr h.mem_iff rfl rfl

theorem total_tally (keys : List κ) : total (tally keys) = keys.length := by
  rw [tally, total_foldl]
  exact Nat.zero_add _

end Dvrft.Tallies
