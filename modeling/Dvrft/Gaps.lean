import Mathlib.Data.List.Sort
import Mathlib.Data.Nat.Notation

/-!
The numbers missing from a sorted list: those between its least and its greatest
member that it does not have, each once and in ascending order.
-/

namespace Dvrft.Gaps

/-- The numbers missing after `prev` and before the end of the list. -/
def gapsFrom : ℕ → List ℕ → List ℕ
  | _, [] => []
  | prev, x :: rest => List.range' (prev + 1) (x - (prev + 1)) ++ gapsFrom x rest

def gaps : List ℕ → List ℕ
  | [] => []
  | x :: rest => gapsFrom x rest

theorem mem_gapsFrom {prev : ℕ} {xs : List ℕ} (hsorted : (prev :: xs).Pairwise (· ≤ ·)) (k : ℕ) :
    k ∈ gapsFrom prev xs ↔ prev < k ∧ k ∉ xs ∧ ∃ x ∈ xs, k < x := by
  induction xs generalizing prev with
  | nil => simp [gapsFrom]
  | cons x rest ih =>
    obtain ⟨hprev, hrest⟩ := List.pairwise_cons.mp hsorted
    have hx : prev ≤ x := hprev x (by simp)
    have hleast : ∀ y ∈ rest, x ≤ y := (List.pairwise_cons.mp hrest).1
    rw [gapsFrom, List.mem_append, List.mem_range'_1, ih hrest]
    constructor
    · rintro (hbetween | ⟨hlow, hout, y, hy, hhigh⟩)
      · refine ⟨by omega, ?_, x, by simp, by omega⟩
        intro hmem
        rcases List.mem_cons.mp hmem with rfl | hmem
        · omega
        · have hge := hleast k hmem
          omega
      · refine ⟨by omega, ?_, y, by simp [hy], hhigh⟩
        intro hmem
        rcases List.mem_cons.mp hmem with rfl | hmem
        · omega
        · exact hout hmem
    · rintro ⟨hlow, hout, y, hy, hhigh⟩
      have hne : k ≠ x := fun heq => hout (by simp [heq])
      rcases Nat.lt_or_ge k x with hlt | hge
      · left
        omega
      · right
        refine ⟨by omega, fun hmem => hout (by simp [hmem]), ?_⟩
        rcases List.mem_cons.mp hy with rfl | hy
        · omega
        · exact ⟨y, hy, hhigh⟩

theorem pairwise_gapsFrom {prev : ℕ} {xs : List ℕ} (hsorted : (prev :: xs).Pairwise (· ≤ ·)) :
    (gapsFrom prev xs).Pairwise (· < ·) := by
  induction xs generalizing prev with
  | nil => simp [gapsFrom]
  | cons x rest ih =>
    obtain ⟨-, hrest⟩ := List.pairwise_cons.mp hsorted
    rw [gapsFrom, List.pairwise_append]
    refine ⟨List.pairwise_lt_range', ih hrest, ?_⟩
    intro a ha b hb
    have hbetween := List.mem_range'_1.mp ha
    have hafter := ((mem_gapsFrom hrest b).mp hb).1
    omega

/-- A number is missing when members lie on both sides of it and it is none. -/
theorem mem_gaps {xs : List ℕ} (hsorted : xs.Pairwise (· ≤ ·)) (k : ℕ) :
    k ∈ gaps xs ↔ k ∉ xs ∧ (∃ x ∈ xs, x < k) ∧ ∃ x ∈ xs, k < x := by
  cases xs with
  | nil => simp [gaps]
  | cons x rest =>
    have hleast : ∀ y ∈ rest, x ≤ y := (List.pairwise_cons.mp hsorted).1
    rw [gaps, mem_gapsFrom hsorted]
    constructor
    · rintro ⟨hlow, hout, y, hy, hhigh⟩
      refine ⟨?_, ⟨x, by simp, hlow⟩, y, by simp [hy], hhigh⟩
      rw [List.mem_cons]
      rintro (rfl | hmem)
      · omega
      · exact hout hmem
    · rintro ⟨hout, ⟨z, hz, hlow⟩, y, hy, hhigh⟩
      have hbelow : x < k := by
        rcases List.mem_cons.mp hz with rfl | hz
        · exact hlow
        · exact (hleast z hz).trans_lt hlow
      refine ⟨hbelow, fun hmem => hout (by simp [hmem]), y, ?_, hhigh⟩
      rcases List.mem_cons.mp hy with rfl | hy
      · omega
      · exact hy

theorem pairwise_gaps {xs : List ℕ} (hsorted : xs.Pairwise (· ≤ ·)) :
    (gaps xs).Pairwise (· < ·) := by
  cases xs with
  | nil => simp [gaps]
  | cons x rest => exact pairwise_gapsFrom hsorted

/-- An ascending list of the missing numbers is the list of gaps. -/
theorem gaps_eq {xs ks : List ℕ} (hsorted : xs.Pairwise (· ≤ ·)) (hks : ks.Pairwise (· < ·))
    (hmem : ∀ k, k ∈ ks ↔ k ∉ xs ∧ (∃ x ∈ xs, x < k) ∧ ∃ x ∈ xs, k < x) : gaps xs = ks := by
  have hperm : (gaps xs).Perm ks := by
    refine (List.perm_ext_iff_of_nodup ?_ ?_).mpr fun k => (mem_gaps hsorted k).trans (hmem k).symm
    · exact (pairwise_gaps hsorted).imp Nat.ne_of_lt
    · exact hks.imp Nat.ne_of_lt
  exact hperm.eq_of_pairwise (fun a b _ _ hab hba => absurd hab (Nat.lt_asymm hba))
    (pairwise_gaps hsorted) hks

end Dvrft.Gaps
