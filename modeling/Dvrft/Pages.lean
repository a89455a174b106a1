import Mathlib.Data.List.Basic
import Mathlib.Data.Nat.Notation

/-!
Pages of a list: the first few members are dropped and some of the next are kept. A
page of the members that pass a test, and the same page of all members, are compared by
what the test says of the members up to the page's end.
-/

namespace Dvrft.Pages

variable {α : Type} (a : α → Bool) (xs : List α)

theorem take_filter_of_take {n : ℕ} (h : ∀ x ∈ xs.take n, a x) :
    (xs.filter a).take n = xs.take n := by
  induction xs generalizing n with
  | nil => rfl
  | cons x xs ih =>
    cases n with
    | zero => rfl
    | succ n =>
      rw [List.take_succ_cons, List.forall_mem_cons] at h
      rw [List.filter_cons_of_pos h.1, List.take_succ_cons, List.take_succ_cons, ih h.2]

/-- Dropping members of the filtered list reaches behind the place where the same number
is dropped of the whole one, by as many members as failed the test before it. -/
theorem drop_filter {o : ℕ} (h : o ≤ xs.length) :
    (xs.filter a).drop o =
      ((xs.drop o).filter a).drop ((xs.take o).countP fun x => !a x) := by
  have hcount := List.length_eq_countP_add_countP (l := xs.take o) a
  have hfront : ((xs.take o).filter a).length + (xs.take o).countP (fun x => !a x) = o := by
    rw [← List.countP_eq_length_filter]
    rw [List.length_take, Nat.min_eq_left h] at hcount
    simp only [Bool.not_eq_true, Bool.decide_eq_false] at hcount
    omega
  rw [← List.take_append_drop o xs, List.filter_append, List.drop_append,
    List.drop_of_length_le (by omega), List.nil_append, List.take_append_drop]
  congr 1
  omega

/-- A page of the filtered list is the page of the whole one when it is empty, or when
its members pass the test and the members that passed go on as they would have without
those dropped before the page. -/
theorem page_filter_eq_iff (o n : ℕ) :
    ((xs.filter a).drop o).take n = (xs.drop o).take n ↔
      n = 0 ∨ xs.length ≤ o ∨
        ((∀ x ∈ (xs.drop o).take n, a x) ∧
          (((xs.drop o).filter a).drop ((xs.take o).countP fun x => !a x)).take n =
            ((xs.drop o).filter a).take n) := by
  rcases Nat.eq_zero_or_pos n with rfl | hpos
  · simp
  rcases Nat.le_total xs.length o with hle | hle
  · have hlength := List.length_filter_le a xs
    rw [List.drop_of_length_le hle, List.drop_of_length_le (by omega)]
    exact iff_of_true rfl (.inr (.inl hle))
  rw [drop_filter a xs hle]
  constructor
  · intro h
    have hpass : ∀ x ∈ (xs.drop o).take n, a x := by
      intro x hx
      rw [← h] at hx
      exact (List.mem_filter.mp (List.mem_of_mem_drop (List.mem_of_mem_take hx))).2
    right
    right
    rw [h, take_filter_of_take a _ hpass]
    exact ⟨hpass, rfl⟩
  · intro h
    rcases h with h | h | ⟨hpass, hshift⟩
    · omega
    · rw [List.drop_of_length_le h]
      simp
    · rw [hshift, take_filter_of_take a _ hpass]

/-- Of distinct members: none in front of the page failed either. -/
theorem take_drop_eq_take_iff {e n : ℕ} (hdistinct : xs.Nodup) (hn : 0 < n) :
    (xs.drop e).take n = xs.take n ↔ e = 0 ∨ xs = [] := by
  constructor
  · intro h
    cases xs with
    | nil => exact .inr rfl
    | cons x xs =>
      left
      by_contra he
      have hhead : x ∈ ((x :: xs).drop e).take n := by
        rw [h]
        exact List.mem_take_iff_getElem.mpr ⟨0, by rw [List.length_cons]; omega, rfl⟩
      obtain ⟨k, rfl⟩ : ∃ k, e = k + 1 := ⟨e - 1, by omega⟩
      rw [List.drop_succ_cons] at hhead
      exact (List.nodup_cons.mp hdistinct).1 (List.mem_of_mem_drop (List.mem_of_mem_take hhead))
  · intro h
    rcases h with rfl | rfl
    · rw [List.drop_zero]
    · rw [List.drop_nil]

/-- The members that pass are all but the first `o` of the list. -/
theorem filter_eq_drop_iff (o : ℕ) :
    xs.filter a = xs.drop o ↔ (∀ x ∈ xs.take o, a x = false) ∧ ∀ x ∈ xs.drop o, a x := by
  have hsplit : xs.filter a = (xs.take o).filter a ++ (xs.drop o).filter a := by
    rw [← List.filter_append, List.take_append_drop]
  constructor
  · intro h
    have hpass : ∀ x ∈ xs.drop o, a x := by
      intro x hx
      rw [← h] at hx
      exact (List.mem_filter.mp hx).2
    refine ⟨?_, hpass⟩
    rw [hsplit, List.filter_eq_self.mpr hpass, List.append_left_eq_self,
      List.filter_eq_nil_iff] at h
    intro x hx
    exact Bool.eq_false_iff.mpr (h x hx)
  · intro h
    have hnone : (xs.take o).filter a = [] := by
      rw [List.filter_eq_nil_iff]
      intro x hx
      exact Bool.eq_false_iff.mp (h.1 x hx)
    rw [hsplit, hnone, List.filter_eq_self.mpr h.2, List.nil_append]

/-- The whole list is the members that pass, less the first `o`. -/
theorem eq_drop_filter_iff (o : ℕ) :
    xs = (xs.filter a).drop o ↔ xs.take o = [] ∧ ∀ x ∈ xs, a x := by
  constructor
  · intro h
    have hpass : ∀ x ∈ xs, a x := by
      intro x hx
      rw [h] at hx
      exact (List.mem_filter.mp (List.mem_of_mem_drop hx)).2
    refine ⟨?_, hpass⟩
    rw [List.filter_eq_self.mpr hpass] at h
    have hlength := congrArg List.length h
    rw [List.length_drop] at hlength
    rw [List.take_eq_nil_iff, ← List.length_eq_zero_iff]
    omega
  · intro h
    rw [List.filter_eq_self.mpr h.2]
    rcases List.take_eq_nil_iff.mp h.1 with rfl | rfl
    · rw [List.drop_zero]
    · rw [List.drop_nil]

theorem page_filter_not_eq_iff (o n : ℕ) :
    ((xs.filter fun x => !a x).drop o).take n = (xs.drop o).take n ↔
      n = 0 ∨ xs.drop o = [] ∨
        ((∀ x ∈ (xs.drop o).take n, a x = false) ∧
          (((xs.drop o).filter fun x => !a x).drop ((xs.take o).countP a)).take n =
            ((xs.drop o).filter fun x => !a x).take n) := by
  rw [page_filter_eq_iff, List.drop_eq_nil_iff]
  simp only [Bool.not_not, Bool.not_eq_true']

theorem filter_not_eq_drop_iff (o : ℕ) :
    (xs.filter fun x => !a x) = xs.drop o ↔
      (∀ x ∈ xs.take o, a x) ∧ ∀ x ∈ xs.drop o, a x = false := by
  rw [filter_eq_drop_iff]
  simp only [Bool.not_eq_false', Bool.not_eq_true']

theorem eq_drop_filter_not_iff (o : ℕ) :
    xs = (xs.filter fun x => !a x).drop o ↔ xs.take o = [] ∧ ∀ x ∈ xs, a x = false := by
  rw [eq_drop_filter_iff]
  simp only [Bool.not_eq_true']

end Dvrft.Pages
