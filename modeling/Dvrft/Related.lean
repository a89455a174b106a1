import Mathlib.Data.List.Forall2
import Mathlib.Data.List.Sort

/-!
Lists whose entries are related one by one. What is done to both of them alike, by tests
and orders that related entries agree on, leaves related lists.
-/

namespace Dvrft.Related

open List

variable {α β : Type} {R : α → β → Prop} {xs : List α} {ys : List β}

section Sorting

variable {r : α → α → Prop} {s : β → β → Prop} [DecidableRel r] [DecidableRel s]

theorem orderedInsert (h : ∀ a b a' b', R a b → R a' b' → (r a a' ↔ s b b')) {a : α} {b : β}
    (hab : R a b) (hxy : Forall₂ R xs ys) :
    Forall₂ R (xs.orderedInsert r a) (ys.orderedInsert s b) := by
  induction hxy with
  | nil => exact .cons hab .nil
  | @cons x y xs ys hhead htail ih =>
    rw [List.orderedInsert, List.orderedInsert]
    by_cases hle : r a x
    · rw [if_pos hle, if_pos ((h _ _ _ _ hab hhead).mp hle)]
      exact .cons hab (.cons hhead htail)
    · rw [if_neg hle, if_neg fun hle' => hle ((h _ _ _ _ hab hhead).mpr hle')]
      exact .cons hhead ih

theorem insertionSort (h : ∀ a b a' b', R a b → R a' b' → (r a a' ↔ s b b'))
    (hxy : Forall₂ R xs ys) : Forall₂ R (xs.insertionSort r) (ys.insertionSort s) := by
  induction hxy with
  | nil => exact .nil
  | cons hhead _ ih => exact orderedInsert h hhead ih

end Sorting

theorem map_eq {γ : Type} {f : α → γ} {g : β → γ} (h : ∀ a b, R a b → f a = g b)
    (hxy : Forall₂ R xs ys) : xs.map f = ys.map g := by
  rw [← forall₂_eq_eq_eq, forall₂_map_left_iff, forall₂_map_right_iff]
  exact hxy.imp h

theorem any_eq {p : α → Bool} {q : β → Bool} (h : ∀ a b, R a b → p a = q b)
    (hxy : Forall₂ R xs ys) : xs.any p = ys.any q := by
  have hmap := congrArg (·.any id) (map_eq h hxy)
  simpa only [List.any_map, Function.id_comp] using hmap

theorem filter {p : α → Bool} {q : β → Bool} (h : ∀ a b, R a b → p a = q b)
    (hxy : Forall₂ R xs ys) : Forall₂ R (xs.filter p) (ys.filter q) :=
  rel_filter (fun a b hab => iff_of_eq (congrArg (· = true) (h a b hab))) hxy

theorem zipIdx (hxy : Forall₂ R xs ys) (k : ℕ) :
    Forall₂ (fun p q => R p.1 q.1 ∧ p.2 = q.2) (xs.zipIdx k) (ys.zipIdx k) := by
  induction hxy generalizing k with
  | nil => exact .nil
  | cons hhead _ ih => exact .cons ⟨hhead, rfl⟩ (ih (k + 1))

/-- Neighbouring entries are related to neighbouring entries. -/
theorem zip_tail (hxy : Forall₂ R xs ys) :
    Forall₂ (fun p q => R p.1 q.1 ∧ R p.2 q.2) (xs.zip xs.tail) (ys.zip ys.tail) := by
  induction hxy with
  | nil => exact .nil
  | cons hhead htail ih =>
    cases htail with
    | nil => exact .nil
    | cons hnext hrest => exact .cons ⟨hhead, hnext⟩ ih

theorem head? (hxy : Forall₂ R xs ys) : Option.Rel R xs.head? ys.head? := by
  cases hxy with
  | nil => exact .none
  | cons hhead _ => exact .some hhead

theorem getLast? (hxy : Forall₂ R xs ys) : Option.Rel R xs.getLast? ys.getLast? := by
  rw [← List.head?_reverse, ← List.head?_reverse]
  exact head? (forall₂_reverse_iff.mpr hxy)

end Dvrft.Related
