import Mathlib.Data.List.Perm.Basic
import Mathlib.Data.List.Nodup
import Mathlib.Logic.Function.Basic

/-!
One table for the rows of many owners. The rows of an owner keep the order of the table.
A batch for one owner comes behind the rows it had and leaves the others with theirs, and
the table is the rows of all its owners, in some order.
-/

namespace Dvrft.Owners

variable {ρ ι : Type*} [DecidableEq ι] (owner : ρ → ι)

def rowsOf (i : ι) (rows : List ρ) : List ρ := rows.filter fun row => owner row == i

theorem rowsOf_append (i : ι) (rows rows' : List ρ) :
    rowsOf owner i (rows ++ rows') = rowsOf owner i rows ++ rowsOf owner i rows' :=
  List.filter_append ..

variable {owner}

theorem mem_rowsOf {i : ι} {rows : List ρ} {row : ρ} :
    row ∈ rowsOf owner i rows ↔ row ∈ rows ∧ owner row = i := by
  rw [rowsOf, List.mem_filter, beq_iff_eq]

theorem rowsOf_batch {i : ι} {batch : List ρ} (hbatch : ∀ row ∈ batch, owner row = i) (j : ι) :
    rowsOf owner j batch = if j = i then batch else [] := by
  split_ifs with hj
  · refine List.filter_eq_self.mpr fun row hrow => ?_
    rw [hbatch row hrow, hj, beq_self_eq_true]
  · refine List.filter_eq_nil_iff.mpr fun row hrow => ?_
    rw [hbatch row hrow, beq_iff_eq]
    exact Ne.symm hj

/-- The table shows the shelves: each owner's rows are those of its shelf. -/
def Shows (owner : ρ → ι) (rows : List ρ) (shelf : ι → List ρ) : Prop :=
  ∀ i, rowsOf owner i rows = shelf i

/-- A batch for one owner goes to the end of its shelf. -/
theorem Shows.append {rows batch : List ρ} {shelf : ι → List ρ} (h : Shows owner rows shelf)
    {i : ι} (hbatch : ∀ row ∈ batch, owner row = i) :
    Shows owner (rows ++ batch) (Function.update shelf i (shelf i ++ batch)) := by
  intro j
  rw [rowsOf_append, h j, rowsOf_batch hbatch]
  by_cases hj : j = i
  · subst hj
    rw [if_pos rfl, Function.update_self]
  · rw [if_neg hj, List.append_nil, Function.update_of_ne hj]

/-- The same of the values that the rows are written from. -/
theorem Shows.put {α : Type*} {rows : List ρ} {values : ι → List α} {write : ι → α → ρ}
    (h : Shows owner rows fun j => (values j).map (write j)) {i : ι}
    (howner : ∀ a, owner (write i a) = i) (batch : List α) :
    Shows owner (rows ++ batch.map (write i)) fun j =>
      (Function.update values i (values i ++ batch) j).map (write j) := by
  have hbatch : ∀ row ∈ batch.map (write i), owner row = i := by
    intro row hrow
    obtain ⟨a, -, rfl⟩ := List.mem_map.mp hrow
    exact howner a
  intro j
  rw [h.append hbatch j]
  dsimp only
  by_cases hj : j = i
  · subst hj
    rw [Function.update_self, Function.update_self, List.map_append]
  · rw [Function.update_of_ne hj, Function.update_of_ne hj]

/-- No row belongs to an owner without a shelf. -/
theorem Shows.owner_mem {rows : List ρ} {shelf : ι → List ρ} (h : Shows owner rows shelf)
    {ids : List ι} (hids : ∀ i, i ∉ ids → shelf i = []) {row : ρ} (hrow : row ∈ rows) :
    owner row ∈ ids := by
  by_contra hnot
  have hshelf : row ∈ shelf (owner row) := by
    rw [← h (owner row)]
    exact mem_rowsOf.mpr ⟨hrow, rfl⟩
  rw [hids _ hnot] at hshelf
  exact absurd hshelf List.not_mem_nil

/-- The rows of all owners together are the table. -/
theorem perm_flatMap_rowsOf {ids : List ι} (hids : ids.Nodup) {rows : List ρ}
    (hrows : ∀ row ∈ rows, owner row ∈ ids) :
    (ids.flatMap fun i => rowsOf owner i rows).Perm rows := by
  induction ids generalizing rows with
  | nil =>
    have hnone : rows = [] := List.eq_nil_iff_forall_not_mem.mpr fun row hrow =>
      absurd (hrows row hrow) List.not_mem_nil
    rw [hnone]
    exact List.Perm.refl _
  | cons i ids ih =>
    obtain ⟨hi, hids⟩ := List.nodup_cons.mp hids
    have hrest : (ids.flatMap fun j => rowsOf owner j rows) =
        ids.flatMap fun j => rowsOf owner j (rows.filter fun row => !(owner row == i)) := by
      refine List.flatMap_congr fun j hj => ?_
      have hne : j ≠ i := fun heq => hi (heq ▸ hj)
      rw [rowsOf, rowsOf, List.filter_filter]
      refine List.filter_congr fun row _ => ?_
      by_cases howner : owner row = j
      · simp [howner, hne]
      · simp [howner]
    have hothers : ∀ row ∈ rows.filter (fun row => !(owner row == i)), owner row ∈ ids := by
      intro row hrow
      obtain ⟨hmem, hother⟩ := List.mem_filter.mp hrow
      rcases List.mem_cons.mp (hrows row hmem) with heq | hin
      · simp [heq] at hother
      · exact hin
    rw [List.flatMap_cons, hrest]
    exact ((ih hids hothers).append_left _).trans (List.filter_append_perm _ rows)

theorem Shows.perm {rows : List ρ} {shelf : ι → List ρ} (h : Shows owner rows shelf)
    {ids : List ι} (hids : ids.Nodup) (hout : ∀ i, i ∉ ids → shelf i = []) :
    (ids.flatMap shelf).Perm rows := by
  have hall := perm_flatMap_rowsOf hids fun row hrow => h.owner_mem hout hrow
  rwa [funext h] at hall

/-- The table row by row as it was written: the values of all shelves, each with its owner. -/
theorem Shows.exists_values {α : Type*} {rows : List ρ} {values : ι → List α}
    {write : ι → α → ρ} (h : Shows owner rows fun i => (values i).map (write i)) {ids : List ι}
    (hids : ids.Nodup) (hout : ∀ i, i ∉ ids → values i = []) :
    ∃ written : List (ι × α), rows = written.map (fun p => write p.1 p.2) ∧
      written.Perm (ids.flatMap fun i => (values i).map (Prod.mk i)) := by
  have hperm := (h.perm hids fun i hi => by rw [hout i hi, List.map_nil]).symm
  have hmap : (ids.flatMap fun i => (values i).map (write i)) =
      (ids.flatMap fun i => (values i).map (Prod.mk i)).map fun p => write p.1 p.2 := by
    rw [List.map_flatMap]
    exact List.flatMap_congr fun i _ => by rw [List.map_map]; rfl
  have hpairs : List.Forall₂ (fun row p => row = write p.1 p.2)
      (ids.flatMap fun i => (values i).map (write i))
      (ids.flatMap fun i => (values i).map (Prod.mk i)) := by
    rw [hmap, List.forall₂_map_left_iff, List.forall₂_same]
    exact fun _ _ => rfl
  obtain ⟨written, hwritten, hvalues⟩ := List.perm_comp_forall₂ hperm hpairs
  refine ⟨written, ?_, hvalues⟩
  rw [← List.forall₂_eq_eq_eq, List.forall₂_map_right_iff]
  exact hwritten

end Dvrft.Owners
