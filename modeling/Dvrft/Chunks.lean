import Mathlib.Data.List.Basic
import Mathlib.Data.List.Infix
import Mathlib.Tactic.Ring

/-!
Consecutive blocks of one size, the last one possibly shorter. A block is
addressed by its index alone, so the whole division is a map over the indices
and its laws are statements about `take` and `drop`. Nothing here fixes the
letters; a block reader of any program can use the same division.
-/

namespace Dvrft.Chunks

variable {α : Type*}

/-- How many blocks of `size` letters cover `len` letters. -/
def blockCount (size len : ℕ) : ℕ := (len + size - 1) / size

def blockAt (size : ℕ) (xs : List α) (i : ℕ) : List α := (xs.drop (i * size)).take size

def blocks (size : ℕ) (xs : List α) : List (List α) :=
  (List.range (blockCount size xs.length)).map (blockAt size xs)

theorem blockCount_zero (size : ℕ) : blockCount size 0 = 0 := by
  rcases Nat.eq_zero_or_pos size with rfl | hsize
  · rfl
  · exact Nat.div_eq_of_lt (by omega)

/-- An index names a block exactly when the block begins before the end. -/
theorem lt_blockCount_iff (size len i : ℕ) (hsize : 0 < size) :
    i < blockCount size len ↔ i * size < len := by
  unfold blockCount
  rw [Nat.lt_iff_add_one_le, Nat.le_div_iff_mul_le hsize, Nat.succ_mul]
  omega

theorem blockCount_mul_of_dvd (size len : ℕ) (hsize : 0 < size) (hdvd : size ∣ len) :
    blockCount size len * size = len := by
  obtain ⟨k, rfl⟩ := hdvd
  have hk : blockCount size (size * k) = k := by
    unfold blockCount
    rw [Nat.add_sub_assoc (by omega), Nat.mul_add_div hsize, Nat.div_eq_of_lt (by omega)]
    rfl
  rw [hk, Nat.mul_comm]

theorem blockCount_of_dvd (size len : ℕ) (hsize : 0 < size) (hdvd : size ∣ len) :
    blockCount size len = len / size :=
  (Nat.div_eq_of_eq_mul_left hsize (blockCount_mul_of_dvd size len hsize hdvd).symm).symm

theorem le_blockCount_mul (size len : ℕ) (hsize : 0 < size) :
    len ≤ blockCount size len * size := by
  by_contra hlt
  have hmem := (lt_blockCount_iff size len (blockCount size len) hsize).mpr (by omega)
  omega

theorem blockCount_le (size len : ℕ) (hsize : 0 < size) : blockCount size len ≤ len := by
  by_contra hlt
  have hmul := (lt_blockCount_iff size len len hsize).mp (by omega)
  exact absurd (Nat.le_mul_of_pos_right len hsize) (by omega)

theorem blockCount_add_of_dvd (size a b : ℕ) (hsize : 0 < size) (hdvd : size ∣ a) :
    blockCount size (a + b) = blockCount size a + blockCount size b := by
  obtain ⟨k, rfl⟩ := hdvd
  have hk : blockCount size (size * k) = k :=
    Nat.eq_of_mul_eq_mul_right hsize
      (by rw [blockCount_mul_of_dvd size _ hsize (Nat.dvd_mul_right size k), Nat.mul_comm])
  rw [hk]
  unfold blockCount
  rw [Nat.add_assoc, Nat.add_sub_assoc (by omega), Nat.mul_add_div hsize]

theorem length_blockAt (size : ℕ) (xs : List α) (i : ℕ) :
    (blockAt size xs i).length = min size (xs.length - i * size) := by
  simp [blockAt]

@[simp] theorem length_blocks (size : ℕ) (xs : List α) :
    (blocks size xs).length = blockCount size xs.length := by
  simp [blocks]

@[simp] theorem blocks_nil (size : ℕ) : blocks size ([] : List α) = [] := by
  simp [blocks, blockCount_zero]

theorem getElem?_blocks (size : ℕ) (xs : List α) (i : ℕ)
    (hi : i < blockCount size xs.length) :
    (blocks size xs)[i]? = some (blockAt size xs i) := by
  simp [blocks, List.getElem?_range hi]

theorem blockAt_append_left (size : ℕ) (xs ys : List α) (i : ℕ)
    (h : (i + 1) * size ≤ xs.length) : blockAt size (xs ++ ys) i = blockAt size xs i := by
  rw [Nat.succ_mul] at h
  unfold blockAt
  rw [List.drop_append_of_le_length (by omega),
    List.take_append_of_le_length (by rw [List.length_drop]; omega)]

theorem blockAt_append_right (size : ℕ) (xs ys : List α) (k i : ℕ)
    (hlen : xs.length = k * size) : blockAt size (xs ++ ys) (k + i) = blockAt size ys i := by
  unfold blockAt
  have hidx : (k + i) * size = xs.length + i * size := by rw [hlen]; ring
  rw [hidx, ← List.drop_drop, List.drop_left]

/-- A cut at a multiple of the size never splits a block. -/
theorem blocks_append (size : ℕ) (xs ys : List α) (hsize : 0 < size)
    (hdvd : size ∣ xs.length) : blocks size (xs ++ ys) = blocks size xs ++ blocks size ys := by
  have hmul := blockCount_mul_of_dvd size xs.length hsize hdvd
  unfold blocks
  rw [List.length_append, blockCount_add_of_dvd size _ _ hsize hdvd, List.range_add,
    List.map_append, List.map_map]
  congr 1
  · apply List.map_congr_left
    intro i hi
    apply blockAt_append_left
    have hlt : i + 1 ≤ blockCount size xs.length := List.mem_range.mp hi
    calc (i + 1) * size ≤ blockCount size xs.length * size := Nat.mul_le_mul_right size hlt
      _ = xs.length := hmul
  · apply List.map_congr_left
    intro i _
    exact blockAt_append_right size xs ys _ i hmul.symm

theorem blocks_of_length_le (size : ℕ) (xs : List α) (hne : xs ≠ [])
    (hle : xs.length ≤ size) : blocks size xs = [xs] := by
  have hpos : 0 < xs.length := List.length_pos_iff.mpr hne
  have hone : blockCount size xs.length = 1 := by
    unfold blockCount
    rw [show xs.length + size - 1 = size * 1 + (xs.length - 1) by omega,
      Nat.mul_add_div (by omega), Nat.div_eq_of_lt (by omega)]
  simp [blocks, hone, blockAt, List.take_of_length_le hle]

/-- The first block and the division of what remains. -/
theorem blocks_step (size : ℕ) (xs : List α) (hsize : 0 < size) (hne : xs ≠ []) :
    blocks size xs = xs.take size :: blocks size (xs.drop size) := by
  rcases Nat.le_total xs.length size with hle | hge
  · rw [blocks_of_length_le size xs hne hle, List.take_of_length_le hle,
      List.drop_of_length_le hle, blocks_nil]
  · have htake : (xs.take size).length = size := by simp [hge]
    have hdvd : size ∣ (xs.take size).length := by rw [htake]
    have hhead : blocks size (xs.take size) = [xs.take size] :=
      blocks_of_length_le size _ (by
        intro hnil
        rw [hnil] at htake
        simp at htake
        omega) (by omega)
    conv_lhs => rw [← List.take_append_drop size xs]
    rw [blocks_append size _ _ hsize hdvd, hhead, List.singleton_append]

/-- The first blocks put together are the prefix they cover. -/
theorem flatten_take_blocks (size : ℕ) (n : ℕ) (xs : List α) (hsize : 0 < size) :
    ((blocks size xs).take n).flatten = xs.take (n * size) := by
  induction n generalizing xs with
  | zero => simp
  | succ n ih =>
    by_cases hne : xs = []
    · simp [hne]
    · rw [blocks_step size xs hsize hne, List.take_succ_cons, List.flatten_cons, ih]
      rw [Nat.succ_mul, Nat.add_comm, List.take_add]

/-- Consecutive blocks put together are the stretch they cover. -/
theorem flatten_blockAt_range (size first count : ℕ) (xs : List α) :
    ((List.range' first count).map (blockAt size xs)).flatten =
      (xs.drop (first * size)).take (count * size) := by
  induction count generalizing first with
  | zero => simp
  | succ count ih =>
    rw [List.range'_succ, List.map_cons, List.flatten_cons, ih, blockAt]
    rw [Nat.succ_mul, Nat.succ_mul, Nat.add_comm (count * size), List.take_add, List.drop_drop]

theorem flatten_blocks (size : ℕ) (xs : List α) (hsize : 0 < size) :
    (blocks size xs).flatten = xs := by
  have h := flatten_take_blocks size (blocks size xs).length xs hsize
  rw [List.take_length, length_blocks] at h
  rw [h, List.take_of_length_le (le_blockCount_mul size xs.length hsize)]

/-- Whole blocks put together are divided into themselves. -/
theorem blocks_flattened (size : ℕ) (bs : List (List α)) (hsize : 0 < size)
    (hlen : ∀ b ∈ bs, b.length = size) : blocks size bs.flatten = bs := by
  induction bs with
  | nil => simp
  | cons b rest ih =>
    have hb : b.length = size := hlen b (by simp)
    have hne : b ≠ [] := List.ne_nil_of_length_pos (by omega)
    rw [List.flatten_cons, blocks_append _ _ _ hsize (by rw [hb]),
      blocks_of_length_le _ _ hne hb.le, ih fun b hb => hlen b (by simp [hb]),
      List.singleton_append]

/-- The first blocks of a sequence are the blocks of the prefix they cover. -/
theorem blocks_take (size : ℕ) (n : ℕ) (xs : List α) (hsize : 0 < size) :
    blocks size (xs.take (n * size)) = (blocks size xs).take n := by
  rcases Nat.le_total xs.length (n * size) with hle | hge
  · have hcount : blockCount size xs.length ≤ n := by
      by_contra hlt
      have := (lt_blockCount_iff size xs.length n hsize).mp (by omega)
      omega
    rw [List.take_of_length_le hle, List.take_of_length_le (by simpa using hcount)]
  · have hlen : (xs.take (n * size)).length = n * size := by simp [hge]
    have hcount : blockCount size (n * size) = n :=
      Nat.eq_of_mul_eq_mul_right hsize
        (blockCount_mul_of_dvd size _ hsize (Nat.dvd_mul_left size n))
    have happ := blocks_append size (xs.take (n * size)) (xs.drop (n * size)) hsize
      (by rw [hlen]; exact Nat.dvd_mul_left size n)
    rw [List.take_append_drop] at happ
    rw [happ, List.take_left' (by rw [length_blocks, hlen, hcount])]

/-- Only the remainder after the last full block is shorter than the size. -/
theorem length_of_mem_blocks (size : ℕ) (xs block : List α) (hsize : 0 < size)
    (hmem : block ∈ blocks size xs) :
    block.length = size ∨ (block.length = xs.length % size ∧ block.length ≠ 0) := by
  obtain ⟨i, hi, rfl⟩ := List.mem_map.mp hmem
  have hlt := (lt_blockCount_iff size xs.length i hsize).mp (List.mem_range.mp hi)
  rw [length_blockAt]
  rcases Nat.le_total size (xs.length - i * size) with hfull | hpartial
  · exact .inl (Nat.min_eq_left hfull)
  · rcases Nat.eq_or_lt_of_le hpartial with heq | hshort
    · exact .inl (by omega)
    · right
      have hrest : xs.length = xs.length - i * size + size * i := by
        have hcomm : size * i = i * size := Nat.mul_comm size i
        omega
      rw [Nat.min_eq_right hpartial]
      refine ⟨?_, by omega⟩
      conv_rhs => rw [hrest, Nat.add_mul_mod_self_left, Nat.mod_eq_of_lt hshort]

/-- A content with a remainder is whole blocks and then the remainder. -/
theorem blocks_eq_append_remainder (size : ℕ) (xs : List α) (hsize : 0 < size)
    (hrest : xs.length % size ≠ 0) :
    blocks size xs = blocks size (xs.take (xs.length / size * size)) ++
        [xs.drop (xs.length / size * size)] ∧
      (blocks size (xs.take (xs.length / size * size))).length = xs.length / size ∧
      (xs.drop (xs.length / size * size)).length = xs.length % size := by
  have hdiv := Nat.div_add_mod' xs.length size
  have hmod := Nat.mod_lt xs.length hsize
  have hlen : (xs.take (xs.length / size * size)).length = xs.length / size * size := by
    rw [List.length_take]
    omega
  have hdrop : (xs.drop (xs.length / size * size)).length = xs.length % size := by
    rw [List.length_drop]
    omega
  refine ⟨?_, ?_, hdrop⟩
  · conv_lhs => rw [← List.take_append_drop (xs.length / size * size) xs]
    rw [blocks_append size _ _ hsize (by rw [hlen]; exact Nat.dvd_mul_left _ _),
      blocks_of_length_le size (xs.drop _)
        (List.ne_nil_of_length_pos (by rw [hdrop]; omega)) (by rw [hdrop]; omega)]
  · rw [length_blocks, hlen, blockCount_of_dvd size _ hsize (Nat.dvd_mul_left _ _),
      Nat.mul_div_cancel _ hsize]

/-- So many blocks are needed if one fewer is not enough and they are. -/
theorem blockCount_eq_succ_iff {size len n : ℕ} (hsize : 0 < size) :
    blockCount size len = n + 1 ↔ n * size < len ∧ len ≤ (n + 1) * size := by
  have hbelow := lt_blockCount_iff size len n hsize
  have hnext := lt_blockCount_iff size len (n + 1) hsize
  omega

/-- How many blocks there are if every `batch` letters are divided on their own. -/
def batchedCount (size batch len : ℕ) : ℕ :=
  len / batch * blockCount size batch + blockCount size (len % batch)

theorem batchedCount_of_lt {size batch len : ℕ} (h : len < batch) :
    batchedCount size batch len = blockCount size len := by
  rw [batchedCount, Nat.div_eq_of_lt h, Nat.mod_eq_of_lt h, Nat.zero_mul, Nat.zero_add]

theorem batchedCount_add {size batch : ℕ} (len : ℕ) (hbatch : 0 < batch) :
    batchedCount size batch (batch + len) =
      blockCount size batch + batchedCount size batch len := by
  rw [batchedCount, batchedCount, Nat.add_div_left len hbatch, Nat.add_mod_left]
  ring

/-- The last batch may be a full one. -/
theorem batchedCount_succ {size batch : ℕ} (len : ℕ) (hbatch : 0 < batch) :
    batchedCount size batch (len + 1) =
      len / batch * blockCount size batch + blockCount size (len % batch + 1) := by
  have hlast := Nat.mod_lt len hbatch
  have hsplit := Nat.div_add_mod len batch
  rcases Nat.lt_or_ge (len % batch + 1) batch with hpartial | hfull
  · have hdiv : (len + 1) / batch = len / batch := by
      rw [Nat.succ_div, if_neg]
      · rfl
      · intro hdvd
        have hzero := Nat.mod_eq_zero_of_dvd hdvd
        rw [Nat.add_mod, Nat.mod_eq_of_lt (by omega : 1 < batch),
          Nat.mod_eq_of_lt (by omega : len % batch + 1 < batch)] at hzero
        omega
    have hmod : (len + 1) % batch = len % batch + 1 := by
      rw [Nat.add_mod, Nat.mod_eq_of_lt (by omega : 1 < batch), Nat.mod_eq_of_lt hpartial]
    rw [batchedCount, hdiv, hmod]
  · have hdvd : len + 1 = (len / batch + 1) * batch := by
      rw [Nat.add_mul, Nat.mul_comm (len / batch) batch]
      omega
    have heq : len % batch + 1 = batch := by omega
    rw [batchedCount, heq, hdvd, Nat.mul_div_cancel _ hbatch, Nat.mul_mod_left, blockCount_zero]
    ring

/-- Batches of their own leave the number of blocks as it is exactly when what the batches
before the last leave open in their last blocks is less than the last block holds. -/
theorem batchedCount_eq_iff {size batch : ℕ} (len : ℕ) (hsize : 0 < size) (hbatch : 0 < batch) :
    batchedCount size batch (len + 1) = blockCount size (len + 1) ↔
      len / batch * (blockCount size batch * size - batch) ≤ len % batch % size := by
  have hcover := le_blockCount_mul size batch hsize
  have hsplit := Nat.div_add_mod len batch
  have hinner := Nat.div_add_mod (len % batch) size
  have hin := Nat.mod_lt (len % batch) hsize
  rw [batchedCount_succ len hbatch]
  have hlast : blockCount size (len % batch + 1) = len % batch / size + 1 := by
    rw [blockCount_eq_succ_iff hsize, Nat.add_mul, Nat.mul_comm (len % batch / size) size]
    omega
  rw [hlast, ← Nat.add_assoc, eq_comm, blockCount_eq_succ_iff hsize]
  obtain ⟨gap, hgap⟩ := Nat.exists_eq_add_of_le hcover
  rw [hgap, Nat.add_sub_cancel_left]
  have hfull : (len / batch * blockCount size batch + len % batch / size) * size =
      batch * (len / batch) + len / batch * gap + size * (len % batch / size) := by
    calc (len / batch * blockCount size batch + len % batch / size) * size
        = len / batch * (blockCount size batch * size) + size * (len % batch / size) := by ring
      _ = _ := by rw [hgap]; ring
  rw [Nat.add_mul _ 1, hfull]
  omega

end Dvrft.Chunks
