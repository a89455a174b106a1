import Dvrft.Acquisition
import Dvrft.CaseFiles

/-!
What acquisition covers when the size of a batch leaves 64 bits. The buffer is the
product of two sizes that nobody bounds; without overflow checks it is the product
modulo 2^64, which may be nothing at all or end in the middle of a block.
-/

namespace Dvrft.BatchSizes

open Chunks ShortReads Errors Machine Platform Acquisition CaseFiles

/-- The buffer's size in a build without overflow checks. -/
def batchCapacity (options : StreamOptions) : ℕ := options.batchBlocks * options.blockSize % 2 ^ 64

theorem release_mul (a b : ℕ) :
    (Build.release.mul a b : Outcome AcquisitionError ℕ) = .ok (a * b % 2 ^ 64) := by
  unfold Build.mul Build.fit
  split_ifs with hfits
  · rw [Nat.mod_eq_of_lt hfits]
  · rfl

/-- A loop over batches counts every byte, and the blocks of each batch on their own. -/
theorem streamLoop_counts {X : Crates} {path : String} {blockSize capacity fuel : ℕ}
    {source : Source} {p p' : Progress X} (hcapacity : 0 < capacity)
    (hfuel : source.rest.length < fuel)
    (h : streamLoop X path blockSize capacity fuel p source = .ok p') :
    p'.totalBytes = p.totalBytes + source.rest.length ∧
      p'.blockHashes.length =
        p.blockHashes.length + batchedCount blockSize capacity source.rest.length := by
  induction fuel generalizing p source with
  | zero => omega
  | succ fuel ih =>
    unfold streamLoop at h
    cases hread : source.readFull capacity with
    | error e => simp [hread] at h
    | ok outcome =>
      obtain ⟨out, source'⟩ := outcome
      obtain ⟨hout, hrest, -⟩ := readFull_ok hread
      have hlen : out.length = min capacity source.rest.length := by
        rw [hout, List.length_take]
      rw [hread] at h
      cases out with
      | nil =>
        have hnil : source.rest.length = 0 := by
          rw [List.length_nil] at hlen
          omega
        rw [← Except.ok.inj h, hnil, batchedCount_of_lt hcapacity, blockCount_zero]
        exact ⟨rfl, rfl⟩
      | cons b bs =>
        have hadded : (p.addBatch blockSize (b :: bs)).totalBytes =
            p.totalBytes + (b :: bs).length := rfl
        have hhashed : (p.addBatch blockSize (b :: bs)).blockHashes.length =
            p.blockHashes.length + blockCount blockSize (b :: bs).length := by
          rw [Progress.addBatch, List.length_append, List.length_map, length_blocks]
        dsimp only at h
        split_ifs at h with hpartial
        · -- a partial batch is all there is
          have hall : (b :: bs).length = source.rest.length := by omega
          rw [← Except.ok.inj h, hadded, hhashed, hall, batchedCount_of_lt (by omega)]
          exact ⟨rfl, rfl⟩
        · have hfull : (b :: bs).length = capacity := by omega
          have hleft : source.rest.length = capacity + source'.rest.length := by
            rw [hrest, List.length_drop]
            omega
          obtain ⟨htotal, hcount⟩ := ih (by omega) h
          rw [htotal, hcount, hadded, hhashed, hfull, hleft, batchedCount_add _ hcapacity]
          constructor
          · omega
          · omega

/-- Without a buffer nothing is read. -/
theorem streamLoop_empty {X : Crates} {path : String} {blockSize fuel : ℕ} {source : Source}
    {p : Progress X} : streamLoop X path blockSize 0 fuel p source = .ok p := by
  cases fuel with
  | zero => rfl
  | succ fuel => rfl

variable {X : Crates} {path : String} {source : Source} {options : StreamOptions}

/-- The bytes and the blocks that a result counts. -/
theorem streamAndHash_counts {r : AcquisitionResult}
    (h : streamAndHash (X.inBuild .release) path source options = .ok r) :
    0 < options.blockSize ∧ batchCapacity options ≤ X.memory ∧
      (batchCapacity options = 0 → r.totalBytes = 0 ∧ r.blockCount = 0) ∧
      (0 < batchCapacity options → r.totalBytes = source.rest.length ∧
        r.blockCount =
          batchedCount options.blockSize (batchCapacity options) source.rest.length) := by
  have hmul : ((X.inBuild .release).build.mul options.batchBlocks options.blockSize :
      Outcome AcquisitionError ℕ) = .ok (batchCapacity options) := release_mul _ _
  unfold streamAndHash at h
  split_ifs at h with hzero
  · simp [fail] at h
  · rw [hmul, ok_bind] at h
    obtain ⟨u, hmemory, h⟩ := bind_ok.mp h
    refine ⟨by omega, Crates.allocate_ok.mp hmemory, ?_⟩
    cases hloop : streamLoop (X.inBuild .release) path options.blockSize (batchCapacity options)
        (source.rest.length + 1) (.start (X.inBuild .release)) source with
    | error e => simp [hloop, fail] at h
    | ok p =>
      simp only [hloop, Except.ok.injEq] at h
      rw [← h]
      constructor
      · intro hempty
        rw [hempty, streamLoop_empty] at hloop
        rw [← Except.ok.inj hloop]
        exact ⟨rfl, rfl⟩
      · intro hpos
        obtain ⟨htotal, hcount⟩ := streamLoop_counts hpos (Nat.lt_succ_self _) hloop
        exact ⟨htotal.trans (Nat.zero_add _), hcount.trans (Nat.zero_add _)⟩

/-- Where the buffer can be had, a source that keeps delivering has a result. -/
theorem streamAndHash_release (hsize : 0 < options.blockSize)
    (hmemory : batchCapacity options ≤ X.memory) (hlegal : Legal source.plan) :
    ∃ r, streamAndHash (X.inBuild .release) path source options = .ok r := by
  have hmul : ((X.inBuild .release).build.mul options.batchBlocks options.blockSize :
      Outcome AcquisitionError ℕ) = .ok (batchCapacity options) := release_mul _ _
  obtain ⟨p, hp⟩ := streamLoop_legal (X.inBuild .release) path options.blockSize
    (batchCapacity options) (source.rest.length + 1) (.start (X.inBuild .release)) source hlegal
  refine ⟨p.result options.blockSize, ?_⟩
  unfold streamAndHash
  rw [if_neg (by omega), hmul, ok_bind, Crates.allocate_of_le (X.inBuild .release) hmemory,
    ok_bind, hp]

/-- A result that covers the whole source in blocks of the size that was asked for. -/
def CoversSource (content : Bytes) (options : StreamOptions) (r : AcquisitionResult) : Prop :=
  r.totalBytes = content.length ∧ r.blockCount = r.totalBytes ⌈/⌉ options.blockSize

/-- There is a buffer, and what the full batches leave open in their last blocks, as far as
another batch follows, is less than the last block of the source holds. -/
def BatchesCover (options : StreamOptions) (len : ℕ) : Prop :=
  len = 0 ∨ (0 < batchCapacity options ∧
    (len - 1) / batchCapacity options *
        (blockCount options.blockSize (batchCapacity options) * options.blockSize -
          batchCapacity options) ≤
      (len - 1) % batchCapacity options % options.blockSize)

theorem batchedCount_covers_iff {size capacity len : ℕ} (hsize : 0 < size)
    (hcapacity : 0 < capacity) :
    batchedCount size capacity len = len ⌈/⌉ size ↔
      len = 0 ∨ (len - 1) / capacity * (blockCount size capacity * size - capacity) ≤
        (len - 1) % capacity % size := by
  have hceil : len ⌈/⌉ size = blockCount size len := Nat.ceilDiv_eq_add_pred_div len size
  rw [hceil]
  cases len with
  | zero => exact iff_of_true (batchedCount_of_lt hcapacity) (.inl rfl)
  | succ len =>
    rw [batchedCount_eq_iff len hsize hcapacity, Nat.add_sub_cancel]
    exact ⟨.inr, fun h => h.resolve_left (Nat.succ_ne_zero len)⟩

/-- Every result covers its source exactly when the batches do, for sizes that are not
rejected and a buffer that can be had. -/
theorem acquisition_covers_iff (X : Crates) (path : String) (content : FileContent)
    (options : StreamOptions) :
    (∀ plan r, streamAndHash (X.inBuild .release) path (.opened content.bytes plan)
        options = .ok r → CoversSource content.bytes options r) ↔
      (0 < options.blockSize → batchCapacity options ≤ X.memory →
        BatchesCover options content.bytes.length) := by
  constructor
  · intro h hsize hmemory
    have hends : ∃ r, streamAndHash (X.inBuild .release) path
        (.opened content.bytes eager) options = .ok r :=
      streamAndHash_release hsize hmemory eager_legal
    obtain ⟨r, hr⟩ := hends
    obtain ⟨htotal, hcount⟩ := h eager r hr
    obtain ⟨-, -, hempty, hbatches⟩ := streamAndHash_counts hr
    rcases Nat.eq_zero_or_pos (batchCapacity options) with hzero | hpos
    · exact .inl (htotal.symm.trans (hempty hzero).1)
    · rw [htotal, (hbatches hpos).2] at hcount
      exact ((batchedCount_covers_iff hsize hpos).mp hcount).imp_right fun hle => ⟨hpos, hle⟩
  · intro h plan r hr
    obtain ⟨hsize, hmemory, hempty, hbatches⟩ := streamAndHash_counts hr
    unfold CoversSource
    rcases Nat.eq_zero_or_pos (batchCapacity options) with hzero | hpos
    · have hnone : content.bytes.length = 0 := by
        rcases h hsize hmemory with hnone | ⟨hpos, -⟩
        · exact hnone
        · omega
      obtain ⟨htotal, hcount⟩ := hempty hzero
      rw [htotal, hcount, hnone]
      exact ⟨rfl, (zero_ceilDiv _).symm⟩
    · obtain ⟨htotal, hcount⟩ := hbatches hpos
      refine ⟨htotal, ?_⟩
      rw [hcount, htotal]
      exact (batchedCount_covers_iff hsize hpos).mpr
        ((h hsize hmemory).imp_right fun hcover => hcover.2)

/-- A product that fits 64 bits covers every source. -/
theorem batchesCover_of_fits (hsize : 0 < options.blockSize)
    (hfit : options.batchBlocks * options.blockSize < 2 ^ 64) (len : ℕ) :
    BatchesCover options len := by
  have hcapacity : batchCapacity options = options.batchBlocks * options.blockSize :=
    Nat.mod_eq_of_lt hfit
  refine .inr ⟨?_, ?_⟩
  · rw [hcapacity]
    exact Nat.mul_pos (batchBlocks_pos options) hsize
  · rw [hcapacity, blockCount_mul_of_dvd _ _ hsize (Nat.dvd_mul_left _ _), Nat.sub_self,
      Nat.mul_zero]
    exact Nat.zero_le _

/-- 64 blocks of 2^58 bytes are 2^64 bytes, and the buffer is empty. -/
theorem acquisition_reads_nothing :
    ∃ r, streamAndHash (Crates.sample.inBuild .release) "evidence.raw"
        (.opened [97] eager) ⟨2 ^ 58, 0⟩ = .ok r ∧ r.totalBytes = 0 ∧ r.blockCount = 0 :=
  ⟨_, rfl, rfl, rfl⟩

end Dvrft.BatchSizes
