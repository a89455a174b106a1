import Dvrft.Errors
import Dvrft.Platform
import Dvrft.ShortReads
import Mathlib.Algebra.Order.Floor.Div

/-!
Acquisition: the source is read in batches of whole blocks, every batch is cut
into blocks, and each block goes into two whole-image digests and two digests of
its own. The result is that of the plain definition, which divides the content
into blocks without regard to batches or to how the source delivers its bytes.
-/

namespace Dvrft.Acquisition

open Chunks ShortReads StreamHash Errors Machine Platform

abbrev Bytes := List UInt8

abbrev Source := Reader UInt8 IoError

def defaultBlockSize : ℕ := 4096

def defaultBatchBlocks : ℕ := 64

structure StreamOptions where
  blockSize : ℕ
  batchSize : ℕ
  deriving DecidableEq, Repr

def StreamOptions.batchBlocks (options : StreamOptions) : ℕ :=
  if options.batchSize = 0 then defaultBatchBlocks else options.batchSize

structure AcquisitionResult where
  totalBytes : ℕ
  blockSize : ℕ
  blockCount : ℕ
  wholeImageSha256 : String
  wholeImageMd5 : String
  blockHashes : List String
  blockHashesMd5 : List String
  deriving DecidableEq, Repr

/-- What the outer loop carries from batch to batch. -/
structure Progress (X : Crates) where
  sha256 : X.sha256.State
  md5 : X.md5.State
  blockHashes : List String
  blockHashesMd5 : List String
  totalBytes : ℕ
  currentOffset : ℕ

def Progress.start (X : Crates) : Progress X := ⟨X.sha256.new, X.md5.new, [], [], 0, 0⟩

/-- Hash one batch: the whole-image digests block after block, then the blocks. -/
def Progress.addBatch {X : Crates} (p : Progress X) (blockSize : ℕ) (batch : Bytes) :
    Progress X :=
  let chunks := blocks blockSize batch
  { sha256 := chunks.foldl X.sha256.update p.sha256
    md5 := chunks.foldl X.md5.update p.md5
    blockHashes := p.blockHashes ++ chunks.map X.blake3Hex
    blockHashesMd5 := p.blockHashesMd5 ++ chunks.map X.md5Hex
    totalBytes := p.totalBytes + batch.length
    currentOffset := p.currentOffset + batch.length }

def streamLoop (X : Crates) (path : String) (blockSize batchCapacity : ℕ) :
    ℕ → Progress X → Source → Except AcquisitionError (Progress X)
  | 0, p, _ => .ok p
  | fuel + 1, p, source =>
    match source.readFull batchCapacity with
    | .error (e, bytesInBatch) => .error (.readError path (p.currentOffset + bytesInBatch) e)
    | .ok ([], _) => .ok p
    | .ok (b :: bs, source') =>
      let p' := p.addBatch blockSize (b :: bs)
      if (b :: bs).length < batchCapacity then .ok p'
      else streamLoop X path blockSize batchCapacity fuel p' source'

def Progress.result {X : Crates} (p : Progress X) (blockSize : ℕ) : AcquisitionResult where
  totalBytes := p.totalBytes
  blockSize := blockSize
  blockCount := p.blockHashes.length
  wholeImageSha256 := hexEncode (X.sha256.finalize p.sha256)
  wholeImageMd5 := hexEncode (X.md5.finalize p.md5)
  blockHashes := p.blockHashes
  blockHashesMd5 := p.blockHashesMd5

/-- The buffer of a whole batch is there before anything is read. Every full batch consumes
a byte, so a round more than there are bytes always reaches the end. -/
def streamAndHash (X : Crates) (path : String) (source : Source) (options : StreamOptions) :
    Outcome AcquisitionError AcquisitionResult :=
  if options.blockSize = 0 then fail (.invalidBlockSize 0)
  else do
    let batchCapacity ← X.build.mul options.batchBlocks options.blockSize
    X.allocate batchCapacity
    match streamLoop X path options.blockSize batchCapacity (source.rest.length + 1)
        (Progress.start X) source with
    | .error e => fail e
    | .ok p => .ok (p.result options.blockSize)

/-- The plain definition of what acquisition reports about a content. -/
def plainResult (X : Crates) (blockSize : ℕ) (content : Bytes) : AcquisitionResult where
  totalBytes := content.length
  blockSize := blockSize
  blockCount := blockCount blockSize content.length
  wholeImageSha256 := X.sha256Hex content
  wholeImageMd5 := X.md5Hex content
  blockHashes := (blocks blockSize content).map X.blake3Hex
  blockHashesMd5 := (blocks blockSize content).map X.md5Hex

/-- The loop state after `done` has been read, if `done` ends at a block boundary. -/
def progressOf (X : Crates) (blockSize : ℕ) (done : Bytes) : Progress X where
  sha256 := X.sha256.update X.sha256.new done
  md5 := X.md5.update X.md5.new done
  blockHashes := (blocks blockSize done).map X.blake3Hex
  blockHashesMd5 := (blocks blockSize done).map X.md5Hex
  totalBytes := done.length
  currentOffset := done.length

theorem progressOf_nil (X : Crates) (blockSize : ℕ) :
    progressOf X blockSize [] = Progress.start X := by
  simp [progressOf, Progress.start, X.sha256.update_nil, X.md5.update_nil]

/-- One batch takes the state of the bytes before it to the state of the bytes with it. -/
theorem addBatch_progressOf (X : Crates) (blockSize : ℕ) (done batch : Bytes)
    (hsize : 0 < blockSize) (hdvd : blockSize ∣ done.length) :
    (progressOf X blockSize done).addBatch blockSize batch =
      progressOf X blockSize (done ++ batch) := by
  simp only [Progress.addBatch, progressOf, Hasher.foldl_update,
    flatten_blocks blockSize batch hsize, X.sha256.update_append, X.md5.update_append,
    blocks_append blockSize done batch hsize hdvd, List.map_append, List.length_append]

theorem result_progressOf (X : Crates) (blockSize : ℕ) (content : Bytes) :
    (progressOf X blockSize content).result blockSize = plainResult X blockSize content := by
  simp [Progress.result, progressOf, plainResult, Crates.sha256Hex, Crates.md5Hex,
    Hasher.digest]

/-- The loop started at a block boundary ends in the state of the whole content,
unless a read fails. -/
theorem streamLoop_ok (X : Crates) (path : String) (blockSize batchCapacity fuel : ℕ)
    (done : Bytes) (source : Source) (p : Progress X) (hsize : 0 < blockSize)
    (hcap : 0 < batchCapacity) (hbatch : blockSize ∣ batchCapacity)
    (hdvd : blockSize ∣ done.length) (hfuel : source.rest.length < fuel)
    (h : streamLoop X path blockSize batchCapacity fuel (progressOf X blockSize done) source =
      .ok p) : p = progressOf X blockSize (done ++ source.rest) := by
  induction fuel generalizing done source with
  | zero => omega
  | succ fuel ih =>
    unfold streamLoop at h
    cases hread : source.readFull batchCapacity with
    | error e => simp [hread] at h
    | ok outcome =>
      obtain ⟨out, source'⟩ := outcome
      obtain ⟨hout, hrest, -⟩ := readFull_ok hread
      rw [hread] at h
      cases out with
      | nil =>
        have hnil : source.rest = [] := by
          rcases List.take_eq_nil_iff.mp hout.symm with hzero | hrest'
          · omega
          · exact hrest'
        simp only [Except.ok.injEq] at h
        rw [← h, hnil, List.append_nil]
      | cons b bs =>
        simp only [addBatch_progressOf X blockSize done _ hsize hdvd] at h
        have hlen : (b :: bs).length = min batchCapacity source.rest.length := by
          rw [hout, List.length_take]
        split_ifs at h with hpartial
        · -- a partial batch is the rest of the source
          have hall : b :: bs = source.rest := by
            rw [hout, List.take_of_length_le (by omega)]
          simp only [Except.ok.injEq] at h
          rw [← h, hall]
        · have hfull : (b :: bs).length = batchCapacity := by omega
          have hboundary : blockSize ∣ (done ++ b :: bs).length := by
            rw [List.length_append, hfull]
            exact Nat.dvd_add hdvd hbatch
          have hshort : source'.rest.length < fuel := by
            rw [hrest, List.length_drop]
            omega
          rw [ih (done ++ b :: bs) source' hboundary hshort h, hrest, hout,
            List.append_assoc, List.take_append_drop]

theorem streamLoop_legal (X : Crates) (path : String) (blockSize batchCapacity fuel : ℕ)
    (p : Progress X) (source : Source) (hlegal : Legal source.plan) :
    ∃ p', streamLoop X path blockSize batchCapacity fuel p source = .ok p' := by
  induction fuel generalizing p source with
  | zero => exact ⟨p, rfl⟩
  | succ fuel ih =>
    obtain ⟨source', hread, -, hlegal'⟩ := readFull_legal batchCapacity source hlegal
    unfold streamLoop
    rw [hread]
    cases source.rest.take batchCapacity with
    | nil => exact ⟨p, rfl⟩
    | cons b bs =>
      dsimp only
      split_ifs
      · exact ⟨_, rfl⟩
      · exact ih _ source' hlegal'

theorem batchBlocks_pos (options : StreamOptions) : 0 < options.batchBlocks := by
  unfold StreamOptions.batchBlocks defaultBatchBlocks
  split_ifs <;> omega

/-- Acquisition that reports a result reports the plain one. -/
theorem streamAndHash_ok {X : Crates} {path : String} {source : Source}
    {options : StreamOptions} {r : AcquisitionResult}
    (hfit : options.batchBlocks * options.blockSize < 2 ^ 64)
    (h : streamAndHash X path source options = .ok r) :
    0 < options.blockSize ∧ r = plainResult X options.blockSize source.rest := by
  unfold streamAndHash at h
  split_ifs at h with hzero
  · simp [fail] at h
  · have hsize : 0 < options.blockSize := by omega
    refine ⟨hsize, ?_⟩
    rw [Build.mul_of_lt X.build hfit, ok_bind, ← progressOf_nil X options.blockSize] at h
    obtain ⟨_, -, h⟩ := bind_ok.mp h
    cases hloop : streamLoop X path options.blockSize
        (options.batchBlocks * options.blockSize) (source.rest.length + 1)
        (progressOf X options.blockSize []) source with
    | error e => simp [hloop, fail] at h
    | ok p =>
      have hp := streamLoop_ok X path options.blockSize _ _ [] source p hsize
        (Nat.mul_pos (batchBlocks_pos options) hsize) (Nat.dvd_mul_left _ _) (by simp)
        (Nat.lt_succ_self _) hloop
      simp only [hloop, Except.ok.injEq] at h
      rw [← h, hp, List.nil_append, result_progressOf]

/-- Where the batch buffer can be had, a source that keeps delivering is acquired, and the
result is the plain one. -/
theorem streamAndHash_legal (X : Crates) (path : String) (source : Source)
    (options : StreamOptions) (hsize : 0 < options.blockSize)
    (hmemory : options.batchBlocks * options.blockSize ≤ X.memory) (hlegal : Legal source.plan) :
    streamAndHash X path source options = .ok (plainResult X options.blockSize source.rest) := by
  have hfit : options.batchBlocks * options.blockSize < 2 ^ 64 :=
    hmemory.trans_lt (X.memory_lt.trans (by decide))
  have hrun : ∃ r, streamAndHash X path source options = .ok r := by
    unfold streamAndHash
    rw [if_neg (by omega), Build.mul_of_lt X.build hfit, ok_bind, X.allocate_of_le hmemory,
      ok_bind]
    obtain ⟨p, hp⟩ := streamLoop_legal X path options.blockSize
      (options.batchBlocks * options.blockSize) (source.rest.length + 1)
      (Progress.start X) source hlegal
    exact ⟨p.result options.blockSize, by rw [hp]⟩
  obtain ⟨r, hr⟩ := hrun
  rw [hr, (streamAndHash_ok hfit hr).2]

/-- Streaming acquisition is its plain definition: every batch whose buffer can be had and
every way the source delivers its bytes gives the digests of the content and of its
blocks. -/
theorem streamAndHash_plain (X : Crates) (path : String) (content : Bytes)
    (plan : Schedule IoError) (options : StreamOptions) (hsize : 1 ≤ options.blockSize)
    (hmemory : options.batchBlocks * options.blockSize ≤ X.memory) (hlegal : Legal plan) :
    ∃ r, streamAndHash X path (.opened content plan) options = .ok r ∧
      r.totalBytes = content.length ∧
      r.blockCount = content.length ⌈/⌉ options.blockSize ∧
      r.blockHashes.length = r.blockCount ∧ r.blockHashesMd5.length = r.blockCount ∧
      (∀ i < r.blockCount,
        let block := content.extract (i * options.blockSize)
          (min ((i + 1) * options.blockSize) content.length)
        r.blockHashes[i]? = some (X.blake3Hex block) ∧
        r.blockHashesMd5[i]? = some (X.md5Hex block)) ∧
      r.wholeImageSha256 = X.sha256Hex content ∧ r.wholeImageMd5 = X.md5Hex content ∧
      ∀ (path' : String) (plan' : Schedule IoError) (batchSize' : ℕ), Legal plan' →
        (StreamOptions.mk options.blockSize batchSize').batchBlocks * options.blockSize ≤
          X.memory →
        streamAndHash X path' (.opened content plan') ⟨options.blockSize, batchSize'⟩ =
          .ok r := by
  refine ⟨plainResult X options.blockSize content, ?_, rfl, ?_, by simp [plainResult],
    by simp [plainResult], ?_, rfl, rfl, ?_⟩
  · exact streamAndHash_legal X path (.opened content plan) options hsize hmemory hlegal
  · rw [Nat.ceilDiv_eq_add_pred_div]
    rfl
  · intro i hi
    have hblock : content.extract (i * options.blockSize)
        (min ((i + 1) * options.blockSize) content.length) =
          blockAt options.blockSize content i := by
      rw [List.extract_eq_take_drop, blockAt, Nat.succ_mul]
      rcases Nat.le_total (i * options.blockSize + options.blockSize) content.length with
        hle | hge
      · rw [Nat.min_eq_left hle, Nat.add_sub_cancel_left]
      · rw [Nat.min_eq_right hge, List.take_of_length_le (by simp),
          List.take_of_length_le (by rw [List.length_drop]; omega)]
    simp only [hblock, plainResult, List.getElem?_map,
      getElem?_blocks options.blockSize content i hi, Option.map_some, and_self]
  · intro path' plan' batchSize' hlegal' hmemory'
    exact streamAndHash_legal X path' (.opened content plan') ⟨options.blockSize, batchSize'⟩
      hsize hmemory' hlegal'

theorem streamAndHash_plain_abc :
    ∃ r, streamAndHash .sample "evidence.raw" (.opened [97, 98, 99] (fun _ => .ok 1)) ⟨2, 1⟩ =
        .ok r ∧
      r.totalBytes = 3 ∧ r.blockCount = 2 ∧
      r.wholeImageMd5 = "900150983cd24fb0d6963f7d28e17f72" := by
  obtain ⟨r, hrun, htotal, hcount, -, -, -, -, hmd5, -⟩ :=
    streamAndHash_plain .sample "evidence.raw" [97, 98, 99] (fun _ => .ok 1) ⟨2, 1⟩
      (by decide) (by decide) (fun _ => ⟨1, rfl⟩)
  exact ⟨r, hrun, htotal, hcount.trans (by decide), hmd5.trans (by decide)⟩

/-- One block of 2^63 bytes fits 64 bits, and no allocator grants its buffer. -/
theorem streamAndHash_exhausted :
    1 ≤ (StreamOptions.mk (2 ^ 63) 1).blockSize ∧
    (StreamOptions.mk (2 ^ 63) 1).batchBlocks * (2 ^ 63) < 2 ^ 64 ∧ Legal (eager (ε := IoError)) ∧
    streamAndHash .sample "evidence.raw" (.opened [97, 98, 99] eager) ⟨2 ^ 63, 1⟩ = panicked :=
  ⟨by decide, by decide, eager_legal, rfl⟩

/-- `manifest.json`, without the identification that no reader of it uses. -/
structure AcquisitionManifest where
  caseName : String
  sourcePath : String
  totalBytes : ℕ
  wholeImageSha256 : String
  wholeImageMd5 : String
  blockSize : ℕ
  blockCount : ℕ
  blockHashes : List String
  blockHashesMd5 : List String
  acquisitionTimestamp : String
  deriving DecidableEq, Repr

def AcquisitionManifest.new (caseName sourcePath now : String) (result : AcquisitionResult) :
    AcquisitionManifest where
  caseName := caseName
  sourcePath := sourcePath
  totalBytes := result.totalBytes
  wholeImageSha256 := result.wholeImageSha256
  wholeImageMd5 := result.wholeImageMd5
  blockSize := result.blockSize
  blockCount := result.blockCount
  blockHashes := result.blockHashes
  blockHashesMd5 := result.blockHashesMd5
  acquisitionTimestamp := now

/-- Acquire an opened source; `now` is the clock at completion. -/
def acquireEvidence (X : Crates) (sourcePath caseName now : String) (source : Source)
    (blockSize : Option ℕ) : Outcome AcquisitionError AcquisitionManifest := do
  let result ← streamAndHash X sourcePath source
    ⟨blockSize.getD defaultBlockSize, defaultBatchBlocks⟩
  .ok (.new caseName sourcePath now result)

/-- The manifest of a content, by the plain definition. -/
def plainManifest (X : Crates) (sourcePath caseName now : String) (blockSize : ℕ)
    (content : Bytes) : AcquisitionManifest :=
  .new caseName sourcePath now (plainResult X blockSize content)

theorem acquireEvidence_ok {X : Crates} {sourcePath caseName now : String} {source : Source}
    {blockSize : ℕ} {m : AcquisitionManifest} (hfit : 64 * blockSize < 2 ^ 64)
    (h : acquireEvidence X sourcePath caseName now source (some blockSize) = .ok m) :
    0 < blockSize ∧ m = plainManifest X sourcePath caseName now blockSize source.rest := by
  obtain ⟨result, hrun, hm⟩ := bind_ok.mp h
  obtain ⟨hsize, hresult⟩ :=
    @streamAndHash_ok _ _ _ ⟨blockSize, defaultBatchBlocks⟩ _ hfit hrun
  simp only [Except.ok.injEq] at hm
  exact ⟨hsize, by rw [← hm, hresult]; rfl⟩

/-- A block buffer that fits in memory leaves room for the batch computation. -/
theorem batch_fits (X : Crates) {blockSize : ℕ} (h : blockSize ≤ X.memory) :
    64 * blockSize < 2 ^ 64 := by
  have hlt := X.memory_lt
  omega

/-- The manifest keeps the block size it was asked for. -/
theorem acquireEvidence_blockSize {X : Crates} {sourcePath caseName now : String}
    {source : Source} {blockSize : ℕ} {m : AcquisitionManifest}
    (h : acquireEvidence X sourcePath caseName now source (some blockSize) = .ok m) :
    m.blockSize = blockSize := by
  obtain ⟨result, hrun, hm⟩ := bind_ok.mp h
  unfold streamAndHash at hrun
  split_ifs at hrun with hzero
  · simp [fail] at hrun
  · obtain ⟨capacity, -, hrun⟩ := bind_ok.mp hrun
    obtain ⟨_, -, hrun⟩ := bind_ok.mp hrun
    split at hrun
    · simp [fail] at hrun
    · rw [← Except.ok.inj hm, ← Except.ok.inj hrun]
      rfl

theorem acquireEvidence_legal (X : Crates) (sourcePath caseName now : String) (source : Source)
    (blockSize : ℕ) (hsize : 0 < blockSize) (hmemory : 64 * blockSize ≤ X.memory)
    (hlegal : Legal source.plan) :
    acquireEvidence X sourcePath caseName now source (some blockSize) =
      .ok (plainManifest X sourcePath caseName now blockSize source.rest) := by
  unfold acquireEvidence
  rw [Option.getD_some, streamAndHash_legal X sourcePath source ⟨blockSize, defaultBatchBlocks⟩
    hsize hmemory hlegal]
  rfl

end Dvrft.Acquisition
