import Dvrft.Verdict

/-!
Where the audit points. The blocks of the acquired content and those of the
content under audit stay aligned over the whole run, so the discrepancies name
the blocks that differ, in order and once each, and no others.
-/

namespace Dvrft.Localisation

open Chunks ShortReads Errors Machine Platform Crates Acquisition CaseFiles Database Verify

/-- The indices, among the blocks read, of the blocks that were altered. -/
def alteredBlocks (blockSize : ℕ) (original content : Bytes) : List ℕ :=
  (List.range (min (blockCount blockSize original.length)
    (blockCount blockSize content.length))).filter fun i =>
      blockAt blockSize content i ≠ blockAt blockSize original i

theorem mem_alteredBlocks (blockSize : ℕ) (original content : Bytes) (i : ℕ) :
    i ∈ alteredBlocks blockSize original content ↔
      i < blockCount blockSize original.length ∧ i < blockCount blockSize content.length ∧
        blockAt blockSize content i ≠ blockAt blockSize original i := by
  simp only [alteredBlocks, List.mem_filter, List.mem_range, decide_eq_true_eq, lt_min_iff,
    and_assoc]

theorem alteredBlocks_increasing (blockSize : ℕ) (original content : Bytes) :
    (alteredBlocks blockSize original content).Pairwise (· < ·) :=
  List.pairwise_lt_range.filter _

/-- The entry for an altered block. -/
def discrepancyAt (X : Crates) (blockSize : ℕ) (original content : Bytes) (i : ℕ) :
    BlockIntegrityDiscrepancy where
  blockIndex := i
  byteOffset := i * blockSize
  expectedHash := X.blake3Hex (blockAt blockSize original i)
  actualHash := X.blake3Hex (blockAt blockSize content i)

variable {X : Crates} {sourcePath caseName acquiredAt : String} {acquisitionPlan : Schedule IoError}
  {manifest : AcquisitionManifest} {original : Bytes}

/-- The manifest of an acquisition is the plain one, if its block buffer fits. -/
theorem manifest_plain {requested : Option ℕ}
    (hacquired : acquireEvidence X sourcePath caseName acquiredAt
      (.opened original acquisitionPlan) requested = .ok manifest)
    (hmemory : manifest.blockSize ≤ X.memory) :
    0 < manifest.blockSize ∧ manifest =
      plainManifest X sourcePath caseName acquiredAt manifest.blockSize original := by
  have hsome : ∃ blockSize, acquireEvidence X sourcePath caseName acquiredAt
      (.opened original acquisitionPlan) (some blockSize) = .ok manifest := by
    cases requested with
    | none => exact ⟨defaultBlockSize, hacquired⟩
    | some blockSize => exact ⟨blockSize, hacquired⟩
  obtain ⟨blockSize, h⟩ := hsome
  have hsize := acquireEvidence_blockSize h
  subst hsize
  exact acquireEvidence_ok (batch_fits X hmemory) h

/-- What the manifest has to say about one of the blocks read. -/
theorem blockDiscrepancy_plain (blockSize i : ℕ) (content : Bytes)
    (hi : i < blockCount blockSize original.length)
    (hinj : X.blake3 (blockAt blockSize content i) = X.blake3 (blockAt blockSize original i) →
      blockAt blockSize content i = blockAt blockSize original i) :
    blockDiscrepancy (plainManifest X sourcePath caseName acquiredAt blockSize original) i
        (i * blockSize) (X.blake3Hex (blockAt blockSize content i)) =
      if blockAt blockSize content i ≠ blockAt blockSize original i then
        some (discrepancyAt X blockSize original content i) else none := by
  have hlisted : (plainManifest X sourcePath caseName acquiredAt blockSize
      original).blockHashes[i]? = some (X.blake3Hex (blockAt blockSize original i)) := by
    simp [plainManifest, AcquisitionManifest.new, plainResult, getElem?_blocks _ _ _ hi]
  unfold blockDiscrepancy
  rw [hlisted]
  by_cases hsame : blockAt blockSize content i = blockAt blockSize original i
  · simp [hsame]
  · have hhash : X.blake3Hex (blockAt blockSize content i) ≠
        X.blake3Hex (blockAt blockSize original i) := by
      intro heq
      exact hsame (hinj ((X.blake3Hex_eq_iff _ _).mp heq))
    simp only [ne_eq, hsame, hhash, not_false_eq_true, if_true]
    rfl

/-- The blocks read, with their indices. -/
theorem zipIdx_take_blocks (blockSize n : ℕ) (content : Bytes) :
    ((blocks blockSize content).take n).zipIdx =
      (List.range (min n (blockCount blockSize content.length))).map fun i =>
        (blockAt blockSize content i, i) := by
  rw [blocks, ← List.map_take, List.take_range, List.zipIdx_map]
  apply List.ext_getElem
  · simp
  · intro i hi hi'
    simp

/-- The audit of a content lists the altered blocks. -/
theorem blockDiscrepancies_plain (blockSize : ℕ) (content : Bytes) (hsize : 0 < blockSize)
    (hinj : Set.InjOn X.blake3
      {block | block ∈ blocks blockSize original ∨ block ∈ blocks blockSize content}) :
    (auditOf X (plainManifest X sourcePath caseName acquiredAt blockSize original)
        (scanned (plainManifest X sourcePath caseName acquiredAt blockSize original)
          content)).blockDiscrepancies =
      (alteredBlocks blockSize original content).map
        (discrepancyAt X blockSize original content) := by
  have hread : blocks blockSize (scanned (plainManifest X sourcePath caseName acquiredAt blockSize
      original) content) =
        (blocks blockSize content).take (blockCount blockSize original.length) :=
    blocks_take blockSize _ content hsize
  have hentry : ∀ i, i < blockCount blockSize original.length →
      i < blockCount blockSize content.length →
      blockDiscrepancy (plainManifest X sourcePath caseName acquiredAt blockSize original) i
          (i * blockSize) (X.blake3Hex (blockAt blockSize content i)) =
        if blockAt blockSize content i ≠ blockAt blockSize original i then
          some (discrepancyAt X blockSize original content i) else none := by
    intro i hi hi'
    apply blockDiscrepancy_plain blockSize i content hi
    intro hhash
    exact hinj (.inr (List.mem_of_getElem? (getElem?_blocks _ _ _ hi')))
      (.inl (List.mem_of_getElem? (getElem?_blocks _ _ _ hi))) hhash
  calc (auditOf X (plainManifest X sourcePath caseName acquiredAt blockSize original)
        (scanned (plainManifest X sourcePath caseName acquiredAt blockSize original)
          content)).blockDiscrepancies
      = (List.range (min (blockCount blockSize original.length)
          (blockCount blockSize content.length))).filterMap fun i =>
            blockDiscrepancy (plainManifest X sourcePath caseName acquiredAt blockSize original) i
              (i * blockSize) (X.blake3Hex (blockAt blockSize content i)) := by
        change ((blocks blockSize (scanned _ content)).zipIdx.filterMap _) = _
        rw [hread, zipIdx_take_blocks, List.filterMap_map]
        rfl
    _ = (List.range (min (blockCount blockSize original.length)
          (blockCount blockSize content.length))).filterMap fun i =>
            if blockAt blockSize content i ≠ blockAt blockSize original i then
              some (discrepancyAt X blockSize original content i) else none := by
        apply List.filterMap_congr
        intro i hi
        rw [List.mem_range, lt_min_iff] at hi
        exact hentry i hi.1 hi.2
    _ = _ := by
        rw [alteredBlocks, ← List.filterMap_eq_filter, List.map_filterMap]
        apply List.filterMap_congr
        intro i _
        by_cases haltered : blockAt blockSize content i = blockAt blockSize original i <;>
          simp [Option.guard, haltered]

/-- The audit localises: the discrepancies of a verified content are its altered
blocks, in increasing order, once each, every one at its own offset. -/
theorem blockDiscrepancies_localise {requested : Option ℕ} {dir : CaseDir}
    {evidence : EvidenceFile} {dbPath now : String} {db : DbFile} {plan : Schedule IoError}
    {report : IntegrityReport}
    (hacquired : acquireEvidence X sourcePath caseName acquiredAt
      (.opened original acquisitionPlan) requested = .ok manifest)
    (hmanifest : dir.loadManifest = .ok manifest)
    (hevidence : dir.resolveEvidence manifest = .ok evidence)
    (hverified : verifyCaseIntegrity X dir dbPath db plan now = .ok report)
    (hinj : Set.InjOn X.blake3 {block | block ∈ blocks manifest.blockSize original ∨
      block ∈ blocks manifest.blockSize evidence.content.bytes}) :
    (report.blockDiscrepancies.map (·.blockIndex)).Pairwise (· < ·) ∧
      (∀ d ∈ report.blockDiscrepancies, d.byteOffset = d.blockIndex * manifest.blockSize) ∧
      ∀ i, i ∈ report.blockDiscrepancies.map (·.blockIndex) ↔
        i < min manifest.blockCount (blocks manifest.blockSize evidence.content.bytes).length ∧
          (blocks manifest.blockSize evidence.content.bytes)[i]? ≠
            (blocks manifest.blockSize original)[i]? := by
  obtain ⟨m, e, hm, he, hmemory, hreport⟩ := verifyCaseIntegrity_ok hverified
  obtain rfl := Except.ok.inj (hmanifest.symm.trans hm)
  obtain rfl := Except.ok.inj (hevidence.symm.trans he)
  obtain ⟨hsize, hplain⟩ := manifest_plain hacquired hmemory.1
  have hcount : manifest.blockCount = blockCount manifest.blockSize original.length := by
    rw [hplain]
    rfl
  have hlisted : report.blockDiscrepancies =
      (alteredBlocks manifest.blockSize original evidence.content.bytes).map
        (discrepancyAt X manifest.blockSize original evidence.content.bytes) := by
    have hlist := @blockDiscrepancies_plain X sourcePath caseName acquiredAt original
      manifest.blockSize evidence.content.bytes hsize hinj
    rw [← hplain] at hlist
    rw [← hlist, hreport]
    rfl
  have hindices : report.blockDiscrepancies.map (·.blockIndex) =
      alteredBlocks manifest.blockSize original evidence.content.bytes := by
    rw [hlisted, List.map_map]
    exact List.map_id _
  refine ⟨?_, ?_, ?_⟩
  · rw [hindices]
    exact alteredBlocks_increasing _ _ _
  · intro d hd
    rw [hlisted, List.mem_map] at hd
    obtain ⟨i, -, rfl⟩ := hd
    rfl
  · intro i
    rw [hindices, mem_alteredBlocks, hcount, length_blocks, lt_min_iff, and_assoc]
    apply and_congr_right
    intro hi
    apply and_congr_right
    intro hi'
    rw [getElem?_blocks _ _ _ hi, getElem?_blocks _ _ _ hi', ne_eq, ne_eq, Option.some.injEq]

theorem blockDiscrepancies_localise_ac :
    ∃ report,
      verifyCaseIntegrity .sample
        (.holding (plainManifest .sample "evidence.raw" "case" "" 1 [97, 98]) "evidence.raw"
          ⟨[97, 99, 98], by decide⟩) "case.db" .absent eager "" = .ok report ∧
      1 ∈ report.blockDiscrepancies.map (·.blockIndex) ∧
      0 ∉ report.blockDiscrepancies.map (·.blockIndex) := by
  have hrun := verifyCaseIntegrity_legal .sample
    (plainManifest .sample "evidence.raw" "case" "" 1 [97, 98]) "evidence.raw"
    ⟨[97, 99, 98], by decide⟩ "case.db" .absent eager "" (by decide) eager_legal
  have hinj : Set.InjOn Crates.sample.blake3
      {block | block ∈ blocks 1 [97, 98] ∨ block ∈ blocks 1 [97, 99, 98]} := by
    have hblocks : ∀ a ∈ blocks 1 [97, 98] ++ blocks 1 [97, 99, 98],
        ∀ b ∈ blocks 1 [97, 98] ++ blocks 1 [97, 99, 98],
          Crates.sample.blake3 a = Crates.sample.blake3 b → a = b := by decide +kernel
    intro a ha b hb
    exact hblocks a (List.mem_append.mpr ha) b (List.mem_append.mpr hb)
  obtain ⟨-, -, hmem⟩ := blockDiscrepancies_localise
    (acquireEvidence_legal .sample "evidence.raw" "case" "" (.opened [97, 98] eager) 1
      (by decide) (by decide) eager_legal) (CaseDir.loadManifest_holding _ _ _)
    (CaseDir.resolveEvidence_holding _ _ _ _) hrun hinj
  exact ⟨_, hrun, (hmem 1).mpr (by decide), fun h => absurd ((hmem 0).mp h) (by decide)⟩

end Dvrft.Localisation
