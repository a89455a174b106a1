import Dvrft.Verify

/-!
The number of matched blocks in an audit's report. The audit counts mismatches and
takes them off the manifest's count, so a block that the evidence lacks and a block
that the manifest has no hash for pass as matched.
-/

namespace Dvrft.MatchedBlocks

open Chunks ShortReads Errors Machine Platform Acquisition Database CaseFiles Verify

/-- The evidence has a block `i`, the manifest a hash for it, and it is the block's. -/
def BlockMatches (X : Crates) (manifest : AcquisitionManifest) (content : Bytes) (i : ℕ) : Prop :=
  ∃ block expected, (blocks manifest.blockSize content)[i]? = some block ∧
    manifest.blockHashes[i]? = some expected ∧ X.blake3Hex block = expected

instance (X : Crates) (manifest : AcquisitionManifest) (content : Bytes) (i : ℕ) :
    Decidable (BlockMatches X manifest content i) :=
  decidable_of_iff (∃ block ∈ (blocks manifest.blockSize content)[i]?.toList,
      manifest.blockHashes[i]? = some (X.blake3Hex block)) <| by
    simp [BlockMatches]

/-- Block `i` cannot be compared. -/
def BlockUnchecked (manifest : AcquisitionManifest) (content : Bytes) (i : ℕ) : Prop :=
  (blocks manifest.blockSize content).length ≤ i ∨ manifest.blockHashes.length ≤ i

instance (manifest : AcquisitionManifest) (content : Bytes) (i : ℕ) :
    Decidable (BlockUnchecked manifest content i) :=
  inferInstanceAs (Decidable (_ ∨ _))

/-- The indices below the manifest's count whose blocks match. -/
def matchingBlocks (X : Crates) (manifest : AcquisitionManifest) (content : Bytes) : List ℕ :=
  (List.range manifest.blockCount).filter (BlockMatches X manifest content)

def uncheckedBlocks (manifest : AcquisitionManifest) (content : Bytes) : List ℕ :=
  (List.range manifest.blockCount).filter (BlockUnchecked manifest content)

theorem uncheckedBlocks_eq_nil_iff (manifest : AcquisitionManifest) (content : Bytes) :
    uncheckedBlocks manifest content = [] ↔
      manifest.blockCount ≤ (blocks manifest.blockSize content).length ∧
        manifest.blockCount ≤ manifest.blockHashes.length := by
  rw [uncheckedBlocks, List.filter_eq_nil_iff]
  constructor
  · intro h
    rcases Nat.eq_zero_or_pos manifest.blockCount with hzero | hpos
    · omega
    · -- the last index decides
      have hlast := h (manifest.blockCount - 1) (List.mem_range.mpr (by omega))
      rw [decide_eq_true_eq, BlockUnchecked] at hlast
      omega
  · intro h i hi
    have hlt := List.mem_range.mp hi
    rw [decide_eq_true_eq, BlockUnchecked]
    omega

theorem BlockMatches.checked {X : Crates} {manifest : AcquisitionManifest} {content : Bytes}
    {i : ℕ} (h : BlockMatches X manifest content i) : ¬ BlockUnchecked manifest content i := by
  obtain ⟨block, expected, hblock, hexpected, -⟩ := h
  have hin := (List.getElem?_eq_some_iff.mp hblock).1
  have hlisted := (List.getElem?_eq_some_iff.mp hexpected).1
  unfold BlockUnchecked
  omega

/-- Where both the block and its hash are there, the comparison decides. -/
theorem blockMatches_iff {X : Crates} {manifest : AcquisitionManifest} {content : Bytes} {i : ℕ}
    {block : Bytes} {expected : String}
    (hblock : (blocks manifest.blockSize content)[i]? = some block)
    (hexpected : manifest.blockHashes[i]? = some expected) :
    BlockMatches X manifest content i ↔ X.blake3Hex block = expected := by
  constructor
  · intro h
    obtain ⟨_, _, hsome, hlist, hsame⟩ := h
    rw [Option.some.inj (hblock.symm.trans hsome), Option.some.inj (hexpected.symm.trans hlist)]
    exact hsame
  · intro hsame
    exact ⟨block, expected, hblock, hexpected, hsame⟩

/-- A block matches, or contradicts the manifest, or cannot be compared. -/
theorem discrepancy_trichotomy (X : Crates) (manifest : AcquisitionManifest) (content : Bytes)
    (i byteOffset : ℕ) :
    ((blocks manifest.blockSize content)[i]?.bind fun block =>
        blockDiscrepancy manifest i byteOffset (X.blake3Hex block)).toList.length +
      ([i].filter (BlockMatches X manifest content)).length +
      ([i].filter (BlockUnchecked manifest content)).length = 1 := by
  cases hblock : (blocks manifest.blockSize content)[i]? with
  | none =>
    have hunchecked : BlockUnchecked manifest content i :=
      .inl (List.getElem?_eq_none_iff.mp hblock)
    have hnot : ¬ BlockMatches X manifest content i := fun h => h.checked hunchecked
    simp [hnot, hunchecked]
  | some block =>
    rw [Option.bind_some, blockDiscrepancy]
    cases hexpected : manifest.blockHashes[i]? with
    | none =>
      have hunchecked : BlockUnchecked manifest content i :=
        .inr (List.getElem?_eq_none_iff.mp hexpected)
      have hnot : ¬ BlockMatches X manifest content i := fun h => h.checked hunchecked
      simp [hnot, hunchecked]
    | some expected =>
      have hin := (List.getElem?_eq_some_iff.mp hblock).1
      have hlisted := (List.getElem?_eq_some_iff.mp hexpected).1
      have hchecked : ¬ BlockUnchecked manifest content i := by
        unfold BlockUnchecked
        omega
      have hmatches := blockMatches_iff (X := X) hblock hexpected
      by_cases hsame : X.blake3Hex block = expected
      · simp [hchecked, hmatches, hsame]
      · simp [hchecked, hmatches, hsame]

/-- Discrepancies, matches and blocks that cannot be compared are all the blocks. -/
theorem length_blockDiscrepancies_add (X : Crates) (manifest : AcquisitionManifest)
    (content : Bytes) (n : ℕ) :
    (((blocks manifest.blockSize content).take n).zipIdx.filterMap fun (block, i) =>
        blockDiscrepancy manifest i (i * manifest.blockSize) (X.blake3Hex block)).length +
      ((List.range n).filter (BlockMatches X manifest content)).length +
      ((List.range n).filter (BlockUnchecked manifest content)).length = n := by
  induction n with
  | zero => rfl
  | succ n ih =>
    have hone := discrepancy_trichotomy X manifest content n (n * manifest.blockSize)
    have hnext : (((blocks manifest.blockSize content)[n]?.toList.zipIdx
          ((blocks manifest.blockSize content).take n).length).filterMap fun (block, i) =>
        blockDiscrepancy manifest i (i * manifest.blockSize) (X.blake3Hex block)) =
      ((blocks manifest.blockSize content)[n]?.bind fun block =>
        blockDiscrepancy manifest n (n * manifest.blockSize) (X.blake3Hex block)).toList := by
      cases hblock : (blocks manifest.blockSize content)[n]? with
      | none => rfl
      | some block =>
        have hin := (List.getElem?_eq_some_iff.mp hblock).1
        rw [List.length_take, Nat.min_eq_left (by omega), Option.toList_some, Option.bind_some,
          List.zipIdx_singleton, List.filterMap_cons]
        dsimp only
        cases blockDiscrepancy manifest n (n * manifest.blockSize) (X.blake3Hex block) <;> rfl
    rw [List.take_add_one, List.zipIdx_append, List.filterMap_append, Nat.zero_add, hnext,
      List.range_succ, List.filter_append, List.filter_append, List.length_append,
      List.length_append, List.length_append]
    omega

/-- What the audit calls matched: the blocks that match, and those it cannot compare. -/
theorem plainReport_matchedBlocks (X : Crates) (manifest : AcquisitionManifest)
    (evidencePath : String) (content : Bytes) (dbPath : String) (db : DbFile) (now : String) :
    (plainReport X manifest evidencePath content dbPath db now).matchedBlocks =
      (matchingBlocks X manifest content).length + (uncheckedBlocks manifest content).length := by
  have hscanned : blocks manifest.blockSize (scanned manifest content) =
      (blocks manifest.blockSize content).take manifest.blockCount := by
    rcases Nat.eq_zero_or_pos manifest.blockSize with hzero | hsize
    · rw [hzero, blocks_zero, blocks_zero, List.take_nil]
    · exact blocks_take _ _ _ hsize
  have hall : (auditOf X manifest (scanned manifest content)).blockDiscrepancies.length +
      (matchingBlocks X manifest content).length + (uncheckedBlocks manifest content).length =
        manifest.blockCount := by
    rw [auditOf, hscanned]
    exact length_blockDiscrepancies_add X manifest content manifest.blockCount
  have hcount : (plainReport X manifest evidencePath content dbPath db now).matchedBlocks =
      manifest.blockCount -
        (auditOf X manifest (scanned manifest content)).blockDiscrepancies.length := rfl
  omega

/-- The count is that of the real matches exactly when the evidence has every block
that the manifest counts and the manifest has a hash for each. -/
theorem matchedBlocks_eq_iff {X : Crates} {dir : CaseDir} {dbPath : String} {db : DbFile}
    {plan : Schedule IoError} {now : String} {report : IntegrityReport}
    (h : verifyCaseIntegrity X dir dbPath db plan now = .ok report) :
    ∃ manifest evidence, dir.loadManifest = .ok manifest ∧
      dir.resolveEvidence manifest = .ok evidence ∧
      (report.matchedBlocks = (matchingBlocks X manifest evidence.content.bytes).length ↔
        manifest.blockCount ≤ (blocks manifest.blockSize evidence.content.bytes).length ∧
          manifest.blockCount ≤ manifest.blockHashes.length) := by
  obtain ⟨manifest, evidence, hmanifest, hevidence, -, rfl⟩ := verifyCaseIntegrity_ok h
  refine ⟨manifest, evidence, hmanifest, hevidence, ?_⟩
  rw [plainReport_matchedBlocks, ← uncheckedBlocks_eq_nil_iff, ← List.length_eq_zero_iff]
  omega

/-- Two blocks on the manifest, the second one altered since. -/
theorem matchedBlocks_altered :
    ∃ report, verifyCaseIntegrity .sample
        (.holding (plainManifest .sample "evidence.raw" "case" "" 1 [97, 98]) "evidence.raw"
          ⟨[97, 99], by decide⟩) "case.db" .absent eager "" = .ok report ∧
      ∃ manifest evidence, (CaseDir.holding (plainManifest .sample "evidence.raw" "case" "" 1
          [97, 98]) "evidence.raw" ⟨[97, 99], by decide⟩).loadManifest = .ok manifest ∧
        (CaseDir.holding (plainManifest .sample "evidence.raw" "case" "" 1 [97, 98])
          "evidence.raw" ⟨[97, 99], by decide⟩).resolveEvidence manifest = .ok evidence ∧
        (report.matchedBlocks =
            (matchingBlocks .sample manifest evidence.content.bytes).length ↔
          manifest.blockCount ≤ (blocks manifest.blockSize evidence.content.bytes).length ∧
            manifest.blockCount ≤ manifest.blockHashes.length) := by
  have hrun := verifyCaseIntegrity_legal .sample
    (plainManifest .sample "evidence.raw" "case" "" 1 [97, 98]) "evidence.raw"
    ⟨[97, 99], by decide⟩ "case.db" .absent eager "" (by decide) eager_legal
  exact ⟨_, hrun, matchedBlocks_eq_iff hrun⟩

/-- The evidence is empty, and its one block counts as matched. -/
theorem matchedBlocks_truncated :
    ∃ report, verifyCaseIntegrity .sample
        (.holding (plainManifest .sample "evidence.raw" "case" "" 1 [97]) "evidence.raw"
          ⟨[], by decide⟩) "case.db" .absent eager "" = .ok report ∧
      report.matchedBlocks ≠
        (matchingBlocks .sample (plainManifest .sample "evidence.raw" "case" "" 1 [97]) []).length :=
    by
  have hrun := verifyCaseIntegrity_legal .sample
    (plainManifest .sample "evidence.raw" "case" "" 1 [97]) "evidence.raw" ⟨[], by decide⟩
    "case.db" .absent eager "" (by decide) eager_legal
  refine ⟨_, hrun, ?_⟩
  rw [plainReport_matchedBlocks]
  decide

end Dvrft.MatchedBlocks
