import Dvrft.Reporting
import Dvrft.Verdict

/-!
The integrity section of the certificate. The report calls every case pristine and
names the digest of the first block as that of the image; so the section is true
only of an image of one block that is still there and that the database agrees with.
-/

namespace Dvrft.Certificate

open Chunks ShortReads StreamHash Errors Machine Platform Crates Acquisition Database CaseFiles
  Verify Verdict Reporting

variable {X : Crates} {original : Bytes} {blockSize : ℕ} {sourcePath caseName acquiredAt : String}
  {acquisitionPlan : Schedule IoError} {manifest : AcquisitionManifest} {content : FileContent}
  {evidencePath dbPath outDir now : String} {db : DbFile} {examiner : ExaminerDetails}
  {out : OutputIo} {plans : ℕ → Schedule IoError} {outcome : CaseReportOutcome}
  {clips : List Clip}

/-- The integrity section is true: the case is called pristine only where the audit
would call it so, and the digests are those of the whole image. -/
structure Truthful (X : Crates) (original : Bytes) (dir : CaseDir) (dbPath : String)
    (db : DbFile) (report : ComprehensiveForensicReport) : Prop where
  pristine : report.isPristine = true → ∀ plan now, Legal plan →
    ∃ audit, verifyCaseIntegrity X dir dbPath db plan now = .ok audit ∧ audit.isPristine = true
  md5 : report.md5Hash = X.md5Hex original
  sha256 : report.sha256Hash = X.sha256Hex original
  blake3 : report.blake3Hash = X.blake3Hex original

/-- The digest of the first block is that of the image exactly when there is one
block and no more. -/
theorem firstHash_eq_iff (hsize : 0 < blockSize)
    (hinj : Set.InjOn X.blake3 {original, original.take blockSize}) :
    (((blocks blockSize original).map X.blake3Hex).head?.getD "" = X.blake3Hex original) ↔
      0 < original.length ∧ original.length ≤ blockSize := by
  rcases List.eq_nil_or_concat original with rfl | ⟨_, _, hne⟩
  · simpa using (X.blake3Hex_ne_empty []).symm
  · have hnonempty : original ≠ [] := by simp [hne]
    have hpos : 0 < original.length := List.length_pos_iff.mpr hnonempty
    rw [blocks_step blockSize original hsize hnonempty]
    simp only [List.map_cons, List.head?_cons, Option.getD_some, blake3Hex_eq_iff, hpos, true_and]
    constructor
    · intro heq
      have htake : original.take blockSize = original := hinj (by simp) (by simp) heq
      rw [← htake, List.length_take]
      exact Nat.min_le_left _ _
    · intro hle
      rw [List.take_of_length_le hle]

/-- The integrity section is true exactly for an image of one block that fits in
memory, is still there, and is what the database holds. -/
theorem truthful_iff
    (hacquired : acquireEvidence X sourcePath caseName acquiredAt
      (.opened original acquisitionPlan) (some blockSize) = .ok manifest)
    (hsha : Set.InjOn X.sha256.digest {original, scanned manifest content.bytes})
    (hblake : Set.InjOn X.blake3 {original, original.take blockSize})
    (hreport : generateCaseReport X (.holding manifest evidencePath content) dbPath db examiner
      outDir out plans now = .ok (outcome, clips)) :
    Truthful X original (.holding manifest evidencePath content) dbPath db outcome.report ↔
      blockSize ≤ X.memory ∧ 0 < original.length ∧ original.length ≤ blockSize ∧
        content.bytes.take blockSize = original ∧ DbSilent db [X.blake3Hex original] := by
  have hblockSize := acquireEvidence_blockSize hacquired
  obtain ⟨m, opened, artifacts, hmanifest, -, -, -, hpristine, hmd5, hsha256, hfirst, -⟩ :=
    generateCaseReport_ok hreport
  obtain rfl : manifest = m := by simpa [CaseDir.holding] using hmanifest
  by_cases hmemory : blockSize ≤ X.memory
  · obtain ⟨hsize, hm⟩ := acquireEvidence_ok (batch_fits X hmemory) hacquired
    simp only [Reader.opened] at hm
    have hhash := firstHash_eq_iff hsize hblake
    rw [show (blocks blockSize original).map X.blake3Hex = manifest.blockHashes by rw [hm]; rfl,
      ← hfirst] at hhash
    have hcount : 0 < original.length ∧ original.length ≤ blockSize →
        manifest.blockCount = 1 := by
      rintro ⟨hpos, hle⟩
      have hblocks := blocks_of_length_le blockSize _ (List.length_pos_iff.mp hpos) hle
      rw [hm]
      exact (length_blocks blockSize original).symm.trans (congrArg List.length hblocks)
    have hscan : 0 < original.length ∧ original.length ≤ blockSize →
        scanned manifest content.bytes = content.bytes.take blockSize := by
      intro hshort
      rw [scanned, hcount hshort, hblockSize, Nat.one_mul]
    have hverdict := fun now =>
      plainReport_isPristine content.bytes evidencePath dbPath now db hm
    constructor
    · intro htruth
      obtain ⟨audit, hrun, haudit⟩ := htruth.pristine hpristine eager "" eager_legal
      have hone := hhash.mp htruth.blake3
      rw [(report_of_holding hrun).2, hverdict] at haudit
      obtain ⟨hdigest, -, -, hsilent⟩ := haudit
      have hsame : scanned manifest content.bytes = original := hsha (by simp) (by simp) hdigest
      rw [hsame, blocks_of_length_le _ _ (List.length_pos_iff.mp hone.1) hone.2] at hsilent
      exact ⟨hmemory, hone.1, hone.2, (hscan hone).symm.trans hsame, hsilent⟩
    · rintro ⟨-, hpos, hle, htake, hsilent⟩
      have hsame := (hscan ⟨hpos, hle⟩).trans htake
      have hone : manifest.blockCount = 1 := hcount ⟨hpos, hle⟩
      have hbuffers : manifest.blockSize ≤ X.memory ∧ 24 * manifest.blockCount ≤ X.memory := by
        have hleast := X.memory_ge
        omega
      refine ⟨fun _ plan now hlegal => ⟨_, verifyCaseIntegrity_legal X manifest evidencePath content
        dbPath db plan now hbuffers hlegal, (hverdict now).mpr ?_⟩, ?_, ?_,
        hhash.mpr ⟨hpos, hle⟩⟩
      · rw [hsame, blocks_of_length_le _ _ (List.length_pos_iff.mp hpos) hle]
        exact ⟨rfl, rfl, blockDiscrepancies_original hm, hsilent⟩
      · rw [hmd5, hm]
        rfl
      · rw [hsha256, hm]
        rfl
  · refine iff_of_false (fun htruth => ?_) fun h => hmemory h.1
    obtain ⟨audit, hrun, -⟩ := htruth.pristine hpristine eager "" eager_legal
    exact hmemory (hblockSize ▸ (report_of_holding hrun).1.1)

theorem truthful_iff_ab :
    ∃ outcome clips,
      generateCaseReport .sample
        (.holding (plainManifest .sample "evidence.raw" "case" "" 2 [97, 98]) "evidence.raw"
          ⟨[97, 98], by decide⟩) "case.db" .absent ⟨"", "", "", "", ""⟩ "reports" .sound
        (fun _ => eager) "" = .ok (outcome, clips) ∧
      Truthful .sample [97, 98]
        (.holding (plainManifest .sample "evidence.raw" "case" "" 2 [97, 98]) "evidence.raw"
          ⟨[97, 98], by decide⟩) "case.db" .absent outcome.report := by
  obtain ⟨outcome, clips, hreport⟩ := generateCaseReport_absent .sample
    (plainManifest .sample "evidence.raw" "case" "" 2 [97, 98]) "evidence.raw"
    ⟨[97, 98], by decide⟩ "case.db" ⟨"", "", "", "", ""⟩ "reports" (fun _ => eager) ""
  have hacquired := acquireEvidence_legal .sample "evidence.raw" "case" ""
    (.opened [97, 98] eager) 2 (by decide) (by decide) eager_legal
  refine ⟨outcome, clips, hreport, (truthful_iff hacquired
    (Set.injOn_pair.mpr (by decide +kernel)) (Set.injOn_pair.mpr (by decide +kernel))
    hreport).mpr ⟨by decide, by decide, by decide, rfl, ?_⟩⟩
  exact fun _ htables => nomatch htables

/-- A truncated image of two blocks is certified as pristine, under the digest of
its first block. -/
theorem truncated_image_certified :
    Set.InjOn Crates.sample.sha256.digest {[97], [97, 98]} ∧
    Set.InjOn Crates.sample.md5.digest {[97], [97, 98]} ∧
    Set.InjOn Crates.sample.blake3 {[97], [97, 98]} ∧
    ∃ manifest outcome clips audit,
      acquireEvidence .sample "evidence.raw" "case" "" (.opened [97, 98] eager) (some 1) =
        .ok manifest ∧
      generateCaseReport .sample (.holding manifest "evidence.raw" ⟨[97], by decide⟩) "case.db"
        .absent ⟨"", "", "", "", ""⟩ "reports" .sound (fun _ => eager) "" = .ok (outcome, clips) ∧
      verifyCaseIntegrity .sample (.holding manifest "evidence.raw" ⟨[97], by decide⟩) "case.db"
        .absent eager "" = .ok audit ∧
      outcome.report.isPristine = true ∧ audit.isPristine = false ∧
      outcome.report.blake3Hash ≠ Crates.sample.blake3Hex [97, 98] := by
  obtain ⟨outcome, clips, hreport⟩ := generateCaseReport_absent .sample
    (plainManifest .sample "evidence.raw" "case" "" 1 [97, 98]) "evidence.raw"
    ⟨[97], by decide⟩ "case.db" ⟨"", "", "", "", ""⟩ "reports" (fun _ => eager) ""
  obtain ⟨m, opened, artifacts, hmanifest, -, -, -, hpristine, -, -, hfirst, -⟩ :=
    generateCaseReport_ok hreport
  obtain rfl := ManifestFile.decoded.inj hmanifest
  have hrun := verifyCaseIntegrity_legal .sample
    (plainManifest .sample "evidence.raw" "case" "" 1 [97, 98]) "evidence.raw" ⟨[97], by decide⟩
    "case.db" .absent eager "" (by decide) eager_legal
  refine ⟨Set.injOn_pair.mpr (by decide +kernel), Set.injOn_pair.mpr (by decide +kernel),
    Set.injOn_pair.mpr (by decide +kernel), _, outcome, clips, _, ?_, hreport, hrun, hpristine,
    ?_, ?_⟩
  · exact acquireEvidence_legal .sample "evidence.raw" "case" "" (.opened [97, 98] eager) 1
      (by decide) (by decide) eager_legal
  · rw [Bool.eq_false_iff, Ne, plainReport_isPristine [97] "evidence.raw" "case.db" "" .absent rfl]
    exact fun h => absurd h.1 (by decide +kernel)
  · rw [hfirst]
    exact (blake3Hex_eq_iff .sample [97] [97, 98]).not.mpr (by decide +kernel)

end Dvrft.Certificate
