import Dvrft.Verify

/-!
What the verdict of the audit is worth. A pristine report means that the bytes
the manifest's block count covers are the acquired ones and that the database
raises no objection. Bytes after the last counted block are not read, and a
database that cannot be read raises no objection, so the verdict has exactly
these two gaps.
-/

namespace Dvrft.Verdict

open Chunks ShortReads StreamHash Errors Machine Platform Crates Sqlite Acquisition Interpreter
  Database CaseFiles Verify

/-- The row is readable and has the listed hash of its block. -/
def Agrees (hashes : List String) (row : ExtractedRow) : Prop :=
  ∃ r, row.read = .ok r ∧ hashes[r.blockIndex]? = some r.blake3Hash

/-- No database, one that cannot be read, or one whose rows all agree. -/
def DbSilent (db : DbFile) (hashes : List String) : Prop :=
  ∀ tables, db.tables = some tables → db.RecordsReadable tables →
    ∀ row ∈ tables.extractedRecords, Agrees hashes row

theorem compareRecord_eq_none (hashes : List String) (r : ExtractedRecord) :
    compareRecord hashes r = none ↔ hashes[r.blockIndex]? = some r.blake3Hash := by
  unfold compareRecord
  cases hashes[r.blockIndex]? with
  | none => simp
  | some diskHash =>
    by_cases heq : r.blake3Hash = diskHash
    · simp [heq]
    · simp [heq, Ne.symm heq]

theorem filterMap_compareRecord_eq_nil {db : CaseDatabase} {records : List ExtractedRecord}
    (hashes : List String) (h : db.queryAllRecords = .ok records) :
    records.filterMap (compareRecord hashes) = [] ↔
      ∀ row ∈ db.tables.extractedRecords, Agrees hashes row := by
  obtain ⟨hopen, hstep, hrows⟩ := CaseDatabase.queryAllRecords_ok.mp h
  simp only [List.filterMap_eq_nil_iff, compareRecord_eq_none]
  constructor
  · intro hall row hrow
    obtain ⟨r, hread⟩ := CaseDatabase.exists_read_of_forall₂ hrows row
      ((perm_orderBy _ _).mem_iff.mpr hrow)
    exact ⟨r, hread, hall r ((CaseDatabase.mem_queryAllRecords h r).mpr ⟨row, hrow, hread⟩)⟩
  · intro hall r hr
    obtain ⟨row, hrow, hread⟩ := (CaseDatabase.mem_queryAllRecords h r).mp hr
    obtain ⟨r', hread', hhash⟩ := hall row hrow
    rw [hread, Except.ok.injEq] at hread'
    rw [hread', hhash]

/-- What the cross-check does with a database that is there. -/
theorem crossCheck_some (dbPath : String) {db : DbFile} {tables : Tables}
    (htables : db.tables = some tables) (hashes : List String) :
    (crossCheck dbPath db hashes).1 = true ∧
      ((crossCheck dbPath db hashes).2 = [] ↔
        (db.RecordsReadable tables → ∀ row ∈ tables.extractedRecords, Agrees hashes row)) := by
  have hreadable := CaseDatabase.openFile_queryAllRecords_isOk dbPath htables
  unfold crossCheck
  rw [htables]
  dsimp only
  cases hopen : CaseDatabase.openFile dbPath db with
  | error e =>
    have hnot : ¬ db.RecordsReadable tables := by
      rw [← hreadable]
      simp [hopen]
    simp [hnot]
  | ok opened =>
    have htabs := CaseDatabase.tables_openFile htables hopen
    cases hquery : opened.queryAllRecords with
    | error e =>
      have hnot : ¬ db.RecordsReadable tables := by
        rw [← hreadable]
        simp [hopen, hquery]
      simp [hquery, hnot]
    | ok records =>
      have hyes : db.RecordsReadable tables := hreadable.mp ⟨opened, records, hopen, hquery⟩
      simp only [hquery, filterMap_compareRecord_eq_nil hashes hquery, htabs, hyes,
        forall_const, and_self]

theorem crossCheck_silent (dbPath : String) (db : DbFile) (hashes : List String) :
    (crossCheck dbPath db hashes).2 = [] ↔ DbSilent db hashes := by
  unfold DbSilent
  cases htables : db.tables with
  | none => simp [crossCheck, htables]
  | some tables => simpa using (crossCheck_some dbPath htables hashes).2

section Pristine

variable {X : Crates} {original : Bytes} {blockSize : ℕ} {sourcePath caseName acquiredAt : String}
  {acquisitionPlan : Schedule IoError} {manifest : AcquisitionManifest}

/-- What a pristine report on a plain manifest says. -/
theorem plainReport_isPristine (content : Bytes) (evidencePath dbPath now : String)
    (db : DbFile)
    (hm : manifest = plainManifest X sourcePath caseName acquiredAt blockSize original) :
    (plainReport X manifest evidencePath content dbPath db now).isPristine = true ↔
      X.sha256.digest (scanned manifest content) = X.sha256.digest original ∧
        X.md5.digest (scanned manifest content) = X.md5.digest original ∧
        (auditOf X manifest (scanned manifest content)).blockDiscrepancies = [] ∧
        DbSilent db ((blocks blockSize (scanned manifest content)).map X.blake3Hex) := by
  subst hm
  rw [← crossCheck_silent dbPath]
  simp only [plainReport, Audit.report, Bool.and_eq_true, List.isEmpty_iff, and_assoc]
  exact and_congr (eqIgnoreAsciiCase_hexEncode _ _)
    (and_congr (eqIgnoreAsciiCase_hexEncode _ _) Iff.rfl)

/-- The original raises no discrepancy against its own manifest. -/
theorem blockDiscrepancies_original
    (hm : manifest = plainManifest X sourcePath caseName acquiredAt blockSize original) :
    (auditOf X manifest original).blockDiscrepancies = [] := by
  subst hm
  apply List.filterMap_eq_nil_iff.mpr
  rintro ⟨block, i⟩ hmem
  have hblock : (blocks blockSize original)[i]? = some block :=
    List.mk_mem_zipIdx_iff_getElem?.mp hmem
  simp [blockDiscrepancy, plainManifest, AcquisitionManifest.new, plainResult, hblock]

/-- The covered bytes are the original exactly for the original itself and for
the extensions of an original that ends at a block boundary. -/
theorem scanned_eq_original_iff (content : Bytes) (hsize : 0 < blockSize)
    (hm : manifest = plainManifest X sourcePath caseName acquiredAt blockSize original) :
    scanned manifest content = original ↔
      content = original ∨ (blockSize ∣ original.length ∧ original <+: content) := by
  have hscan : scanned manifest content =
      content.take (blockCount blockSize original.length * blockSize) := by
    rw [hm]
    rfl
  have hcover := le_blockCount_mul blockSize original.length hsize
  rw [hscan]
  constructor
  · intro heq
    rcases Nat.le_total content.length (blockCount blockSize original.length * blockSize) with
      hshort | hlong
    · left
      rw [← heq, List.take_of_length_le hshort]
    · right
      have hlen := congrArg List.length heq
      rw [List.length_take, Nat.min_eq_left hlong] at hlen
      refine ⟨⟨blockCount blockSize original.length, by rw [Nat.mul_comm, hlen]⟩, ?_⟩
      rw [← heq]
      exact List.take_prefix _ _
  · rintro (rfl | ⟨hdvd, hbegins⟩)
    · exact List.take_of_length_le hcover
    · rw [blockCount_mul_of_dvd blockSize original.length hsize hdvd]
      exact (List.prefix_iff_eq_take.mp hbegins).symm

/-- The report on a case that was acquired, whatever was found in its place. -/
theorem report_of_holding {content : FileContent} {evidencePath dbPath now : String} {db : DbFile}
    {plan : Schedule IoError} {report : IntegrityReport}
    (h : verifyCaseIntegrity X (.holding manifest evidencePath content) dbPath db plan now =
      .ok report) :
    (manifest.blockSize ≤ X.memory ∧ 24 * manifest.blockCount ≤ X.memory) ∧
      report = plainReport X manifest evidencePath content.bytes dbPath db now := by
  obtain ⟨m, evidence, hmanifest, hevidence, hmemory, hreport⟩ := verifyCaseIntegrity_ok h
  obtain rfl := Except.ok.inj hmanifest
  obtain rfl := Except.ok.inj hevidence
  exact ⟨hmemory, hreport⟩

/-- The verdict is sound except on one kind of content: a proper extension of an
original that ends at a block boundary, when the buffers of the audit can be had and the
database raises no objection. -/
theorem isPristine_sound_iff (content : FileContent) (evidencePath dbPath : String) (db : DbFile)
    (hacquired : acquireEvidence X sourcePath caseName acquiredAt
      (.opened original acquisitionPlan) (some blockSize) = .ok manifest)
    (hinj : Set.InjOn X.sha256.digest {original, scanned manifest content.bytes}) :
    (∀ plan now report,
      verifyCaseIntegrity X (.holding manifest evidencePath content) dbPath db plan now =
        .ok report → report.isPristine = true → content.bytes = original) ↔
      ¬ ((blockSize ≤ X.memory ∧ 24 * blockCount blockSize original.length ≤ X.memory) ∧
        blockSize ∣ original.length ∧ original <+: content.bytes ∧ content.bytes ≠ original ∧
        DbSilent db ((blocks blockSize original).map X.blake3Hex)) := by
  have hblockSize := acquireEvidence_blockSize hacquired
  by_cases hmemory : blockSize ≤ X.memory
  · obtain ⟨hsize, hm⟩ := acquireEvidence_ok (batch_fits X hmemory) hacquired
    have hscan := scanned_eq_original_iff content.bytes hsize hm
    have hpristine := fun now =>
      plainReport_isPristine content.bytes evidencePath dbPath now db hm
    simp only [Reader.opened] at hm hscan hpristine
    have hcount : manifest.blockCount = blockCount blockSize original.length := by
      rw [hm]
      rfl
    constructor
    · rintro hsound ⟨⟨-, hhashes⟩, hdvd, hbegins, hne, hsilent⟩
      have hsame := hscan.mpr (.inr ⟨hdvd, hbegins⟩)
      have hrun := verifyCaseIntegrity_legal X manifest evidencePath content dbPath db eager ""
        ⟨hblockSize.trans_le hmemory, hcount ▸ hhashes⟩ eager_legal
      refine hne (hsound eager "" _ hrun ((hpristine "").mpr ?_))
      rw [hsame]
      exact ⟨rfl, rfl, blockDiscrepancies_original hm, hsilent⟩
    · intro hgap plan now report hrun hreport
      obtain ⟨hbuffers, hplain⟩ := report_of_holding hrun
      rw [hplain, hpristine] at hreport
      obtain ⟨hsha, -, -, hsilent⟩ := hreport
      have hsame : scanned manifest content.bytes = original := hinj (by simp) (by simp) hsha
      rcases hscan.mp hsame with heq | ⟨hdvd, hbegins⟩
      · exact heq
      · by_contra hne
        rw [hsame] at hsilent
        exact hgap ⟨⟨hmemory, hcount ▸ hbuffers.2⟩, hdvd, hbegins, hne, hsilent⟩
  · refine iff_of_true ?_ (fun h => hmemory h.1.1)
    intro plan now report hrun
    exact absurd (hblockSize.symm.trans_le (report_of_holding hrun).1.1) hmemory

theorem isPristine_sound_iff_ab :
    ∃ report,
      verifyCaseIntegrity .sample
        (.holding (plainManifest .sample "evidence.raw" "case" "" 2 [97, 98]) "evidence.raw"
          ⟨[97], by decide⟩) "case.db" .absent eager "" = .ok report ∧
      report.isPristine = false := by
  have hrun := verifyCaseIntegrity_legal .sample
    (plainManifest .sample "evidence.raw" "case" "" 2 [97, 98]) "evidence.raw" ⟨[97], by decide⟩
    "case.db" .absent eager "" (by decide) eager_legal
  have hsound := (isPristine_sound_iff ⟨[97], by decide⟩ "evidence.raw" "case.db" .absent
    (acquireEvidence_legal .sample "evidence.raw" "case" "" (.opened [97, 98] eager) 2
      (by decide) (by decide) eager_legal)
    (Set.injOn_pair.mpr (by decide +kernel))).mpr fun h => absurd h.2.2.1 (by decide)
  refine ⟨_, hrun, Bool.eq_false_iff.mpr fun hpristine => ?_⟩
  exact absurd (hsound eager "" _ hrun hpristine) (by decide)

/-- A byte after the last whole block goes unnoticed. -/
theorem extension_reported_pristine :
    Set.InjOn Crates.sample.sha256.digest {[97, 98], [97, 98, 99]} ∧
    Set.InjOn Crates.sample.md5.digest {[97, 98], [97, 98, 99]} ∧
    Set.InjOn Crates.sample.blake3 {[97, 98], [97, 98, 99]} ∧
    ∃ manifest report,
      acquireEvidence .sample "evidence.raw" "case" "" (.opened [97, 98] eager) (some 2) =
        .ok manifest ∧
      verifyCaseIntegrity .sample (.holding manifest "evidence.raw" ⟨[97, 98, 99], by decide⟩)
        "case.db" .absent eager "" = .ok report ∧
      report.isPristine = true ∧ ([97, 98, 99] : Bytes) ≠ [97, 98] := by
  refine ⟨Set.injOn_pair.mpr (by decide +kernel), Set.injOn_pair.mpr (by decide +kernel),
    Set.injOn_pair.mpr (by decide +kernel),
    plainManifest .sample "evidence.raw" "case" "" 2 [97, 98],
    plainReport .sample (plainManifest .sample "evidence.raw" "case" "" 2 [97, 98])
      "evidence.raw" [97, 98, 99] "case.db" .absent "", ?_, ?_, ?_, by decide⟩
  · exact acquireEvidence_legal .sample "evidence.raw" "case" "" (.opened [97, 98] eager) 2
      (by decide) (by decide) eager_legal
  · exact verifyCaseIntegrity_legal .sample _ "evidence.raw" ⟨[97, 98, 99], by decide⟩
      "case.db" .absent eager "" (by decide) eager_legal
  · have hscan : scanned (plainManifest .sample "evidence.raw" "case" "" 2 [97, 98])
        [97, 98, 99] = [97, 98] := rfl
    rw [plainReport_isPristine [97, 98, 99] "evidence.raw" "case.db" "" .absent rfl, hscan]
    exact ⟨rfl, rfl, blockDiscrepancies_original rfl, fun _ htables => nomatch htables⟩

end Pristine

section DatabaseAudit

variable {X : Crates} {manifest : AcquisitionManifest} {content : FileContent}
  {evidencePath dbPath now : String} {db : DbFile} {plan : Schedule IoError}
  {report : IntegrityReport}

theorem actualBlockHashes_scanned (X : Crates) (manifest : AcquisitionManifest)
    (content : Bytes) :
    (auditOf X manifest (scanned manifest content)).actualBlockHashes =
      ((blocks manifest.blockSize content).take manifest.blockCount).map X.blake3Hex := by
  rcases Nat.eq_zero_or_pos manifest.blockSize with hzero | hsize
  · simp [auditOf, hzero, blocks_zero]
  · rw [← blocks_take _ _ _ hsize]
    rfl

/-- A checked database without discrepancies was read and compared row by row
exactly when the database, if there is one, can be opened and read at all. -/
theorem dbChecked_sound_iff
    (hrun : verifyCaseIntegrity X (.holding manifest evidencePath content) dbPath db plan now =
      .ok report) :
    (report.dbChecked = true → report.dbRecordDiscrepancies = [] →
      ∃ opened records, CaseDatabase.openFile dbPath db = .ok opened ∧
        opened.queryAllRecords = .ok records ∧
        ∀ row ∈ opened.tables.extractedRecords, ∃ r ∈ records, row.read = .ok r ∧
          ∃ block, (blocks manifest.blockSize content.bytes)[r.blockIndex]? = some block ∧
            r.blake3Hash = X.blake3Hex block) ↔
      ∀ tables, db.tables = some tables → db.RecordsReadable tables := by
  obtain ⟨-, rfl⟩ := report_of_holding hrun
  have hhashes := actualBlockHashes_scanned X manifest content.bytes
  simp only [plainReport, Audit.report, hhashes]
  constructor
  · intro hsound tables htables
    obtain ⟨hchecked, hsilent⟩ := crossCheck_some dbPath htables
      (((blocks manifest.blockSize content.bytes).take manifest.blockCount).map X.blake3Hex)
    by_contra hnot
    obtain ⟨opened, records, hopen, hquery, -⟩ :=
      hsound hchecked (hsilent.mpr fun hreadable => absurd hreadable hnot)
    exact hnot ((CaseDatabase.openFile_queryAllRecords_isOk dbPath htables).mp
      ⟨opened, records, hopen, hquery⟩)
  · intro hreadable hchecked hnone
    cases htables : db.tables with
    | none => simp [crossCheck, htables] at hchecked
    | some tables =>
      have hyes := hreadable tables htables
      obtain ⟨opened, records, hopen, hquery⟩ :=
        (CaseDatabase.openFile_queryAllRecords_isOk dbPath htables).mpr hyes
      have hagree := (crossCheck_some dbPath htables _).2.mp hnone hyes
      refine ⟨opened, records, hopen, hquery, fun row hrow => ?_⟩
      rw [CaseDatabase.tables_openFile htables hopen] at hrow
      obtain ⟨r, hread, hhash⟩ := hagree row hrow
      refine ⟨r, (CaseDatabase.mem_queryAllRecords hquery r).mpr ⟨row, ?_, hread⟩, hread, ?_⟩
      · rwa [CaseDatabase.tables_openFile htables hopen]
      · rw [List.getElem?_map, Option.map_eq_some_iff] at hhash
        obtain ⟨block, hblock, heq⟩ := hhash
        refine ⟨block, ?_, heq.symm⟩
        rw [List.getElem?_take] at hblock
        split_ifs at hblock
        exact hblock

/-- Two records of a one-block image: one of another block's hash, and one whose block index
is a text. The text is no number, so a column of integers keeps it as it is. -/
def mistypedTables : Tables :=
  { Tables.empty with
    cases := [⟨1, "case"⟩]
    caseSequence := 1
    evidenceItems := [⟨1, 1, .text "synthetic-v1", .integer 1⟩]
    extractedRecords :=
      [.ofRecord 1 (plainRecord 0 0 0 1 false "video_frame" (Crates.sample.blake3Hex [98])),
        { ExtractedRow.ofRecord 1
            (plainRecord 0 0 0 1 false "video_frame" (Crates.sample.blake3Hex [97])) with
          blockIndex := .text "first" }] }

theorem dbChecked_sound_iff_mistyped :
    ∃ report,
      verifyCaseIntegrity .sample
        (.holding (plainManifest .sample "evidence.raw" "case" "" 1 [97]) "evidence.raw"
          ⟨[97], by decide⟩) "case.db" ⟨some mistypedTables, .sound⟩ eager "" = .ok report ∧
      ¬ (report.dbChecked = true → report.dbRecordDiscrepancies = [] →
        ∃ opened records,
          CaseDatabase.openFile "case.db" ⟨some mistypedTables, .sound⟩ = .ok opened ∧
          opened.queryAllRecords = .ok records ∧
          ∀ row ∈ opened.tables.extractedRecords, ∃ r ∈ records, row.read = .ok r ∧
            ∃ block, (blocks 1 [97])[r.blockIndex]? = some block ∧
              r.blake3Hash = Crates.sample.blake3Hex block) := by
  have hrun := verifyCaseIntegrity_legal .sample
    (plainManifest .sample "evidence.raw" "case" "" 1 [97]) "evidence.raw" ⟨[97], by decide⟩
    "case.db" ⟨some mistypedTables, .sound⟩ eager "" (by decide) eager_legal
  refine ⟨_, hrun, fun hsound => ?_⟩
  have htyped := ((dbChecked_sound_iff hrun).mp hsound mistypedTables rfl).typed
  exact absurd (htyped _ (List.mem_cons_of_mem _ (List.mem_singleton_self _))) (by decide)

/-- A record with the wrong hash is covered up by one with a mistyped cell. -/
theorem mistyped_row_hides_audit :
    ∃ report,
      verifyCaseIntegrity .sample
        (.holding (plainManifest .sample "evidence.raw" "case" "" 1 [97]) "evidence.raw"
          ⟨[97], by decide⟩) "case.db" ⟨some mistypedTables, .sound⟩ eager "" = .ok report ∧
      report.dbChecked = true ∧ report.dbRecordDiscrepancies = [] ∧
      ¬ ∃ opened records,
        CaseDatabase.openFile "case.db" ⟨some mistypedTables, .sound⟩ = .ok opened ∧
        opened.queryAllRecords = .ok records := by
  have hrun := verifyCaseIntegrity_legal .sample
    (plainManifest .sample "evidence.raw" "case" "" 1 [97]) "evidence.raw" ⟨[97], by decide⟩
    "case.db" ⟨some mistypedTables, .sound⟩ eager "" (by decide) eager_legal
  have hunreadable : ¬ DbFile.RecordsReadable ⟨some mistypedTables, .sound⟩ mistypedTables := by
    intro hreadable
    exact absurd (hreadable.typed _ (List.mem_cons_of_mem _ (List.mem_singleton_self _)))
      (by decide)
  obtain ⟨hchecked, hsilent⟩ := crossCheck_some "case.db"
    (show (DbFile.mk (some mistypedTables) .sound).tables = some mistypedTables from rfl)
    (auditOf .sample (plainManifest .sample "evidence.raw" "case" "" 1 [97])
      (scanned (plainManifest .sample "evidence.raw" "case" "" 1 [97]) [97])).actualBlockHashes
  refine ⟨_, hrun, hchecked, hsilent.mpr fun h => absurd h hunreadable, ?_⟩
  rwa [CaseDatabase.openFile_queryAllRecords_isOk _ rfl]

end DatabaseAudit

end Dvrft.Verdict
