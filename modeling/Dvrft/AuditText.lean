import Dvrft.Verify
import Dvrft.ZoneTexts

/-!
The audit on the terminal. The manifest is the word of whoever had the case last:
its hashes are any texts and its counts need not agree. The audit itself computes
with it without leaving its ranges; the text of the report cuts twelve bytes off
each hash that did not match.
-/

namespace Dvrft.AuditText

open Chunks ShortReads StreamHash Gregorian Errors Machine Platform Crates Acquisition Database
  CaseFiles Timestamps Verify

/-- A round of the loop, with the sums that it forms for the next one. -/
def addBlockChecked {X : Crates} (manifest : AcquisitionManifest) (a : Audit X)
    (blockIndex : ℕ) (slice : Bytes) : Outcome ParserError (Audit X) := do
  let currentOffset ← X.build.add a.currentOffset slice.length
  let _ ← X.build.add blockIndex 1
  .ok { a.addBlock manifest blockIndex slice with currentOffset := currentOffset }

/-- The audit with its sums. -/
def verifyCaseIntegrityChecked (X : Crates) (dir : CaseDir) (dbPath : String) (db : DbFile)
    (plan : Schedule IoError) (now : String) : Outcome ParserError IntegrityReport := do
  let manifest ← dir.loadManifest
  let evidence ← dir.resolveEvidence manifest
  let source ← evidence.source plan
  X.allocate manifest.blockSize
  X.allocate (24 * manifest.blockCount)
  let audit ← forBlocks manifest.blockSize (fun e => .error (.io e)) (addBlockChecked manifest)
    manifest.blockCount 0 (.start X) source
  .ok (audit.report manifest evidence.path dbPath db now)

/-- What is read is part of a file, so neither an offset nor an index leaves its range. -/
theorem addBlockChecked_eq {X : Crates} (manifest : AcquisitionManifest) {a : Audit X}
    {blockIndex : ℕ} {slice rest : Bytes} (hslice : slice ≠ [])
    (h : a.currentOffset + (slice ++ rest).length < 2 ^ 63 ∧ blockIndex ≤ a.currentOffset) :
    addBlockChecked manifest a blockIndex slice = .ok (a.addBlock manifest blockIndex slice) := by
  have hpos := List.length_pos_iff.mpr hslice
  rw [List.length_append] at h
  unfold addBlockChecked
  rw [X.build.add_of_lt (by omega), ok_bind, X.build.add_of_lt (by omega), ok_bind]
  rfl

/-- No sum leaves its range, so the audit with its sums is the audit. -/
theorem verifyCaseIntegrityChecked_eq (X : Crates) (dir : CaseDir) (dbPath : String)
    (db : DbFile) (plan : Schedule IoError) (now : String) :
    verifyCaseIntegrityChecked X dir dbPath db plan now =
      verifyCaseIntegrity X dir dbPath db plan now := by
  unfold verifyCaseIntegrityChecked verifyCaseIntegrity
  cases hmanifest : dir.loadManifest with
  | error failure => rfl
  | ok manifest =>
    rw [ok_bind, ok_bind]
    cases hevidence : dir.resolveEvidence manifest with
    | error failure => rfl
    | ok evidence =>
      rw [ok_bind, ok_bind]
      cases hsource : evidence.source plan with
      | error failure => rfl
      | ok source =>
        rw [ok_bind, ok_bind]
        have hloop : forBlocks manifest.blockSize (fun e => Failure.error (ParserError.io e))
            (addBlockChecked manifest) manifest.blockCount 0 (.start X) source =
              forBlocks manifest.blockSize (fun e => .error (.io e))
                (fun (a : Audit X) blockIndex slice => .ok (a.addBlock manifest blockIndex slice))
                manifest.blockCount 0 (.start X) source := by
          apply forBlocks_congr (fun blockIndex (a : Audit X) rest =>
            a.currentOffset + rest.length < 2 ^ 63 ∧ blockIndex ≤ a.currentOffset)
          · intro blockIndex a slice rest hslice hin
            exact addBlockChecked_eq manifest hslice hin
          · intro blockIndex a a' slice rest hslice hin hstep
            rw [addBlockChecked_eq manifest hslice hin] at hstep
            have hpos := List.length_pos_iff.mpr hslice
            rw [← Except.ok.inj hstep, Audit.addBlock]
            rw [List.length_append] at hin
            dsimp only
            omega
          · rw [source_ok hsource]
            have hsize := evidence.content.size_lt
            exact ⟨by simpa [Audit.start, Reader.opened] using hsize, Nat.le_refl 0⟩
        rw [hloop]

theorem loadManifest_ne_panicked (dir : CaseDir) : dir.loadManifest ≠ panicked := by
  unfold CaseDir.loadManifest
  cases dir.manifest with
  | missing => exact fail_ne_panicked _
  | unreadable reason => exact fail_ne_panicked _
  | decoded manifest => exact ok_ne_panicked manifest

theorem resolveEvidence_ne_panicked (dir : CaseDir) (manifest : AcquisitionManifest) :
    dir.resolveEvidence manifest ≠ panicked := by
  unfold CaseDir.resolveEvidence
  cases dir.resolve manifest.sourcePath with
  | none => exact fail_ne_panicked _
  | some file => exact ok_ne_panicked file

theorem source_ne_panicked (evidence : EvidenceFile) (plan : Schedule IoError) :
    evidence.source plan ≠ panicked := by
  unfold EvidenceFile.source
  cases evidence.openReadOnly with
  | error e => exact fail_ne_panicked _
  | ok u => exact ok_ne_panicked _

theorem verifyCaseIntegrity_ne_panicked (X : Crates) (dir : CaseDir) (dbPath : String)
    (db : DbFile) (plan : Schedule IoError) (now : String)
    (hmemory : ∀ manifest, dir.loadManifest = .ok manifest →
      manifest.blockSize ≤ X.memory ∧ 24 * manifest.blockCount ≤ X.memory) :
    verifyCaseIntegrity X dir dbPath db plan now ≠ panicked := by
  refine bind_ne_panicked_iff.mpr ⟨loadManifest_ne_panicked dir, ?_⟩
  intro manifest hmanifest
  refine bind_ne_panicked_iff.mpr ⟨resolveEvidence_ne_panicked dir manifest, ?_⟩
  intro evidence _
  refine bind_ne_panicked_iff.mpr ⟨source_ne_panicked evidence plan, ?_⟩
  intro source _
  obtain ⟨hbuffer, hhashes⟩ := hmemory manifest hmanifest
  rw [X.allocate_of_le hbuffer, ok_bind, X.allocate_of_le hhashes, ok_bind]
  refine bind_ne_panicked_iff.mpr ⟨?_, fun audit _ => ok_ne_panicked _⟩
  intro hpanic
  rcases forBlocks_error hpanic with ⟨e, he⟩ | ⟨a, blockIndex, slice, hstep⟩
  · exact absurd he (by simp)
  · exact absurd hstep (by simp)

/-- A report is the plain one on an evidence that can be opened. -/
theorem verifyCaseIntegrity_reads {X : Crates} {dir : CaseDir} {dbPath : String} {db : DbFile}
    {plan : Schedule IoError} {now : String} {report : IntegrityReport}
    (h : verifyCaseIntegrity X dir dbPath db plan now = .ok report) :
    ∃ manifest evidence, dir.loadManifest = .ok manifest ∧
      dir.resolveEvidence manifest = .ok evidence ∧ evidence.refusal = none ∧
      report = plainReport X manifest evidence.path evidence.content.bytes dbPath db now := by
  obtain ⟨manifest, evidence, hmanifest, hevidence, -, hreport⟩ := verifyCaseIntegrity_ok h
  unfold verifyCaseIntegrity at h
  rw [hmanifest, ok_bind, hevidence, ok_bind] at h
  obtain ⟨source, hsource, -⟩ := bind_ok.mp h
  exact ⟨manifest, evidence, hmanifest, hevidence, refusal_of_source hsource, hreport⟩

/-- `format!("{:.1}", x)`: to the nearest tenth, a tie to the even one. -/
def oneDecimal (x : Float) : String :=
  let bits := x.toBits.toNat
  let sign := if 2 ^ 63 ≤ bits then "-" else ""
  let exponent := bits / 2 ^ 52 % 2 ^ 11
  let fraction := bits % 2 ^ 52
  if exponent = 2047 then if fraction = 0 then sign ++ "inf" else "NaN"
  else
    -- the magnitude is `digits / 2 ^ 1074`
    let digits := if exponent = 0 then fraction else (fraction + 2 ^ 52) * 2 ^ (exponent - 1)
    let whole := 10 * digits / 2 ^ 1074
    let rest := 10 * digits % 2 ^ 1074
    let roundsUp := 2 ^ 1074 < 2 * rest ∨ (2 * rest = 2 ^ 1074 ∧ whole % 2 = 1)
    let tenths := if roundsUp then whole + 1 else whole
    sign ++ toString (tenths / 10) ++ "." ++ toString (tenths % 10)

/-- The share of the matched blocks; it is no number where there are none. -/
def matchedPercent (report : IntegrityReport) : String :=
  oneDecimal ((UInt64.ofNat report.matchedBlocks).toFloat /
    (UInt64.ofNat report.totalBlocks).toFloat * 100.0)

def matchWord (found : Bool) : String := if found then "MATCH" else "TAMPERED / MISMATCH"

def doubleRule : String := String.ofList (List.replicate 60 '=')

def singleRule : String := String.ofList (List.replicate 60 '-')

/-- The lines in front of the verdict. -/
def summaryLines (report : IntegrityReport) : List String :=
  let name := report.caseName
  let path := report.evidencePath
  let time := report.auditTimestamp
  let sha256 := report.actualSha256
  let sha256Word := matchWord report.wholeImageSha256Match
  let md5 := report.actualMd5
  let md5Word := matchWord report.wholeImageMd5Match
  let matched := report.matchedBlocks
  let total := report.totalBlocks
  let percent := matchedPercent report
  let issues := report.dbRecordDiscrepancies.length
  [doubleRule, " DVR Forensics Platform (Team Cyber 4) - Forensic Integrity Audit", doubleRule,
    s!"Case Identifier : {name}", s!"Evidence Path   : {path}", s!"Audit Timestamp : {time}",
    singleRule, s!"Whole Image SHA-256 : {sha256} [{sha256Word}]",
    s!"Whole Image MD5     : {md5} [{md5Word}]",
    s!"Per-Block BLAKE3    : {matched} / {total} matched ({percent}%)"] ++
  (if report.dbChecked then [s!"Case DB Cross-Check : {issues} discrepancy(ies)"] else []) ++
  [singleRule]

/-- The line of a block that did not match: the first twelve bytes of both hashes. -/
def discrepancyLine (d : BlockIntegrityDiscrepancy) : Outcome ParserError String := do
  let (expected, _) ← splitAtByte d.expectedHash.toList 12
  let (actual, _) ← splitAtByte d.actualHash.toList 12
  .ok ("  * Block " ++ String.ofList (padded 4 d.blockIndex) ++ " (Byte Offset " ++
    toString d.byteOffset ++ "): Expected " ++ String.ofList expected ++ "... Actual " ++
    String.ofList actual ++ "...")

def dbDiscrepancyLine (d : DbRecordDiscrepancy) : String :=
  "  * DB Block " ++ String.ofList (padded 4 d.blockIndex) ++ " (Byte Offset " ++
    toString d.byteOffset ++ "): " ++ d.issue

def verdictLines (report : IntegrityReport) : Outcome ParserError (List String) :=
  if report.isPristine then .ok ["OVERALL STATUS      : [OK] PRISTINE / UNTAMPERED EVIDENCE"]
  else do
    let lines ← report.blockDiscrepancies.mapM discrepancyLine
    .ok ("OVERALL STATUS      : [!] INTEGRITY ALERT - EVIDENCE ALTERED" :: lines ++
      report.dbRecordDiscrepancies.map dbDiscrepancyLine)

/-- What the command prints about a report. -/
def verifyText (report : IntegrityReport) : Outcome ParserError (List String) := do
  let verdict ← verdictLines report
  .ok (summaryLines report ++ verdict ++ [singleRule])

/-- `run_verify` without the option for JSON. -/
def runVerify (X : Crates) (dir : CaseDir) (dbPath : String) (db : DbFile)
    (plan : Schedule IoError) (now : String) : Outcome ParserError (List String) := do
  let report ← verifyCaseIntegrityChecked X dir dbPath db plan now
  verifyText report

/-- The first twelve bytes of a text are a text. -/
def Cuttable (text : String) : Prop := ∃ a b, text.toList = a ++ b ∧ utf8Length a = 12

theorem utf8Size_hexDigit {n : ℕ} (hn : n < 16) : (hexDigit n).utf8Size = 1 := by
  have hall : ∀ n < 16, (hexDigit n).utf8Size = 1 := by decide
  exact hall n hn

theorem utf8Length_hexEncode (bytes : List UInt8) :
    utf8Length (bytes.flatMap fun b => [hexDigit (b.toNat / 16), hexDigit (b.toNat % 16)]) =
      2 * bytes.length := by
  induction bytes with
  | nil => rfl
  | cons b rest ih =>
    have hb := b.toNat_lt
    have hhigh := @utf8Size_hexDigit (b.toNat / 16) (by omega)
    have hlow := @utf8Size_hexDigit (b.toNat % 16) (by omega)
    rw [List.flatMap_cons, ZoneTexts.utf8Length_append, ih, List.length_cons]
    simp only [utf8Length, List.map_cons, List.map_nil, List.sum_cons, List.sum_nil, hhigh, hlow]
    omega

/-- A hash that was computed can be cut. -/
theorem cuttable_blake3Hex (X : Crates) (block : Bytes) : Cuttable (X.blake3Hex block) := by
  refine ⟨(((X.blake3 block).take 6).flatMap fun b =>
      [hexDigit (b.toNat / 16), hexDigit (b.toNat % 16)]),
    (((X.blake3 block).drop 6).flatMap fun b =>
      [hexDigit (b.toNat / 16), hexDigit (b.toNat % 16)]), ?_, ?_⟩
  · rw [← List.flatMap_append, List.take_append_drop, blake3Hex, hexEncode, String.toList_ofList]
  · rw [utf8Length_hexEncode, List.length_take, X.blake3_size]
    rfl

theorem onlyPanics_discrepancyLine (d : BlockIntegrityDiscrepancy) :
    OnlyPanics (discrepancyLine d) := by
  apply (ZoneTexts.onlyPanics_splitAtByte _ 12).bind
  intro expected
  apply (ZoneTexts.onlyPanics_splitAtByte _ 12).bind
  intro actual
  exact onlyPanics_ok _

theorem discrepancyLine_ne_panicked_iff {d : BlockIntegrityDiscrepancy} :
    discrepancyLine d ≠ panicked ↔ Cuttable d.expectedHash ∧ Cuttable d.actualHash := by
  unfold discrepancyLine
  rw [bind_ne_panicked_iff, ZoneTexts.splitAtByte_ne_panicked_iff]
  refine and_congr_right fun hexpected => ?_
  obtain ⟨a, b, hcut⟩ := hexpected
  constructor
  · intro h
    have hactual := h (a, b) (ZoneTexts.splitAtByte_ok_iff.mpr hcut)
    exact ZoneTexts.splitAtByte_ne_panicked_iff.mp (bind_ne_panicked_iff.mp hactual).1
  · intro h p _
    exact bind_ne_panicked_iff.mpr
      ⟨ZoneTexts.splitAtByte_ne_panicked_iff.mpr h, fun q _ => ok_ne_panicked _⟩

/-- An untrue verdict aside, the text fails on the hashes that did not match. -/
theorem verifyText_ne_panicked_iff {report : IntegrityReport}
    (hverdict : report.isPristine = true → report.blockDiscrepancies = []) :
    verifyText report ≠ panicked ↔
      ∀ d ∈ report.blockDiscrepancies, Cuttable d.expectedHash ∧ Cuttable d.actualHash := by
  have hlines := @mapM_ne_panicked_iff _ _ _ discrepancyLine report.blockDiscrepancies
    onlyPanics_discrepancyLine
  simp only [discrepancyLine_ne_panicked_iff] at hlines
  have htext : verifyText report ≠ panicked ↔ verdictLines report ≠ panicked := by
    unfold verifyText
    rw [bind_ne_panicked_iff]
    exact and_iff_left fun _ _ => ok_ne_panicked _
  rw [htext, ← hlines]
  unfold verdictLines
  split_ifs with hpristine
  · rw [hverdict hpristine]
    exact iff_of_true (ok_ne_panicked _) (ok_ne_panicked [])
  · rw [bind_ne_panicked_iff]
    exact and_iff_left fun _ _ => ok_ne_panicked _

/-- Wherever the manifest names another hash than the block's, its first twelve bytes can
be cut off. -/
def MismatchesCuttable (X : Crates) (manifest : AcquisitionManifest) (content : Bytes) : Prop :=
  ∀ i < manifest.blockCount, ∀ block expected,
    (blocks manifest.blockSize content)[i]? = some block →
      manifest.blockHashes[i]? = some expected → X.blake3Hex block ≠ expected → Cuttable expected

/-- What the audit finds against the blocks. -/
theorem mem_blockDiscrepancies {X : Crates} {manifest : AcquisitionManifest} {content : Bytes}
    {d : BlockIntegrityDiscrepancy} :
    d ∈ (auditOf X manifest (scanned manifest content)).blockDiscrepancies ↔
      ∃ i < manifest.blockCount, ∃ block expected,
        (blocks manifest.blockSize content)[i]? = some block ∧
          manifest.blockHashes[i]? = some expected ∧ X.blake3Hex block ≠ expected ∧
          d = ⟨i, i * manifest.blockSize, expected, X.blake3Hex block⟩ := by
  have hblocks : blocks manifest.blockSize (scanned manifest content) =
      (blocks manifest.blockSize content).take manifest.blockCount := by
    rcases Nat.eq_zero_or_pos manifest.blockSize with hzero | hsize
    · rw [hzero, blocks_zero, blocks_zero, List.take_nil]
    · exact blocks_take _ _ _ hsize
  simp only [auditOf, hblocks, List.mem_filterMap, Prod.exists, List.mk_mem_zipIdx_iff_getElem?,
    List.getElem?_take]
  constructor
  · intro h
    obtain ⟨block, i, hblock, hd⟩ := h
    split_ifs at hblock with hi
    unfold blockDiscrepancy at hd
    split at hd
    · rename_i expected hexpected
      split_ifs at hd with hne
      exact ⟨i, hi, block, expected, hblock, hexpected, hne, (Option.some.inj hd).symm⟩
    · exact absurd hd (by simp)
  · intro h
    obtain ⟨i, hi, block, expected, hblock, hexpected, hne, rfl⟩ := h
    refine ⟨block, i, by rw [if_pos hi, hblock], ?_⟩
    unfold blockDiscrepancy
    rw [hexpected]
    exact if_pos hne

theorem verifyText_plainReport_iff (X : Crates) (manifest : AcquisitionManifest)
    (evidencePath : String) (content : Bytes) (dbPath : String) (db : DbFile) (now : String) :
    verifyText (plainReport X manifest evidencePath content dbPath db now) ≠ panicked ↔
      MismatchesCuttable X manifest content := by
  have hfound : (plainReport X manifest evidencePath content dbPath db now).blockDiscrepancies =
      (auditOf X manifest (scanned manifest content)).blockDiscrepancies := rfl
  rw [verifyText_ne_panicked_iff, hfound]
  · constructor
    · intro h i hi block expected hblock hexpected hne
      exact (h _ (mem_blockDiscrepancies.mpr
        ⟨i, hi, block, expected, hblock, hexpected, hne, rfl⟩)).1
    · intro h d hd
      obtain ⟨i, hi, block, expected, hblock, hexpected, hne, rfl⟩ := mem_blockDiscrepancies.mp hd
      exact ⟨h i hi block expected hblock hexpected hne, cuttable_blake3Hex X block⟩
  · intro hpristine
    have hparts : (_ && _ && (auditOf X manifest
        (scanned manifest content)).blockDiscrepancies.isEmpty && _) = true := hpristine
    simp only [Bool.and_eq_true, List.isEmpty_iff] at hparts
    exact hparts.1.2

/-- The command ends with a text or an error, whatever the reads deliver, exactly when every
hash that does not match can be cut. -/
theorem runVerify_completes_iff (X : Crates) (dir : CaseDir) (dbPath : String) (db : DbFile)
    (now : String)
    (hmemory : ∀ manifest, dir.loadManifest = .ok manifest →
      manifest.blockSize ≤ X.memory ∧ 24 * manifest.blockCount ≤ X.memory) :
    (∀ plan, runVerify X dir dbPath db plan now ≠ panicked) ↔
      ∀ manifest evidence, dir.loadManifest = .ok manifest →
        dir.resolveEvidence manifest = .ok evidence → evidence.refusal = none →
          MismatchesCuttable X manifest evidence.content.bytes := by
  have hrun : ∀ plan, runVerify X dir dbPath db plan now =
      verifyCaseIntegrity X dir dbPath db plan now >>= verifyText := by
    intro plan
    rw [runVerify, verifyCaseIntegrityChecked_eq]
  constructor
  · intro h manifest evidence hmanifest hevidence hrefusal
    have hends := h eager
    obtain ⟨path, content, refusal⟩ := evidence
    obtain rfl : refusal = none := hrefusal
    have hreport : verifyCaseIntegrity X dir dbPath db eager now =
        .ok (plainReport X manifest path content.bytes dbPath db now) := by
      have hholding := verifyCaseIntegrity_legal X manifest path content dbPath db eager now
        (hmemory manifest hmanifest) eager_legal
      rw [← hholding]
      unfold verifyCaseIntegrity
      rw [hmanifest, CaseDir.loadManifest_holding, ok_bind, ok_bind, hevidence,
        CaseDir.resolveEvidence_holding]
    rw [hrun, hreport, ok_bind, verifyText_plainReport_iff] at hends
    exact hends
  · intro h plan
    rw [hrun, bind_ne_panicked_iff]
    refine ⟨verifyCaseIntegrity_ne_panicked X dir dbPath db plan now hmemory, ?_⟩
    intro report hreport
    obtain ⟨manifest, evidence, hmanifest, hevidence, hrefusal, rfl⟩ :=
      verifyCaseIntegrity_reads hreport
    exact (verifyText_plainReport_iff ..).mpr (h manifest evidence hmanifest hevidence hrefusal)

/-- One hash is wrong and can be cut, and there are more blocks than hashes. -/
def tamperedManifest : AcquisitionManifest :=
  { plainManifest .sample "evidence.raw" "case" "" 1 [97] with
    blockCount := 3
    blockHashes := ["ca978112ca1bbdcafac231b39a23dc4d"] }

theorem runVerify_completes_tampered :
    (tamperedManifest.blockSize ≤ sample.memory ∧
      24 * tamperedManifest.blockCount ≤ sample.memory) ∧
    ∀ plan, runVerify .sample (.holding tamperedManifest "evidence.raw" ⟨[97], by decide⟩)
      "case.db" .absent plan "" ≠ panicked := by
  have hmemory : tamperedManifest.blockSize ≤ sample.memory ∧
      24 * tamperedManifest.blockCount ≤ sample.memory := by decide
  refine ⟨hmemory, ?_⟩
  apply (runVerify_completes_iff .sample _ "case.db" .absent "" ?_).mpr
  · intro manifest evidence hmanifest hevidence _ i hi block expected _ hexpected _
    obtain rfl := Except.ok.inj hmanifest
    have hlisted : expected = "ca978112ca1bbdcafac231b39a23dc4d" := by
      have hmem := List.mem_of_getElem? hexpected
      simpa [tamperedManifest] using hmem
    rw [hlisted]
    exact ⟨"ca978112ca1b".toList, "bdcafac231b39a23dc4d".toList, by decide, by decide⟩
  · intro manifest hmanifest
    obtain rfl := Except.ok.inj hmanifest
    exact hmemory

/-- The hash that the manifest names has three characters. -/
def mangledManifest : AcquisitionManifest :=
  { plainManifest .sample "evidence.raw" "case" "" 1 [97] with blockHashes := ["bad"] }

theorem runVerify_panics_mangled :
    (mangledManifest.blockSize ≤ sample.memory ∧
      24 * mangledManifest.blockCount ≤ sample.memory) ∧
    runVerify .sample (.holding mangledManifest "evidence.raw" ⟨[97], by decide⟩) "case.db"
      .absent eager "" = panicked :=
  ⟨by decide, rfl⟩

end Dvrft.AuditText
