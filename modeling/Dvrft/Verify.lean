import Dvrft.CaseFiles
import Dvrft.Database

/-!
The integrity audit: the evidence is read block by block, as many blocks as the
manifest counts, and compared with the manifest and with the records of the case
database. The report is a function of the bytes that were read, of the manifest
and of the database; how the source delivers its bytes does not show in it.
-/

namespace Dvrft.Verify

open Chunks ShortReads StreamHash Errors Machine Platform Crates Acquisition Interpreter Database
  CaseFiles

structure BlockIntegrityDiscrepancy where
  blockIndex : ℕ
  byteOffset : ℕ
  expectedHash : String
  actualHash : String
  deriving DecidableEq, Repr

structure DbRecordDiscrepancy where
  blockIndex : ℕ
  byteOffset : ℕ
  issue : String
  deriving DecidableEq, Repr

structure IntegrityReport where
  caseName : String
  evidencePath : String
  wholeImageSha256Match : Bool
  expectedSha256 : String
  actualSha256 : String
  wholeImageMd5Match : Bool
  expectedMd5 : String
  actualMd5 : String
  totalBlocks : ℕ
  matchedBlocks : ℕ
  blockDiscrepancies : List BlockIntegrityDiscrepancy
  dbChecked : Bool
  dbRecordDiscrepancies : List DbRecordDiscrepancy
  isPristine : Bool
  auditTimestamp : String
  deriving DecidableEq, Repr

/-- What the loop carries from block to block. -/
structure Audit (X : Crates) where
  sha256 : X.sha256.State
  md5 : X.md5.State
  blockDiscrepancies : List BlockIntegrityDiscrepancy
  actualBlockHashes : List String
  currentOffset : ℕ

def Audit.start (X : Crates) : Audit X := ⟨X.sha256.new, X.md5.new, [], [], 0⟩

/-- The manifest's word on a block, if it has one and it is another hash. -/
def blockDiscrepancy (manifest : AcquisitionManifest) (blockIndex byteOffset : ℕ)
    (actualHash : String) : Option BlockIntegrityDiscrepancy :=
  match manifest.blockHashes[blockIndex]? with
  | some expectedHash =>
    if actualHash ≠ expectedHash then some ⟨blockIndex, byteOffset, expectedHash, actualHash⟩
    else none
  | none => none

def Audit.addBlock {X : Crates} (manifest : AcquisitionManifest) (a : Audit X)
    (blockIndex : ℕ) (slice : Bytes) : Audit X :=
  let actualHash := X.blake3Hex slice
  { sha256 := X.sha256.update a.sha256 slice
    md5 := X.md5.update a.md5 slice
    blockDiscrepancies := a.blockDiscrepancies ++
      (blockDiscrepancy manifest blockIndex a.currentOffset actualHash).toList
    actualBlockHashes := a.actualBlockHashes ++ [actualHash]
    currentOffset := a.currentOffset + slice.length }

def compareRecord (actualBlockHashes : List String) (r : ExtractedRecord) :
    Option DbRecordDiscrepancy :=
  match actualBlockHashes[r.blockIndex]? with
  | some diskHash =>
    if r.blake3Hash ≠ diskHash then
      some ⟨r.blockIndex, r.byteOffset, "DB recorded BLAKE3 " ++ r.blake3Hash ++
        " does not match current evidence disk block BLAKE3 " ++ diskHash⟩
    else none
  | none => some ⟨r.blockIndex, r.byteOffset,
      "DB record refers to a block index beyond current evidence size"⟩

/-- Whether a database was there, and what its records contradict. A database
that does not open or does not answer counts as checked. -/
def crossCheck (dbPath : String) (db : DbFile) (actualBlockHashes : List String) :
    Bool × List DbRecordDiscrepancy :=
  match db.tables with
  | none => (false, [])
  | some _ =>
    match CaseDatabase.openFile dbPath db with
    | .error _ => (true, [])
    | .ok opened =>
      match opened.queryAllRecords with
      | .error _ => (true, [])
      | .ok records => (true, records.filterMap (compareRecord actualBlockHashes))

def Audit.report {X : Crates} (a : Audit X) (manifest : AcquisitionManifest)
    (evidencePath dbPath : String) (db : DbFile) (now : String) : IntegrityReport :=
  let actualSha256 := hexEncode (X.sha256.finalize a.sha256)
  let actualMd5 := hexEncode (X.md5.finalize a.md5)
  let sha256Match := eqIgnoreAsciiCase actualSha256 manifest.wholeImageSha256
  let md5Match := eqIgnoreAsciiCase actualMd5 manifest.wholeImageMd5
  let db := crossCheck dbPath db a.actualBlockHashes
  { caseName := manifest.caseName
    evidencePath := evidencePath
    wholeImageSha256Match := sha256Match
    expectedSha256 := manifest.wholeImageSha256
    actualSha256 := actualSha256
    wholeImageMd5Match := md5Match
    expectedMd5 := manifest.wholeImageMd5
    actualMd5 := actualMd5
    totalBlocks := manifest.blockCount
    matchedBlocks := manifest.blockCount - a.blockDiscrepancies.length
    blockDiscrepancies := a.blockDiscrepancies
    dbChecked := db.1
    dbRecordDiscrepancies := db.2
    isPristine := sha256Match && md5Match && a.blockDiscrepancies.isEmpty && db.2.isEmpty
    auditTimestamp := now }

/-- `db` is the file at `dbPath`, the given database or the default one. The second buffer is
for the actual hashes; a `String` takes three words. -/
def verifyCaseIntegrity (X : Crates) (dir : CaseDir) (dbPath : String) (db : DbFile)
    (plan : Schedule IoError) (now : String) : Outcome ParserError IntegrityReport := do
  let manifest ← dir.loadManifest
  let evidence ← dir.resolveEvidence manifest
  let source ← evidence.source plan
  X.allocate manifest.blockSize
  X.allocate (24 * manifest.blockCount)
  let audit ← forBlocks manifest.blockSize (fun e => .error (.io e))
    (fun (a : Audit X) blockIndex slice => .ok (a.addBlock manifest blockIndex slice))
    manifest.blockCount 0 (.start X) source
  .ok (audit.report manifest evidence.path dbPath db now)

/-- The audit of a content by the plain definition: block after block of the
division, each against the manifest's hash at its index. -/
def auditOf (X : Crates) (manifest : AcquisitionManifest) (content : Bytes) : Audit X where
  sha256 := X.sha256.update X.sha256.new content
  md5 := X.md5.update X.md5.new content
  blockDiscrepancies := (blocks manifest.blockSize content).zipIdx.filterMap fun (block, i) =>
    blockDiscrepancy manifest i (i * manifest.blockSize) (X.blake3Hex block)
  actualBlockHashes := (blocks manifest.blockSize content).map X.blake3Hex
  currentOffset := content.length

/-- The bytes that the manifest's count of blocks covers. -/
def scanned (manifest : AcquisitionManifest) (content : Bytes) : Bytes :=
  content.take (manifest.blockCount * manifest.blockSize)

theorem auditOf_nil (X : Crates) (manifest : AcquisitionManifest) :
    auditOf X manifest [] = Audit.start X := by
  simp [auditOf, Audit.start, X.sha256.update_nil, X.md5.update_nil]

/-- One block takes the audit of the bytes before it to the audit of the bytes with it. -/
theorem addBlock_auditOf (X : Crates) (manifest : AcquisitionManifest) (done block : Bytes)
    (hsize : 0 < manifest.blockSize) (hdvd : manifest.blockSize ∣ done.length)
    (hne : block ≠ []) (hle : block.length ≤ manifest.blockSize) :
    (auditOf X manifest done).addBlock manifest (done.length / manifest.blockSize) block =
      auditOf X manifest (done ++ block) := by
  have hblocks := blocks_append manifest.blockSize done block hsize hdvd
  rw [blocks_of_length_le _ block hne hle] at hblocks
  have hcount := blockCount_of_dvd manifest.blockSize done.length hsize hdvd
  have hoffset : done.length / manifest.blockSize * manifest.blockSize = done.length :=
    Nat.div_mul_cancel hdvd
  simp only [Audit.addBlock, auditOf, hblocks, List.zipIdx_append, List.filterMap_append,
    List.map_append, List.length_append, X.sha256.update_append, X.md5.update_append,
    length_blocks, hcount]
  simp only [List.zipIdx_singleton, Nat.zero_add, List.filterMap_cons, hoffset,
    List.map_cons, List.map_nil, Audit.mk.injEq, true_and, and_true]
  cases blockDiscrepancy manifest (done.length / manifest.blockSize) done.length
    (X.blake3Hex block) <;> rfl

theorem audit_loop (X : Crates) (manifest : AcquisitionManifest) (content : Bytes) :
    foldBlocks (fun (a : Audit X) blockIndex slice => .ok (a.addBlock manifest blockIndex slice)) 0
        (.start X) ((blocks manifest.blockSize content).take manifest.blockCount) =
      (.ok (auditOf X manifest (scanned manifest content)) : Outcome ParserError (Audit X)) := by
  rcases Nat.eq_zero_or_pos manifest.blockSize with hzero | hsize
  · simp [scanned, hzero, blocks_zero, auditOf_nil]
  · rw [← blocks_take _ _ _ hsize, ← scanned]
    have hfold : foldBlocks
        (fun (a : Audit X) blockIndex slice => .ok (a.addBlock manifest blockIndex slice))
        (([] : Bytes).length / manifest.blockSize) (auditOf X manifest [])
        (blocks manifest.blockSize (scanned manifest content)) =
          (.ok (auditOf X manifest ([] ++ scanned manifest content)) :
            Outcome ParserError (Audit X)) :=
      foldBlocks_of_prefixes (auditOf X manifest) hsize
        (fun done block hdvd hne hle =>
          congrArg Except.ok (addBlock_auditOf X manifest done block hsize hdvd hne hle))
        [] (scanned manifest content) (by simp)
    simpa [auditOf_nil] using hfold

/-- The report on an evidence file, by the plain definition. -/
def plainReport (X : Crates) (manifest : AcquisitionManifest) (evidencePath : String)
    (content : Bytes) (dbPath : String) (db : DbFile) (now : String) : IntegrityReport :=
  (auditOf X manifest (scanned manifest content)).report manifest evidencePath dbPath db now

/-- A report is the plain one, and only a readable case with buffers that fit gets one. -/
theorem verifyCaseIntegrity_ok {X : Crates} {dir : CaseDir} {dbPath : String} {db : DbFile}
    {plan : Schedule IoError} {now : String} {report : IntegrityReport}
    (h : verifyCaseIntegrity X dir dbPath db plan now = .ok report) :
    ∃ manifest evidence, dir.loadManifest = .ok manifest ∧
      dir.resolveEvidence manifest = .ok evidence ∧
      (manifest.blockSize ≤ X.memory ∧ 24 * manifest.blockCount ≤ X.memory) ∧
      report = plainReport X manifest evidence.path evidence.content.bytes dbPath db now := by
  obtain ⟨manifest, hmanifest, h⟩ := bind_ok.mp h
  obtain ⟨evidence, hevidence, h⟩ := bind_ok.mp h
  obtain ⟨source, hsource, h⟩ := bind_ok.mp h
  obtain ⟨_, hbuffer, h⟩ := bind_ok.mp h
  obtain ⟨_, hhashes, h⟩ := bind_ok.mp h
  obtain ⟨audit, hloop, h⟩ := bind_ok.mp h
  refine ⟨manifest, evidence, hmanifest, hevidence,
    ⟨allocate_ok.mp hbuffer, allocate_ok.mp hhashes⟩, ?_⟩
  have hfold := forBlocks_ok hloop
  rw [source_ok hsource, Reader.opened, audit_loop] at hfold
  rw [← Except.ok.inj h, ← Except.ok.inj hfold, plainReport]

/-- A readable case whose buffers can be had is reported on, whatever the schedule. -/
theorem verifyCaseIntegrity_legal (X : Crates) (manifest : AcquisitionManifest)
    (path : String) (content : FileContent) (dbPath : String) (db : DbFile)
    (plan : Schedule IoError) (now : String)
    (hmemory : manifest.blockSize ≤ X.memory ∧ 24 * manifest.blockCount ≤ X.memory)
    (hlegal : Legal plan) :
    verifyCaseIntegrity X (.holding manifest path content) dbPath db plan now =
      .ok (plainReport X manifest path content.bytes dbPath db now) := by
  have hloop := forBlocks_legal manifest.blockSize (fun e => Failure.error (ParserError.io e))
    (fun (a : Audit X) blockIndex slice => .ok (a.addBlock manifest blockIndex slice))
    manifest.blockCount 0 (.start X) (Reader.opened content.bytes plan) hlegal
  rw [Reader.opened, audit_loop] at hloop
  simp only [verifyCaseIntegrity, CaseDir.loadManifest_holding,
    CaseDir.resolveEvidence_holding, source_readable, X.allocate_of_le hmemory.1,
    X.allocate_of_le hmemory.2, ok_bind, Reader.opened, hloop]
  rfl

end Dvrft.Verify
