import Dvrft.ParseCase
import Dvrft.Verdict

/-!
The three passes over one evidence file. Acquisition, parsing and verification
read the same bytes in loops of their own, and each divides them into the same
blocks; so the stored records and the manifest agree and the audit of an
untouched case is clean.
-/

namespace Dvrft.Passes

open Chunks ShortReads Errors Machine Platform Crates Sqlite Grammar Acquisition Interpreter
  Database CaseFiles Detection ParseCase Verify Verdict

variable {X : Crates} {sourcePath caseName acquiredAt evidencePath dbPath : String}
  {content : FileContent} {blockSize : ℕ} {acquisitionPlan headerPlan bodyPlan : Schedule IoError}
  {manifest : AcquisitionManifest} {grammarsDir : GrammarsDir}
  {loadPlugin : String → Option Descrambler} {db : DbFile} {summary : ParseSummary}
  {tables : Tables}

/-- What a successful run of the parser on a held case did. -/
theorem parseCase_holding
    (h : parseCase X (.holding manifest evidencePath content) grammarsDir loadPlugin dbPath db
      headerPlan bodyPlan = .ok (summary, tables)) :
    ∃ grammar path records,
      detectGrammar X ⟨evidencePath, content, none⟩ grammarsDir headerPlan =
        .ok (grammar, path) ∧
      (manifest.blockSize ≤ X.memory ∧ recordSize * manifest.blockCount ≤ X.memory) ∧
      plainRecords X manifest grammar (grammar.descramblePlugin.bind loadPlugin)
        content.bytes = .ok records ∧
      storeRecords X manifest grammar records dbPath db = .ok (summary, tables) := by
  simp only [parseCase, bind_ok] at h
  obtain ⟨m, hmanifest, evidence, hevidence, ⟨grammar, path⟩, hdetected, source, hsource,
    records, hrecords, hstored⟩ := h
  obtain rfl := Except.ok.inj hmanifest
  obtain rfl := Except.ok.inj hevidence
  obtain rfl := source_ok hsource
  obtain ⟨hmemory, hplain⟩ := extractRecords_ok hrecords
  exact ⟨grammar, path, records, hdetected, hmemory, hplain, hstored⟩

/-- A run on a held case with a detected grammar extracts the plain records and
stores them, errors included. -/
theorem parseCase_detected {grammar : GrammarFile} {path : String}
    (hdetected : detectGrammar X ⟨evidencePath, content, none⟩ grammarsDir headerPlan =
      .ok (grammar, path))
    (hmemory : manifest.blockSize ≤ X.memory ∧ recordSize * manifest.blockCount ≤ X.memory)
    (hlegal : Legal bodyPlan) :
    parseCase X (.holding manifest evidencePath content) grammarsDir loadPlugin dbPath db
        headerPlan bodyPlan =
      plainRecords X manifest grammar (grammar.descramblePlugin.bind loadPlugin)
          content.bytes >>= fun records =>
        storeRecords X manifest grammar records dbPath db := by
  simp only [parseCase, CaseDir.loadManifest_holding, CaseDir.resolveEvidence_holding,
    source_readable, hdetected, ok_bind]
  rw [extractRecords_legal X manifest grammar _ _ hmemory hlegal, Reader.opened]

/-- A fresh database holds the extracted records and nothing else. -/
theorem storeRecords_fresh {grammar : GrammarFile} {records : List ExtractedRecord}
    (hfresh : db.tables.getD .empty = .empty)
    (h : storeRecords X manifest grammar records dbPath db = .ok (summary, tables)) :
    summary.totalBlocks = records.length ∧
      tables.extractedRecords = records.map (ExtractedRow.ofRecord 1) := by
  simp only [storeRecords, bind_ok, ofExcept_eq_ok] at h
  obtain ⟨streams, -, opened, hopen, ⟨stored, caseId, evidenceId⟩, hstore, hout⟩ := h
  obtain ⟨-, rfl⟩ := CaseDatabase.openFile_ok.mp hopen
  obtain ⟨hid, -, hrows, -⟩ := CaseDatabase.storeCaseExtraction_ok hstore
  simp only [Except.ok.injEq, Prod.mk.injEq] at hout
  obtain ⟨rfl, rfl⟩ := hout
  refine ⟨rfl, ?_⟩
  rw [hrows, hid, hfresh]
  rfl

/-- Records that name their blocks are stored in order. -/
theorem pairwise_blockIndex {records : List ExtractedRecord}
    (hindex : ∀ i (r : ExtractedRecord), records[i]? = some r → r.blockIndex = i)
    (hlen : records.length < 2 ^ 63) :
    records.Pairwise fun a b => asI64 a.blockIndex ≤ asI64 b.blockIndex := by
  rw [List.pairwise_iff_getElem]
  intro i j hi hj hij
  rw [hindex i _ (List.getElem?_eq_getElem hi), hindex j _ (List.getElem?_eq_getElem hj),
    asI64_of_lt (by omega), asI64_of_lt (by omega)]
  omega

/-- A record that names its block, its place in the content and the manifest's
hash of the block. -/
def MatchesManifest (manifest : AcquisitionManifest) (i : ℕ) (r : ExtractedRecord) : Prop :=
  r.blockIndex = i ∧ r.byteOffset = i * manifest.blockSize ∧
    manifest.blockHashes[i]? = some r.blake3Hash

/-- The extracted records of an acquired content line up with its manifest, also
after they have been stored and read back. -/
theorem plainRecords_match {grammar : GrammarFile} {plugin : Option Descrambler}
    {records : List ExtractedRecord} (hsize : 0 < blockSize)
    (hm : manifest = plainManifest X sourcePath caseName acquiredAt blockSize content.bytes)
    (h : plainRecords X manifest grammar plugin content.bytes = .ok records) :
    records.length = manifest.blockCount ∧
      ∀ i r, records[i]? = some r →
        MatchesManifest manifest i r ∧ MatchesManifest manifest i (wrap64 r) := by
  have hcount : manifest.blockCount = (blocks manifest.blockSize content.bytes).length := by
    rw [hm, length_blocks]
    rfl
  have hhashes : manifest.blockHashes =
      (blocks manifest.blockSize content.bytes).map X.blake3Hex := by
    rw [hm]
    rfl
  obtain ⟨hlen, hget⟩ := plainRecords_getElem h
  rw [hcount, List.take_length] at hlen hget
  refine ⟨by rw [hlen, hcount], fun i r hr => ?_⟩
  obtain ⟨block, hblock, hparse⟩ := hget i r hr
  obtain ⟨hindex, hoffset, hhash⟩ := parseBlock_identity hparse
  have hexpected : manifest.blockHashes[i]? = some r.blake3Hash := by
    rw [hhashes, List.getElem?_map, hblock, hhash]
    rfl
  -- index and offset stay below the length of a file, so 64 bits hold them
  have hsize' : 0 < manifest.blockSize := by rw [hm]; exact hsize
  have hi := (List.getElem?_eq_some_iff.mp hblock).1
  rw [length_blocks] at hi
  have hplace := (lt_blockCount_iff _ _ _ hsize').mp hi
  have hcover := blockCount_le manifest.blockSize content.bytes.length hsize'
  have hfile := content.size_lt
  refine ⟨⟨hindex, hoffset, hexpected⟩, ?_, ?_, hexpected⟩
  · rw [wrap64, hindex]
    exact Nat.mod_eq_of_lt (by omega)
  · rw [wrap64, hoffset]
    exact Nat.mod_eq_of_lt (by omega)

/-- Stored records that match the manifest raise no objection. -/
theorem dbSilent_of_match {records : List ExtractedRecord}
    (hrows : tables.extractedRecords = records.map (ExtractedRow.ofRecord 1))
    (hmatch : ∀ i r, records[i]? = some r → MatchesManifest manifest i (wrap64 r)) :
    DbSilent ⟨some tables, .sound⟩ manifest.blockHashes := by
  rintro _ ⟨⟩ - row hrow
  rw [hrows] at hrow
  obtain ⟨record, hmem, rfl⟩ := List.mem_map.mp hrow
  obtain ⟨i, hi⟩ := List.getElem?_of_mem hmem
  obtain ⟨hindex, -, hhash⟩ := hmatch i record hi
  exact ⟨_, read_ofRecord 1 record, by rw [hindex, hhash]⟩

/-- The report on an acquired content that is still there. -/
theorem plainReport_original {original : Bytes} (evidencePath dbPath : String)
    (hsize : 0 < blockSize)
    (hm : manifest = plainManifest X sourcePath caseName acquiredAt blockSize original)
    (hsilent : DbSilent db manifest.blockHashes) (now : String) :
    let report := plainReport X manifest evidencePath original dbPath db now
    report.isPristine = true ∧ report.matchedBlocks = report.totalBlocks ∧
      report.blockDiscrepancies = [] ∧ report.dbRecordDiscrepancies = [] := by
  have hscan : scanned manifest original = original :=
    (scanned_eq_original_iff original hsize hm).mpr (.inl rfl)
  have hnone : (auditOf X manifest (scanned manifest original)).blockDiscrepancies = [] := by
    rw [hscan]
    exact blockDiscrepancies_original hm
  have hhashes : manifest.blockHashes =
      (blocks blockSize (scanned manifest original)).map X.blake3Hex := by
    rw [hscan, hm]
    rfl
  have hactual : (auditOf X manifest (scanned manifest original)).actualBlockHashes =
      manifest.blockHashes := by
    rw [hscan, hm]
    rfl
  refine ⟨(plainReport_isPristine original evidencePath dbPath now db hm).mpr
    ⟨by rw [hscan], by rw [hscan], hnone, hhashes ▸ hsilent⟩, ?_, hnone, ?_⟩
  · simp [plainReport, Audit.report, hnone]
  · refine (crossCheck_silent dbPath db _).mpr ?_
    rw [hactual]
    exact hsilent

/-- Acquire, parse and verify split the evidence identically. -/
theorem passes_agree
    (hacquired : acquireEvidence X sourcePath caseName acquiredAt
      (.opened content.bytes acquisitionPlan) (some blockSize) = .ok manifest)
    (hfresh : db.tables.getD .empty = .empty)
    (hparsed : parseCase X (.holding manifest evidencePath content) grammarsDir loadPlugin
      dbPath db headerPlan bodyPlan = .ok (summary, tables)) :
    (∃ opened records,
      CaseDatabase.openFile dbPath ⟨some tables, .sound⟩ = .ok opened ∧
      opened.queryAllRecords = .ok records ∧ records.length = manifest.blockCount ∧
      ∀ i r, records[i]? = some r → r.byteOffset = i * blockSize ∧
        manifest.blockHashes[i]? = some r.blake3Hash) ∧
    ∀ plan now, Legal plan →
      ∃ report,
        verifyCaseIntegrity X (.holding manifest evidencePath content) dbPath
          ⟨some tables, .sound⟩ plan now = .ok report ∧
        report.isPristine = true ∧ report.dbChecked = true ∧
        report.matchedBlocks = report.totalBlocks ∧ report.blockDiscrepancies = [] ∧
        report.dbRecordDiscrepancies = [] := by
  obtain ⟨grammar, path, records, -, hmemory, hplain, hstored⟩ := parseCase_holding hparsed
  have hblockSize := acquireEvidence_blockSize hacquired
  obtain ⟨hsize, hm⟩ :=
    acquireEvidence_ok (batch_fits X (hblockSize ▸ hmemory.1)) hacquired
  simp only [Reader.opened] at hm
  obtain ⟨hlen, hmatch⟩ := plainRecords_match hsize hm hplain
  have hrows := (storeRecords_fresh hfresh hstored).2
  constructor
  · have hfew : records.length < 2 ^ 63 := by
      rw [hlen, hm]
      exact (blockCount_le _ _ hsize).trans_lt content.size_lt
    have hsorted := pairwise_blockIndex (fun i r hr => (hmatch i r hr).1.1) hfew
    refine ⟨⟨dbPath, tables, .sound⟩, records.map wrap64, rfl,
      CaseDatabase.queryAllRecords_ofRecords hrows hsorted rfl, by simpa using hlen, ?_⟩
    intro i r hr
    rw [List.getElem?_map, Option.map_eq_some_iff] at hr
    obtain ⟨record, hrecord, rfl⟩ := hr
    obtain ⟨-, hoffset, hhash⟩ := (hmatch i record hrecord).2
    exact ⟨by rw [hoffset, hblockSize], hhash⟩
  · intro plan now hlegal
    have hsilent := dbSilent_of_match hrows fun i r hr => (hmatch i r hr).2
    obtain ⟨hpristine, hmatched, hblocks, hrecords⟩ :=
      plainReport_original evidencePath dbPath hsize hm hsilent now
    have hbuffers : manifest.blockSize ≤ X.memory ∧ 24 * manifest.blockCount ≤ X.memory := by
      unfold recordSize at hmemory
      omega
    exact ⟨_, verifyCaseIntegrity_legal X manifest evidencePath content dbPath
      ⟨some tables, .sound⟩ plan now hbuffers hlegal, hpristine, (crossCheck_some _ rfl _).1,
      hmatched, hblocks, hrecords⟩

def abc : FileContent := ⟨[97, 98, 99], by decide⟩

/-- The manifest of `abc` in blocks of two bytes. -/
def abcManifest : AcquisitionManifest :=
  plainManifest .sample "evidence.raw" "case" "" 2 abc.bytes

theorem passes_agree_abc :
    ∃ summary tables,
      parseCase .sample (.holding abcManifest "evidence.raw" abc) (tinyDir 1 1) (fun _ => none)
        "case.db" .absent eager eager = .ok (summary, tables) ∧
      ∀ plan now, Legal plan → ∃ report,
        verifyCaseIntegrity .sample (.holding abcManifest "evidence.raw" abc) "case.db"
          ⟨some tables, .sound⟩ plan now = .ok report ∧ report.isPristine = true := by
  obtain ⟨⟨summary, tables⟩, hparsed⟩ := exists_ok
    (x := parseCase .sample (.holding abcManifest "evidence.raw" abc) (tinyDir 1 1)
      (fun _ => none) "case.db" .absent eager eager) (by decide +kernel)
  refine ⟨summary, tables, hparsed, fun plan now hlegal => ?_⟩
  obtain ⟨report, hreport, hpristine, -⟩ :=
    (passes_agree (acquireEvidence_legal .sample "evidence.raw" "case" ""
      (.opened abc.bytes eager) 2 (by decide) (by decide) eager_legal) rfl hparsed).2 plan now
      hlegal
  exact ⟨report, hreport, hpristine⟩

end Dvrft.Passes
