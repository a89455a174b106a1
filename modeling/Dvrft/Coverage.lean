import Dvrft.Passes
import Dvrft.SequenceGaps

/-!
Which contents are parsed to the end. Under a grammar whose offsets stay within
the address range, a block is interpreted exactly when it is as long as the video
header; so the extraction fails only on a last block that is too short, and otherwise
has one record for every acquired block. What is extracted still has to be demuxed and
stored.
-/

namespace Dvrft.Coverage

open Chunks ShortReads Errors Machine Platform Crates Grammar Timestamps Acquisition Interpreter
  Database CaseFiles Detection Demux SequenceGaps ParseCase Passes

/-- No address that interpreting or descrambling a block forms leaves 64 bits, for
blocks that lie within `reach` bytes; the video signature decodes and every zone
text can be read. -/
structure Interpretable (X : Crates) (grammar : GrammarFile) (reach : ℕ) : Prop where
  videoMagic : ∃ bytes,
    grammar.structures.videoBlock.header.magic.expectedBytes = .ok bytes ∧
      grammar.structures.videoBlock.header.magic.offset + bytes.length < 2 ^ 64
  otherMagics : ∀ magic bytes,
    grammar.structures.superblock.bind SuperblockDef.magic = some magic ∨
      grammar.structures.partitionTable.bind PartitionTableDef.magic = some magic →
    magic.expectedBytes = .ok bytes → magic.offset + bytes.length < 2 ^ 64
  fields : ∀ field ∈ grammar.structures.videoBlock.header.fields, field.offset + 8 < 2 ^ 64
  zones : ∀ field ∈ grammar.structures.videoBlock.header.fields,
    ∃ offset, parseTimezoneOffset X field.timezone = (.ok offset : Parsed ℤ)
  payload : reach + grammar.structures.videoBlock.payload.offset < 2 ^ 64
  defaultPayload : grammar.structures.videoBlock.payload.offset +
    grammar.structures.videoBlock.payload.defaultLength < 2 ^ 64

theorem matchesAt_total (X : Crates) (data expected : Bytes) {offset : ℕ}
    (h : offset + expected.length < 2 ^ 64) :
    ∃ found, matchesAt X data offset expected = .ok found := by
  unfold matchesAt
  rw [X.build.add_of_lt h, ok_bind]
  split_ifs with hstop
  · rw [slice_of_le (by omega) hstop]
    exact ⟨_, rfl⟩
  · exact ⟨_, rfl⟩

theorem readWord_total (X : Crates) (data : Bytes) {field : FieldDef} {width : ℕ}
    (h : field.offset + width < 2 ^ 64) : ∃ n, readWord X data field width = .ok n := by
  unfold readWord
  rw [X.build.add_of_lt h, ok_bind]
  by_cases hshort : data.length < field.offset + width
  · rw [if_pos hshort]
    exact ⟨_, rfl⟩
  · rw [if_neg hshort]
    obtain ⟨bytes, hbytes⟩ : ∃ bytes, bytesAt data field.offset width = .ok bytes := by
      refine mapM_isOk fun i hi => ?_
      have hwidth := List.mem_range.mp hi
      exact ⟨_, index_of_lt (by omega)⟩
    rw [hbytes, ok_bind]
    exact ⟨_, rfl⟩

theorem readFieldValue_total (X : Crates) (data : Bytes) {field : FieldDef}
    (h : field.offset + 8 < 2 ^ 64) : ∃ n, readFieldValue X data field = .ok n := by
  unfold readFieldValue
  split
  · split_ifs with hshort
    · exact ⟨_, rfl⟩
    · rw [index_of_lt (by omega), ok_bind]
      exact ⟨_, rfl⟩
  · exact readWord_total X data (by omega)
  · exact readWord_total X data (by omega)
  · exact readWord_total X data (by omega)
  · exact ⟨_, rfl⟩

theorem normalizeTimestamp_total {X : Crates} {timezone : Option String}
    (h : ∃ offset, parseTimezoneOffset X timezone = (.ok offset : Parsed ℤ)) (raw : ℕ)
    (encoding : Option String) :
    ∃ text, normalizeTimestamp X raw encoding timezone = (.ok text : Parsed String) := by
  obtain ⟨offset, hoffset⟩ := h
  unfold normalizeTimestamp
  split_ifs
  · exact ⟨_, rfl⟩
  · rw [hoffset, ok_bind]
    dsimp only
    split_ifs <;> exact ⟨_, rfl⟩

theorem applyField_total {X : Crates} (data : Bytes) {field : FieldDef}
    (hfield : field.offset + 8 < 2 ^ 64)
    (hzone : ∃ offset, parseTimezoneOffset X field.timezone = (.ok offset : Parsed ℤ))
    (v : HeaderValues) :
    ∃ v', applyField X data v field = .ok v' ∧
      v'.payloadLen ≤ max v.payloadLen data.length := by
  obtain ⟨n, hn⟩ := readFieldValue_total X data hfield
  unfold applyField
  rw [hn, ok_bind]
  split
  · exact ⟨_, rfl, by simp⟩
  · obtain ⟨text, htext⟩ := normalizeTimestamp_total hzone n field.encoding
    rw [htext, ok_bind]
    exact ⟨_, rfl, by simp⟩
  · exact ⟨_, rfl, by simp⟩
  · refine ⟨_, rfl, ?_⟩
    split_ifs with hlen
    · exact le_max_of_le_right hlen.2
    · exact le_max_left _ _
  · refine ⟨_, rfl, ?_⟩
    unfold applyFlags
    split <;> exact le_max_left _ _
  · exact ⟨_, rfl, by simp⟩

theorem carriesMagic_total (X : Crates) (data : Bytes) {magic : Option MagicDef}
    (h : ∀ m bytes, magic = some m → m.expectedBytes = .ok bytes →
      m.offset + bytes.length < 2 ^ 64) : ∃ found, carriesMagic X data magic = .ok found := by
  unfold carriesMagic
  cases magic with
  | none => exact ⟨_, rfl⟩
  | some m =>
    dsimp only
    cases hbytes : m.expectedBytes with
    | error e => exact ⟨_, rfl⟩
    | ok bytes => exact matchesAt_total X data bytes (h m bytes rfl hbytes)

section Blocks

variable {X : Crates} {grammar : GrammarFile} {reach blockIndex byteOffset : ℕ}
  {block : Bytes} {hash : String}

theorem parseVideoBlock_total (blockIndex : ℕ) (block : Bytes) (hash : String)
    (hg : Interpretable X grammar reach) (hreach : byteOffset ≤ reach) :
    ∃ r, parseVideoBlock X grammar.structures.videoBlock blockIndex byteOffset block hash =
        .ok r ∧
      r.payloadOffset = byteOffset + grammar.structures.videoBlock.payload.offset ∧
      r.payloadLen ≤ max grammar.structures.videoBlock.payload.defaultLength block.length := by
  obtain ⟨v, hv, hlen⟩ := foldlM_total (f := applyField X block)
    (P := fun v => v.payloadLen ≤
      max grammar.structures.videoBlock.payload.defaultLength block.length)
    (fun v field hfield hlen => by
      obtain ⟨v', hv', hlen'⟩ :=
        applyField_total block (hg.fields field hfield) (hg.zones field hfield) v
      exact ⟨v', hv', by omega⟩)
    (HeaderValues.initial grammar.structures.videoBlock.payload.defaultLength)
    (le_max_left _ _)
  have hpayload := hg.payload
  refine ⟨videoRecord v blockIndex byteOffset _ hash, ?_, rfl, hlen⟩
  rw [parseVideoBlock, hv, ok_bind, X.build.add_of_lt (by omega), ok_bind]

/-- A block as long as the video header is interpreted, and a scrambled record's
payload lies where its addresses are no problem. -/
theorem interpretBlock_total (blockIndex : ℕ) (hash : String)
    (hg : Interpretable X grammar reach) (hreach : byteOffset ≤ reach)
    (hheader : grammar.structures.videoBlock.header.size ≤ block.length) :
    ∃ r, interpretBlock X grammar blockIndex byteOffset block hash = .ok r ∧
      (r.isScrambled = true →
        r.payloadOffset = byteOffset + grammar.structures.videoBlock.payload.offset ∧
        r.payloadLen ≤
          max grammar.structures.videoBlock.payload.defaultLength block.length) := by
  obtain ⟨magicBytes, hmagic, haddress⟩ := hg.videoMagic
  obtain ⟨hasVideoMagic, hvideo⟩ := matchesAt_total X block magicBytes haddress
  have hexpected := ofExcept_eq_ok.mpr hmagic
  unfold interpretBlock
  rw [if_neg (by omega)]
  simp only [hexpected, ok_bind, hvideo]
  cases hasVideoMagic with
  | true =>
    obtain ⟨r, hr, hoffset, hlen⟩ := parseVideoBlock_total blockIndex block hash hg hreach
    exact ⟨r, hr, fun _ => ⟨hoffset, hlen⟩⟩
  | false =>
    obtain ⟨isSuperblock, hsuper⟩ := carriesMagic_total X block
      fun m bytes hm => hg.otherMagics m bytes (.inl hm)
    obtain ⟨isPartition, hpartition⟩ := carriesMagic_total X block
      fun m bytes hm => hg.otherMagics m bytes (.inr hm)
    have hpayload := hg.payload
    simp only [Bool.false_eq_true, if_false, hsuper, hpartition, ok_bind]
    rw [X.build.add_of_lt (by omega), ok_bind]
    split_ifs <;> exact ⟨_, rfl, fun h => nomatch h⟩

/-- The header guard is the only way in which such a grammar rejects a block. -/
theorem interpretBlock_short
    (hheader : block.length < grammar.structures.videoBlock.header.size) :
    interpretBlock X grammar blockIndex byteOffset block hash =
      fail (.blockTooSmall block.length grammar.structures.videoBlock.header.size) :=
  if_pos hheader

theorem parseBlock_total {plugin : Option Descrambler}
    (hplugin : ∀ descramble ∈ plugin, ∀ blockIndex bytes, descramble blockIndex bytes ≠ panicked)
    (hg : Interpretable X grammar reach) (hreach : byteOffset + block.length ≤ reach)
    (hheader : grammar.structures.videoBlock.header.size ≤ block.length) :
    ∃ r, parseBlock X grammar plugin blockIndex byteOffset block = .ok r := by
  obtain ⟨r, hr, hscrambled⟩ := interpretBlock_total blockIndex (X.blake3Hex block) hg
    (by omega : byteOffset ≤ reach) hheader
  rw [parseBlock, hr, ok_bind]
  unfold descrambleRecord
  split
  · rename_i descramble hflag
    obtain ⟨hoffset, hlen⟩ := hscrambled hflag
    have hplace := (interpretBlock_identity hr).2.1
    have hpayload := hg.payload
    have hdefault := hg.defaultPayload
    dsimp only
    rw [X.build.add_of_lt (by omega), ok_bind]
    split_ifs with hend
    · rw [slice_of_le (by omega) hend, ok_bind]
      split
      · exact ⟨_, rfl⟩
      · exact ⟨_, rfl⟩
      · rename_i hpanic
        exact absurd hpanic (hplugin descramble rfl _ _)
    · exact ⟨_, rfl⟩
  · exact ⟨_, rfl⟩

end Blocks

section Runs

variable {X : Crates} {sourcePath caseName acquiredAt evidencePath dbPath path : String}
  {content : FileContent} {blockSize : ℕ} {acquisitionPlan headerPlan bodyPlan : Schedule IoError}
  {manifest : AcquisitionManifest} {grammarsDir : GrammarsDir} {grammar : GrammarFile}
  {plugin : Option Descrambler} {loadPlugin : String → Option Descrambler} {db : DbFile}

/-- Blocks that all have room for the header are all extracted. -/
theorem mapM_parseBlock_total (hg : Interpretable X grammar content.bytes.length)
    (hplugin : ∀ descramble ∈ plugin, ∀ blockIndex bytes, descramble blockIndex bytes ≠ panicked)
    (hsize : 0 < blockSize) (prefixLength : ℕ) (hbegins : prefixLength ≤ content.bytes.length)
    (hheader : ∀ block ∈ blocks blockSize (content.bytes.take prefixLength),
      grammar.structures.videoBlock.header.size ≤ block.length) :
    ∃ records, ((blocks blockSize (content.bytes.take prefixLength)).zipIdx.mapM fun p =>
      parseBlock X grammar plugin p.2 (p.2 * blockSize) p.1) = .ok records := by
  refine mapM_isOk fun p hp => ?_
  obtain ⟨block, i⟩ := p
  have hget := List.mk_mem_zipIdx_iff_getElem?.mp hp
  have hi := (List.getElem?_eq_some_iff.mp hget).1
  rw [length_blocks] at hi
  have hblock := Option.some.inj ((getElem?_blocks _ _ i hi).symm.trans hget)
  have hplace := (lt_blockCount_iff _ _ _ hsize).mp hi
  have hlen := length_blockAt blockSize (content.bytes.take prefixLength) i
  rw [hblock, List.length_take] at hlen
  rw [List.length_take] at hplace
  have hreach : i * blockSize + block.length ≤ content.bytes.length := by omega
  exact parseBlock_total hplugin hg hreach (hheader block (List.mem_of_getElem? hget))

/-- The blocks of a content are all extracted when there is no remainder after the last full
one, or one with room for the header. -/
theorem extracted_of_room (hg : Interpretable X grammar content.bytes.length)
    (hplugin : ∀ descramble ∈ plugin, ∀ blockIndex bytes, descramble blockIndex bytes ≠ panicked)
    (hsize : 0 < blockSize) (hheader : grammar.structures.videoBlock.header.size ≤ blockSize)
    (hroom : content.bytes.length % blockSize = 0 ∨
      grammar.structures.videoBlock.header.size ≤ content.bytes.length % blockSize) :
    ∃ records, ((blocks blockSize content.bytes).zipIdx.mapM fun p =>
      parseBlock X grammar plugin p.2 (p.2 * blockSize) p.1) = .ok records := by
  have htotal := mapM_parseBlock_total hg hplugin hsize content.bytes.length le_rfl (by
    rw [List.take_length]
    intro block hblock
    have hlen := length_of_mem_blocks blockSize content.bytes block hsize hblock
    omega)
  rwa [List.take_length] at htotal

/-- A remainder without room for the header ends the extraction behind the full blocks. -/
theorem extraction_short (hg : Interpretable X grammar content.bytes.length)
    (hplugin : ∀ descramble ∈ plugin, ∀ blockIndex bytes, descramble blockIndex bytes ≠ panicked)
    (hsize : 0 < blockSize) (hheader : grammar.structures.videoBlock.header.size ≤ blockSize)
    (hshort : ¬ (content.bytes.length % blockSize = 0 ∨
      grammar.structures.videoBlock.header.size ≤ content.bytes.length % blockSize)) :
    ((blocks blockSize content.bytes).zipIdx.mapM fun p =>
      parseBlock X grammar plugin p.2 (p.2 * blockSize) p.1) =
        fail (.blockTooSmall (content.bytes.length % blockSize)
          grammar.structures.videoBlock.header.size) := by
  obtain ⟨hblocks, hcount, hlast⟩ :=
    blocks_eq_append_remainder blockSize content.bytes hsize (by omega)
  obtain ⟨records, hrecords⟩ := mapM_parseBlock_total hg hplugin hsize
    (content.bytes.length / blockSize * blockSize) (Nat.div_mul_le_self _ _) (by
      intro block hblock
      have hlen := length_of_mem_blocks blockSize _ block hsize hblock
      rw [List.length_take, Nat.min_eq_left (Nat.div_mul_le_self _ _),
        Nat.mul_mod_left] at hlen
      omega)
  rw [hblocks, List.zipIdx_append, hcount, Nat.zero_add, List.zipIdx_singleton,
    mapM_append_error hrecords
      (e := .error (.blockTooSmall (content.bytes.length % blockSize)
        grammar.structures.videoBlock.header.size)) ?_]
  · rfl
  · dsimp only
    rw [← hlast, parseBlock, interpretBlock_short (by omega)]
    rfl

/-- What extracted records need in order to be demuxed and stored: a checked build stops at
a second record of a channel with the largest sequence number. -/
structure Storable (X : Crates) (db : DbFile) (records : List ExtractedRecord) : Prop where
  numbers : X.build = .release ∨ ∀ c, 0 < c → atLimit records c ≤ 1
  opening : db.io.opening = none
  writing : db.io.writing = none

theorem storeRecords_isOk_iff {records : List ExtractedRecord} :
    (∃ summary tables, storeRecords X manifest grammar records dbPath db = .ok (summary, tables)) ↔
      Storable X db records := by
  constructor
  · rintro ⟨summary, tables, h⟩
    simp only [storeRecords, bind_ok, ofExcept_eq_ok] at h
    obtain ⟨streams, hstreams, opened, hopen, ⟨stored, caseId, evidenceId⟩, hstore, -⟩ := h
    obtain ⟨hopening, rfl⟩ := CaseDatabase.openFile_ok.mp hopen
    refine ⟨(demuxRecords_isOk_iff X records).mp ⟨streams, hstreams⟩, hopening, ?_⟩
    exact CaseDatabase.writing_of_stored hstore
  · intro h
    obtain ⟨streams, hstreams⟩ := (demuxRecords_isOk_iff X records).mpr h.numbers
    obtain ⟨stored, caseId, evidenceId, hstore, -⟩ :=
      @CaseDatabase.storeCaseExtraction_isOk ⟨dbPath, db.tables.getD .empty, db.io⟩
        manifest.caseName grammar.id grammar.tier records h.writing
    refine ⟨summarize grammar records streams dbPath, stored.tables, ?_⟩
    rw [storeRecords, hstreams, ok_bind, CaseDatabase.openFile_ok.mpr ⟨h.opening, rfl⟩]
    simp only [Machine.ofExcept, ok_bind, hstore]

/-- A summary counts the records that were stored behind those that were there. -/
theorem storeRecords_stored {records : List ExtractedRecord} {summary : ParseSummary}
    {tables : Tables}
    (h : storeRecords X manifest grammar records dbPath db = .ok (summary, tables)) :
    summary.totalBlocks = records.length ∧
      ∃ evidenceId, tables.extractedRecords = (db.tables.getD .empty).extractedRecords ++
        records.map (ExtractedRow.ofRecord evidenceId) := by
  simp only [storeRecords, bind_ok, ofExcept_eq_ok] at h
  obtain ⟨streams, -, opened, hopen, ⟨stored, caseId, evidenceId⟩, hstore, hout⟩ := h
  obtain ⟨-, rfl⟩ := CaseDatabase.openFile_ok.mp hopen
  obtain ⟨-, -, hrows, -⟩ := CaseDatabase.storeCaseExtraction_ok hstore
  simp only [Except.ok.injEq, Prod.mk.injEq] at hout
  obtain ⟨rfl, rfl⟩ := hout
  exact ⟨rfl, evidenceId, hrows⟩

/-- Every acquired block is parsed exactly when the remainder after the last full
block, if there is one, has room for the video header: the extraction has a record for each,
and the run ends with them stored exactly when they can be. Otherwise the run ends with the
error of that block and stores nothing. -/
theorem parseCase_every_block
    (hacquired : acquireEvidence X sourcePath caseName acquiredAt
      (.opened content.bytes acquisitionPlan) (some blockSize) = .ok manifest)
    (hdetected : detectGrammar X ⟨evidencePath, content, none⟩ grammarsDir headerPlan =
      .ok (grammar, path))
    (hheader : grammar.structures.videoBlock.header.size ≤ blockSize)
    (hg : Interpretable X grammar content.bytes.length)
    (hplugin : ∀ descramble ∈ grammar.descramblePlugin.bind loadPlugin,
      ∀ blockIndex bytes, descramble blockIndex bytes ≠ panicked)
    (hmemory : blockSize ≤ X.memory ∧ recordSize * manifest.blockCount ≤ X.memory)
    (hlegal : Legal bodyPlan) :
    (content.bytes.length % blockSize = 0 ∨
        grammar.structures.videoBlock.header.size ≤ content.bytes.length % blockSize →
      ∃ records, extractRecords X manifest grammar (grammar.descramblePlugin.bind loadPlugin)
          (.opened content.bytes bodyPlan) = .ok records ∧
        records.length = manifest.blockCount ∧
        (∀ i r, records[i]? = some r → r.blockIndex = i ∧ r.byteOffset = i * blockSize ∧
          manifest.blockHashes[i]? = some r.blake3Hash) ∧
        ((∃ summary tables, parseCase X (.holding manifest evidencePath content) grammarsDir
          loadPlugin dbPath db headerPlan bodyPlan = .ok (summary, tables)) ↔
            Storable X db records) ∧
        ∀ summary tables, parseCase X (.holding manifest evidencePath content) grammarsDir
          loadPlugin dbPath db headerPlan bodyPlan = .ok (summary, tables) →
            summary.totalBlocks = manifest.blockCount ∧ ∃ evidenceId,
              tables.extractedRecords = (db.tables.getD .empty).extractedRecords ++
                records.map (ExtractedRow.ofRecord evidenceId)) ∧
    (¬ (content.bytes.length % blockSize = 0 ∨
        grammar.structures.videoBlock.header.size ≤ content.bytes.length % blockSize) →
      parseCase X (.holding manifest evidencePath content) grammarsDir loadPlugin dbPath db
        headerPlan bodyPlan =
          fail (.blockTooSmall (content.bytes.length % blockSize)
            grammar.structures.videoBlock.header.size)) := by
  have hblockSize := acquireEvidence_blockSize hacquired
  obtain ⟨hsize, hm⟩ := acquireEvidence_ok (batch_fits X hmemory.1) hacquired
  simp only [Reader.opened] at hm
  have hbuffers : manifest.blockSize ≤ X.memory ∧
      recordSize * manifest.blockCount ≤ X.memory := by rwa [hblockSize]
  have hplain : plainRecords X manifest grammar (grammar.descramblePlugin.bind loadPlugin)
      content.bytes = (blocks blockSize content.bytes).zipIdx.mapM fun p =>
        parseBlock X grammar (grammar.descramblePlugin.bind loadPlugin) p.2
          (p.2 * blockSize) p.1 := by
    have hcount : manifest.blockCount = (blocks blockSize content.bytes).length := by
      rw [hm, length_blocks]
      rfl
    rw [plainRecords, hblockSize, hcount, List.take_length]
  rw [parseCase_detected hdetected hbuffers hlegal]
  constructor
  · intro hroom
    obtain ⟨records, hrecords⟩ := extracted_of_room hg hplugin hsize hheader hroom
    rw [← hplain] at hrecords
    obtain ⟨hlen, hmatch⟩ := plainRecords_match hsize hm hrecords
    refine ⟨records, ?_, hlen, fun i r hr => ?_, ?_, fun summary tables hrun => ?_⟩
    · rw [extractRecords_legal X manifest grammar _ _ hbuffers hlegal]
      exact hrecords
    · obtain ⟨hindex, hoffset, hhash⟩ := (hmatch i r hr).1
      exact ⟨hindex, by rw [hoffset, hblockSize], hhash⟩
    · rw [hrecords, ok_bind]
      exact storeRecords_isOk_iff
    · rw [hrecords, ok_bind] at hrun
      obtain ⟨hcount, hrows⟩ := storeRecords_stored hrun
      exact ⟨hcount.trans hlen, hrows⟩
  · intro hshort
    rw [hplain, extraction_short hg hplugin hsize hheader hshort]
    rfl

end Runs

theorem interpretable_tiny : Interpretable .sample (tinyGrammar 1 1) 3 where
  videoMagic := ⟨[97], by decide, by decide⟩
  otherMagics := by
    rintro magic bytes (h | h) <;> simp [tinyGrammar] at h
  fields := by simp [tinyGrammar]
  zones := by simp [tinyGrammar]
  payload := by decide
  defaultPayload := by decide

theorem detectGrammar_tiny (fixedSize headerSize : ℕ) :
    detectGrammar .sample ⟨"evidence.raw", abc, none⟩ (tinyDir fixedSize headerSize) eager =
      .ok (tinyGrammar fixedSize headerSize, "tiny.yaml") := by
  rfl

theorem parseCase_every_block_abc :
    ∃ summary tables,
      parseCase .sample (.holding abcManifest "evidence.raw" abc) (tinyDir 1 1) (fun _ => none)
        "case.db" .absent eager eager = .ok (summary, tables) ∧ summary.totalBlocks = 2 := by
  obtain ⟨⟨summary, tables⟩, hrun⟩ := exists_ok
    (x := parseCase .sample (.holding abcManifest "evidence.raw" abc) (tinyDir 1 1)
      (fun _ => none) "case.db" .absent eager eager) (by decide +kernel)
  obtain ⟨records, -, -, -, -, hcounts⟩ := (parseCase_every_block
    (acquireEvidence_legal .sample "evidence.raw" "case" "" (.opened abc.bytes eager) 2
      (by decide) (by decide) eager_legal) (detectGrammar_tiny 1 1) (by decide)
    interpretable_tiny (by simp [tinyGrammar]) (by decide) eager_legal).1 (by decide)
  exact ⟨summary, tables, hrun, (hcounts summary tables hrun).1⟩

/-- The last byte of three does not make a block of two and ends the run. -/
theorem short_block_ends_run :
    acquireEvidence .sample "evidence.raw" "case" "" (.opened abc.bytes eager) (some 2) =
      .ok abcManifest ∧
    detectGrammar .sample ⟨"evidence.raw", abc, none⟩ (tinyDir 2 2) eager =
      .ok (tinyGrammar 2 2, "tiny.yaml") ∧
    (tinyGrammar 2 2).structures.videoBlock.header.magic.expectedBytes = .ok [97] ∧
    (tinyGrammar 2 2).structures.videoBlock.header.size ≤ 2 ∧
    parseCase .sample (.holding abcManifest "evidence.raw" abc) (tinyDir 2 2) (fun _ => none)
      "case.db" .absent eager eager = fail (.blockTooSmall 1 2) := by
  refine ⟨?_, detectGrammar_tiny 2 2, by decide, by decide, ?_⟩
  · exact acquireEvidence_legal .sample "evidence.raw" "case" "" (.opened abc.bytes eager) 2
      (by decide) (by decide) eager_legal
  · rfl

end Dvrft.Coverage
