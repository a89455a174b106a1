import Dvrft.Passes

/-!
Two acquisitions of one image in blocks of different sizes. The parser looks for
one header at the start of each acquired block, wherever the units of the format
begin; so the two runs extract the same frames exactly when no header lies at the
start of a block of one division only.
-/

namespace Dvrft.Reblocking

open Chunks ShortReads Errors Machine Platform Crates Grammar Timestamps Acquisition Interpreter
  Database CaseFiles Detection ParseCase Passes

/-- The bytes that a field of this type takes. -/
def fieldWidth (field : FieldDef) : ℕ :=
  match field.fieldType with
  | "u8" => 1
  | "u16" => 2
  | "u32" => 4
  | "u64" => 8
  | _ => 0

/-- The layout that a grammar gives to a unit of its declared size: signature and
fields lie within the unit. -/
structure LaidOut (videoDef : VideoBlockDef) : Prop where
  magic : ∀ bytes, videoDef.header.magic.expectedBytes = .ok bytes →
    videoDef.header.magic.offset + bytes.length ≤ videoDef.fixedSize
  fields : ∀ field ∈ videoDef.header.fields,
    field.offset + fieldWidth field ≤ videoDef.fixedSize

/-- The image has the video signature for a unit that begins at `place`. -/
def HeaderAt (videoDef : VideoBlockDef) (image : Bytes) (place : ℕ) : Prop :=
  ∃ bytes, videoDef.header.magic.expectedBytes = .ok bytes ∧
    place + videoDef.header.magic.offset + bytes.length ≤ image.length ∧
    (image.drop (place + videoDef.header.magic.offset)).take bytes.length = bytes

/-- What identifies an extracted frame: channel, time, sequence number and the
place of its payload. -/
abbrev Frame := UInt32 × UInt64 × UInt32 × ℕ

def frame (r : ExtractedRecord) : Frame :=
  (r.channelId, r.timestamp, r.sequenceNum, r.payloadOffset)

/-- The video frames among the stored records. -/
def videoFrames (tables : Tables) : Set Frame :=
  {f | ∃ row ∈ tables.extractedRecords, ∃ r, row.read = .ok r ∧
    r.blockType = "video_frame" ∧ frame r = f}

/-- The frame of the unit at `place`, read from the unit alone. -/
def unitFrame (X : Crates) (videoDef : VideoBlockDef) (image : Bytes) (place : ℕ) :
    Parsed Frame := do
  let v ← videoDef.header.fields.foldlM
    (applyField X ((image.drop place).take videoDef.fixedSize))
    (HeaderValues.initial videoDef.payload.defaultLength)
  .ok (v.channelId, v.timestamp, v.sequenceNum, (place + videoDef.payload.offset) % 2 ^ 64)

section Unit

variable {X : Crates} {videoDef : VideoBlockDef} {block : Bytes} {unit : ℕ}

theorem index_take {i : ℕ} (h : i < unit) :
    (index (block.take unit) i : Parsed UInt8) = index block i := by
  rw [index, index, List.getElem?_take_of_lt h]

theorem readWord_take {field : FieldDef} {width : ℕ} (hunit : unit < 2 ^ 64)
    (h : field.offset + width ≤ unit) :
    readWord X (block.take unit) field width = readWord X block field width := by
  have hbytes : bytesAt (block.take unit) field.offset width =
      bytesAt block field.offset width := by
    refine mapM_congr fun i hi => ?_
    have hwidth := List.mem_range.mp hi
    exact index_take (by omega)
  have hshort : (block.take unit).length < field.offset + width ↔
      block.length < field.offset + width := by
    rw [List.length_take]
    omega
  simp only [readWord, X.build.add_of_lt (show field.offset + width < 2 ^ 64 by omega),
    ok_bind, hbytes, hshort]

/-- A field that lies within the unit is read from the unit alone. -/
theorem readFieldValue_take {field : FieldDef} (hunit : unit < 2 ^ 64)
    (h : field.offset + fieldWidth field ≤ unit) :
    readFieldValue X (block.take unit) field = readFieldValue X block field := by
  unfold fieldWidth at h
  unfold readFieldValue
  generalize field.fieldType = kind at h ⊢
  split at h
  · have hshort : (block.take unit).length ≤ field.offset ↔ block.length ≤ field.offset := by
      rw [List.length_take]
      omega
    simp only [hshort, index_take (show field.offset < unit by omega)]
  · exact readWord_take hunit h
  · exact readWord_take hunit h
  · exact readWord_take hunit h
  · simp_all

/-- Header values that name the same frame; the payload length may differ. -/
def SameFrame (v w : HeaderValues) : Prop :=
  v.channelId = w.channelId ∧ v.timestamp = w.timestamp ∧ v.sequenceNum = w.sequenceNum

theorem applyField_take {field : FieldDef} {v w v' : HeaderValues} (hunit : unit < 2 ^ 64)
    (hfield : field.offset + fieldWidth field ≤ unit) (hvw : SameFrame v w)
    (h : applyField X block v field = .ok v') :
    ∃ w', applyField X (block.take unit) w field = .ok w' ∧ SameFrame v' w' := by
  obtain ⟨hchannel, htime, hsequence⟩ := hvw
  unfold applyField at h ⊢
  rw [readFieldValue_take hunit hfield]
  obtain ⟨val, hval, h⟩ := bind_ok.mp h
  rw [hval, ok_bind]
  split at h
  · obtain rfl := Except.ok.inj h
    exact ⟨_, rfl, rfl, htime, hsequence⟩
  · obtain ⟨text, htext, h⟩ := bind_ok.mp h
    obtain rfl := Except.ok.inj h
    rw [htext, ok_bind]
    exact ⟨_, rfl, hchannel, rfl, hsequence⟩
  · obtain rfl := Except.ok.inj h
    exact ⟨_, rfl, hchannel, htime, rfl⟩
  · -- only here the length of the block counts
    obtain rfl := Except.ok.inj h
    refine ⟨_, rfl, ?_⟩
    split_ifs <;> exact ⟨hchannel, htime, hsequence⟩
  · obtain rfl := Except.ok.inj h
    refine ⟨_, rfl, ?_⟩
    unfold applyFlags
    split <;> exact ⟨hchannel, htime, hsequence⟩
  · obtain rfl := Except.ok.inj h
    exact ⟨_, rfl, hchannel, htime, hsequence⟩

/-- The video signature is found in a block exactly when the image has it at the
block's place. -/
theorem matchesAt_block {image magicBytes : Bytes} {offset place blockSize : ℕ}
    (hsize : blockSize < 2 ^ 64) (hmagic : offset + magicBytes.length ≤ blockSize)
    (hplace : place < image.length) :
    matchesAt X ((image.drop place).take blockSize) offset magicBytes = .ok true ↔
      place + offset + magicBytes.length ≤ image.length ∧
        (image.drop (place + offset)).take magicBytes.length = magicBytes := by
  have hlen : ((image.drop place).take blockSize).length =
      min blockSize (image.length - place) := by simp
  unfold matchesAt
  rw [X.build.add_of_lt (by omega), ok_bind]
  split_ifs with hstop
  · have hslice : (((image.drop place).take blockSize).drop offset).take
        (offset + magicBytes.length - offset) =
          (image.drop (place + offset)).take magicBytes.length := by
      rw [List.drop_take, List.drop_drop, List.take_take]
      congr 1
      omega
    rw [slice_of_le (by omega) hstop, ok_bind, hslice]
    simp only [Except.ok.injEq, beq_iff_eq]
    refine ⟨fun h => ⟨by omega, h⟩, fun h => h.2⟩
  · simp only [Except.ok.injEq, Bool.false_eq_true, false_iff, not_and]
    omega

/-- The record of a block is a video frame exactly when the image has a header at
the block's place, and then it is the frame of the unit that begins there. -/
theorem parseBlock_unit {grammar : GrammarFile} {plugin : Option Descrambler} {image : Bytes}
    {blockSize blockIndex place : ℕ} {r : ExtractedRecord}
    (hlaid : LaidOut grammar.structures.videoBlock)
    (hunit : grammar.structures.videoBlock.fixedSize ≤ blockSize)
    (hsize : blockSize < 2 ^ 64) (hplace : place < image.length)
    (h : parseBlock X grammar plugin blockIndex place ((image.drop place).take blockSize) =
      .ok r) :
    (r.blockType = "video_frame" ↔ HeaderAt grammar.structures.videoBlock image place) ∧
      (HeaderAt grammar.structures.videoBlock image place →
        unitFrame X grammar.structures.videoBlock image place = .ok (frame (wrap64 r))) := by
  obtain ⟨record, hrecord, h⟩ := bind_ok.mp h
  have hsame : r.blockType = record.blockType ∧ frame (wrap64 r) = frame (wrap64 record) := by
    rcases descrambleRecord_cases h with rfl | ⟨hash, rfl⟩ <;> exact ⟨rfl, rfl⟩
  rw [hsame.1, hsame.2]
  obtain ⟨-, magicBytes, hmagic, hcases⟩ := interpretBlock_cases hrecord
  have hbytes := hlaid.magic magicBytes hmagic
  have hheader : HeaderAt grammar.structures.videoBlock image place ↔
      matchesAt X ((image.drop place).take blockSize)
        grammar.structures.videoBlock.header.magic.offset magicBytes = .ok true := by
    rw [matchesAt_block hsize (by omega) hplace, HeaderAt, hmagic]
    simp
  rw [hheader]
  rcases hcases with ⟨hfound, hvideo⟩ | ⟨hmissing, _, _, _, _, hkind, rfl⟩
  · obtain ⟨v, payloadOffset, hv, hadd, rfl⟩ := parseVideoBlock_cases hvideo
    refine ⟨iff_of_true rfl hfound, fun _ => ?_⟩
    obtain ⟨w, hw, hchannel, htime, hsequence⟩ := foldlM_simulates
      (fun v w v' field hfield hvw hstep => applyField_take
        (show grammar.structures.videoBlock.fixedSize < 2 ^ 64 by omega)
        (hlaid.fields field hfield) hvw hstep) (⟨rfl, rfl, rfl⟩ : SameFrame _ _) hv
    rw [List.take_take, Nat.min_eq_left hunit] at hw
    rw [unitFrame, hw, ok_bind, ← Build.add_ok_mod hadd, ← hchannel, ← htime, ← hsequence]
    rfl
  · rw [hmissing]
    exact ⟨iff_of_false hkind (by simp), fun hfound => by simp at hfound⟩

end Unit

/-- The frames are those of the units with a header that begin where a block
begins, and all of these units have a frame. -/
structure FramesOf (X : Crates) (videoDef : VideoBlockDef) (content : FileContent)
    (blockSize : ℕ) (frames : Set Frame) : Prop where
  sound : ∀ f ∈ frames, ∃ place < content.bytes.length, blockSize ∣ place ∧
    HeaderAt videoDef content.bytes place ∧ unitFrame X videoDef content.bytes place = .ok f
  complete : ∀ place < content.bytes.length, blockSize ∣ place →
    HeaderAt videoDef content.bytes place →
    ∃ f ∈ frames, unitFrame X videoDef content.bytes place = .ok f

section Runs

variable {X : Crates} {sourcePath caseName acquiredAt evidencePath dbPath path : String}
  {content : FileContent} {blockSize : ℕ} {acquisitionPlan headerPlan bodyPlan : Schedule IoError}
  {manifest : AcquisitionManifest} {grammarsDir : GrammarsDir} {grammar : GrammarFile}
  {loadPlugin : String → Option Descrambler} {db : DbFile} {summary : ParseSummary}
  {tables : Tables}

/-- One record for each block, parsed from the bytes at its place. -/
theorem records_run
    (hacquired : acquireEvidence X sourcePath caseName acquiredAt
      (.opened content.bytes acquisitionPlan) (some blockSize) = .ok manifest)
    (hdetected : detectGrammar X ⟨evidencePath, content, none⟩ grammarsDir headerPlan =
      .ok (grammar, path))
    (hfresh : db.tables.getD .empty = .empty)
    (hparsed : parseCase X (.holding manifest evidencePath content) grammarsDir loadPlugin
      dbPath db headerPlan bodyPlan = .ok (summary, tables)) :
    0 < blockSize ∧ blockSize ≤ X.memory ∧
      ∃ records : List ExtractedRecord,
        records.length = blockCount blockSize content.bytes.length ∧
        tables.extractedRecords = records.map (ExtractedRow.ofRecord 1) ∧
        ∀ i r, records[i]? = some r →
          parseBlock X grammar (grammar.descramblePlugin.bind loadPlugin) i (i * blockSize)
            ((content.bytes.drop (i * blockSize)).take blockSize) = .ok r := by
  obtain ⟨grammar', path', records, hdetected', hmemory, hplain, hstored⟩ :=
    parseCase_holding hparsed
  obtain ⟨rfl, rfl⟩ : grammar = grammar' ∧ path = path' := by
    simpa using hdetected.symm.trans hdetected'
  have hblockSize := acquireEvidence_blockSize hacquired
  obtain ⟨hsize, hm⟩ :=
    acquireEvidence_ok (batch_fits X (hblockSize ▸ hmemory.1)) hacquired
  simp only [Reader.opened] at hm
  have hcount : manifest.blockCount = (blocks blockSize content.bytes).length := by
    rw [hm, length_blocks]
    rfl
  obtain ⟨hlen, hget⟩ := plainRecords_getElem hplain
  rw [hblockSize, hcount, List.take_length] at hlen hget
  refine ⟨hsize, hblockSize ▸ hmemory.1, records, by rw [hlen, length_blocks],
    (storeRecords_fresh hfresh hstored).2, fun i r hr => ?_⟩
  obtain ⟨block, hblock, hparse⟩ := hget i r hr
  have hi := (List.getElem?_eq_some_iff.mp hblock).1
  rw [length_blocks] at hi
  obtain rfl := Option.some.inj ((getElem?_blocks _ _ i hi).symm.trans hblock)
  exact hparse

theorem videoFrames_run (hlaid : LaidOut grammar.structures.videoBlock)
    (hunit : grammar.structures.videoBlock.fixedSize ≤ blockSize)
    (hacquired : acquireEvidence X sourcePath caseName acquiredAt
      (.opened content.bytes acquisitionPlan) (some blockSize) = .ok manifest)
    (hdetected : detectGrammar X ⟨evidencePath, content, none⟩ grammarsDir headerPlan =
      .ok (grammar, path))
    (hfresh : db.tables.getD .empty = .empty)
    (hparsed : parseCase X (.holding manifest evidencePath content) grammarsDir loadPlugin
      dbPath db headerPlan bodyPlan = .ok (summary, tables)) :
    FramesOf X grammar.structures.videoBlock content blockSize (videoFrames tables) := by
  obtain ⟨hsize, hmemory, records, hlen, hrows, hparse⟩ :=
    records_run hacquired hdetected hfresh hparsed
  have hfits : blockSize < 2 ^ 64 := by
    have hlt := X.memory_lt
    omega
  have hmem : ∀ f, f ∈ videoFrames tables ↔
      ∃ r ∈ records, r.blockType = "video_frame" ∧ frame (wrap64 r) = f := by
    intro f
    simp only [videoFrames, hrows, Set.mem_ofPred_eq, List.mem_map, exists_exists_and_eq_and,
      read_ofRecord, Except.ok.injEq, exists_eq_left']
    rfl
  constructor
  · intro f hf
    obtain ⟨r, hr, hkind, hframe⟩ := (hmem f).mp hf
    obtain ⟨i, hi⟩ := List.getElem?_of_mem hr
    have hcount := (List.getElem?_eq_some_iff.mp hi).1
    have hplace := (lt_blockCount_iff _ _ _ hsize).mp (hlen ▸ hcount)
    obtain ⟨hheader, hunitFrame⟩ := parseBlock_unit hlaid hunit hfits hplace (hparse i r hi)
    have hhere := hheader.mp hkind
    exact ⟨i * blockSize, hplace, Nat.dvd_mul_left _ _, hhere, hframe ▸ hunitFrame hhere⟩
  · rintro place hplace ⟨i, rfl⟩ hhere
    rw [Nat.mul_comm] at hplace hhere ⊢
    have hcount := (lt_blockCount_iff _ _ _ hsize).mpr hplace
    obtain ⟨r, hi⟩ : ∃ r, records[i]? = some r :=
      ⟨_, List.getElem?_eq_getElem (hlen ▸ hcount)⟩
    obtain ⟨hheader, hunitFrame⟩ := parseBlock_unit hlaid hunit hfits hplace (hparse i r hi)
    exact ⟨frame (wrap64 r), (hmem _).mpr ⟨r, List.mem_of_getElem? hi, hheader.mpr hhere, rfl⟩,
      hunitFrame hhere⟩

end Runs

/-- A unit's frame tells its place. -/
theorem unitFrame_injective {X : Crates} {videoDef : VideoBlockDef} {content : FileContent}
    {place1 place2 : ℕ} {f : Frame} (hplace1 : place1 < content.bytes.length)
    (hplace2 : place2 < content.bytes.length)
    (h1 : unitFrame X videoDef content.bytes place1 = .ok f)
    (h2 : unitFrame X videoDef content.bytes place2 = .ok f) : place1 = place2 := by
  obtain ⟨v, -, hv⟩ := bind_ok.mp h1
  obtain ⟨w, -, hw⟩ := bind_ok.mp h2
  have hpayload := congrArg (·.2.2.2) (Except.ok.inj (hv.trans hw.symm))
  have hfile := content.size_lt
  dsimp only at hpayload
  omega

/-- One division's frames are among the other's exactly when the other division
begins a block at each of its headers. -/
theorem FramesOf.subset_iff {X : Crates} {videoDef : VideoBlockDef} {content : FileContent}
    {blockSize1 blockSize2 : ℕ} {frames1 frames2 : Set Frame}
    (h1 : FramesOf X videoDef content blockSize1 frames1)
    (h2 : FramesOf X videoDef content blockSize2 frames2) :
    frames1 ⊆ frames2 ↔ ∀ place < content.bytes.length,
      HeaderAt videoDef content.bytes place → blockSize1 ∣ place → blockSize2 ∣ place := by
  constructor
  · intro hsubset place hplace hheader hdvd
    obtain ⟨f, hf, hunitFrame⟩ := h1.complete place hplace hdvd hheader
    obtain ⟨place', hplace', hdvd', -, hunitFrame'⟩ := h2.sound f (hsubset hf)
    exact unitFrame_injective hplace' hplace hunitFrame' hunitFrame ▸ hdvd'
  · intro hstarts f hf
    obtain ⟨place, hplace, hdvd, hheader, hunitFrame⟩ := h1.sound f hf
    obtain ⟨f', hf', hunitFrame'⟩ :=
      h2.complete place hplace (hstarts place hplace hheader hdvd) hheader
    rwa [Except.ok.inj (hunitFrame.symm.trans hunitFrame')]

/-- Two runs over one image, acquired in blocks of two sizes, extract the same
frames exactly when no header lies at the start of a block of one division only. -/
theorem videoFrames_eq_iff {X : Crates}
    {sourcePath caseName acquiredAt1 acquiredAt2 evidencePath dbPath1 dbPath2 path1 path2 : String}
    {content : FileContent} {blockSize1 blockSize2 : ℕ}
    {acquisitionPlan1 acquisitionPlan2 headerPlan1 headerPlan2 bodyPlan1 bodyPlan2 :
      Schedule IoError}
    {manifest1 manifest2 : AcquisitionManifest} {grammarsDir : GrammarsDir}
    {grammar : GrammarFile} {loadPlugin : String → Option Descrambler} {db1 db2 : DbFile}
    {summary1 summary2 : ParseSummary} {tables1 tables2 : Tables}
    (hlaid : LaidOut grammar.structures.videoBlock)
    (hunit1 : grammar.structures.videoBlock.fixedSize ≤ blockSize1)
    (hunit2 : grammar.structures.videoBlock.fixedSize ≤ blockSize2)
    (hacquired1 : acquireEvidence X sourcePath caseName acquiredAt1
      (.opened content.bytes acquisitionPlan1) (some blockSize1) = .ok manifest1)
    (hacquired2 : acquireEvidence X sourcePath caseName acquiredAt2
      (.opened content.bytes acquisitionPlan2) (some blockSize2) = .ok manifest2)
    (hdetected1 : detectGrammar X ⟨evidencePath, content, none⟩ grammarsDir headerPlan1 =
      .ok (grammar, path1))
    (hdetected2 : detectGrammar X ⟨evidencePath, content, none⟩ grammarsDir headerPlan2 =
      .ok (grammar, path2))
    (hfresh1 : db1.tables.getD .empty = .empty) (hfresh2 : db2.tables.getD .empty = .empty)
    (hparsed1 : parseCase X (.holding manifest1 evidencePath content) grammarsDir loadPlugin
      dbPath1 db1 headerPlan1 bodyPlan1 = .ok (summary1, tables1))
    (hparsed2 : parseCase X (.holding manifest2 evidencePath content) grammarsDir loadPlugin
      dbPath2 db2 headerPlan2 bodyPlan2 = .ok (summary2, tables2)) :
    videoFrames tables1 = videoFrames tables2 ↔
      ∀ place < content.bytes.length,
        HeaderAt grammar.structures.videoBlock content.bytes place →
        (blockSize1 ∣ place ↔ blockSize2 ∣ place) := by
  have hrun1 := videoFrames_run hlaid hunit1 hacquired1 hdetected1 hfresh1 hparsed1
  have hrun2 := videoFrames_run hlaid hunit2 hacquired2 hdetected2 hfresh2 hparsed2
  rw [Set.Subset.antisymm_iff, hrun1.subset_iff hrun2, hrun2.subset_iff hrun1]
  constructor
  · rintro ⟨h12, h21⟩ place hplace hheader
    exact ⟨h12 place hplace hheader, h21 place hplace hheader⟩
  · intro hstarts
    exact ⟨fun place hplace hheader => (hstarts place hplace hheader).mp,
      fun place hplace hheader => (hstarts place hplace hheader).mpr⟩

theorem laidOut_tiny : LaidOut (tinyGrammar 1 1).structures.videoBlock where
  magic := by
    intro bytes hbytes
    obtain rfl := Except.ok.inj hbytes
    decide
  fields := by simp [tinyGrammar]

/-- The one header of `abc` lies at its start, in one-byte blocks and in blocks of two. -/
theorem videoFrames_eq_iff_abc :
    ∃ summary1 tables1 summary2 tables2,
      parseCase .sample (.holding (plainManifest .sample "evidence.raw" "case" "" 1 abc.bytes)
        "evidence.raw" abc) (tinyDir 1 1) (fun _ => none) "case.db" .absent eager eager =
          .ok (summary1, tables1) ∧
      parseCase .sample (.holding abcManifest "evidence.raw" abc) (tinyDir 1 1) (fun _ => none)
        "case.db" .absent eager eager = .ok (summary2, tables2) ∧
      videoFrames tables1 = videoFrames tables2 := by
  obtain ⟨⟨summary1, tables1⟩, hparsed1⟩ := exists_ok
    (x := parseCase .sample (.holding (plainManifest .sample "evidence.raw" "case" "" 1 abc.bytes)
      "evidence.raw" abc) (tinyDir 1 1) (fun _ => none) "case.db" .absent eager eager)
    (by decide +kernel)
  obtain ⟨⟨summary2, tables2⟩, hparsed2⟩ := exists_ok
    (x := parseCase .sample (.holding abcManifest "evidence.raw" abc) (tinyDir 1 1)
      (fun _ => none) "case.db" .absent eager eager) (by decide +kernel)
  refine ⟨summary1, tables1, summary2, tables2, hparsed1, hparsed2, ?_⟩
  have hdetected : detectGrammar .sample ⟨"evidence.raw", abc, none⟩ (tinyDir 1 1) eager =
      .ok (tinyGrammar 1 1, "tiny.yaml") := rfl
  refine (videoFrames_eq_iff laidOut_tiny (by decide) (by decide)
    (acquireEvidence_legal .sample "evidence.raw" "case" "" (.opened abc.bytes eager) 1
      (by decide) (by decide) eager_legal)
    (acquireEvidence_legal .sample "evidence.raw" "case" "" (.opened abc.bytes eager) 2
      (by decide) (by decide) eager_legal)
    hdetected hdetected rfl rfl hparsed1 hparsed2).mpr fun place hplace hheader => ?_
  obtain ⟨bytes, hbytes, -, hfound⟩ := hheader
  obtain rfl := Except.ok.inj hbytes
  have hthree : place < 3 := hplace
  interval_cases place
  · simp
  · exact absurd hfound (by decide)
  · exact absurd hfound (by decide)

def aa : FileContent := ⟨[97, 97], by decide⟩

def aaManifest (blockSize : ℕ) : AcquisitionManifest :=
  plainManifest .sample "evidence.raw" "case" "" blockSize aa.bytes

/-- Of two adjacent one-byte frames, blocks of two bytes show the first only. -/
theorem larger_block_hides_frame :
    LaidOut (tinyGrammar 1 1).structures.videoBlock ∧
    (∀ blockSize, blockSize = 1 ∨ blockSize = 2 →
      acquireEvidence .sample "evidence.raw" "case" "" (.opened aa.bytes eager)
        (some blockSize) = .ok (aaManifest blockSize)) ∧
    detectGrammar .sample ⟨"evidence.raw", aa, none⟩ (tinyDir 1 1) eager =
      .ok (tinyGrammar 1 1, "tiny.yaml") ∧
    ∃ summary1 tables1 summary2 tables2,
      parseCase .sample (.holding (aaManifest 1) "evidence.raw" aa) (tinyDir 1 1)
        (fun _ => none) "case.db" .absent eager eager = .ok (summary1, tables1) ∧
      parseCase .sample (.holding (aaManifest 2) "evidence.raw" aa) (tinyDir 1 1)
        (fun _ => none) "case.db" .absent eager eager = .ok (summary2, tables2) ∧
      videoFrames tables1 ≠ videoFrames tables2 := by
  have hacquired : ∀ blockSize, blockSize = 1 ∨ blockSize = 2 →
      acquireEvidence .sample "evidence.raw" "case" "" (.opened aa.bytes eager)
        (some blockSize) = .ok (aaManifest blockSize) := by
    intro blockSize hsize
    exact acquireEvidence_legal .sample "evidence.raw" "case" "" (.opened aa.bytes eager)
      blockSize (by omega) (hsize.elim (fun h => by subst h; decide) fun h => by subst h; decide)
      eager_legal
  have hdetected : detectGrammar .sample ⟨"evidence.raw", aa, none⟩ (tinyDir 1 1) eager =
      .ok (tinyGrammar 1 1, "tiny.yaml") := rfl
  obtain ⟨⟨summary1, tables1⟩, hparsed1⟩ := exists_ok
    (x := parseCase .sample (.holding (aaManifest 1) "evidence.raw" aa) (tinyDir 1 1)
      (fun _ => none) "case.db" .absent eager eager) (by decide +kernel)
  obtain ⟨⟨summary2, tables2⟩, hparsed2⟩ := exists_ok
    (x := parseCase .sample (.holding (aaManifest 2) "evidence.raw" aa) (tinyDir 1 1)
      (fun _ => none) "case.db" .absent eager eager) (by decide +kernel)
  refine ⟨laidOut_tiny, hacquired, hdetected, summary1, tables1, summary2, tables2, hparsed1,
    hparsed2, fun heq => ?_⟩
  have hrun1 := videoFrames_run laidOut_tiny (by decide) (hacquired 1 (.inl rfl)) hdetected rfl
    hparsed1
  have hrun2 := videoFrames_run laidOut_tiny (by decide) (hacquired 2 (.inr rfl)) hdetected rfl
    hparsed2
  have hheader : HeaderAt (tinyGrammar 1 1).structures.videoBlock aa.bytes 1 :=
    ⟨[97], rfl, by decide, by decide⟩
  have hone := (hrun1.subset_iff hrun2).mp heq.le 1 (by decide) hheader (by decide)
  omega

end Dvrft.Reblocking
