import Dvrft.Database
import Dvrft.Demux
import Dvrft.Detection

/-!
The parser's pipeline: detect a grammar, read the evidence block by block as the
manifest divides it, interpret every block, descramble what a plugin can, demux
and store. One block that cannot be interpreted ends the run.
-/

namespace Dvrft.ParseCase

open Chunks ShortReads Errors Machine Platform Crates Grammar Acquisition Interpreter Database
  CaseFiles Detection Demux

/-- A loaded plugin: the host's call into the sandbox for the payload of a block. Every call
has a deadline of its own, so equal payloads may fare differently. -/
abbrev Descrambler := ℕ → Bytes → Outcome String Bytes

/-- `size_of::<ExtractedRecord>()`: four texts, five words and 13 bytes, in whole words. -/
def recordSize : ℕ := 152

structure ParseSummary where
  grammarId : String
  grammarName : String
  validationTier : ℕ
  totalBlocks : ℕ
  validVideoFrames : ℕ
  scrambledBlocks : ℕ
  descrambledBlocks : ℕ
  corruptedBlocks : ℕ
  channelStreams : List DemuxedStream
  dbPath : String
  deriving DecidableEq, Repr

/-- The record with its payload descrambled. Without a plugin, with a payload that
leaves the block, and after a failure of the plugin the record stays as it is. -/
def descrambleRecord (X : Crates) (plugin : Option Descrambler) (blockSlice : Bytes)
    (record : ExtractedRecord) : Parsed ExtractedRecord :=
  match record.isScrambled, plugin with
  | true, some descramble => do
    let payloadOffset := record.payloadOffset - record.byteOffset
    let payloadEnd ← X.build.add payloadOffset record.payloadLen
    if payloadEnd ≤ blockSlice.length then do
      let scrambledPayload ← slice blockSlice payloadOffset payloadEnd
      match descramble record.blockIndex scrambledPayload with
      | .ok bytes =>
        .ok { record with
          descrambled := true
          descrambledBlake3Hash := some (X.blake3Hex bytes) }
      | .error (.error _) => .ok record
      | .error .panic => panicked
    else .ok record
  | _, _ => .ok record

/-- The record of one block: hashed, interpreted, descrambled. -/
def parseBlock (X : Crates) (grammar : GrammarFile) (plugin : Option Descrambler)
    (blockIndex currentOffset : ℕ) (blockSlice : Bytes) : Parsed ExtractedRecord := do
  let record ← interpretBlock X grammar blockIndex currentOffset blockSlice
    (X.blake3Hex blockSlice)
  descrambleRecord X plugin blockSlice record

/-- One round of the loop: the records so far and the offset of the next block. -/
def addBlock (X : Crates) (grammar : GrammarFile) (plugin : Option Descrambler)
    (s : List ExtractedRecord × ℕ) (blockIndex : ℕ) (blockSlice : Bytes) :
    Parsed (List ExtractedRecord × ℕ) := do
  let record ← parseBlock X grammar plugin blockIndex s.2 blockSlice
  .ok (s.1 ++ [record], s.2 + blockSlice.length)

/-- The block loop of `parse_case`. -/
def extractRecords (X : Crates) (manifest : AcquisitionManifest) (grammar : GrammarFile)
    (plugin : Option Descrambler) (source : Source) : Parsed (List ExtractedRecord) := do
  X.allocate manifest.blockSize
  X.allocate (recordSize * manifest.blockCount)
  let s ← forBlocks manifest.blockSize (fun e => .error (.io e))
    (addBlock X grammar plugin) manifest.blockCount 0 ([], 0) source
  .ok s.1

def summarize (grammar : GrammarFile) (records : List ExtractedRecord)
    (channelStreams : List DemuxedStream) (dbPath : String) : ParseSummary where
  grammarId := grammar.id
  grammarName := grammar.name
  validationTier := grammar.tier
  totalBlocks := records.length
  validVideoFrames := records.countP (·.blockType == "video_frame")
  scrambledBlocks := records.countP (·.isScrambled)
  descrambledBlocks := records.countP (·.descrambled)
  corruptedBlocks := records.countP (·.isCorrupted)
  channelStreams := channelStreams
  dbPath := dbPath

/-- Demux, store and summarize what was extracted. -/
def storeRecords (X : Crates) (manifest : AcquisitionManifest) (grammar : GrammarFile)
    (records : List ExtractedRecord) (dbPath : String) (db : DbFile) :
    Parsed (ParseSummary × Tables) := do
  let channelStreams ← demuxRecords X records
  let opened ← ofExcept (CaseDatabase.openFile dbPath db)
  let stored ← ofExcept (opened.storeCaseExtraction manifest.caseName grammar.id grammar.tier
    records)
  .ok (summarize grammar records channelStreams dbPath, stored.1.tables)

/-- `loadPlugin` is the plugin a name leads to, if its file is found and loads.
The evidence is opened twice, once for its header. -/
def parseCase (X : Crates) (dir : CaseDir) (grammarsDir : GrammarsDir)
    (loadPlugin : String → Option Descrambler) (dbPath : String) (db : DbFile)
    (headerPlan plan : Schedule IoError) : Parsed (ParseSummary × Tables) := do
  let manifest ← dir.loadManifest
  let evidence ← dir.resolveEvidence manifest
  let detected ← detectGrammar X evidence grammarsDir headerPlan
  let grammar := detected.1
  let plugin := grammar.descramblePlugin.bind loadPlugin
  let source ← evidence.source plan
  let records ← extractRecords X manifest grammar plugin source
  storeRecords X manifest grammar records dbPath db

/-- Descrambling marks a record and changes nothing else in it. -/
theorem descrambleRecord_cases {X : Crates} {plugin : Option Descrambler} {blockSlice : Bytes}
    {record r : ExtractedRecord} (h : descrambleRecord X plugin blockSlice record = .ok r) :
    r = record ∨ ∃ hash, r =
      { record with descrambled := true, descrambledBlake3Hash := some hash } := by
  unfold descrambleRecord at h
  split at h
  · obtain ⟨payloadEnd, -, h⟩ := bind_ok.mp h
    split_ifs at h
    · obtain ⟨scrambledPayload, -, h⟩ := bind_ok.mp h
      split at h
      · exact .inr ⟨_, (Except.ok.inj h).symm⟩
      · exact .inl (Except.ok.inj h).symm
      · simp [panicked] at h
    · exact .inl (Except.ok.inj h).symm
  · exact .inl (Except.ok.inj h).symm

/-- A block's record names the block, its place and its hash. -/
theorem parseBlock_identity {X : Crates} {grammar : GrammarFile}
    {plugin : Option Descrambler} {blockIndex currentOffset : ℕ} {blockSlice : Bytes}
    {r : ExtractedRecord}
    (h : parseBlock X grammar plugin blockIndex currentOffset blockSlice = .ok r) :
    r.blockIndex = blockIndex ∧ r.byteOffset = currentOffset ∧
      r.blake3Hash = X.blake3Hex blockSlice := by
  obtain ⟨record, hrecord, h⟩ := bind_ok.mp h
  have hidentity := interpretBlock_identity hrecord
  rcases descrambleRecord_cases h with rfl | ⟨hash, rfl⟩
  · exact hidentity
  · exact hidentity

/-- The records of a content by the plain definition: one for each block of the
division, up to the manifest's count. -/
def plainRecords (X : Crates) (manifest : AcquisitionManifest) (grammar : GrammarFile)
    (plugin : Option Descrambler) (content : Bytes) : Parsed (List ExtractedRecord) :=
  ((blocks manifest.blockSize content).take manifest.blockCount).zipIdx.mapM fun p =>
    parseBlock X grammar plugin p.2 (p.2 * manifest.blockSize) p.1

theorem addBlock_loop (X : Crates) (manifest : AcquisitionManifest) (grammar : GrammarFile)
    (plugin : Option Descrambler) (content : Bytes) :
    (foldBlocks (addBlock X grammar plugin) 0 ([], 0)
        ((blocks manifest.blockSize content).take manifest.blockCount)).map Prod.fst =
      plainRecords X manifest grammar plugin content := by
  unfold plainRecords
  rcases Nat.eq_zero_or_pos manifest.blockSize with hzero | hsize
  · simp only [hzero, blocks_zero, List.take_nil, foldBlocks_nil, List.zipIdx_nil]
    rfl
  · rw [← blocks_take _ _ _ hsize]
    have hcollect := foldBlocks_collect (parseBlock X grammar plugin) manifest.blockSize hsize []
      (content.take (manifest.blockCount * manifest.blockSize)) (by simp) []
    simp only [List.length_nil, Nat.zero_div, Nat.zero_add, List.nil_append] at hcollect
    unfold addBlock
    rw [hcollect]
    have hfst : ∀ (outcome : Parsed (List ExtractedRecord)) (n : ℕ),
        (outcome >>= fun out => (.ok (out, n) : Parsed (List ExtractedRecord × ℕ))).map
          Prod.fst = outcome := by
      intro outcome n
      cases outcome <;> rfl
    exact hfst _ _

/-- What was extracted is what the plain definition extracts, and the buffers were
granted. -/
theorem extractRecords_ok {X : Crates} {manifest : AcquisitionManifest}
    {grammar : GrammarFile} {plugin : Option Descrambler} {source : Source}
    {records : List ExtractedRecord}
    (h : extractRecords X manifest grammar plugin source = .ok records) :
    (manifest.blockSize ≤ X.memory ∧ recordSize * manifest.blockCount ≤ X.memory) ∧
      plainRecords X manifest grammar plugin source.rest = .ok records := by
  obtain ⟨_, hbuffer, h⟩ := bind_ok.mp h
  obtain ⟨_, hlist, h⟩ := bind_ok.mp h
  obtain ⟨s, hloop, hs⟩ := bind_ok.mp h
  refine ⟨⟨allocate_ok.mp hbuffer, allocate_ok.mp hlist⟩, ?_⟩
  rw [← addBlock_loop, forBlocks_ok hloop, ← hs]
  rfl

/-- A source that keeps delivering is extracted as the plain definition says,
errors included. -/
theorem extractRecords_legal (X : Crates) (manifest : AcquisitionManifest)
    (grammar : GrammarFile) (plugin : Option Descrambler) (source : Source)
    (hmemory : manifest.blockSize ≤ X.memory ∧ recordSize * manifest.blockCount ≤ X.memory)
    (hlegal : Legal source.plan) :
    extractRecords X manifest grammar plugin source =
      plainRecords X manifest grammar plugin source.rest := by
  rw [← addBlock_loop, extractRecords, X.allocate_of_le hmemory.1, ok_bind,
    X.allocate_of_le hmemory.2, ok_bind, forBlocks_legal _ _ _ _ _ _ _ hlegal]
  cases foldBlocks (addBlock X grammar plugin) 0 ([], 0)
    ((blocks manifest.blockSize source.rest).take manifest.blockCount) <;> rfl

/-- One record for each block, in order, each of its own block. -/
theorem plainRecords_getElem {X : Crates} {manifest : AcquisitionManifest}
    {grammar : GrammarFile} {plugin : Option Descrambler} {content : Bytes}
    {records : List ExtractedRecord}
    (h : plainRecords X manifest grammar plugin content = .ok records) :
    records.length = ((blocks manifest.blockSize content).take manifest.blockCount).length ∧
      ∀ i r, records[i]? = some r →
        ∃ block,
          ((blocks manifest.blockSize content).take manifest.blockCount)[i]? = some block ∧
          parseBlock X grammar plugin i (i * manifest.blockSize) block = .ok r := by
  have hall := mapM_ok.mp h
  refine ⟨by simpa using hall.length_eq.symm, fun i r hr => ?_⟩
  obtain ⟨hi, hget⟩ := List.getElem?_eq_some_iff.mp hr
  have hi' : i < ((blocks manifest.blockSize content).take manifest.blockCount).zipIdx.length :=
    hall.length_eq ▸ hi
  have hstep := hall.get hi' hi
  simp only [List.get_eq_getElem, List.getElem_zipIdx, Nat.zero_add, hget] at hstep
  rw [List.length_zipIdx] at hi'
  exact ⟨_, List.getElem?_eq_getElem hi', hstep⟩

/-- A grammar of frames without fields that all begin with the letter a. -/
def tinyGrammar (fixedSize headerSize : ℕ) : GrammarFile where
  id := "tiny"
  name := "Tiny"
  tier := 1
  descramblePlugin := none
  rules := [⟨0, some "a", none⟩]
  structures :=
    { superblock := none
      partitionTable := none
      videoBlock := ⟨fixedSize, ⟨headerSize, ⟨0, some "a", none⟩, []⟩, ⟨0, fixedSize⟩⟩ }

def tinyDir (fixedSize headerSize : ℕ) : GrammarsDir where
  path := "grammars"
  entries := .ok [⟨"tiny.yaml", some "yaml", some (tinyGrammar fixedSize headerSize)⟩]

end Dvrft.ParseCase
