import Dvrft.Crashes
import Dvrft.Passes
import Dvrft.Plugins
import Dvrft.ReadSchedules
import Dvrft.Streams
import Dvrft.Synthetic

/-!
The reference disk through the whole front half of the program. The generator writes an
image and its ground truth; acquired, detected among the grammars that are shipped, parsed
with the reference plugin in the sandbox and read back from the database, the records say
of every block what the ground truth says.
-/

namespace Dvrft.Reference

open Chunks ShortReads Errors Machine Platform Crates Sqlite Grammar Acquisition Interpreter
  Generator Synthetic Database CaseFiles Demux Detection ParseCase Streams Superblocks Crashes
  Sandbox Plugins Passes Verify ReadSchedules

def grammarPath (dir name : String) : String := dir ++ "/" ++ name

def syntheticEntry (dir : String) : GrammarEntry :=
  ⟨grammarPath dir "synthetic-v1.yaml", some "yaml", some syntheticV1⟩

/-- The files under `grammars`. The registry of vendors is no grammar. -/
def grammarFiles (dir : String) : List GrammarEntry :=
  [⟨grammarPath dir "dahua-v1.yaml", some "yaml", some dahuaV1⟩,
    ⟨grammarPath dir "hikvision-v1.yaml", some "yaml", some hikvisionV1⟩,
    syntheticEntry dir,
    ⟨grammarPath dir "vendor_registry.yaml", some "yaml", none⟩]

/-- A grammar with one rule is compared once. -/
theorem matchesGrammar_single (X : Crates) {grammar : GrammarFile} (rule : DetectionRule)
    {expected header : Bytes} (hrules : grammar.rules = [rule])
    (hexpected : rule.expectedBytes = .ok expected)
    (hfit : rule.offset + expected.length < 2 ^ 64) :
    matchesGrammar X grammar header = .ok (decide (HasAt header rule.offset expected)) := by
  rw [matchesGrammar, hrules, if_neg (by simp), matchesRules, hexpected]
  dsimp only
  rw [matchesAt_eq X hfit, ok_bind]
  cases decide (HasAt header rule.offset expected) <;> rfl

variable {X : Crates} {args : Args} {dir : String} {header : Bytes}

theorem matchesGrammar_synthetic (X : Crates) (header : Bytes) :
    matchesGrammar X syntheticV1 header = .ok (decide (HasAt header 0 superblockMagic)) :=
  matchesGrammar_single X ⟨0, some "C4DVR\x00\x01\x00", some "4334445652000100"⟩ rfl rfl (by decide)

def dahuaMagic : Bytes := [0x44, 0x48, 0x41, 0x56]

theorem matchesGrammar_dahua (X : Crates) (header : Bytes) :
    matchesGrammar X dahuaV1 header =
      .ok (decide (HasAt header 0 dahuaMagic)) :=
  matchesGrammar_single X ⟨0, some "DHAV", some "44484156"⟩ rfl rfl (by decide)

def hikvisionMagic : Bytes :=
  [0x48, 0x49, 0x4B, 0x56, 0x49, 0x53, 0x49, 0x4F, 0x4E, 0x40, 0x48, 0x41, 0x4E, 0x47, 0x5A,
    0x48, 0x4F, 0x55]

theorem matchesGrammar_hikvision (X : Crates) (header : Bytes) :
    matchesGrammar X hikvisionV1 header = .ok (decide (HasAt header 512 hikvisionMagic)) :=
  matchesGrammar_single X ⟨512, some "HIKVISION@HANGZHOU",
    some "48494B564953494F4E4048414E475A484F55"⟩ rfl rfl (by decide)

theorem comparable_shipped {entry : GrammarEntry} (h : entry ∈ grammarFiles dir) :
    Comparable X header entry := by
  intro grammar _ hgrammar
  simp only [grammarFiles, syntheticEntry, List.mem_cons, List.not_mem_nil, or_false] at h
  rcases h with rfl | rfl | rfl | rfl
  · exact ⟨_, Option.some.inj hgrammar ▸ matchesGrammar_dahua X header⟩
  · exact ⟨_, Option.some.inj hgrammar ▸ matchesGrammar_hikvision X header⟩
  · exact ⟨_, Option.some.inj hgrammar ▸ matchesGrammar_synthetic X header⟩
  · cases hgrammar

/-- An image of the generator begins with its superblock. -/
theorem superblock_prefix (args : Args) {n : ℕ} (h : 0 < n) :
    superblock args <+: ((List.range n).map (blockOf args)).flatten := by
  obtain ⟨m, rfl⟩ := Nat.exists_eq_add_of_lt h
  rw [Nat.zero_add, List.range_succ_eq_map, List.map_cons, List.flatten_cons]
  exact List.prefix_append _ _

theorem hasAt_superblockMagic {image : Bytes} (himage : superblock args <+: image)
    (hheader : header <+: image) (hlong : 8 ≤ header.length) :
    HasAt header 0 superblockMagic := by
  have hmagic : superblockMagic <+: superblock args := by
    simp only [superblock, zeroFilled, List.append_assoc]
    exact List.prefix_append _ _
  have hbegins := List.prefix_of_prefix_length_le (hmagic.trans himage) hheader hlong
  refine ⟨?_, ?_⟩
  · simpa using hbegins.length_le
  · simpa using (List.prefix_iff_eq_take.mp hbegins).symm

theorem not_hasAt_dahua (h : HasAt header 0 superblockMagic) :
    ¬ HasAt header 0 dahuaMagic := by
  intro hdahua
  have hmagic := congrArg List.head? h.2
  have hother := congrArg List.head? hdahua.2
  simp only [List.drop_zero, List.head?_take] at hmagic hother
  rw [if_neg (by decide)] at hmagic hother
  rw [hmagic] at hother
  exact absurd hother (by decide)

/-- Behind its fields the superblock is zero. -/
theorem not_hasAt_hikvision {image : Bytes} (himage : superblock args <+: image)
    (hheader : header <+: image) : ¬ HasAt header 512 hikvisionMagic := by
  intro hhikvision
  have hthere : header[512]? = some 0x48 := by
    have hfirst := congrArg List.head? hhikvision.2
    rw [List.head?_take, if_neg (by decide), List.head?_drop] at hfirst
    exact hfirst
  have hlength : (superblock args).length = blockSize := length_blockOf args 0
  have hzero : (superblock args)[512]? = some 0 := by
    rw [superblock, zeroFilled, List.getElem?_append_right (by simp [superblockMagic])]
    exact List.getElem?_replicate_of_lt (by simp [superblockMagic, blockSize])
  have hsame : header[512]? = (superblock args)[512]? := by
    have hlt := (List.getElem?_eq_some_iff.mp hthere).1
    obtain ⟨after, hafter⟩ := hheader
    obtain ⟨behind, hbehind⟩ := himage
    have hwhole : (header ++ after)[512]? = header[512]? := List.getElem?_append_left hlt
    rw [← hwhole, hafter, ← hbehind, List.getElem?_append_left (by rw [hlength]; decide)]
  rw [hsame, hzero] at hthere
  exact absurd hthere (by decide)

/-- Of the shipped grammars only the synthetic one matches an image of the generator. -/
theorem matches_shipped {image : Bytes} (himage : superblock args <+: image)
    (hheader : header <+: image) (hlong : 8 ≤ header.length) {entry : GrammarEntry}
    (hentry : entry ∈ grammarFiles dir) {grammar : GrammarFile}
    (h : Matches X header entry grammar) : entry = syntheticEntry dir := by
  obtain ⟨-, hgrammar, hseen⟩ := h
  have hmatches := matchesGrammar_eq_true_iff.mpr hseen
  have hmagic := hasAt_superblockMagic himage hheader hlong
  simp only [grammarFiles, List.mem_cons, List.not_mem_nil, or_false] at hentry
  rcases hentry with rfl | rfl | rfl | rfl
  · rw [← Option.some.inj hgrammar, matchesGrammar_dahua] at hmatches
    exact absurd (of_decide_eq_true (Except.ok.inj hmatches)) (not_hasAt_dahua hmagic)
  · rw [← Option.some.inj hgrammar, matchesGrammar_hikvision] at hmatches
    exact absurd (of_decide_eq_true (Except.ok.inj hmatches))
      (not_hasAt_hikvision himage hheader)
  · rfl
  · cases hgrammar

theorem nodup_grammarFiles (dir : String) : (grammarFiles dir).Nodup := by
  simp [grammarFiles, syntheticEntry, syntheticV1, dahuaV1, hikvisionV1]

/-- Whatever the order in which the directory is listed, the synthetic grammar is detected. -/
theorem detectGrammar_shipped {evidencePath : String} {image : FileContent}
    {headerPlan : Schedule IoError} {grammarsDir : GrammarsDir} {entries : List GrammarEntry}
    (himage : superblock args <+: image.bytes)
    (hhead : headOf ⟨evidencePath, image, none⟩ headerPlan = .ok header)
    (hlong : 8 ≤ header.length) (hentries : grammarsDir.entries = .ok entries)
    (hperm : entries.Perm (grammarFiles dir)) :
    detectGrammar X ⟨evidencePath, image, none⟩ grammarsDir headerPlan =
      .ok (syntheticV1, grammarPath dir "synthetic-v1.yaml") := by
  have hheader : header <+: image.bytes := by
    obtain ⟨-, reader, hread⟩ := headOf_ok.mp hhead
    obtain ⟨n, -, -, -, hchunk, -⟩ := read_ok hread
    rw [hchunk]
    exact List.take_prefix _ _
  have honly : ∀ entry ∈ entries, ∀ grammar, Matches X header entry grammar →
      entry = syntheticEntry dir := by
    intro entry hentry grammar hmatches
    exact matches_shipped himage hheader hlong (hperm.mem_iff.mp hentry) hmatches
  have hmem : syntheticEntry dir ∈ entries := hperm.mem_iff.mpr (by simp [grammarFiles])
  obtain ⟨front, back, hsplit⟩ := List.append_of_mem hmem
  have hnodup := hperm.nodup_iff.mpr (nodup_grammarFiles dir)
  rw [hsplit, List.nodup_append] at hnodup
  obtain ⟨-, hback, hapart⟩ := hnodup
  refine (detectGrammar_ok_iff X _ _ _ hhead hentries _ _).mpr ⟨?_, ?_⟩
  · intro entry hentry
    exact comparable_shipped (hperm.mem_iff.mp hentry)
  · refine ⟨front, syntheticEntry dir, back, hsplit, rfl, ⟨rfl, rfl, ?_⟩, ?_, ?_⟩
    · refine matchesGrammar_eq_true_iff.mp ?_
      rw [matchesGrammar_synthetic, decide_eq_true (hasAt_superblockMagic himage hheader hlong)]
    · intro other hother grammar' hmatches
      have hsame := honly other (by rw [hsplit]; exact List.mem_append_left _ hother) _ hmatches
      exact absurd hsame (hapart other hother _ (List.mem_cons_self ..))
    · intro other hother grammar' hmatches
      have hsame := honly other (by rw [hsplit]; simp [hother]) _ hmatches
      rw [hsame] at hother
      exact absurd hother (List.nodup_cons.mp hback).1

/-- The record of a scrambled block with its payload descrambled. -/
def withPayload (X : Crates) (r : ExtractedRecord) : ExtractedRecord :=
  if r.isScrambled then
    { r with
      descrambled := true
      descrambledBlake3Hash := some (X.blake3Hex (originalPayload r.channelId r.sequenceNum)) }
  else r

/-- The record of a block behind the partition table. -/
theorem recordOf_eq (X : Crates) (args : Args) {b : ℕ} (htwo : 2 ≤ b) :
    recordOf X args b =
      if isCorrupted b then
        plainRecord b (b * blockSize) (b * blockSize + Generator.headerSize) payloadSize true
          "unallocated_or_corrupted" (X.blake3Hex (blockOf args b))
      else
        videoRecord ⟨channelOf b, timestampOf args b, normalized X (timestampOf args b).toNat,
          sequenceOf b, payloadSize, videoFlags b (sequenceOf b), isScrambled b, isCorrupted b⟩
          b (b * blockSize) (b * blockSize + Generator.headerSize)
          (X.blake3Hex (blockOf args b)) := by
  rw [recordOf, if_neg (by omega), if_neg (by omega)]

theorem not_isScrambled_of_isCorrupted {b : ℕ} (h : isCorrupted b = true) :
    isScrambled b = false := by
  simp only [isCorrupted, Bool.and_eq_true, decide_eq_true_eq] at h
  simp only [isScrambled, Bool.and_eq_false_iff, decide_eq_false_iff_not]
  omega

/-- A plugin that takes the key off the payloads that the generator scrambles. -/
def TakesKeyOff (plugin : Descrambler) : Prop :=
  ∀ b, isScrambled b = true → ∀ bytes : Bytes, bytes.length = payloadSize →
    plugin b bytes = .ok (Descrambler.xorRepeating Descrambler.key bytes)

theorem isScrambled_recordOf (X : Crates) (args : Args) (b : ℕ) :
    (recordOf X args b).isScrambled = isScrambled b := by
  unfold recordOf
  split_ifs with hzero hone hcorrupted
  · rw [hzero]
    rfl
  · rw [hone]
    rfl
  · exact (not_isScrambled_of_isCorrupted hcorrupted).symm
  · rfl

theorem parseBlock_blockOf (X : Crates) (args : Args) {plugin : Descrambler}
    (hplugin : TakesKeyOff plugin) {b : ℕ} (hlt : b < 2 ^ 32) :
    parseBlock X syntheticV1 (some plugin) b (b * blockSize) (blockOf args b) =
      .ok (withPayload X (recordOf X args b)) := by
  have hflag := isScrambled_recordOf X args b
  rw [parseBlock, interpretBlock_blockOf X args hlt, ok_bind, withPayload]
  cases hscrambled : isScrambled b with
  | false =>
    rw [hscrambled] at hflag
    simp only [descrambleRecord, hflag, Bool.false_eq_true, if_false]
  | true =>
    rw [hscrambled] at hflag
    have hregion : 10 ≤ b ∧ b ≤ 13 := by simpa [isScrambled] using hscrambled
    have hvalid : isCorrupted b = false := by
      rw [Bool.eq_false_iff]
      intro hcorrupted
      rw [not_isScrambled_of_isCorrupted hcorrupted] at hscrambled
      cases hscrambled
    have hrecord : recordOf X args b = videoRecord ⟨channelOf b, timestampOf args b,
        normalized X (timestampOf args b).toNat, sequenceOf b, payloadSize,
        videoFlags b (sequenceOf b), isScrambled b, isCorrupted b⟩ b (b * blockSize)
        (b * blockSize + Generator.headerSize) (X.blake3Hex (blockOf args b)) := by
      rw [recordOf_eq X args (by omega), hvalid, if_neg (by decide)]
    have hoffset : (recordOf X args b).payloadOffset - (recordOf X args b).byteOffset =
        Generator.headerSize := by
      rw [hrecord]
      exact Nat.add_sub_cancel_left _ _
    have hlength : (recordOf X args b).payloadLen = payloadSize := by rw [hrecord]; rfl
    have hadd : (X.build.add Generator.headerSize payloadSize : Parsed ℕ) = .ok blockSize :=
      X.build.add_of_lt (by decide)
    have hpayload : (slice (blockOf args b) Generator.headerSize blockSize : Parsed Bytes) =
        .ok (diskPayload b (channelOf b) (sequenceOf b)) := by
      have hbytes : blockOf args b = header (channelOf b) (timestampOf args b) (sequenceOf b)
          (videoFlags b (sequenceOf b)) ++ diskPayload b (channelOf b) (sequenceOf b) := by
        rw [blockOf, if_neg (by omega), if_neg (by omega), videoBlock, hvalid,
          if_neg (by decide)]
      rw [slice_of_le (by decide) (length_blockOf args b).ge, hbytes,
        List.drop_left' (length_header _ _ _ _)]
      exact congrArg Except.ok (List.take_of_length_le (length_diskPayload _ _ _).le)
    have hdelivered : plugin b (diskPayload b (channelOf b) (sequenceOf b)) =
        .ok (originalPayload (channelOf b) (sequenceOf b)) := by
      have hkeyed : diskPayload b (channelOf b) (sequenceOf b) =
          Descrambler.xorRepeating Descrambler.key
            (originalPayload (channelOf b) (sequenceOf b)) := if_pos hscrambled
      rw [hplugin b hscrambled _ (length_diskPayload _ _ _), hkeyed,
        Descrambler.xorRepeating_involutive]
    have hindex : (recordOf X args b).blockIndex = b := by rw [hrecord]; rfl
    have hchannel : (recordOf X args b).channelId = channelOf b := by rw [hrecord]; rfl
    have hsequence : (recordOf X args b).sequenceNum = sequenceOf b := by rw [hrecord]; rfl
    simp only [descrambleRecord, hflag, hoffset, hlength, hadd, ok_bind,
      if_pos (length_blockOf args b).ge, hpayload, hindex, hdelivered, hchannel, hsequence,
      if_true]

/-- A loaded plugin as the parser calls it, with an instance and a deadline for each block.
No slice is longer than `isize::MAX`. -/
def hosted {σ : Type} (build : Build) (plugin : ℕ → DescramblePlugin σ) : Descrambler :=
  fun block bytes =>
    if h : bytes.length < 2 ^ 63 then
      match (plugin block).descramble build ⟨bytes, h⟩ with
      | .ok out => .ok out
      | .error (.error e) => fail e.text
      | .error .panic => panicked
    else panicked

/-- The reference plugin under the limits that the parser loads it with. -/
def referencePlugin {σ : Type} (fresh : Except WasmError (Fresh σ {}))
    (alloc : Allocator σ ({} : PluginLimits).maxMemoryBytes) (deadline : Deadline σ) :
    DescramblePlugin σ :=
  c4XorDescrambler {} fresh alloc deadline

section Guests

variable {σ : Type} {fresh : ℕ → Except WasmError (Fresh σ {})}
  {alloc : ℕ → Allocator σ ({} : PluginLimits).maxMemoryBytes} {deadline : ℕ → Deadline σ}

/-- The guest has a buffer for every scrambled payload, and time for it. -/
def Grants (fresh : ℕ → Except WasmError (Fresh σ {}))
    (alloc : ℕ → Allocator σ ({} : PluginLimits).maxMemoryBytes) (deadline : ℕ → Deadline σ) :
    Prop :=
  ∀ b, isScrambled b = true → ∀ payload : Payload, payload.bytes.length = payloadSize →
    ∃ reserved, (referencePlugin (fresh b) (alloc b) (deadline b)).reserve payload = .ok reserved ∧
      (deadline b).passes payload reserved = false

theorem takesKeyOff_hosted (build : Build) (hgranted : Grants fresh alloc deadline) :
    TakesKeyOff (hosted build fun b => referencePlugin (fresh b) (alloc b) (deadline b)) := by
  intro b hscrambled bytes hlength
  have hslice : bytes.length < 2 ^ 63 := by
    rw [hlength]
    decide
  obtain ⟨reserved, hreserved, hintime⟩ := hgranted b hscrambled ⟨bytes, hslice⟩ hlength
  have hnonempty : bytes ≠ [] := by
    intro hnil
    rw [hnil] at hlength
    exact absurd hlength (by decide)
  have hdelivered := descramble_granted build (by decide) hnonempty
    (by rw [hlength]; decide) hreserved hintime
  rw [hosted, dif_pos hslice, referencePlugin, hdelivered]

end Guests

/-- A change to records that the demultiplexer does not see. -/
structure Unseen (f : ExtractedRecord → ExtractedRecord) : Prop where
  channelId : ∀ r, (f r).channelId = r.channelId
  sequenceNum : ∀ r, (f r).sequenceNum = r.sequenceNum
  timestamp : ∀ r, (f r).timestamp = r.timestamp

section

variable {f : ExtractedRecord → ExtractedRecord}

theorem chRecords_map (hf : Unseen f) (records : List ExtractedRecord) (c : UInt32) :
    chRecords (records.map f) c = (chRecords records c).map f := by
  have hfilter : (records.map f).filter (·.channelId == c) =
      (records.filter (·.channelId == c)).map f := by
    simp only [List.filter_map, Function.comp_def, hf.channelId]
  rw [chRecords, chRecords, hfilter]
  refine (List.map_insertionSort _ _ _ _ fun a _ b _ => ?_).symm
  simp only [Demux.precedes, hf.sequenceNum, hf.timestamp]

theorem gapsAfter_map (X : Crates) (hf : Unseen f) (prev : UInt32) (rs : List ExtractedRecord) :
    gapsAfter X prev (rs.map f) = gapsAfter X prev rs := by
  induction rs generalizing prev with
  | nil => rfl
  | cons r rest ih => simp only [List.map_cons, gapsAfter, hf.sequenceNum, ih]

theorem sequenceGaps_map (X : Crates) (hf : Unseen f) (rs : List ExtractedRecord) :
    sequenceGaps X (rs.map f) = sequenceGaps X rs := by
  cases rs with
  | nil => rfl
  | cons r rest =>
    rw [List.map_cons, sequenceGaps, sequenceGaps, hf.sequenceNum]
    exact gapsAfter_map X hf _ rest

/-- The streams of changed records are the changed streams. -/
theorem demuxRecords_map {X : Crates} (hf : Unseen f) {records : List ExtractedRecord}
    {streams : List DemuxedStream} (h : demuxRecords X records = .ok streams) :
    demuxRecords X (records.map f) =
      .ok (streams.map fun s => { s with records := s.records.map f }) := by
  have hchannels : channels (records.map f) = channels records := by
    simp only [channels, List.map_map, Function.comp_def, hf.channelId]
  have hall := mapM_ok.mp h
  rw [demuxRecords, hchannels]
  refine mapM_ok.mpr (List.forall₂_map_right_iff.mpr (hall.imp fun c s hs => ?_))
  obtain ⟨gaps, hgaps, rfl⟩ := demuxChannel_ok.mp hs
  refine demuxChannel_ok.mpr ⟨gaps, ?_, ?_⟩
  · rw [chRecords_map hf, sequenceGaps_map X hf]
    exact hgaps
  · simp only [streamOf, chRecords_map hf, List.length_map, List.map_map, Function.comp_def,
      hf.timestamp]

end

theorem unseen_withPayload (X : Crates) : Unseen (withPayload X) := by
  constructor <;> (intro r; unfold withPayload; split_ifs <;> rfl)

/-- The record agrees with the ground truth of its block. -/
structure Confirms (t : BlockGroundTruth) (r : ExtractedRecord) : Prop where
  blockIndex : r.blockIndex = t.blockIndex
  byteOffset : r.byteOffset = t.offset
  blake3Hash : r.blake3Hash = t.diskBlockBlake3
  isScrambled : r.isScrambled = t.isScrambled
  isCorrupted : r.isCorrupted = t.isCorrupted
  blockType : r.blockType = "video_frame" ↔ t.channelId ≠ 0 ∧ t.isCorrupted = false
  header : r.blockType = "video_frame" → Repeats t r
  descrambled : r.descrambled = t.isScrambled
  descrambledBlake3Hash :
    r.descrambledBlake3Hash = if t.isScrambled then some t.originalPayloadBlake3 else none

theorem channelOf_ne_zero (b : ℕ) : channelOf b ≠ 0 := by
  unfold channelOf
  split_ifs <;> decide

theorem confirms_withPayload (X : Crates) (args : Args) (b : ℕ) :
    Confirms (truthOf X args b) (withPayload X (recordOf X args b)) := by
  rcases (by omega : b = 0 ∨ b = 1 ∨ 2 ≤ b) with rfl | rfl | htwo
  · constructor <;> simp [truthOf, systemTruth, recordOf, withPayload, plainRecord]
  · constructor <;> simp [truthOf, systemTruth, recordOf, withPayload, plainRecord]
  · have htruth : truthOf X args b =
        videoTruth X b (b * blockSize) (channelOf b) (timestampOf args b) (sequenceOf b) :=
      if_neg (by omega)
    have hblock : blockOf args b =
        videoBlock b (channelOf b) (timestampOf args b) (sequenceOf b) := by
      rw [blockOf, if_neg (by omega), if_neg (by omega)]
    have hchannel := channelOf_ne_zero b
    have hrecord := recordOf_eq X args htwo
    rw [htruth]
    cases hcorrupted : isCorrupted b with
    | true =>
      have hplain := not_isScrambled_of_isCorrupted hcorrupted
      rw [hcorrupted, if_pos rfl] at hrecord
      rw [hrecord]
      constructor <;> simp [videoTruth, withPayload, plainRecord, hcorrupted, hplain, hblock]
    | false =>
      rw [hcorrupted, if_neg (by decide)] at hrecord
      rw [hrecord]
      cases hscrambled : isScrambled b with
      | false =>
        constructor <;>
          simp [videoTruth, withPayload, videoRecord, hcorrupted, hscrambled, hblock, hchannel,
            Repeats]
      | true =>
        constructor <;>
          simp [videoTruth, withPayload, videoRecord, hcorrupted, hscrambled, hblock, hchannel,
            Repeats]

/-- What is stored of the records is read back as they are. -/
theorem wrap64_withPayload (X : Crates) (args : Args) {b : ℕ} (hlt : b < 2 ^ 32) :
    wrap64 (withPayload X (recordOf X args b)) = withPayload X (recordOf X args b) := by
  have hplaces : (recordOf X args b).blockIndex < 2 ^ 64 ∧
      (recordOf X args b).byteOffset < 2 ^ 64 ∧ (recordOf X args b).payloadOffset < 2 ^ 64 ∧
      (recordOf X args b).payloadLen < 2 ^ 64 := by
    unfold recordOf
    split_ifs <;>
      simp only [plainRecord, videoRecord, blockSize, payloadSize, Generator.headerSize] <;> omega
  unfold withPayload wrap64
  split_ifs <;> simp only [Nat.mod_eq_of_lt hplaces.1, Nat.mod_eq_of_lt hplaces.2.1,
    Nat.mod_eq_of_lt hplaces.2.2.1, Nat.mod_eq_of_lt hplaces.2.2.2]

theorem plainRecords_generated (X : Crates) (args : Args) {manifest : AcquisitionManifest}
    {plugin : Descrambler} (hplugin : TakesKeyOff plugin) {n : ℕ} (hlt : n ≤ 2 ^ 32)
    (hsize : manifest.blockSize = blockSize) (hcount : n ≤ manifest.blockCount) :
    plainRecords X manifest syntheticV1 (some plugin)
        (((List.range n).map (blockOf args)).flatten) =
      .ok (((List.range n).map (recordOf X args)).map (withPayload X)) := by
  rw [plainRecords, hsize, blocks_image, List.take_of_length_le (by simpa using hcount)]
  refine mapM_ok.mpr (List.forall₂_iff_get.mpr ⟨by simp, fun i hi hi' => ?_⟩)
  have hin : i < n := by simpa using hi
  simp only [List.get_eq_getElem, List.getElem_zipIdx, List.getElem_map, List.getElem_range,
    Nat.zero_add]
  exact parseBlock_blockOf X args hplugin (by omega)

theorem forall₂_confirms (X : Crates) (args : Args) (n : ℕ) :
    List.Forall₂ Confirms ((List.range n).map (truthOf X args))
      (((List.range n).map (recordOf X args)).map (withPayload X)) := by
  rw [List.map_map, List.forall₂_map_left_iff, List.forall₂_map_right_iff, List.forall₂_same]
  exact fun b _ => confirms_withPayload X args b

theorem countP_of_forall₂ {α β : Type} {R : α → β → Prop} {p : α → Bool} {q : β → Bool}
    (h : ∀ a b, R a b → p a = q b) {as : List α} {bs : List β} (hall : List.Forall₂ R as bs) :
    bs.countP q = as.countP p := by
  induction hall with
  | nil => rfl
  | cons hab _ ih => rw [List.countP_cons, List.countP_cons, ih, h _ _ hab]

/-- The streams of the two cameras, each with the one number that was overwritten. -/
theorem demuxRecords_generated (X : Crates) (args : Args) {n : ℕ} (hmin : 32 ≤ n)
    (hlt : n ≤ 2 ^ 32) :
    ∃ streams, demuxRecords X (((List.range n).map (recordOf X args)).map (withPayload X)) =
        .ok streams ∧
      streams.map (·.channelId) = [1, 2] ∧
      ∀ s ∈ streams, s.sequenceGaps =
        (((List.range n).map (truthOf X args)).filter fun t =>
          t.isCorrupted && t.channelId == s.channelId).map (·.sequenceNum) := by
  have hfirst : ∀ b, channelOf b = 1 ↔ b % 2 = 0 := by
    intro b
    unfold channelOf
    split_ifs with heven <;> simp [heven]
  have hsecond : ∀ b, channelOf b = 2 ↔ b % 2 = 1 := by
    intro b
    unfold channelOf
    split_ifs with heven
    · simp [heven]
    · simpa using heven
  obtain ⟨s1, hs1, hid1, hgaps1⟩ := demuxChannel_generated X args hmin hlt hfirst (by decide)
    (by decide)
  obtain ⟨s2, hs2, hid2, hgaps2⟩ := demuxChannel_generated X args hmin hlt hsecond (by decide)
    (by decide)
  have hplain : demuxRecords X ((List.range n).map (recordOf X args)) = .ok [s1, s2] := by
    rw [demuxRecords, channels_generated X args (by omega)]
    simp only [List.mapM_cons, List.mapM_nil, hs1, hs2, ok_bind]
    rfl
  refine ⟨_, demuxRecords_map (unseen_withPayload X) hplain, by simp [hid1, hid2], ?_⟩
  intro s hs
  obtain ⟨s', hs', rfl⟩ := List.mem_map.mp hs
  dsimp only
  rcases List.mem_pair.mp hs' with rfl | rfl
  · rw [hgaps1, hid1]
    exact (corrupted_generated X args hmin hfirst (by decide)).symm
  · rw [hgaps2, hid2]
    exact (corrupted_generated X args hmin hsecond (by decide)).symm

section Case

variable {sourcePath caseName acquiredAt evidencePath dbPath : String} {image : FileContent}
  {truth : GroundTruth} {acquisitionPlan headerPlan bodyPlan : Schedule IoError}
  {manifest : AcquisitionManifest} {grammarsDir : GrammarsDir} {entries : List GrammarEntry}
  {loadPlugin : String → Option Descrambler} {plugin : Descrambler} {db : DbFile}

/-- A block of the generator is no larger than a header buffer. -/
theorem blockSize_le (X : Crates) : blockSize ≤ X.memory :=
  (by decide : blockSize ≤ 2 ^ 16).trans X.memory_ge

theorem blockCount_generated
    (hbytes : ((List.range args.blocks).map (blockOf args)).flatten = image.bytes)
    (hacquired : acquireEvidence X sourcePath caseName acquiredAt
      (.opened image.bytes acquisitionPlan) (some blockSize) = .ok manifest) :
    manifest.blockCount = args.blocks := by
  obtain ⟨-, hm⟩ := acquireEvidence_ok (batch_fits X (blockSize_le X)) hacquired
  have hdivided : (blocks blockSize image.bytes).length = args.blocks := by
    rw [← hbytes, blocks_image, List.length_map, List.length_range]
  rw [hm, ← hdivided, length_blocks]
  rfl

/-- The parser on an acquired image of the generator. -/
theorem parse_generated (hmin : 32 ≤ args.blocks) (hlt : args.blocks < 2 ^ 32)
    (hstamp : args.baseTimestamp.toNat + 2 * (args.blocks - 1) < 2 ^ 64)
    (hmemory : recordSize * args.blocks ≤ X.memory)
    (hgenerated : generate X args = .ok (image.bytes, truth))
    (hacquired : acquireEvidence X sourcePath caseName acquiredAt
      (.opened image.bytes acquisitionPlan) (some blockSize) = .ok manifest)
    (hhead : headOf ⟨evidencePath, image, none⟩ headerPlan = .ok header)
    (hlong : 8 ≤ header.length) (hentries : grammarsDir.entries = .ok entries)
    (hperm : entries.Perm (grammarFiles dir))
    (hload : loadPlugin "c4_xor_descrambler" = some plugin) (hplugin : TakesKeyOff plugin)
    (hsound : db.io = .sound) (hlegal : Legal bodyPlan) :
    ∃ records streams tables,
      parseCase X (.holding manifest evidencePath image) grammarsDir loadPlugin dbPath db
          headerPlan bodyPlan = .ok (summarize syntheticV1 records streams dbPath, tables) ∧
      plainRecords X manifest syntheticV1 (some plugin) image.bytes = .ok records ∧
      storeRecords X manifest syntheticV1 records dbPath db =
        .ok (summarize syntheticV1 records streams dbPath, tables) ∧
      List.Forall₂ Confirms truth.blocks records ∧ records.map wrap64 = records ∧
      streams.map (·.channelId) = [1, 2] ∧
      ∀ s ∈ streams, s.sequenceGaps = (truth.blocks.filter fun t =>
        t.isCorrupted && t.channelId == s.channelId).map (·.sequenceNum) := by
  obtain ⟨hbytes, htruth⟩ := Prod.mk.inj (Except.ok.inj
    ((generate_ok X hmin hlt hstamp).symm.trans hgenerated))
  have hblocks : truth.blocks = (List.range args.blocks).map (truthOf X args) := by
    rw [← htruth]
    rfl
  have himage : superblock args <+: image.bytes := by
    rw [← hbytes]
    exact superblock_prefix args (by omega)
  have hsize := acquireEvidence_blockSize hacquired
  have hcount := blockCount_generated hbytes hacquired
  obtain ⟨streams, hstreams, hchannels, hgaps⟩ :=
    demuxRecords_generated X args hmin hlt.le
  have hdetected := @detectGrammar_shipped X args dir header evidencePath image headerPlan
    grammarsDir entries himage hhead hlong hentries hperm
  have hplain := plainRecords_generated X args hplugin hlt.le hsize hcount.ge
  rw [hbytes] at hplain
  obtain ⟨opened, hopened⟩ : ∃ opened, CaseDatabase.openFile dbPath db = .ok opened :=
    ⟨_, CaseDatabase.openFile_ok.mpr ⟨by rw [hsound]; rfl, rfl⟩⟩
  have hwriting : opened.io.writing = none := by
    rw [(CaseDatabase.openFile_ok.mp hopened).2, hsound]
    rfl
  obtain ⟨stored, caseId, evidenceId, hstored, -⟩ := CaseDatabase.storeCaseExtraction_isOk
    manifest.caseName syntheticV1.id syntheticV1.tier
    (((List.range args.blocks).map (recordOf X args)).map (withPayload X)) hwriting
  have hstore : storeRecords X manifest syntheticV1
      (((List.range args.blocks).map (recordOf X args)).map (withPayload X)) dbPath db =
        .ok (summarize syntheticV1
          (((List.range args.blocks).map (recordOf X args)).map (withPayload X)) streams dbPath,
          stored.tables) := by
    simp only [storeRecords, bind_ok, ofExcept_eq_ok]
    exact ⟨streams, hstreams, opened, hopened, _, hstored, rfl⟩
  refine ⟨_, streams, stored.tables, ?_, hplain, hstore, ?_, ?_, hchannels, ?_⟩
  · have hplugged : syntheticV1.descramblePlugin.bind loadPlugin = some plugin := hload
    have hbuffers : manifest.blockSize ≤ X.memory ∧
        recordSize * manifest.blockCount ≤ X.memory := by
      rw [hsize, hcount]
      exact ⟨blockSize_le X, hmemory⟩
    rw [parseCase_detected hdetected hbuffers hlegal, hplugged, hplain, ok_bind, hstore]
  · rw [hblocks]
    exact forall₂_confirms X args _
  · simp only [List.map_map, List.map_inj_left]
    intro b hb
    exact wrap64_withPayload X args ((List.mem_range.mp hb).trans hlt)
  · rw [hblocks]
    exact hgaps

/-- The counts of the summary are those of the ground truth. -/
structure Counts (truth : GroundTruth) (summary : ParseSummary) : Prop where
  totalBlocks : summary.totalBlocks = truth.blocks.length
  validVideoFrames : summary.validVideoFrames =
    truth.blocks.countP fun t => t.channelId != 0 && !t.isCorrupted
  scrambledBlocks : summary.scrambledBlocks = truth.blocks.countP (·.isScrambled)
  descrambledBlocks : summary.descrambledBlocks = summary.scrambledBlocks
  corruptedBlocks : summary.corruptedBlocks = truth.blocks.countP (·.isCorrupted)

theorem counts_of_confirms {records : List ExtractedRecord} {streams : List DemuxedStream}
    (h : List.Forall₂ Confirms truth.blocks records) :
    Counts truth (summarize syntheticV1 records streams dbPath) := by
  have hscrambled := countP_of_forall₂ (p := (·.isScrambled)) (q := (·.isScrambled))
    (fun t r ht => ht.isScrambled.symm) h
  constructor
  · exact h.length_eq.symm
  · refine countP_of_forall₂ (fun t r ht => ?_) h
    rw [Bool.eq_iff_iff, beq_iff_eq, ht.blockType]
    simp
  · exact hscrambled
  · refine Eq.trans (countP_of_forall₂ (fun t r ht => ht.descrambled.symm) h) hscrambled.symm
  · exact countP_of_forall₂ (fun t r ht => ht.isCorrupted.symm) h

/-- The reference disk as a case: the parser reports what was generated, the records that
are read back confirm the ground truth block by block, scrambled payloads included, and the
audit finds nothing. -/
theorem reference_case {σ : Type} {fresh : ℕ → Except WasmError (Fresh σ {})}
    {alloc : ℕ → Allocator σ ({} : PluginLimits).maxMemoryBytes} {deadline : ℕ → Deadline σ}
    (hmin : 32 ≤ args.blocks) (hlt : args.blocks < 2 ^ 32)
    (hstamp : args.baseTimestamp.toNat + 2 * (args.blocks - 1) < 2 ^ 64)
    (hmemory : recordSize * args.blocks ≤ X.memory)
    (hgenerated : generate X args = .ok (image.bytes, truth))
    (hacquired : acquireEvidence X sourcePath caseName acquiredAt
      (.opened image.bytes acquisitionPlan) (some blockSize) = .ok manifest)
    (hhead : headOf ⟨evidencePath, image, none⟩ headerPlan = .ok header)
    (hlong : 8 ≤ header.length) (hentries : grammarsDir.entries = .ok entries)
    (hperm : entries.Perm (grammarFiles dir)) (hgranted : Grants fresh alloc deadline)
    (hload : loadPlugin "c4_xor_descrambler" =
      some (hosted X.build fun b => referencePlugin (fresh b) (alloc b) (deadline b)))
    (hsound : db.io = .sound) (hfresh : db.tables.getD .empty = .empty)
    (hlegal : Legal bodyPlan) :
    ∃ summary tables opened records,
      parseCase X (.holding manifest evidencePath image) grammarsDir loadPlugin dbPath db
          headerPlan bodyPlan = .ok (summary, tables) ∧
      summary.grammarId = "synthetic-v1" ∧ Counts truth summary ∧
      summary.channelStreams.map (·.channelId) = [1, 2] ∧
      (∀ s ∈ summary.channelStreams, s.sequenceGaps = (truth.blocks.filter fun t =>
        t.isCorrupted && t.channelId == s.channelId).map (·.sequenceNum)) ∧
      CaseDatabase.openFile dbPath ⟨some tables, .sound⟩ = .ok opened ∧
      opened.queryAllRecords = .ok records ∧ List.Forall₂ Confirms truth.blocks records ∧
      ∀ plan now, Legal plan → ∃ report,
        verifyCaseIntegrity X (.holding manifest evidencePath image) dbPath
          ⟨some tables, .sound⟩ plan now = .ok report ∧
        report.isPristine = true ∧ report.blockDiscrepancies = [] ∧
        report.dbRecordDiscrepancies = [] := by
  obtain ⟨records, streams, tables, hparsed, hplain, hstored, hconfirms, hwrap, hchannels, hgaps⟩ :=
    @parse_generated X args dir header sourcePath caseName acquiredAt evidencePath dbPath image
      truth acquisitionPlan headerPlan bodyPlan manifest grammarsDir entries loadPlugin _ db
      hmin hlt hstamp hmemory hgenerated hacquired hhead hlong hentries hperm hload
      (takesKeyOff_hosted X.build hgranted) hsound hlegal
  have hblockSize := acquireEvidence_blockSize hacquired
  have himage := (Prod.mk.inj (Except.ok.inj
    ((generate_ok X hmin hlt hstamp).symm.trans hgenerated))).1
  have hcount := blockCount_generated himage hacquired
  obtain ⟨hsize, hm⟩ := acquireEvidence_ok (batch_fits X (blockSize_le X)) hacquired
  simp only [Reader.opened] at hm
  obtain ⟨hlen, hmatch⟩ := plainRecords_match hsize hm hplain
  have hrows := (storeRecords_fresh hfresh hstored).2
  have hfew : records.length < 2 ^ 63 := by
    rw [hlen, hm]
    exact (blockCount_le _ _ hsize).trans_lt image.size_lt
  have hsorted := pairwise_blockIndex (fun i r hr => (hmatch i r hr).1.1) hfew
  have hread : (⟨dbPath, tables, .sound⟩ : CaseDatabase).queryAllRecords = .ok records := by
    rw [CaseDatabase.queryAllRecords_ofRecords hrows hsorted rfl, hwrap]
  refine ⟨_, tables, ⟨dbPath, tables, .sound⟩, records, hparsed, rfl,
    counts_of_confirms hconfirms, hchannels, hgaps, rfl, hread, hconfirms, ?_⟩
  intro plan now hplan
  have hsilent := dbSilent_of_match hrows fun i r hr => (hmatch i r hr).2
  obtain ⟨hpristine, -, hblocks, hrecords⟩ :=
    plainReport_original evidencePath dbPath hsize hm hsilent now
  have hbuffers : manifest.blockSize ≤ X.memory ∧ 24 * manifest.blockCount ≤ X.memory := by
    rw [hblockSize, hcount]
    unfold recordSize at hmemory
    exact ⟨blockSize_le X, by omega⟩
  exact ⟨_, verifyCaseIntegrity_legal X manifest evidencePath image dbPath
    ⟨some tables, .sound⟩ plan now hbuffers hplan, hpristine, hblocks, hrecords⟩

end Case

def smallestArgs : Args := ⟨32, 1773800000⟩

theorem length_image (args : Args) (n : ℕ) :
    (((List.range n).map (blockOf args)).flatten).length = n * blockSize := by
  have hlength : ∀ b ∈ List.range n, (blockOf args b).length = blockSize :=
    fun b _ => length_blockOf args b
  rw [List.length_flatten, List.map_map, Function.comp_def, List.map_congr_left hlength,
    List.map_const', List.sum_replicate, List.length_range, smul_eq_mul]

def smallestDisk : FileContent where
  bytes := ((List.range smallestArgs.blocks).map (blockOf smallestArgs)).flatten
  size_lt := by
    rw [length_image]
    decide

def shippedDir : GrammarsDir := ⟨"grammars", .ok (grammarFiles "grammars")⟩

theorem grants_sample : Grants (fun _ => emptyInstance) (fun _ => fixedAllocator _)
    (fun _ => patience Unit payloadSize) := by
  intro b _ payload hlength
  have hcapacity : (DescramblePlugin.lengthArg payload).toUInt32.toNat = 4064 := by
    rw [toNat_lengthArg, hlength]
    rfl
  have hintime : (patience Unit payloadSize).passes payload
      ⟨descrambleExport (patience Unit payloadSize), 8, ⟨List.replicate 4072 0, ()⟩⟩ = false := by
    simp only [Deadline.passes, patience, hcapacity]
    rfl
  refine ⟨_, ?_, hintime⟩
  have hreply : (allocateExport (fixedAllocator ({} : PluginLimits).maxMemoryBytes)).call ⟨[], ()⟩
      (DescramblePlugin.lengthArg payload) = (.ok 8, ⟨List.replicate 4072 0, ()⟩) := by
    unfold allocateExport
    dsimp only
    rw [hcapacity]
    rfl
  simp only [DescramblePlugin.reserve, bind_ok]
  refine ⟨⟨[], ()⟩, rfl, _, rfl, _, rfl, (), rfl, 8, ?_, ?_⟩
  · rw [hreply]
    rfl
  · rw [hreply]

def samplePlugins (_ : String) : Option Descrambler :=
  some (hosted .debug fun _ => referencePlugin emptyInstance (fixedAllocator _)
    (patience Unit payloadSize))

theorem exists_head_smallest : ∃ header,
    headOf ⟨"disk.raw", smallestDisk, none⟩ eager = .ok header ∧ 8 ≤ header.length := by
  have hlength : (head ⟨"disk.raw", smallestDisk, none⟩).length = 65536 := by
    rw [head, List.length_take, smallestDisk, length_image]
    norm_num [Detection.headerSize, smallestArgs, blockSize]
  refine ⟨_, headOf_legal rfl eager_legal, ?_⟩
  have hportion : portion (eager : Schedule IoError) 0 65536 = 65536 :=
    portion_of_le rfl (by norm_num)
  rw [List.length_take, hlength, hportion]
  norm_num

theorem reference_case_smallest :
    ∃ manifest truth summary tables opened records,
      generate .sample smallestArgs = .ok (smallestDisk.bytes, truth) ∧
      parseCase .sample (.holding manifest "disk.raw" smallestDisk) shippedDir
          samplePlugins "case.db" .absent eager eager =
        .ok (summary, tables) ∧
      Counts truth summary ∧ CaseDatabase.openFile "case.db" ⟨some tables, .sound⟩ = .ok opened ∧
      opened.queryAllRecords = .ok records ∧ List.Forall₂ Confirms truth.blocks records := by
  have hgenerated : generate .sample smallestArgs = .ok (smallestDisk.bytes, _) :=
    generate_ok .sample (by decide) (by decide) (by decide)
  have hacquired := acquireEvidence_legal .sample "disk.raw" "case" ""
    (.opened smallestDisk.bytes eager) blockSize (by decide) (by decide) eager_legal
  obtain ⟨header, hhead, hlong⟩ := exists_head_smallest
  obtain ⟨summary, tables, opened, records, hparsed, -, hcounts, -, -, hopened, hread, hconfirms,
    -⟩ := reference_case (by decide) (by decide) (by decide) (by decide) hgenerated hacquired hhead
      hlong (rfl : shippedDir.entries = .ok (grammarFiles "grammars")) (List.Perm.refl _)
      grants_sample (rfl : samplePlugins "c4_xor_descrambler" = some _)
      (rfl : DbFile.absent.io = .sound) rfl eager_legal
  exact ⟨_, _, summary, tables, opened, records, hgenerated, hparsed, hcounts, hopened, hread,
    hconfirms⟩

end Dvrft.Reference
