import Dvrft.Coverage
import Dvrft.Generator

/-!
The synthetic format: its grammar reads back from a generated disk what the
generator wrote. A video header is read field by field from the words it was put
together from.
-/

namespace Dvrft.Synthetic

open Chunks Errors Machine Platform Crates StreamHash Grammar Timestamps Acquisition Interpreter
  Coverage Generator Demux Gaps Descrambler

def channelIdField : FieldDef :=
  ⟨"u32", 4, some "little", some "channel_id", none, none, none⟩

def timestampField : FieldDef :=
  ⟨"u64", 8, some "little", some "timestamp", some "unix_seconds", some "UTC", none⟩

def sequenceNumField : FieldDef :=
  ⟨"u32", 16, some "little", some "sequence_num", none, none, none⟩

def payloadLengthField : FieldDef :=
  ⟨"u32", 20, some "little", some "payload_length", none, none, none⟩

def flagsField : FieldDef :=
  ⟨"u16", 24, some "little", some "flags", none, none,
    some [("keyframe", 0x0001), ("scrambled", 0x0002), ("corrupted", 0x0004)]⟩

def headerCrcField : FieldDef := ⟨"u16", 26, some "little", none, none, none, none⟩

/-- `synthetic-v1.yaml`. -/
def syntheticV1 : GrammarFile where
  id := "synthetic-v1"
  name := "Cyber4 Forensic File System v1 (C4FS)"
  tier := 1
  descramblePlugin := some "c4_xor_descrambler"
  rules := [⟨0, some "C4DVR\x00\x01\x00", some "4334445652000100"⟩]
  structures :=
    { superblock := some ⟨0, some ⟨0, some "C4DVR\x00\x01\x00", some "4334445652000100"⟩⟩
      partitionTable := some ⟨4096, some ⟨0, some "C4PT", some "43345054"⟩⟩
      videoBlock :=
        { fixedSize := 4096
          header :=
            { size := 32
              magic := ⟨0, some "C4VF", some "43345646"⟩
              fields :=
                [channelIdField, timestampField, sequenceNumField, payloadLengthField, flagsField,
                  headerCrcField] }
          payload := ⟨32, 4064⟩ } }

theorem bytesAt_prefix {data before word : Bytes} (h : before ++ word <+: data) :
    bytesAt data before.length word.length = .ok word := by
  obtain ⟨after, rfl⟩ := h
  refine mapM_ok.mpr (List.forall₂_iff_get.mpr ⟨List.length_range, fun i hi hi' => ?_⟩)
  have hindex : (before ++ word ++ after)[before.length + i]? = some word[i] := by
    rw [List.append_assoc, List.getElem?_append_right (Nat.le_add_right _ _),
      Nat.add_sub_cancel_left, List.getElem?_append_left hi', List.getElem?_eq_getElem hi']
  simp only [List.get_eq_getElem, List.getElem_range, index, hindex]

/-- A word that was written is read as it was, if it fits its width. -/
theorem readWord_prefix (X : Crates) {data before : Bytes} {field : FieldDef} {width n : ℕ}
    (h : before ++ leBytes width n <+: data) (hoffset : field.offset = before.length)
    (hfit : field.offset + width < 2 ^ 64) (hn : n < 256 ^ width)
    (hendian : field.endian = some "little") : readWord X data field width = .ok n := by
  have hlen := h.length_le
  have hbytes := bytesAt_prefix h
  rw [List.length_append, length_leBytes, ← hoffset] at hlen
  rw [length_leBytes, ← hoffset] at hbytes
  rw [readWord, X.build.add_of_lt hfit, ok_bind, if_neg (by omega), hbytes, ok_bind, hendian,
    if_neg (by decide), ofLeBytes_leBytes, Nat.mod_eq_of_lt hn]

theorem matchesAt_start (X : Crates) {data expected : Bytes} (hfit : expected.length < 2 ^ 64) :
    matchesAt X data 0 expected = .ok (expected.isPrefixOf data) := by
  rw [matchesAt, X.build.add_of_lt (by omega), ok_bind, Nat.zero_add]
  split_ifs with hlen
  · rw [slice_of_le (Nat.zero_le _) hlen, ok_bind, List.drop_zero, Nat.sub_zero]
    congr 1
    rw [Bool.eq_iff_iff, beq_iff_eq, List.isPrefixOf_iff_prefix, List.prefix_iff_eq_take]
    exact eq_comm
  · congr 1
    symm
    rw [Bool.eq_false_iff, Ne, List.isPrefixOf_iff_prefix]
    exact fun hbegins => hlen hbegins.length_le

def normalized (X : Crates) (raw : ℕ) : String :=
  if raw = 0 then sentinel else normalizeUnix X 0 (asI64 raw)

theorem normalizeTimestamp_utc (X : Crates) (raw : ℕ) :
    (normalizeTimestamp X raw (some "unix_seconds") (some "UTC") : Parsed String) =
      .ok (normalized X raw) := by
  have hzone : (parseTimezoneOffset X (some "UTC") : Parsed ℤ) = .ok 0 := rfl
  unfold normalizeTimestamp normalized
  split_ifs
  · rfl
  · rw [hzone]
    rfl

theorem maskHit_scrambled (b : ℕ) (seq : UInt32) :
    maskHit (videoFlags b seq) 0x0002 = isScrambled b := by
  unfold videoFlags
  cases isKeyframe seq <;> cases isScrambled b <;> cases isCorrupted b <;> decide

theorem maskHit_corrupted (b : ℕ) (seq : UInt32) :
    maskHit (videoFlags b seq) 0x0004 = isCorrupted b := by
  unfold videoFlags
  cases isKeyframe seq <;> cases isScrambled b <;> cases isCorrupted b <;> decide

theorem applyFlags_masks (v : HeaderValues) (b : ℕ) (seq : UInt32) :
    applyFlags v (videoFlags b seq)
        (some [("keyframe", 0x0001), ("scrambled", 0x0002), ("corrupted", 0x0004)]) =
      { v with
        flags := videoFlags b seq
        isScrambled := isScrambled b
        isCorrupted := isCorrupted b } := by
  rw [← maskHit_scrambled b seq, ← maskHit_corrupted b seq]
  rfl

section Fields

variable {X : Crates} {data : Bytes} (v : HeaderValues)

theorem applyField_channelId {channelId : UInt32}
    (h : readFieldValue X data channelIdField = .ok channelId.toNat) :
    applyField X data v channelIdField = .ok { v with channelId := channelId } := by
  rw [applyField, h, ok_bind]
  simp only [channelIdField, UInt32.ofNat_toNat]

theorem applyField_timestamp {timestamp : UInt64}
    (h : readFieldValue X data timestampField = .ok timestamp.toNat) :
    applyField X data v timestampField =
      .ok { v with
        timestamp := timestamp, normalizedTimestamp := normalized X timestamp.toNat } := by
  rw [applyField, h, ok_bind]
  simp only [timestampField, normalizeTimestamp_utc, ok_bind, UInt64.ofNat_toNat]

theorem applyField_sequenceNum {seq : UInt32}
    (h : readFieldValue X data sequenceNumField = .ok seq.toNat) :
    applyField X data v sequenceNumField = .ok { v with sequenceNum := seq } := by
  rw [applyField, h, ok_bind]
  simp only [sequenceNumField, UInt32.ofNat_toNat]

theorem applyField_payloadLength {len : ℕ}
    (h : readFieldValue X data payloadLengthField = .ok len) (hfits : 0 < len ∧ len ≤ data.length) :
    applyField X data v payloadLengthField = .ok { v with payloadLen := len } := by
  rw [applyField, h, ok_bind]
  simp only [payloadLengthField, if_pos hfits]

theorem applyField_flags {b : ℕ} {seq : UInt32}
    (h : readFieldValue X data flagsField = .ok (videoFlags b seq).toNat) :
    applyField X data v flagsField =
      .ok { v with
        flags := videoFlags b seq
        isScrambled := isScrambled b
        isCorrupted := isCorrupted b } := by
  rw [applyField, h, ok_bind]
  simp only [flagsField, UInt16.ofNat_toNat, applyFlags_masks]

theorem applyField_headerCrc {crc : ℕ} (h : readFieldValue X data headerCrcField = .ok crc) :
    applyField X data v headerCrcField = .ok v := by
  rw [applyField, h, ok_bind]
  rfl

end Fields

/-- The header that was written sets its values again. -/
theorem fields_header (X : Crates) {data : Bytes} {b : ℕ} {channelId seq : UInt32}
    {timestamp : UInt64} {crc : UInt16}
    (h : headerFields channelId timestamp seq (videoFlags b seq) ++ leBytes 2 crc.toNat <+: data)
    (hlen : payloadSize ≤ data.length) :
    syntheticV1.structures.videoBlock.header.fields.foldlM (applyField X data)
        (HeaderValues.initial 4064) =
      .ok ⟨channelId, timestamp, normalized X timestamp.toNat, seq, payloadSize, videoFlags b seq,
        isScrambled b, isCorrupted b⟩ := by
  -- every word of the header ends a prefix of the block
  have hflags := (List.prefix_append _ _).trans h
  have hlength := (List.prefix_append _ _).trans hflags
  have hseq := (List.prefix_append _ _).trans hlength
  have htime := (List.prefix_append _ _).trans hseq
  have hchannel := (List.prefix_append _ _).trans htime
  have hmagic : videoBlockMagic.length = 4 := rfl
  have readChannel : readFieldValue X data channelIdField = .ok channelId.toNat :=
    readWord_prefix X hchannel hmagic.symm (by decide) channelId.toNat_lt rfl
  have readTime : readFieldValue X data timestampField = .ok timestamp.toNat :=
    readWord_prefix X htime (by simp [timestampField, hmagic]) (by decide) timestamp.toNat_lt rfl
  have readSeq : readFieldValue X data sequenceNumField = .ok seq.toNat :=
    readWord_prefix X hseq (by simp [sequenceNumField, hmagic]) (by decide) seq.toNat_lt rfl
  have readLength : readFieldValue X data payloadLengthField = .ok payloadSize :=
    readWord_prefix X hlength (by simp [payloadLengthField, hmagic]) (by decide) (by decide) rfl
  have readFlags : readFieldValue X data flagsField = .ok (videoFlags b seq).toNat :=
    readWord_prefix X hflags (by simp [flagsField, hmagic]) (by decide)
      (videoFlags b seq).toNat_lt rfl
  have readCrc : readFieldValue X data headerCrcField = .ok crc.toNat :=
    readWord_prefix X h (by rw [length_headerFields]; rfl) (by decide) crc.toNat_lt rfl
  change [channelIdField, timestampField, sequenceNumField, payloadLengthField, flagsField,
    headerCrcField].foldlM (applyField X data) (HeaderValues.initial 4064) = _
  simp only [List.foldlM_cons, List.foldlM_nil, applyField_channelId _ readChannel,
    applyField_timestamp _ readTime, applyField_sequenceNum _ readSeq,
    applyField_payloadLength _ readLength ⟨by decide, hlen⟩, applyField_flags _ readFlags,
    applyField_headerCrc _ readCrc, ok_bind]
  rfl

/-- What the interpreter makes of block `b`. -/
def recordOf (X : Crates) (args : Args) (b : ℕ) : ExtractedRecord :=
  if b = 0 then
    plainRecord b (b * blockSize) (b * blockSize) blockSize false "superblock"
      (X.blake3Hex (blockOf args b))
  else if b = 1 then
    plainRecord b (b * blockSize) (b * blockSize) blockSize false "partition_table"
      (X.blake3Hex (blockOf args b))
  else if isCorrupted b then
    plainRecord b (b * blockSize) (b * blockSize + headerSize) payloadSize true
      "unallocated_or_corrupted" (X.blake3Hex (blockOf args b))
  else
    videoRecord ⟨channelOf b, timestampOf args b, normalized X (timestampOf args b).toNat,
      sequenceOf b, payloadSize, videoFlags b (sequenceOf b), isScrambled b, isCorrupted b⟩
      b (b * blockSize) (b * blockSize + headerSize) (X.blake3Hex (blockOf args b))

theorem interpretBlock_start (X : Crates) {data : Bytes} (hlen : data.length = blockSize)
    (blockIndex byteOffset : ℕ) (blake3Hash : String) (hoffset : byteOffset + headerSize < 2 ^ 64) :
    interpretBlock X syntheticV1 blockIndex byteOffset data blake3Hash =
      if videoBlockMagic.isPrefixOf data then
        parseVideoBlock X syntheticV1.structures.videoBlock blockIndex byteOffset data blake3Hash
      else if superblockMagic.isPrefixOf data then
        .ok (plainRecord blockIndex byteOffset byteOffset blockSize false "superblock" blake3Hash)
      else if partitionMagic.isPrefixOf data then
        .ok (plainRecord blockIndex byteOffset byteOffset blockSize false "partition_table"
          blake3Hash)
      else
        .ok (plainRecord blockIndex byteOffset (byteOffset + headerSize) payloadSize true
          "unallocated_or_corrupted" blake3Hash) := by
  have hsize : ¬ data.length < syntheticV1.structures.videoBlock.header.size := by
    rw [hlen]
    decide
  have hvideo : (Machine.ofExcept
      syntheticV1.structures.videoBlock.header.magic.expectedBytes : Parsed Bytes) =
      .ok videoBlockMagic := rfl
  have hsuper : carriesMagic X data (syntheticV1.structures.superblock.bind SuperblockDef.magic) =
      .ok (superblockMagic.isPrefixOf data) := matchesAt_start X (by decide)
  have hpartition : carriesMagic X data
      (syntheticV1.structures.partitionTable.bind PartitionTableDef.magic) =
        .ok (partitionMagic.isPrefixOf data) := matchesAt_start X (by decide)
  have hmatch : matchesAt X data syntheticV1.structures.videoBlock.header.magic.offset
      videoBlockMagic = .ok (videoBlockMagic.isPrefixOf data) := matchesAt_start X (by decide)
  have hadd : (X.build.add byteOffset syntheticV1.structures.videoBlock.payload.offset :
      Parsed ℕ) = .ok (byteOffset + headerSize) := X.build.add_of_lt hoffset
  simp only [interpretBlock, if_neg hsize, hvideo, ok_bind, hmatch, hsuper, hpartition, hadd]
  rw [hlen]
  rfl

theorem interpretBlock_video (X : Crates) {b : ℕ} (args : Args) (htwo : 2 ≤ b) (hlt : b < 2 ^ 32)
    (hvalid : isCorrupted b = false) (blake3Hash : String) :
    interpretBlock X syntheticV1 b (b * blockSize) (blockOf args b) blake3Hash =
      .ok (videoRecord ⟨channelOf b, timestampOf args b, normalized X (timestampOf args b).toNat,
        sequenceOf b, payloadSize, videoFlags b (sequenceOf b), isScrambled b, isCorrupted b⟩
        b (b * blockSize) (b * blockSize + headerSize) blake3Hash) := by
  have hoffset : b * blockSize + headerSize < 2 ^ 64 := by
    unfold blockSize headerSize
    omega
  have hblock : blockOf args b = header (channelOf b) (timestampOf args b) (sequenceOf b)
      (videoFlags b (sequenceOf b)) ++ diskPayload b (channelOf b) (sequenceOf b) := by
    rw [blockOf, if_neg (by omega), if_neg (by omega), videoBlock, hvalid, if_neg (by decide)]
  have hbegins : headerFields (channelOf b) (timestampOf args b) (sequenceOf b)
      (videoFlags b (sequenceOf b)) ++ leBytes 2 (computeHeaderCrc (headerFields (channelOf b)
        (timestampOf args b) (sequenceOf b) (videoFlags b (sequenceOf b)))).toNat <+:
      blockOf args b := by
    rw [hblock, header, zeroFilled, List.append_assoc _ (List.replicate _ _)]
    exact List.prefix_append _ _
  have hmagic : videoBlockMagic.isPrefixOf (blockOf args b) = true := by
    rw [List.isPrefixOf_iff_prefix]
    refine List.IsPrefix.trans ?_ hbegins
    simp only [headerFields, List.append_assoc]
    exact List.prefix_append _ _
  have hfields := fields_header X hbegins (by rw [length_blockOf]; decide)
  have hadd : (X.build.add (b * blockSize) syntheticV1.structures.videoBlock.payload.offset :
      Parsed ℕ) = .ok (b * blockSize + headerSize) := X.build.add_of_lt hoffset
  rw [interpretBlock_start X (length_blockOf args b) _ _ _ hoffset, if_pos hmagic, parseVideoBlock]
  have hdefault : syntheticV1.structures.videoBlock.payload.defaultLength = 4064 := rfl
  rw [hdefault, hfields, ok_bind, hadd, ok_bind]

/-- Every generated block is interpreted as what it was generated to be. -/
theorem interpretBlock_blockOf (X : Crates) (args : Args) {b : ℕ} (hlt : b < 2 ^ 32) :
    interpretBlock X syntheticV1 b (b * blockSize) (blockOf args b)
      (X.blake3Hex (blockOf args b)) = .ok (recordOf X args b) := by
  have hoffset : b * blockSize + headerSize < 2 ^ 64 := by
    unfold blockSize headerSize
    omega
  by_cases hvideo : 2 ≤ b ∧ isCorrupted b = false
  · rw [interpretBlock_video X args hvideo.1 hlt hvideo.2, recordOf, if_neg (by omega),
      if_neg (by omega), hvideo.2, if_neg (by decide)]
  · rw [interpretBlock_start X (length_blockOf args b) _ _ _ hoffset, recordOf]
    generalize X.blake3Hex (blockOf args b) = hash
    rcases (by omega : b = 0 ∨ b = 1 ∨ 2 ≤ b) with rfl | rfl | htwo
    · simp [blockOf, superblock, zeroFilled, videoBlockMagic, superblockMagic, List.isPrefixOf]
    · simp [blockOf, partitionTable, zeroFilled, videoBlockMagic, superblockMagic, partitionMagic,
        List.isPrefixOf]
    · have hcorrupted : isCorrupted b = true := by simpa [htwo] using hvideo
      have hzero : List.replicate headerSize (0 : UInt8) = 0 :: List.replicate 31 0 := rfl
      simp [blockOf, videoBlock, hcorrupted, hzero, videoBlockMagic, superblockMagic,
        partitionMagic, List.isPrefixOf, show b ≠ 0 by omega, show b ≠ 1 by omega]

/-- Each block of the image, interpreted at its place. -/
def interpretImage (X : Crates) (image : Bytes) : Parsed (List ExtractedRecord) :=
  (blocks blockSize image).zipIdx.mapM fun (block, b) =>
    interpretBlock X syntheticV1 b (b * blockSize) block (X.blake3Hex block)

theorem interpretImage_generated (X : Crates) (args : Args) {n : ℕ} (hlt : n ≤ 2 ^ 32) :
    interpretImage X (((List.range n).map (blockOf args)).flatten) =
      .ok ((List.range n).map (recordOf X args)) := by
  rw [interpretImage, blocks_image]
  refine mapM_ok.mpr (List.forall₂_iff_get.mpr ⟨by simp, fun i hi hi' => ?_⟩)
  have hin : i < n := by simpa using hi
  simp only [List.get_eq_getElem, List.getElem_zipIdx, List.getElem_map, List.getElem_range,
    Nat.zero_add]
  exact interpretBlock_blockOf X args (by omega)

/-- Only the records of valid video blocks name a channel. -/
theorem recordOf_channel (X : Crates) (args : Args) (b : ℕ) {c : UInt32} (hc : c ≠ 0) :
    (recordOf X args b).channelId = c ↔ 2 ≤ b ∧ isCorrupted b = false ∧ channelOf b = c := by
  rcases (by omega : b = 0 ∨ b = 1 ∨ 2 ≤ b) with rfl | rfl | htwo
  · simpa [recordOf, plainRecord] using hc.symm
  · simpa [recordOf, plainRecord] using hc.symm
  · cases hcorrupted : isCorrupted b with
    | true =>
      simpa [recordOf, plainRecord, hcorrupted, show b ≠ 0 by omega, show b ≠ 1 by omega]
        using hc.symm
    | false =>
      simp [recordOf, videoRecord, hcorrupted, htwo, show b ≠ 0 by omega, show b ≠ 1 by omega]

theorem recordOf_sequence (X : Crates) (args : Args) {b : ℕ} (htwo : 2 ≤ b)
    (hvalid : isCorrupted b = false) : (recordOf X args b).sequenceNum = sequenceOf b := by
  rw [recordOf, if_neg (by omega), if_neg (by omega), hvalid, if_neg (by decide)]
  rfl

/-- The channel of a generated record; zero is none. -/
theorem recordOf_channelId (X : Crates) (args : Args) (b : ℕ) :
    (recordOf X args b).channelId = 0 ∨ (recordOf X args b).channelId = 1 ∨
      (recordOf X args b).channelId = 2 := by
  by_cases hzero : (recordOf X args b).channelId = 0
  · exact .inl hzero
  · right
    obtain ⟨-, -, hchannel⟩ := (recordOf_channel X args b hzero).mp rfl
    rw [← hchannel, channelOf]
    split_ifs
    · exact .inl rfl
    · exact .inr rfl

theorem eraseDups_pair {α : Type} [BEq α] [LawfulBEq α] (a b : α) (rest : List α) (hab : b ≠ a)
    (hrest : ∀ c ∈ rest, c = a ∨ c = b) : (a :: b :: rest).eraseDups = [a, b] := by
  have hb : (b :: rest).filter (fun c => !c == a) = b :: rest.filter (fun c => !c == a) := by
    simp [hab]
  have hnone : (rest.filter fun c => !c == a).filter (fun c => !c == b) = [] := by
    rw [List.filter_filter, List.filter_eq_nil_iff]
    intro c hc
    rcases hrest c hc with rfl | rfl <;> simp
  rw [List.eraseDups_cons, hb, List.eraseDups_cons, hnone, List.eraseDups_nil]

theorem channels_generated (X : Crates) (args : Args) {n : ℕ} (hn : 4 ≤ n) :
    channels ((List.range n).map (recordOf X args)) = [1, 2] := by
  obtain ⟨m, rfl⟩ := Nat.exists_eq_add_of_le hn
  have hstart : ((List.range 4).map (fun b => (recordOf X args b).channelId)).filter (0 < ·) =
      [1, 2] := rfl
  simp only [channels, List.map_map, List.range_add, List.map_append, List.filter_append,
    Function.comp_def, hstart]
  refine eraseDups_pair 1 2 _ (by decide) fun c hc => ?_
  obtain ⟨hmem, hpos⟩ := List.mem_filter.mp hc
  obtain ⟨b, -, rfl⟩ := List.mem_map.mp hmem
  rcases recordOf_channelId X args (4 + b) with hzero | hone
  · simp [hzero] at hpos
  · exact hone

/-- The sequence numbers of a channel's valid blocks are consecutive but for one. -/
theorem mem_sequences (X : Crates) (args : Args) {n p : ℕ} {c : UInt32} (hn : n ≤ 2 ^ 32)
    (hchannel : ∀ b, channelOf b = c ↔ b % 2 = p) (hc : c ≠ 0) (hp : p < 2) (k : ℕ) :
    (∃ r ∈ (List.range n).map (recordOf X args), r.channelId = c ∧ r.sequenceNum.toNat = k) ↔
      1 ≤ k ∧ 2 * k + p < n ∧ k ≠ 11 := by
  have hseq : ∀ b, b < n → (sequenceOf b).toNat = b / 2 := fun b hb =>
    UInt32.toNat_ofNat_of_lt' (show b / 2 < 2 ^ 32 by omega)
  have hvalid : ∀ b, isCorrupted b = false ↔ b ≠ 22 ∧ b ≠ 23 := by
    intro b
    simp only [isCorrupted, Bool.and_eq_false_iff, decide_eq_false_iff_not]
    omega
  constructor
  · rintro ⟨r, hr, hrc, hrk⟩
    obtain ⟨b, hb, rfl⟩ := List.mem_map.mp hr
    obtain ⟨htwo, hcorrupted, hb'⟩ := (recordOf_channel X args b hc).mp hrc
    rw [recordOf_sequence X args htwo hcorrupted, hseq b (List.mem_range.mp hb)] at hrk
    have hparity := (hchannel b).mp hb'
    have hplace := (hvalid b).mp hcorrupted
    have hin := List.mem_range.mp hb
    omega
  · rintro ⟨hone, hin, hne⟩
    have htwo : 2 ≤ 2 * k + p := by omega
    have hcorrupted := (hvalid (2 * k + p)).mpr (by omega)
    refine ⟨_, List.mem_map_of_mem (List.mem_range.mpr hin), ?_, ?_⟩
    · exact (recordOf_channel X args _ hc).mpr ⟨htwo, hcorrupted, (hchannel _).mpr (by omega)⟩
    · rw [recordOf_sequence X args htwo hcorrupted, hseq _ hin]
      omega

/-- The one number that is missing in each channel. -/
theorem demuxChannel_generated (X : Crates) (args : Args) {n p : ℕ} {c : UInt32} (hmin : 32 ≤ n)
    (hn : n ≤ 2 ^ 32) (hchannel : ∀ b, channelOf b = c ↔ b % 2 = p) (hc : c ≠ 0) (hp : p < 2) :
    ∃ s, demuxChannel X ((List.range n).map (recordOf X args)) c = .ok s ∧ s.channelId = c ∧
      s.sequenceGaps = [11] := by
  have hmem := mem_sequences X args hn hchannel hc hp
  obtain ⟨s, xs, hs, hid, hgaps, hsorted, hxs⟩ := demuxChannel_gaps X
    ((List.range n).map (recordOf X args)) c fun r hr hrc => by
      have hk := (hmem r.sequenceNum.toNat).mp ⟨r, hr, hrc, rfl⟩
      omega
  refine ⟨s, hs, hid, ?_⟩
  have heleven : gaps xs = [11] := by
    refine gaps_eq hsorted (List.pairwise_singleton _ _) fun k => ?_
    simp only [hxs, hmem, List.mem_singleton]
    constructor
    · rintro rfl
      exact ⟨by omega, ⟨10, by omega⟩, 12, by omega⟩
    · rintro ⟨hout, ⟨x, hx, hlow⟩, y, hy, hhigh⟩
      omega
  rw [hgaps, heleven]
  rfl

/-- The corrupted block of a channel carries that number. -/
theorem corrupted_generated (X : Crates) (args : Args) {n p : ℕ} {c : UInt32} (hmin : 32 ≤ n)
    (hchannel : ∀ b, channelOf b = c ↔ b % 2 = p) (hp : p < 2) :
    (((List.range n).map (truthOf X args)).filter
      fun t => t.isCorrupted && t.channelId == c).map (·.sequenceNum) = [11] := by
  have hplace : ∀ b, ((truthOf X args b).isCorrupted && (truthOf X args b).channelId == c) =
      (b == 22 + p) := by
    intro b
    unfold truthOf
    split_ifs with hsystem
    · have hne : ¬ b = 22 + p := by omega
      simp [systemTruth, hne]
    · rw [Bool.eq_iff_iff, Bool.and_eq_true, beq_iff_eq, beq_iff_eq]
      simp only [videoTruth, hchannel, isCorrupted, Bool.and_eq_true, decide_eq_true_eq]
      omega
  have hmem : 22 + p ∈ List.range n := List.mem_range.mpr (by omega)
  have hsingle : (List.range n).filter (fun b => b == 22 + p) = [22 + p] := by
    rw [List.filter_beq, List.count_eq_one_of_mem List.nodup_range hmem]
    rfl
  simp only [List.filter_map, Function.comp_def, hplace, hsingle, List.map_cons, List.map_nil]
  rcases (by omega : p = 0 ∨ p = 1) with rfl | rfl <;> rfl

/-- What the generator put into block `b`, by its header. -/
def kindOf (b : ℕ) (block : Bytes) : String :=
  if b = 0 then "superblock"
  else if b = 1 then "partition_table"
  else if block.take headerSize = List.replicate headerSize 0 then "unallocated_or_corrupted"
  else "video_frame"

/-- The record repeats the ground truth. -/
def Repeats (t : BlockGroundTruth) (r : ExtractedRecord) : Prop :=
  r.channelId = t.channelId ∧ r.timestamp = t.timestamp ∧ r.sequenceNum = t.sequenceNum ∧
    r.payloadLen = t.payloadLen ∧ r.isScrambled = t.isScrambled ∧ r.isCorrupted = t.isCorrupted

/-- The bytes of the block that the record calls its payload. -/
def payloadOf (r : ExtractedRecord) (block : Bytes) : Bytes :=
  (block.drop (r.payloadOffset - r.byteOffset)).take r.payloadLen

/-- The plugin gives the original payload back, wherever in its memory it is put. -/
def Descrambles (t : BlockGroundTruth) (payload : Bytes) : Prop :=
  ∀ before after : Bytes, ∀ ptr : Int32, ptr ≠ 0 → ptr.toUInt32.toNat = before.length →
    descramble (before ++ payload ++ after) ptr (Int32.ofNat payload.length) =
      (0, before ++ originalPayload t.channelId t.sequenceNum ++ after)

theorem header_ne_zeros (channelId : UInt32) (timestamp : UInt64) (seq : UInt32) (flags : UInt16) :
    header channelId timestamp seq flags ≠ List.replicate headerSize 0 := by
  intro heq
  have hhead := congrArg List.head? heq
  simp [header, headerFields, zeroFilled, videoBlockMagic, headerSize, List.replicate_succ] at hhead

theorem blockType_recordOf (X : Crates) (args : Args) (b : ℕ) :
    (recordOf X args b).blockType = kindOf b (blockOf args b) := by
  unfold recordOf kindOf
  split_ifs with hzero hone hcorrupted hzeros hzeros
  · rfl
  · rfl
  · rfl
  · refine absurd ?_ hzeros
    rw [blockOf, if_neg hzero, if_neg hone, videoBlock, if_pos hcorrupted,
      List.take_left' List.length_replicate]
  · refine absurd ?_ (header_ne_zeros (channelOf b) (timestampOf args b) (sequenceOf b)
      (videoFlags b (sequenceOf b)))
    rwa [blockOf, if_neg hzero, if_neg hone, videoBlock, if_neg hcorrupted,
      List.take_left' (length_header _ _ _ _)] at hzeros
  · rfl

theorem repeats_recordOf (X : Crates) (args : Args) {b : ℕ} (htwo : 2 ≤ b)
    (hvalid : isCorrupted b = false) : Repeats (truthOf X args b) (recordOf X args b) := by
  rw [truthOf, if_neg (by omega), recordOf, if_neg (by omega), if_neg (by omega), hvalid,
    if_neg (by decide)]
  exact ⟨rfl, rfl, rfl, rfl, rfl, hvalid.symm⟩

/-- Scrambled blocks have valid headers, so their records find the payload. -/
theorem descrambles_recordOf (X : Crates) (args : Args) {b : ℕ}
    (hscrambled : (truthOf X args b).isScrambled = true) :
    Descrambles (truthOf X args b) (payloadOf (recordOf X args b) (blockOf args b)) := by
  have htwo : 2 ≤ b := by
    by_contra hlt
    rw [truthOf, if_pos (by omega)] at hscrambled
    exact absurd hscrambled (by simp [systemTruth])
  have htruth : truthOf X args b =
      videoTruth X b (b * blockSize) (channelOf b) (timestampOf args b) (sequenceOf b) :=
    if_neg (by omega)
  rw [htruth] at hscrambled ⊢
  have hregion : isScrambled b = true := hscrambled
  have hvalid : isCorrupted b = false := by
    simp only [isScrambled, Bool.and_eq_true, decide_eq_true_eq] at hregion
    simp only [isCorrupted, Bool.and_eq_false_iff, decide_eq_false_iff_not]
    omega
  have hpayload : payloadOf (recordOf X args b) (blockOf args b) =
      xorRepeating key (originalPayload (channelOf b) (sequenceOf b)) := by
    rw [payloadOf, recordOf, if_neg (by omega), if_neg (by omega), hvalid, if_neg (by decide),
      blockOf, if_neg (by omega), if_neg (by omega), videoBlock, hvalid, if_neg (by decide)]
    simp only [videoRecord, Nat.add_sub_cancel_left]
    rw [List.drop_left' (length_header _ _ _ _),
      List.take_of_length_le (length_diskPayload _ _ _).le, diskPayload, if_pos hregion]
    rfl
  have hlen : (xorRepeating key (originalPayload (channelOf b) (sequenceOf b))).length = 4064 := by
    rw [length_xorRepeating, length_originalPayload]
    rfl
  intro before after ptr hptr hstart
  rw [hpayload, hlen, descramble_slice before _ after ptr _ hptr hstart (by decide)
    (by rw [hlen]; decide), xorRepeating_involutive]
  rfl

theorem valid_of_video (X : Crates) (args : Args) {b : ℕ}
    (h : (recordOf X args b).blockType = "video_frame") : 2 ≤ b ∧ isCorrupted b = false := by
  unfold recordOf at h
  split_ifs at h with hzero hone hcorrupted
  · exact absurd h (by simp [plainRecord])
  · exact absurd h (by simp [plainRecord])
  · exact absurd h (by simp [plainRecord])
  · exact ⟨by omega, Bool.eq_false_iff.mpr hcorrupted⟩

theorem eq_of_getElem?_range {α : Type} {f : ℕ → α} {n b : ℕ} {a : α}
    (h : ((List.range n).map f)[b]? = some a) : a = f b := by
  obtain ⟨hlt, hget⟩ := List.getElem?_eq_some_iff.mp h
  simpa using hget.symm

/-- Interpreting a generated image gives back what was generated, block by block,
and demultiplexing it reports exactly the corrupted blocks as missing. -/
theorem interpret_generate (X : Crates) (args : Args) (hmin : 32 ≤ args.blocks)
    (hlt : args.blocks < 2 ^ 32)
    (hstamp : args.baseTimestamp.toNat + 2 * (args.blocks - 1) < 2 ^ 64) :
    ∃ image truth records streams,
      generate X args = .ok (image, truth) ∧ interpretImage X image = .ok records ∧
      demuxRecords X records = .ok streams ∧
      (blocks blockSize image).length = args.blocks ∧ truth.blocks.length = args.blocks ∧
      records.length = args.blocks ∧
      (∀ b block t r, (blocks blockSize image)[b]? = some block → truth.blocks[b]? = some t →
        records[b]? = some r →
        r.blockType = kindOf b block ∧ (r.blockType = "video_frame" → Repeats t r) ∧
          (t.isScrambled = true → Descrambles t (payloadOf r block))) ∧
      streams.map (·.channelId) = [1, 2] ∧
      ∀ s ∈ streams, s.sequenceGaps =
        (truth.blocks.filter fun t => t.isCorrupted && t.channelId == s.channelId).map
          (·.sequenceNum) := by
  have hfirst : ∀ b, channelOf b = 1 ↔ b % 2 = 0 := by
    intro b
    unfold channelOf
    split_ifs with heven <;> simp [heven]
  have hsecond : ∀ b, channelOf b = 2 ↔ b % 2 = 1 := by
    intro b
    unfold channelOf
    split_ifs with heven
    · simp [heven]
    · simpa using heven
  obtain ⟨s1, hs1, hid1, hgaps1⟩ := demuxChannel_generated X args hmin hlt.le hfirst
    (by decide) (by decide)
  obtain ⟨s2, hs2, hid2, hgaps2⟩ := demuxChannel_generated X args hmin hlt.le hsecond
    (by decide) (by decide)
  refine ⟨_, _, _, [s1, s2], generate_ok X hmin hlt hstamp, interpretImage_generated X args hlt.le,
    ?_, ?_, ?_, ?_, ?_, ?_, ?_⟩
  · rw [demuxRecords, channels_generated X args (by omega)]
    simp only [List.mapM_cons, List.mapM_nil, hs1, hs2, ok_bind]
    rfl
  · rw [blocks_image, List.length_map, List.length_range]
  · simp [groundTruth, stateAt]
  · simp
  · intro b block t r hblock ht hr
    rw [blocks_image] at hblock
    obtain rfl := eq_of_getElem?_range hblock
    obtain rfl := eq_of_getElem?_range ht
    obtain rfl := eq_of_getElem?_range hr
    refine ⟨blockType_recordOf X args b, fun hvideo => ?_, descrambles_recordOf X args⟩
    obtain ⟨htwo, hvalid⟩ := valid_of_video X args hvideo
    exact repeats_recordOf X args htwo hvalid
  · simp [hid1, hid2]
  · intro s hs
    rcases List.mem_pair.mp hs with rfl | rfl
    · rw [hgaps1, hid1]
      exact (corrupted_generated X args hmin hfirst (by decide)).symm
    · rw [hgaps2, hid2]
      exact (corrupted_generated X args hmin hsecond (by decide)).symm

theorem interpret_generate_smallest :
    ∃ image truth records streams,
      generate .sample ⟨32, 1773800000⟩ = .ok (image, truth) ∧
      interpretImage .sample image = .ok records ∧ demuxRecords .sample records = .ok streams ∧
      (blocks blockSize image).length = 32 ∧ truth.blocks.length = 32 ∧ records.length = 32 ∧
      (∀ b block t r, (blocks blockSize image)[b]? = some block → truth.blocks[b]? = some t →
        records[b]? = some r →
        r.blockType = kindOf b block ∧ (r.blockType = "video_frame" → Repeats t r) ∧
          (t.isScrambled = true → Descrambles t (payloadOf r block))) ∧
      streams.map (·.channelId) = [1, 2] ∧
      ∀ s ∈ streams, s.sequenceGaps =
        (truth.blocks.filter fun t => t.isCorrupted && t.channelId == s.channelId).map
          (·.sequenceNum) :=
  interpret_generate .sample ⟨32, 1773800000⟩ (by decide) (by decide) (by decide)

end Dvrft.Synthetic
