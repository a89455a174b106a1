import Dvrft.Correlation
import Dvrft.Grammar
import Dvrft.Timestamps

/-!
The grammar interpreter: one acquired block in, one record out. Header fields
keep their widths; a role that is narrower than its field takes the low bits.
Sums of grammar offsets are checked against 64 bits as the build checks them.
-/

namespace Dvrft.Interpreter

open Errors Machine Platform Grammar Timestamps

structure ExtractedRecord where
  blockIndex : ℕ
  byteOffset : ℕ
  channelId : UInt32
  timestamp : UInt64
  normalizedTimestamp : String
  sequenceNum : UInt32
  payloadOffset : ℕ
  payloadLen : ℕ
  flags : UInt16
  isScrambled : Bool
  isCorrupted : Bool
  blockType : String
  blake3Hash : String
  descrambled : Bool
  descrambledBlake3Hash : Option String
  deriving DecidableEq, Repr

def ExtractedRecord.toCorrelationInput (r : ExtractedRecord) : Correlation.RecordInput where
  blockIndex := r.blockIndex
  byteOffset := r.byteOffset
  channelId := r.channelId
  timestamp := r.timestamp
  normalizedTimestamp := r.normalizedTimestamp
  sequenceNum := r.sequenceNum
  isKeyframe := r.flags &&& 1 != 0
  isScrambled := r.isScrambled
  descrambled := r.descrambled
  isCorrupted := r.isCorrupted

abbrev Parsed (α : Type) := Outcome ParserError α

/-- Whether the bytes at `offset` are the signature. The sum is formed first,
the slice only when the block is long enough. -/
def matchesAt (X : Crates) (data : List UInt8) (offset : ℕ) (expected : List UInt8) :
    Parsed Bool := do
  let stop ← X.build.add offset expected.length
  if stop ≤ data.length then do
    let found ← slice data offset stop
    .ok (found == expected)
  else .ok false

/-- `width` consecutive bytes, each indexed on its own. -/
def bytesAt (data : List UInt8) (offset : ℕ) (width : ℕ) : Parsed (List UInt8) :=
  (List.range width).mapM fun i => index data (offset + i)

def readWord (X : Crates) (data : List UInt8) (field : FieldDef) (width : ℕ) : Parsed ℕ := do
  let stop ← X.build.add field.offset width
  if data.length < stop then .ok 0
  else do
    let bytes ← bytesAt data field.offset width
    .ok (if field.endian = some "big" then ofBeBytes bytes else ofLeBytes bytes)

/-- A field outside the block reads as zero, and so does an unknown type. -/
def readFieldValue (X : Crates) (data : List UInt8) (field : FieldDef) : Parsed ℕ :=
  match field.fieldType with
  | "u8" =>
    if data.length ≤ field.offset then .ok 0
    else do
      let b ← index data field.offset
      .ok b.toNat
  | "u16" => readWord X data field 2
  | "u32" => readWord X data field 4
  | "u64" => readWord X data field 8
  | _ => .ok 0

/-- What the header fields set. -/
structure HeaderValues where
  channelId : UInt32
  timestamp : UInt64
  normalizedTimestamp : String
  sequenceNum : UInt32
  payloadLen : ℕ
  flags : UInt16
  isScrambled : Bool
  isCorrupted : Bool
  deriving DecidableEq, Repr

def HeaderValues.initial (defaultLength : ℕ) : HeaderValues where
  channelId := 0
  timestamp := 0
  normalizedTimestamp := sentinel
  sequenceNum := 0
  payloadLen := defaultLength
  flags := 0
  isScrambled := false
  isCorrupted := false

def maskHit (flags : UInt16) (mask : UInt32) : Bool := flags.toUInt32 &&& mask != 0

/-- The flag bits: declared masks where the field declares any, else bits 1 and 2. -/
def applyFlags (v : HeaderValues) (flags : UInt16) (masks : Option (List (String × UInt32))) :
    HeaderValues :=
  match masks with
  | some masks =>
    { v with
      flags := flags
      isScrambled := ((masks.lookup "scrambled").map (maskHit flags)).getD v.isScrambled
      isCorrupted := ((masks.lookup "corrupted").map (maskHit flags)).getD v.isCorrupted }
  | none =>
    { v with
      flags := flags
      isScrambled := flags &&& 0x0002 != 0
      isCorrupted := flags &&& 0x0004 != 0 }

/-- One field of the header, by its role. -/
def applyField (X : Crates) (blockBytes : List UInt8) (v : HeaderValues) (field : FieldDef) :
    Parsed HeaderValues := do
  let val ← readFieldValue X blockBytes field
  match field.role with
  | some "channel_id" => .ok { v with channelId := UInt32.ofNat val }
  | some "timestamp" => do
    let text ← normalizeTimestamp X val field.encoding field.timezone
    .ok { v with timestamp := UInt64.ofNat val, normalizedTimestamp := text }
  | some "sequence_num" => .ok { v with sequenceNum := UInt32.ofNat val }
  | some "payload_length" =>
    .ok (if 0 < val ∧ val ≤ blockBytes.length then { v with payloadLen := val } else v)
  | some "flags" => .ok (applyFlags v (UInt16.ofNat val) field.flagMasks)
  | _ => .ok v

/-- The record of a video block with these header values. -/
def videoRecord (v : HeaderValues) (blockIndex byteOffset payloadOffset : ℕ)
    (blake3Hash : String) : ExtractedRecord where
  blockIndex := blockIndex
  byteOffset := byteOffset
  channelId := v.channelId
  timestamp := v.timestamp
  normalizedTimestamp := v.normalizedTimestamp
  sequenceNum := v.sequenceNum
  payloadOffset := payloadOffset
  payloadLen := v.payloadLen
  flags := v.flags
  isScrambled := v.isScrambled
  isCorrupted := v.isCorrupted
  blockType := "video_frame"
  blake3Hash := blake3Hash
  descrambled := false
  descrambledBlake3Hash := none

def parseVideoBlock (X : Crates) (videoDef : VideoBlockDef) (blockIndex byteOffset : ℕ)
    (blockBytes : List UInt8) (blake3Hash : String) : Parsed ExtractedRecord := do
  let v ← videoDef.header.fields.foldlM (applyField X blockBytes)
    (HeaderValues.initial videoDef.payload.defaultLength)
  let payloadOffset ← X.build.add byteOffset videoDef.payload.offset
  .ok (videoRecord v blockIndex byteOffset payloadOffset blake3Hash)

/-- A record without header values: the whole block, or the declared payload. -/
def plainRecord (blockIndex byteOffset payloadOffset payloadLen : ℕ) (isCorrupted : Bool)
    (blockType blake3Hash : String) : ExtractedRecord where
  blockIndex := blockIndex
  byteOffset := byteOffset
  channelId := 0
  timestamp := 0
  normalizedTimestamp := sentinel
  sequenceNum := 0
  payloadOffset := payloadOffset
  payloadLen := payloadLen
  flags := 0
  isScrambled := false
  isCorrupted := isCorrupted
  blockType := blockType
  blake3Hash := blake3Hash
  descrambled := false
  descrambledBlake3Hash := none

/-- Whether an optional structure declares a decodable signature that the block
carries at the signature's own offset. -/
def carriesMagic (X : Crates) (blockBytes : List UInt8) (magic : Option MagicDef) :
    Parsed Bool :=
  match magic with
  | none => .ok false
  | some m =>
    match m.expectedBytes with
    | .error _ => .ok false
    | .ok expected => matchesAt X blockBytes m.offset expected

def interpretBlock (X : Crates) (grammar : GrammarFile) (blockIndex byteOffset : ℕ)
    (blockBytes : List UInt8) (blake3Hash : String) : Parsed ExtractedRecord := do
  let videoDef := grammar.structures.videoBlock
  if blockBytes.length < videoDef.header.size then
    fail (.blockTooSmall blockBytes.length videoDef.header.size)
  else do
    let magicBytes ← ofExcept videoDef.header.magic.expectedBytes
    let hasVideoMagic ← matchesAt X blockBytes videoDef.header.magic.offset magicBytes
    if hasVideoMagic then
      parseVideoBlock X videoDef blockIndex byteOffset blockBytes blake3Hash
    else do
      let isSuperblock ← carriesMagic X blockBytes
        (grammar.structures.superblock.bind SuperblockDef.magic)
      if isSuperblock then
        .ok (plainRecord blockIndex byteOffset byteOffset blockBytes.length false
          "superblock" blake3Hash)
      else do
        let isPartition ← carriesMagic X blockBytes
          (grammar.structures.partitionTable.bind PartitionTableDef.magic)
        if isPartition then
          .ok (plainRecord blockIndex byteOffset byteOffset blockBytes.length false
            "partition_table" blake3Hash)
        else do
          let payloadOffset ← X.build.add byteOffset videoDef.payload.offset
          .ok (plainRecord blockIndex byteOffset payloadOffset videoDef.payload.defaultLength
            true "unallocated_or_corrupted" blake3Hash)

section Cases

variable {X : Crates} {grammar : GrammarFile} {blockIndex byteOffset : ℕ}
  {blockBytes : List UInt8} {blake3Hash : String} {r : ExtractedRecord}

theorem applyFlags_other (v : HeaderValues) (flags : UInt16)
    (masks : Option (List (String × UInt32))) :
    (applyFlags v flags masks).channelId = v.channelId ∧
      (applyFlags v flags masks).sequenceNum = v.sequenceNum ∧
      (applyFlags v flags masks).payloadLen = v.payloadLen := by
  cases masks with
  | none => exact ⟨rfl, rfl, rfl⟩
  | some masks => exact ⟨rfl, rfl, rfl⟩

/-- What one field can do: by its role it sets the values of that role, and the
others stay. -/
theorem applyField_cases {v v' : HeaderValues} {field : FieldDef}
    (h : applyField X blockBytes v field = .ok v') :
    ∃ val, readFieldValue X blockBytes field = .ok val ∧
      ((field.role = some "channel_id" ∧ v' = { v with channelId := UInt32.ofNat val }) ∨
      (field.role = some "timestamp" ∧ ∃ text,
        normalizeTimestamp X val field.encoding field.timezone = (.ok text : Parsed String) ∧
        v' = { v with timestamp := UInt64.ofNat val, normalizedTimestamp := text }) ∨
      (field.role = some "sequence_num" ∧ v' = { v with sequenceNum := UInt32.ofNat val }) ∨
      (field.role = some "payload_length" ∧
        v' = if 0 < val ∧ val ≤ blockBytes.length then { v with payloadLen := val } else v) ∨
      (field.role = some "flags" ∧ v' = applyFlags v (UInt16.ofNat val) field.flagMasks) ∨
      (field.role ∉ ["channel_id", "timestamp", "sequence_num", "payload_length", "flags"].map
        some ∧ v' = v)) := by
  obtain ⟨val, hval, h⟩ := bind_ok.mp h
  refine ⟨val, hval, ?_⟩
  split at h
  · exact .inl ⟨‹_›, (Except.ok.inj h).symm⟩
  · obtain ⟨text, htext, h⟩ := bind_ok.mp h
    exact .inr (.inl ⟨‹_›, text, htext, (Except.ok.inj h).symm⟩)
  · exact .inr (.inr (.inl ⟨‹_›, (Except.ok.inj h).symm⟩))
  · exact .inr (.inr (.inr (.inl ⟨‹_›, (Except.ok.inj h).symm⟩)))
  · exact .inr (.inr (.inr (.inr (.inl ⟨‹_›, (Except.ok.inj h).symm⟩))))
  · rename_i hchannel htimestamp hsequence hlength hflags
    refine .inr (.inr (.inr (.inr (.inr ⟨?_, (Except.ok.inj h).symm⟩))))
    simp only [List.map_cons, List.map_nil, List.mem_cons, List.not_mem_nil, or_false, not_or]
    exact ⟨hchannel, htimestamp, hsequence, hlength, hflags⟩

/-- What a field leaves alone: the values that are another role's to set. -/
structure LeavesAlone (field : FieldDef) (v v' : HeaderValues) : Prop where
  channelId : field.role ≠ some "channel_id" → v'.channelId = v.channelId
  sequenceNum : field.role ≠ some "sequence_num" → v'.sequenceNum = v.sequenceNum
  payloadLen : field.role ≠ some "payload_length" → v'.payloadLen = v.payloadLen
  flags : field.role ≠ some "flags" → v'.flags = v.flags
  isScrambled : field.role ≠ some "flags" → v'.isScrambled = v.isScrambled
  isCorrupted : field.role ≠ some "flags" → v'.isCorrupted = v.isCorrupted

theorem applyField_leavesAlone {v v' : HeaderValues} {field : FieldDef}
    (h : applyField X blockBytes v field = .ok v') : LeavesAlone field v v' := by
  obtain ⟨val, -, ⟨hrole, rfl⟩ | ⟨hrole, text, -, rfl⟩ | ⟨hrole, rfl⟩ | ⟨hrole, rfl⟩ |
    ⟨hrole, rfl⟩ | ⟨hrole, rfl⟩⟩ := applyField_cases h
  · exact ⟨fun hne => absurd hrole hne, fun _ => rfl, fun _ => rfl, fun _ => rfl, fun _ => rfl,
      fun _ => rfl⟩
  · exact ⟨fun _ => rfl, fun _ => rfl, fun _ => rfl, fun _ => rfl, fun _ => rfl, fun _ => rfl⟩
  · exact ⟨fun _ => rfl, fun hne => absurd hrole hne, fun _ => rfl, fun _ => rfl, fun _ => rfl,
      fun _ => rfl⟩
  · split_ifs
    · exact ⟨fun _ => rfl, fun _ => rfl, fun hne => absurd hrole hne, fun _ => rfl, fun _ => rfl,
        fun _ => rfl⟩
    · exact ⟨fun _ => rfl, fun _ => rfl, fun _ => rfl, fun _ => rfl, fun _ => rfl, fun _ => rfl⟩
  · have hother := applyFlags_other v (UInt16.ofNat val) field.flagMasks
    exact ⟨fun _ => hother.1, fun _ => hother.2.1, fun _ => hother.2.2,
      fun hne => absurd hrole hne, fun hne => absurd hrole hne, fun hne => absurd hrole hne⟩
  · exact ⟨fun _ => rfl, fun _ => rfl, fun _ => rfl, fun _ => rfl, fun _ => rfl, fun _ => rfl⟩

/-- Everything an interpreted block can be: a video frame where the video
signature is, and a record without header values where it is not. -/
theorem interpretBlock_cases
    (h : interpretBlock X grammar blockIndex byteOffset blockBytes blake3Hash = .ok r) :
    grammar.structures.videoBlock.header.size ≤ blockBytes.length ∧
      ∃ magicBytes,
        grammar.structures.videoBlock.header.magic.expectedBytes = .ok magicBytes ∧
        ((matchesAt X blockBytes grammar.structures.videoBlock.header.magic.offset magicBytes =
            .ok true ∧
          parseVideoBlock X grammar.structures.videoBlock blockIndex byteOffset blockBytes
            blake3Hash = .ok r) ∨
        (matchesAt X blockBytes grammar.structures.videoBlock.header.magic.offset magicBytes =
            .ok false ∧
          ∃ payloadOffset payloadLen isCorrupted blockType, blockType ≠ "video_frame" ∧
            r = plainRecord blockIndex byteOffset payloadOffset payloadLen isCorrupted blockType
              blake3Hash)) := by
  unfold interpretBlock at h
  dsimp only at h
  split_ifs at h with hsize
  · simp [fail] at h
  · obtain ⟨magicBytes, hmagic, h⟩ := bind_ok.mp h
    obtain ⟨hasVideoMagic, hvideo, h⟩ := bind_ok.mp h
    refine ⟨by omega, magicBytes, ofExcept_eq_ok.mp hmagic, ?_⟩
    cases hasVideoMagic with
    | true => exact .inl ⟨hvideo, h⟩
    | false =>
      refine .inr ⟨hvideo, ?_⟩
      simp only [Bool.false_eq_true, if_false] at h
      obtain ⟨isSuperblock, -, h⟩ := bind_ok.mp h
      split_ifs at h
      · exact ⟨_, _, _, _, by decide, (Except.ok.inj h).symm⟩
      · obtain ⟨isPartition, -, h⟩ := bind_ok.mp h
        split_ifs at h
        · exact ⟨_, _, _, _, by decide, (Except.ok.inj h).symm⟩
        · obtain ⟨payloadOffset, -, h⟩ := bind_ok.mp h
          exact ⟨_, _, _, _, by decide, (Except.ok.inj h).symm⟩

theorem parseVideoBlock_cases {videoDef : VideoBlockDef}
    (h : parseVideoBlock X videoDef blockIndex byteOffset blockBytes blake3Hash = .ok r) :
    ∃ v payloadOffset,
      videoDef.header.fields.foldlM (applyField X blockBytes)
        (HeaderValues.initial videoDef.payload.defaultLength) = .ok v ∧
      X.build.add byteOffset videoDef.payload.offset =
        (.ok payloadOffset : Parsed ℕ) ∧
      r = videoRecord v blockIndex byteOffset payloadOffset blake3Hash := by
  obtain ⟨v, hv, h⟩ := bind_ok.mp h
  obtain ⟨payloadOffset, hadd, h⟩ := bind_ok.mp h
  exact ⟨v, payloadOffset, hv, hadd, (Except.ok.inj h).symm⟩

/-- A record names its block, its place and its hash. -/
theorem interpretBlock_identity
    (h : interpretBlock X grammar blockIndex byteOffset blockBytes blake3Hash = .ok r) :
    r.blockIndex = blockIndex ∧ r.byteOffset = byteOffset ∧ r.blake3Hash = blake3Hash := by
  obtain ⟨-, magicBytes, -, ⟨-, hvideo⟩ | ⟨-, _, _, _, _, -, rfl⟩⟩ := interpretBlock_cases h
  · obtain ⟨v, payloadOffset, -, -, rfl⟩ := parseVideoBlock_cases hvideo
    exact ⟨rfl, rfl, rfl⟩
  · exact ⟨rfl, rfl, rfl⟩

end Cases

end Dvrft.Interpreter
