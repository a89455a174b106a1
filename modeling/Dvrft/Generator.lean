import Dvrft.Acquisition
import Dvrft.Descrambler

/-!
The generator of synthetic disks: superblock, partition table and two interleaved
video streams with a scrambled region and a region of zeroed headers, and the
ground truth that goes with them. Names of files are left out, and so is writing
them.
-/

namespace Dvrft.Generator

open Chunks Errors Machine Platform Crates StreamHash Acquisition Descrambler

def blockSize : ℕ := 4096

def headerSize : ℕ := 32

def payloadSize : ℕ := blockSize - headerSize

def superblockMagic : Bytes := [0x43, 0x34, 0x44, 0x56, 0x52, 0x00, 0x01, 0x00]

def partitionMagic : Bytes := [0x43, 0x34, 0x50, 0x54]

def videoBlockMagic : Bytes := [0x43, 0x34, 0x56, 0x46]

def xorScrambleKey : Bytes := [0xD4, 0xA8, 0x7E, 0x31]

def flagKeyframe : UInt16 := 0x0001

def flagScrambled : UInt16 := 0x0002

def flagCorrupted : UInt16 := 0x0004

structure Args where
  blocks : ℕ
  baseTimestamp : UInt64
  deriving DecidableEq, Repr

structure ImageMetadata where
  totalBytes : ℕ
  blockSize : ℕ
  totalBlocks : ℕ
  wholeImageSha256 : String
  deriving DecidableEq, Repr

structure ChannelMetadata where
  channelId : UInt32
  channelName : String
  startBlock : UInt32
  blockCount : UInt32
  deriving DecidableEq, Repr

structure BlockGroundTruth where
  blockIndex : ℕ
  offset : ℕ
  channelId : UInt32
  timestamp : UInt64
  sequenceNum : UInt32
  payloadLen : ℕ
  isScrambled : Bool
  xorKey : Option String
  isCorrupted : Bool
  corruptionType : Option String
  originalPayloadBlake3 : String
  diskBlockBlake3 : String
  deriving DecidableEq, Repr

structure GroundTruth where
  formatTier : String
  specificationFile : String
  imageMetadata : ImageMetadata
  channels : List ChannelMetadata
  blocks : List BlockGroundTruth
  deriving DecidableEq, Repr

def crcBit (crc : UInt16) : UInt16 :=
  if crc &&& 0x8000 ≠ 0 then (crc <<< 1) ^^^ 0x1021 else crc <<< 1

def computeHeaderCrc (data : Bytes) : UInt16 :=
  data.foldl (fun crc byte => crcBit^[8] (crc ^^^ byte.toUInt16 <<< (8 : UInt16))) 0xFFFF

def lcg (state : UInt64) : UInt64 := state * 6364136223846793005 + 1442695040888963407

def lcgBytes : ℕ → UInt64 → Bytes
  | 0, _ => []
  | count + 1, state => ((lcg state >>> 33) &&& 0xFF).toUInt8 :: lcgBytes count (lcg state)

/-- A start code, the type of the unit and pseudo-random bytes. -/
def generateDeterministicPayload (channelId seq : UInt32) (isKeyframe : Bool) : Bytes :=
  ([0x00, 0x00, 0x00, 0x01, if isKeyframe then 0x67 else 0x41] : Bytes) ++
    lcgBytes (payloadSize - 5) ((channelId.toUInt64 <<< 32) ^^^ lcg seq.toUInt64)

/-- A buffer of zeros with these bytes at its start. -/
def zeroFilled (size : ℕ) (bytes : Bytes) : Bytes := bytes ++ List.replicate (size - bytes.length) 0

def superblock (args : Args) : Bytes :=
  zeroFilled blockSize (superblockMagic ++ leBytes 4 1 ++ leBytes 4 blockSize ++
    leBytes 4 args.blocks ++ leBytes 8 blockSize ++ leBytes 4 2 ++
    leBytes 8 args.baseTimestamp.toNat ++ leBytes 4 0)

/-- The blocks of one channel, as the generator counts them. -/
def streamBlocks (args : Args) : UInt32 := UInt32.ofNat ((args.blocks - 2) / 2)

/-- One entry of the partition table; `name` has eight bytes. -/
def partitionEntry (args : Args) (channelId : ℕ) (name : Bytes) : Bytes :=
  leBytes 4 channelId ++ name ++ leBytes 4 2 ++ leBytes 4 (streamBlocks args).toNat ++ leBytes 4 1

/-- Entries begin at bytes 16 and 48. -/
def partitionTable (args : Args) : Bytes :=
  zeroFilled blockSize (zeroFilled 48 (zeroFilled 16 (partitionMagic ++ leBytes 4 2) ++
      partitionEntry args 1 [0x43, 0x48, 0x5F, 0x30, 0x31, 0x5F, 0x41, 0x00]) ++
    partitionEntry args 2 [0x43, 0x48, 0x5F, 0x30, 0x32, 0x5F, 0x42, 0x00])

def isScrambled (b : ℕ) : Bool := 10 ≤ b && b ≤ 13

def isCorrupted (b : ℕ) : Bool := 22 ≤ b && b ≤ 23

def isKeyframe (seq : UInt32) : Bool := seq % 10 == 1

def videoFlags (b : ℕ) (seq : UInt32) : UInt16 :=
  (if isKeyframe seq then flagKeyframe else 0) ||| (if isScrambled b then flagScrambled else 0) |||
    (if isCorrupted b then flagCorrupted else 0)

/-- The header up to its checksum. -/
def headerFields (channelId : UInt32) (timestamp : UInt64) (seq : UInt32) (flags : UInt16) :
    Bytes :=
  videoBlockMagic ++ leBytes 4 channelId.toNat ++ leBytes 8 timestamp.toNat ++
    leBytes 4 seq.toNat ++ leBytes 4 payloadSize ++ leBytes 2 flags.toNat

def header (channelId : UInt32) (timestamp : UInt64) (seq : UInt32) (flags : UInt16) : Bytes :=
  zeroFilled headerSize (headerFields channelId timestamp seq flags ++
    leBytes 2 (computeHeaderCrc (headerFields channelId timestamp seq flags)).toNat)

def originalPayload (channelId seq : UInt32) : Bytes :=
  generateDeterministicPayload channelId seq (isKeyframe seq)

def diskPayload (b : ℕ) (channelId seq : UInt32) : Bytes :=
  if isScrambled b then xorRepeating xorScrambleKey (originalPayload channelId seq)
  else originalPayload channelId seq

def videoBlock (b : ℕ) (channelId : UInt32) (timestamp : UInt64) (seq : UInt32) : Bytes :=
  (if isCorrupted b then List.replicate headerSize 0
    else header channelId timestamp seq (videoFlags b seq)) ++ diskPayload b channelId seq

/-- The entry of a block without a channel. -/
def systemTruth (X : Crates) (args : Args) (b : ℕ) (block : Bytes) : BlockGroundTruth where
  blockIndex := b
  offset := b * blockSize
  channelId := 0
  timestamp := args.baseTimestamp
  sequenceNum := 0
  payloadLen := 0
  isScrambled := false
  xorKey := none
  isCorrupted := false
  corruptionType := none
  originalPayloadBlake3 := ""
  diskBlockBlake3 := X.blake3Hex block

def videoTruth (X : Crates) (b offset : ℕ) (channelId : UInt32) (timestamp : UInt64)
    (seq : UInt32) : BlockGroundTruth where
  blockIndex := b
  offset := offset
  channelId := channelId
  timestamp := timestamp
  sequenceNum := seq
  payloadLen := payloadSize
  isScrambled := isScrambled b
  xorKey := if isScrambled b then some (hexEncode xorScrambleKey).toUpper else none
  isCorrupted := isCorrupted b
  corruptionType := if isCorrupted b then some "zeroed_header_unallocated_test" else none
  originalPayloadBlake3 := X.blake3Hex (originalPayload channelId seq)
  diskBlockBlake3 := X.blake3Hex (videoBlock b channelId timestamp seq)

/-- What the loop over the blocks carries. -/
structure GenState where
  seqCh1 : UInt32
  seqCh2 : UInt32
  diskData : Bytes
  truthBlocks : List BlockGroundTruth

abbrev Generated (α : Type) := Outcome String α

/-- Even blocks belong to channel 1, odd ones to channel 2. -/
def nextInStream (X : Crates) (s : GenState) (b : ℕ) : Generated (GenState × UInt32 × UInt32) :=
  if b % 2 = 0 then do
    let seq ← X.build.fitU32 (s.seqCh1.toNat + 1)
    .ok ({ s with seqCh1 := UInt32.ofNat seq }, 1, UInt32.ofNat seq)
  else do
    let seq ← X.build.fitU32 (s.seqCh2.toNat + 1)
    .ok ({ s with seqCh2 := UInt32.ofNat seq }, 2, UInt32.ofNat seq)

def addVideoBlock (X : Crates) (args : Args) (s : GenState) (b : ℕ) : Generated GenState := do
  let blockOffset ← X.build.mul b blockSize
  let (s, channelId, seq) ← nextInStream X s b
  let elapsed ← X.build.mul b 2
  let stamp ← X.build.add args.baseTimestamp.toNat elapsed
  let timestamp := UInt64.ofNat stamp
  .ok { s with
    diskData := s.diskData ++ videoBlock b channelId timestamp seq
    truthBlocks := s.truthBlocks ++ [videoTruth X b blockOffset channelId timestamp seq] }

def GenState.start (X : Crates) (args : Args) : GenState where
  seqCh1 := 0
  seqCh2 := 0
  diskData := superblock args ++ partitionTable args
  truthBlocks :=
    [systemTruth X args 0 (superblock args), systemTruth X args 1 (partitionTable args)]

def groundTruth (X : Crates) (args : Args) (s : GenState) : GroundTruth where
  formatTier := "TIER 1 (Synthetic Ground Truth)"
  specificationFile := "docs/synthetic-format-spec.md"
  imageMetadata := ⟨s.diskData.length, blockSize, args.blocks, X.sha256Hex s.diskData⟩
  channels := [⟨1, "CH_01_A", 2, streamBlocks args⟩, ⟨2, "CH_02_B", 2, streamBlocks args⟩]
  blocks := s.truthBlocks

/-- The image and its ground truth. -/
def generate (X : Crates) (args : Args) : Generated (Bytes × GroundTruth) :=
  if args.blocks < 32 then
    fail "Minimum block count is 32 to host filesystem, partitions, and test regions."
  else do
    let _ ← X.build.mul args.blocks blockSize
    let s ← (List.range' 2 (args.blocks - 2)).foldlM (addVideoBlock X args) (.start X args)
    .ok (s.diskData, groundTruth X args s)

def channelOf (b : ℕ) : UInt32 := if b % 2 = 0 then 1 else 2

def sequenceOf (b : ℕ) : UInt32 := UInt32.ofNat (b / 2)

def timestampOf (args : Args) (b : ℕ) : UInt64 := UInt64.ofNat (args.baseTimestamp.toNat + 2 * b)

def blockOf (args : Args) (b : ℕ) : Bytes :=
  if b = 0 then superblock args
  else if b = 1 then partitionTable args
  else videoBlock b (channelOf b) (timestampOf args b) (sequenceOf b)

def truthOf (X : Crates) (args : Args) (b : ℕ) : BlockGroundTruth :=
  if b < 2 then systemTruth X args b (blockOf args b)
  else videoTruth X b (b * blockSize) (channelOf b) (timestampOf args b) (sequenceOf b)

/-- The state in which the loop arrives at block `b`. -/
def stateAt (X : Crates) (args : Args) (b : ℕ) : GenState where
  seqCh1 := UInt32.ofNat ((b - 1) / 2)
  seqCh2 := UInt32.ofNat ((b - 2) / 2)
  diskData := ((List.range b).map (blockOf args)).flatten
  truthBlocks := (List.range b).map (truthOf X args)

theorem fitU32_of_lt (build : Build) {n : ℕ} (h : n < 2 ^ 32) :
    (build.fitU32 n : Generated ℕ) = .ok n := if_pos h

theorem addVideoBlock_stateAt (X : Crates) (args : Args) {b : ℕ} (htwo : 2 ≤ b)
    (hlt : b < 2 ^ 32) (hstamp : args.baseTimestamp.toNat + 2 * b < 2 ^ 64) :
    addVideoBlock X args (stateAt X args b) b = .ok (stateAt X args (b + 1)) := by
  have hoffset : (X.build.mul b blockSize : Generated ℕ) = .ok (b * blockSize) :=
    X.build.mul_of_lt (by unfold blockSize; omega)
  have helapsed : (X.build.mul b 2 : Generated ℕ) = .ok (b * 2) := X.build.mul_of_lt (by omega)
  have hadd : (X.build.add args.baseTimestamp.toNat (b * 2) : Generated ℕ) =
      .ok (args.baseTimestamp.toNat + 2 * b) := by
    rw [X.build.add_of_lt (by omega), Nat.mul_comm]
  have hnext : nextInStream X (stateAt X args b) b =
      .ok ({ stateAt X args b with
        seqCh1 := UInt32.ofNat (b / 2), seqCh2 := UInt32.ofNat ((b - 1) / 2) },
        channelOf b, sequenceOf b) := by
    have hcount : ∀ n, n < 2 ^ 32 → (UInt32.ofNat n).toNat = n :=
      fun n hn => UInt32.toNat_ofNat_of_lt' hn
    unfold nextInStream channelOf sequenceOf
    split_ifs with heven
    · have hnew : (UInt32.ofNat ((b - 1) / 2)).toNat + 1 = b / 2 := by
        rw [hcount _ (by omega)]
        omega
      have hold : (b - 2) / 2 = (b - 1) / 2 := by omega
      simp only [stateAt, hnew, fitU32_of_lt X.build (show b / 2 < 2 ^ 32 by omega), ok_bind, hold]
    · have hnew : (UInt32.ofNat ((b - 2) / 2)).toNat + 1 = b / 2 := by
        rw [hcount _ (by omega)]
        omega
      have hold : (b - 1) / 2 = b / 2 := by omega
      simp only [stateAt, hnew, fitU32_of_lt X.build (show b / 2 < 2 ^ 32 by omega), ok_bind, hold]
  have hblock : blockOf args b =
      videoBlock b (channelOf b) (timestampOf args b) (sequenceOf b) := by
    rw [blockOf, if_neg (by omega), if_neg (by omega)]
  have htruth : truthOf X args b =
      videoTruth X b (b * blockSize) (channelOf b) (timestampOf args b) (sequenceOf b) :=
    if_neg (by omega)
  simp only [addVideoBlock, hoffset, hnext, helapsed, hadd, ok_bind]
  simp only [stateAt, List.range_succ, List.map_append, List.flatten_append, List.map_cons,
    List.map_nil, List.flatten_cons, List.flatten_nil, List.append_nil, hblock, htruth]
  rfl

theorem stateAt_two (X : Crates) (args : Args) : stateAt X args 2 = .start X args := by
  have hblocks : ((List.range 2).map (blockOf args)).flatten =
      superblock args ++ partitionTable args := by
    simp [List.range_succ, blockOf]
  rw [stateAt, hblocks]
  rfl

/-- The loop passes through the closed states. -/
theorem addVideoBlock_run (X : Crates) (args : Args) (count : ℕ) (hlt : 2 + count ≤ 2 ^ 32)
    (hstamp : args.baseTimestamp.toNat + 2 * (1 + count) < 2 ^ 64) :
    (List.range' 2 count).foldlM (addVideoBlock X args) (.start X args) =
      .ok (stateAt X args (2 + count)) := by
  induction count with
  | zero =>
    rw [stateAt_two]
    rfl
  | succ count ih =>
    have hstep := addVideoBlock_stateAt X args (show 2 ≤ 2 + count by omega) (by omega)
      (by omega)
    rw [List.range'_concat, List.foldlM_append, ih (by omega) (by omega), ok_bind, Nat.one_mul,
      List.foldlM_cons, hstep, ok_bind]
    rfl

/-- The generator's output in closed form. -/
theorem generate_ok (X : Crates) {args : Args} (hmin : 32 ≤ args.blocks)
    (hlt : args.blocks < 2 ^ 32)
    (hstamp : args.baseTimestamp.toNat + 2 * (args.blocks - 1) < 2 ^ 64) :
    generate X args = .ok (((List.range args.blocks).map (blockOf args)).flatten,
      groundTruth X args (stateAt X args args.blocks)) := by
  have hbytes : (X.build.mul args.blocks blockSize : Generated ℕ) = .ok (args.blocks * blockSize) :=
    X.build.mul_of_lt (by unfold blockSize; omega)
  have hrun := addVideoBlock_run X args (args.blocks - 2) (by omega) (by omega)
  rw [show 2 + (args.blocks - 2) = args.blocks by omega] at hrun
  rw [generate, if_neg (by omega), hbytes, ok_bind, hrun, ok_bind]
  rfl

theorem length_zeroFilled {size : ℕ} {bytes : Bytes} (h : bytes.length ≤ size) :
    (zeroFilled size bytes).length = size := by
  rw [zeroFilled, List.length_append, List.length_replicate]
  omega

theorem length_lcgBytes (count : ℕ) (state : UInt64) : (lcgBytes count state).length = count := by
  induction count generalizing state with
  | zero => rfl
  | succ count ih => rw [lcgBytes, List.length_cons, ih]

theorem length_originalPayload (channelId seq : UInt32) :
    (originalPayload channelId seq).length = payloadSize := by
  rw [originalPayload, generateDeterministicPayload, List.length_append, length_lcgBytes]
  rfl

theorem length_diskPayload (b : ℕ) (channelId seq : UInt32) :
    (diskPayload b channelId seq).length = payloadSize := by
  unfold diskPayload
  split_ifs <;> simp only [length_xorRepeating, length_originalPayload]

theorem length_headerFields (channelId : UInt32) (timestamp : UInt64) (seq : UInt32)
    (flags : UInt16) : (headerFields channelId timestamp seq flags).length = 26 := by
  simp [headerFields, videoBlockMagic]

theorem length_header (channelId : UInt32) (timestamp : UInt64) (seq : UInt32) (flags : UInt16) :
    (header channelId timestamp seq flags).length = headerSize := by
  refine length_zeroFilled ?_
  rw [List.length_append, length_headerFields, length_leBytes]
  decide

theorem length_blockOf (args : Args) (b : ℕ) : (blockOf args b).length = blockSize := by
  unfold blockOf
  split_ifs
  · refine length_zeroFilled ?_
    simp [superblockMagic, blockSize]
  · refine length_zeroFilled ?_
    have hentry : (zeroFilled 16 (partitionMagic ++ leBytes 4 2)).length = 16 :=
      length_zeroFilled (by simp [partitionMagic])
    have htable : (zeroFilled 16 (partitionMagic ++ leBytes 4 2) ++
        partitionEntry args 1 [0x43, 0x48, 0x5F, 0x30, 0x31, 0x5F, 0x41, 0x00]).length = 40 := by
      rw [List.length_append, hentry]
      simp [partitionEntry]
    rw [List.length_append, length_zeroFilled (by rw [htable]; omega)]
    simp [partitionEntry, blockSize]
  · rw [videoBlock, List.length_append, length_diskPayload]
    split_ifs
    · rw [List.length_replicate]
      rfl
    · rw [length_header]
      rfl

/-- The division of the image gives the generated blocks back. -/
theorem blocks_image (args : Args) (n : ℕ) :
    blocks blockSize (((List.range n).map (blockOf args)).flatten) =
      (List.range n).map (blockOf args) := by
  refine blocks_flattened _ _ (by decide) fun block hblock => ?_
  obtain ⟨b, -, rfl⟩ := List.mem_map.mp hblock
  exact length_blockOf args b

end Dvrft.Generator
