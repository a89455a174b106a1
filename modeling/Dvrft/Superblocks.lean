import Dvrft.Chunks
import Dvrft.Interpreter

/-!
Where a superblock is looked for. A grammar declares its place on the disk and the
place of its signature inside it. The interpreter sees one block and looks for the
signature at the second place alone, counted from the block.
-/

namespace Dvrft.Superblocks

open Errors Machine Platform Chunks Grammar Interpreter

/-- The bytes stand in the data at an offset. -/
def HasAt (data : List UInt8) (offset : ℕ) (expected : List UInt8) : Prop :=
  offset + expected.length ≤ data.length ∧ (data.drop offset).take expected.length = expected

instance (data : List UInt8) (offset : ℕ) (expected : List UInt8) :
    Decidable (HasAt data offset expected) :=
  inferInstanceAs (Decidable (_ ∧ _))

/-- The data carry a signature that can be decoded, at an offset. -/
def Carries (data : List UInt8) (offset : ℕ) (magic : MagicDef) : Prop :=
  ∃ expected, magic.expectedBytes = .ok expected ∧ HasAt data offset expected

variable {X : Crates}

/-- A comparison that finds the bytes has not left the range. -/
theorem matchesAt_true_iff {data : List UInt8} (hlen : data.length < 2 ^ 64) {offset : ℕ}
    {expected : List UInt8} :
    matchesAt X data offset expected = .ok true ↔ HasAt data offset expected := by
  constructor
  · intro h
    obtain ⟨stop, hadd, h⟩ := bind_ok.mp h
    split_ifs at h with hstop
    · obtain ⟨found, hfound, h⟩ := bind_ok.mp h
      unfold slice at hfound
      split_ifs at hfound with hin
      · obtain rfl := Except.ok.inj hfound
        have heq := beq_iff_eq.mp (Except.ok.inj h)
        have hlength := congrArg List.length heq
        rw [List.length_take, List.length_drop] at hlength
        have hwidth : stop - offset = expected.length := by omega
        rw [hwidth] at heq
        exact ⟨by omega, heq⟩
      · simp [panicked] at hfound
    · simp at h
  · rintro ⟨hstop, heq⟩
    unfold matchesAt
    rw [X.build.add_of_lt (by omega), ok_bind, if_pos hstop, slice_of_le (by omega) hstop,
      ok_bind, Nat.add_sub_cancel_left, heq, beq_self_eq_true]

theorem carriesMagic_true_iff {data : List UInt8} (hlen : data.length < 2 ^ 64)
    (magic : MagicDef) :
    carriesMagic X data (some magic) = .ok true ↔ Carries data magic.offset magic := by
  unfold carriesMagic Carries
  dsimp only
  cases hbytes : magic.expectedBytes with
  | error e => simp
  | ok expected => simp [matchesAt_true_iff hlen]

/-- What a block has at an offset, the image has at the block's place. -/
theorem hasAt_blockAt_iff {size i : ℕ} {image : List UInt8} (hi : i * size < image.length)
    {offset : ℕ} {expected : List UInt8} :
    HasAt (blockAt size image i) offset expected ↔
      offset + expected.length ≤ (blockAt size image i).length ∧
        HasAt image (i * size + offset) expected := by
  have hlength := length_blockAt size image i
  have hbytes : offset + expected.length ≤ (blockAt size image i).length →
      ((blockAt size image i).drop offset).take expected.length =
        (image.drop (i * size + offset)).take expected.length := by
    intro hfit
    rw [blockAt, List.drop_take, List.drop_drop, List.take_take]
    congr 1
    omega
  constructor
  · rintro ⟨hfit, heq⟩
    exact ⟨hfit, by omega, (hbytes hfit).symm.trans heq⟩
  · rintro ⟨hfit, -, heq⟩
    exact ⟨hfit, (hbytes hfit).trans heq⟩

/-- The interpreter makes a record of a superblock out of the block. -/
def ReadsAsSuperblock (X : Crates) (grammar : GrammarFile) (blockIndex byteOffset : ℕ)
    (block : List UInt8) (blake3Hash : String) : Prop :=
  ∃ r, interpretBlock X grammar blockIndex byteOffset block blake3Hash = .ok r ∧
    r.blockType = "superblock"

/-- The block is long enough for a header, and the comparison with the video signature
ends without finding it. -/
def Searched (X : Crates) (grammar : GrammarFile) (block : List UInt8) : Prop :=
  grammar.structures.videoBlock.header.size ≤ block.length ∧
    ∃ magicBytes, grammar.structures.videoBlock.header.magic.expectedBytes = .ok magicBytes ∧
      matchesAt X block grammar.structures.videoBlock.header.magic.offset magicBytes = .ok false

/-- The block without the video signature. -/
def NoVideoMagic (grammar : GrammarFile) (block : List UInt8) : Prop :=
  ¬ Carries block grammar.structures.videoBlock.header.magic.offset
    grammar.structures.videoBlock.header.magic

/-- The declared place of the superblock lies in block `i`. -/
def Contains (size : ℕ) (image : List UInt8) (i : ℕ) (superblock : SuperblockDef) : Prop :=
  i * size ≤ superblock.offset ∧ superblock.offset < i * size + (blockAt size image i).length

variable {grammar : GrammarFile} {superblock : SuperblockDef} {magic : MagicDef}
  {blockIndex byteOffset : ℕ} {blake3Hash : String}

/-- Only a block that carries the signature at the signature's own offset becomes a
superblock, wherever the block is. -/
theorem readsAsSuperblock_iff {block : List UInt8} (hlen : block.length < 2 ^ 64)
    (hsuperblock : grammar.structures.superblock = some superblock)
    (hmagic : superblock.magic = some magic) :
    ReadsAsSuperblock X grammar blockIndex byteOffset block blake3Hash ↔
      Searched X grammar block ∧ Carries block magic.offset magic := by
  have hdeclared : grammar.structures.superblock.bind SuperblockDef.magic = some magic := by
    rw [hsuperblock, Option.bind_some, hmagic]
  constructor
  · rintro ⟨r, h, htype⟩
    unfold interpretBlock at h
    dsimp only at h
    split_ifs at h with hsize
    · simp [fail] at h
    · obtain ⟨magicBytes, hvideoMagic, h⟩ := bind_ok.mp h
      obtain ⟨hasVideoMagic, hvideo, h⟩ := bind_ok.mp h
      cases hasVideoMagic with
      | true =>
        obtain ⟨v, payloadOffset, -, -, rfl⟩ := parseVideoBlock_cases h
        exact absurd htype (show "video_frame" ≠ "superblock" by decide)
      | false =>
        refine ⟨⟨by omega, magicBytes, ofExcept_eq_ok.mp hvideoMagic, hvideo⟩, ?_⟩
        simp only [Bool.false_eq_true, if_false] at h
        obtain ⟨isSuperblock, hfound, h⟩ := bind_ok.mp h
        cases isSuperblock with
        | true =>
          rw [hdeclared] at hfound
          exact (carriesMagic_true_iff hlen magic).mp hfound
        | false =>
          simp only [Bool.false_eq_true, if_false] at h
          obtain ⟨isPartition, -, h⟩ := bind_ok.mp h
          split_ifs at h
          · obtain rfl := Except.ok.inj h
            exact absurd htype (show "partition_table" ≠ "superblock" by decide)
          · obtain ⟨payloadOffset, -, h⟩ := bind_ok.mp h
            obtain rfl := Except.ok.inj h
            exact absurd htype (show "unallocated_or_corrupted" ≠ "superblock" by decide)
  · rintro ⟨⟨hsize, magicBytes, hvideoMagic, hvideo⟩, hcarries⟩
    have hfound := (carriesMagic_true_iff (X := X) hlen magic).mpr hcarries
    refine ⟨plainRecord blockIndex byteOffset byteOffset block.length false "superblock"
      blake3Hash, ?_, rfl⟩
    unfold interpretBlock
    dsimp only
    rw [if_neg (by omega), ofExcept_eq_ok.mpr hvideoMagic, ok_bind, hvideo, ok_bind,
      if_neg (by decide), hdeclared, hfound, ok_bind, if_pos rfl]

/-- The image has the signature where block `i` is searched for it, all of it inside the
block. -/
def CarriesAtOwnPlace (size : ℕ) (image : List UInt8) (i : ℕ) (magic : MagicDef) : Prop :=
  ∃ expected, magic.expectedBytes = .ok expected ∧
    magic.offset + expected.length ≤ (blockAt size image i).length ∧
    HasAt image (i * size + magic.offset) expected

theorem carries_blockAt_iff {size i : ℕ} {image : List UInt8} (hi : i * size < image.length) :
    Carries (blockAt size image i) magic.offset magic ↔ CarriesAtOwnPlace size image i magic :=
  exists_congr fun _ => and_congr_right fun _ => hasAt_blockAt_iff hi

/-- Block `i`, unless it has the video signature, is a superblock exactly when it contains
the declared place and the image has the signature there. -/
def FollowsPosition (X : Crates) (grammar : GrammarFile) (superblock : SuperblockDef)
    (magic : MagicDef) (image : List UInt8) (i byteOffset : ℕ) (blake3Hash : String) : Prop :=
  let size := grammar.structures.videoBlock.fixedSize
  let block := blockAt size image i
  NoVideoMagic grammar block →
    (ReadsAsSuperblock X grammar i byteOffset block blake3Hash ↔
      Contains size image i superblock ∧ Carries image (superblock.offset + magic.offset) magic)

/-- The block with the declared place, if it is searched, has the signature at its own
place together with the declared one, and no other searched block has it at its own. -/
def PlacesAgree (X : Crates) (grammar : GrammarFile) (superblock : SuperblockDef)
    (magic : MagicDef) (image : List UInt8) (i : ℕ) : Prop :=
  let size := grammar.structures.videoBlock.fixedSize
  let block := blockAt size image i
  NoVideoMagic grammar block →
    (Contains size image i superblock →
      (Carries image (superblock.offset + magic.offset) magic ↔
        Searched X grammar block ∧ CarriesAtOwnPlace size image i magic)) ∧
    (¬ Contains size image i superblock → Searched X grammar block →
      ¬ CarriesAtOwnPlace size image i magic)

theorem followsPosition_iff {image : List UInt8} {i : ℕ}
    (hi : i * grammar.structures.videoBlock.fixedSize < image.length)
    (hfixed : grammar.structures.videoBlock.fixedSize < 2 ^ 64)
    (hsuperblock : grammar.structures.superblock = some superblock)
    (hmagic : superblock.magic = some magic) (byteOffset : ℕ) (blake3Hash : String) :
    FollowsPosition X grammar superblock magic image i byteOffset blake3Hash ↔
      PlacesAgree X grammar superblock magic image i := by
  have hlen : (blockAt grammar.structures.videoBlock.fixedSize image i).length < 2 ^ 64 := by
    rw [length_blockAt]
    omega
  refine forall_congr' fun _ => ?_
  rw [readsAsSuperblock_iff hlen hsuperblock hmagic, carries_blockAt_iff hi]
  by_cases hcontains : Contains grammar.structures.videoBlock.fixedSize image i superblock
  · simp only [hcontains, true_and, true_implies, not_true_eq_false, false_implies, and_true]
    exact iff_comm
  · simp only [hcontains, false_and, iff_false, not_and, false_implies, true_and,
      not_false_eq_true, true_implies]

/-- A superblock declared at the beginning of a block is found there. -/
theorem followsPosition_of_block_start {image : List UInt8} {i : ℕ}
    (hi : i * grammar.structures.videoBlock.fixedSize < image.length)
    (hpositive : 0 < grammar.structures.videoBlock.fixedSize)
    (hfixed : grammar.structures.videoBlock.fixedSize < 2 ^ 64)
    (hsuperblock : grammar.structures.superblock = some superblock)
    (hmagic : superblock.magic = some magic)
    (hstart : superblock.offset = i * grammar.structures.videoBlock.fixedSize)
    (hsearched : Searched X grammar (blockAt grammar.structures.videoBlock.fixedSize image i))
    (hfits : ∀ expected, magic.expectedBytes = .ok expected → magic.offset + expected.length ≤
      (blockAt grammar.structures.videoBlock.fixedSize image i).length)
    (byteOffset : ℕ) (blake3Hash : String) :
    FollowsPosition X grammar superblock magic image i byteOffset blake3Hash := by
  rw [followsPosition_iff hi hfixed hsuperblock hmagic]
  have hcontains : Contains grammar.structures.videoBlock.fixedSize image i superblock := by
    have hlength := length_blockAt grammar.structures.videoBlock.fixedSize image i
    unfold Contains
    omega
  refine fun _ => ⟨fun _ => ?_, fun hnot => absurd hcontains hnot⟩
  rw [and_iff_right hsearched, hstart]
  exact exists_congr fun expected => and_congr_right fun hexpected =>
    (and_iff_right (hfits expected hexpected)).symm

/-- The signature of the master sector. -/
def masterMagic : MagicDef :=
  ⟨0, some "HIKVISION@HANGZHOU", some "48494B564953494F4E4048414E475A484F55"⟩

/-- `grammars/hikvision-v1.yaml`. -/
def hikvisionV1 : GrammarFile where
  id := "hikvision-v1"
  name := "Hikvision DVR File System (HBFS)"
  tier := 2
  descramblePlugin := none
  rules := [⟨512, some "HIKVISION@HANGZHOU", some "48494B564953494F4E4048414E475A484F55"⟩]
  structures :=
    { superblock := some ⟨512, some masterMagic⟩
      partitionTable := none
      videoBlock :=
        { fixedSize := 4096
          header :=
            { size := 32
              magic := ⟨0, some "HIKB", some "48494B42"⟩
              fields :=
                [⟨"u32", 4, some "little", some "channel_id", none, none, none⟩,
                  ⟨"u64", 8, some "little", some "timestamp", some "unix_seconds", some "UTC",
                    none⟩,
                  ⟨"u32", 16, some "little", some "sequence_num", none, none, none⟩,
                  ⟨"u32", 20, some "little", some "payload_length", none, none, none⟩,
                  ⟨"u16", 24, some "little", some "flags", none, none, none⟩] }
          payload := ⟨32, 4064⟩ } }

def masterBytes : List UInt8 := unescapeAscii "HIKVISION@HANGZHOU"

theorem masterMagic_expectedBytes : masterMagic.expectedBytes = .ok masterBytes := by
  decide +kernel

/-- The first block of a disk with a master sector, as far as the signature. -/
def masterImage : List UInt8 := List.replicate 512 0 ++ masterBytes

theorem not_carriesAtOwnPlace {image : List UInt8} (h : ¬ HasAt image 0 masterBytes) :
    ¬ CarriesAtOwnPlace 4096 image 0 masterMagic := by
  rintro ⟨expected, hexpected, -, hat⟩
  rw [masterMagic_expectedBytes] at hexpected
  obtain rfl := Except.ok.inj hexpected
  exact h hat

/-- The signature at the declared place and at the beginning of the block as well. -/
def doubleImage : List UInt8 := masterBytes ++ List.replicate 494 0 ++ masterBytes

/-- With the signature at both places the block is a superblock, as declared. -/
theorem followsPosition_double :
    ReadsAsSuperblock Crates.sample hikvisionV1 0 0 (blockAt 4096 doubleImage 0) "" ∧
      FollowsPosition Crates.sample hikvisionV1 ⟨512, some masterMagic⟩ masterMagic doubleImage
        0 0 "" := by
  have hi : 0 * hikvisionV1.structures.videoBlock.fixedSize < doubleImage.length := by
    decide +kernel
  have hlen : (blockAt 4096 doubleImage 0).length < 2 ^ 64 := by decide +kernel
  have hsearched : Searched Crates.sample hikvisionV1 (blockAt 4096 doubleImage 0) :=
    ⟨by decide +kernel, [72, 73, 75, 66], by decide +kernel, by decide +kernel⟩
  have hown : CarriesAtOwnPlace 4096 doubleImage 0 masterMagic :=
    ⟨masterBytes, masterMagic_expectedBytes, by decide +kernel, by decide +kernel⟩
  have hdeclared : Carries doubleImage 512 masterMagic :=
    ⟨masterBytes, masterMagic_expectedBytes, by decide +kernel⟩
  have hcontains : Contains 4096 doubleImage 0 ⟨512, some masterMagic⟩ := by
    unfold Contains
    decide +kernel
  refine ⟨(readsAsSuperblock_iff hlen rfl rfl).mpr
    ⟨hsearched, (carries_blockAt_iff hi).mpr hown⟩, ?_⟩
  refine (followsPosition_iff hi (by decide) rfl rfl 0 "").mpr fun _ => ⟨?_, ?_⟩
  · intro _
    exact iff_of_true hdeclared ⟨hsearched, hown⟩
  · intro hnot
    exact absurd hcontains hnot

/-- The master sector stands at its declared place, and its block is not a superblock. -/
theorem master_sector_missed :
    ¬ FollowsPosition Crates.sample hikvisionV1 ⟨512, some masterMagic⟩ masterMagic masterImage
      0 0 "" := by
  intro hfollows
  have hlen : (blockAt 4096 masterImage 0).length < 2 ^ 64 := by decide +kernel
  have hnoVideo : NoVideoMagic hikvisionV1 (blockAt 4096 masterImage 0) := by
    rintro ⟨expected, hexpected, hat⟩
    have hbytes : hikvisionV1.structures.videoBlock.header.magic.expectedBytes =
        .ok [72, 73, 75, 66] := by decide +kernel
    rw [hbytes] at hexpected
    obtain rfl := Except.ok.inj hexpected
    revert hat
    decide +kernel
  have hdeclared : Carries masterImage 512 masterMagic :=
    ⟨masterBytes, masterMagic_expectedBytes, by decide +kernel⟩
  have hcontains : Contains 4096 masterImage 0 ⟨512, some masterMagic⟩ := by
    unfold Contains
    decide +kernel
  have hreads := (hfollows hnoVideo).mpr ⟨hcontains, hdeclared⟩
  have hown := ((readsAsSuperblock_iff hlen rfl rfl).mp hreads).2
  exact not_carriesAtOwnPlace (by decide +kernel)
    ((carries_blockAt_iff (by decide +kernel)).mp hown)

end Dvrft.Superblocks
