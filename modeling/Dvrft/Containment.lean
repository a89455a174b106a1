import Dvrft.Interpreter

/-!
Whether the payload of a record lies in its own block. The length comes from a
header field that is compared with the block, not with what the block has left
after the payload's offset, or from a default that the block may be too short
for; either can reach into the neighbouring block.
-/

namespace Dvrft.Containment

open Errors Machine Platform Grammar Interpreter

/-- The payload of a record of a block of `length` bytes is part of the block. -/
def Contained (r : ExtractedRecord) (length : ℕ) : Prop :=
  r.byteOffset ≤ r.payloadOffset ∧ r.payloadOffset + r.payloadLen ≤ r.byteOffset + length

/-- The length that a field declares, if it is a length field with a length of
at most the block's. -/
def acceptedLength (X : Crates) (blockBytes : List UInt8) (field : FieldDef) : Option ℕ :=
  if field.role = some "payload_length" then
    match readFieldValue X blockBytes field with
    | .ok val => if 0 < val ∧ val ≤ blockBytes.length then some val else none
    | .error _ => none
  else none

/-- The last length that the header declares, or the grammar's default. -/
def declaredLength (X : Crates) (videoDef : VideoBlockDef) (blockBytes : List UInt8) : ℕ :=
  (videoDef.header.fields.filterMap (acceptedLength X blockBytes)).getLastD
    videoDef.payload.defaultLength

section Lengths

variable {X : Crates} {blockBytes : List UInt8}

/-- A field sets the payload length if it declares one and leaves it otherwise. -/
theorem applyField_payloadLen {v v' : HeaderValues} {field : FieldDef}
    (h : applyField X blockBytes v field = .ok v') :
    v'.payloadLen = (acceptedLength X blockBytes field).getD v.payloadLen := by
  by_cases hrole : field.role = some "payload_length"
  · obtain ⟨val, hval, hset⟩ := bind_ok.mp h
    simp only [hrole, Except.ok.injEq] at hset
    rw [← hset, acceptedLength, if_pos hrole, hval]
    dsimp only
    split_ifs
    · rfl
    · rfl
  · rw [(applyField_leavesAlone h).payloadLen hrole, acceptedLength, if_neg hrole,
      Option.getD_none]

end Lengths

section Records

variable {X : Crates} {grammar : GrammarFile} {blockIndex byteOffset : ℕ}
  {blockBytes : List UInt8} {blake3Hash : String} {r : ExtractedRecord}

/-- The fields that the payload of a record depends on. -/
theorem payload_of_videoFrame
    (h : interpretBlock X grammar blockIndex byteOffset blockBytes blake3Hash = .ok r)
    (htype : r.blockType = "video_frame") :
    ∃ payloadOffset, X.build.add byteOffset grammar.structures.videoBlock.payload.offset =
        (.ok payloadOffset : Parsed ℕ) ∧ r.byteOffset = byteOffset ∧
      r.payloadOffset = payloadOffset ∧
      r.payloadLen = declaredLength X grammar.structures.videoBlock blockBytes := by
  obtain ⟨-, _, -, ⟨-, hvideo⟩ | ⟨-, _, _, _, _, hother, rfl⟩⟩ := interpretBlock_cases h
  · obtain ⟨v, payloadOffset, hv, hadd, rfl⟩ := parseVideoBlock_cases hvideo
    exact ⟨payloadOffset, hadd, rfl, rfl, foldlM_last_set HeaderValues.payloadLen _
      (fun _ _ _ hstep => applyField_payloadLen hstep) hv⟩
  · exact absurd htype hother

theorem payload_of_unallocated
    (h : interpretBlock X grammar blockIndex byteOffset blockBytes blake3Hash = .ok r)
    (htype : r.blockType = "unallocated_or_corrupted") :
    ∃ payloadOffset, X.build.add byteOffset grammar.structures.videoBlock.payload.offset =
        (.ok payloadOffset : Parsed ℕ) ∧ r.byteOffset = byteOffset ∧
      r.payloadOffset = payloadOffset ∧
      r.payloadLen = grammar.structures.videoBlock.payload.defaultLength := by
  unfold interpretBlock at h
  dsimp only at h
  split_ifs at h with hsize
  · simp [fail] at h
  · obtain ⟨magicBytes, -, h⟩ := bind_ok.mp h
    obtain ⟨hasVideoMagic, -, h⟩ := bind_ok.mp h
    cases hasVideoMagic with
    | true =>
      obtain ⟨v, payloadOffset, -, -, rfl⟩ := parseVideoBlock_cases h
      simp [videoRecord] at htype
    | false =>
      simp only [Bool.false_eq_true, if_false] at h
      obtain ⟨isSuperblock, -, h⟩ := bind_ok.mp h
      split_ifs at h
      · rw [← Except.ok.inj h] at htype
        simp [plainRecord] at htype
      · obtain ⟨isPartition, -, h⟩ := bind_ok.mp h
        split_ifs at h
        · rw [← Except.ok.inj h] at htype
          simp [plainRecord] at htype
        · obtain ⟨payloadOffset, hadd, h⟩ := bind_ok.mp h
          rw [← Except.ok.inj h]
          exact ⟨payloadOffset, hadd, rfl, rfl, rfl⟩

/-- A payload that begins `offset` bytes into its block is contained when the
block goes on for its length from there. -/
theorem contained_iff {offset length payloadLen : ℕ}
    (hadd : ∃ payloadOffset, X.build.add byteOffset offset = (.ok payloadOffset : Parsed ℕ) ∧
      r.byteOffset = byteOffset ∧ r.payloadOffset = payloadOffset ∧ r.payloadLen = payloadLen)
    (hfits : byteOffset + offset < 2 ^ 64) :
    Contained r length ↔ offset + payloadLen ≤ length := by
  obtain ⟨payloadOffset, hadd, hbyte, hoffset, hlen⟩ := hadd
  rw [Build.add_of_lt X.build hfits] at hadd
  rw [Contained, hbyte, hoffset, hlen, ← Except.ok.inj hadd]
  omega

/-- A record keeps to its block exactly when the block has room for it after the
payload's offset: a video frame for the length its header declares, a block
without a signature for the default length. -/
theorem interpretBlock_contained_iff (hfits : byteOffset +
      grammar.structures.videoBlock.payload.offset < 2 ^ 64)
    (h : interpretBlock X grammar blockIndex byteOffset blockBytes blake3Hash = .ok r) :
    (r.blockType = "video_frame" → (Contained r blockBytes.length ↔
      grammar.structures.videoBlock.payload.offset +
        declaredLength X grammar.structures.videoBlock blockBytes ≤ blockBytes.length)) ∧
    (r.blockType = "unallocated_or_corrupted" → (Contained r blockBytes.length ↔
      grammar.structures.videoBlock.payload.offset +
        grammar.structures.videoBlock.payload.defaultLength ≤ blockBytes.length)) :=
  ⟨fun htype => contained_iff (payload_of_videoFrame h htype) hfits,
    fun htype => contained_iff (payload_of_unallocated h htype) hfits⟩

end Records

/-- The first bytes of a Dahua frame that declares a length, cut off after eight
bytes of its payload. -/
def dahuaBlock (length : UInt8) : List UInt8 :=
  [0x44, 0x48, 0x41, 0x56] ++ List.replicate 8 0 ++ [length] ++ List.replicate 19 0

theorem interpretBlock_contained_iff_dahua :
    ∃ r, interpretBlock .sample dahuaV1 0 0 (dahuaBlock 8) "" = .ok r ∧ Contained r 32 := by
  refine ⟨_, rfl, ?_⟩
  have hiff := @interpretBlock_contained_iff .sample dahuaV1 0 0 (dahuaBlock 8) "" _
    (by decide) rfl
  exact (hiff.1 rfl).mpr (by decide)

/-- A length of the whole block carries the payload into the next one. -/
theorem declared_length_overruns :
    dahuaV1.structures.videoBlock.payload.offset +
        dahuaV1.structures.videoBlock.payload.defaultLength ≤
      dahuaV1.structures.videoBlock.fixedSize ∧
    dahuaV1.structures.videoBlock.header.size ≤ (dahuaBlock 32).length ∧
    (dahuaBlock 32).length ≤ dahuaV1.structures.videoBlock.fixedSize ∧
    ∃ r, interpretBlock .sample dahuaV1 0 0 (dahuaBlock 32) "" = .ok r ∧
      r.blockType = "video_frame" ∧ ¬ Contained r (dahuaBlock 32).length := by
  refine ⟨by decide, by decide, by decide, _, rfl, rfl, ?_⟩
  unfold Contained
  decide

end Dvrft.Containment
