import Dvrft.Timeline
import Mathlib.Data.Nat.Bitwise

/-!
Who decides that a record is a keyframe. The grammar declares a mask; the
correlation input, the database query and the timeline each look at the lowest
bit of the stored flags. Frame by frame they agree with the grammar exactly when
the mask hits the flags just in case they are odd.
-/

namespace Dvrft.Keyframes

open Errors Machine Platform Grammar Interpreter Database

/-- What the timeline's summary of a record says of its flags. -/
def flagsDesc (r : ExtractedRecord) : List String :=
  (if r.flags &&& 1 != 0 then ["I-FRAME"] else []) ++
    (if r.isScrambled then [if r.descrambled then "DESCRAMBLED" else "SCRAMBLED"] else []) ++
    if r.isCorrupted then ["CORRUPTED"] else []

/-- The filter of `query_records` with nothing but `keyframes_only`. -/
def keyframesOnly : RecordFilter := { RecordFilter.default with keyframesOnly := true }

/-- The flags that a field sets. -/
def flagsOf (X : Crates) (blockBytes : List UInt8) (field : FieldDef) : Option UInt16 :=
  if field.role = some "flags" then
    match readFieldValue X blockBytes field with
    | .ok val => some (UInt16.ofNat val)
    | .error _ => none
  else none

/-- The flags value in the header of a block. -/
def flagsValue (X : Crates) (videoDef : VideoBlockDef) (blockBytes : List UInt8) : UInt16 :=
  (videoDef.header.fields.filterMap (flagsOf X blockBytes)).getLastD 0

/-- The keyframe mask of the field that has the last word on the flags. -/
def keyframeMask (videoDef : VideoBlockDef) : Option UInt32 :=
  match (videoDef.header.fields.filter fun field => field.role = some "flags").getLast? with
  | some field => field.flagMasks.bind fun masks => masks.lookup "keyframe"
  | none => none

section Records

variable {X : Crates} {grammar : GrammarFile} {blockIndex byteOffset : ℕ}
  {blockBytes : List UInt8} {blake3Hash : String} {r : ExtractedRecord}

theorem applyFlags_flags (v : HeaderValues) (flags : UInt16)
    (masks : Option (List (String × UInt32))) : (applyFlags v flags masks).flags = flags := by
  cases masks <;> rfl

theorem applyField_flags {v v' : HeaderValues} {field : FieldDef}
    (h : applyField X blockBytes v field = .ok v') :
    v'.flags = (flagsOf X blockBytes field).getD v.flags := by
  by_cases hrole : field.role = some "flags"
  · obtain ⟨val, hval, hset⟩ := bind_ok.mp h
    simp only [hrole, Except.ok.injEq] at hset
    rw [← hset, applyFlags_flags, flagsOf, if_pos hrole, hval, Option.getD_some]
  · rw [(applyField_leavesAlone h).flags hrole, flagsOf, if_neg hrole, Option.getD_none]

/-- A video frame keeps the flags value of its header. -/
theorem flags_of_videoFrame
    (h : interpretBlock X grammar blockIndex byteOffset blockBytes blake3Hash = .ok r)
    (htype : r.blockType = "video_frame") :
    r.flags = flagsValue X grammar.structures.videoBlock blockBytes := by
  obtain ⟨-, _, -, ⟨-, hvideo⟩ | ⟨-, _, _, _, _, hother, rfl⟩⟩ := interpretBlock_cases h
  · obtain ⟨v, payloadOffset, hv, -, rfl⟩ := parseVideoBlock_cases hvideo
    exact foldlM_last_set HeaderValues.flags _ (fun _ _ _ hstep => applyField_flags hstep) hv
  · exact absurd htype hother

end Records

theorem odd_flags (flags : UInt16) : (flags &&& 1 != 0) = (flags.toNat % 2 == 1) := by
  have hand : (flags &&& 1).toNat = flags.toNat % 2 := by
    rw [UInt16.toNat_and]
    exact Nat.and_one_is_mod _
  have hzero : flags &&& 1 = 0 ↔ flags.toNat % 2 = 0 := by
    rw [← hand, ← UInt16.toNat_inj]
    rfl
  rw [Bool.eq_iff_iff, bne_iff_ne, ne_eq, hzero, beq_iff_eq]
  omega

theorem toCorrelationInput_isKeyframe (r : ExtractedRecord) :
    r.toCorrelationInput.isKeyframe = (r.flags.toNat % 2 == 1) := odd_flags r.flags

theorem keyframesOnly_selects (evidenceId : ℤ) (r : ExtractedRecord) :
    keyframesOnly.selects (.ofRecord evidenceId r) = (r.flags.toNat % 2 == 1) := by
  have hselects : keyframesOnly.selects (.ofRecord evidenceId r) =
      ((r.flags.toNat : ℤ) % 2 != 0) := by
    simp [keyframesOnly, RecordFilter.selects, RecordFilter.default, ExtractedRow.ofRecord,
      Sqlite.SqlValue.castInteger]
  rw [hselects, Bool.eq_iff_iff, bne_iff_ne, beq_iff_eq]
  omega

theorem iFrame_mem_flagsDesc (r : ExtractedRecord) :
    "I-FRAME" ∈ flagsDesc r ↔ r.flags.toNat % 2 = 1 := by
  have hscrambled : "I-FRAME" ∉
      if r.isScrambled then [if r.descrambled then "DESCRAMBLED" else "SCRAMBLED"] else [] := by
    cases r.isScrambled <;> cases r.descrambled <;> decide
  have hcorrupted : "I-FRAME" ∉ if r.isCorrupted then ["CORRUPTED"] else [] := by
    cases r.isCorrupted <;> decide
  rw [flagsDesc, List.mem_append, List.mem_append, or_iff_left hcorrupted,
    or_iff_left hscrambled, odd_flags]
  by_cases hodd : r.flags.toNat % 2 = 1
  · simp [hodd]
  · simp [hodd]

theorem maskHit_iff (flags : UInt16) (mask : UInt32) :
    maskHit flags mask = true ↔ flags.toNat &&& mask.toNat ≠ 0 := by
  rw [maskHit, bne_iff_ne, ne_eq, ← UInt32.toNat_inj, UInt32.toNat_and, UInt16.toNat_toUInt32]
  rfl

/-- The lowest bit stands for a mask on all flags exactly when it is, as far as
the flags reach, the mask. -/
theorem maskHit_iff_odd (mask : UInt32) :
    (∀ flags : UInt16, maskHit flags mask = true ↔ flags.toNat % 2 = 1) ↔
      mask.toNat % 2 ^ 16 = 1 := by
  simp only [maskHit_iff]
  constructor
  · intro hodd
    apply Nat.eq_of_testBit_eq
    intro i
    rw [Nat.testBit_mod_two_pow]
    by_cases hi : i < 16
    · have hpow : 2 ^ i < 2 ^ 16 := Nat.pow_lt_pow_right (by decide) hi
      have hbit := hodd (UInt16.ofNat (2 ^ i))
      rw [UInt16.toNat_ofNat_of_lt' hpow, Nat.two_pow_and] at hbit
      cases i with
      | zero =>
        cases htest : mask.toNat.testBit 0 <;> simp_all
      | succ i =>
        have heven : ¬ 2 ^ (i + 1) % 2 = 1 := by omega
        have hhigh : (1 : ℕ).testBit (i + 1) = false := by simp [Nat.testBit_succ]
        cases htest : mask.toNat.testBit (i + 1) <;> simp_all
    · have hone : (1 : ℕ).testBit i = false := Nat.testBit_lt_two_pow (by
        calc 1 < 2 ^ 16 := by decide
          _ ≤ 2 ^ i := Nat.pow_le_pow_right (by decide) (by omega))
      simp [hi, hone]
  · intro hmask flags
    have hlow : flags.toNat &&& mask.toNat = flags.toNat % 2 := by
      have hlt : flags.toNat &&& mask.toNat < 2 ^ 16 :=
        Nat.lt_of_le_of_lt Nat.and_le_left flags.toNat_lt
      rw [← Nat.mod_eq_of_lt hlt, Nat.and_mod_two_pow, hmask, Nat.and_one_is_mod]
      omega
    rw [hlow]
    omega

/-- The grammar's word on the flags, if it has one. -/
def declaredKeyframe (videoDef : VideoBlockDef) (flags : UInt16) : Option Bool :=
  (keyframeMask videoDef).map (maskHit flags)

/-- On a video frame the consumers decide as the declared mask does exactly when
the mask hits the frame's flags just in case these are odd. -/
theorem keyframe_decisions_iff {X : Crates} {grammar : GrammarFile} {blockIndex byteOffset : ℕ}
    {blockBytes : List UInt8} {blake3Hash : String} {r : ExtractedRecord} {mask : UInt32}
    (hmask : keyframeMask grammar.structures.videoBlock = some mask)
    (h : interpretBlock X grammar blockIndex byteOffset blockBytes blake3Hash = .ok r)
    (htype : r.blockType = "video_frame") :
    (some r.toCorrelationInput.isKeyframe =
          declaredKeyframe grammar.structures.videoBlock r.flags ∧
        (∀ evidenceId, some (keyframesOnly.selects (.ofRecord evidenceId r)) =
          declaredKeyframe grammar.structures.videoBlock r.flags) ∧
        some (decide ("I-FRAME" ∈ flagsDesc r)) =
          declaredKeyframe grammar.structures.videoBlock r.flags) ↔
      (maskHit (flagsValue X grammar.structures.videoBlock blockBytes) mask = true ↔
        (flagsValue X grammar.structures.videoBlock blockBytes).toNat % 2 = 1) := by
  rw [← flags_of_videoFrame h htype, declaredKeyframe, hmask, Option.map_some]
  simp only [Option.some.injEq, toCorrelationInput_isKeyframe, keyframesOnly_selects,
    iFrame_mem_flagsDesc, forall_const]
  cases maskHit r.flags mask <;> simp

/-- The start of a Dahua frame with the given flags. -/
def dahuaFlags (low high : UInt8) : List UInt8 :=
  [0x44, 0x48, 0x41, 0x56, low, high] ++ List.replicate 18 0

theorem keyframe_decisions_iff_dahua :
    ∃ r, interpretBlock .sample dahuaV1 0 0 (dahuaFlags 0x01 0xFD) "" = .ok r ∧
      some r.toCorrelationInput.isKeyframe =
        declaredKeyframe dahuaV1.structures.videoBlock r.flags := by
  refine ⟨_, rfl, ?_⟩
  have hiff := @keyframe_decisions_iff .sample dahuaV1 0 0 (dahuaFlags 0x01 0xFD) "" _ 0xFC00
    (by decide) rfl rfl
  exact (hiff.mpr (by decide)).1

/-- The frame type of a Dahua keyframe is even, and no consumer takes it for one. -/
theorem dahua_keyframe_missed :
    ∃ r, interpretBlock .sample dahuaV1 0 0 (dahuaFlags 0x00 0xFC) "" = .ok r ∧
      r.blockType = "video_frame" ∧
      declaredKeyframe dahuaV1.structures.videoBlock r.flags = some true ∧
      r.toCorrelationInput.isKeyframe = false ∧
      keyframesOnly.selects (.ofRecord 1 r) = false ∧ "I-FRAME" ∉ flagsDesc r :=
  ⟨_, rfl, by decide, by decide, by decide, by decide, by decide⟩

end Dvrft.Keyframes
