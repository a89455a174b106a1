import Dvrft.Keyframes
import Dvrft.Reblocking

/-!
Header fields against the roles they are read for. A field has up to 64 bits; channel
and sequence number keep 32 of them and flags 16, and the declared masks are applied
to what is kept.
-/

namespace Dvrft.Narrowing

open Errors Machine Platform Grammar Interpreter Keyframes Reblocking

/-- The number that a field's bytes write. -/
def fullValue (block : List UInt8) (field : FieldDef) : ℕ :=
  let bytes := (block.drop field.offset).take (fieldWidth field)
  if field.endian = some "big" then ofBeBytes bytes else ofLeBytes bytes

/-- The field that has the last word on a role. -/
def roleField (videoDef : VideoBlockDef) (role : String) : Option FieldDef :=
  (videoDef.header.fields.filter fun field => decide (field.role = some role)).getLast?

/-- A word that a block contains. -/
structure WordIn (block : List UInt8) (field : FieldDef) : Prop where
  kind : field.fieldType ∈ ["u8", "u16", "u32", "u64"]
  inside : field.offset + fieldWidth field ≤ block.length

/-- The flags of a record tell of a mask what the full value does. -/
def MaskKept (field : FieldDef) (name : String) (value : ℕ) (found : Bool) : Prop :=
  ∀ masks mask, field.flagMasks = some masks → masks.lookup name = some mask →
    (found = true ↔ value &&& mask.toNat ≠ 0)

/-- The record has the full values of its role fields, and what the masks say of them. -/
structure NotNarrowed (videoDef : VideoBlockDef) (block : List UInt8) (r : ExtractedRecord) :
    Prop where
  channelId : ∀ field ∈ roleField videoDef "channel_id",
    r.channelId.toNat = fullValue block field
  sequenceNum : ∀ field ∈ roleField videoDef "sequence_num",
    r.sequenceNum.toNat = fullValue block field
  flags : ∀ field ∈ roleField videoDef "flags", r.flags.toNat = fullValue block field
  scrambled : ∀ field ∈ roleField videoDef "flags",
    MaskKept field "scrambled" (fullValue block field) r.isScrambled
  corrupted : ∀ field ∈ roleField videoDef "flags",
    MaskKept field "corrupted" (fullValue block field) r.isCorrupted

/-- The values fit the types of their roles. -/
structure Fits (videoDef : VideoBlockDef) (block : List UInt8) : Prop where
  channelId : ∀ field ∈ roleField videoDef "channel_id", fullValue block field < 2 ^ 32
  sequenceNum : ∀ field ∈ roleField videoDef "sequence_num", fullValue block field < 2 ^ 32
  flags : ∀ field ∈ roleField videoDef "flags", fullValue block field < 2 ^ 16

variable {X : Crates} {block : List UInt8} {field : FieldDef}

theorem bytesAt_eq {offset width : ℕ} (h : offset + width ≤ block.length) :
    bytesAt block offset width = .ok ((block.drop offset).take width) := by
  refine mapM_ok.mpr (List.forall₂_iff_get.mpr ⟨?_, ?_⟩)
  · simp
    omega
  · intro i hi hi'
    have hwidth : i < width := by simpa using hi
    simp only [List.get_eq_getElem, List.getElem_range, List.getElem_take, List.getElem_drop]
    exact index_of_lt (by omega)

theorem readWord_eq {width : ℕ} (hlen : block.length < 2 ^ 64)
    (h : field.offset + width ≤ block.length) :
    readWord X block field width =
      .ok (if field.endian = some "big" then ofBeBytes ((block.drop field.offset).take width)
        else ofLeBytes ((block.drop field.offset).take width)) := by
  unfold readWord
  rw [X.build.add_of_lt (by omega), ok_bind, if_neg (by omega), bytesAt_eq h, ok_bind]

/-- Reading a field of the block gives its full value. -/
theorem readFieldValue_eq (hlen : block.length < 2 ^ 64) (h : WordIn block field) :
    readFieldValue X block field = .ok (fullValue block field) := by
  obtain ⟨hkind, hinside⟩ := h
  simp only [List.mem_cons, List.not_mem_nil, or_false] at hkind
  unfold readFieldValue fullValue fieldWidth
  unfold fieldWidth at hinside
  rcases hkind with hkind | hkind | hkind | hkind
  · simp only [hkind] at hinside ⊢
    rw [if_neg (by omega), index_of_lt (by omega), ok_bind,
      List.drop_eq_getElem_cons (by omega), List.take_succ_cons, List.take_zero]
    simp [ofBeBytes, ofLeBytes]
  · simp only [hkind] at hinside ⊢
    exact readWord_eq hlen hinside
  · simp only [hkind] at hinside ⊢
    exact readWord_eq hlen hinside
  · simp only [hkind] at hinside ⊢
    exact readWord_eq hlen hinside

/-- What only the fields of a role set is at the end what the last of them sets. -/
theorem getLastD_filterMap {β : Type} {videoDef : VideoBlockDef} {role : String}
    {set : FieldDef → Option β} (hrole : ∀ f b, set f = some b → f.role = some role)
    (hlast : roleField videoDef role = some field) {b : β} (hset : set field = some b) (d : β) :
    (videoDef.header.fields.filterMap set).getLastD d = b := by
  unfold roleField at hlast
  obtain ⟨front, hfront⟩ := List.getLast?_eq_some_iff.mp hlast
  have hfilter : videoDef.header.fields.filterMap set =
      (videoDef.header.fields.filter fun f => decide (f.role = some role)).filterMap set := by
    rw [List.filterMap_filter]
    apply List.filterMap_congr
    intro f _
    cases hf : set f with
    | none => exact (ite_self _).symm
    | some b => rw [if_pos (decide_eq_true (hrole f b hf))]
  rw [hfilter, hfront, List.filterMap_append, List.filterMap_cons_some hset,
    List.getLastD_eq_getLast?]
  simp

/-- What a field with a given role does to one of the header values. -/
def setBy {β : Type} (X : Crates) (block : List UInt8) (role : String)
    (value : FieldDef → ℕ → Option β) (field : FieldDef) : Option β :=
  if field.role = some role then
    match readFieldValue X block field with
    | .ok val => value field val
    | .error _ => none
  else none

theorem setBy_role {β : Type} {role : String} {value : FieldDef → ℕ → Option β} (f : FieldDef)
    (b : β) (h : setBy X block role value f = some b) : f.role = some role := by
  unfold setBy at h
  split_ifs at h with hrole
  exact hrole

theorem setBy_of_role {β : Type} {role : String} {value : FieldDef → ℕ → Option β} {val : ℕ}
    (hrole : field.role = some role) (hval : readFieldValue X block field = .ok val) :
    setBy X block role value field = value field val := by
  rw [setBy, if_pos hrole, hval]

theorem setBy_of_role_ne {β : Type} {role : String} {value : FieldDef → ℕ → Option β}
    (hrole : field.role ≠ some role) : setBy X block role value field = none := if_neg hrole

theorem setBy_eq {β : Type} {role : String} {value : FieldDef → ℕ → Option β}
    (hlen : block.length < 2 ^ 64) (hrole : field.role = some role) (hword : WordIn block field) :
    setBy X block role value field = value field (fullValue block field) :=
  setBy_of_role hrole (readFieldValue_eq hlen hword)

theorem role_of_roleField {videoDef : VideoBlockDef} {role : String}
    (h : roleField videoDef role = some field) :
    field ∈ videoDef.header.fields ∧ field.role = some role := by
  have hmem := List.mem_filter.mp (List.mem_of_getLast? h)
  exact ⟨hmem.1, of_decide_eq_true hmem.2⟩

/-- How a name among the masks reads the flags of a field. -/
def maskValue (name : String) (bit : UInt16) (field : FieldDef) (val : ℕ) : Option Bool :=
  match field.flagMasks with
  | some masks => (masks.lookup name).map (maskHit (UInt16.ofNat val))
  | none => some (UInt16.ofNat val &&& bit != 0)

section Steps

variable {v v' : HeaderValues}

theorem applyField_channelId (h : applyField X block v field = .ok v') :
    v'.channelId =
      (setBy X block "channel_id" (fun _ val => some (UInt32.ofNat val)) field).getD
        v.channelId := by
  by_cases hrole : field.role = some "channel_id"
  · obtain ⟨val, hval, hset⟩ := bind_ok.mp h
    simp only [hrole, Except.ok.injEq] at hset
    rw [← hset, setBy_of_role hrole hval, Option.getD_some]
  · rw [(applyField_leavesAlone h).channelId hrole, setBy_of_role_ne hrole, Option.getD_none]

theorem applyField_sequenceNum (h : applyField X block v field = .ok v') :
    v'.sequenceNum =
      (setBy X block "sequence_num" (fun _ val => some (UInt32.ofNat val)) field).getD
        v.sequenceNum := by
  by_cases hrole : field.role = some "sequence_num"
  · obtain ⟨val, hval, hset⟩ := bind_ok.mp h
    simp only [hrole, Except.ok.injEq] at hset
    rw [← hset, setBy_of_role hrole hval, Option.getD_some]
  · rw [(applyField_leavesAlone h).sequenceNum hrole, setBy_of_role_ne hrole, Option.getD_none]

/-- Flags and the two readings of them are set by the fields of that role alone. -/
theorem applyField_flagRole (h : applyField X block v field = .ok v') :
    v'.flags = (setBy X block "flags" (fun _ val => some (UInt16.ofNat val)) field).getD v.flags ∧
    v'.isScrambled =
      (setBy X block "flags" (maskValue "scrambled" 0x0002) field).getD v.isScrambled ∧
    v'.isCorrupted =
      (setBy X block "flags" (maskValue "corrupted" 0x0004) field).getD v.isCorrupted := by
  by_cases hrole : field.role = some "flags"
  · obtain ⟨val, hval, hset⟩ := bind_ok.mp h
    simp only [hrole, Except.ok.injEq] at hset
    rw [← hset, setBy_of_role hrole hval, setBy_of_role hrole hval, setBy_of_role hrole hval,
      Option.getD_some]
    cases hmasks : field.flagMasks with
    | none => simp only [applyFlags, maskValue, hmasks, Option.getD_some, and_self]
    | some masks => simp only [applyFlags, maskValue, hmasks, and_self]
  · have halone := applyField_leavesAlone h
    rw [halone.flags hrole, halone.isScrambled hrole, halone.isCorrupted hrole,
      setBy_of_role_ne hrole, setBy_of_role_ne hrole, setBy_of_role_ne hrole]
    exact ⟨rfl, rfl, rfl⟩

end Steps

/-- The last field of a role decides what the fields of the role set. -/
theorem role_decides {β : Type} {videoDef : VideoBlockDef} {role : String}
    {value : FieldDef → ℕ → Option β} (get : HeaderValues → β)
    (hstep : ∀ v v' f, applyField X block v f = .ok v' →
      get v' = (setBy X block role value f).getD (get v))
    (hlen : block.length < 2 ^ 64) (hlast : roleField videoDef role = some field)
    (hword : WordIn block field) {b : β} (hvalue : value field (fullValue block field) = some b)
    {v v' : HeaderValues} (h : videoDef.header.fields.foldlM (applyField X block) v = .ok v') :
    get v' = b := by
  have hset := @setBy_eq X block field β role value hlen (role_of_roleField hlast).2 hword
  rw [foldlM_last_set get _ hstep h]
  exact getLastD_filterMap setBy_role hlast (hset.trans hvalue) _

section Records

variable {grammar : GrammarFile} {blockIndex byteOffset : ℕ} {blake3Hash : String}
  {r : ExtractedRecord}

/-- The record keeps the low bits of each value, and reads the masks in them. -/
structure LowBits (videoDef : VideoBlockDef) (block : List UInt8) (r : ExtractedRecord) :
    Prop where
  channelId : ∀ field ∈ roleField videoDef "channel_id",
    r.channelId = UInt32.ofNat (fullValue block field)
  sequenceNum : ∀ field ∈ roleField videoDef "sequence_num",
    r.sequenceNum = UInt32.ofNat (fullValue block field)
  flags : ∀ field ∈ roleField videoDef "flags", r.flags = UInt16.ofNat (fullValue block field)
  scrambled : ∀ field ∈ roleField videoDef "flags", ∀ masks mask, field.flagMasks = some masks →
    masks.lookup "scrambled" = some mask →
      r.isScrambled = maskHit (UInt16.ofNat (fullValue block field)) mask
  corrupted : ∀ field ∈ roleField videoDef "flags", ∀ masks mask, field.flagMasks = some masks →
    masks.lookup "corrupted" = some mask →
      r.isCorrupted = maskHit (UInt16.ofNat (fullValue block field)) mask

/-- The roles that are kept in fewer than 64 bits have words of the block. -/
def RoleWords (videoDef : VideoBlockDef) (block : List UInt8) : Prop :=
  ∀ role ∈ ["channel_id", "sequence_num", "flags"], ∀ field ∈ roleField videoDef role,
    WordIn block field

theorem maskValue_of_lookup {name : String} {bit : UInt16} {masks : List (String × UInt32)}
    {mask : UInt32} (hmasks : field.flagMasks = some masks)
    (hmask : masks.lookup name = some mask) (val : ℕ) :
    maskValue name bit field val = some (maskHit (UInt16.ofNat val) mask) := by
  simp only [maskValue, hmasks, hmask, Option.map_some]

theorem interpretBlock_lowBits (hlen : block.length < 2 ^ 64)
    (hwords : RoleWords grammar.structures.videoBlock block)
    (h : interpretBlock X grammar blockIndex byteOffset block blake3Hash = .ok r)
    (htype : r.blockType = "video_frame") : LowBits grammar.structures.videoBlock block r := by
  obtain ⟨-, _, -, ⟨-, hvideo⟩ | ⟨-, _, _, _, _, hother, rfl⟩⟩ := interpretBlock_cases h
  · obtain ⟨v, payloadOffset, hv, -, rfl⟩ := parseVideoBlock_cases hvideo
    have hflags := fun f hf => hwords "flags" (by simp) f hf
    refine ⟨fun f hf => ?_, fun f hf => ?_, fun f hf => ?_, ?_, ?_⟩
    · exact role_decides HeaderValues.channelId (fun _ _ _ => applyField_channelId) hlen hf
        (hwords "channel_id" (by simp) f hf) rfl hv
    · exact role_decides HeaderValues.sequenceNum (fun _ _ _ => applyField_sequenceNum) hlen hf
        (hwords "sequence_num" (by simp) f hf) rfl hv
    · exact role_decides HeaderValues.flags (fun _ _ _ h => (applyField_flagRole h).1) hlen hf
        (hflags f hf) rfl hv
    · intro f hf masks mask hmasks hmask
      exact role_decides HeaderValues.isScrambled (fun _ _ _ h => (applyField_flagRole h).2.1)
        hlen hf (hflags f hf) (maskValue_of_lookup hmasks hmask _) hv
    · intro f hf masks mask hmasks hmask
      exact role_decides HeaderValues.isCorrupted (fun _ _ _ h => (applyField_flagRole h).2.2)
        hlen hf (hflags f hf) (maskValue_of_lookup hmasks hmask _) hv
  · exact absurd htype hother

theorem maskKept_of_lt {name : String} {value : ℕ} {found : Bool} (hvalue : value < 2 ^ 16)
    (h : ∀ masks mask, field.flagMasks = some masks → masks.lookup name = some mask →
      found = maskHit (UInt16.ofNat value) mask) : MaskKept field name value found := by
  intro masks mask hmasks hmask
  rw [h masks mask hmasks hmask, maskHit_iff, UInt16.toNat_ofNat_of_lt' hvalue]

/-- A video frame has the full values of its role fields exactly when they fit the types
of the record. -/
theorem interpretBlock_notNarrowed_iff (hlen : block.length < 2 ^ 64)
    (hwords : RoleWords grammar.structures.videoBlock block)
    (h : interpretBlock X grammar blockIndex byteOffset block blake3Hash = .ok r)
    (htype : r.blockType = "video_frame") :
    NotNarrowed grammar.structures.videoBlock block r ↔
      Fits grammar.structures.videoBlock block := by
  have hlow := interpretBlock_lowBits hlen hwords h htype
  constructor
  · intro hfull
    exact ⟨fun f hf => hfull.channelId f hf ▸ r.channelId.toNat_lt,
      fun f hf => hfull.sequenceNum f hf ▸ r.sequenceNum.toNat_lt,
      fun f hf => hfull.flags f hf ▸ r.flags.toNat_lt⟩
  · intro hfits
    refine ⟨fun f hf => ?_, fun f hf => ?_, fun f hf => ?_, fun f hf => ?_, fun f hf => ?_⟩
    · rw [hlow.channelId f hf, UInt32.toNat_ofNat_of_lt' (hfits.channelId f hf)]
    · rw [hlow.sequenceNum f hf, UInt32.toNat_ofNat_of_lt' (hfits.sequenceNum f hf)]
    · rw [hlow.flags f hf, UInt16.toNat_ofNat_of_lt' (hfits.flags f hf)]
    · exact maskKept_of_lt (hfits.flags f hf) (hlow.scrambled f hf)
    · exact maskKept_of_lt (hfits.flags f hf) (hlow.corrupted f hf)

end Records

/-- A header of a signature, a channel of eight bytes and flags of four. -/
def wideGrammar : GrammarFile where
  id := "wide"
  name := "wide"
  tier := 1
  descramblePlugin := none
  rules := []
  structures :=
    { superblock := none
      partitionTable := none
      videoBlock :=
        { fixedSize := 16
          header :=
            { size := 16
              magic := ⟨0, some "CAM1", none⟩
              fields :=
                [⟨"u64", 4, none, some "channel_id", none, none, none⟩,
                  ⟨"u32", 12, none, some "flags", none, none,
                    some [("scrambled", 0x10000)]⟩] }
          payload := ⟨16, 0⟩ } }

/-- A block with the given fifth byte of the channel and third of the flags. -/
def wideBlock (channelHigh flagsHigh : UInt8) : List UInt8 :=
  [67, 65, 77, 49, 1, 0, 0, 0, channelHigh, 0, 0, 0, 0, 0, flagsHigh, 0]

theorem roleWords_wide (channelHigh flagsHigh : UInt8) :
    RoleWords wideGrammar.structures.videoBlock (wideBlock channelHigh flagsHigh) := by
  intro role hrole f hf
  have hmem := (role_of_roleField hf).1
  rcases List.mem_pair.mp hmem with rfl | rfl
  · exact ⟨by decide, show 4 + 8 ≤ 16 by decide⟩
  · exact ⟨by decide, show 12 + 4 ≤ 16 by decide⟩

theorem interpretBlock_notNarrowed_wide :
    ∃ r, interpretBlock .sample wideGrammar 0 0 (wideBlock 0 0) "" = .ok r ∧
      NotNarrowed wideGrammar.structures.videoBlock (wideBlock 0 0) r := by
  refine ⟨_, rfl, ?_⟩
  refine (@interpretBlock_notNarrowed_iff .sample (wideBlock 0 0) wideGrammar 0 0 "" _ (by decide)
    (roleWords_wide 0 0) rfl rfl).mpr ⟨?_, ?_, ?_⟩
  · decide
  · decide
  · decide

/-- Camera 1 and camera 2 ^ 32 + 1 become one, and the scrambled bit is lost. -/
theorem interpretBlock_narrows :
    ∃ r, interpretBlock .sample wideGrammar 0 0 (wideBlock 1 1) "" = .ok r ∧
      r.blockType = "video_frame" ∧ r.channelId = 1 ∧ r.isScrambled = false ∧
      ¬ NotNarrowed wideGrammar.structures.videoBlock (wideBlock 1 1) r := by
  refine ⟨_, rfl, rfl, by decide, by decide, ?_⟩
  intro hfull
  exact absurd (hfull.channelId _ rfl) (by decide)

end Dvrft.Narrowing
