import Dvrft.CaseFiles
import Dvrft.Database
import Dvrft.StartCodes

/-!
Carving: a buffer is cut at its start codes into units, and every unit that has
a byte behind its code becomes a frame. Designated blocks are carved one by one,
each as if nothing stood in front of it or behind it, so a run of blocks gives
the frames of its bytes exactly when every cut between two blocks fits the units.
-/

namespace Dvrft.Carving

open Chunks ShortReads Errors Machine Platform Acquisition CaseFiles Database StartCodes

inductive RecoveryError where
  | io (source : IoError)
  deriving DecidableEq, Repr

abbrev Carved := Outcome RecoveryError

inductive NalClassification where
  | h264SpsKeyframe
  | h264Pps
  | h264IdrKeyframe
  | h264NonIdrSlice
  | h264Sei
  | h264Aud
  | h265Vps
  | h265Sps
  | h265Pps
  | h265IdrKeyframe
  | h265NonIdrSlice
  | unknownNal (headerByte : UInt8)
  deriving DecidableEq, Repr

namespace NalClassification

def description : NalClassification → String
  | h264SpsKeyframe => "H.264 SPS / Keyframe Preamble"
  | h264Pps => "H.264 PPS"
  | h264IdrKeyframe => "H.264 IDR Keyframe (I-Frame)"
  | h264NonIdrSlice => "H.264 Non-IDR Slice (P/B-Frame)"
  | h264Sei => "H.264 SEI"
  | h264Aud => "H.264 AUD"
  | h265Vps => "H.265 VPS"
  | h265Sps => "H.265 SPS"
  | h265Pps => "H.265 PPS"
  | h265IdrKeyframe => "H.265 IDR Keyframe"
  | h265NonIdrSlice => "H.265 Non-IDR Slice"
  | unknownNal _ => "Generic / Unknown NAL Unit"

def isKeyframe : NalClassification → Bool
  | h264SpsKeyframe | h264IdrKeyframe | h265Vps | h265Sps | h265IdrKeyframe => true
  | _ => false

def defaultConfidence : NalClassification → Float
  | h264SpsKeyframe | h264IdrKeyframe => 0.95
  | h264Pps | h264Sei | h264Aud => 0.90
  | h264NonIdrSlice => 0.85
  | h265Vps | h265Sps | h265IdrKeyframe => 0.95
  | h265Pps => 0.90
  | h265NonIdrSlice => 0.85
  | unknownNal _ => 0.50

end NalClassification

open NalClassification

def classifyNalHeader (headerByte : UInt8) : NalClassification :=
  let nalTypeH264 := headerByte &&& 0x1F
  let forbiddenZeroBit := headerByte &&& 0x80 ≠ 0
  if forbiddenZeroBit then unknownNal headerByte
  else match nalTypeH264.toNat with
    | 1 => h264NonIdrSlice
    | 5 => h264IdrKeyframe
    | 6 => h264Sei
    | 7 => h264SpsKeyframe
    | 8 => h264Pps
    | 9 => h264Aud
    | _ => unknownNal headerByte

/-- The frames of the start codes that were found, each up to the next code or
to the end of the buffer. -/
def framesAt (X : Crates) (data : Bytes) (baseOffset : ℕ) :
    List (ℕ × ℕ) → Carved (List CarvedFrame)
  | [] => .ok []
  | (startPos, prefixLen) :: rest => do
    let endPos := firstStart data.length rest
    if endPos ≤ startPos + prefixLen then framesAt X data baseOffset rest
    else do
      let headerByte ← index data (startPos + prefixLen)
      let classification := classifyNalHeader headerByte
      let frameSlice ← slice data startPos endPos
      let byteOffset ← X.build.add baseOffset startPos
      let frames ← framesAt X data baseOffset rest
      .ok
        ({ byteOffset := byteOffset
           length := frameSlice.length
           nalType := classification.description
           isKeyframe := classification.isKeyframe
           confidence := classification.defaultConfidence
           blake3Hash := X.blake3Hex frameSlice } :: frames)

def carveBuffer (X : Crates) (data : Bytes) (baseOffset : ℕ) : Carved (List CarvedFrame) :=
  if data.length < 5 then .ok []
  else framesAt X data baseOffset (startCodes 0 data)

/-- `file.seek(SeekFrom::Start(offset))`; an offset beyond the signed range is no place. -/
def seek (content : Bytes) (offset : ℕ) (file : Source) : Carved Source :=
  if 2 ^ 63 ≤ offset then fail (.io (.other 22))
  else .ok ⟨content.drop offset, file.calls, file.plan⟩

/-- One block: whatever a single read at its offset delivers. -/
def carveBlock (X : Crates) (content : Bytes) (blockSize : ℕ)
    (s : List CarvedFrame × Source) (blockIndex : ℕ) : Carved (List CarvedFrame × Source) := do
  let offset ← X.build.mul blockIndex blockSize
  let file ← seek content offset s.2
  match file.read blockSize with
  | .error e => fail (.io e)
  | .ok ([], file) => .ok (s.1, file)
  | .ok (b :: bs, file) => do
    let carved ← carveBuffer X (b :: bs) offset
    .ok (s.1 ++ carved, file)

def carveCorruptedBlocks (X : Crates) (image : EvidenceFile) (blockSize : ℕ)
    (blockIndices : List ℕ) (plan : Schedule IoError) : Carved (List CarvedFrame) :=
  match image.refusal with
  | some e => fail (.io e)
  | none => do
    X.allocate blockSize
    let s ← blockIndices.foldlM (carveBlock X image.content.bytes blockSize)
      ([], .opened image.content.bytes plan)
    .ok s.1

/-- The units that carving a buffer at an offset reports. -/
def carvedUnits (offset : ℕ) (data : Bytes) : List CodedUnit :=
  if data.length < 5 then [] else units offset data

/-- The frame of a unit; `content` holds what the unit's offsets count. -/
def frameOf (X : Crates) (content : Bytes) (u : CodedUnit) : CarvedFrame :=
  let classification := classifyNalHeader (content.getD (u.start + u.codeLength) 0)
  let frameSlice := (content.drop u.start).take (u.stop - u.start)
  { byteOffset := u.start
    length := frameSlice.length
    nalType := classification.description
    isKeyframe := classification.isKeyframe
    confidence := classification.defaultConfidence
    blake3Hash := X.blake3Hex frameSlice }

/-- The units that carving the blocks of a run one by one reports. -/
def blockUnits (blockSize offset : ℕ) (data : Bytes) : List CodedUnit :=
  (blocks blockSize data).zipIdx.flatMap fun p =>
    carvedUnits (offset + p.2 * blockSize) p.1

/-- Every cut between two blocks fits the units of what remains from there on. -/
def CutsFit (blockSize : ℕ) (data : Bytes) : Prop :=
  ∀ i, (i + 1) * blockSize < data.length →
    CutFits (blockAt blockSize data i) (data.drop ((i + 1) * blockSize))

/-- The last block is a short code and its header: a unit, but too short to carve. -/
def TailLost (blockSize : ℕ) (data : Bytes) : Prop :=
  blockSize < data.length ∧
    ∃ header, data.drop (data.length / blockSize * blockSize) = [0, 0, 1, header]

theorem carvedUnits_of_le {offset : ℕ} {data : Bytes} (h : 5 ≤ data.length) :
    carvedUnits offset data = units offset data := if_neg (by omega)

theorem carvedUnits_of_lt {offset : ℕ} {data : Bytes} (h : data.length < 5) :
    carvedUnits offset data = [] := if_pos h

theorem mem_carvedUnits {offset : ℕ} {data : Bytes} {u : CodedUnit}
    (hu : u ∈ carvedUnits offset data) :
    offset ≤ u.start ∧ u.start + u.codeLength < u.stop ∧ u.stop ≤ offset + data.length := by
  unfold carvedUnits at hu
  split_ifs at hu
  · simp at hu
  · exact mem_units hu

theorem blockUnits_nil (blockSize offset : ℕ) : blockUnits blockSize offset [] = [] := by
  simp [blockUnits]

/-- The first block, and the run behind it. -/
theorem blockUnits_step {blockSize : ℕ} (offset : ℕ) {data : Bytes} (hsize : 0 < blockSize)
    (hne : data ≠ []) :
    blockUnits blockSize offset data =
      carvedUnits offset (data.take blockSize) ++
        blockUnits blockSize (offset + blockSize) (data.drop blockSize) := by
  unfold blockUnits
  rw [blocks_step blockSize data hsize hne, List.zipIdx_cons, List.flatMap_cons,
    Nat.zero_mul, Nat.add_zero, List.zipIdx_succ, List.flatMap_map]
  congr 2
  funext p
  rw [Nat.succ_mul, Nat.add_assoc, Nat.add_comm blockSize]

theorem blockUnits_of_length_le {blockSize : ℕ} (offset : ℕ) {data : Bytes}
    (hle : data.length ≤ blockSize) : blockUnits blockSize offset data =
      carvedUnits offset data := by
  by_cases hne : data = []
  · subst hne
    rw [blockUnits_nil, carvedUnits_of_lt (by simp)]
  · have hpos : 0 < data.length := List.length_pos_iff.mpr hne
    rw [blockUnits_step offset (by omega) hne, List.take_of_length_le hle,
      List.drop_of_length_le hle, blockUnits_nil, List.append_nil]

theorem le_start_of_mem_blockUnits {blockSize offset : ℕ} {data : Bytes} {u : CodedUnit}
    (hu : u ∈ blockUnits blockSize offset data) : offset ≤ u.start := by
  obtain ⟨p, -, hu⟩ := List.mem_flatMap.mp hu
  have hbounds := mem_carvedUnits hu
  omega

theorem blockUnits_of_size_lt {blockSize : ℕ} (offset : ℕ) (data : Bytes) (h : blockSize < 5) :
    blockUnits blockSize offset data = [] := by
  apply List.flatMap_eq_nil_iff.mpr
  intro p hp
  apply carvedUnits_of_lt
  obtain ⟨i, -, hblock⟩ := List.mem_map.mp (List.fst_mem_of_mem_zipIdx hp)
  have hlength := length_blockAt blockSize data i
  rw [hblock] at hlength
  omega

theorem cutsFit_of_length_le {blockSize : ℕ} {data : Bytes} (hle : data.length ≤ blockSize) :
    CutsFit blockSize data := by
  intro i hi
  rw [Nat.succ_mul] at hi
  omega

theorem cutsFit_step {blockSize : ℕ} {data : Bytes} (hlt : blockSize < data.length) :
    CutsFit blockSize data ↔
      CutFits (data.take blockSize) (data.drop blockSize) ∧
        CutsFit blockSize (data.drop blockSize) := by
  have hblock : ∀ i, blockAt blockSize (data.drop blockSize) i =
      blockAt blockSize data (i + 1) := by
    intro i
    rw [blockAt, blockAt, List.drop_drop, Nat.succ_mul, Nat.add_comm]
  have hrest : ∀ i, (data.drop blockSize).drop ((i + 1) * blockSize) =
      data.drop ((i + 1 + 1) * blockSize) := by
    intro i
    rw [List.drop_drop, Nat.succ_mul (i + 1), Nat.add_comm blockSize]
  constructor
  · intro h
    refine ⟨?_, ?_⟩
    · have hfirst := h 0 (by omega)
      simpa [blockAt] using hfirst
    · intro i hi
      rw [List.length_drop] at hi
      rw [hblock, hrest]
      apply h (i + 1)
      rw [Nat.succ_mul (i + 1)]
      omega
  · intro h i hi
    cases i with
    | zero => simpa [blockAt] using h.1
    | succ i =>
      rw [← hblock, ← hrest]
      apply h.2 i
      rw [Nat.succ_mul (i + 1)] at hi
      rw [List.length_drop]
      omega

/-- Behind the first block the last block stays the same. -/
theorem tailLost_step {blockSize : ℕ} {data : Bytes} (hsize : 5 ≤ blockSize)
    (hlt : blockSize < data.length) :
    TailLost blockSize data ↔
      TailLost blockSize (data.drop blockSize) ∨
        ∃ header, data.drop blockSize = [0, 0, 1, header] := by
  have hdiv : data.length / blockSize * blockSize =
      blockSize + (data.drop blockSize).length / blockSize * blockSize := by
    have hcount : data.length / blockSize = (data.length - blockSize) / blockSize + 1 := by
      rw [← Nat.add_div_right _ (by omega), Nat.sub_add_cancel (by omega)]
    rw [List.length_drop, hcount, Nat.succ_mul, Nat.add_comm]
  have hdrop : data.drop (data.length / blockSize * blockSize) =
      (data.drop blockSize).drop ((data.drop blockSize).length / blockSize * blockSize) := by
    rw [List.drop_drop, hdiv]
  unfold TailLost
  rw [hdrop]
  by_cases hone : (data.drop blockSize).length < blockSize
  · rw [Nat.div_eq_of_lt hone, Nat.zero_mul, List.drop_zero]
    constructor
    · intro h
      exact .inr h.2
    · intro h
      rcases h with h | h
      · omega
      · exact ⟨hlt, h⟩
  · by_cases hsame : (data.drop blockSize).length = blockSize
    · rw [hsame, Nat.div_self (by omega), Nat.one_mul, List.drop_of_length_le (by omega)]
      constructor
      · intro h
        simp at h
      · intro h
        rcases h with h | ⟨header, h⟩
        · omega
        · have hfour := congrArg List.length h
          simp only [List.length_cons, List.length_nil] at hfour
          omega
    · constructor
      · intro h
        exact .inl ⟨by omega, h.2⟩
      · intro h
        rcases h with h | ⟨header, h⟩
        · exact ⟨hlt, h.2⟩
        · have hfour := congrArg List.length h
          simp only [List.length_cons, List.length_nil] at hfour
          omega

/-- A rest that is too short to carve holds no unit, or is a short code and its header. -/
theorem carvedUnits_eq_units_iff {offset : ℕ} {data : Bytes} :
    carvedUnits offset data = units offset data ↔ ¬ ∃ header, data = [0, 0, 1, header] := by
  rcases Nat.lt_trichotomy data.length 4 with hlt | heq | hgt
  · rw [carvedUnits_of_lt (by omega), units_of_short hlt]
    simp only [true_iff]
    rintro ⟨header, rfl⟩
    simp at hlt
  · rw [carvedUnits_of_lt (by omega), ← units_of_four (i := offset) heq, ne_eq, not_not, eq_comm]
  · rw [carvedUnits_of_le (by omega)]
    simp only [true_iff]
    rintro ⟨header, rfl⟩
    simp at hgt

/-- Fitting cuts, and no unit lost at the end, leave the units as they are. -/
theorem blockUnits_eq_of_cutsFit {blockSize : ℕ} (offset : ℕ) (data : Bytes)
    (hsize : 5 ≤ blockSize) (hfit : CutsFit blockSize data) (htail : ¬ TailLost blockSize data) :
    blockUnits blockSize offset data = carvedUnits offset data := by
  induction hn : data.length using Nat.strongRecOn generalizing offset data with
  | ind n ih =>
    subst hn
    by_cases hle : data.length ≤ blockSize
    · exact blockUnits_of_length_le offset hle
    · have hlt : blockSize < data.length := by omega
      have hne : data ≠ [] := List.ne_nil_of_length_pos (by omega)
      have hfront : (data.take blockSize).length = blockSize := by
        rw [List.length_take]
        omega
      obtain ⟨hcut, hrest⟩ := (cutsFit_step hlt).mp hfit
      rw [tailLost_step hsize hlt, not_or] at htail
      have hbehind := ih (data.drop blockSize).length (by rw [List.length_drop]; omega)
        (offset + blockSize) (data.drop blockSize) hrest htail.1 rfl
      have hunits := units_append_of_cutFits offset hcut
      rw [List.take_append_drop, hfront] at hunits
      rw [blockUnits_step offset (by omega) hne, hbehind, carvedUnits_eq_units_iff.mpr htail.2,
        carvedUnits_of_le (by omega), carvedUnits_of_le (by omega), hunits]

/-- Blocks that report the spans of the whole fit the first cut, and those behind it
report the spans of what is behind. -/
theorem cutFits_first {blockSize : ℕ} (offset : ℕ) {data : Bytes} (hsize : 5 ≤ blockSize)
    (hlt : blockSize < data.length)
    (h : (blockUnits blockSize offset data).map CodedUnit.span =
      (carvedUnits offset data).map CodedUnit.span) :
    CutFits (data.take blockSize) (data.drop blockSize) ∧
      (blockUnits blockSize (offset + blockSize) (data.drop blockSize)).map CodedUnit.span =
        (units (offset + blockSize) (data.drop blockSize)).map CodedUnit.span := by
  have hne : data ≠ [] := List.ne_nil_of_length_pos (by omega)
  have hfront : (data.take blockSize).length = blockSize := by
    rw [List.length_take]
    omega
  have hbehind : data.drop blockSize ≠ [] := by
    apply List.ne_nil_of_length_pos
    rw [List.length_drop]
    omega
  rw [blockUnits_step offset (by omega) hne, List.map_append, carvedUnits_of_le (by omega),
    carvedUnits_of_le (by omega)] at h
  -- the blocks behind the first report nothing that begins in it
  have hstarts : ∀ s ∈ (blockUnits blockSize (offset + blockSize)
      (data.drop blockSize)).map CodedUnit.span, offset + (data.take blockSize).length ≤ s.1 := by
    intro s hs
    obtain ⟨u, hu, rfl⟩ := List.mem_map.mp hs
    rw [hfront]
    exact le_start_of_mem_blockUnits hu
  have hcut : CutFits (data.take blockSize) (data.drop blockSize) := by
    apply cutFits_of_spans_at offset hbehind hstarts
    rw [List.take_append_drop]
    exact h.symm
  have hunits := units_append_of_cutFits offset hcut
  rw [List.take_append_drop, hfront] at hunits
  rw [hunits, List.map_append] at h
  exact ⟨hcut, List.append_cancel_left h⟩

/-- Blocks that report the spans of the whole have fitting cuts, and lose no unit. -/
theorem cutsFit_of_spans {blockSize : ℕ} (offset : ℕ) (data : Bytes) (hsize : 5 ≤ blockSize)
    (h : (blockUnits blockSize offset data).map CodedUnit.span =
      (carvedUnits offset data).map CodedUnit.span) :
    CutsFit blockSize data ∧ ¬ TailLost blockSize data := by
  induction hn : data.length using Nat.strongRecOn generalizing offset data with
  | ind n ih =>
    subst hn
    by_cases hle : data.length ≤ blockSize
    · refine ⟨cutsFit_of_length_le hle, ?_⟩
      intro htail
      have hlong := htail.1
      omega
    · have hlt : blockSize < data.length := by omega
      obtain ⟨hcut, hrest⟩ := cutFits_first offset hsize hlt h
      rw [cutsFit_step hlt, tailLost_step hsize hlt]
      by_cases hlong : 5 ≤ (data.drop blockSize).length
      · rw [← carvedUnits_of_le hlong] at hrest
        obtain ⟨hfit, htail⟩ := ih (data.drop blockSize).length
          (by rw [List.length_drop]; omega) (offset + blockSize) (data.drop blockSize) hrest rfl
        refine ⟨⟨hcut, hfit⟩, ?_⟩
        intro hlost
        rcases hlost with hlost | ⟨header, hlost⟩
        · exact htail hlost
        · rw [hlost] at hlong
          simp at hlong
      · have hshort : (data.drop blockSize).length < 5 := by omega
        refine ⟨⟨hcut, cutsFit_of_length_le (by omega)⟩, ?_⟩
        rw [blockUnits_of_length_le _ (by omega), carvedUnits_of_lt hshort] at hrest
        intro hlost
        rcases hlost with hlost | hlost
        · have hfar := hlost.1
          omega
        · rw [List.map_nil, eq_comm, List.map_eq_nil_iff] at hrest
          have hsame : carvedUnits (offset + blockSize) (data.drop blockSize) =
              units (offset + blockSize) (data.drop blockSize) := by
            rw [hrest, carvedUnits_of_lt hshort]
          exact carvedUnits_eq_units_iff.mp hsame hlost

theorem framesAt_eq (X : Crates) {data : Bytes} {baseOffset : ℕ} {codes : List (ℕ × ℕ)}
    (hfit : ∀ u ∈ unitsBetween data.length codes, baseOffset + u.start < 2 ^ 64)
    (hcodes : ∀ x ∈ codes, x.1 ≤ data.length) :
    ∃ frames, framesAt X data baseOffset codes = .ok frames ∧
      frames = (unitsBetween data.length codes).map fun u =>
        { frameOf X data u with byteOffset := baseOffset + u.start } := by
  induction codes with
  | nil => exact ⟨[], rfl, rfl⟩
  | cons x rest ih =>
    obtain ⟨startPos, prefixLen⟩ := x
    obtain ⟨others, hothers, hothersEq⟩ :=
      ih (fun u hu => hfit u (List.mem_append_right _ hu))
        fun y hy => hcodes y (List.mem_cons_of_mem _ hy)
    have hstart := hcodes (startPos, prefixLen) (by simp)
    have hend : firstStart data.length rest ≤ data.length := by
      cases rest with
      | nil => exact Nat.le_refl _
      | cons y rest => exact hcodes y (by simp)
    unfold framesAt
    rw [unitsBetween, unitAt]
    dsimp only at hstart ⊢
    split_ifs with hempty
    · exact ⟨others, hothers, hothersEq⟩
    · have hplace : baseOffset + startPos < 2 ^ 64 := by
        apply hfit ⟨startPos, prefixLen, firstStart data.length rest⟩
        exact List.mem_append_left _ (mem_unitAt.mpr ⟨rfl, by omega⟩)
      refine ⟨_, ?_, rfl⟩
      rw [index_of_lt (by omega), ok_bind, slice_of_le (by omega) hend, ok_bind,
        Build.add_of_lt _ hplace, ok_bind, hothers, ok_bind, hothersEq,
        List.map_append, List.map_singleton]
      simp only [frameOf, List.getD_eq_getElem?_getD, Except.ok.injEq, List.singleton_append]
      rw [List.getElem?_eq_getElem (by omega), Option.getD_some]

/-- A piece of a content, carved at its place, gives the frames of its units. -/
theorem carveBuffer_eq (X : Crates) {content : Bytes} (hlen : content.length < 2 ^ 64)
    (offset size : ℕ) : (carveBuffer X ((content.drop offset).take size) offset) =
      .ok ((carvedUnits offset ((content.drop offset).take size)).map (frameOf X content)) := by
  have hpiece : ((content.drop offset).take size).length = min size (content.length - offset) := by
    rw [List.length_take, List.length_drop]
  unfold carveBuffer carvedUnits
  split_ifs with hshort
  · rfl
  · have hcodes : ∀ x ∈ startCodes 0 ((content.drop offset).take size),
        x.1 ≤ ((content.drop offset).take size).length := by
      intro x hx
      have hbounds := mem_startCodes hx
      omega
    have hfit : ∀ u ∈ unitsBetween ((content.drop offset).take size).length
        (startCodes 0 ((content.drop offset).take size)), offset + u.start < 2 ^ 64 := by
      intro u hu
      have hstart := hcodes _ (mem_unitsBetween hu).1
      dsimp only at hstart
      omega
    obtain ⟨frames, hframes, hunits⟩ := framesAt_eq X hfit hcodes
    have hshift := units_shift offset 0 ((content.drop offset).take size)
    rw [Nat.add_zero] at hshift
    rw [hframes, hunits, hshift, List.map_map]
    rw [units, Nat.zero_add]
    congr 1
    apply List.map_congr_left
    intro u hu
    have hunit : u ∈ units 0 ((content.drop offset).take size) := by
      rw [units, Nat.zero_add]
      exact hu
    have hbounds := mem_units hunit
    have hheader : ((content.drop offset).take size).getD (u.start + u.codeLength) 0 =
        content.getD (offset + u.start + u.codeLength) 0 := by
      rw [List.getD_eq_getElem?_getD, List.getD_eq_getElem?_getD,
        List.getElem?_take_of_lt (by omega), List.getElem?_drop, Nat.add_assoc]
    have hslice : (((content.drop offset).take size).drop u.start).take (u.stop - u.start) =
        (content.drop (offset + u.start)).take (offset + u.stop - (offset + u.start)) := by
      rw [List.drop_take, List.take_take, List.drop_drop, Nat.min_eq_left (by omega)]
      congr 1
      omega
    simp only [frameOf, CodedUnit.shift, Function.comp_apply, hheader, hslice]

/-- Where a block lies, if its offset is a place. -/
def blockPlace (X : Crates) (blockSize i : ℕ) : Carved ℕ := do
  let offset ← X.build.mul i blockSize
  if 2 ^ 63 ≤ offset then fail (.io (.other 22)) else .ok offset

/-- What one call delivers of the block at a place. -/
def deliveredAt (content : Bytes) (blockSize : ℕ) (plan : Schedule IoError) (place call : ℕ) :
    Bytes :=
  (content.drop place).take (portion plan call (min blockSize (content.length - place)))

/-- The frames of what the calls from `call` on deliver of the blocks at their places. -/
def deliveredFrames (X : Crates) (content : Bytes) (blockSize : ℕ) (plan : Schedule IoError)
    (call : ℕ) (places : List ℕ) : List CarvedFrame :=
  (places.zipIdx call).flatMap fun p =>
    (carvedUnits p.1 (deliveredAt content blockSize plan p.1 p.2)).map (frameOf X content)

/-- One block: its place, and the frames of what the call delivers of it. -/
theorem carveBlock_eq (X : Crates) (S : FileContent) (blockSize i : ℕ)
    (frames : List CarvedFrame) {file : Source} (hlegal : Legal file.plan) :
    ∃ next : ℕ → Source, (∀ place, (next place).plan = file.plan ∧
        (next place).calls = file.calls + 1) ∧
      carveBlock X S.bytes blockSize (frames, file) i =
        blockPlace X blockSize i >>= fun place =>
          .ok (frames ++ (carvedUnits place
            (deliveredAt S.bytes blockSize file.plan place file.calls)).map (frameOf X S.bytes),
            next place) := by
  have hlen := S.size_lt
  let seated : ℕ → Source := fun place => ⟨S.bytes.drop place, file.calls, file.plan⟩
  refine ⟨fun place => (seated place).advance (portion file.plan file.calls
    (min blockSize (S.bytes.length - place))), fun place => ⟨rfl, rfl⟩, ?_⟩
  unfold carveBlock blockPlace
  cases hmul : (X.build.mul i blockSize : Carved ℕ) with
  | error e => rfl
  | ok place =>
    rw [ok_bind, ok_bind, seek]
    split_ifs with hbeyond
    · rfl
    · have hread := read_portion (seated place) blockSize hlegal
      have hrest : (seated place).rest.length = S.bytes.length - place := List.length_drop
      have hfits : S.bytes.length < 2 ^ 64 := by omega
      have hcarve := carveBuffer_eq X hfits place
        (portion file.plan file.calls (min blockSize (S.bytes.length - place)))
      rw [hrest] at hread
      rw [ok_bind, ok_bind, hread]
      unfold deliveredAt
      cases hbytes : (S.bytes.drop place).take (portion file.plan file.calls
          (min blockSize (S.bytes.length - place))) with
      | nil =>
        rw [carvedUnits_of_lt (by simp), List.map_nil, List.append_nil]
      | cons b bs =>
        rw [hbytes] at hcarve
        dsimp only
        rw [hcarve]
        rfl

theorem foldlM_carveBlock (X : Crates) (S : FileContent) (blockSize : ℕ) (indices : List ℕ)
    (frames : List CarvedFrame) {file : Source} (hlegal : Legal file.plan) :
    (indices.foldlM (carveBlock X S.bytes blockSize) (frames, file)).map Prod.fst =
      (indices.mapM (blockPlace X blockSize)).map fun places =>
        frames ++ deliveredFrames X S.bytes blockSize file.plan file.calls places := by
  induction indices generalizing frames file with
  | nil =>
    rw [List.mapM_nil]
    exact congrArg Except.ok (List.append_nil frames).symm
  | cons i rest ih =>
    obtain ⟨next, hnext, hstep⟩ := carveBlock_eq X S blockSize i frames hlegal
    rw [List.foldlM_cons, List.mapM_cons, hstep]
    cases blockPlace X blockSize i with
    | error e => rfl
    | ok place =>
      obtain ⟨hplan, hcalls⟩ := hnext place
      have hrest := @ih (frames ++ (carvedUnits place (deliveredAt S.bytes blockSize file.plan
        place file.calls)).map (frameOf X S.bytes)) (next place) (by rw [hplan]; exact hlegal)
      rw [ok_bind, ok_bind, ok_bind, hrest, hplan, hcalls]
      cases rest.mapM (blockPlace X blockSize) with
      | error e => rfl
      | ok places =>
        exact congrArg Except.ok (List.append_assoc frames _ _)

/-- Blocks are carved one by one, each as far as its call delivers it. -/
theorem carveCorruptedBlocks_legal (X : Crates) (path : String) (S : FileContent)
    (blockSize : ℕ) (indices : List ℕ) {plan : Schedule IoError} (hlegal : Legal plan) :
    carveCorruptedBlocks X ⟨path, S, none⟩ blockSize indices plan =
      X.allocate blockSize >>= fun _ =>
        (indices.mapM (blockPlace X blockSize)).map
          (deliveredFrames X S.bytes blockSize plan 0) := by
  have hopened : Legal (Reader.opened S.bytes plan).plan := hlegal
  have hfold := foldlM_carveBlock X S blockSize indices [] hopened
  unfold carveCorruptedBlocks
  dsimp only
  congr 1
  funext u
  refine Eq.trans ?_ hfold
  cases indices.foldlM (carveBlock X S.bytes blockSize) ([], .opened S.bytes plan) <;> rfl

theorem mapM_blockPlace (X : Crates) {blockSize : ℕ} {indices : List ℕ}
    (hplaces : ∀ i ∈ indices, i * blockSize < 2 ^ 63) :
    indices.mapM (blockPlace X blockSize) = .ok (indices.map (· * blockSize)) := by
  apply mapM_ok.mpr
  rw [List.forall₂_map_right_iff, List.forall₂_same]
  intro i hi
  have hplace := hplaces i hi
  unfold blockPlace
  rw [Build.mul_of_lt X.build (by omega), ok_bind, if_neg (by omega)]

/-- A file that delivers whole blocks is carved block by block. -/
theorem carveCorruptedBlocks_eq (X : Crates) (path : String) (S : FileContent) {blockSize : ℕ}
    (hmemory : blockSize ≤ X.memory) {indices : List ℕ}
    (hplaces : ∀ i ∈ indices, i * blockSize < 2 ^ 63) {plan : Schedule IoError}
    (hplan : ∀ k, ∃ n, plan k = .ok n ∧ blockSize ≤ n) :
    carveCorruptedBlocks X ⟨path, S, none⟩ blockSize indices plan =
      .ok (indices.flatMap fun i =>
        (carvedUnits (i * blockSize) (blockAt blockSize S.bytes i)).map (frameOf X S.bytes)) := by
  have hlegal : Legal plan := by
    intro k
    obtain ⟨n, hn, -⟩ := hplan k
    exact ⟨n, hn⟩
  have hwhole : ∀ i call, deliveredAt S.bytes blockSize plan (i * blockSize) call =
      blockAt blockSize S.bytes i := by
    intro i call
    obtain ⟨want, hwant, hle⟩ := hplan call
    unfold deliveredAt blockAt
    rw [portion_of_le hwant (by omega), ← List.length_drop, List.take_eq_take_iff]
    omega
  rw [carveCorruptedBlocks_legal X path S blockSize indices hlegal, X.allocate_of_le hmemory,
    ok_bind, mapM_blockPlace X hplaces]
  apply congrArg Except.ok
  unfold deliveredFrames
  rw [List.zipIdx_map, List.flatMap_map]
  simp only [Prod.map_fst, Prod.map_snd, id_eq, hwhole]
  generalize 0 = call
  induction indices generalizing call with
  | nil => rfl
  | cons i rest ih =>
    rw [List.zipIdx_cons, List.flatMap_cons, List.flatMap_cons,
      ih (fun j hj => hplaces j (List.mem_cons_of_mem _ hj))]

/-- The units of the blocks of a range are those of the blocks of its bytes. -/
theorem flatMap_range_eq_blockUnits (blockSize first count : ℕ) (content : Bytes)
    (hsize : 0 < blockSize) :
    ((List.range' first count).flatMap fun i =>
        carvedUnits (i * blockSize) (blockAt blockSize content i)) =
      blockUnits blockSize (first * blockSize)
        ((content.drop (first * blockSize)).take (count * blockSize)) := by
  induction count generalizing first with
  | zero => simp [blockUnits_nil]
  | succ count ih =>
    rw [List.range'_succ, List.flatMap_cons, ih, Nat.succ_mul, Nat.succ_mul]
    by_cases hend : content.drop (first * blockSize) = []
    · have hbehind : content.drop (first * blockSize + blockSize) = [] := by
        rw [← List.drop_drop, hend, List.drop_nil]
      rw [blockAt, hend, hbehind, List.take_nil, List.take_nil, List.take_nil, blockUnits_nil,
        blockUnits_nil, carvedUnits_of_lt (by simp)]
      rfl
    · have hne : (content.drop (first * blockSize)).take (count * blockSize + blockSize) ≠ [] := by
        intro hnil
        rcases List.take_eq_nil_iff.mp hnil with hzero | hnil
        · omega
        · exact hend hnil
      rw [blockUnits_step _ hsize hne, List.take_take, Nat.min_eq_left (by omega), List.drop_take,
        Nat.add_sub_cancel, List.drop_drop, blockAt]

/-- What carving says of a frame. -/
def reported (frame : CarvedFrame) : ℕ × ℕ × String × String :=
  (frame.byteOffset, frame.length, frame.nalType, frame.blake3Hash)

/-- The frames of units that lie in the content tell where the units are. -/
theorem map_span_of_reported {X : Crates} {content : Bytes} {us : List CodedUnit}
    (hus : ∀ u ∈ us, u.start ≤ u.stop ∧ u.stop ≤ content.length) :
    ((us.map (frameOf X content)).map reported).map (fun r => (r.1, r.1 + r.2.1)) =
      us.map CodedUnit.span := by
  rw [List.map_map, List.map_map]
  apply List.map_congr_left
  intro u hu
  obtain ⟨hstart, hstop⟩ := hus u hu
  simp only [Function.comp_apply, reported, frameOf, CodedUnit.span, List.length_take,
    List.length_drop, Prod.mk.injEq, true_and]
  omega

/-- The bytes whose blocks carve like the whole: no unit at all where the blocks are
too short to carve, otherwise fitting cuts and no unit lost at the end. -/
def CarvesAlike (blockSize : ℕ) (data : Bytes) : Prop :=
  (blockSize < 5 ∧ carvedUnits 0 data = []) ∨
    (5 ≤ blockSize ∧ CutsFit blockSize data ∧ ¬ TailLost blockSize data)

theorem carvedUnits_eq_nil_iff (offset : ℕ) (data : Bytes) :
    carvedUnits offset data = [] ↔ carvedUnits 0 data = [] := by
  have hshift := units_shift offset 0 data
  rw [Nat.add_zero] at hshift
  unfold carvedUnits
  split_ifs
  · rfl
  · rw [hshift, List.map_eq_nil_iff]

theorem carvesAlike_iff_eq {blockSize : ℕ} (offset : ℕ) (data : Bytes) :
    CarvesAlike blockSize data ↔
      (blockUnits blockSize offset data).map CodedUnit.span =
        (carvedUnits offset data).map CodedUnit.span := by
  by_cases hsize : blockSize < 5
  · rw [blockUnits_of_size_lt offset data hsize, List.map_nil, eq_comm, List.map_eq_nil_iff,
      carvedUnits_eq_nil_iff]
    constructor
    · intro h
      rcases h with h | h
      · exact h.2
      · omega
    · intro h
      exact .inl ⟨hsize, h⟩
  · constructor
    · intro h
      rcases h with h | ⟨hlarge, hfit, htail⟩
      · omega
      · rw [blockUnits_eq_of_cutsFit offset data hlarge hfit htail]
    · intro h
      exact .inr ⟨by omega, cutsFit_of_spans offset data (by omega) h⟩

theorem blockUnits_eq_of_carvesAlike {blockSize : ℕ} (offset : ℕ) {data : Bytes}
    (h : CarvesAlike blockSize data) :
    blockUnits blockSize offset data = carvedUnits offset data := by
  rcases h with ⟨hsmall, hnone⟩ | ⟨hlarge, hfit, htail⟩
  · rw [blockUnits_of_size_lt offset data hsmall, (carvedUnits_eq_nil_iff offset data).mpr hnone]
  · exact blockUnits_eq_of_cutsFit offset data hlarge hfit htail

/-- Carving the blocks of a range one by one reports the frames that carving the
bytes of the range as one buffer reports, exactly when those bytes carve alike. -/
theorem carveCorruptedBlocks_range_iff (X : Crates) (path : String) (S : FileContent)
    (blockSize first count : ℕ) (plan : Schedule IoError) (hsize : 1 ≤ blockSize)
    (hrange : ∀ i < count, (first + i) * blockSize < 2 ^ 63)
    (hplan : ∀ k, ∃ n, plan k = .ok n ∧ blockSize ≤ n) :
    let data := ((List.range' first count).map (blockAt blockSize S.bytes)).flatten
    (∃ carved whole,
        carveCorruptedBlocks X ⟨path, S, none⟩ blockSize (List.range' first count) plan =
          .ok carved ∧
        carveBuffer X data (first * blockSize) = .ok whole ∧
        carved.map reported = whole.map reported) ↔
      blockSize ≤ X.memory ∧ CarvesAlike blockSize data := by
  intro data
  have hlen := S.size_lt
  have hdata : data = (S.bytes.drop (first * blockSize)).take (count * blockSize) :=
    flatten_blockAt_range blockSize first count S.bytes
  have hfits : S.bytes.length < 2 ^ 64 := by omega
  have hwhole := carveBuffer_eq X hfits (first * blockSize) (count * blockSize)
  rw [← hdata] at hwhole
  by_cases hmemory : blockSize ≤ X.memory
  · have hplaces : ∀ i ∈ List.range' first count, i * blockSize < 2 ^ 63 := by
      intro i hi
      rw [List.mem_range'_1] at hi
      have hplace := hrange (i - first) (by omega)
      rwa [Nat.add_sub_cancel' hi.1] at hplace
    have hcarved := carveCorruptedBlocks_eq X path S hmemory hplaces hplan
    have hblocks := flatMap_range_eq_blockUnits blockSize first count S.bytes hsize
    rw [← hdata] at hblocks
    rw [← List.map_flatMap, hblocks] at hcarved
    rw [hcarved, hwhole, carvesAlike_iff_eq (first * blockSize) data]
    -- the units of either side lie in the content
    have hinside : ∀ u ∈ blockUnits blockSize (first * blockSize) data,
        u.start ≤ u.stop ∧ u.stop ≤ S.bytes.length := by
      intro u hu
      rw [← hblocks] at hu
      obtain ⟨i, -, hu⟩ := List.mem_flatMap.mp hu
      have hbounds := mem_carvedUnits hu
      rw [length_blockAt] at hbounds
      omega
    have hinside' : ∀ u ∈ carvedUnits (first * blockSize) data,
        u.start ≤ u.stop ∧ u.stop ≤ S.bytes.length := by
      intro u hu
      have hbounds := mem_carvedUnits hu
      rw [hdata, List.length_take, List.length_drop] at hbounds
      omega
    constructor
    · intro h
      obtain ⟨carved, whole, hcarvedEq, hwholeEq, hsame⟩ := h
      obtain rfl := Except.ok.inj hcarvedEq
      obtain rfl := Except.ok.inj hwholeEq
      refine ⟨hmemory, ?_⟩
      rw [← map_span_of_reported hinside, ← map_span_of_reported hinside', hsame]
    · intro h
      have halike := (carvesAlike_iff_eq (first * blockSize) data).mpr h.2
      refine ⟨_, _, rfl, rfl, ?_⟩
      rw [blockUnits_eq_of_carvesAlike _ halike]
  · constructor
    · intro h
      obtain ⟨carved, whole, hcarved, -⟩ := h
      unfold carveCorruptedBlocks Crates.allocate at hcarved
      rw [if_neg hmemory] at hcarved
      exact absurd hcarved (by simp [panicked, bind, Except.bind])
    · intro h
      exact absurd h.1 hmemory

/-- A slice and a parameter set in a row, and behind them a slice that fills the
second block from its first byte on. -/
def alignedSlices : FileContent :=
  ⟨[0, 0, 1, 0x41, 9, 0, 0, 1, 0x68, 7, 5, 5, 0, 0, 0, 1, 0x41, 3, 2, 1], by decide⟩

theorem carveCorruptedBlocks_range_aligned :
    ∃ carved whole,
      carveCorruptedBlocks .sample ⟨"dvr.img", alignedSlices, none⟩ 12 [0, 1] eager =
        .ok carved ∧
      carveBuffer .sample alignedSlices.bytes 0 = .ok whole ∧
      carved.map reported = whole.map reported := by
  have hcut : CutFits (blockAt 12 alignedSlices.bytes 0) (alignedSlices.bytes.drop 12) := by
    right
    decide
  refine (carveCorruptedBlocks_range_iff .sample "dvr.img" alignedSlices 12 0 2 eager
    (by decide) (by decide) (fun _ => ⟨2 ^ 64, rfl, by decide⟩)).mpr ⟨by decide, .inr ?_⟩
  refine ⟨by decide, ?_, ?_⟩
  · intro i hi
    have hlength : (((List.range' 0 2).map (blockAt 12 alignedSlices.bytes)).flatten).length =
        20 := by decide
    rw [hlength] at hi
    obtain rfl : i = 0 := by omega
    exact hcut
  · intro htail
    obtain ⟨header, hheader⟩ := htail.2
    have hlength : (((List.range' 0 2).map (blockAt 12 alignedSlices.bytes)).flatten.drop
        (((List.range' 0 2).map (blockAt 12 alignedSlices.bytes)).flatten.length / 12 *
          12)).length = 8 := by decide
    rw [hheader] at hlength
    simp at hlength

/-- One slice over two blocks: the whole has one frame of sixteen bytes, the blocks
have its first eight. -/
def straddlingSlice : FileContent :=
  ⟨[0, 0, 0, 1, 0x65, 1, 2, 3, 4, 5, 6, 7, 8, 9, 10, 11], by decide⟩

theorem carveCorruptedBlocks_straddling :
    ¬ ∃ carved whole,
      carveCorruptedBlocks .sample ⟨"dvr.img", straddlingSlice, none⟩ 8 [0, 1] eager =
        .ok carved ∧
      carveBuffer .sample
        (([0, 1].map (blockAt 8 straddlingSlice.bytes)).flatten) 0 = .ok whole ∧
      carved.map reported = whole.map reported := by
  intro h
  obtain ⟨carved, whole, hcarved, hwhole, hsame⟩ := h
  have hblocks : (carveCorruptedBlocks .sample ⟨"dvr.img", straddlingSlice, none⟩ 8 [0, 1]
      eager).map (List.map CarvedFrame.length) = .ok [8] := rfl
  have hbuffer : (carveBuffer .sample (([0, 1].map (blockAt 8 straddlingSlice.bytes)).flatten)
      0).map (List.map CarvedFrame.length) = .ok [16] := rfl
  rw [hcarved] at hblocks
  rw [hwhole] at hbuffer
  have hlengths := congrArg (List.map fun r => r.2.1) hsame
  rw [List.map_map, List.map_map] at hlengths
  have hshort : carved.map CarvedFrame.length = [8] := Except.ok.inj hblocks
  have hlong : whole.map CarvedFrame.length = [16] := Except.ok.inj hbuffer
  have hlengthsEq : carved.map CarvedFrame.length = whole.map CarvedFrame.length := hlengths
  rw [hshort, hlong] at hlengthsEq
  exact absurd hlengthsEq (by decide)

end Dvrft.Carving
