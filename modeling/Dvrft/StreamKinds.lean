import Dvrft.Carving
import Dvrft.CodePositions
import Dvrft.Containers
import Dvrft.Reporting

/-!
What a header byte stands for. The container scan looks for the types of H.265
parameter sets before it looks for those of H.264, and two header bytes of H.264
slices are taken for them. A frame begins with the only code in it, so what the
scan says of a frame is decided by the frame's own header.
-/

namespace Dvrft.StreamKinds

open Acquisition CaseFiles Containers Database Errors Machine Platform Reporting ShortReads
open StartCodes Texts
open Carving Carving.NalClassification

def h264Kinds : List NalClassification :=
  [h264SpsKeyframe, h264Pps, h264IdrKeyframe, h264NonIdrSlice, h264Sei, h264Aud]

/-- A header of an H.264 slice that has the number of an H.265 parameter set where
H.265 has its type. -/
def HevcTyped (header : UInt8) : Prop := header = 0x41 ∨ header = 0x45

instance : DecidablePred HevcTyped := fun header => by unfold HevcTyped; infer_instance

/-- A property of all bytes, value by value. -/
theorem forall_byte {P : UInt8 → Prop} (h : ∀ n < 256, P (UInt8.ofNat n)) (b : UInt8) : P b := by
  have hb := h b.toNat (UInt8.toNat_lt b)
  rwa [UInt8.ofNat_toNat] at hb

theorem classifyNalHeader_h264_iff (header : UInt8) :
    classifyNalHeader header ∈ h264Kinds ↔
      header &&& 0x80 = 0 ∧ (header &&& 0x1F).toNat ∈ [1, 5, 6, 7, 8, 9] := by
  revert header
  apply forall_byte
  decide +kernel

theorem hevcTyped_iff {header : UInt8} (h264 : classifyNalHeader header ∈ h264Kinds) :
    HevcTyped header ↔
      (((header >>> 1) &&& 0x3F).toNat = 32 ∨ ((header >>> 1) &&& 0x3F).toNat = 33 ∨
        ((header >>> 1) &&& 0x3F).toNat = 34) := by
  revert header
  apply forall_byte
  decide +kernel

theorem windowPosition_eq_some_iff {size i : ℕ} {p : Bytes → Bool} {data : Bytes} :
    windowPosition size p data = some i ↔
      i < data.length + 1 - size ∧ p ((data.drop i).take size) = true ∧
        ∀ j < i, p ((data.drop j).take size) = false := by
  unfold windowPosition
  rw [List.find?_range_eq_some]
  simp only [List.mem_range, Bool.not_eq_true']
  constructor
  · intro h
    exact ⟨h.2.1, h.1, h.2.2⟩
  · intro h
    exact ⟨h.2.1, h.1, h.2.2⟩

theorem windowPosition_eq_none_iff {size : ℕ} {p : Bytes → Bool} {data : Bytes} :
    windowPosition size p data = none ↔
      ∀ i < data.length + 1 - size, p ((data.drop i).take size) = false := by
  simp [windowPosition, List.find?_eq_none]

theorem take_drop_eq_iff {data : Bytes} {i : ℕ} {ws : Bytes} :
    (data.drop i).take ws.length = ws ↔ ∀ j < ws.length, data[i + j]? = ws[j]? := by
  constructor
  · intro h j hj
    have hplace : ((data.drop i).take ws.length)[j]? = ws[j]? := by rw [h]
    rwa [List.getElem?_take_of_lt hj, List.getElem?_drop] at hplace
  · intro h
    apply List.ext_getElem?
    intro j
    by_cases hj : j < ws.length
    · rw [List.getElem?_take_of_lt hj, List.getElem?_drop, h j hj]
    · rw [List.getElem?_eq_none (by rw [List.length_take]; omega),
        List.getElem?_eq_none (by omega)]

/-- A long code in the data, byte by byte. -/
theorem longCode_iff {data : Bytes} {i : ℕ} :
    (data.drop i).take 4 = [0, 0, 0, 1] ↔ data[i]? = some 0 ∧ PatternAt data (i + 1) := by
  have hwindow := @take_drop_eq_iff data i [0, 0, 0, 1]
  simp only [List.length_cons, List.length_nil, Nat.reduceAdd] at hwindow
  rw [hwindow, PatternAt, Nat.forall_lt_succ_right, Nat.forall_lt_succ_right,
    Nat.forall_lt_succ_right, Nat.forall_lt_succ_right]
  simp [and_assoc]

theorem shortCode_iff {data : Bytes} {i : ℕ} :
    (data.drop i).take 3 = [0, 0, 1] ↔ PatternAt data i := by
  have hwindow := @take_drop_eq_iff data i [0, 0, 1]
  simp only [List.length_cons, List.length_nil, Nat.reduceAdd] at hwindow
  rw [hwindow, PatternAt, Nat.forall_lt_succ_right, Nat.forall_lt_succ_right,
    Nat.forall_lt_succ_right]
  simp [and_assoc]

/-- The container signatures are not there, and the scan looks for a raw stream. -/
structure ReachesElementaryStep (probe : Bytes) : Prop where
  long : 12 ≤ probe.length
  isoBaseMedia : isoBaseMedia probe = none
  dahuaStream : dahuaStream probe = none
  riffAvi : riffAvi probe = none
  matroska : matroska probe = none

/-- The byte behind the start code that the scan takes. -/
def HeaderAt (probe : Bytes) (place : ℕ) (header : UInt8) : Prop :=
  (firstStartCode probe).map (fun code => code.1 + code.2) = some place ∧
    probe[place]? = some header

def IdentifiedAsH264 (probe : Bytes) : Prop :=
  (detectVideoContainerOrStream probe).bind DeviceIdentification.matchedGrammarId =
    some "h264-stream"

theorem detect_of_elementaryStream {probe : Bytes} {d : DeviceIdentification}
    (hreaches : ReachesElementaryStep probe) (hd : elementaryStream probe = some d) :
    detectVideoContainerOrStream probe = some d := by
  unfold detectVideoContainerOrStream containerSteps
  rw [if_neg (Nat.not_lt.mpr hreaches.long), List.findSome?_cons, hreaches.isoBaseMedia,
    List.findSome?_cons, hreaches.dahuaStream, List.findSome?_cons, hreaches.riffAvi,
    List.findSome?_cons, hreaches.matroska, List.findSome?_cons, hd]

/-- The scan answers for every H.264 header, and asks for H.265 first. -/
theorem elementaryStream_of_h264 {probe : Bytes} {place : ℕ} {header : UInt8}
    (hheader : HeaderAt probe place header) (h264 : classifyNalHeader header ∈ h264Kinds) :
    ∃ pos, elementaryStream probe =
      some (if HevcTyped header ∧ place + 1 < probe.length then
          h265Stream pos ((header >>> 1) &&& 0x3F).toNat
        else h264Stream pos header (header &&& 0x1F).toNat) := by
  obtain ⟨hplace, hbyte⟩ := hheader
  obtain ⟨code, hcode, rfl⟩ := Option.map_eq_some_iff.mp hplace
  obtain ⟨pos, codeLen⟩ := code
  obtain ⟨hforbidden, hkind⟩ := (classifyNalHeader_h264_iff header).mp h264
  refine ⟨pos, ?_⟩
  unfold elementaryStream
  simp only [hcode, hbyte, if_pos hforbidden, ← hevcTyped_iff h264]
  split_ifs
  · rfl
  · rfl

/-- A probe with an H.264 header is identified as H.264, unless the header is one of
the two and a byte stands behind it. -/
theorem identifiedAsH264_of_header_iff {probe : Bytes} {place : ℕ} {header : UInt8}
    (hreaches : ReachesElementaryStep probe) (hheader : HeaderAt probe place header)
    (h264 : classifyNalHeader header ∈ h264Kinds) :
    IdentifiedAsH264 probe ↔ ¬ HevcTyped header ∨ place + 1 = probe.length := by
  obtain ⟨pos, hstream⟩ := elementaryStream_of_h264 hheader h264
  have hinside : place < probe.length := (List.getElem?_eq_some_iff.mp hheader.2).1
  unfold IdentifiedAsH264
  rw [detect_of_elementaryStream hreaches hstream, Option.bind_some]
  split_ifs with hmistaken
  · have hother : (h265Stream pos ((header >>> 1) &&& 0x3F).toNat).matchedGrammarId =
        some "h265-stream" := rfl
    rw [hother]
    constructor
    · intro h
      exact absurd (Option.some.inj h) (by decide)
    · intro h
      rcases h with h | h
      · exact absurd hmistaken.1 h
      · omega
  · have hsame : (h264Stream pos header (header &&& 0x1F).toNat).matchedGrammarId =
        some "h264-stream" := rfl
    rw [hsame]
    constructor
    · intro _
      by_cases hevc : HevcTyped header
      · right
        by_contra hmore
        exact hmistaken ⟨hevc, by omega⟩
      · exact .inl hevc
    · intro _
      rfl

/-- A long code inside a unit is the code that the unit begins with. -/
theorem longCode_in_unit {xs : Bytes} {u : CodedUnit} (hu : Delimited xs u) {i : ℕ}
    (hinside : u.start + i + 4 ≤ u.stop) (hzero : xs[u.start + i]? = some 0)
    (hpattern : PatternAt xs (u.start + i + 1)) : i = 0 ∧ u.codeLength = 4 := by
  have hcode : CodeAt xs (u.start + i) 4 :=
    ⟨u.start + i + 1, hpattern, .inl ⟨⟨by omega, hzero⟩, rfl, rfl⟩⟩
  have hi : i = 0 := by
    rcases hu.next (u.start + i) 4 hcode with hbefore | hbehind
    · omega
    · omega
  subst hi
  refine ⟨rfl, ?_⟩
  obtain ⟨q, hq, hlong | ⟨-, -, hstart, -⟩⟩ := hu.code
  · exact hlong.2.2
  · -- a short code has a one where the long one has its third zero
    have hone := hq.2.2
    rw [hstart] at hone
    exact absurd (hone.symm.trans hpattern.2.1) (by decide)

/-- Whatever head of a unit the scan sees, it takes the code that the unit begins with. -/
theorem firstStartCode_of_unit {xs : Bytes} {u : CodedUnit} (hu : Delimited xs u) {length : ℕ}
    (hlong : 5 ≤ length) (hle : u.start + length ≤ u.stop) :
    firstStartCode ((xs.drop u.start).take length) = some (0, u.codeLength) := by
  have hstop := hu.stop_le_length
  obtain ⟨seen, hseen, hfive, hinside⟩ : ∃ seen, min 4096 length = seen ∧ 5 ≤ seen ∧
      u.start + seen ≤ u.stop := ⟨_, rfl, by omega, by omega⟩
  have hlength : ((xs.drop u.start).take seen).length = seen := by
    rw [List.length_take, List.length_drop]
    omega
  have hzero : ∀ i < seen, ((xs.drop u.start).take seen)[i]? = xs[u.start + i]? := by
    intro i hi
    rw [List.getElem?_take_of_lt hi, List.getElem?_drop]
  unfold firstStartCode
  rw [List.take_take, hseen]
  obtain ⟨q, hq, ⟨hbefore, rfl, hn⟩ | ⟨hbefore, -, rfl, hn⟩⟩ := hu.code
  · have hfirst : windowPosition 4 (fun w => w == [0, 0, 0, 1])
        ((xs.drop u.start).take seen) = some 0 := by
      refine windowPosition_eq_some_iff.mpr ⟨by omega, ?_, by simp⟩
      rw [beq_iff_eq, longCode_iff, hzero 0 (by omega), patternAt_piece (by omega)]
      exact ⟨hbefore.2, hq⟩
    rw [hfirst, hn]
    rfl
  · have hnone : windowPosition 4 (fun w => w == [0, 0, 0, 1])
        ((xs.drop u.start).take seen) = none := by
      refine windowPosition_eq_none_iff.mpr ?_
      intro i hi
      rw [beq_eq_false_iff_ne, ne_eq, longCode_iff, hzero i (by omega),
        patternAt_piece (by omega)]
      rintro ⟨hfirst, hpattern⟩
      have hcode := longCode_in_unit hu (by omega) hfirst hpattern
      omega
    have hfirst : windowPosition 3 (fun w => w == [0, 0, 1])
        ((xs.drop u.start).take seen) = some 0 := by
      refine windowPosition_eq_some_iff.mpr ⟨by omega, ?_, by simp⟩
      rw [beq_iff_eq, shortCode_iff, patternAt_piece (by omega)]
      exact hq
    rw [hnone, hfirst, hn]
    rfl

/-- A frame of a unit of some piece of the content. -/
def FromPiece (X : Crates) (content : Bytes) (frame : CarvedFrame) : Prop :=
  ∃ place length u, Delimited ((content.drop place).take length) u ∧
    frame = frameOf X content (u.shift place)

theorem fromPiece_of_carvedUnits {X : Crates} {content : Bytes} {place length : ℕ}
    {u : CodedUnit} (hu : u ∈ carvedUnits place ((content.drop place).take length)) :
    FromPiece X content (frameOf X content u) := by
  unfold carvedUnits at hu
  split_ifs at hu with hshort
  · simp at hu
  · rw [← Nat.add_zero place, units_shift, List.mem_map] at hu
    obtain ⟨v, hv, rfl⟩ := hu
    exact ⟨place, length, v, mem_units_iff.mp hv, rfl⟩

/-- A block adds frames of units of what its call delivered. -/
theorem carveBlock_fromPiece {X : Crates} {S : FileContent} {blockSize i : ℕ}
    {s s' : List CarvedFrame × Source} (hs : ∀ frame ∈ s.1, FromPiece X S.bytes frame)
    (hstep : carveBlock X S.bytes blockSize s i = .ok s') :
    ∀ frame ∈ s'.1, FromPiece X S.bytes frame := by
  have hlen : S.bytes.length < 2 ^ 64 := by
    have hsize := S.size_lt
    omega
  unfold carveBlock at hstep
  obtain ⟨place, -, hstep⟩ := bind_ok.mp hstep
  obtain ⟨file, hfile, hstep⟩ := bind_ok.mp hstep
  unfold seek at hfile
  split_ifs at hfile with hbeyond
  · simp [fail] at hfile
  · obtain rfl := Except.ok.inj hfile
    split at hstep
    · simp [fail] at hstep
    · obtain rfl := Except.ok.inj hstep
      exact hs
    · rename_i b bs file' hread
      obtain ⟨carved, hcarved, hstep⟩ := bind_ok.mp hstep
      obtain rfl := Except.ok.inj hstep
      obtain ⟨n, -, -, -, hchunk, -⟩ := read_ok hread
      dsimp only at hchunk
      rw [hchunk, carveBuffer_eq X hlen] at hcarved
      obtain rfl := Except.ok.inj hcarved
      intro frame hframe
      rcases List.mem_append.mp hframe with hframe | hframe
      · exact hs frame hframe
      · obtain ⟨u, hu, rfl⟩ := List.mem_map.mp hframe
        exact fromPiece_of_carvedUnits hu

/-- The frames of a run are those of units of pieces of the content. -/
theorem fromPiece_of_carved {X : Crates} {image : EvidenceFile} {blockSize : ℕ}
    {indices : List ℕ} {plan : Schedule IoError} {frames : List CarvedFrame}
    (hcarved : carveCorruptedBlocks X image blockSize indices plan = .ok frames) :
    ∀ frame ∈ frames, FromPiece X image.content.bytes frame := by
  unfold carveCorruptedBlocks at hcarved
  split at hcarved
  · simp [fail] at hcarved
  · obtain ⟨-, -, hcarved⟩ := bind_ok.mp hcarved
    obtain ⟨s, hs, hcarved⟩ := bind_ok.mp hcarved
    obtain rfl := Except.ok.inj hcarved
    have hinvariant := foldlM_invariant
      (P := fun s => ∀ frame ∈ s.1, FromPiece X image.content.bytes frame)
      (fun s s' i _ hframes hstep => carveBlock_fromPiece hframes hstep) (by simp) hs
    exact hinvariant

/-- What `seek` and `read_exact` deliver. -/
theorem readExactAt_ok {X : Crates} {content : Bytes} {plan : Schedule IoError}
    {byteOffset length : ℕ} {buf : Bytes}
    (h : readExactAt X content plan byteOffset length = .ok buf) :
    buf = (content.drop byteOffset).take length := by
  unfold readExactAt at h
  split_ifs at h
  · simp [fail] at h
  · obtain ⟨-, -, h⟩ := bind_ok.mp h
    split at h
    · simp [fail] at h
    · rename_i hread
      split_ifs at h
      · simp [fail] at h
      · obtain rfl := Except.ok.inj h
        exact (readFull_ok hread).1

/-- The types of the frames that are carved as slices or keyframes of H.264. -/
def sliceOrKeyframe : List String :=
  [h264NonIdrSlice, h264IdrKeyframe, h264SpsKeyframe].map description

theorem h264_of_sliceOrKeyframe {kind : NalClassification}
    (h : kind.description ∈ sliceOrKeyframe) : kind ∈ h264Kinds := by
  cases kind with
  | h264SpsKeyframe | h264Pps | h264IdrKeyframe | h264NonIdrSlice | h264Sei | h264Aud => decide
  | h265Vps | h265Sps | h265Pps | h265IdrKeyframe | h265NonIdrSlice => exact absurd h (by decide)
  | unknownNal b =>
    have hunknown : (unknownNal b).description = "Generic / Unknown NAL Unit" := rfl
    rw [hunknown] at h
    exact absurd h (by decide)

/-- A head of an exported frame has the frame's own header, and more bytes behind it. -/
theorem headerAt_of_fromPiece {X : Crates} {content : Bytes} {frame : CarvedFrame}
    (hframe : FromPiece X content frame) {clip probe : Bytes}
    (hclip : clip = (content.drop frame.byteOffset).take frame.length) (hprobe : probe <+: clip)
    (hlong : 12 ≤ probe.length) :
    ∃ place header, HeaderAt probe place header ∧ place + 1 < probe.length ∧
      frame.nalType = (classifyNalHeader header).description := by
  obtain ⟨start, size, u, hu, rfl⟩ := hframe
  have hstop := hu.stop_le_length
  have hlt := hu.nonempty
  have hcode : u.codeLength ≤ 4 := by
    obtain ⟨q, -, hkind | hkind⟩ := hu.code
    · exact hkind.2.2.le
    · exact hkind.2.2.2.le.trans (by decide)
  rw [List.length_take, List.length_drop] at hstop
  have hlength : (frameOf X content (u.shift start)).length = u.stop - u.start := by
    dsimp only [frameOf, CodedUnit.shift]
    rw [List.length_take, List.length_drop]
    omega
  have hbytes : clip = (((content.drop start).take size).drop u.start).take
      (u.stop - u.start) := by
    rw [hclip, hlength, List.drop_take, List.take_take, List.drop_drop,
      Nat.min_eq_left (by omega)]
    rfl
  have hcut := List.prefix_iff_eq_take.mp hprobe
  have hcliplen : clip.length ≤ u.stop - u.start := by
    rw [hbytes]
    exact List.length_take_le _ _
  have hle := hprobe.length_le
  have hpiece : probe = (((content.drop start).take size).drop u.start).take probe.length := by
    conv_lhs => rw [hcut, hbytes, List.take_take, Nat.min_eq_left (by omega)]
  have hfirst := firstStartCode_of_unit hu (by omega : 5 ≤ probe.length) (by omega)
  rw [← hpiece] at hfirst
  refine ⟨u.codeLength, content.getD (start + u.start + u.codeLength) 0, ⟨?_, ?_⟩, by omega, rfl⟩
  · rw [hfirst, Option.map_some, Nat.zero_add]
  · rw [hpiece, List.getElem?_take_of_lt (by omega), List.getElem?_drop,
      List.getElem?_take_of_lt (by omega), List.getElem?_drop, List.getD_eq_getElem?_getD,
      Nat.add_assoc, List.getElem?_eq_getElem (by omega), Option.getD_some]

/-- The container scan and the carver agree on a probe with an H.264 header unless the
header is one of the two and a byte stands behind it, and on an exported H.264 slice or
keyframe unless its header is one of the two. -/
theorem identifiedAsH264_iff {probe : Bytes} (hreaches : ReachesElementaryStep probe) :
    (∀ place header, HeaderAt probe place header → classifyNalHeader header ∈ h264Kinds →
      (IdentifiedAsH264 probe ↔ ¬ HevcTyped header ∨ place + 1 = probe.length)) ∧
    ∀ X image blockSize indices plan frames,
      carveCorruptedBlocks X image blockSize indices plan = .ok frames →
      ∀ frame ∈ frames, frame.nalType ∈ sliceOrKeyframe →
      ∀ plan' clip,
        readExactAt X image.content.bytes plan' frame.byteOffset frame.length = .ok clip →
      probe <+: clip →
        ∃ place header, HeaderAt probe place header ∧
          frame.nalType = (classifyNalHeader header).description ∧
          (IdentifiedAsH264 probe ↔ ¬ HevcTyped header) := by
  refine ⟨fun place header => identifiedAsH264_of_header_iff hreaches, ?_⟩
  intro X image blockSize indices plan frames hcarved frame hframe hkind plan' clip hclip hprobe
  obtain ⟨place, header, hheader, hmore, htype⟩ := headerAt_of_fromPiece
    (fromPiece_of_carved hcarved frame hframe) (readExactAt_ok hclip) hprobe hreaches.long
  refine ⟨place, header, hheader, htype, ?_⟩
  rw [htype] at hkind
  rw [identifiedAsH264_of_header_iff hreaches hheader (h264_of_sliceOrKeyframe hkind)]
  constructor
  · intro h
    rcases h with h | h
    · exact h
    · omega
  · intro h
    exact .inl h

/-- A slice of twelve bytes with a given header. -/
def sliceStream (header : UInt8) : Bytes := [0, 0, 0, 1, header, 0x9A, 2, 3, 4, 5, 6, 7]

def sliceImage (header : UInt8) : EvidenceFile :=
  ⟨"dvr.img", ⟨sliceStream header, by simp [sliceStream]⟩, none⟩

theorem reaches_sliceStream (header : UInt8) : ReachesElementaryStep (sliceStream header) := by
  have hsignatures : between (sliceStream header) 4 8 ≠ ascii "ftyp" ∧
      windowPosition 4 (fun w => w == ascii "DHAV" || w == ascii "DAHV")
        ((sliceStream header).take 4096) = none ∧
      between (sliceStream header) 0 4 ≠ ascii "RIFF" ∧
      between (sliceStream header) 0 4 ≠ [0x1A, 0x45, 0xDF, 0xA3] := by
    revert header
    apply forall_byte
    decide +kernel
  obtain ⟨hftyp, hdahua, hriff, hebml⟩ := hsignatures
  refine ⟨by simp [sliceStream], if_neg hftyp, ?_, ?_, if_neg hebml⟩
  · unfold dahuaStream
    rw [hdahua]
  · apply if_neg
    intro h
    exact hriff h.1

theorem headerAt_sliceStream (header : UInt8) : HeaderAt (sliceStream header) 4 header := by
  refine ⟨?_, rfl⟩
  revert header
  apply forall_byte
  decide +kernel

/-- An IDR picture, on its own and carved out of an image. -/
theorem identifiedAsH264_iff_idr :
    IdentifiedAsH264 (sliceStream 0x65) ∧
      ∃ frames, carveCorruptedBlocks .sample (sliceImage 0x65) 16 [0] eager = .ok frames ∧
        ∀ frame ∈ frames, ∃ place header, HeaderAt (sliceStream 0x65) place header ∧
          frame.nalType = (classifyNalHeader header).description ∧
          (IdentifiedAsH264 (sliceStream 0x65) ↔ ¬ HevcTyped header) := by
  have hreaches := reaches_sliceStream 0x65
  refine ⟨?_, _, rfl, ?_⟩
  · exact ((identifiedAsH264_iff hreaches).1 4 0x65 (headerAt_sliceStream 0x65)
      (by decide)).mpr (.inl (by decide))
  · intro frame hframe
    have hslice : frame.nalType ∈ sliceOrKeyframe ∧ frame.byteOffset = 0 ∧ frame.length = 12 := by
      obtain rfl := List.mem_singleton.mp hframe
      decide
    have hclip : readExactAt .sample (sliceImage 0x65).content.bytes eager frame.byteOffset
        frame.length = .ok (sliceStream 0x65) := by
      rw [hslice.2.1, hslice.2.2]
      rfl
    exact (identifiedAsH264_iff hreaches).2 .sample (sliceImage 0x65) 16 [0] eager _ rfl frame
      hframe hslice.1 eager _ hclip (List.prefix_refl _)

/-- The slice of a reference picture is announced as an H.265 stream. -/
theorem referenceSlice_not_identified :
    ¬ ∀ probe place header, ReachesElementaryStep probe → HeaderAt probe place header →
      classifyNalHeader header ∈ h264Kinds → IdentifiedAsH264 probe := by
  intro h
  have hreaches := reaches_sliceStream 0x41
  have hheader := headerAt_sliceStream 0x41
  have hmistaken := h (sliceStream 0x41) 4 0x41 hreaches hheader (by decide)
  rw [identifiedAsH264_of_header_iff hreaches hheader (by decide)] at hmistaken
  exact absurd hmistaken (by decide)

end Dvrft.StreamKinds
