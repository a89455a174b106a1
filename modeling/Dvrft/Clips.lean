import Dvrft.Custody
import Dvrft.Lookups

/-!
Clips. The frames of a case are cut out of the evidence into files of their own. A clip
is a unit from code to end, so to carve it again gives the frame again, and nothing else.
-/

namespace Dvrft.Clips

open Chunks ShortReads Errors Machine Platform Crates Sqlite Acquisition CaseFiles Database
  Carving StartCodes StreamKinds Reporting Interference Custody Gregorian

section Units

variable {xs : Bytes} {u : CodedUnit}

theorem length_unit (hu : Delimited xs u) :
    ((xs.drop u.start).take (u.stop - u.start)).length = u.stop - u.start := by
  have hstop := hu.stop_le_length
  rw [List.length_take, List.length_drop]
  omega

/-- The only code in a unit is the one that it begins with. -/
theorem codeAt_unit (hu : Delimited xs u) {p n : ℕ} :
    CodeAt ((xs.drop u.start).take (u.stop - u.start)) p n ↔ p = 0 ∧ n = u.codeLength := by
  have hlength := length_unit hu
  have hnonempty := hu.nonempty
  have hzero : ∀ i, i < u.stop - u.start →
      ((xs.drop u.start).take (u.stop - u.start))[i]? = xs[u.start + i]? := by
    intro i hi
    rw [List.getElem?_take_of_lt hi, List.getElem?_drop]
  constructor
  · intro h
    obtain ⟨q, hpattern, hcase⟩ := h
    have hinside := hpattern.lt
    rw [hlength] at hinside
    have hthere := (patternAt_piece hinside).mp hpattern
    rcases hcase with ⟨⟨-, hbefore⟩, rfl, rfl⟩ | ⟨hbefore, hbehind, rfl, rfl⟩
    · rw [Nat.add_sub_cancel, hzero p (by omega)] at hbefore
      have hfirst := longCode_in_unit hu (by omega) hbefore hthere
      exact ⟨hfirst.1, hfirst.2.symm⟩
    · rcases Nat.eq_zero_or_pos q with rfl | hpos
      · refine ⟨rfl, ?_⟩
        obtain ⟨q', hpattern', ⟨-, rfl, -⟩ | ⟨-, -, -, hshort⟩⟩ := hu.code
        · -- the one of a short code is the third zero of a long one
          have hone := hthere.2.2
          rw [Nat.add_zero] at hone
          exact absurd (hone.symm.trans hpattern'.2.1) (by decide)
        · exact hshort.symm
      · have hcode : CodeAt xs (u.start + q) 3 := by
          refine ⟨u.start + q, hthere, .inr ⟨?_, ?_, rfl, rfl⟩⟩
          · intro hbefore'
            apply hbefore
            refine ⟨hpos, ?_⟩
            rw [hzero (q - 1) (by omega), ← Nat.add_sub_assoc hpos]
            exact hbefore'.2
          · have hstop := hu.stop_le_length
            omega
        rcases hu.next _ _ hcode with hfirst | hlast
        · omega
        · omega
  · rintro ⟨rfl, rfl⟩
    obtain ⟨q, hpattern, ⟨hbefore, rfl, hlong⟩ | ⟨-, -, rfl, hshort⟩⟩ := hu.code
    · refine ⟨1, (patternAt_piece (by omega)).mpr hpattern, .inl ⟨⟨Nat.one_pos, ?_⟩, rfl, hlong⟩⟩
      rw [Nat.sub_self, hzero 0 (by omega)]
      exact hbefore.2
    · refine ⟨0, (patternAt_piece (by omega)).mpr hpattern, .inr ⟨?_, by omega, rfl, hshort⟩⟩
      exact fun hbefore => absurd hbefore.1 (Nat.lt_irrefl 0)

theorem startCodes_unit (hu : Delimited xs u) :
    startCodes 0 ((xs.drop u.start).take (u.stop - u.start)) = [(0, u.codeLength)] := by
  have hmem : ∀ x, x ∈ startCodes 0 ((xs.drop u.start).take (u.stop - u.start)) ↔
      x = (0, u.codeLength) := by
    intro x
    rw [mem_startCodes_zero, codeAt_unit hu, Prod.ext_iff]
  have hapart := startCodes_pairwise 0 ((xs.drop u.start).take (u.stop - u.start))
  have hpositive : 0 < u.codeLength := by
    obtain ⟨q, -, ⟨-, -, hlong⟩ | ⟨-, -, -, hshort⟩⟩ := hu.code
    · omega
    · omega
  cases hcodes : startCodes 0 ((xs.drop u.start).take (u.stop - u.start)) with
  | nil =>
    have hfirst := (hmem _).mpr rfl
    rw [hcodes] at hfirst
    exact absurd hfirst List.not_mem_nil
  | cons x rest =>
    rw [hcodes] at hmem hapart
    obtain rfl := (hmem x).mp (List.mem_cons_self ..)
    cases rest with
    | nil => rfl
    | cons y rest =>
      obtain rfl := (hmem y).mp (by simp)
      have hgap := (List.pairwise_cons.mp hapart).1 _ (List.mem_cons_self ..)
      dsimp only at hgap
      omega

theorem units_unit (hu : Delimited xs u) :
    units 0 ((xs.drop u.start).take (u.stop - u.start)) =
      [⟨0, u.codeLength, u.stop - u.start⟩] := by
  have hnonempty := hu.nonempty
  have hbehind : ¬ u.stop - u.start ≤ 0 + u.codeLength := by omega
  rw [units, startCodes_unit hu, length_unit hu, Nat.zero_add]
  exact (List.append_nil _).trans (if_neg hbehind)

end Units

/-- The bytes that a frame names. -/
def clipOf (content : Bytes) (frame : CarvedFrame) : Bytes :=
  (content.drop frame.byteOffset).take frame.length

/-- What carving the clip of a frame reports: the frame at the front, unless the clip
is too short to be looked at. -/
def recarved (frame : CarvedFrame) : List CarvedFrame :=
  if frame.length < 5 then [] else [{ frame with byteOffset := 0 }]

variable {X : Crates} {content : Bytes} {frame : CarvedFrame}

/-- A frame lies in the evidence. -/
theorem fromPiece_inside (h : FromPiece X content frame) :
    0 < frame.length ∧ frame.byteOffset + frame.length ≤ content.length := by
  obtain ⟨place, size, u, hu, rfl⟩ := h
  have hstop := hu.stop_le_length
  have hnonempty := hu.nonempty
  rw [List.length_take, List.length_drop] at hstop
  simp only [frameOf, CodedUnit.shift, List.length_take, List.length_drop]
  omega

/-- The clip of a unit's frame is the unit. -/
theorem clipOf_frameOf (X : Crates) (content : Bytes) (u : CodedUnit) :
    clipOf content (frameOf X content u) = (content.drop u.start).take (u.stop - u.start) := by
  unfold clipOf frameOf
  dsimp only
  rw [List.length_take]
  exact List.take_eq_take_min.symm

theorem blake3Hex_clipOf (h : FromPiece X content frame) :
    X.blake3Hex (clipOf content frame) = frame.blake3Hash := by
  obtain ⟨place, size, u, -, rfl⟩ := h
  rw [clipOf_frameOf]
  rfl

/-- A unit of a piece of the content, at its place in the content. -/
theorem unit_shift {place size : ℕ} {u : CodedUnit}
    (hu : Delimited ((content.drop place).take size) u) :
    (content.drop (place + u.start)).take (place + u.stop - (place + u.start)) =
      (((content.drop place).take size).drop u.start).take (u.stop - u.start) := by
  have hstop := hu.stop_le_length
  have hnonempty := hu.nonempty
  rw [List.length_take, List.length_drop] at hstop
  rw [List.drop_take, List.take_take, List.drop_drop, Nat.min_eq_left (by omega),
    Nat.add_sub_add_left]

/-- To carve a clip again gives its frame again. -/
theorem carveBuffer_clip (h : FromPiece X content frame) (hlen : content.length < 2 ^ 64) :
    (carveBuffer X (clipOf content frame) 0 : Carved (List CarvedFrame)) =
      .ok (recarved frame) := by
  obtain ⟨place, size, u, hu, rfl⟩ := h
  have hclip : clipOf content (frameOf X content (u.shift place)) =
      (((content.drop place).take size).drop u.start).take (u.stop - u.start) := by
    rw [clipOf_frameOf]
    exact unit_shift hu
  have hlength := congrArg List.length (unit_shift hu)
  rw [length_unit hu] at hlength
  have hframe : (frameOf X content (u.shift place)).length = u.stop - u.start := hlength
  have hnonempty := hu.nonempty
  have hshort : (clipOf content (frameOf X content (u.shift place))).length < 2 ^ 64 := by
    rw [clipOf, List.length_take, List.length_drop]
    omega
  have hcarved := carveBuffer_eq X hshort 0
    (clipOf content (frameOf X content (u.shift place))).length
  rw [List.drop_zero, List.take_length] at hcarved
  rw [hcarved, carvedUnits, recarved, hclip, length_unit hu, hframe]
  split_ifs with hlost
  · rfl
  · rw [units_unit hu, List.map_singleton]
    have hheader : ((((content.drop place).take size).drop u.start).take
        (u.stop - u.start)).getD u.codeLength 0 =
          content.getD (place + u.start + u.codeLength) 0 := by
      rw [← unit_shift hu, List.getD_eq_getElem?_getD, List.getD_eq_getElem?_getD,
        List.getElem?_take_of_lt (by omega), List.getElem?_drop]
    have hwhole : (((((content.drop place).take size).drop u.start).take
        (u.stop - u.start)).drop 0).take (u.stop - u.start - 0) =
          (content.drop (place + u.start)).take (place + u.stop - (place + u.start)) := by
      rw [List.drop_zero, Nat.sub_zero, unit_shift hu, List.take_take, Nat.min_self]
    simp only [frameOf, CodedUnit.shift, hheader, hwhole, hlength, Nat.zero_add]

/-- Text up to the first separator is the same in equal texts. -/
theorem append_separator_inj {α : Type} {a : α} {xs ys xs' ys' : List α} (hxs : a ∉ xs)
    (hys : a ∉ ys) (h : xs ++ a :: xs' = ys ++ a :: ys') : xs = ys := by
  induction xs generalizing ys with
  | nil =>
    cases ys with
    | nil => rfl
    | cons y ys =>
      obtain ⟨rfl, -⟩ := List.cons.inj h
      exact absurd (List.mem_cons_self ..) hys
  | cons x xs ih =>
    cases ys with
    | nil =>
      obtain ⟨rfl, -⟩ := List.cons.inj h
      exact absurd (List.mem_cons_self ..) hxs
    | cons y ys =>
      obtain ⟨rfl, hrest⟩ := List.cons.inj h
      rw [ih (fun hx => hxs (List.mem_cons_of_mem _ hx)) (fun hy => hys (List.mem_cons_of_mem _ hy))
        hrest]

theorem not_mem_padded (width n : ℕ) : '_' ∉ padded width n := by
  intro h
  rcases List.mem_append.mp h with hzero | hdigit
  · exact absurd (List.eq_of_mem_replicate hzero) (by decide)
  · exact absurd (Nat.isDigit_of_mem_toDigits (by omega) (by omega) hdigit) (by decide)

/-- The file of `--out-dir` for frame `i`. -/
def frameName (i : ℕ) (frame : CarvedFrame) : String :=
  "carved_frame_" ++ String.ofList (padded 4 i) ++ "_" ++
    (if frame.isKeyframe then "key" else "slice") ++ ".h264"

/-- Names that begin alike and go on with a number and a separator tell the number. -/
theorem number_of_name {start : String} {i j : ℕ} {rest rest' : List Char}
    (h : start.toList ++ (padded 4 i ++ '_' :: rest) = start.toList ++ (padded 4 j ++ '_' :: rest')) :
    i = j :=
  padded_injective 4 (append_separator_inj (not_mem_padded 4 i) (not_mem_padded 4 j)
    (List.append_cancel_left h))

/-- A file name from which the number of the frame can be told. -/
def TellsNumber (name : ℕ → CarvedFrame → String) : Prop :=
  ∀ i j f g, name i f = name j g → i = j

theorem tellsNumber_clipName : TellsNumber clipName := by
  intro i j f g h
  have hname : ∀ k (frame : CarvedFrame), ∃ rest, (clipName k frame).toList =
      "carved_clip_".toList ++ (padded 4 k ++ '_' :: rest) := by
    intro k frame
    refine ⟨(toString frame.byteOffset).toList ++ ("_".toList ++
      ((if frame.isKeyframe then "key" else "slice").toList ++ ".h264".toList)), ?_⟩
    simp only [clipName, String.toList_append, String.toList_ofList, List.append_assoc]
    rfl
  obtain ⟨rest, hrest⟩ := hname i f
  obtain ⟨rest', hrest'⟩ := hname j g
  exact number_of_name (hrest.symm.trans ((congrArg String.toList h).trans hrest'))

theorem tellsNumber_frameName : TellsNumber frameName := by
  intro i j f g h
  have hname : ∀ k (frame : CarvedFrame), ∃ rest, (frameName k frame).toList =
      "carved_frame_".toList ++ (padded 4 k ++ '_' :: rest) := by
    intro k frame
    refine ⟨(if frame.isKeyframe then "key" else "slice").toList ++ ".h264".toList, ?_⟩
    simp only [frameName, String.toList_append, String.toList_ofList, List.append_assoc]
    rfl
  obtain ⟨rest, hrest⟩ := hname i f
  obtain ⟨rest', hrest'⟩ := hname j g
  exact number_of_name (hrest.symm.trans ((congrArg String.toList h).trans hrest'))

/-- Files that are named by distinct numbers have distinct names. -/
theorem nodup_names {name : ℕ → CarvedFrame → String}
    (hname : TellsNumber name) {ps : List (CarvedFrame × ℕ)} (hps : (ps.map Prod.snd).Nodup) :
    (ps.map fun p => name p.2 p.1).Nodup := by
  rw [List.nodup_map_iff_inj_on (List.Nodup.of_map _ hps)]
  intro p hp q hq h
  exact List.inj_on_of_nodup_map hps hp hq (hname _ _ _ _ h)

/-- The frames that are exported, with their numbers. -/
def numbered (frames : List CarvedFrame) : List (CarvedFrame × ℕ) :=
  frames.zipIdx.filter fun p => p.1.length != 0

theorem nodup_numbered (frames : List CarvedFrame) : ((numbered frames).map Prod.snd).Nodup := by
  have hall : (frames.zipIdx.map Prod.snd).Nodup := by
    rw [List.zipIdx_map_snd]
    exact List.nodup_range'
  exact hall.sublist (List.filter_sublist.map _)

theorem foldlM_exportClip {X : Crates} {content : Bytes} {plans : ℕ → Schedule IoError}
    {out : OutputIo} {ps : List (CarvedFrame × ℕ)} {s s' : ExportState}
    (h : ps.foldlM (exportClip X content plans out) s = .ok s') :
    s'.clips = s.clips ++ (ps.filter fun p => p.1.length != 0).map
      fun p => ⟨clipName p.2 p.1, clipOf content p.1⟩ := by
  induction ps generalizing s with
  | nil =>
    rw [← Except.ok.inj h]
    simp
  | cons p rest ih =>
    rw [List.foldlM_cons] at h
    obtain ⟨s₁, hstep, h⟩ := bind_ok.mp h
    rw [ih h]
    unfold exportClip at hstep
    dsimp only at hstep
    by_cases hempty : p.1.length = 0
    · rw [if_pos hempty] at hstep
      rw [← Except.ok.inj hstep, List.filter_cons, if_neg (by simpa using hempty)]
    · rw [if_neg hempty] at hstep
      obtain ⟨buf, hbuf, hstep⟩ := bind_ok.mp hstep
      obtain ⟨-, -, hstep⟩ := bind_ok.mp hstep
      have hkept : (p.1.length != 0) = true := by simpa using hempty
      rw [← Except.ok.inj hstep, List.filter_cons, if_pos hkept, List.map_cons,
        readExactAt_ok hbuf]
      exact List.append_assoc _ _ _

theorem openEvidence_ok {file : EvidenceFile} {content : Bytes}
    (h : openEvidence (some file) = .ok content) : content = file.content.bytes := by
  unfold openEvidence at h
  dsimp only at h
  cases hrefusal : file.refusal with
  | some e => simp [hrefusal, fail] at h
  | none =>
    rw [hrefusal] at h
    exact (Except.ok.inj h).symm

/-- What an export writes: the clip of each frame that has bytes. -/
theorem exportClips_ok {X : Crates} {evidence : Option EvidenceFile}
    {plans : ℕ → Schedule IoError} {frames : List CarvedFrame} {outDir : String} {out : OutputIo}
    {summary : ExportSummary} {clips : List Clip}
    (h : exportClips X evidence plans frames outDir out = .ok (summary, clips)) :
    ∃ file, evidence = some file ∧ summary.rawH264Exported = clips.length ∧
      clips = (numbered frames).map fun p =>
        ⟨clipName p.2 p.1, clipOf file.content.bytes p.1⟩ := by
  simp only [exportClips, bind_ok] at h
  obtain ⟨-, -, content, hcontent, s, hfold, h⟩ := h
  obtain ⟨rfl, rfl⟩ := Prod.mk.inj (Except.ok.inj h)
  cases evidence with
  | none => simp [openEvidence, fail] at hcontent
  | some file =>
    refine ⟨file, rfl, rfl, ?_⟩
    rw [foldlM_exportClip hfold, openEvidence_ok hcontent, List.nil_append]
    rfl

/-- The files that a carving run leaves under `--out-dir`. -/
def exportFrames (X : Crates) (evidence : Option EvidenceFile) (plans : ℕ → Schedule IoError)
    (outDir : Option IoError) (files : ℕ → Option IoError) (carved : List CarvedFrame) :
    Reported (List Clip) := do
  wrote outDir
  let content ← openEvidence evidence
  carved.zipIdx.mapM fun p => do
    let buf ← readExactAt X content (plans p.2) p.1.byteOffset p.1.length
    wrote (files p.2)
    .ok ⟨frameName p.2 p.1, buf⟩

/-- The clip is the frame's bytes, has the frame's hash, and is carved into the frame. -/
structure CutFrom (X : Crates) (content : Bytes) (frame : CarvedFrame) (clip : Clip) : Prop where
  bytes : clip.bytes = clipOf content frame
  blake3Hash : X.blake3Hex clip.bytes = frame.blake3Hash
  again : carveBuffer X clip.bytes 0 = .ok (recarved frame)

theorem cutFrom_clipOf (h : FromPiece X content frame) (hlen : content.length < 2 ^ 64)
    (name : String) : CutFrom X content frame ⟨name, clipOf content frame⟩ :=
  ⟨rfl, blake3Hex_clipOf h, carveBuffer_clip h hlen⟩

theorem forall₂_cutFrom {frames : List CarvedFrame} (hframes : ∀ f ∈ frames, FromPiece X content f)
    (hlen : content.length < 2 ^ 64) (name : ℕ → CarvedFrame → String) :
    List.Forall₂ (CutFrom X content) frames
      (frames.zipIdx.map fun p => ⟨name p.2 p.1, clipOf content p.1⟩) := by
  rw [List.forall₂_map_right_iff]
  refine List.forall₂_iff_get.mpr ⟨List.length_zipIdx.symm, fun i hi hi' => ?_⟩
  simp only [List.get_eq_getElem, List.getElem_zipIdx]
  exact cutFrom_clipOf (hframes _ (List.getElem_mem hi)) hlen _

theorem numbered_of_fromPiece {frames : List CarvedFrame}
    (hframes : ∀ f ∈ frames, FromPiece X content f) : numbered frames = frames.zipIdx := by
  refine List.filter_eq_self.mpr fun p hp => ?_
  have hpos := (fromPiece_inside (hframes _ (List.fst_mem_of_mem_zipIdx hp))).1
  simpa using hpos.ne'

theorem exportFrames_ok {image : EvidenceFile} {plans : ℕ → Schedule IoError}
    {outDir : Option IoError} {files : ℕ → Option IoError} {carved : List CarvedFrame}
    {clips : List Clip} (h : exportFrames X (some image) plans outDir files carved = .ok clips) :
    clips = carved.zipIdx.map fun p => ⟨frameName p.2 p.1, clipOf image.content.bytes p.1⟩ := by
  simp only [exportFrames, bind_ok, mapM_ok] at h
  obtain ⟨-, -, content, hcontent, hall⟩ := h
  rw [openEvidence_ok hcontent] at hall
  generalize carved.zipIdx = ps at hall
  induction hall with
  | nil => rfl
  | cons hstep _ ih =>
    obtain ⟨buf, hbuf, -, -, hstep⟩ := hstep
    rw [List.map_cons, ih, ← Except.ok.inj hstep, readExactAt_ok hbuf]
    rfl

/-- The files of a carving run are its frames, each under a name of its own. -/
theorem exportFrames_carved {image : EvidenceFile} {blockSize : ℕ} {indices : List ℕ}
    {plan : Schedule IoError} {plans : ℕ → Schedule IoError} {outDir : Option IoError}
    {files : ℕ → Option IoError} {carved : List CarvedFrame} {clips : List Clip}
    (hcarved : carveCorruptedBlocks X image blockSize indices plan = .ok carved)
    (h : exportFrames X (some image) plans outDir files carved = .ok clips) :
    List.Forall₂ (CutFrom X image.content.bytes) carved clips ∧
      (clips.map Clip.fileName).Nodup := by
  have hlen : image.content.bytes.length < 2 ^ 64 := by
    have hsize := image.content.size_lt
    omega
  have hframes := fromPiece_of_carved hcarved
  have hnumbered := nodup_numbered carved
  rw [numbered_of_fromPiece hframes] at hnumbered
  have hnames := nodup_names tellsNumber_frameName hnumbered
  rw [exportFrames_ok h]
  refine ⟨forall₂_cutFrom hframes hlen frameName, ?_⟩
  rw [List.map_map]
  exact hnames

/-- The confidence of a unit is a number, and not zero. -/
theorem confidence_frameOf (X : Crates) (content : Bytes) (u : CodedUnit) :
    (frameOf X content u).confidence.isNaN = false ∧
      ((frameOf X content u).confidence == 0.0) = false := by
  unfold frameOf
  dsimp only
  generalize classifyNalHeader (content.getD (u.start + u.codeLength) 0) = kind
  cases kind with
  | unknownNal b =>
    exact (by decide +kernel : (0.50 : Float).isNaN = false ∧ ((0.50 : Float) == 0.0) = false)
  | _ => decide +kernel

/-- A frame of the evidence is read back as it was stored. -/
theorem read_fromPiece (h : FromPiece X content frame) (hlen : content.length < 2 ^ 64)
    (evidenceId : ℤ) : (CarvedRow.ofFrame evidenceId frame).read = .ok frame := by
  obtain ⟨hpos, hinside⟩ := fromPiece_inside h
  have hconfidence : frame.confidence.isNaN = false ∧ (frame.confidence == 0.0) = false := by
    obtain ⟨place, size, u, -, rfl⟩ := h
    exact confidence_frameOf X content _
  obtain ⟨hnumber, hnonzero⟩ := hconfidence
  have hsame : unsignedZero frame.confidence = frame.confidence :=
    if_neg (ne_true_of_eq_false hnonzero)
  rw [Exhibits.read_frame evidenceId (by simpa [Rerun.frameReals] using hnumber),
    Exhibits.frame64, Nat.mod_eq_of_lt (by omega), Nat.mod_eq_of_lt (by omega), hsame]

theorem mem_of_forall₂ {α β : Type} {R : α → β → Prop} {as : List α} {bs : List β}
    (h : List.Forall₂ R as bs) {b : β} (hb : b ∈ bs) : ∃ a ∈ as, R a b := by
  induction h with
  | nil => exact absurd hb List.not_mem_nil
  | cons hab _ ih =>
    rcases List.mem_cons.mp hb with rfl | hb
    · exact ⟨_, List.mem_cons_self .., hab⟩
    · obtain ⟨a, ha, hR⟩ := ih hb
      exact ⟨a, List.mem_cons_of_mem _ ha, hR⟩

/-- The frames that a case answers with are frames of its evidence. -/
theorem fromPiece_of_query {manifest : AcquisitionManifest} {visited : Set Pipeline.Workspace}
    {db : CaseDatabase} (hbacked : Backed X manifest content visited db.tables)
    (hlen : content.length < 2 ^ 64)
    {frames : List CarvedFrame} (h : db.queryCarvedRecords none = .ok frames) :
    ∀ f ∈ frames, FromPiece X content f := by
  intro f hf
  obtain ⟨row, hrow, hread⟩ := mem_of_forall₂ (CaseDatabase.queryCarvedRecords_ok.mp h).2.2 hf
  rw [(perm_orderBy _ _).mem_iff] at hrow
  obtain ⟨-, g, hg, heq⟩ := hbacked.frames row hrow
  rw [heq, read_fromPiece hg hlen, Except.ok.injEq] at hread
  rw [← hread]
  exact hg

/-- The clips of a report on a case that was examined in any way. -/
theorem report_clips {manifest : AcquisitionManifest} {content : FileContent}
    {path : String} {visits : List Visit}
    (hdirs : ∀ v ∈ visits, Unaltered manifest content v.workspace.dir) {dir : CaseDir}
    (hdir : Unaltered manifest content dir) {dbPath outDir now : String} {io : DbIo}
    {examiner : ExaminerDetails} {out : OutputIo} {plans : ℕ → Schedule IoError}
    {outcome : CaseReportOutcome} {clips : List Clip}
    (h : generateCaseReport X dir dbPath ⟨some (runVisits X (fresh path) visits).tables, io⟩
      examiner outDir out plans now = .ok (outcome, clips)) :
    ∃ frames : List CarvedFrame,
      (CaseDatabase.mk dbPath (runVisits X (fresh path) visits).tables io).queryCarvedRecords
        none = .ok frames ∧
      (∀ f ∈ frames, FromPiece X content.bytes f) ∧
      outcome.report.carvedFramesCount = frames.length ∧
      outcome.exportSummary.rawH264Exported = frames.length ∧
      clips = frames.zipIdx.map fun p => ⟨clipName p.2 p.1, clipOf content.bytes p.1⟩ := by
  have hlen : content.bytes.length < 2 ^ 64 := by
    have hsize := content.size_lt
    omega
  obtain ⟨m, opened, artifacts, hmanifest, hopen, hartifacts, hexport, -, -, -, -, -, hcount⟩ :=
    generateCaseReport_ok h
  obtain rfl := hdir.decoded m hmanifest
  obtain ⟨-, rfl⟩ := CaseDatabase.openFile_ok.mp hopen
  simp only [queryArtifacts, bind_ok] at hartifacts
  obtain ⟨records, -, carved, hcarved, events, -, detections, -, hout⟩ := hartifacts
  have hsame : artifacts.carved = carved := by rw [← Except.ok.inj hout]
  have hbacked : Backed X m content.bytes (seenBy visits)
      (runVisits X (fresh path) visits).tables := runVisits_backed X path hdirs
  have hframes := @fromPiece_of_query X _ m _ ⟨dbPath, _, io⟩ hbacked hlen _ hcarved
  obtain ⟨file, hfile, hraw, hclips⟩ := exportClips_ok hexport
  rw [hdir.evidence file hfile, hsame, numbered_of_fromPiece hframes] at hclips
  refine ⟨carved, hcarved, hframes, by rw [hcount, hsame], ?_, hclips⟩
  rw [hraw, hclips, List.length_map, List.length_zipIdx]

/-- However a case was examined, the report on its unchanged evidence exports every frame of
the database as a clip of its own, under a name of its own, that is carved into the frame. -/
theorem clips_after_visits {manifest : AcquisitionManifest} {content : FileContent}
    {path : String} {visits : List Visit}
    (hdirs : ∀ v ∈ visits, Unaltered manifest content v.workspace.dir) {dir : CaseDir}
    (hdir : Unaltered manifest content dir) {dbPath outDir now : String} {io : DbIo}
    {examiner : ExaminerDetails} {out : OutputIo} {plans : ℕ → Schedule IoError}
    {outcome : CaseReportOutcome} {clips : List Clip}
    (h : generateCaseReport X dir dbPath ⟨some (runVisits X (fresh path) visits).tables, io⟩
      examiner outDir out plans now = .ok (outcome, clips)) :
    ∃ frames : List CarvedFrame,
      (CaseDatabase.mk dbPath (runVisits X (fresh path) visits).tables io).queryCarvedRecords
        none = .ok frames ∧
      outcome.report.carvedFramesCount = frames.length ∧
      outcome.exportSummary.rawH264Exported = frames.length ∧
      List.Forall₂ (CutFrom X content.bytes) frames clips ∧
      (clips.map Clip.fileName).Nodup := by
  have hlen : content.bytes.length < 2 ^ 64 := by
    have hsize := content.size_lt
    omega
  obtain ⟨frames, hquery, hframes, hcount, hraw, rfl⟩ := report_clips hdirs hdir h
  have hnumbered := nodup_numbered frames
  rw [numbered_of_fromPiece hframes] at hnumbered
  refine ⟨frames, hquery, hcount, hraw, forall₂_cutFrom hframes hlen clipName, ?_⟩
  rw [List.map_map]
  exact nodup_names tellsNumber_clipName hnumbered

/-- One block with a keyframe in it. -/
def keyframeBlock : FileContent := ⟨[97, 0, 0, 1, 0x65, 1, 2, 3], by decide⟩

def keyframeDir : CaseDir :=
  .holding (plainManifest .sample "evidence.raw" "case" "" 8 keyframeBlock.bytes) "evidence.raw"
    keyframeBlock

/-- A parse run and a carving run. -/
def keyframeVisits : List Visit :=
  [⟨.sound, { twoCamerasWorkspace with dir := keyframeDir }, .parse⟩,
    ⟨.sound, { twoCamerasWorkspace with dir := keyframeDir }, .carve⟩]

theorem unaltered_keyframeDir : Unaltered
    (plainManifest .sample "evidence.raw" "case" "" 8 keyframeBlock.bytes) keyframeBlock
    keyframeDir :=
  unaltered_holding _ _ _

theorem clips_after_visits_keyframe : ∃ outcome clips,
    generateCaseReport .sample keyframeDir "case.db"
      ⟨some (runVisits .sample (fresh "case.db") keyframeVisits).tables, .sound⟩
      ⟨"", "", "", "", ""⟩ "out" .sound (fun _ => eager) "" = .ok (outcome, clips) ∧
    outcome.report.carvedFramesCount = 1 ∧ clips.length = 1 := by
  have hdirs : ∀ v ∈ keyframeVisits, Unaltered
      (plainManifest .sample "evidence.raw" "case" "" 8 keyframeBlock.bytes) keyframeBlock
      v.workspace.dir := by
    simp only [keyframeVisits, List.forall_mem_cons]
    exact ⟨unaltered_keyframeDir, unaltered_keyframeDir, by simp⟩
  obtain ⟨⟨outcome, clips⟩, hreport⟩ := exists_ok
    (x := generateCaseReport .sample keyframeDir "case.db"
      ⟨some (runVisits .sample (fresh "case.db") keyframeVisits).tables, .sound⟩
      ⟨"", "", "", "", ""⟩ "out" .sound (fun _ => eager) "") (by decide +kernel)
  obtain ⟨frames, hquery, hcount, -, hcut, -⟩ :=
    clips_after_visits hdirs unaltered_keyframeDir hreport
  have hone : ((CaseDatabase.mk "case.db"
      (runVisits .sample (fresh "case.db") keyframeVisits).tables .sound).queryCarvedRecords
        none).map List.length = .ok 1 := by decide +kernel
  rw [hquery] at hone
  have hlength : frames.length = 1 := Except.ok.inj hone
  exact ⟨outcome, clips, hreport, hcount.trans hlength, hcut.length_eq.symm.trans hlength⟩

end Dvrft.Clips
