import Dvrft.Clips
import Dvrft.FrontEnd

/-!
The analysis of one video file in the front end. The file is cut into its units, or into
chunks if it has none, and every piece is analysed as a frame of its own. The clips of a
report come back as the frames that they were cut out for.
-/

namespace Dvrft.VideoAnalysis

open Chunks ShortReads Errors Machine Platform Acquisition CaseFiles Database Carving StartCodes
  StreamKinds Gregorian Analytics Summaries Reporting Interference Custody Clips FrontEnd

structure VideoReply where
  videoPath : String
  fileSize : ℕ
  totalFramesAnalyzed : ℕ
  totalEntitiesDetected : ℕ
  highRelevanceFrames : ℕ
  entityCounts : List (String × ℕ)
  leads : List FrameAnalytics

def defaultVideoPath : String :=
  "../samples/case_ident_06/report/clips/carved_clip_0000_90144_key.h264"

/-- `read_to_end`. Its failure is not looked at: the buffer holds what came before. -/
def readToEnd (content : Bytes) (plan : Schedule IoError) : Bytes :=
  match (Reader.opened content plan).readFull content.length with
  | .ok (buf, _) => buf
  | .error (_, n) => content.take n

/-- `format!("2026-03-18T10:{:02}:{:02}Z", (idx / 60) % 60, idx % 60)`. -/
def normTs (idx : ℕ) : String :=
  "2026-03-18T10:" ++ String.ofList (twoDigits (idx / 60 % 60)) ++ ":" ++
    String.ofList (twoDigits (idx % 60)) ++ "Z"

section Handler

variable (X : Crates)

def tsSec (idx : ℕ) : Carved UInt64 := do
  let twice ← X.build.mul idx 2
  let seconds ← X.build.add 1773800000 twice
  .ok (UInt64.ofNat seconds)

/-- The analysis of a carved frame, number `p.2` of them. -/
def analyzeCarved (buf : Bytes) (p : CarvedFrame × ℕ) : Carved FrameAnalytics := do
  let stop ← X.build.add p.1.byteOffset p.1.length
  let frameSlice ← slice buf p.1.byteOffset (min stop buf.length)
  let seconds ← tsSec X p.2
  analyzeFrame X p.2 1 seconds (normTs p.2) frameSlice p.1.isKeyframe

def analyzeChunk (p : Bytes × ℕ) : Carved FrameAnalytics := do
  let seconds ← tsSec X p.2
  analyzeFrame X p.2 1 seconds (normTs p.2) p.1 (p.2 % 5 == 0)

def frameAnalyses (buf : Bytes) : Carved (List FrameAnalytics) := do
  let carvedFrames ← carveBuffer X buf 0
  if carvedFrames.isEmpty then (blocks 4096 buf).zipIdx.mapM (analyzeChunk X)
  else carvedFrames.zipIdx.mapM (analyzeCarved X buf)

def videoReply (path : String) (buf : Bytes) (analyses : List FrameAnalytics) : VideoReply :=
  let summary := summarizeFrames analyses 0.40 20
  { videoPath := path
    fileSize := buf.length
    totalFramesAnalyzed := summary.totalFramesAnalyzed
    totalEntitiesDetected := summary.totalEntitiesDetected
    highRelevanceFrames := summary.highRelevanceFrames
    entityCounts := summary.entityCounts
    leads := summary.topLeads }

/-- `POST /api/analyze-video`. -/
def analyzeVideo (host : Host) (videoPath : Option String) : Carved VideoReply :=
  let path := cleanPath (videoPath.getD defaultVideoPath)
  match host.file path with
  | none => fail (.io .notFound)
  | some file =>
    match file.refusal with
    | some e => fail (.io e)
    | none => do
      let buf := readToEnd file.content.bytes (host.plans 0)
      let analyses ← frameAnalyses X buf
      .ok (videoReply path buf analyses)

end Handler

/-- Whatever the reads do, a beginning of the file is read, and all of it if none fails. -/
theorem readToEnd_eq (content : Bytes) (plan : Schedule IoError) :
    ∃ n, readToEnd content plan = content.take n ∧ (Legal plan → content.length ≤ n) := by
  unfold readToEnd
  cases hread : (Reader.opened content plan).readFull content.length with
  | ok p =>
    refine ⟨content.length, ?_, fun _ => le_rfl⟩
    exact (readFull_ok hread).1
  | error p =>
    refine ⟨p.2, rfl, fun hlegal => ?_⟩
    obtain ⟨r', hfull, -⟩ := readFull_legal content.length (Reader.opened content plan) hlegal
    rw [hfull] at hread
    cases hread

/-- The pieces of a file, each with whether it counts as a keyframe. Of the chunks every
fifth does. -/
def pieces (buf : Bytes) : List (Bytes × Bool) :=
  match carvedUnits 0 buf with
  | [] => (blocks 4096 buf).zipIdx.map fun p => (p.1, p.2 % 5 == 0)
  | us => us.map fun u => ((buf.drop u.start).take (u.stop - u.start),
      (classifyNalHeader (buf.getD (u.start + u.codeLength) 0)).isKeyframe)

/-- The analysis of piece number `p.2`, two seconds after the one before it. -/
def analyzePiece (X : Crates) (p : (Bytes × Bool) × ℕ) : Carved FrameAnalytics :=
  analyzeFrame X p.2 1 (UInt64.ofNat (1773800000 + p.2 * 2)) (normTs p.2) p.1.1 p.1.2

theorem zipIdx_map_zipIdx {α β : Type} (f : α × ℕ → β) (xs : List α) :
    (xs.zipIdx.map f).zipIdx = xs.zipIdx.map fun p => (f p, p.2) := by
  refine List.ext_getElem (by simp) fun i hi hi' => ?_
  simp

/-- Spans that follow each other leave, of what is behind `k`, a part in its order. -/
theorem flatten_spans_sublist {α : Type} (xs : List α) {spans : List CodedUnit}
    (hordered : spans.Pairwise fun u v => u.stop ≤ v.start) (hspan : ∀ u ∈ spans, u.start ≤ u.stop)
    {k : ℕ} (hk : ∀ u ∈ spans, k ≤ u.start) :
    ((spans.map fun u => (xs.drop u.start).take (u.stop - u.start)).flatten).Sublist
      (xs.drop k) := by
  induction spans generalizing k with
  | nil => exact List.nil_sublist _
  | cons u rest ih =>
    obtain ⟨hfirst, hrest⟩ := List.pairwise_cons.mp hordered
    obtain ⟨hu, hspans⟩ := List.forall_mem_cons.mp hspan
    have hbehind := ih hrest hspans hfirst
    have hsplit : (xs.drop u.start).take (u.stop - u.start) ++ xs.drop u.stop =
        xs.drop u.start := by
      conv_rhs => rw [← List.take_append_drop (u.stop - u.start) (xs.drop u.start)]
      rw [List.drop_drop, Nat.add_sub_cancel' hu]
    rw [List.map_cons, List.flatten_cons]
    refine ((List.Sublist.refl _).append hbehind).trans ?_
    rw [hsplit]
    exact List.drop_sublist_drop_left xs (hk u (List.mem_cons_self ..))

theorem carvedUnits_ordered (buf : Bytes) :
    (carvedUnits 0 buf).Pairwise fun u v => u.stop ≤ v.start := by
  unfold carvedUnits
  split_ifs
  · exact List.Pairwise.nil
  · exact unitsBetween_pairwise (startCodes_pairwise 0 buf)

/-- No byte is in two pieces, and the pieces are in the order of the file. -/
theorem pieces_sublist (buf : Bytes) : ((pieces buf).map Prod.fst).flatten.Sublist buf := by
  unfold pieces
  split
  · rw [List.map_map]
    have hblocks : (blocks 4096 buf).zipIdx.map
        (Prod.fst ∘ fun p : Bytes × ℕ => (p.1, p.2 % 5 == 0)) = blocks 4096 buf :=
      List.zipIdx_map_fst 0 _
    rw [hblocks, flatten_blocks 4096 buf (by decide)]
  · rw [List.map_map]
    refine flatten_spans_sublist buf (k := 0) (carvedUnits_ordered buf) ?_ fun u _ => Nat.zero_le _
    intro u hu
    have hbounds := mem_carvedUnits hu
    omega

theorem delimited_of_carvedUnits {buf : Bytes} {u : CodedUnit} (hu : u ∈ carvedUnits 0 buf) :
    Delimited buf u := by
  unfold carvedUnits at hu
  split_ifs at hu
  · exact absurd hu List.not_mem_nil
  · exact mem_units_iff.mp hu

/-- A piece has four bytes at least, if the file has units at all. -/
theorem four_le_unit {buf : Bytes} {u : CodedUnit} (hu : u ∈ carvedUnits 0 buf) :
    4 ≤ ((buf.drop u.start).take (u.stop - u.start)).length := by
  have hunit := delimited_of_carvedUnits hu
  have hnonempty := hunit.nonempty
  rw [length_unit hunit]
  obtain ⟨q, -, ⟨-, -, hlong⟩ | ⟨-, -, -, hshort⟩⟩ := hunit.code
  · omega
  · omega

theorem count_pieces (buf : Bytes) : 2 * (pieces buf).length ≤ buf.length + 2 := by
  have hinside := (pieces_sublist buf).length_le
  rw [List.length_flatten, List.map_map] at hinside
  by_cases hunits : carvedUnits 0 buf = []
  · have hchunks : (pieces buf).length = (blocks 4096 buf).length := by
      unfold pieces
      rw [hunits, List.length_map, List.length_zipIdx]
    rw [hchunks, length_blocks, blockCount]
    omega
  · have hfour : ∀ n ∈ (pieces buf).map (List.length ∘ Prod.fst), 4 ≤ n := by
      intro n hn
      obtain ⟨piece, hpiece, rfl⟩ := List.mem_map.mp hn
      unfold pieces at hpiece
      split at hpiece
      · next hnone => exact absurd hnone hunits
      · obtain ⟨u, hu, rfl⟩ := List.mem_map.mp hpiece
        exact four_le_unit hu
    have hmany := List.card_nsmul_le_sum _ 4 hfour
    rw [List.length_map, smul_eq_mul] at hmany
    omega

variable {X : Crates} {buf : Bytes}

theorem tsSec_eq {idx : ℕ} (h : 1773800000 + idx * 2 < 2 ^ 64) :
    tsSec X idx = .ok (UInt64.ofNat (1773800000 + idx * 2)) := by
  unfold tsSec
  rw [X.build.mul_of_lt (by omega), ok_bind, X.build.add_of_lt h, ok_bind]

theorem analyzeCarved_frameOf {u : CodedUnit} (hu : u ∈ carvedUnits 0 buf)
    (hlen : buf.length < 2 ^ 64) {idx : ℕ} (hidx : 1773800000 + idx * 2 < 2 ^ 64) :
    analyzeCarved X buf (frameOf X buf u, idx) =
      analyzePiece X (((buf.drop u.start).take (u.stop - u.start),
        (classifyNalHeader (buf.getD (u.start + u.codeLength) 0)).isKeyframe), idx) := by
  have hunit := delimited_of_carvedUnits hu
  have hnonempty := hunit.nonempty
  have hstop := hunit.stop_le_length
  have hend : u.start + (u.stop - u.start) = u.stop := by omega
  unfold analyzeCarved
  simp only [frameOf, length_unit hunit]
  rw [X.build.add_of_lt (by omega), ok_bind, hend, Nat.min_eq_left hstop,
    slice_of_le (by omega) hstop, ok_bind, tsSec_eq hidx, ok_bind]
  rfl

/-- The loop over the frames, and the loop over the chunks: one loop over the pieces. -/
theorem frameAnalyses_eq (X : Crates) (hlen : buf.length < 2 ^ 63) :
    frameAnalyses X buf = (pieces buf).zipIdx.mapM (analyzePiece X) := by
  have hcarved : carveBuffer X buf 0 = .ok ((carvedUnits 0 buf).map (frameOf X buf)) := by
    have hwhole := carveBuffer_eq X (show buf.length < 2 ^ 64 by omega) 0 buf.length
    rwa [List.drop_zero, List.take_length] at hwhole
  have htime : ∀ p ∈ (pieces buf).zipIdx, 1773800000 + p.2 * 2 < 2 ^ 64 := by
    intro p hp
    have hlt := List.snd_lt_of_mem_zipIdx hp
    have hcount := count_pieces buf
    omega
  unfold frameAnalyses
  rw [hcarved, ok_bind]
  cases hunits : carvedUnits 0 buf with
  | nil =>
    have hpieces : pieces buf = (blocks 4096 buf).zipIdx.map fun p => (p.1, p.2 % 5 == 0) := by
      unfold pieces
      rw [hunits]
    rw [hpieces, zipIdx_map_zipIdx] at htime ⊢
    rw [List.mapM_map]
    refine mapM_congr fun p hp => ?_
    have htime := htime _ (List.mem_map_of_mem hp)
    unfold analyzeChunk
    rw [tsSec_eq htime]
    rfl
  | cons u rest =>
    have hpieces : pieces buf = (u :: rest).map fun u =>
        ((buf.drop u.start).take (u.stop - u.start),
          (classifyNalHeader (buf.getD (u.start + u.codeLength) 0)).isKeyframe) := by
      unfold pieces
      rw [hunits]
    rw [hpieces, List.zipIdx_map] at htime ⊢
    rw [List.zipIdx_map, List.mapM_map, List.mapM_map]
    refine mapM_congr fun p hp => ?_
    have hmem : p.1 ∈ carvedUnits 0 buf := hunits ▸ List.fst_mem_of_mem_zipIdx hp
    exact analyzeCarved_frameOf hmem (by omega) (htime _ (List.mem_map_of_mem hp))

theorem totalGradient_le (payload : Bytes) : totalGradient payload ≤ 255 * (payload.length - 1) := by
  induction payload with
  | nil => exact Nat.zero_le _
  | cons a rest ih =>
    cases rest with
    | nil => exact Nat.zero_le _
    | cons b rest =>
      have ha := a.toNat_lt
      have hb := b.toNat_lt
      simp only [totalGradient, List.length_cons] at ih ⊢
      omega

theorem analyzePiece_ok (X : Crates) (p : (Bytes × Bool) × ℕ) (hlen : p.1.1.length ≤ 2 ^ 56) :
    ∃ analysis, analyzePiece X p = .ok analysis := by
  have henergy : ∃ energy, (computeMotionEnergy X p.1.1 : Carved Float) = .ok energy := by
    unfold computeMotionEnergy
    split_ifs
    · exact ⟨_, rfl⟩
    · have hfit : totalGradient p.1.1 < 2 ^ 64 := by
        have hle := totalGradient_le p.1.1
        omega
      unfold Build.fit
      rw [if_pos hfit]
      exact ⟨_, rfl⟩
  obtain ⟨energy, henergy⟩ := henergy
  unfold analyzePiece analyzeFrame
  rw [henergy]
  exact ⟨_, rfl⟩

/-- What the front end answers for a file that it can open. -/
theorem analyzeVideo_file (X : Crates) {host : Host} {videoPath : Option String}
    {file : EvidenceFile}
    (hfile : host.file (cleanPath (videoPath.getD defaultVideoPath)) = some file)
    (hopens : file.refusal = none) :
    analyzeVideo X host videoPath =
      (frameAnalyses X (readToEnd file.content.bytes (host.plans 0))).map
        (videoReply (cleanPath (videoPath.getD defaultVideoPath))
          (readToEnd file.content.bytes (host.plans 0))) := by
  unfold analyzeVideo
  dsimp only
  rw [hfile]
  dsimp only
  rw [hopens]
  dsimp only
  cases frameAnalyses X (readToEnd file.content.bytes (host.plans 0)) <;> rfl

/-- A file that can be opened is analysed as its pieces, however much of it can be read: no
byte twice, every piece two seconds after the one before it, and, unless the file is larger
than any disk, without a panic. -/
theorem analyzeVideo_pieces (X : Crates) {host : Host} {videoPath : Option String}
    {file : EvidenceFile}
    (hfile : host.file (cleanPath (videoPath.getD defaultVideoPath)) = some file)
    (hopens : file.refusal = none) :
    ∃ n, (Legal (host.plans 0) → file.content.bytes.length ≤ n) ∧
      analyzeVideo X host videoPath =
        ((pieces (file.content.bytes.take n)).zipIdx.mapM (analyzePiece X)).map
          (videoReply (cleanPath (videoPath.getD defaultVideoPath))
            (file.content.bytes.take n)) ∧
      ((pieces (file.content.bytes.take n)).map Prod.fst).flatten.Sublist
        (file.content.bytes.take n) ∧
      (file.content.bytes.length ≤ 2 ^ 56 → ∃ reply, analyzeVideo X host videoPath = .ok reply ∧
        reply.totalFramesAnalyzed = (pieces (file.content.bytes.take n)).length) := by
  obtain ⟨n, hread, hlegal⟩ := readToEnd_eq file.content.bytes (host.plans 0)
  have hsize := file.content.size_lt
  have hlen : (file.content.bytes.take n).length < 2 ^ 63 := by
    rw [List.length_take]
    omega
  have hanswer := analyzeVideo_file X hfile hopens
  rw [hread, frameAnalyses_eq X hlen] at hanswer
  refine ⟨n, hlegal, hanswer, pieces_sublist _, fun hsmall => ?_⟩
  have hall : ∀ p ∈ (pieces (file.content.bytes.take n)).zipIdx,
      ∃ analysis, analyzePiece X p = .ok analysis := by
    intro p hp
    apply analyzePiece_ok
    have hpiece := List.mem_map_of_mem (f := Prod.fst) (List.fst_mem_of_mem_zipIdx hp)
    have hinside := ((List.sublist_flatten_of_mem hpiece).trans (pieces_sublist _)).length_le
    rw [List.length_take] at hinside
    omega
  obtain ⟨analyses, hanalyses⟩ := mapM_isOk hall
  rw [hanalyses] at hanswer
  refine ⟨_, hanswer, ?_⟩
  have hcount := (mapM_ok.mp hanalyses).length_eq
  rw [List.length_zipIdx] at hcount
  exact hcount.symm

/-- A host on which every path leads to this file. -/
def showing (content : FileContent) : Host :=
  { plainHost with file := fun _ => some ⟨"", content, none⟩ }

theorem analyzeVideo_pieces_one : ∃ reply,
    analyzeVideo .sample (showing keyframeBlock) none = .ok reply ∧ reply.totalFramesAnalyzed = 1 := by
  have hlegal : Legal ((showing keyframeBlock).plans 0) := eager_legal
  obtain ⟨n, hall, -, -, htotal⟩ := @analyzeVideo_pieces .sample (showing keyframeBlock) none
    ⟨"", keyframeBlock, none⟩ rfl rfl
  obtain ⟨reply, hreply, hcount⟩ := htotal (by decide)
  rw [List.take_of_length_le (hall hlegal)] at hcount
  exact ⟨reply, hreply, hcount⟩

/-- A clip is one piece. Too short to be carved it is a chunk, and the first chunk counts as
a keyframe. -/
theorem frameAnalyses_clip (X : Crates) {content : Bytes} {frame : CarvedFrame}
    (h : FromPiece X content frame) (hlen : content.length < 2 ^ 63) :
    frameAnalyses X (clipOf content frame) =
      (analyzePiece X ((clipOf content frame,
        frame.isKeyframe || decide (frame.length < 5)), 0)).map fun a => [a] := by
  obtain ⟨hpos, hinside⟩ := fromPiece_inside h
  have hlength : (clipOf content frame).length = frame.length := by
    rw [clipOf, List.length_take, List.length_drop]
    omega
  have hsingle : ∀ {α : Type} (f : α → Carved FrameAnalytics) (a : α),
      [a].mapM f = (f a).map fun b => [b] := by
    intro α f a
    rw [List.mapM_cons, List.mapM_nil]
    cases f a <;> rfl
  have hfirst : tsSec X 0 = .ok (UInt64.ofNat (1773800000 + 0 * 2)) := tsSec_eq (by decide)
  unfold frameAnalyses
  rw [carveBuffer_clip h (by omega), ok_bind, recarved]
  by_cases hshort : frame.length < 5
  · have hblocks : blocks 4096 (clipOf content frame) = [clipOf content frame] := by
      apply blocks_of_length_le
      · exact List.ne_nil_of_length_pos (by omega)
      · omega
    rw [if_pos hshort, hblocks]
    refine (hsingle (analyzeChunk X) (clipOf content frame, 0)).trans ?_
    unfold analyzeChunk
    dsimp only
    rw [hfirst, decide_eq_true hshort, Bool.or_true]
    rfl
  · rw [if_neg hshort]
    refine (hsingle (analyzeCarved X _) ({ frame with byteOffset := 0 }, 0)).trans ?_
    unfold analyzeCarved
    dsimp only
    rw [X.build.add_of_lt (by omega), ok_bind, Nat.zero_add, hlength, Nat.min_self,
      slice_of_le (Nat.zero_le _) hlength.ge, ok_bind, hfirst, ok_bind,
      decide_eq_false hshort, Bool.or_false, List.drop_zero, Nat.sub_zero, ← hlength,
      List.take_length]
    rfl

/-- However a case was examined, any clip of a report on its unchanged evidence that is given
to the front end again is analysed as one frame: the bytes and the kind of the stored frame
that it was cut out for. -/
theorem analyzeVideo_clip (X : Crates) {manifest : AcquisitionManifest} {content : FileContent}
    {path : String} {visits : List Visit}
    (hdirs : ∀ v ∈ visits, Unaltered manifest content v.workspace.dir) {dir : CaseDir}
    (hdir : Unaltered manifest content dir) {dbPath outDir now : String} {io : DbIo}
    {examiner : ExaminerDetails} {out : OutputIo} {plans : ℕ → Schedule IoError}
    {outcome : CaseReportOutcome} {clips : List Clip}
    (h : generateCaseReport X dir dbPath ⟨some (runVisits X (fresh path) visits).tables, io⟩
      examiner outDir out plans now = .ok (outcome, clips))
    {clip : Clip} (hclip : clip ∈ clips) {host : Host} {videoPath : Option String}
    {file : EvidenceFile}
    (hfile : host.file (cleanPath (videoPath.getD defaultVideoPath)) = some file)
    (hopens : file.refusal = none) (hbytes : file.content.bytes = clip.bytes)
    (hlegal : Legal (host.plans 0)) :
    ∃ frames, (CaseDatabase.mk dbPath (runVisits X (fresh path) visits).tables
        io).queryCarvedRecords none = .ok frames ∧
      ∃ frame ∈ frames, clip.bytes = clipOf content.bytes frame ∧
        analyzeVideo X host videoPath =
          (analyzeFrame X 0 1 1773800000 "2026-03-18T10:00:00Z" clip.bytes
            (frame.isKeyframe || decide (frame.length < 5))).map fun analysis =>
              videoReply (cleanPath (videoPath.getD defaultVideoPath)) clip.bytes [analysis] := by
  obtain ⟨frames, hquery, hframes, -, -, rfl⟩ := report_clips hdirs hdir h
  obtain ⟨p, hp, rfl⟩ := List.mem_map.mp hclip
  have hframe := List.fst_mem_of_mem_zipIdx hp
  refine ⟨frames, hquery, p.1, hframe, rfl, ?_⟩
  obtain ⟨n, hread, hwhole⟩ := readToEnd_eq file.content.bytes (host.plans 0)
  rw [analyzeVideo_file X hfile hopens,
    hread.trans ((List.take_of_length_le (hwhole hlegal)).trans hbytes),
    frameAnalyses_clip X (hframes p.1 hframe) content.size_lt]
  have hstamp : normTs 0 = "2026-03-18T10:00:00Z" := by decide +kernel
  rw [← hstamp]
  change _ = (analyzePiece X ((clipOf content.bytes p.1,
    p.1.isKeyframe || decide (p.1.length < 5)), 0)).map _
  cases analyzePiece X ((clipOf content.bytes p.1,
    p.1.isKeyframe || decide (p.1.length < 5)), 0) <;> rfl

/-- The clip of the keyframe. -/
def keyframeClip : FileContent := ⟨[0, 0, 1, 0x65, 1, 2, 3], by decide⟩

theorem analyzeVideo_clip_keyframe : ∃ frame : CarvedFrame,
    keyframeClip.bytes = clipOf keyframeBlock.bytes frame ∧
    analyzeVideo .sample (showing keyframeClip) none =
      (analyzeFrame .sample 0 1 1773800000 "2026-03-18T10:00:00Z" keyframeClip.bytes
        (frame.isKeyframe || decide (frame.length < 5))).map fun analysis =>
          videoReply (cleanPath defaultVideoPath) keyframeClip.bytes [analysis] := by
  have hdirs : ∀ v ∈ keyframeVisits, Unaltered
      (plainManifest .sample "evidence.raw" "case" "" 8 keyframeBlock.bytes) keyframeBlock
      v.workspace.dir := by
    simp only [keyframeVisits, List.forall_mem_cons]
    exact ⟨unaltered_keyframeDir, unaltered_keyframeDir, by simp⟩
  obtain ⟨⟨outcome, clips⟩, hreport⟩ := exists_ok
    (x := generateCaseReport .sample keyframeDir "case.db"
      ⟨some (runVisits .sample (fresh "case.db") keyframeVisits).tables, .sound⟩
      ⟨"", "", "", "", ""⟩ "out" .sound (fun _ => eager) "") (by decide +kernel)
  have hclips : (generateCaseReport .sample keyframeDir "case.db"
      ⟨some (runVisits .sample (fresh "case.db") keyframeVisits).tables, .sound⟩
      ⟨"", "", "", "", ""⟩ "out" .sound (fun _ => eager) "").map (fun p => p.2.map Clip.bytes) =
        .ok [keyframeClip.bytes] := by decide +kernel
  rw [hreport] at hclips
  obtain ⟨clip, rfl, hclip⟩ := List.map_eq_singleton_iff.mp (Except.ok.inj hclips)
  have hfile : (showing keyframeClip).file (cleanPath ((none : Option String).getD
      defaultVideoPath)) = some ⟨"", keyframeClip, none⟩ := rfl
  have hlegal : Legal ((showing keyframeClip).plans 0) := eager_legal
  obtain ⟨frames, -, frame, -, hbytes, hanswer⟩ := analyzeVideo_clip .sample hdirs
    unaltered_keyframeDir hreport (List.mem_singleton_self _) hfile rfl hclip.symm hlegal
  rw [hclip] at hbytes hanswer
  exact ⟨frame, hbytes, hanswer⟩

end Dvrft.VideoAnalysis
