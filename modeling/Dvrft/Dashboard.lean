import Dvrft.FrontEnd
import Dvrft.Scores

/-!
The numbers that the front end shows for a case, and the rows that the command line stores
for it. Both go over the same records and the same evidence, each with code of its own.
-/

namespace Dvrft.Dashboard

open ShortReads Errors Machine Platform Crates Sqlite Acquisition CaseFiles Interpreter Database
  Correlation Analytics Summaries Pipeline Interference Rerun Scores FrontEnd

variable (X : Crates) {w : Workspace}

theorem kinds_correlatedEvents (w : Workspace) (records : List ExtractedRecord) :
    (correlatedEvents w records).map CorrelatedDbEvent.eventType =
      List.replicate (detectTransitions (mergeTimeline
          (records.map ExtractedRecord.toCorrelationInput)) w.window).length "transition" ++
        List.replicate (detectGlobalBlackouts
          (records.map ExtractedRecord.toCorrelationInput) w.blackoutGap).length
            "global_blackout" := by
  unfold correlatedEvents
  dsimp only
  rw [List.map_append, List.map_map, List.map_map]
  congr 1 <;> exact List.map_const' ..

theorem kinds_stored (first item : ℤ) (events : List CorrelatedDbEvent) :
    (events.zipIdx.map fun p => CorrelatedRow.ofEvent (first + p.2) item p.1).map
        CorrelatedRow.eventType =
      (events.map CorrelatedDbEvent.eventType).map SqlValue.text := by
  conv_rhs => rw [← List.zipIdx_map_fst 0 events]
  rw [List.map_map, List.map_map, List.map_map]
  rfl

/-- The detection that a frame's analysis stands for. -/
def detectionOf (json : Serializer) (a : FrameAnalytics) (det : DetectedEntity) :
    AnalyticsDbDetection where
  id := none
  blockIndex := a.blockIndex
  channelId := a.channelId
  timestamp := a.timestamp
  normalizedTimestamp := a.normalizedTimestamp
  motionEnergy := a.motionEnergy
  relevanceScore := a.relevanceScore
  entityClass := det.classLabel.code
  confidence := det.confidence
  bboxJson := json.bbox det.bbox
  attributesJson := json.attributes det.attributes

def detectionsOf (json : Serializer) (a : FrameAnalytics) : List AnalyticsDbDetection :=
  a.entities.map (detectionOf json a)

/-- An analysis that succeeds succeeds wherever it is called from. -/
theorem analyzeFrame_lift {ε ε' : Type} {blockIndex : ℕ} {channelId : UInt32} {timestamp : UInt64}
    {normalizedTimestamp : String} {payload : Bytes} {isKeyframe : Bool} {a : FrameAnalytics}
    (h : (analyzeFrame X blockIndex channelId timestamp normalizedTimestamp payload isKeyframe :
      Outcome ε FrameAnalytics) = .ok a) :
    (analyzeFrame X blockIndex channelId timestamp normalizedTimestamp payload isKeyframe :
      Outcome ε' FrameAnalytics) = .ok a := by
  obtain ⟨energy, henergy, h⟩ := bind_ok.mp h
  have hsame : (computeMotionEnergy X payload : Outcome ε' Float) = .ok energy := by
    unfold computeMotionEnergy at henergy ⊢
    split_ifs at henergy ⊢ with hshort
    · exact congrArg Except.ok (Except.ok.inj henergy)
    · obtain ⟨total, htotal, henergy⟩ := bind_ok.mp henergy
      have hfit : (X.build.fit (totalGradient payload) : Outcome ε' ℕ) = .ok total := by
        unfold Build.fit at htotal ⊢
        split_ifs at htotal ⊢ with hfits
        · exact congrArg Except.ok (Except.ok.inj htotal)
        · cases hbuild : X.build with
          | debug =>
            rw [hbuild] at htotal
            cases htotal
          | release =>
            rw [hbuild] at htotal
            exact congrArg Except.ok (Except.ok.inj htotal)
      rw [hfit, ok_bind]
      exact congrArg Except.ok (Except.ok.inj henergy)
  unfold analyzeFrame
  rw [hsame, ok_bind]
  exact congrArg Except.ok (Except.ok.inj h)

theorem analyzeFrame_fields {ε : Type} {r : ExtractedRecord} {payload : Bytes} {isKeyframe : Bool}
    {a : FrameAnalytics} (h : (analyzeFrame X r.blockIndex r.channelId r.timestamp
      r.normalizedTimestamp payload isKeyframe : Outcome ε FrameAnalytics) = .ok a)
    (json : Serializer) : a.entities.map (detection json r a) = detectionsOf json a := by
  obtain ⟨energy, -, h⟩ := bind_ok.mp h
  obtain rfl := Except.ok.inj h
  rfl

theorem map_eq_ok {ε α β : Type} {f : α → β} {x : Except ε α} {b : β} (h : x.map f = .ok b) :
    ∃ a, x = .ok a ∧ f a = b := by
  cases x with
  | error e => cases h
  | ok a => exact ⟨a, rfl, Except.ok.inj h⟩

theorem flatten_shown {α β : Type} (f : α → List β) (found : List (Option α)) :
    (found.map fun o => (o.map f).getD []).flatten = found.reduceOption.flatMap f := by
  induction found with
  | nil => rfl
  | cons o rest ih =>
    cases o with
    | none => exact ih
    | some a =>
      rw [List.map_cons, List.flatten_cons, ih, List.reduceOption_cons_of_some,
        List.flatMap_cons]
      rfl

/-- The record that the front end analyses, or passes over, is stored as the detections of
the analysis, or not at all. -/
theorem analyzeRecord_agrees {host : Host} {content : Bytes} {p : ExtractedRecord × ℕ}
    (hcommand : Legal (w.analyzePlans p.2)) (hfront : Legal (host.plans p.2))
    {o : Option FrameAnalytics} (h : FrontEnd.analyzeRecord X host content p = .ok o) :
    Pipeline.analyzeRecord X w content p = .ok ((o.map (detectionsOf w.json)).getD []) := by
  unfold FrontEnd.analyzeRecord at h
  unfold Pipeline.analyzeRecord
  dsimp only at h ⊢
  by_cases hempty : p.1.payloadLen = 0
  · rw [if_pos hempty] at h ⊢
    rw [← Except.ok.inj h]
    rfl
  · rw [if_neg hempty] at h ⊢
    obtain ⟨_, hmemory, h⟩ := bind_ok.mp h
    have hwhole : ∀ plan : Schedule IoError, Legal plan → ∃ r, Reader.readFull p.1.payloadLen
        (Reader.opened (content.drop p.1.payloadOffset) plan) =
          .ok ((content.drop p.1.payloadOffset).take p.1.payloadLen, r) := by
      intro plan hplan
      obtain ⟨r, hread, -⟩ := readFull_legal p.1.payloadLen
        (Reader.opened (content.drop p.1.payloadOffset) plan) hplan
      exact ⟨r, hread⟩
    obtain ⟨r, hread⟩ := hwhole _ hcommand
    obtain ⟨r', hread'⟩ := hwhole _ hfront
    unfold readPayload
    dsimp only
    rw [allocate_of_le X (allocate_ok.mp hmemory), hread, ok_bind]
    rw [hread'] at h
    split_ifs at h ⊢ with hfar
    · rw [← Except.ok.inj h]
      rfl
    · dsimp only at h ⊢
      split_ifs at h ⊢ with hshort
      · rw [← Except.ok.inj h]
        rfl
      · obtain ⟨a, hanalysis, rfl⟩ := map_eq_ok h
        rw [ok_bind]
        dsimp only
        rw [analyzeFrame_lift X hanalysis, ok_bind, analyzeFrame_fields X hanalysis]
        rfl

theorem frameAnalyses_agree {host : Host} {file : EvidenceFile} (hopens : file.refusal = none)
    {manifest : AcquisitionManifest} (hfile : w.dir.resolve manifest.sourcePath = some file)
    (hcommand : ∀ k, Legal (w.analyzePlans k)) (hfront : ∀ k, Legal (host.plans k))
    {records : List ExtractedRecord} {analyses : List FrameAnalytics}
    (h : FrontEnd.frameAnalyses X host (some file) records = .ok analyses) :
    detections X w manifest records = .ok (analyses.flatMap (detectionsOf w.json)) := by
  unfold FrontEnd.frameAnalyses at h
  dsimp only at h
  rw [hopens] at h
  obtain ⟨found, hfound, h⟩ := bind_ok.mp h
  obtain rfl := Except.ok.inj h
  have hopen : Pipeline.openEvidence w manifest = .ok file.content.bytes := by
    unfold Pipeline.openEvidence
    rw [hfile]
    dsimp only
    rw [hopens]
  have hall : records.zipIdx.mapM (Pipeline.analyzeRecord X w file.content.bytes) =
      .ok (found.map fun o => (o.map (detectionsOf w.json)).getD []) := by
    rw [mapM_ok, List.forall₂_map_right_iff]
    exact (mapM_ok.mp hfound).imp fun p o hp => analyzeRecord_agrees X (hcommand _) (hfront _) hp
  unfold detections
  rw [hopen, ok_bind, hall, ok_bind, flatten_shown]

theorem eventValues_getD (w : Workspace) (db : CaseDatabase) :
    (eventValues w db).toOption.getD [] =
      correlatedEvents w (db.queryAllRecords.toOption.getD []) := by
  unfold eventValues
  cases db.queryAllRecords with
  | error e =>
    simp [fromParser, fail, Except.toOption, correlatedEvents, detectTransitions, mergeTimeline,
      detectGlobalBlackouts]
  | ok records => rfl

/-- Records that cannot be queried are shown as none, and none are stored. -/
theorem detectionValues_getD {host : Host} {db : CaseDatabase} {manifest : AcquisitionManifest}
    (hmanifest : loadManifest w.dir = .ok manifest) {file : EvidenceFile}
    (hopens : file.refusal = none) {analyses : List FrameAnalytics}
    (hfound : detections X w manifest (db.queryAllRecords.toOption.getD []) =
      .ok (analyses.flatMap (detectionsOf w.json)))
    (hanalyses : FrontEnd.frameAnalyses X host (some file)
      (db.queryAllRecords.toOption.getD []) = .ok analyses) :
    (detectionValues X w db).toOption.getD [] = analyses.flatMap (detectionsOf w.json) := by
  unfold detectionValues
  rw [hmanifest, ok_bind]
  cases hrecords : db.queryAllRecords with
  | error e =>
    rw [hrecords] at hanalyses
    unfold FrontEnd.frameAnalyses at hanalyses
    dsimp only at hanalyses
    rw [hopens] at hanalyses
    rw [← Except.ok.inj hanalyses]
    rfl
  | ok records =>
    rw [hrecords] at hfound
    simp only [fromParser, ok_bind]
    exact congrArg (fun o => o.toOption.getD []) hfound

theorem totalEntitiesDetected_eq (json : Serializer) (analyses : List FrameAnalytics)
    (minRelevance : Float) (limitLeads : ℕ) :
    (summarizeFrames analyses minRelevance limitLeads).totalEntitiesDetected =
      (analyses.flatMap (detectionsOf json)).length := by
  simp only [summarizeFrames, summarizeAnalytics, foldl_countFrame, Nat.zero_add,
    List.length_flatMap, List.length_map, detectionsOf]

theorem mem_of_mem_topLeads {analyses : List FrameAnalytics} {minRelevance : Float}
    {limitLeads : ℕ} {a : FrameAnalytics}
    (h : a ∈ (summarizeFrames analyses minRelevance limitLeads).topLeads) : a ∈ analyses :=
  (List.perm_insertionSort _ _).mem_iff.mp (List.mem_of_mem_take h)

/-- In a sound database, with the default options of the front end and the same evidence: what
the front end counts is what the stages of the command line append, event by event and
detection by detection, and its leads are frames whose detections are appended. -/
theorem timelineAnalytics_agrees {host : Host} {caseDir : String} {db : CaseDatabase}
    (hdb : openDatabase host caseDir = .ok db) (hsound : db.io = .sound)
    (hitems : db.tables.evidenceItems ≠ []) (hwindow : w.window = 5) (hgap : w.blackoutGap = 15)
    {manifest : AcquisitionManifest} (hmanifest : loadManifest w.dir = .ok manifest)
    {file : EvidenceFile} (hfile : w.dir.resolve manifest.sourcePath = some file)
    (hshown : timelineEvidence host caseDir = some file) (hopens : file.refusal = none)
    (hcommand : ∀ k, Legal (w.analyzePlans k)) (hfront : ∀ k, Legal (host.plans k))
    {transitions blackouts detected : ℕ} {leads : List FrameAnalytics}
    (h : timelineAnalytics X host caseDir =
      .ok (.analysed transitions blackouts detected leads)) :
    ((Stage.correlate.run X w db).tables.correlatedEvents.drop
        db.tables.correlatedEvents.length).map CorrelatedRow.eventType =
      List.replicate transitions (.text "transition") ++
        List.replicate blackouts (.text "global_blackout") ∧
    ((Stage.analyze.run X w db).tables.analyticsDetections.drop
        db.tables.analyticsDetections.length).length = detected ∧
    ∀ lead ∈ leads, ∀ entity ∈ lead.entities, ∃ id,
      AnalyticsRow.ofDetection id (primary db) (detectionOf w.json lead entity) ∈
        (Stage.analyze.run X w db).tables.analyticsDetections.drop
          db.tables.analyticsDetections.length := by
  unfold timelineAnalytics at h
  rw [hdb, ok_bind] at h
  dsimp only at h
  obtain ⟨analyses, hanalyses, h⟩ := bind_ok.mp h
  rw [hshown] at hanalyses
  have hvalues := detectionValues_getD X hmanifest hopens
    (frameAnalyses_agree X hopens hfile hcommand hfront hanalyses) hanalyses
  simp only [Except.ok.injEq, Reply.analysed.injEq] at h
  obtain ⟨rfl, rfl, rfl, rfl⟩ := h
  rw [correlate_stores X w hsound hitems, analyze_stores X w hsound hitems, eventValues_getD,
    hvalues]
  unfold withEvents withDetections
  dsimp only
  rw [List.drop_left, List.drop_left]
  refine ⟨?_, ?_, ?_⟩
  · rw [kinds_stored, kinds_correlatedEvents, List.map_append, List.map_replicate,
      List.map_replicate, hwindow, hgap]
    rfl
  · rw [List.length_map, List.length_zipIdx, totalEntitiesDetected_eq w.json]
  · intro lead hlead entity hentity
    have hmem : detectionOf w.json lead entity ∈ analyses.flatMap (detectionsOf w.json) :=
      List.mem_flatMap.mpr ⟨lead, mem_of_mem_topLeads hlead, List.mem_map_of_mem hentity⟩
    obtain ⟨k, hk⟩ := List.mem_iff_getElem?.mp hmem
    exact ⟨_, List.mem_map.mpr ⟨(_, k), List.mk_mem_zipIdx_iff_getElem?.mpr hk, rfl⟩⟩

def camerasDb : CaseDatabase := ⟨Paths.join "cases/a" "case.db", parsedCameras.tables, .sound⟩

/-- A host that has the parsed case of the two cameras and its evidence. -/
def parsedHost : Host :=
  { plainHost with
    file := fun _ => some ⟨"evidence.raw", Custody.twoCameras, none⟩
    caseDir := fun _ => Custody.twoCamerasWorkspace.dir
    database := fun _ => ⟨some parsedCameras.tables, .sound⟩ }

/-- The stages under the options of the front end. -/
def frontEndOptions : Workspace := { Custody.twoCamerasWorkspace with window := 5 }

/-- One event and two detections, on both sides. -/
theorem timelineAnalytics_agrees_cameras : ∃ transitions blackouts leads,
    timelineAnalytics .sample parsedHost "cases/a" =
        .ok (.analysed transitions blackouts 2 leads) ∧ transitions + blackouts = 1 ∧
      ((Stage.correlate.run .sample frontEndOptions camerasDb).tables.correlatedEvents.drop
        camerasDb.tables.correlatedEvents.length).map CorrelatedRow.eventType =
          List.replicate transitions (.text "transition") ++
            List.replicate blackouts (.text "global_blackout") := by
  obtain ⟨reply, hreply⟩ := exists_ok (x := timelineAnalytics .sample parsedHost "cases/a")
    (by decide +kernel)
  have hshape : ∃ transitions blackouts detected leads,
      reply = .analysed transitions blackouts detected leads := by
    unfold timelineAnalytics at hreply
    obtain ⟨db, -, hreply⟩ := bind_ok.mp hreply
    obtain ⟨analyses, -, hreply⟩ := bind_ok.mp hreply
    exact ⟨_, _, _, _, (Except.ok.inj hreply).symm⟩
  obtain ⟨transitions, blackouts, detected, leads, rfl⟩ := hshape
  have hdb : openDatabase parsedHost "cases/a" = .ok camerasDb := rfl
  have hitems : camerasDb.tables.evidenceItems ≠ [] := by decide +kernel
  obtain ⟨hevents, hfound, -⟩ := timelineAnalytics_agrees .sample hdb rfl hitems
    (w := frontEndOptions) rfl rfl rfl rfl rfl rfl (fun _ => eager_legal)
    (fun _ => eager_legal) hreply
  have htwo : ((Stage.analyze.run .sample frontEndOptions
      camerasDb).tables.analyticsDetections.drop
        camerasDb.tables.analyticsDetections.length).length = 2 := by decide +kernel
  have hone : ((Stage.correlate.run .sample frontEndOptions
      camerasDb).tables.correlatedEvents.drop
        camerasDb.tables.correlatedEvents.length).length = 1 := by decide +kernel
  obtain rfl : 2 = detected := htwo.symm.trans hfound
  have hsum := congrArg List.length hevents
  rw [List.length_map, List.length_append, List.length_replicate, List.length_replicate] at hsum
  exact ⟨transitions, blackouts, leads, hreply, hsum.symm.trans hone, hevents⟩

end Dvrft.Dashboard
