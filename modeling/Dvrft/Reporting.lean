import Dvrft.CaseFiles
import Dvrft.Timeline

/-!
The case report: the artifacts of the case database, the clips cut out of the
evidence at the places of the carved frames, and the particulars of manifest and
grammar in one document. Writing the certificate and the documents is reduced to
whether it succeeds.
-/

namespace Dvrft.Reporting

open ShortReads Gregorian Errors Machine Platform Acquisition CaseFiles Interpreter Database
  Texts Timeline

structure ExaminerDetails where
  name : String
  designation : String
  agency : String
  badgeNumber : String
  laboratory : String
  deriving DecidableEq, Repr

structure ExportSummary where
  rawH264Exported : ℕ
  mp4Transcoded : ℕ
  outputDir : String
  ffmpegAvailable : Bool
  deriving DecidableEq, Repr

structure ComprehensiveForensicReport where
  caseName : String
  generatedAt : String
  examiner : ExaminerDetails
  evidenceSourcePath : String
  imageSizeBytes : ℕ
  blockSize : ℕ
  blockCount : ℕ
  md5Hash : String
  sha256Hash : String
  blake3Hash : String
  isPristine : Bool
  identifiedFormat : String
  identifiedChipset : String
  confidence : Float
  validationTier : ℕ
  validationTierDisclosure : String
  extractedRecordsCount : ℕ
  carvedFramesCount : ℕ
  transitionsCount : ℕ
  analyticsLeadsCount : ℕ
  discontinuities : List DiscontinuityAlert
  exportSummary : Option ExportSummary
  timeline : List TimelineEntry

structure CaseReportOutcome where
  report : ComprehensiveForensicReport
  certificatePath : String
  markdownPath : String
  jsonPath : String
  exportSummary : ExportSummary

inductive ReportError where
  | manifestNotFound (path : String)
  | manifestUnreadable (reason : String)
  | openingDatabase (path : String) (source : ParserError)
  | parser (source : ParserError)
  | io (source : IoError)
  deriving DecidableEq, Repr

abbrev Reported (α : Type) := Outcome ReportError α

/-- What becomes of each write below the output directory; `none` is success.
`transcode` is ffmpeg, if it is installed. -/
structure OutputIo where
  reportDir : Option IoError
  clipsDir : Option IoError
  clip : ℕ → Option IoError
  certificate : Option IoError
  documents : Option IoError
  transcode : Option (ℕ → Bool)

def OutputIo.sound : OutputIo := ⟨none, none, fun _ => none, none, none, none⟩

def wrote (outcome : Option IoError) : Reported Unit :=
  match outcome with
  | none => .ok ()
  | some e => fail (.io e)

def fromParser {α : Type} : Except ParserError α → Reported α
  | .ok a => .ok a
  | .error e => fail (.parser e)

/-- A file below the clips directory. -/
structure Clip where
  fileName : String
  bytes : Bytes
  deriving DecidableEq, Repr

def clipName (i : ℕ) (frame : CarvedFrame) : String :=
  "carved_clip_" ++ String.ofList (padded 4 i) ++ s!"_{frame.byteOffset}_" ++
    (if frame.isKeyframe then "key" else "slice") ++ ".h264"

structure ExportState where
  clips : List Clip
  mp4Count : ℕ

/-- `File::open`. -/
def openEvidence (evidence : Option EvidenceFile) : Reported Bytes :=
  match evidence with
  | none => fail (.io .notFound)
  | some file =>
    match file.refusal with
    | some e => fail (.io e)
    | none => .ok file.content.bytes

/-- `seek` and `read_exact`; an offset beyond the signed range is no place. -/
def readExactAt (X : Crates) (content : Bytes) (plan : Schedule IoError)
    (byteOffset length : ℕ) : Reported Bytes :=
  if 2 ^ 63 ≤ byteOffset then fail (.io (.other 22))
  else do
    X.allocate length
    match (Reader.opened (content.drop byteOffset) plan).readFull length with
    | .error (e, _) => fail (.io e)
    | .ok (buf, _) => if buf.length < length then fail (.io .unexpectedEof) else .ok buf

/-- Frame `i` of the list; a frame without bytes is skipped. -/
def exportClip (X : Crates) (content : Bytes) (plans : ℕ → Schedule IoError) (out : OutputIo)
    (s : ExportState) (p : CarvedFrame × ℕ) : Reported ExportState :=
  let frame := p.1
  let i := p.2
  if frame.length = 0 then .ok s
  else do
    let buf ← readExactAt X content (plans i) frame.byteOffset frame.length
    wrote (out.clip i)
    .ok
      { clips := s.clips ++ [⟨clipName i frame, buf⟩]
        mp4Count := s.mp4Count + if out.transcode.any (· i) then 1 else 0 }

/-- The summary and the clips that were written. -/
def exportClips (X : Crates) (evidence : Option EvidenceFile) (plans : ℕ → Schedule IoError)
    (carvedFrames : List CarvedFrame) (outputDir : String) (out : OutputIo) :
    Reported (ExportSummary × List Clip) := do
  wrote out.clipsDir
  let content ← openEvidence evidence
  let s ← carvedFrames.zipIdx.foldlM (exportClip X content plans out) ⟨[], 0⟩
  .ok (⟨s.clips.length, s.mp4Count, outputDir ++ "/clips", out.transcode.isSome⟩, s.clips)

/-- What the report draws from the database. -/
structure Artifacts where
  records : List ExtractedRecord
  carved : List CarvedFrame
  events : List CorrelatedDbEvent
  analytics : List AnalyticsDbDetection

def queryArtifacts (db : CaseDatabase) : Except ParserError Artifacts := do
  let records ← db.queryAllRecords
  let carved ← db.queryCarvedRecords none
  let events ← db.queryCorrelatedEvents none
  let analytics ← db.queryAnalyticsDetections none 0.50 0.60 none none
  .ok ⟨records, carved, events, analytics⟩

def identifiedFormat (grammarId : String) : String :=
  if textContains grammarId "synthetic" then "C4FS Synthetic Format (SIH Team Cyber 4)"
  else if textContains grammarId "dahua" then "Dahua DHFS Proprietary Format"
  else if textContains grammarId "hikvision" then "Hikvision HIKFS / HIK-Stream Format"
  else "Proprietary CCTV Interleaved Stream"

def identifiedChipset (grammarId : String) : String :=
  if textContains grammarId "dahua" then "Ambarella / HiSilicon SoC Family"
  else if textContains grammarId "hikvision" then "HiSilicon Hi35xx Architecture"
  else "Generic Embedded MIPS/ARM SoC"

def tierDisclosure : ℕ → String
  | 1 => "Format verified against self-authored synthetic filesystem with deterministic " ++
    "ground truth."
  | 2 => "Derived from published reverse-engineering research and academic papers without " ++
    "OEM NDA."
  | 3 => "Directly confirmed and validated against physical DVR/NVR hardware test units."
  | _ => "Uncertified grammar definition."

def loadManifest (dir : CaseDir) : Reported AcquisitionManifest :=
  match dir.manifest with
  | .missing => fail (.manifestNotFound dir.manifestPath)
  | .unreadable reason => fail (.manifestUnreadable reason)
  | .decoded manifest => .ok manifest

def openDatabase (dbPath : String) (db : DbFile) : Reported CaseDatabase :=
  match CaseDatabase.openFile dbPath db with
  | .ok opened => .ok opened
  | .error e => fail (.openingDatabase dbPath e)

/-- `outDir` is the given output directory or the default one; the clips come with
the outcome. -/
def generateCaseReport (X : Crates) (dir : CaseDir) (dbPath : String) (db : DbFile)
    (examiner : ExaminerDetails) (outDir : String) (out : OutputIo)
    (plans : ℕ → Schedule IoError) (now : String) : Reported (CaseReportOutcome × List Clip) := do
  let manifest ← loadManifest dir
  let evidence := dir.resolve manifest.sourcePath
  let opened ← openDatabase dbPath db
  let artifacts ← fromParser (queryArtifacts opened)
  let (timeline, discontinuities) := reconstructTimeline artifacts.records artifacts.carved
    artifacts.events artifacts.analytics 10
  wrote out.reportDir
  let (exportSummary, clips) ← exportClips X evidence plans artifacts.carved outDir out
  let primary ← fromParser opened.primaryEvidenceGrammarAndTier
  let (grammarId, validationTier) := primary.getD ("synthetic-v1", 1)
  let report : ComprehensiveForensicReport :=
    { caseName := manifest.caseName
      generatedAt := now
      examiner := examiner
      evidenceSourcePath := (evidence.map EvidenceFile.path).getD manifest.sourcePath
      imageSizeBytes := manifest.totalBytes
      blockSize := manifest.blockSize
      blockCount := manifest.blockCount
      md5Hash := manifest.wholeImageMd5
      sha256Hash := manifest.wholeImageSha256
      blake3Hash := manifest.blockHashes.head?.getD ""
      isPristine := true
      identifiedFormat := identifiedFormat grammarId
      identifiedChipset := identifiedChipset grammarId
      confidence := 0.95
      validationTier := validationTier
      validationTierDisclosure := tierDisclosure validationTier
      extractedRecordsCount := artifacts.records.length
      carvedFramesCount := artifacts.carved.length
      transitionsCount := artifacts.events.length
      analyticsLeadsCount := artifacts.analytics.length
      discontinuities := discontinuities
      exportSummary := some exportSummary
      timeline := timeline }
  wrote out.certificate
  wrote out.documents
  .ok (⟨report, outDir ++ "/certificate.pdf", outDir ++ "/forensic_report.md",
    outDir ++ "/forensic_report.json", exportSummary⟩, clips)

/-- What a report says of records, frames and clips. -/
def figures (r : CaseReportOutcome × List Clip) : ℕ × ℕ × ExportSummary × List Clip :=
  (r.1.report.extractedRecordsCount, r.1.report.carvedFramesCount, r.1.exportSummary, r.2)

theorem loadManifest_ok {dir : CaseDir} {manifest : AcquisitionManifest} :
    loadManifest dir = .ok manifest ↔ dir.manifest = .decoded manifest := by
  unfold loadManifest
  cases dir.manifest <;> simp [fail]

theorem openDatabase_ok {dbPath : String} {db : DbFile} {opened : CaseDatabase} :
    openDatabase dbPath db = .ok opened ↔ CaseDatabase.openFile dbPath db = .ok opened := by
  unfold openDatabase
  cases CaseDatabase.openFile dbPath db <;> simp [fail]

theorem fromParser_ok {α : Type} {x : Except ParserError α} {a : α} :
    fromParser x = .ok a ↔ x = .ok a := by
  cases x <;> simp [fromParser, fail]

/-- Where the parts of a report come from. -/
theorem generateCaseReport_ok {X : Crates} {dir : CaseDir} {dbPath : String} {db : DbFile}
    {examiner : ExaminerDetails} {outDir : String} {out : OutputIo}
    {plans : ℕ → Schedule IoError} {now : String} {outcome : CaseReportOutcome}
    {clips : List Clip}
    (h : generateCaseReport X dir dbPath db examiner outDir out plans now =
      .ok (outcome, clips)) :
    ∃ manifest opened artifacts,
      dir.manifest = .decoded manifest ∧ CaseDatabase.openFile dbPath db = .ok opened ∧
      queryArtifacts opened = .ok artifacts ∧
      exportClips X (dir.resolve manifest.sourcePath) plans artifacts.carved outDir out =
        .ok (outcome.exportSummary, clips) ∧
      outcome.report.isPristine = true ∧
      outcome.report.md5Hash = manifest.wholeImageMd5 ∧
      outcome.report.sha256Hash = manifest.wholeImageSha256 ∧
      outcome.report.blake3Hash = manifest.blockHashes.head?.getD "" ∧
      outcome.report.extractedRecordsCount = artifacts.records.length ∧
      outcome.report.carvedFramesCount = artifacts.carved.length := by
  simp only [generateCaseReport, bind_ok, loadManifest_ok, openDatabase_ok, fromParser_ok] at h
  obtain ⟨manifest, hmanifest, opened, hopened, artifacts, hartifacts, _, -,
    ⟨exportSummary, clips'⟩, hexport, primary, -, _, -, _, -, h⟩ := h
  obtain ⟨rfl, rfl⟩ := Prod.mk.inj (Except.ok.inj h)
  exact ⟨manifest, opened, artifacts, hmanifest, hopened, hartifacts, hexport, rfl, rfl, rfl, rfl,
    rfl, rfl⟩

/-- A report names its certificate in the output directory. -/
theorem generateCaseReport_certificatePath {X : Crates} {dir : CaseDir} {dbPath : String}
    {db : DbFile} {examiner : ExaminerDetails} {outDir : String} {out : OutputIo}
    {plans : ℕ → Schedule IoError} {now : String} {outcome : CaseReportOutcome}
    {clips : List Clip}
    (h : generateCaseReport X dir dbPath db examiner outDir out plans now =
      .ok (outcome, clips)) :
    outcome.certificatePath = outDir ++ "/certificate.pdf" := by
  simp only [generateCaseReport, bind_ok] at h
  obtain ⟨manifest, -, opened, -, artifacts, -, _, -, exported, -, primary, -, _, -, _, -, h⟩ := h
  obtain ⟨rfl, -⟩ := Prod.mk.inj (Except.ok.inj h)
  rfl

/-- A case without a database always gets its report when every write succeeds. -/
theorem generateCaseReport_absent (X : Crates) (m : AcquisitionManifest) (path : String)
    (content : FileContent) (dbPath : String) (examiner : ExaminerDetails) (outDir : String)
    (plans : ℕ → Schedule IoError) (now : String) :
    ∃ outcome clips, generateCaseReport X (.holding m path content) dbPath .absent examiner outDir
      .sound plans now = .ok (outcome, clips) :=
  ⟨_, _, rfl⟩

/-- The figures depend on the database by the artifacts only, as long as its first
item can be read. -/
theorem figures_congr {X : Crates} {dir : CaseDir} {dbPath : String} {db db' : DbFile}
    {opened opened' : CaseDatabase} {examiner : ExaminerDetails} {outDir : String}
    {out : OutputIo} {plans : ℕ → Schedule IoError} {now : String}
    (hopen : CaseDatabase.openFile dbPath db = .ok opened)
    (hopen' : CaseDatabase.openFile dbPath db' = .ok opened')
    (hartifacts : queryArtifacts opened' = queryArtifacts opened)
    (hprimary : ∃ p, opened.primaryEvidenceGrammarAndTier = .ok p)
    (hprimary' : ∃ p, opened'.primaryEvidenceGrammarAndTier = .ok p) :
    (generateCaseReport X dir dbPath db' examiner outDir out plans now).map figures =
      (generateCaseReport X dir dbPath db examiner outDir out plans now).map figures := by
  obtain ⟨p, hp⟩ := hprimary
  obtain ⟨p', hp'⟩ := hprimary'
  simp only [generateCaseReport, map_bind, openDatabase_ok.mpr hopen, openDatabase_ok.mpr hopen',
    ok_bind, hartifacts, fromParser_ok.mpr hp, fromParser_ok.mpr hp']
  rfl

end Dvrft.Reporting
