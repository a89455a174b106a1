import Dvrft.Analytics
import Dvrft.Carving
import Dvrft.Interference
import Dvrft.ParseCase

/-!
The stages of an examination as the command line runs them into one database:
parsing, carving, correlation, analysis. Each of the later ones reads the records
that are there, computes its rows from them and appends these. What a run prints
or exports besides is left out.
-/

namespace Dvrft.Pipeline

open ShortReads Errors Machine Platform Acquisition CaseFiles Interpreter Database Detection
  ParseCase Carving Correlation Analytics Interference

inductive StageError where
  | manifestNotFound (path : String)
  | manifestUnreadable (reason : String)
  | parser (source : ParserError)
  | recovery (source : RecoveryError)
  | io (source : IoError)
  deriving DecidableEq, Repr

abbrev Staged (α : Type) := Outcome StageError α

/-- `serde_json::to_string(..).unwrap_or_default()`, for what the stages serialize. -/
structure Serializer where
  transition : CrossCameraTransition → String
  blackout : GlobalBlackoutAnomaly → String
  bbox : BoundingBox → String
  attributes : List (String × String) → String

/-- What a run finds: the case directory, the grammars and plugins, the options,
and the portions in which the operating system serves the evidence. The analysis
reads the payload of each record under a schedule of its own. -/
structure Workspace where
  dir : CaseDir
  grammarsDir : GrammarsDir
  loadPlugin : String → Option Descrambler
  json : Serializer
  window : ℤ
  blackoutGap : ℤ
  headerPlan : Schedule IoError
  parsePlan : Schedule IoError
  carvePlan : Schedule IoError
  analyzePlans : ℕ → Schedule IoError

def fromParser {α : Type} : Except ParserError α → Staged α
  | .ok a => .ok a
  | .error e => fail (.parser e)

def fromRecovery {α : Type} : Carved α → Staged α
  | .ok a => .ok a
  | .error (.error e) => fail (.recovery e)
  | .error .panic => panicked

def loadManifest (dir : CaseDir) : Staged AcquisitionManifest :=
  match dir.manifest with
  | .missing => fail (.manifestNotFound dir.manifestPath)
  | .unreadable reason => fail (.manifestUnreadable reason)
  | .decoded manifest => .ok manifest

/-- The corrupted blocks of the database, or every block of the image. -/
def targetBlocks (manifest : AcquisitionManifest) (corruptedRecords : List ExtractedRecord) :
    List ℕ :=
  if corruptedRecords.isEmpty then List.range manifest.blockCount
  else corruptedRecords.map ExtractedRecord.blockIndex

def carvedFrames (X : Crates) (w : Workspace) (manifest : AcquisitionManifest)
    (corruptedRecords : List ExtractedRecord) : Staged (List CarvedFrame) :=
  match w.dir.resolve manifest.sourcePath with
  | none => fail (.recovery (.io .notFound))
  | some image => fromRecovery (carveCorruptedBlocks X image manifest.blockSize
      (targetBlocks manifest corruptedRecords) w.carvePlan)

def runCarve (X : Crates) (w : Workspace) (dbPath : String) (file : DbFile) : Staged Tables := do
  let manifest ← loadManifest w.dir
  let db ← fromParser (CaseDatabase.openFile dbPath file)
  let corruptedRecords ← fromParser
    (db.queryRecords { RecordFilter.default with corruptedOnly := true })
  let carved ← carvedFrames X w manifest corruptedRecords
  let primaryEvidenceId ← fromParser db.primaryEvidenceId
  let stored ← fromParser (db.storeCarvedRecords (primaryEvidenceId.getD 1) carved)
  .ok stored.1.tables

def transitionEvent (json : Serializer) (t : CrossCameraTransition) : CorrelatedDbEvent where
  id := none
  eventType := "transition"
  startTimestamp := t.fromNormalizedTs
  endTimestamp := t.toNormalizedTs
  channelsInvolved := s!"{t.fromChannel.toNat},{t.toChannel.toNat}"
  confidence := t.confidence
  detailsJson := json.transition t

def blackoutEvent (json : Serializer) (b : GlobalBlackoutAnomaly) : CorrelatedDbEvent where
  id := none
  eventType := "global_blackout"
  startTimestamp := b.startNormalizedTs
  endTimestamp := b.endNormalizedTs
  channelsInvolved := ",".intercalate (b.affectedChannels.map fun c => toString c.toNat)
  confidence := 0.99
  detailsJson := json.blackout b

def correlatedEvents (w : Workspace) (records : List ExtractedRecord) : List CorrelatedDbEvent :=
  let recordInputs := records.map ExtractedRecord.toCorrelationInput
  (detectTransitions (mergeTimeline recordInputs) w.window).map (transitionEvent w.json) ++
    (detectGlobalBlackouts recordInputs w.blackoutGap).map (blackoutEvent w.json)

/-- Whether the events could be stored is not looked at. -/
def runCorrelate (w : Workspace) (dbPath : String) (file : DbFile) : Staged Tables := do
  let db ← fromParser (CaseDatabase.openFile dbPath file)
  let records ← fromParser db.queryAllRecords
  let primaryEvidenceId ← fromParser db.primaryEvidenceId
  match db.storeCorrelatedEvents (primaryEvidenceId.getD 1) (correlatedEvents w records) with
  | .ok stored => .ok stored.1.tables
  | .error _ => .ok db.tables

/-- `seek` and `read_exact` into a buffer of the payload's length; a payload that
cannot be read is passed over. -/
def readPayload (X : Crates) (content : Bytes) (plan : Schedule IoError)
    (record : ExtractedRecord) : Staged (Option Bytes) := do
  X.allocate record.payloadLen
  let file := Reader.opened (content.drop record.payloadOffset) plan
  if 2 ^ 63 ≤ record.payloadOffset then .ok none
  else match file.readFull record.payloadLen with
    | .error _ => .ok none
    | .ok (buf, _) => .ok (if buf.length < record.payloadLen then none else some buf)

def detection (json : Serializer) (record : ExtractedRecord) (analysis : FrameAnalytics)
    (det : DetectedEntity) : AnalyticsDbDetection where
  id := none
  blockIndex := record.blockIndex
  channelId := record.channelId
  timestamp := record.timestamp
  normalizedTimestamp := record.normalizedTimestamp
  motionEnergy := analysis.motionEnergy
  relevanceScore := analysis.relevanceScore
  entityClass := det.classLabel.code
  confidence := det.confidence
  bboxJson := json.bbox det.bbox
  attributesJson := json.attributes det.attributes

/-- The detections of record `p.2` of the list. -/
def analyzeRecord (X : Crates) (w : Workspace) (content : Bytes) (p : ExtractedRecord × ℕ) :
    Staged (List AnalyticsDbDetection) :=
  let record := p.1
  if record.payloadLen = 0 then .ok []
  else do
    let read ← readPayload X content (w.analyzePlans p.2) record
    match read with
    | none => .ok []
    | some payload =>
      let analysis ← analyzeFrame X record.blockIndex record.channelId record.timestamp
        record.normalizedTimestamp payload (record.flags &&& 1 != 0)
      .ok (analysis.entities.map (detection w.json record analysis))

def openEvidence (w : Workspace) (manifest : AcquisitionManifest) : Staged Bytes :=
  match w.dir.resolve manifest.sourcePath with
  | none => fail (.io .notFound)
  | some file =>
    match file.refusal with
    | some e => fail (.io e)
    | none => .ok file.content.bytes

def detections (X : Crates) (w : Workspace) (manifest : AcquisitionManifest)
    (records : List ExtractedRecord) : Staged (List AnalyticsDbDetection) := do
  let content ← openEvidence w manifest
  let found ← records.zipIdx.mapM (analyzeRecord X w content)
  .ok found.flatten

def runAnalyze (X : Crates) (w : Workspace) (dbPath : String) (file : DbFile) :
    Staged Tables := do
  let manifest ← loadManifest w.dir
  let db ← fromParser (CaseDatabase.openFile dbPath file)
  let records ← fromParser db.queryAllRecords
  let primaryEvidenceId ← fromParser db.primaryEvidenceId
  let dbDetections ← detections X w manifest records
  let stored ← fromParser (db.storeAnalyticsDetections (primaryEvidenceId.getD 1) dbDetections)
  .ok stored.1.tables

inductive Stage where
  | parse
  | carve
  | correlate
  | analyze
  deriving DecidableEq, Repr

namespace Stage

/-- Every stage once, in the order in which the later ones find their inputs. -/
def inOrder : List Stage := [parse, carve, correlate, analyze]

/-- The tables that a run leaves behind, if it does not fail. -/
def outcome (X : Crates) (w : Workspace) (dbPath : String) (file : DbFile) :
    Stage → Option Tables
  | parse => (parseCase X w.dir w.grammarsDir w.loadPlugin dbPath file w.headerPlan
      w.parsePlan).toOption.map Prod.snd
  | carve => (runCarve X w dbPath file).toOption
  | correlate => (runCorrelate w dbPath file).toOption
  | analyze => (runAnalyze X w dbPath file).toOption

/-- The database after a run; a run that fails leaves it as it was. -/
def run (X : Crates) (w : Workspace) (db : CaseDatabase) (stage : Stage) : CaseDatabase :=
  { db with tables := (stage.outcome X w db.path (fileOf db)).getD db.tables }

end Stage

def runAll (X : Crates) (w : Workspace) (db : CaseDatabase) (stages : List Stage) :
    CaseDatabase := stages.foldl (Stage.run X w) db

end Dvrft.Pipeline
