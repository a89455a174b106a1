import Dvrft.Interpreter
import Dvrft.Sqlite

/-!
The case database. A cell of a file may hold any storage class, so a row can
fail to decode; the engine's own rows always decode to what was stored. A file
comes with what SQLite reports when it is opened, written, queried and
stepped through. Rows are listed in the order of their ids and are never
deleted, so the next id is one more than the last; an insert that is ignored,
which only the table of cases knows, uses up an id as well. The audit log, which
nothing reads back, is left out, and so are the columns of an evidence item that
nothing reads.
-/

namespace Dvrft.Database

open Errors Machine Sqlite Interpreter

/-- `recovery::CarvedFrame`. -/
structure CarvedFrame where
  byteOffset : ℕ
  length : ℕ
  nalType : String
  isKeyframe : Bool
  confidence : Float
  blake3Hash : String

structure CorrelatedDbEvent where
  id : Option ℤ
  eventType : String
  startTimestamp : String
  endTimestamp : String
  channelsInvolved : String
  confidence : Float
  detailsJson : String

structure AnalyticsDbDetection where
  id : Option ℤ
  blockIndex : ℕ
  channelId : UInt32
  timestamp : UInt64
  normalizedTimestamp : String
  motionEnergy : Float
  relevanceScore : Float
  entityClass : String
  confidence : Float
  bboxJson : String
  attributesJson : String

structure EvidenceRow where
  id : ℤ
  caseId : ℤ
  grammarId : SqlValue
  validationTier : SqlValue

structure CaseRow where
  id : ℤ
  caseName : String

structure ExtractedRow where
  evidenceId : ℤ
  blockIndex : SqlValue
  byteOffset : SqlValue
  channelId : SqlValue
  timestamp : SqlValue
  normalizedTimestamp : SqlValue
  sequenceNum : SqlValue
  payloadOffset : SqlValue
  payloadLen : SqlValue
  flags : SqlValue
  isScrambled : SqlValue
  isCorrupted : SqlValue
  blockType : SqlValue
  blake3Hash : SqlValue
  descrambled : SqlValue
  descrambledBlake3Hash : SqlValue

structure CarvedRow where
  evidenceId : ℤ
  byteOffset : SqlValue
  length : SqlValue
  nalType : SqlValue
  isKeyframe : SqlValue
  confidence : SqlValue
  blake3Hash : SqlValue

structure CorrelatedRow where
  id : ℤ
  evidenceId : ℤ
  eventType : SqlValue
  startTimestamp : SqlValue
  endTimestamp : SqlValue
  channelsInvolved : SqlValue
  confidence : SqlValue
  detailsJson : SqlValue

structure AnalyticsRow where
  id : ℤ
  evidenceId : ℤ
  blockIndex : SqlValue
  channelId : SqlValue
  timestamp : SqlValue
  normalizedTimestamp : SqlValue
  motionEnergy : SqlValue
  relevanceScore : SqlValue
  entityClass : SqlValue
  confidence : SqlValue
  bboxJson : SqlValue
  attributesJson : SqlValue

structure Tables where
  cases : List CaseRow
  /-- The last id given out for a case, as `sqlite_sequence` keeps it. -/
  caseSequence : ℤ
  evidenceItems : List EvidenceRow
  extractedRecords : List ExtractedRow
  carvedRecords : List CarvedRow
  correlatedEvents : List CorrelatedRow
  analyticsDetections : List AnalyticsRow

def Tables.empty : Tables := ⟨[], 0, [], [], [], [], []⟩

/-- The row that stores a record. -/
def ExtractedRow.ofRecord (evidenceId : ℤ) (r : ExtractedRecord) : ExtractedRow where
  evidenceId := evidenceId
  blockIndex := .integer (asI64 r.blockIndex)
  byteOffset := .integer (asI64 r.byteOffset)
  channelId := .integer r.channelId.toNat
  timestamp := .integer (asI64 r.timestamp.toNat)
  normalizedTimestamp := .text r.normalizedTimestamp
  sequenceNum := .integer r.sequenceNum.toNat
  payloadOffset := .integer (asI64 r.payloadOffset)
  payloadLen := .integer (asI64 r.payloadLen)
  flags := .integer r.flags.toNat
  isScrambled := .ofBool r.isScrambled
  isCorrupted := .ofBool r.isCorrupted
  blockType := .text r.blockType
  blake3Hash := .text r.blake3Hash
  descrambled := .ofBool r.descrambled
  descrambledBlake3Hash := .ofOptString r.descrambledBlake3Hash

/-- The row mapper of `query_records`, column after column. -/
def ExtractedRow.read (row : ExtractedRow) : Except SqlError ExtractedRecord := do
  let blockIndex ← row.blockIndex.getI64 0
  let byteOffset ← row.byteOffset.getI64 1
  let channelId ← row.channelId.getI64 2
  let timestamp ← row.timestamp.getI64 3
  let normalizedTimestamp ← row.normalizedTimestamp.getString 4
  let sequenceNum ← row.sequenceNum.getI64 5
  let payloadOffset ← row.payloadOffset.getI64 6
  let payloadLen ← row.payloadLen.getI64 7
  let flags ← row.flags.getI64 8
  let isScrambled ← row.isScrambled.getI64 9
  let isCorrupted ← row.isCorrupted.getI64 10
  let blockType ← row.blockType.getString 11
  let blake3Hash ← row.blake3Hash.getString 12
  let descrambled ← row.descrambled.getI64 13
  let descrambledBlake3Hash ← row.descrambledBlake3Hash.getOptString 14
  .ok
    { blockIndex := asU64 blockIndex
      byteOffset := asU64 byteOffset
      channelId := UInt32.ofNat (asU64 channelId)
      timestamp := UInt64.ofNat (asU64 timestamp)
      normalizedTimestamp := normalizedTimestamp
      sequenceNum := UInt32.ofNat (asU64 sequenceNum)
      payloadOffset := asU64 payloadOffset
      payloadLen := asU64 payloadLen
      flags := UInt16.ofNat (asU64 flags)
      isScrambled := isScrambled == 1
      isCorrupted := isCorrupted == 1
      blockType := blockType
      blake3Hash := blake3Hash
      descrambled := descrambled == 1
      descrambledBlake3Hash := descrambledBlake3Hash }

def CarvedRow.ofFrame (evidenceId : ℤ) (f : CarvedFrame) : CarvedRow where
  evidenceId := evidenceId
  byteOffset := .integer (asI64 f.byteOffset)
  length := .integer (asI64 f.length)
  nalType := .text f.nalType
  isKeyframe := .ofBool f.isKeyframe
  confidence := .ofFloat f.confidence
  blake3Hash := .text f.blake3Hash

def CarvedRow.read (row : CarvedRow) : Except SqlError CarvedFrame := do
  let byteOffset ← row.byteOffset.getI64 0
  let length ← row.length.getI64 1
  let nalType ← row.nalType.getString 2
  let isKeyframe ← row.isKeyframe.getI64 3
  let confidence ← row.confidence.getF64 4
  let blake3Hash ← row.blake3Hash.getString 5
  .ok ⟨asU64 byteOffset, asU64 length, nalType, isKeyframe == 1, confidence, blake3Hash⟩

def CorrelatedRow.ofEvent (id evidenceId : ℤ) (e : CorrelatedDbEvent) : CorrelatedRow where
  id := id
  evidenceId := evidenceId
  eventType := .text e.eventType
  startTimestamp := .text e.startTimestamp
  endTimestamp := .text e.endTimestamp
  channelsInvolved := .text e.channelsInvolved
  confidence := .ofFloat e.confidence
  detailsJson := .text e.detailsJson

def CorrelatedRow.read (row : CorrelatedRow) : Except SqlError CorrelatedDbEvent := do
  let eventType ← row.eventType.getString 1
  let startTimestamp ← row.startTimestamp.getString 2
  let endTimestamp ← row.endTimestamp.getString 3
  let channelsInvolved ← row.channelsInvolved.getString 4
  let confidence ← row.confidence.getF64 5
  let detailsJson ← row.detailsJson.getString 6
  .ok ⟨some row.id, eventType, startTimestamp, endTimestamp, channelsInvolved, confidence,
    detailsJson⟩

def AnalyticsRow.ofDetection (id evidenceId : ℤ) (d : AnalyticsDbDetection) : AnalyticsRow where
  id := id
  evidenceId := evidenceId
  blockIndex := .integer (asI64 d.blockIndex)
  channelId := .integer d.channelId.toNat
  timestamp := .integer (asI64 d.timestamp.toNat)
  normalizedTimestamp := .text d.normalizedTimestamp
  motionEnergy := .ofFloat d.motionEnergy
  relevanceScore := .ofFloat d.relevanceScore
  entityClass := .text d.entityClass
  confidence := .ofFloat d.confidence
  bboxJson := .text d.bboxJson
  attributesJson := .text d.attributesJson

def AnalyticsRow.read (row : AnalyticsRow) : Except SqlError AnalyticsDbDetection := do
  let blockIndex ← row.blockIndex.getI64 1
  let channelId ← row.channelId.getI64 2
  let timestamp ← row.timestamp.getI64 3
  let normalizedTimestamp ← row.normalizedTimestamp.getString 4
  let motionEnergy ← row.motionEnergy.getF64 5
  let relevanceScore ← row.relevanceScore.getF64 6
  let entityClass ← row.entityClass.getString 7
  let confidence ← row.confidence.getF64 8
  let bboxJson ← row.bboxJson.getString 9
  let attributesJson ← row.attributesJson.getString 10
  .ok ⟨some row.id, asU64 blockIndex, UInt32.ofNat (asU64 channelId),
    UInt64.ofNat (asU64 timestamp), normalizedTimestamp, motionEnergy, relevanceScore,
    entityClass, confidence, bboxJson, attributesJson⟩

/-- Every cell is of the class that its column is read as, and every text is UTF-8. -/
def ExtractedRow.Typed (row : ExtractedRow) : Prop :=
  row.blockIndex.isInteger ∧ row.byteOffset.isInteger ∧ row.channelId.isInteger ∧
    row.timestamp.isInteger ∧ row.normalizedTimestamp.isText ∧ row.sequenceNum.isInteger ∧
    row.payloadOffset.isInteger ∧ row.payloadLen.isInteger ∧ row.flags.isInteger ∧
    row.isScrambled.isInteger ∧ row.isCorrupted.isInteger ∧ row.blockType.isText ∧
    row.blake3Hash.isText ∧ row.descrambled.isInteger ∧ row.descrambledBlake3Hash.isOptText

instance (row : ExtractedRow) : Decidable row.Typed := by
  unfold ExtractedRow.Typed
  infer_instance

/-- A row is read exactly when all its cells can be. -/
theorem ExtractedRow.read_isOk (row : ExtractedRow) : (∃ r, row.read = .ok r) ↔ row.Typed := by
  simp only [ExtractedRow.read, exists_bind_ok, Except.ok.injEq, exists_eq', and_true,
    exists_and_right, SqlValue.getI64_isOk, SqlValue.getString_isOk,
    SqlValue.getOptString_isOk, ExtractedRow.Typed]

inductive Table where
  | evidenceItems
  | extractedRecords
  | carvedRecords
  | correlatedEvents
  | analyticsDetections
  deriving DecidableEq, Repr

/-- What SQLite reports, operation by operation; `none` is success. `stepping t k`
is the answer to the request for row `k` of a query on `t`, the row after the
last one included; `writing` is that of a whole transaction. -/
structure DbIo where
  opening : Option SqlError
  writing : Option SqlError
  preparing : Table → Option SqlError
  stepping : Table → ℕ → Option SqlError

/-- A database on which every operation succeeds. -/
def DbIo.sound : DbIo := ⟨none, none, fun _ => none, fun _ _ => none⟩

/-- A database file; `none` while it does not exist. -/
structure DbFile where
  tables : Option Tables
  io : DbIo

def DbFile.absent : DbFile := ⟨none, .sound⟩

structure CaseDatabase where
  path : String
  tables : Tables
  io : DbIo

namespace CaseDatabase

/-- `CaseDatabase::open`: create the file and the missing tables. -/
def openFile (path : String) (file : DbFile) : Except ParserError CaseDatabase :=
  match file.io.opening with
  | some e => .error (.databaseError path e)
  | none => .ok ⟨path, file.tables.getD .empty, file.io⟩

/-- Prepare a query on a table and read the rows it selects. -/
def fetch {ρ α : Type} (db : CaseDatabase) (table : Table) (read : ρ → Except SqlError α)
    (selected : Except SqlError (List ρ)) : Except ParserError (List α) :=
  (do
    succeeds (db.io.preparing table)
    let rows ← selected
    fetchFrom (db.io.stepping table) read 0 rows).mapError (.databaseError db.path)

/-- One transaction: the case unless it is there, the evidence item, its records.
The ids of the case and of the item are returned. The insertion that `DO NOTHING`
ignores has used up an id as well. -/
def storeCaseExtraction (db : CaseDatabase) (caseName grammarId : String) (validationTier : ℕ)
    (records : List ExtractedRecord) : Except ParserError (CaseDatabase × ℤ × ℤ) :=
  match db.io.writing with
  | some e => .error (.databaseError db.path e)
  | none =>
    let caseId := nextIdAfter db.tables.caseSequence (db.tables.cases.map (·.id))
    let cases :=
      if db.tables.cases.any (·.caseName == caseName) then db.tables.cases
      else db.tables.cases ++ [⟨caseId, caseName⟩]
    match cases.find? (·.caseName == caseName) with
    | none => .error (.databaseError db.path .queryReturnedNoRows)
    | some row =>
      let evidenceId := nextId (db.tables.evidenceItems.map (·.id))
      let item : EvidenceRow := ⟨evidenceId, row.id, .text grammarId, .integer validationTier⟩
      .ok (⟨db.path, { db.tables with
        cases := cases
        caseSequence := caseId
        evidenceItems := db.tables.evidenceItems ++ [item]
        extractedRecords :=
          db.tables.extractedRecords ++ records.map (ExtractedRow.ofRecord evidenceId) },
        db.io⟩, row.id, evidenceId)

/-- Why a frame cannot be inserted: a confidence that is no number would be NULL,
and the evidence item must exist. -/
def refusedFrame (items : List EvidenceRow) (evidenceId : ℤ) (f : CarvedFrame) :
    Option SqlError :=
  if f.confidence.isNaN then some (.sqliteFailure 1299)
  else if items.all (·.id != evidenceId) then some (.sqliteFailure 787)
  else none

/-- One transaction; the first frame that breaks a constraint undoes it. -/
def storeCarvedRecords (db : CaseDatabase) (evidenceId : ℤ) (frames : List CarvedFrame) :
    Except ParserError (CaseDatabase × ℕ) :=
  match db.io.writing with
  | some e => .error (.databaseError db.path e)
  | none =>
    match frames.findSome? (refusedFrame db.tables.evidenceItems evidenceId) with
    | some e => .error (.databaseError db.path e)
    | none =>
      .ok (⟨db.path, { db.tables with
        carvedRecords :=
          db.tables.carvedRecords ++ frames.map (CarvedRow.ofFrame evidenceId) },
        db.io⟩, frames.length)

/-- Why a row of a later stage cannot be inserted: one of its reals is no number,
or the evidence item is not there. -/
def refusedRow (items : List EvidenceRow) (evidenceId : ℤ) (reals : List Float) :
    Option SqlError :=
  if reals.any Float.isNaN then some (.sqliteFailure 1299)
  else if items.all (·.id != evidenceId) then some (.sqliteFailure 787)
  else none

/-- One transaction that turns values into rows; the first that breaks a constraint
undoes it. -/
def storeRows {α : Type} (db : CaseDatabase) (evidenceId : ℤ) (reals : α → List Float)
    (values : List α) (inserted : Tables) : Except ParserError (CaseDatabase × ℕ) :=
  match db.io.writing with
  | some e => .error (.databaseError db.path e)
  | none =>
    match values.findSome? fun a => refusedRow db.tables.evidenceItems evidenceId (reals a) with
    | some e => .error (.databaseError db.path e)
    | none => .ok (⟨db.path, inserted, db.io⟩, values.length)

def storeCorrelatedEvents (db : CaseDatabase) (evidenceId : ℤ)
    (events : List CorrelatedDbEvent) : Except ParserError (CaseDatabase × ℕ) :=
  let first := nextId (db.tables.correlatedEvents.map (·.id))
  db.storeRows evidenceId (fun e => [e.confidence]) events
    { db.tables with
      correlatedEvents := db.tables.correlatedEvents ++
        events.zipIdx.map fun p => CorrelatedRow.ofEvent (first + p.2) evidenceId p.1 }

def storeAnalyticsDetections (db : CaseDatabase) (evidenceId : ℤ)
    (detections : List AnalyticsDbDetection) : Except ParserError (CaseDatabase × ℕ) :=
  let first := nextId (db.tables.analyticsDetections.map (·.id))
  db.storeRows evidenceId (fun d => [d.motionEnergy, d.relevanceScore, d.confidence]) detections
    { db.tables with
      analyticsDetections := db.tables.analyticsDetections ++
        detections.zipIdx.map fun p => AnalyticsRow.ofDetection (first + p.2) evidenceId p.1 }

/-- Frames are stored as the rows of the later stages are. -/
theorem storeCarvedRecords_eq (db : CaseDatabase) (evidenceId : ℤ) (frames : List CarvedFrame) :
    db.storeCarvedRecords evidenceId frames =
      db.storeRows evidenceId (fun f => [f.confidence]) frames
        { db.tables with
          carvedRecords :=
            db.tables.carvedRecords ++ frames.map (CarvedRow.ofFrame evidenceId) } := by
  have hrefused : refusedFrame db.tables.evidenceItems evidenceId =
      fun f => refusedRow db.tables.evidenceItems evidenceId [f.confidence] := by
    funext f
    simp [refusedFrame, refusedRow]
  rw [storeCarvedRecords, storeRows, hrefused]

end CaseDatabase

structure RecordFilter where
  channelId : Option UInt32
  startTimestamp : Option UInt64
  endTimestamp : Option UInt64
  keyframesOnly : Bool
  scrambledOnly : Bool
  descrambledOnly : Bool
  corruptedOnly : Bool
  limit : Option ℕ
  offset : Option ℕ
  deriving DecidableEq, Repr

def RecordFilter.default : RecordFilter :=
  ⟨none, none, none, false, false, false, false, none, none⟩

/-- The `WHERE` clause. -/
def RecordFilter.selects (filter : RecordFilter) (row : ExtractedRow) : Bool :=
  filter.channelId.all (fun c => row.channelId.holds Ordering.isEq (.integer c.toNat)) &&
  filter.startTimestamp.all
    (fun t => row.timestamp.holds Ordering.isGE (.integer (asI64 t.toNat))) &&
  filter.endTimestamp.all
    (fun t => row.timestamp.holds Ordering.isLE (.integer (asI64 t.toNat))) &&
  (!filter.keyframesOnly || row.flags.castInteger % 2 != 0) &&
  (!filter.scrambledOnly || row.isScrambled.holds Ordering.isEq (.integer 1)) &&
  (!filter.descrambledOnly || row.descrambled.holds Ordering.isEq (.integer 1)) &&
  (!filter.corruptedOnly || row.isCorrupted.holds Ordering.isEq (.integer 1))

namespace CaseDatabase

def queryRecords (db : CaseDatabase) (filter : RecordFilter) :
    Except ParserError (List ExtractedRecord) :=
  db.fetch .extractedRecords ExtractedRow.read
    (page filter.limit filter.offset
      (orderBy ExtractedRow.blockIndex (db.tables.extractedRecords.filter filter.selects)))

def queryAllRecords (db : CaseDatabase) : Except ParserError (List ExtractedRecord) :=
  db.queryRecords .default

def queryCarvedRecords (db : CaseDatabase) (evidenceId : Option ℤ) :
    Except ParserError (List CarvedFrame) :=
  db.fetch .carvedRecords CarvedRow.read
    (.ok (orderBy CarvedRow.byteOffset
      (db.tables.carvedRecords.filter fun row => evidenceId.all (row.evidenceId == ·))))

def queryCorrelatedEvents (db : CaseDatabase) (evidenceId : Option ℤ) :
    Except ParserError (List CorrelatedDbEvent) :=
  db.fetch .correlatedEvents CorrelatedRow.read
    (.ok (db.tables.correlatedEvents.filter fun row => evidenceId.all (row.evidenceId == ·)))

def queryAnalyticsDetections (db : CaseDatabase) (evidenceId : Option ℤ)
    (minRelevance minConfidence : Float) (entityClass : Option String) (limit : Option ℕ) :
    Except ParserError (List AnalyticsDbDetection) :=
  let selected := db.tables.analyticsDetections.filter fun row =>
    row.relevanceScore.holds Ordering.isGE (.ofFloat minRelevance) &&
    row.confidence.holds Ordering.isGE (.ofFloat minConfidence) &&
    evidenceId.all (row.evidenceId == ·) &&
    entityClass.all fun c => row.entityClass.holds Ordering.isEq (.text c)
  let ordered := selected.insertionSort fun a b =>
    ((b.relevanceScore.compareValues a.relevanceScore).then
      (a.timestamp.compareValues b.timestamp)).isLE
  db.fetch .analyticsDetections AnalyticsRow.read (page limit none ordered)

/-- `get_primary_evidence_id`. -/
def primaryEvidenceId (db : CaseDatabase) : Except ParserError (Option ℤ) :=
  (do
    succeeds (db.io.preparing .evidenceItems)
    succeeds (db.io.stepping .evidenceItems 0)
    match db.tables.evidenceItems with
    | [] => .ok none
    | row :: _ => .ok (some row.id)).mapError (.databaseError db.path)

/-- `get_primary_evidence_grammar_and_tier`: the first item, if any; its row is
the only one requested. -/
def primaryEvidenceGrammarAndTier (db : CaseDatabase) :
    Except ParserError (Option (String × ℕ)) :=
  (do
    succeeds (db.io.preparing .evidenceItems)
    succeeds (db.io.stepping .evidenceItems 0)
    match db.tables.evidenceItems with
    | [] => .ok none
    | row :: _ => do
      let grammarId ← row.grammarId.getString 0
      let tier ← row.validationTier.getU8 1
      .ok (some (grammarId, tier))).mapError (.databaseError db.path)

end CaseDatabase

/-- A record with its sizes and offsets cut to 64 bits. -/
def wrap64 (r : ExtractedRecord) : ExtractedRecord :=
  { r with
    blockIndex := r.blockIndex % 2 ^ 64
    byteOffset := r.byteOffset % 2 ^ 64
    payloadOffset := r.payloadOffset % 2 ^ 64
    payloadLen := r.payloadLen % 2 ^ 64 }

/-- A stored record is read back as it was, to 64 bits. -/
theorem read_ofRecord (evidenceId : ℤ) (r : ExtractedRecord) :
    (ExtractedRow.ofRecord evidenceId r).read = .ok (wrap64 r) := by
  have hchannel : r.channelId.toNat % 2 ^ 64 = r.channelId.toNat :=
    Nat.mod_eq_of_lt (r.channelId.toNat_lt.trans (by decide))
  have hsequence : r.sequenceNum.toNat % 2 ^ 64 = r.sequenceNum.toNat :=
    Nat.mod_eq_of_lt (r.sequenceNum.toNat_lt.trans (by decide))
  have hflags : r.flags.toNat % 2 ^ 64 = r.flags.toNat :=
    Nat.mod_eq_of_lt (r.flags.toNat_lt.trans (by decide))
  have htimestamp : r.timestamp.toNat % 2 ^ 64 = r.timestamp.toNat :=
    Nat.mod_eq_of_lt r.timestamp.toNat_lt
  have hbool : ∀ b : Bool, ((if b then (1 : ℤ) else 0) == 1) = b := by decide
  have hopt : ∀ column : ℕ, ∀ s : Option String,
      (SqlValue.ofOptString s).getOptString column = .ok s := by
    intro column s
    cases s <;> rfl
  simp only [ExtractedRow.read, ExtractedRow.ofRecord, SqlValue.getI64, SqlValue.getString,
    SqlValue.ofBool, hopt, ok_bind, hbool, asU64_asI64, asU64_natCast, hchannel, hsequence,
    hflags, htimestamp, UInt32.ofNat_toNat, UInt64.ofNat_toNat, UInt16.ofNat_toNat, wrap64]

/-- Every call of SQLite that reads the records succeeds, and every row is well typed. -/
structure DbFile.RecordsReadable (file : DbFile) (tables : Tables) : Prop where
  opening : file.io.opening = none
  preparing : file.io.preparing .extractedRecords = none
  stepping : ∀ k ≤ tables.extractedRecords.length,
    file.io.stepping .extractedRecords k = none
  typed : ∀ row ∈ tables.extractedRecords, row.Typed

namespace CaseDatabase

theorem openFile_ok {path : String} {file : DbFile} {db : CaseDatabase} :
    openFile path file = .ok db ↔
      file.io.opening = none ∧ db = ⟨path, file.tables.getD .empty, file.io⟩ := by
  unfold openFile
  cases file.io.opening <;> simp [eq_comm]

theorem tables_openFile {path : String} {file : DbFile} {tables : Tables} {db : CaseDatabase}
    (htables : file.tables = some tables) (h : openFile path file = .ok db) :
    db.tables = tables := by
  simp [(openFile_ok.mp h).2, htables]

/-- What storing an extraction does to the file. -/
theorem storeCaseExtraction_ok {db db' : CaseDatabase} {caseName grammarId : String}
    {validationTier : ℕ} {records : List ExtractedRecord} {caseId evidenceId : ℤ}
    (h : db.storeCaseExtraction caseName grammarId validationTier records =
      .ok (db', caseId, evidenceId)) :
    evidenceId = nextId (db.tables.evidenceItems.map (·.id)) ∧
      db'.tables.evidenceItems = db.tables.evidenceItems ++
        [⟨evidenceId, caseId, .text grammarId, .integer validationTier⟩] ∧
      db'.tables.extractedRecords =
        db.tables.extractedRecords ++ records.map (ExtractedRow.ofRecord evidenceId) ∧
      db'.tables.carvedRecords = db.tables.carvedRecords ∧
      db'.tables.correlatedEvents = db.tables.correlatedEvents ∧
      db'.tables.analyticsDetections = db.tables.analyticsDetections := by
  unfold storeCaseExtraction at h
  cases hwriting : db.io.writing with
  | some e => simp [hwriting] at h
  | none =>
    simp only [hwriting] at h
    split at h
    · simp at h
    · simp only [Except.ok.injEq, Prod.mk.injEq] at h
      obtain ⟨rfl, rfl, rfl⟩ := h
      exact ⟨rfl, rfl, rfl, rfl, rfl, rfl⟩

/-- Storing an extraction succeeds when the transaction does: the case is there or
has just been inserted. -/
theorem storeCaseExtraction_isOk {db : CaseDatabase} (caseName grammarId : String)
    (validationTier : ℕ) (records : List ExtractedRecord) (hwriting : db.io.writing = none) :
    ∃ db' caseId evidenceId,
      db.storeCaseExtraction caseName grammarId validationTier records =
        .ok (db', caseId, evidenceId) ∧ db'.path = db.path ∧ db'.io = db.io := by
  unfold storeCaseExtraction
  rw [hwriting]
  dsimp only
  split
  · next hnone =>
    exfalso
    rw [List.find?_eq_none] at hnone
    split_ifs at hnone with hany
    · obtain ⟨row, hrow, hname⟩ := List.any_eq_true.mp hany
      exact hnone row hrow hname
    · exact hnone _ (List.mem_append_right _ (List.mem_singleton_self _)) (by simp)
  · exact ⟨_, _, _, rfl, rfl, rfl⟩

theorem writing_of_stored {db : CaseDatabase} {caseName grammarId : String} {validationTier : ℕ}
    {records : List ExtractedRecord} {out : CaseDatabase × ℤ × ℤ}
    (h : db.storeCaseExtraction caseName grammarId validationTier records = .ok out) :
    db.io.writing = none := by
  unfold storeCaseExtraction at h
  cases hwriting : db.io.writing with
  | some e => simp [hwriting] at h
  | none => rfl

theorem fetch_ok {ρ α : Type} {db : CaseDatabase} {table : Table}
    {read : ρ → Except SqlError α} {rows : List ρ} {out : List α} :
    db.fetch table read (.ok rows) = .ok out ↔
      db.io.preparing table = none ∧ (∀ k ≤ rows.length, db.io.stepping table k = none) ∧
        List.Forall₂ (fun row a => read row = .ok a) rows out := by
  have hmap : ∀ x : Except SqlError (List α),
      x.mapError (ParserError.databaseError db.path) = .ok out ↔ x = .ok out := by
    intro x
    cases x <;> simp [Except.mapError]
  simp only [fetch, hmap, ok_bind, bind_ok, succeeds_eq_ok, fetchFrom_ok, Nat.zero_add,
    exists_const]

theorem writing_sound {db : CaseDatabase} (hsound : db.io = .sound) : db.io.writing = none := by
  rw [hsound]
  rfl

/-- Without a restriction the query delivers every record. -/
theorem queryAllRecords_eq (db : CaseDatabase) :
    db.queryAllRecords = db.fetch .extractedRecords ExtractedRow.read
      (.ok (orderBy ExtractedRow.blockIndex db.tables.extractedRecords)) := by
  have hall : db.tables.extractedRecords.filter RecordFilter.default.selects =
      db.tables.extractedRecords := List.filter_eq_self.mpr fun _ _ => rfl
  rw [queryAllRecords, queryRecords, hall]
  rfl

theorem queryCarvedRecords_none (db : CaseDatabase) :
    db.queryCarvedRecords none = db.fetch .carvedRecords CarvedRow.read
      (.ok (orderBy CarvedRow.byteOffset db.tables.carvedRecords)) := by
  have hall : db.tables.carvedRecords.filter
      (fun row => (none : Option ℤ).all (row.evidenceId == ·)) = db.tables.carvedRecords :=
    List.filter_eq_self.mpr fun _ _ => rfl
  rw [queryCarvedRecords, hall]

theorem queryCorrelatedEvents_none (db : CaseDatabase) :
    db.queryCorrelatedEvents none =
      db.fetch .correlatedEvents CorrelatedRow.read (.ok db.tables.correlatedEvents) := by
  have hall : db.tables.correlatedEvents.filter
      (fun row => (none : Option ℤ).all (row.evidenceId == ·)) = db.tables.correlatedEvents :=
    List.filter_eq_self.mpr fun _ _ => rfl
  rw [queryCorrelatedEvents, hall]

theorem queryAllRecords_ok {db : CaseDatabase} {records : List ExtractedRecord} :
    db.queryAllRecords = .ok records ↔
      db.io.preparing .extractedRecords = none ∧
        (∀ k ≤ db.tables.extractedRecords.length,
          db.io.stepping .extractedRecords k = none) ∧
        List.Forall₂ (fun row r => row.read = .ok r)
          (orderBy ExtractedRow.blockIndex db.tables.extractedRecords) records := by
  rw [queryAllRecords_eq, fetch_ok, length_orderBy]

theorem queryCarvedRecords_ok {db : CaseDatabase} {frames : List CarvedFrame} :
    db.queryCarvedRecords none = .ok frames ↔
      db.io.preparing .carvedRecords = none ∧
        (∀ k ≤ db.tables.carvedRecords.length, db.io.stepping .carvedRecords k = none) ∧
        List.Forall₂ (fun row f => row.read = .ok f)
          (orderBy CarvedRow.byteOffset db.tables.carvedRecords) frames := by
  rw [queryCarvedRecords_none, fetch_ok, length_orderBy]

theorem fetch_map {ρ α : Type} (db : CaseDatabase) (table : Table)
    (read : ρ → Except SqlError α) (f : ρ → ρ) (hread : ∀ row, read (f row) = read row)
    (rows : List ρ) : db.fetch table read (.ok (rows.map f)) = db.fetch table read (.ok rows) := by
  simp only [fetch, ok_bind, fetchFrom_map _ read f hread]

/-- A change of columns that the query neither reads nor orders by does not show. -/
theorem queryAllRecords_map {db db' : CaseDatabase} (f : ExtractedRow → ExtractedRow)
    (hread : ∀ row, (f row).read = row.read)
    (hkey : ∀ row, (f row).blockIndex = row.blockIndex) (hpath : db'.path = db.path)
    (hio : db'.io = db.io)
    (hrows : db'.tables.extractedRecords = db.tables.extractedRecords.map f) :
    db'.queryAllRecords = db.queryAllRecords := by
  rw [queryAllRecords_eq, queryAllRecords_eq, hrows, orderBy_map _ f hkey,
    fetch_map db' _ _ f hread, fetch, fetch, hio, hpath]

theorem queryCarvedRecords_map {db db' : CaseDatabase} (f : CarvedRow → CarvedRow)
    (hread : ∀ row, (f row).read = row.read)
    (hkey : ∀ row, (f row).byteOffset = row.byteOffset) (hpath : db'.path = db.path)
    (hio : db'.io = db.io)
    (hrows : db'.tables.carvedRecords = db.tables.carvedRecords.map f) :
    db'.queryCarvedRecords none = db.queryCarvedRecords none := by
  rw [queryCarvedRecords_none, queryCarvedRecords_none, hrows, orderBy_map _ f hkey,
    fetch_map db' _ _ f hread, fetch, fetch, hio, hpath]

/-- What a successful query of all records delivers, row by row. -/
theorem mem_queryAllRecords {db : CaseDatabase} {records : List ExtractedRecord}
    (h : db.queryAllRecords = .ok records) (r : ExtractedRecord) :
    r ∈ records ↔ ∃ row ∈ db.tables.extractedRecords, row.read = .ok r := by
  have hrows := (queryAllRecords_ok.mp h).2.2
  have hmem : r ∈ records ↔
      ∃ row ∈ orderBy ExtractedRow.blockIndex db.tables.extractedRecords, row.read = .ok r := by
    clear h
    generalize orderBy ExtractedRow.blockIndex db.tables.extractedRecords = rows at hrows
    induction hrows with
    | nil => simp
    | cons hread _ ih =>
      simp only [List.mem_cons, ih, exists_eq_or_imp, hread, Except.ok.injEq]
      exact or_congr_left eq_comm
  rw [hmem]
  simp only [(perm_orderBy ExtractedRow.blockIndex db.tables.extractedRecords).mem_iff]

theorem exists_read_of_forall₂ {rows : List ExtractedRow} {records : List ExtractedRecord}
    (h : List.Forall₂ (fun row r => row.read = .ok r) rows records) :
    ∀ row ∈ rows, ∃ r, row.read = .ok r := by
  induction h with
  | nil => simp
  | cons hread _ ih => exact List.forall_mem_cons.mpr ⟨⟨_, hread⟩, ih⟩

/-- Opening the file and reading its records succeeds exactly when nothing in
the file stands against it. -/
theorem openFile_queryAllRecords_isOk (path : String) {file : DbFile} {tables : Tables}
    (htables : file.tables = some tables) :
    (∃ db records, openFile path file = .ok db ∧ db.queryAllRecords = .ok records) ↔
      file.RecordsReadable tables := by
  constructor
  · rintro ⟨db, records, hopen, hquery⟩
    obtain ⟨hopening, rfl⟩ := openFile_ok.mp hopen
    rw [htables, Option.getD_some] at hquery
    obtain ⟨hprep, hstep, hrows⟩ := queryAllRecords_ok.mp hquery
    refine ⟨hopening, hprep, hstep, fun row hrow => ?_⟩
    rw [← row.read_isOk]
    have hrow' : row ∈ orderBy ExtractedRow.blockIndex tables.extractedRecords :=
      (perm_orderBy _ _).mem_iff.mpr hrow
    exact exists_read_of_forall₂ hrows row hrow'
  · rintro ⟨hopening, hprep, hstep, htyped⟩
    have hread : ∀ row ∈ orderBy ExtractedRow.blockIndex tables.extractedRecords,
        ∃ r, row.read = .ok r :=
      fun row hrow => row.read_isOk.mpr (htyped row ((perm_orderBy _ _).mem_iff.mp hrow))
    obtain ⟨records, hrecords⟩ := exists_forall₂ hread
    refine ⟨⟨path, tables, file.io⟩, records, ?_, ?_⟩
    · exact openFile_ok.mpr ⟨hopening, by rw [htables, Option.getD_some]⟩
    · exact queryAllRecords_ok.mpr ⟨hprep, hstep, hrecords⟩

/-- Records stored in the order of their block indices are read back in it. -/
theorem queryAllRecords_ofRecords {db : CaseDatabase} {evidenceId : ℤ}
    {records : List ExtractedRecord}
    (hrows : db.tables.extractedRecords = records.map (ExtractedRow.ofRecord evidenceId))
    (hsorted : records.Pairwise fun a b => asI64 a.blockIndex ≤ asI64 b.blockIndex)
    (hsound : db.io = .sound) : db.queryAllRecords = .ok (records.map wrap64) := by
  have horder : orderBy ExtractedRow.blockIndex db.tables.extractedRecords =
      db.tables.extractedRecords := by
    rw [hrows]
    apply List.Pairwise.insertionSort_eq
    rw [List.pairwise_map]
    refine hsorted.imp fun h => ?_
    exact Int.isLE_compare.mpr h
  refine queryAllRecords_ok.mpr ⟨by rw [hsound]; rfl, fun _ _ => by rw [hsound]; rfl, ?_⟩
  rw [horder, hrows, List.forall₂_map_left_iff, List.forall₂_map_right_iff, List.forall₂_same]
  exact fun r _ => read_ofRecord evidenceId r

end CaseDatabase

end Dvrft.Database
