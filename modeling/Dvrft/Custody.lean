import Dvrft.Localisation
import Dvrft.Passes
import Dvrft.Pipeline
import Dvrft.Rerun
import Dvrft.StreamKinds

/-!
What may stand in the database of a case. Whatever stages are run on an unchanged
evidence, in whatever order, and wherever one of them fails, every row is one that the
evidence itself explains.
-/

namespace Dvrft.Custody

open Chunks ShortReads Errors Machine Platform Crates Sqlite Acquisition CaseFiles Interpreter
  Database Detection ParseCase Verify Verdict Carving StartCodes Correlation Analytics Pipeline
  Interference StreamKinds

/-- One run of a stage: how SQLite answers it, and what it finds. -/
structure Visit where
  io : DbIo
  workspace : Workspace
  stage : Stage

def Visit.run (X : Crates) (db : CaseDatabase) (v : Visit) : CaseDatabase :=
  v.stage.run X v.workspace { db with io := v.io }

def runVisits (X : Crates) (db : CaseDatabase) (visits : List Visit) : CaseDatabase :=
  visits.foldl (Visit.run X) db

/-- A directory that shows, if any, this manifest and this content. -/
structure Unaltered (manifest : AcquisitionManifest) (content : FileContent) (dir : CaseDir) :
    Prop where
  decoded : ∀ m, dir.manifest = .decoded m → m = manifest
  evidence : ∀ file, dir.resolve manifest.sourcePath = some file → file.content = content

/-- A record that can be read back. -/
def Stored (rows : List ExtractedRow) (r : ExtractedRecord) : Prop :=
  ∃ row ∈ rows, row.read = .ok r

/-- All records of some moment, as a query then answered them: rows are only added behind
the others. -/
def Answered (rows : List ExtractedRow) (records : List ExtractedRecord) : Prop :=
  ∃ first, first <+: rows ∧
    List.Forall₂ (fun row r => row.read = .ok r) (orderBy ExtractedRow.blockIndex first) records

/-- The record that a visit makes of a block of the evidence, with the grammar that it
detects and the plugin that this one names. -/
structure RecordBacked (X : Crates) (manifest : AcquisitionManifest) (content : Bytes)
    (visited : Set Workspace) (r : ExtractedRecord) : Prop where
  counted : r.blockIndex < manifest.blockCount
  block : ∃ w ∈ visited, ∃ evidence grammar path block,
    w.dir.resolveEvidence manifest = .ok evidence ∧
    detectGrammar X evidence w.grammarsDir w.headerPlan = .ok (grammar, path) ∧
    (blocks manifest.blockSize content)[r.blockIndex]? = some block ∧
    parseBlock X grammar (grammar.descramblePlugin.bind w.loadPlugin) r.blockIndex
      (r.blockIndex * manifest.blockSize) block = .ok r

/-- An event that a visit finds in the records of some moment. It lies between two stored
records of cameras, the first of them not later, and a transition names their channels. -/
structure EventBacked (visited : Set Workspace) (rows : List ExtractedRow)
    (e : CorrelatedDbEvent) : Prop where
  found : ∃ w ∈ visited, ∃ records, Answered rows records ∧ e ∈ correlatedEvents w records
  ends : ∃ a b, Stored rows a ∧ Stored rows b ∧
    (0 < a.channelId ∧ a.isCorrupted = false) ∧ (0 < b.channelId ∧ b.isCorrupted = false) ∧
    a.timestamp ≤ b.timestamp ∧ e.startTimestamp = a.normalizedTimestamp ∧
    e.endTimestamp = b.normalizedTimestamp ∧
    (e.eventType = "transition" →
      e.channelsInvolved = s!"{a.channelId.toNat},{b.channelId.toNat}")

/-- An entity that a visit's analysis of a stored record's payload proposes. -/
def DetectionBacked (X : Crates) (content : Bytes) (visited : Set Workspace)
    (rows : List ExtractedRow) (d : AnalyticsDbDetection) : Prop :=
  ∃ w ∈ visited, ∃ r analysis entity, Stored rows r ∧
    r.payloadOffset + r.payloadLen ≤ content.length ∧
    (analyzeFrame X r.blockIndex r.channelId r.timestamp r.normalizedTimestamp
      ((content.drop r.payloadOffset).take r.payloadLen) (r.flags &&& 1 != 0) :
        Staged FrameAnalytics) = .ok analysis ∧
    entity ∈ analysis.entities ∧ d = detection w.json r analysis entity

/-- Every row belongs to an item that is there, and the evidence and the visits explain it. -/
structure Backed (X : Crates) (manifest : AcquisitionManifest) (content : Bytes)
    (visited : Set Workspace) (tables : Tables) : Prop where
  records : ∀ row ∈ tables.extractedRecords,
    row.evidenceId ∈ tables.evidenceItems.map EvidenceRow.id ∧
      ∃ r, RecordBacked X manifest content visited r ∧ row = .ofRecord row.evidenceId r
  frames : ∀ row ∈ tables.carvedRecords,
    row.evidenceId ∈ tables.evidenceItems.map EvidenceRow.id ∧
      ∃ f, FromPiece X content f ∧ row = .ofFrame row.evidenceId f
  events : ∀ row ∈ tables.correlatedEvents,
    row.evidenceId ∈ tables.evidenceItems.map EvidenceRow.id ∧
      ∃ e, EventBacked visited tables.extractedRecords e ∧ row = .ofEvent row.id row.evidenceId e
  detections : ∀ row ∈ tables.analyticsDetections,
    row.evidenceId ∈ tables.evidenceItems.map EvidenceRow.id ∧
      ∃ d, DetectionBacked X content visited tables.extractedRecords d ∧
        row = .ofDetection row.id row.evidenceId d

theorem backed_empty (X : Crates) (manifest : AcquisitionManifest) (content : Bytes)
    (visited : Set Workspace) : Backed X manifest content visited .empty := by
  constructor <;> simp [Tables.empty]

/-- What a stage may do to the items and records: put more behind them. -/
structure Grows (tables tables' : Tables) : Prop where
  items : tables.evidenceItems <+: tables'.evidenceItems
  records : tables.extractedRecords <+: tables'.extractedRecords

variable {X : Crates} {manifest : AcquisitionManifest} {content : FileContent}
  {visited : Set Workspace} {tables tables' : Tables}

theorem Grows.item_mem (h : Grows tables tables') {id : ℤ}
    (hid : id ∈ tables.evidenceItems.map EvidenceRow.id) :
    id ∈ tables'.evidenceItems.map EvidenceRow.id :=
  (h.items.map EvidenceRow.id).subset hid

theorem Grows.stored (h : Grows tables tables') {r : ExtractedRecord}
    (hr : Stored tables.extractedRecords r) :
    Stored tables'.extractedRecords r := by
  obtain ⟨row, hrow, hread⟩ := hr
  exact ⟨row, h.records.subset hrow, hread⟩

theorem Grows.answered (h : Grows tables tables') {records : List ExtractedRecord}
    (hrecords : Answered tables.extractedRecords records) :
    Answered tables'.extractedRecords records := by
  obtain ⟨first, hfirst, hread⟩ := hrecords
  exact ⟨first, hfirst.trans h.records, hread⟩

theorem Grows.event (h : Grows tables tables') {e : CorrelatedDbEvent}
    (he : EventBacked visited tables.extractedRecords e) :
    EventBacked visited tables'.extractedRecords e := by
  obtain ⟨w, hw, records, hrecords, hfound⟩ := he.found
  obtain ⟨a, b, ha, hb, hrest⟩ := he.ends
  exact ⟨⟨w, hw, records, h.answered hrecords, hfound⟩, a, b, h.stored ha, h.stored hb, hrest⟩

theorem Grows.detection (h : Grows tables tables') {d : AnalyticsDbDetection}
    (hd : DetectionBacked X content.bytes visited tables.extractedRecords d) :
    DetectionBacked X content.bytes visited tables'.extractedRecords d := by
  obtain ⟨w, hw, r, analysis, entity, hr, hrest⟩ := hd
  exact ⟨w, hw, r, analysis, entity, h.stored hr, hrest⟩

/-- Tables that grow by backed rows stay backed. -/
theorem Backed.grow (h : Backed X manifest content.bytes visited tables)
    (hgrows : Grows tables tables')
    (hrecords : ∀ row ∈ tables'.extractedRecords, row ∉ tables.extractedRecords →
      row.evidenceId ∈ tables'.evidenceItems.map EvidenceRow.id ∧
        ∃ r, RecordBacked X manifest content.bytes visited r ∧
          row = .ofRecord row.evidenceId r)
    (hframes : ∀ row ∈ tables'.carvedRecords, row ∉ tables.carvedRecords →
      row.evidenceId ∈ tables'.evidenceItems.map EvidenceRow.id ∧
        ∃ f, FromPiece X content.bytes f ∧ row = .ofFrame row.evidenceId f)
    (hevents : ∀ row ∈ tables'.correlatedEvents, row ∉ tables.correlatedEvents →
      row.evidenceId ∈ tables'.evidenceItems.map EvidenceRow.id ∧
        ∃ e, EventBacked visited tables'.extractedRecords e ∧
          row = .ofEvent row.id row.evidenceId e)
    (hdetections : ∀ row ∈ tables'.analyticsDetections, row ∉ tables.analyticsDetections →
      row.evidenceId ∈ tables'.evidenceItems.map EvidenceRow.id ∧
        ∃ d, DetectionBacked X content.bytes visited tables'.extractedRecords d ∧
          row = .ofDetection row.id row.evidenceId d) :
    Backed X manifest content.bytes visited tables' where
  records row hrow := by
    by_cases hold : row ∈ tables.extractedRecords
    · obtain ⟨hitem, hbacked⟩ := h.records row hold
      exact ⟨hgrows.item_mem hitem, hbacked⟩
    · exact hrecords row hrow hold
  frames row hrow := by
    by_cases hold : row ∈ tables.carvedRecords
    · obtain ⟨hitem, hbacked⟩ := h.frames row hold
      exact ⟨hgrows.item_mem hitem, hbacked⟩
    · exact hframes row hrow hold
  events row hrow := by
    by_cases hold : row ∈ tables.correlatedEvents
    · obtain ⟨hitem, e, he, heq⟩ := h.events row hold
      exact ⟨hgrows.item_mem hitem, e, hgrows.event he, heq⟩
    · exact hevents row hrow hold
  detections row hrow := by
    by_cases hold : row ∈ tables.analyticsDetections
    · obtain ⟨hitem, d, hd, heq⟩ := h.detections row hold
      exact ⟨hgrows.item_mem hitem, d, hgrows.detection hd, heq⟩
    · exact hdetections row hrow hold

theorem openFile_fileOf {db opened : CaseDatabase}
    (h : CaseDatabase.openFile db.path (fileOf db) = .ok opened) :
    opened = db := by
  rw [(CaseDatabase.openFile_ok.mp h).2]
  rfl

theorem Unaltered.parser_manifest {dir : CaseDir} (h : Unaltered manifest content dir)
    {m : AcquisitionManifest} (hm : dir.loadManifest = .ok m) : m = manifest := by
  unfold CaseDir.loadManifest at hm
  cases hfile : dir.manifest with
  | missing => simp [hfile, fail] at hm
  | unreadable reason => simp [hfile, fail] at hm
  | decoded m' =>
    rw [hfile] at hm
    rw [← Except.ok.inj hm]
    exact h.decoded m' hfile

theorem Unaltered.parser_evidence {dir : CaseDir} (h : Unaltered manifest content dir)
    {file : EvidenceFile} (hfile : dir.resolveEvidence manifest = .ok file) :
    file.content = content := by
  unfold CaseDir.resolveEvidence at hfile
  cases hresolved : dir.resolve manifest.sourcePath with
  | none => simp [hresolved, fail] at hfile
  | some found =>
    rw [hresolved] at hfile
    rw [← Except.ok.inj hfile]
    exact h.evidence found hresolved

/-- What a visit finds before it parses: the evidence, and the grammar that matches it. -/
structure Finds (X : Crates) (manifest : AcquisitionManifest) (w : Workspace)
    (evidence : EvidenceFile) (grammar : Grammar.GrammarFile) (path : String) : Prop where
  resolved : w.dir.resolveEvidence manifest = .ok evidence
  detected : detectGrammar X evidence w.grammarsDir w.headerPlan = .ok (grammar, path)

/-- Every extracted record is that of its block. -/
theorem recordBacked_of_plain {w : Workspace} (hw : w ∈ visited) {evidence : EvidenceFile}
    {grammar : Grammar.GrammarFile} {path : String}
    (hfinds : Finds X manifest w evidence grammar path) {records : List ExtractedRecord}
    (h : plainRecords X manifest grammar (grammar.descramblePlugin.bind w.loadPlugin)
      content.bytes = .ok records) :
    ∀ r ∈ records, RecordBacked X manifest content.bytes visited r := by
  intro r hr
  obtain ⟨i, hi⟩ := List.getElem?_of_mem hr
  obtain ⟨block, hblock, hparse⟩ := (plainRecords_getElem h).2 i r hi
  have hindex := (parseBlock_identity hparse).1
  have hcount := (List.getElem?_eq_some_iff.mp hblock).1
  rw [List.length_take] at hcount
  rw [List.getElem?_take_of_lt (by omega)] at hblock
  rw [← hindex] at hblock hparse hcount
  exact ⟨by omega, w, hw, evidence, grammar, path, block, hfinds.resolved, hfinds.detected,
    hblock, hparse⟩

theorem extracted_backed {w : Workspace} (hw : w ∈ visited)
    (hdir : Unaltered manifest content w.dir)
    {m : AcquisitionManifest} (hm : w.dir.loadManifest = .ok m) {evidence : EvidenceFile}
    {detected : Grammar.GrammarFile × String}
    (hfinds : Finds X m w evidence detected.1 detected.2) {plan : Schedule IoError}
    {source : Source} (hsource : evidence.source plan = .ok source)
    {records : List ExtractedRecord}
    (hrecords : extractRecords X m detected.1 (detected.1.descramblePlugin.bind w.loadPlugin)
      source = .ok records) :
    ∀ r ∈ records, RecordBacked X manifest content.bytes visited r := by
  obtain rfl := hdir.parser_manifest hm
  obtain rfl := source_ok hsource
  have hplain := (extractRecords_ok hrecords).2
  rw [Reader.opened, hdir.parser_evidence hfinds.resolved] at hplain
  exact recordBacked_of_plain hw hfinds hplain

/-- Storing an extraction puts a new item and its records behind the others. -/
theorem Backed.extract {db db' : CaseDatabase}
    (h : Backed X manifest content.bytes visited db.tables)
    {caseName grammarId : String} {tier : ℕ} {records : List ExtractedRecord}
    (hrecords : ∀ r ∈ records, RecordBacked X manifest content.bytes visited r)
    {caseId evidenceId : ℤ}
    (hstore : db.storeCaseExtraction caseName grammarId tier records =
      .ok (db', caseId, evidenceId)) :
    Grows db.tables db'.tables ∧ Backed X manifest content.bytes visited db'.tables := by
  obtain ⟨-, hitems, hrows, hframes, hevents, hdetections⟩ :=
    CaseDatabase.storeCaseExtraction_ok hstore
  have hgrows : Grows db.tables db'.tables := ⟨⟨_, hitems.symm⟩, ⟨_, hrows.symm⟩⟩
  refine ⟨hgrows, h.grow hgrows ?_ ?_ ?_ ?_⟩
  · intro row hrow hnew
    rw [hrows] at hrow
    obtain ⟨r, hr, rfl⟩ := List.mem_map.mp ((List.mem_append.mp hrow).resolve_left hnew)
    refine ⟨?_, r, hrecords r hr, rfl⟩
    rw [hitems, List.map_append]
    exact List.mem_append_right _ (List.mem_singleton_self _)
  · intro row hrow hnew
    exact absurd (hframes ▸ hrow) hnew
  · intro row hrow hnew
    exact absurd (hevents ▸ hrow) hnew
  · intro row hrow hnew
    exact absurd (hdetections ▸ hrow) hnew

theorem backed_parse {w : Workspace} (hw : w ∈ visited) {db : CaseDatabase}
    {summary : ParseSummary} (h : Backed X manifest content.bytes visited db.tables)
    (hdir : Unaltered manifest content w.dir)
    (hrun : parseCase X w.dir w.grammarsDir w.loadPlugin db.path (fileOf db) w.headerPlan
      w.parsePlan = .ok (summary, tables')) :
    Backed X manifest content.bytes visited tables' := by
  simp only [parseCase, bind_ok] at hrun
  obtain ⟨m, hm, evidence, hevidence, detected, hdetected, source, hsource, records, hrecords,
    hstored⟩ := hrun
  have hbacked := extracted_backed hw hdir hm ⟨hevidence, hdetected⟩ hsource hrecords
  simp only [storeRecords, bind_ok, ofExcept_eq_ok] at hstored
  obtain ⟨streams, -, opened, hopen, ⟨stored, caseId, evidenceId⟩, hstore, hout⟩ := hstored
  obtain rfl := openFile_fileOf hopen
  simp only [Except.ok.injEq, Prod.mk.injEq] at hout
  obtain ⟨-, rfl⟩ := hout
  exact (h.extract hbacked hstore).2

theorem Unaltered.stage_manifest {dir : CaseDir} (h : Unaltered manifest content dir)
    {m : AcquisitionManifest} (hm : Pipeline.loadManifest dir = .ok m) : m = manifest := by
  unfold Pipeline.loadManifest at hm
  cases hfile : dir.manifest with
  | missing => simp [hfile, fail] at hm
  | unreadable reason => simp [hfile, fail] at hm
  | decoded m' =>
    rw [hfile] at hm
    rw [← Except.ok.inj hm]
    exact h.decoded m' hfile

theorem fromParser_ok {α : Type} {outcome : Except ParserError α} {a : α} :
    fromParser outcome = .ok a ↔ outcome = .ok a := by
  cases outcome <;> simp [fromParser, fail]

theorem fromRecovery_ok {α : Type} {outcome : Carved α} {a : α} :
    fromRecovery outcome = .ok a ↔ outcome = .ok a := by
  rcases outcome with (e | _) | b <;> simp [fromRecovery, fail, panicked]

/-- Rows are stored for an item that is there, and the tables become those intended. -/
theorem storeRows_ok {α : Type} {db : CaseDatabase} {id : ℤ} {reals : α → List Float}
    {values : List α} {inserted : Tables} {p : CaseDatabase × ℕ}
    (h : db.storeRows id reals values inserted = .ok p) :
    p.1.tables = inserted ∧ ∀ v ∈ values, id ∈ db.tables.evidenceItems.map EvidenceRow.id := by
  unfold CaseDatabase.storeRows at h
  split at h
  · cases h
  · split at h
    · cases h
    · next hnone =>
      rw [← Except.ok.inj h]
      refine ⟨rfl, fun v hv => ?_⟩
      have hv := List.findSome?_eq_none_iff.mp hnone v hv
      unfold CaseDatabase.refusedRow at hv
      split_ifs at hv with hnan habsent
      obtain ⟨item, hitem, hid⟩ : ∃ item ∈ db.tables.evidenceItems, item.id = id := by
        simpa using habsent
      exact List.mem_map.mpr ⟨item, hitem, hid⟩

/-- A stage that appends frames. -/
theorem Backed.addFrames (h : Backed X manifest content.bytes visited tables) {id : ℤ}
    {frames : List CarvedFrame} (hframes : ∀ f ∈ frames, FromPiece X content.bytes f)
    (hitem : ∀ f ∈ frames, id ∈ tables.evidenceItems.map EvidenceRow.id) :
    Backed X manifest content.bytes visited
      { tables with carvedRecords := tables.carvedRecords ++ frames.map (.ofFrame id) } where
  records := h.records
  frames row hrow := by
    rcases List.mem_append.mp hrow with hrow | hrow
    · exact h.frames row hrow
    · obtain ⟨f, hf, rfl⟩ := List.mem_map.mp hrow
      exact ⟨hitem f hf, f, hframes f hf, rfl⟩
  events := h.events
  detections := h.detections

theorem Backed.addEvents (h : Backed X manifest content.bytes visited tables) {id first : ℤ}
    {events : List CorrelatedDbEvent}
    (hevents : ∀ e ∈ events, EventBacked visited tables.extractedRecords e)
    (hitem : ∀ e ∈ events, id ∈ tables.evidenceItems.map EvidenceRow.id) :
    Backed X manifest content.bytes visited
      { tables with
        correlatedEvents := tables.correlatedEvents ++
          events.zipIdx.map fun p => .ofEvent (first + p.2) id p.1 } where
  records := h.records
  frames := h.frames
  events row hrow := by
    rcases List.mem_append.mp hrow with hrow | hrow
    · exact h.events row hrow
    · obtain ⟨p, hp, rfl⟩ := List.mem_map.mp hrow
      have hmem := List.fst_mem_of_mem_zipIdx hp
      exact ⟨hitem p.1 hmem, p.1, hevents p.1 hmem, rfl⟩
  detections := h.detections

theorem Backed.addDetections (h : Backed X manifest content.bytes visited tables) {id first : ℤ}
    {found : List AnalyticsDbDetection}
    (hfound : ∀ d ∈ found, DetectionBacked X content.bytes visited tables.extractedRecords d)
    (hitem : ∀ d ∈ found, id ∈ tables.evidenceItems.map EvidenceRow.id) :
    Backed X manifest content.bytes visited
      { tables with
        analyticsDetections := tables.analyticsDetections ++
          found.zipIdx.map fun p => .ofDetection (first + p.2) id p.1 } where
  records := h.records
  frames := h.frames
  events := h.events
  detections row hrow := by
    rcases List.mem_append.mp hrow with hrow | hrow
    · exact h.detections row hrow
    · obtain ⟨p, hp, rfl⟩ := List.mem_map.mp hrow
      have hmem := List.fst_mem_of_mem_zipIdx hp
      exact ⟨hitem p.1 hmem, p.1, hfound p.1 hmem, rfl⟩

theorem carvedFrames_pieces {w : Workspace} (hdir : Unaltered manifest content w.dir)
    {corrupted : List ExtractedRecord} {carved : List CarvedFrame}
    (h : carvedFrames X w manifest corrupted = .ok carved) :
    ∀ f ∈ carved, FromPiece X content.bytes f := by
  unfold carvedFrames at h
  cases himage : w.dir.resolve manifest.sourcePath with
  | none => simp [himage, fail] at h
  | some image =>
    rw [himage] at h
    rw [← hdir.evidence image himage]
    exact fromPiece_of_carved (fromRecovery_ok.mp h)

theorem backed_carve {w : Workspace} {db : CaseDatabase}
    (h : Backed X manifest content.bytes visited db.tables)
    (hdir : Unaltered manifest content w.dir)
    (hrun : runCarve X w db.path (fileOf db) = .ok tables') :
    Backed X manifest content.bytes visited tables' := by
  simp only [runCarve, bind_ok, fromParser_ok] at hrun
  obtain ⟨m, hm, opened, hopen, corrupted, -, carved, hcarved, primary, -, stored, hstored, hout⟩ :=
    hrun
  obtain rfl := hdir.stage_manifest hm
  obtain rfl := openFile_fileOf hopen
  obtain rfl := Except.ok.inj hout
  rw [CaseDatabase.storeCarvedRecords_eq] at hstored
  obtain ⟨htables, hitem⟩ := storeRows_ok hstored
  rw [htables]
  exact h.addFrames (carvedFrames_pieces hdir hcarved) hitem

theorem stored_of_query {db : CaseDatabase} {records : List ExtractedRecord}
    (h : db.queryAllRecords = .ok records) : ∀ r ∈ records, Stored db.tables.extractedRecords r :=
  fun r hr => (CaseDatabase.mem_queryAllRecords h r).mp hr

theorem answered_of_query {db : CaseDatabase} {records : List ExtractedRecord}
    (h : db.queryAllRecords = .ok records) : Answered db.tables.extractedRecords records :=
  ⟨_, List.prefix_rfl, (CaseDatabase.queryAllRecords_ok.mp h).2.2⟩

theorem Answered.stored {rows : List ExtractedRow} {records : List ExtractedRecord}
    (h : Answered rows records) : ∀ r ∈ records, Stored rows r := by
  obtain ⟨first, hfirst, hread⟩ := h
  intro r hr
  obtain ⟨i, hi, rfl⟩ := List.mem_iff_getElem.mp hr
  have hi' : i < (orderBy ExtractedRow.blockIndex first).length := by
    rw [hread.length_eq]
    exact hi
  have hmem := (perm_orderBy ExtractedRow.blockIndex first).mem_iff.mp (List.getElem_mem hi')
  exact ⟨_, hfirst.subset hmem, hread.get hi' hi⟩

theorem ends_of_inputs {rows : List ExtractedRow} {records : List ExtractedRecord}
    (hstored : ∀ r ∈ records, Stored rows r) {a b : RecordInput} {e : CorrelatedDbEvent}
    (ha : a ∈ records.map ExtractedRecord.toCorrelationInput)
    (hb : b ∈ records.map ExtractedRecord.toCorrelationInput) (heligibleA : eligible a)
    (heligibleB : eligible b) (hle : a.timestamp.toNat ≤ b.timestamp.toNat)
    (hstart : e.startTimestamp = a.normalizedTimestamp)
    (hend : e.endTimestamp = b.normalizedTimestamp)
    (hchannels : e.eventType = "transition" →
      e.channelsInvolved = s!"{a.channelId.toNat},{b.channelId.toNat}") :
    ∃ a b, Stored rows a ∧ Stored rows b ∧
      (0 < a.channelId ∧ a.isCorrupted = false) ∧ (0 < b.channelId ∧ b.isCorrupted = false) ∧
      a.timestamp ≤ b.timestamp ∧ e.startTimestamp = a.normalizedTimestamp ∧
      e.endTimestamp = b.normalizedTimestamp ∧
      (e.eventType = "transition" →
        e.channelsInvolved = s!"{a.channelId.toNat},{b.channelId.toNat}") := by
  obtain ⟨r, hr, rfl⟩ := List.mem_map.mp ha
  obtain ⟨r', hr', rfl⟩ := List.mem_map.mp hb
  have hcamera : ∀ r : ExtractedRecord, eligible r.toCorrelationInput →
      0 < r.channelId ∧ r.isCorrupted = false := by
    intro r h
    simp only [eligible, ExtractedRecord.toCorrelationInput, Bool.and_eq_true,
      Bool.not_eq_true'] at h
    exact ⟨of_decide_eq_true h.2, h.1⟩
  exact ⟨r, r', hstored r hr, hstored r' hr', hcamera r heligibleA, hcamera r' heligibleB,
    UInt64.le_iff_toNat_le.mpr hle, hstart, hend, hchannels⟩

theorem correlatedEvents_backed {w : Workspace} (hw : w ∈ visited)
    {records : List ExtractedRecord} (hanswered : Answered tables.extractedRecords records) :
    ∀ e ∈ correlatedEvents w records, EventBacked visited tables.extractedRecords e := by
  intro e he
  have hstored := hanswered.stored
  refine ⟨⟨w, hw, records, hanswered, he⟩, ?_⟩
  rcases List.mem_append.mp he with he | he
  · obtain ⟨t, ht, rfl⟩ := List.mem_map.mp he
    obtain ⟨a, ha, b, hb, heligibleA, heligibleB, -, hkey, hfrom, hto, hdelta, hpositive, -⟩ :=
      detectTransitions_sound ht
    rw [hdelta] at hpositive
    have hfirst : t.fromChannel = a.channelId := congrArg Prod.fst hkey
    have hsecond : t.toChannel = b.channelId := congrArg (fun key => key.2.1) hkey
    refine ends_of_inputs hstored ha hb heligibleA heligibleB
      (lt_of_elapsed_pos hpositive).le hfrom hto fun _ => ?_
    rw [transitionEvent, hfirst, hsecond]
  · obtain ⟨b, hb, rfl⟩ := List.mem_map.mp he
    obtain ⟨p, hp, hstart, hend, -⟩ := detectGlobalBlackouts_sound hb
    obtain ⟨hle, ⟨r, hr, heligible, hstamp⟩, r', hr', heligible', hstamp'⟩ := mem_silences hp
    have hstartTs : b.startNormalizedTs = r.normalizedTimestamp :=
      congrArg Prod.snd (hstart.trans hstamp.symm)
    have hendTs : b.endNormalizedTs = r'.normalizedTimestamp :=
      congrArg Prod.snd (hend.trans hstamp'.symm)
    have htimes : r.timestamp.toNat ≤ r'.timestamp.toNat := by
      rw [← hstamp, ← hstamp'] at hle
      exact hle
    refine ends_of_inputs hstored hr hr' heligible heligible' htimes hstartTs hendTs ?_
    intro htransition
    exact absurd htransition (by simp [blackoutEvent])

theorem backed_correlate {w : Workspace} (hw : w ∈ visited) {db : CaseDatabase}
    (h : Backed X manifest content.bytes visited db.tables)
    (hrun : runCorrelate w db.path (fileOf db) = .ok tables') :
    Backed X manifest content.bytes visited tables' := by
  simp only [runCorrelate, bind_ok, fromParser_ok] at hrun
  obtain ⟨opened, hopen, records, hrecords, primary, -, hout⟩ := hrun
  obtain rfl := openFile_fileOf hopen
  cases hstore : opened.storeCorrelatedEvents (primary.getD 1) (correlatedEvents w records) with
  | error e =>
    rw [hstore] at hout
    rw [← Except.ok.inj hout]
    exact h
  | ok stored =>
    rw [hstore] at hout
    obtain ⟨htables, hitem⟩ := storeRows_ok hstore
    rw [← Except.ok.inj hout, htables]
    exact h.addEvents (correlatedEvents_backed hw (answered_of_query hrecords)) hitem

/-- A payload that was read is the whole of it. -/
theorem readPayload_some {bytes : Bytes} {plan : Schedule IoError} {r : ExtractedRecord}
    {payload : Bytes} (h : readPayload X bytes plan r = .ok (some payload)) :
    payload = (bytes.drop r.payloadOffset).take r.payloadLen ∧
      payload.length = r.payloadLen := by
  unfold readPayload at h
  obtain ⟨_, -, h⟩ := bind_ok.mp h
  dsimp only at h
  split_ifs at h
  · cases h
  · cases hread : (Reader.opened (bytes.drop r.payloadOffset) plan).readFull r.payloadLen with
    | error e => simp [hread] at h
    | ok p =>
      obtain ⟨buf, file⟩ := p
      have hbuf := (readFull_ok hread).1
      rw [hread] at h
      simp only [Except.ok.injEq] at h
      split_ifs at h with hshort
      obtain rfl := Option.some.inj h
      refine ⟨hbuf, le_antisymm ?_ (not_lt.mp hshort)⟩
      rw [hbuf]
      exact List.length_take_le _ _

theorem analyzeRecord_backed {w : Workspace} (hw : w ∈ visited) {p : ExtractedRecord × ℕ}
    {found : List AnalyticsDbDetection} (hstored : Stored tables.extractedRecords p.1)
    (h : analyzeRecord X w content.bytes p = .ok found) :
    ∀ d ∈ found, DetectionBacked X content.bytes visited tables.extractedRecords d := by
  unfold analyzeRecord at h
  dsimp only at h
  split_ifs at h with hempty
  · rw [← Except.ok.inj h]
    simp
  · obtain ⟨read, hread, h⟩ := bind_ok.mp h
    cases read with
    | none =>
      rw [← Except.ok.inj h]
      simp
    | some payload =>
      obtain ⟨hpayload, hlen⟩ := readPayload_some hread
      obtain ⟨analysis, hanalysis, h⟩ := bind_ok.mp h
      rw [← Except.ok.inj h]
      intro d hd
      obtain ⟨entity, hentity, rfl⟩ := List.mem_map.mp hd
      rw [hpayload] at hanalysis hlen
      rw [List.length_take, List.length_drop] at hlen
      exact ⟨w, hw, p.1, analysis, entity, hstored, by omega, hanalysis, hentity, rfl⟩

theorem detections_backed {w : Workspace} (hw : w ∈ visited)
    (hdir : Unaltered manifest content w.dir)
    {records : List ExtractedRecord} (hstored : ∀ r ∈ records, Stored tables.extractedRecords r)
    {found : List AnalyticsDbDetection} (h : detections X w manifest records = .ok found) :
    ∀ d ∈ found, DetectionBacked X content.bytes visited tables.extractedRecords d := by
  simp only [detections, bind_ok] at h
  obtain ⟨bytes, hbytes, lists, hlists, hflat⟩ := h
  have hcontent : bytes = content.bytes := by
    unfold openEvidence at hbytes
    cases hfile : w.dir.resolve manifest.sourcePath with
    | none => simp [hfile, fail] at hbytes
    | some file =>
      cases hrefusal : file.refusal with
      | some e => simp [hfile, hrefusal, fail] at hbytes
      | none =>
        rw [hfile] at hbytes
        simp only [hrefusal] at hbytes
        rw [← Except.ok.inj hbytes, hdir.evidence file hfile]
  rw [hcontent] at hlists
  rw [← Except.ok.inj hflat]
  intro d hd
  obtain ⟨list, hlist, hd⟩ := List.mem_flatten.mp hd
  obtain ⟨i, hi, rfl⟩ := List.mem_iff_getElem.mp hlist
  have hall := mapM_ok.mp hlists
  have hi' : i < records.zipIdx.length := by rw [hall.length_eq]; exact hi
  have hstep := hall.get hi' hi
  have hmem : records.zipIdx[i].1 ∈ records :=
    List.fst_mem_of_mem_zipIdx (List.getElem_mem hi')
  exact analyzeRecord_backed hw (hstored _ hmem) hstep d hd

theorem backed_analyze {w : Workspace} (hw : w ∈ visited) {db : CaseDatabase}
    (h : Backed X manifest content.bytes visited db.tables)
    (hdir : Unaltered manifest content w.dir)
    (hrun : runAnalyze X w db.path (fileOf db) = .ok tables') :
    Backed X manifest content.bytes visited tables' := by
  simp only [runAnalyze, bind_ok, fromParser_ok] at hrun
  obtain ⟨m, hm, opened, hopen, records, hrecords, primary, -, found, hfound, stored, hstored,
    hout⟩ := hrun
  obtain rfl := hdir.stage_manifest hm
  obtain rfl := openFile_fileOf hopen
  obtain rfl := Except.ok.inj hout
  obtain ⟨htables, hitem⟩ := storeRows_ok hstored
  rw [htables]
  exact h.addDetections (detections_backed hw hdir (stored_of_query hrecords) hfound) hitem

theorem toOption_eq_some {ε α : Type} {outcome : Except ε α} {a : α}
    (h : outcome.toOption = some a) : outcome = .ok a := by
  cases outcome with
  | error e => cases h
  | ok b => exact congrArg Except.ok (Option.some.inj h)

/-- What a run that does not fail makes of the tables. -/
inductive Leaves (X : Crates) (w : Workspace) (tables : Tables) : Stage → Tables → Prop
  | parsed {tables' : Tables} (item : ℤ) (records : List ExtractedRecord)
      (hrecords : tables'.extractedRecords =
        tables.extractedRecords ++ records.map (ExtractedRow.ofRecord item))
      (hframes : tables'.carvedRecords = tables.carvedRecords)
      (hevents : tables'.correlatedEvents = tables.correlatedEvents)
      (hdetections : tables'.analyticsDetections = tables.analyticsDetections) :
      Leaves X w tables .parse tables'
  | carved (m : AcquisitionManifest) (item : ℤ) (corrupted : List ExtractedRecord)
      (frames : List CarvedFrame) (hframes : carvedFrames X w m corrupted = .ok frames) :
      Leaves X w tables .carve (Rerun.withFrames tables item frames)
  | uncorrelated : Leaves X w tables .correlate tables
  | correlated (item : ℤ) (records : List ExtractedRecord) :
      Leaves X w tables .correlate (Rerun.withEvents tables item (correlatedEvents w records))
  | analyzed (m : AcquisitionManifest) (item : ℤ) (records : List ExtractedRecord)
      (found : List AnalyticsDbDetection) (hfound : detections X w m records = .ok found) :
      Leaves X w tables .analyze (Rerun.withDetections tables item found)

theorem leaves_of_outcome {w : Workspace} {db : CaseDatabase} {stage : Stage}
    (hrun : stage.outcome X w db.path (fileOf db) = some tables') :
    Leaves X w db.tables stage tables' := by
  unfold Stage.outcome at hrun
  cases stage with
  | parse =>
    obtain ⟨⟨summary, found⟩, hparse, rfl⟩ := Option.map_eq_some_iff.mp hrun
    have hparse := toOption_eq_some hparse
    simp only [parseCase, bind_ok] at hparse
    obtain ⟨m, -, evidence, -, detected, -, source, -, records, -, hstored⟩ := hparse
    simp only [storeRecords, bind_ok, ofExcept_eq_ok] at hstored
    obtain ⟨streams, -, opened, hopen, ⟨stored, caseId, evidenceId⟩, hstore, hout⟩ := hstored
    obtain rfl := openFile_fileOf hopen
    obtain ⟨-, -, hrecords, hframes, hevents, hdetections⟩ :=
      CaseDatabase.storeCaseExtraction_ok hstore
    simp only [Except.ok.injEq, Prod.mk.injEq] at hout
    obtain ⟨-, rfl⟩ := hout
    exact .parsed evidenceId records hrecords hframes hevents hdetections
  | carve =>
    have hrun := toOption_eq_some hrun
    simp only [runCarve, bind_ok, fromParser_ok] at hrun
    obtain ⟨m, -, opened, hopen, corrupted, -, frames, hframes, item, -, stored, hstored, hout⟩ :=
      hrun
    obtain rfl := openFile_fileOf hopen
    rw [CaseDatabase.storeCarvedRecords_eq] at hstored
    rw [← Except.ok.inj hout, (storeRows_ok hstored).1]
    exact .carved m _ corrupted frames hframes
  | correlate =>
    have hrun := toOption_eq_some hrun
    simp only [runCorrelate, bind_ok, fromParser_ok] at hrun
    obtain ⟨opened, hopen, records, -, item, -, hout⟩ := hrun
    obtain rfl := openFile_fileOf hopen
    cases hstore : opened.storeCorrelatedEvents (item.getD 1) (correlatedEvents w records) with
    | error e =>
      rw [hstore] at hout
      rw [← Except.ok.inj hout]
      exact .uncorrelated
    | ok stored =>
      rw [hstore] at hout
      rw [← Except.ok.inj hout, (storeRows_ok hstore).1]
      exact .correlated _ records
  | analyze =>
    have hrun := toOption_eq_some hrun
    simp only [runAnalyze, bind_ok, fromParser_ok] at hrun
    obtain ⟨m, -, opened, hopen, records, -, item, -, found, hfound, stored, hstored, hout⟩ := hrun
    obtain rfl := openFile_fileOf hopen
    rw [← Except.ok.inj hout, (storeRows_ok hstored).1]
    exact .analyzed m _ records found hfound

theorem backed_run {db : CaseDatabase} (h : Backed X manifest content.bytes visited db.tables)
    (v : Visit) (hw : v.workspace ∈ visited)
    (hdir : Unaltered manifest content v.workspace.dir) :
    Backed X manifest content.bytes visited (v.run X db).tables := by
  have houtcome : ∀ tables, v.stage.outcome X v.workspace db.path
      (fileOf { db with io := v.io }) = some tables →
        Backed X manifest content.bytes visited tables := by
    intro tables hrun
    unfold Stage.outcome at hrun
    cases hstage : v.stage with
    | parse =>
      rw [hstage] at hrun
      obtain ⟨⟨summary, found⟩, hparse, rfl⟩ := Option.map_eq_some_iff.mp hrun
      exact @backed_parse X manifest content _ _ v.workspace hw { db with io := v.io } summary h
        hdir (toOption_eq_some hparse)
    | carve =>
      rw [hstage] at hrun
      exact @backed_carve X manifest content _ _ v.workspace { db with io := v.io } h hdir
        (toOption_eq_some hrun)
    | correlate =>
      rw [hstage] at hrun
      exact @backed_correlate X manifest content _ _ v.workspace hw { db with io := v.io } h
        (toOption_eq_some hrun)
    | analyze =>
      rw [hstage] at hrun
      exact @backed_analyze X manifest content _ _ v.workspace hw { db with io := v.io } h hdir
        (toOption_eq_some hrun)
  unfold Visit.run Stage.run
  dsimp only
  cases hrun : v.stage.outcome X v.workspace db.path (fileOf { db with io := v.io }) with
  | none => exact h
  | some tables => exact houtcome tables hrun

/-- The workspaces that visits see. -/
def seenBy (visits : List Visit) : Set Workspace := {w | ∃ v ∈ visits, v.workspace = w}

theorem backed_visits {db : CaseDatabase}
    (h : Backed X manifest content.bytes visited db.tables) {visits : List Visit}
    (hseen : seenBy visits ⊆ visited)
    (hdirs : ∀ v ∈ visits, Unaltered manifest content v.workspace.dir) :
    Backed X manifest content.bytes visited (runVisits X db visits).tables := by
  induction visits generalizing db with
  | nil => exact h
  | cons v rest ih =>
    obtain ⟨hv, hrest⟩ := List.forall_mem_cons.mp hdirs
    have hw : v.workspace ∈ visited := hseen ⟨v, List.mem_cons_self, rfl⟩
    refine ih (backed_run h v hw hv) ?_ hrest
    rintro w ⟨v', hv', rfl⟩
    exact hseen ⟨v', List.mem_cons_of_mem _ hv', rfl⟩

/-- From a new database on, every row that any visits leave is explained by the evidence. -/
theorem runVisits_backed (X : Crates) {manifest : AcquisitionManifest} {content : FileContent}
    (path : String) {visits : List Visit}
    (hdirs : ∀ v ∈ visits, Unaltered manifest content v.workspace.dir) :
    Backed X manifest content.bytes (seenBy visits)
      (runVisits X (fresh path) visits).tables :=
  backed_visits (backed_empty X manifest content.bytes _) subset_rfl hdirs

theorem unaltered_holding (manifest : AcquisitionManifest) (path : String)
    (content : FileContent) : Unaltered manifest content (.holding manifest path content) where
  decoded m hm := (ManifestFile.decoded.inj hm).symm
  evidence file hfile := by rw [← Option.some.inj hfile]

/-- A field of a frame's header, least significant byte first. -/
def cameraField (fieldType : String) (offset : ℕ) (role : String) : Grammar.FieldDef :=
  ⟨fieldType, offset, some "little", some role, none, none, none⟩

/-- A grammar of frames of 40 bytes that begin with the letter a, a camera, a time and
flags. -/
def cameraGrammar : Grammar.GrammarFile where
  id := "camera"
  name := "Camera"
  tier := 1
  descramblePlugin := none
  rules := [⟨0, some "a", none⟩]
  structures :=
    { superblock := none
      partitionTable := none
      videoBlock :=
        { fixedSize := 40
          header :=
            { size := 8
              magic := ⟨0, some "a", none⟩
              fields := [cameraField "u8" 1 "channel_id", cameraField "u32" 2 "timestamp",
                cameraField "u16" 6 "flags"] }
          payload := ⟨8, 32⟩ } }

/-- A keyframe of each of two cameras, five seconds apart, and a block that is none. -/
def twoCameras : FileContent where
  bytes := [97, 1, 100, 0, 0, 0, 1, 0] ++ List.replicate 32 7 ++
    [97, 2, 105, 0, 0, 0, 1, 0] ++ List.replicate 32 9 ++ [98, 0, 0, 1, 0x65, 1, 2, 3]
  size_lt := by decide

def twoCamerasManifest : AcquisitionManifest :=
  plainManifest .sample "evidence.raw" "case" "" 40 twoCameras.bytes

def twoCamerasWorkspace : Workspace where
  dir := .holding twoCamerasManifest "evidence.raw" twoCameras
  grammarsDir := ⟨"grammars", .ok [⟨"camera.yaml", some "yaml", some cameraGrammar⟩]⟩
  loadPlugin _ := none
  json := ⟨fun _ => "", fun _ => "", fun _ => "", fun _ => ""⟩
  window := 10
  blackoutGap := 15
  headerPlan := eager
  parsePlan := eager
  carvePlan := eager
  analyzePlans _ := eager

/-- Every stage, and a carving run that cannot store. -/
def fiveVisits : List Visit :=
  [⟨.sound, twoCamerasWorkspace, .parse⟩,
    ⟨{ DbIo.sound with writing := some (.sqliteFailure 13) }, twoCamerasWorkspace, .carve⟩,
    ⟨.sound, twoCamerasWorkspace, .carve⟩, ⟨.sound, twoCamerasWorkspace, .correlate⟩,
    ⟨.sound, twoCamerasWorkspace, .analyze⟩]

theorem fiveVisits_unaltered :
    ∀ v ∈ fiveVisits, Unaltered twoCamerasManifest twoCameras v.workspace.dir := by
  have hdir := unaltered_holding twoCamerasManifest "evidence.raw" twoCameras
  simp only [fiveVisits, List.forall_mem_cons]
  exact ⟨hdir, hdir, hdir, hdir, hdir, by simp⟩

/-- How many rows there are of items, records, frames, events and detections. -/
def rowCounts (tables : Tables) : List ℕ :=
  [tables.evidenceItems.length, tables.extractedRecords.length, tables.carvedRecords.length,
    tables.correlatedEvents.length, tables.analyticsDetections.length]

theorem runVisits_backed_five :
    Backed .sample twoCamerasManifest twoCameras.bytes (seenBy fiveVisits)
        (runVisits .sample (fresh "case.db") fiveVisits).tables ∧
      rowCounts (runVisits .sample (fresh "case.db") fiveVisits).tables = [1, 3, 1, 1, 2] :=
  ⟨runVisits_backed .sample "case.db" fiveVisits_unaltered, by decide +kernel⟩

section Verification

variable {sourcePath caseName acquiredAt : String} {original : FileContent}

/-- The block and the offset that a discrepancy names. -/
def placeNamed (d : DbRecordDiscrepancy) : ℕ × ℕ := (d.blockIndex, d.byteOffset)

theorem blockCount_plain
    (hm : manifest = plainManifest X sourcePath caseName acquiredAt manifest.blockSize
      original.bytes) :
    manifest.blockCount = blockCount manifest.blockSize original.bytes.length := by
  rw [hm]
  rfl

/-- What is stored of a backed record: its block, and the hash of that. -/
theorem wrap64_backed (hsize : 0 < manifest.blockSize)
    (hm : manifest = plainManifest X sourcePath caseName acquiredAt manifest.blockSize
      original.bytes) {r : ExtractedRecord}
    (hr : RecordBacked X manifest original.bytes visited r) :
    (wrap64 r).blockIndex = r.blockIndex ∧
      (wrap64 r).blake3Hash =
        X.blake3Hex (blockAt manifest.blockSize original.bytes r.blockIndex) := by
  obtain ⟨w, -, evidence, grammar, path, block, -, -, hblock, hparse⟩ := hr.block
  have hcounted := hr.counted
  rw [blockCount_plain hm] at hcounted
  have hfile := original.size_lt
  have hfew := blockCount_le manifest.blockSize original.bytes.length hsize
  rw [getElem?_blocks _ _ _ hcounted] at hblock
  refine ⟨Nat.mod_eq_of_lt (by omega), ?_⟩
  rw [Option.some.inj hblock]
  exact (parseBlock_identity hparse).2.2

/-- A stored record is objected to exactly when its block is not what it was. -/
theorem compareRecord_backed (found : Bytes) (hsize : 0 < manifest.blockSize)
    (hm : manifest = plainManifest X sourcePath caseName acquiredAt manifest.blockSize
      original.bytes)
    (hinj : Set.InjOn X.blake3 {block | block ∈ blocks manifest.blockSize original.bytes ∨
      block ∈ blocks manifest.blockSize found})
    {r : ExtractedRecord} (hr : RecordBacked X manifest original.bytes visited r) :
    (compareRecord ((blocks manifest.blockSize (scanned manifest found)).map X.blake3Hex)
      (wrap64 r)).map placeNamed =
        if blockAt manifest.blockSize found r.blockIndex ≠
          blockAt manifest.blockSize original.bytes r.blockIndex then
            some (r.blockIndex, (wrap64 r).byteOffset)
        else none := by
  obtain ⟨hindex, hhash⟩ := wrap64_backed hsize hm hr
  have hcounted := hr.counted
  have horiginal := hcounted
  rw [blockCount_plain hm] at horiginal
  unfold compareRecord
  rw [hindex, hhash, scanned, blocks_take _ _ _ hsize, List.getElem?_map,
    List.getElem?_take_of_lt hcounted]
  by_cases hthere : r.blockIndex < blockCount manifest.blockSize found.length
  · rw [getElem?_blocks _ _ _ hthere, Option.map_some]
    have hiff : X.blake3Hex (blockAt manifest.blockSize original.bytes r.blockIndex) ≠
        X.blake3Hex (blockAt manifest.blockSize found r.blockIndex) ↔
          blockAt manifest.blockSize found r.blockIndex ≠
            blockAt manifest.blockSize original.bytes r.blockIndex := by
      rw [Ne, X.blake3Hex_eq_iff, Ne, not_iff_not]
      constructor
      · intro heq
        exact (hinj (.inl (List.mem_of_getElem? (getElem?_blocks _ _ _ horiginal)))
          (.inr (List.mem_of_getElem? (getElem?_blocks _ _ _ hthere))) heq).symm
      · intro heq
        rw [heq]
    dsimp only
    by_cases haltered : blockAt manifest.blockSize found r.blockIndex ≠
        blockAt manifest.blockSize original.bytes r.blockIndex
    · rw [if_pos (hiff.mpr haltered), if_pos haltered]
      rfl
    · rw [if_neg (fun h => haltered (hiff.mp h)), if_neg haltered]
      rfl
  · -- the block is gone, and it was not empty
    have hgone : (blocks manifest.blockSize found)[r.blockIndex]? = none :=
      List.getElem?_eq_none (by rw [length_blocks]; omega)
    have hplace := (lt_blockCount_iff _ _ _ hsize).mp horiginal
    have hbeyond := mt (lt_blockCount_iff _ _ _ hsize).mpr hthere
    have haltered : blockAt manifest.blockSize found r.blockIndex ≠
        blockAt manifest.blockSize original.bytes r.blockIndex := by
      intro heq
      have hlen := congrArg List.length heq
      rw [length_blockAt, length_blockAt] at hlen
      omega
    rw [hgone, if_pos haltered]
    rfl

/-- What is read back of backed records: all of them, and the audit names those whose
blocks are not what they were. -/
theorem crossCheck_backed (hsize : 0 < manifest.blockSize)
    (hm : manifest = plainManifest X sourcePath caseName acquiredAt manifest.blockSize
      original.bytes)
    (hbacked : Backed X manifest original.bytes visited tables) (found : Bytes)
    (hinj : Set.InjOn X.blake3 {block | block ∈ blocks manifest.blockSize original.bytes ∨
      block ∈ blocks manifest.blockSize found}) (path : String) :
    ∃ records, (CaseDatabase.mk path tables .sound).queryAllRecords = .ok records ∧
      (crossCheck path ⟨some tables, .sound⟩
        ((blocks manifest.blockSize (scanned manifest found)).map X.blake3Hex)).2.map placeNamed =
          (records.filter fun r => blockAt manifest.blockSize found r.blockIndex ≠
            blockAt manifest.blockSize original.bytes r.blockIndex).map
              fun r => (r.blockIndex, r.byteOffset) := by
  have hreadable : DbFile.RecordsReadable ⟨some tables, .sound⟩ tables := by
    refine ⟨rfl, rfl, fun _ _ => rfl, fun row hrow => ?_⟩
    obtain ⟨-, r, -, heq⟩ := hbacked.records row hrow
    rw [heq, ← ExtractedRow.read_isOk]
    exact ⟨_, read_ofRecord _ r⟩
  obtain ⟨opened, records, hopen, hquery⟩ :=
    (CaseDatabase.openFile_queryAllRecords_isOk path rfl).mpr hreadable
  have hopened : opened = ⟨path, tables, .sound⟩ := (CaseDatabase.openFile_ok.mp hopen).2
  subst hopened
  refine ⟨records, hquery, ?_⟩
  have hcheck : (crossCheck path ⟨some tables, .sound⟩
      ((blocks manifest.blockSize (scanned manifest found)).map X.blake3Hex)).2 =
        records.filterMap (compareRecord
          ((blocks manifest.blockSize (scanned manifest found)).map X.blake3Hex)) := by
    unfold crossCheck
    simp only [hopen, hquery]
  have hrecord : ∀ r ∈ records, (compareRecord
      ((blocks manifest.blockSize (scanned manifest found)).map X.blake3Hex) r).map placeNamed =
        if blockAt manifest.blockSize found r.blockIndex ≠
          blockAt manifest.blockSize original.bytes r.blockIndex then
            some (r.blockIndex, r.byteOffset) else none := by
    intro r hr
    obtain ⟨row, hrow, hread⟩ := (CaseDatabase.mem_queryAllRecords hquery r).mp hr
    obtain ⟨-, r', hr', heq⟩ := hbacked.records row hrow
    rw [heq, read_ofRecord, Except.ok.injEq] at hread
    rw [← hread, compareRecord_backed found hsize hm hinj hr', (wrap64_backed hsize hm hr').1]
  rw [hcheck, List.map_filterMap, ← List.filterMap_eq_filter, List.map_filterMap]
  refine List.filterMap_congr fun r hr => ?_
  rw [hrecord r hr]
  by_cases haltered : blockAt manifest.blockSize found r.blockIndex =
    blockAt manifest.blockSize original.bytes r.blockIndex <;> simp [haltered, Option.guard]

/-- However a case was examined, its verification objects to the stored records of exactly
the blocks that were altered since, and no examination changes the verdict. -/
theorem verify_after_visits {requested : Option ℕ} {acquisitionPlan plan : Schedule IoError}
    (hacquired : acquireEvidence X sourcePath caseName acquiredAt
      (.opened original.bytes acquisitionPlan) requested = .ok manifest)
    (hmemory : manifest.blockSize ≤ X.memory ∧ 24 * manifest.blockCount ≤ X.memory)
    {visits : List Visit}
    (hdirs : ∀ v ∈ visits, Unaltered manifest original v.workspace.dir) (found : FileContent)
    (hblocks : Set.InjOn X.blake3 {block | block ∈ blocks manifest.blockSize original.bytes ∨
      block ∈ blocks manifest.blockSize found.bytes})
    (hcontents : X.sha256.digest (scanned manifest found.bytes) = X.sha256.digest original.bytes →
      scanned manifest found.bytes = original.bytes)
    (hlegal : Legal plan) (evidencePath path now : String) :
    let tables := (runVisits X (fresh path) visits).tables
    ∃ records report, (CaseDatabase.mk path tables .sound).queryAllRecords = .ok records ∧
      verifyCaseIntegrity X (.holding manifest evidencePath found) path ⟨some tables, .sound⟩
        plan now = .ok report ∧
      report.dbRecordDiscrepancies.map placeNamed =
        (records.filter fun r => blockAt manifest.blockSize found.bytes r.blockIndex ≠
          blockAt manifest.blockSize original.bytes r.blockIndex).map
            (fun r => (r.blockIndex, r.byteOffset)) ∧
      (report.isPristine = true ↔ found.bytes = original.bytes ∨
        manifest.blockSize ∣ original.bytes.length ∧ original.bytes <+: found.bytes) := by
  intro tables
  obtain ⟨hsize, hm⟩ := Localisation.manifest_plain hacquired hmemory.1
  have hbacked : Backed X manifest original.bytes (seenBy visits) tables :=
    runVisits_backed X path hdirs
  obtain ⟨records, hquery, hplaces⟩ := crossCheck_backed hsize hm hbacked found.bytes hblocks path
  have hscan := scanned_eq_original_iff found.bytes hsize hm
  refine ⟨records, _, hquery, verifyCaseIntegrity_legal X manifest evidencePath found path
    ⟨some tables, .sound⟩ plan now hmemory hlegal, hplaces, ?_⟩
  rw [plainReport_isPristine found.bytes evidencePath path now _ hm, ← hscan]
  constructor
  · rintro ⟨hsha, -⟩
    exact hcontents hsha
  · intro hsame
    rw [hsame]
    refine ⟨rfl, rfl, blockDiscrepancies_original hm, ?_⟩
    have hself : scanned manifest original.bytes = original.bytes :=
      (scanned_eq_original_iff original.bytes hsize hm).mpr (.inl rfl)
    obtain ⟨records', -, hnone⟩ := crossCheck_backed hsize hm hbacked original.bytes
      (hblocks.mono fun block hblock => .inl (hblock.elim id id)) path
    rw [hself] at hnone
    rw [← crossCheck_silent path]
    simpa using hnone

end Verification

/-- The first camera's frame, altered after every stage was run. -/
def alteredCameras : FileContent where
  bytes := twoCameras.bytes.set 8 5
  size_lt := by decide

theorem verify_after_visits_five :
    ∃ report, verifyCaseIntegrity .sample
        (.holding twoCamerasManifest "evidence.raw" alteredCameras) "case.db"
        ⟨some (runVisits .sample (fresh "case.db") fiveVisits).tables, .sound⟩ eager "" =
          .ok report ∧ report.isPristine = false ∧
      report.dbRecordDiscrepancies.map placeNamed = [(0, 0)] := by
  have hacquired := acquireEvidence_legal .sample "evidence.raw" "case" ""
    (.opened twoCameras.bytes eager) 40 (by decide) (by decide) eager_legal
  have hblocks : Set.InjOn Crates.sample.blake3
      {block | block ∈ blocks 40 twoCameras.bytes ∨ block ∈ blocks 40 alteredCameras.bytes} := by
    have hall : ∀ a ∈ blocks 40 twoCameras.bytes ++ blocks 40 alteredCameras.bytes,
        ∀ b ∈ blocks 40 twoCameras.bytes ++ blocks 40 alteredCameras.bytes,
          Crates.sample.blake3 a = Crates.sample.blake3 b → a = b := by decide +kernel
    intro a ha b hb
    exact hall a (List.mem_append.mpr ha) b (List.mem_append.mpr hb)
  have hcontents : Crates.sample.sha256.digest (scanned twoCamerasManifest alteredCameras.bytes) =
      Crates.sample.sha256.digest twoCameras.bytes →
        scanned twoCamerasManifest alteredCameras.bytes = twoCameras.bytes :=
    fun h => absurd h (by decide +kernel)
  obtain ⟨records, report, hquery, hreport, hplaces, hpristine⟩ :=
    verify_after_visits hacquired (by decide +kernel) fiveVisits_unaltered alteredCameras hblocks
      hcontents eager_legal "evidence.raw" "case.db" ""
  refine ⟨report, hreport, ?_, ?_⟩
  · rw [← Bool.not_eq_true, hpristine]
    decide +kernel
  · have hone : ((CaseDatabase.mk "case.db"
        (runVisits .sample (fresh "case.db") fiveVisits).tables .sound).queryAllRecords).map
          (fun records => (records.filter fun r => blockAt 40 alteredCameras.bytes r.blockIndex ≠
            blockAt 40 twoCameras.bytes r.blockIndex).map fun r => (r.blockIndex, r.byteOffset)) =
          .ok [(0, 0)] := by decide +kernel
    rw [hquery] at hone
    exact hplaces.trans (Except.ok.inj hone)

end Dvrft.Custody
