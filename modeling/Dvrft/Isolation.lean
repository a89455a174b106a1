import Dvrft.ClockShift
import Dvrft.Custody
import Dvrft.Lookups

/-!
What a plugin can put into a case. Whatever it answers, the database is the one that there
would be without any plugin, but for the two columns that say what was descrambled.
-/

namespace Dvrft.Isolation

open Chunks ShortReads Errors Machine Platform Crates Sqlite Grammar Acquisition CaseFiles
  Interpreter Database Detection Demux ParseCase Carving Correlation Analytics Pipeline Interference
  Custody Exhibits Rerun ClockShift

/-- A record without what a plugin says of it. -/
def unmarked (r : ExtractedRecord) : ExtractedRecord :=
  { r with
    descrambled := false
    descrambledBlake3Hash := none }

def unmarkedRow (row : ExtractedRow) : ExtractedRow :=
  { row with
    descrambled := .ofBool false
    descrambledBlake3Hash := .ofOptString none }

def unmarkedTables (tables : Tables) : Tables :=
  { tables with extractedRecords := tables.extractedRecords.map unmarkedRow }

def unmarkedDb (db : CaseDatabase) : CaseDatabase := { db with tables := unmarkedTables db.tables }

/-- What a run finds when there is no plugin to load. -/
def withoutPlugins (w : Workspace) : Workspace := { w with loadPlugin := fun _ => none }

theorem unmarkedRow_ofRecord (id : ℤ) (r : ExtractedRecord) :
    unmarkedRow (.ofRecord id r) = .ofRecord id (unmarked r) := rfl

section Parsing

variable {X : Crates} {grammar : GrammarFile} {plugin : Option Descrambler}

theorem unmarked_of_interpretBlock {blockIndex byteOffset : ℕ} {block : Bytes} {hash : String}
    {r : ExtractedRecord} (h : interpretBlock X grammar blockIndex byteOffset block hash = .ok r) :
    unmarked r = r := by
  obtain ⟨-, magicBytes, -, ⟨-, hvideo⟩ | ⟨-, _, _, _, _, -, rfl⟩⟩ := interpretBlock_cases h
  · obtain ⟨v, payloadOffset, -, -, rfl⟩ := parseVideoBlock_cases hvideo
    rfl
  · rfl

theorem onlyPanics_descrambleRecord (block : Bytes) (r : ExtractedRecord) :
    OnlyPanics (descrambleRecord X plugin block r) := by
  unfold descrambleRecord
  split
  · refine (X.build.onlyPanics_add _ _).bind fun payloadEnd => ?_
    split_ifs
    · refine (onlyPanics_slice _ _ _).bind fun payload => ?_
      split
      · exact onlyPanics_ok _
      · exact onlyPanics_ok _
      · exact onlyPanics_panicked
    · exact onlyPanics_ok _
  · exact onlyPanics_ok _

/-- A plugin panics, or it marks the record that there is without it. -/
theorem parseBlock_unmarked (blockIndex currentOffset : ℕ) (block : Bytes) :
    parseBlock X grammar plugin blockIndex currentOffset block = panicked ∨
      (parseBlock X grammar plugin blockIndex currentOffset block).map unmarked =
        parseBlock X grammar none blockIndex currentOffset block := by
  unfold parseBlock
  cases hrecord : interpretBlock X grammar blockIndex currentOffset block (X.blake3Hex block) with
  | error e => exact .inr rfl
  | ok record =>
    have hplain := unmarked_of_interpretBlock hrecord
    have hnone : descrambleRecord X none block record = .ok record := by
      unfold descrambleRecord
      cases record.isScrambled <;> rfl
    simp only [ok_bind, hnone]
    cases hmarked : descrambleRecord X plugin block record with
    | ok r =>
      right
      rcases descrambleRecord_cases hmarked with rfl | ⟨hash, rfl⟩
      · exact congrArg Except.ok hplain
      · exact congrArg Except.ok hplain
    | error failure =>
      left
      rw [← hmarked]
      exact (onlyPanics_descrambleRecord block record).eq_panicked fun a ha => by
        rw [ha] at hmarked
        cases hmarked

theorem extractRecords_unmarked (manifest : AcquisitionManifest) (source : Source) :
    extractRecords X manifest grammar plugin source = panicked ∨
      (extractRecords X manifest grammar plugin source).map (List.map unmarked) =
        extractRecords X manifest grammar none source := by
  unfold extractRecords
  cases X.allocate manifest.blockSize with
  | error e => exact .inr rfl
  | ok u =>
    have hstep : ∀ (s : List ExtractedRecord × ℕ) (idx : ℕ) (block : Bytes),
        addBlock X grammar plugin s idx block = .error .panic ∨
          (addBlock X grammar plugin s idx block).map (Prod.map (List.map unmarked) id) =
            addBlock X grammar none (Prod.map (List.map unmarked) id s) idx block := by
      intro s idx block
      unfold addBlock
      rcases @parseBlock_unmarked X grammar plugin idx s.2 block with hpanic | hsame
      · left
        rw [hpanic]
        rfl
      · right
        simp only [Prod.map_snd, id, ← hsame]
        cases parseBlock X grammar plugin idx s.2 block with
        | error e => rfl
        | ok r => simp [Except.map]
    have hloop : forBlocks manifest.blockSize (fun e => .error (.io e)) (addBlock X grammar plugin)
          manifest.blockCount 0 ([], 0) source = .error .panic ∨
        (forBlocks manifest.blockSize (fun e => .error (.io e)) (addBlock X grammar plugin)
          manifest.blockCount 0 ([], 0) source).map (Prod.map (List.map unmarked) id) =
            forBlocks manifest.blockSize (fun e => .error (.io e)) (addBlock X grammar none)
              manifest.blockCount 0 ([], 0) source :=
      forBlocks_map hstep manifest.blockCount 0 ([], 0) source
    cases X.allocate (recordSize * manifest.blockCount) with
    | error e => exact .inr rfl
    | ok u =>
      simp only [ok_bind]
      rcases hloop with hpanic | hsame
      · left
        rw [hpanic]
        rfl
      · right
        rw [← hsame]
        cases forBlocks manifest.blockSize (fun e => .error (.io e)) (addBlock X grammar plugin)
          manifest.blockCount 0 ([], 0) source <;> rfl

theorem gapsAfter_unmarked (X : Crates) (prev : UInt32) (records : List ExtractedRecord) :
    gapsAfter X prev (records.map unmarked) = gapsAfter X prev records := by
  induction records generalizing prev with
  | nil => rfl
  | cons r rest ih => simp only [List.map_cons, gapsAfter, ih]; rfl

theorem demuxChannel_unmarked (X : Crates) (records : List ExtractedRecord) (channel : UInt32) :
    (demuxChannel X (records.map unmarked) channel).map (fun _ => ()) =
      (demuxChannel X records channel).map fun _ => () := by
  have hfilter : (records.map unmarked).filter (·.channelId == channel) =
      (records.filter (·.channelId == channel)).map unmarked := List.filter_map
  have hsort := List.map_insertionSort Demux.precedes Demux.precedes unmarked
    (records.filter (·.channelId == channel)) fun _ _ _ _ => Iff.rfl
  have hgaps : ∀ rs, sequenceGaps X (rs.map unmarked) = sequenceGaps X rs := by
    intro rs
    cases rs with
    | nil => rfl
    | cons r rest => exact gapsAfter_unmarked X r.sequenceNum rest
  unfold demuxChannel
  dsimp only
  rw [hfilter, ← hsort, hgaps]
  cases sequenceGaps X ((records.filter (·.channelId == channel)).insertionSort Demux.precedes) <;>
    rfl

theorem demuxRecords_unmarked (X : Crates) (records : List ExtractedRecord) :
    (demuxRecords X (records.map unmarked)).map (fun _ => ()) =
      (demuxRecords X records).map fun _ => () := by
  have hchannels : channels (records.map unmarked) = channels records := by
    unfold channels
    rw [List.map_map]
    rfl
  unfold demuxRecords
  rw [hchannels]
  induction channels records with
  | nil => rfl
  | cons channel rest ih =>
    have hfirst := demuxChannel_unmarked X records channel
    rw [List.mapM_cons, List.mapM_cons]
    revert hfirst ih
    cases demuxChannel X (records.map unmarked) channel <;>
      cases demuxChannel X records channel <;>
        cases rest.mapM (demuxChannel X (records.map unmarked)) <;>
          cases rest.mapM (demuxChannel X records) <;>
            simp [Except.map]

/-- The cases, with the named one among them. -/
def casesWith (tables : Tables) (caseName : String) : List CaseRow :=
  if tables.cases.any (·.caseName == caseName) then tables.cases
  else tables.cases ++ [⟨nextIdAfter tables.caseSequence (tables.cases.map (·.id)), caseName⟩]

theorem storeCaseExtraction_eq (db : CaseDatabase) (caseName grammarId : String)
    (validationTier : ℕ) (records : List ExtractedRecord) :
    db.storeCaseExtraction caseName grammarId validationTier records =
      match db.io.writing with
      | some e => .error (.databaseError db.path e)
      | none =>
        match (casesWith db.tables caseName).find? (·.caseName == caseName) with
        | none => .error (.databaseError db.path .queryReturnedNoRows)
        | some row =>
          .ok (⟨db.path, { db.tables with
            cases := casesWith db.tables caseName
            caseSequence := nextIdAfter db.tables.caseSequence (db.tables.cases.map (·.id))
            evidenceItems := db.tables.evidenceItems ++
              [⟨nextId (db.tables.evidenceItems.map (·.id)), row.id, .text grammarId,
                .integer validationTier⟩]
            extractedRecords := db.tables.extractedRecords ++ records.map
              (ExtractedRow.ofRecord (nextId (db.tables.evidenceItems.map (·.id)))) },
            db.io⟩, row.id, nextId (db.tables.evidenceItems.map (·.id))) := rfl

theorem storeCaseExtraction_unmarked (db : CaseDatabase) (caseName grammarId : String)
    (validationTier : ℕ) (records : List ExtractedRecord) :
    (unmarkedDb db).storeCaseExtraction caseName grammarId validationTier
        (records.map unmarked) =
      (db.storeCaseExtraction caseName grammarId validationTier records).map
        (Prod.map unmarkedDb id) := by
  have hrows : ∀ item : ℤ, db.tables.extractedRecords.map unmarkedRow ++
      (records.map unmarked).map (ExtractedRow.ofRecord item) =
        (db.tables.extractedRecords ++ records.map (ExtractedRow.ofRecord item)).map
          unmarkedRow := by
    intro item
    rw [List.map_append, List.map_map, List.map_map]
    rfl
  have hio : (unmarkedDb db).io = db.io := rfl
  have hcases : casesWith (unmarkedDb db).tables caseName = casesWith db.tables caseName := rfl
  rw [storeCaseExtraction_eq, storeCaseExtraction_eq, hio, hcases]
  cases db.io.writing with
  | some e => rfl
  | none =>
    dsimp only
    cases (casesWith db.tables caseName).find? (·.caseName == caseName) with
    | none => rfl
    | some row =>
      simp only [Except.map, Prod.map, unmarkedDb, unmarkedTables, hrows, id]

theorem openFile_unmarked (path : String) (db : CaseDatabase) :
    CaseDatabase.openFile path (fileOf (unmarkedDb db)) =
      (CaseDatabase.openFile path (fileOf db)).map unmarkedDb := by
  have hio : (fileOf (unmarkedDb db)).io = (fileOf db).io := rfl
  unfold CaseDatabase.openFile
  rw [hio]
  cases (fileOf db).io.opening <;> rfl

theorem storeRecords_unmarked (X : Crates) (manifest : AcquisitionManifest)
    (grammar : GrammarFile) (records : List ExtractedRecord) (path : String) (db : CaseDatabase) :
    (storeRecords X manifest grammar (records.map unmarked) path (fileOf (unmarkedDb db))).map
        Prod.snd =
      (storeRecords X manifest grammar records path (fileOf db)).map
        fun p => unmarkedTables p.2 := by
  have hdemux := demuxRecords_unmarked X records
  unfold storeRecords
  rw [openFile_unmarked]
  revert hdemux
  cases demuxRecords X (records.map unmarked) with
  | error e =>
    cases demuxRecords X records with
    | error e' =>
      intro hdemux
      exact congrArg _ (Except.error.inj hdemux)
    | ok streams =>
      intro hdemux
      cases hdemux
  | ok streams =>
    cases demuxRecords X records with
    | error e' =>
      intro hdemux
      cases hdemux
    | ok streams' =>
      intro _
      cases CaseDatabase.openFile path (fileOf db) with
      | error e => rfl
      | ok opened =>
        have hstore := storeCaseExtraction_unmarked opened manifest.caseName grammar.id
          grammar.tier records
        simp only [ok_bind, Except.map, Machine.ofExcept, hstore]
        cases opened.storeCaseExtraction manifest.caseName grammar.id grammar.tier records <;> rfl

/-- A parse run panics, or it leaves what it leaves without plugins, and marks. -/
theorem parseCase_unmarked (X : Crates) (w : Workspace) (path : String) (db : CaseDatabase) :
    parseCase X w.dir w.grammarsDir w.loadPlugin path (fileOf db) w.headerPlan w.parsePlan =
        panicked ∨
      (parseCase X w.dir w.grammarsDir (fun _ => none) path (fileOf (unmarkedDb db)) w.headerPlan
          w.parsePlan).map Prod.snd =
        (parseCase X w.dir w.grammarsDir w.loadPlugin path (fileOf db) w.headerPlan
          w.parsePlan).map fun p => unmarkedTables p.2 := by
  unfold parseCase
  cases w.dir.loadManifest with
  | error e => exact .inr rfl
  | ok manifest =>
    simp only [ok_bind]
    cases w.dir.resolveEvidence manifest with
    | error e => exact .inr rfl
    | ok evidence =>
      simp only [ok_bind]
      cases detectGrammar X evidence w.grammarsDir w.headerPlan with
      | error e => exact .inr rfl
      | ok detected =>
        simp only [ok_bind]
        cases evidence.source w.parsePlan with
        | error e => exact .inr rfl
        | ok source =>
          have hnone : detected.1.descramblePlugin.bind (fun _ => (none : Option Descrambler)) =
              none := by
            cases detected.1.descramblePlugin <;> rfl
          simp only [ok_bind, hnone]
          rcases @extractRecords_unmarked X detected.1
            (detected.1.descramblePlugin.bind w.loadPlugin) manifest source with hpanic | hsame
          · left
            rw [hpanic]
            rfl
          · right
            rw [← hsame]
            cases extractRecords X manifest detected.1
                (detected.1.descramblePlugin.bind w.loadPlugin) source with
            | error e => rfl
            | ok records => exact storeRecords_unmarked X manifest detected.1 records path db

end Parsing

/-- Every record row was written by a parse run. -/
def Written (tables : Tables) : Prop :=
  ∀ row ∈ tables.extractedRecords, ∃ id r, row = .ofRecord id r

theorem read_unmarkedRow (id : ℤ) (r : ExtractedRecord) :
    (unmarkedRow (.ofRecord id r)).read = (ExtractedRow.ofRecord id r).read.map unmarked := by
  rw [unmarkedRow_ofRecord, read_ofRecord, read_ofRecord]
  rfl

theorem fetchFrom_change {ρ α : Type} {answer : ℕ → Option SqlError}
    {read : ρ → Except SqlError α} {change : ρ → ρ} {shown : α → α} {rows : List ρ}
    (h : ∀ row ∈ rows, read (change row) = (read row).map shown) (k : ℕ) :
    fetchFrom answer read k (rows.map change) =
      (fetchFrom answer read k rows).map (List.map shown) := by
  induction rows generalizing k with
  | nil =>
    simp only [List.map_nil, fetchFrom]
    cases answer k <;> rfl
  | cons row rest ih =>
    obtain ⟨hrow, hrest⟩ := List.forall_mem_cons.mp h
    rw [List.map_cons, fetchFrom, fetchFrom, hrow, ih hrest]
    cases answer k <;> cases read row <;> cases fetchFrom answer read (k + 1) rest <;> rfl

/-- A query that does not ask for descrambled records does not see the marks. -/
theorem queryRecords_unmarked {db : CaseDatabase} (hwritten : Written db.tables)
    {filter : RecordFilter} (hfilter : filter.descrambledOnly = false) :
    (unmarkedDb db).queryRecords filter = (db.queryRecords filter).map (List.map unmarked) := by
  have hselects : ∀ row, filter.selects (unmarkedRow row) = filter.selects row := by
    intro row
    unfold RecordFilter.selects
    rw [hfilter]
    rfl
  have hrows : (unmarkedDb db).tables.extractedRecords.filter filter.selects =
      (db.tables.extractedRecords.filter filter.selects).map unmarkedRow := by
    refine List.filter_map.trans (congrArg _ (List.filter_congr fun row _ => ?_))
    exact hselects row
  have hpage : ∀ rows : List ExtractedRow, page filter.limit filter.offset (rows.map unmarkedRow) =
      (page filter.limit filter.offset rows).map (List.map unmarkedRow) := by
    intro rows
    unfold page
    cases filter.limit with
    | none => rfl
    | some limit =>
      dsimp only
      split_ifs
      · rfl
      · rw [← List.map_drop, ← List.map_take]
        rfl
  have hread : ∀ row ∈ orderBy ExtractedRow.blockIndex
      (db.tables.extractedRecords.filter filter.selects),
        (unmarkedRow row).read = row.read.map unmarked := by
    intro row hrow
    have hmem := List.mem_of_mem_filter ((perm_orderBy _ _).mem_iff.mp hrow)
    obtain ⟨id, r, rfl⟩ := hwritten row hmem
    exact read_unmarkedRow id r
  unfold CaseDatabase.queryRecords CaseDatabase.fetch
  rw [hrows, orderBy_map _ unmarkedRow fun _ => rfl, hpage]
  have hio : (unmarkedDb db).io = db.io := rfl
  rw [hio]
  cases hselected : page filter.limit filter.offset
      (orderBy ExtractedRow.blockIndex (db.tables.extractedRecords.filter filter.selects)) with
  | error e => cases db.io.preparing .extractedRecords <;> rfl
  | ok rows =>
    have hrest : fetchFrom (db.io.stepping .extractedRecords) ExtractedRow.read 0
          (rows.map unmarkedRow) =
        (fetchFrom (db.io.stepping .extractedRecords) ExtractedRow.read 0 rows).map
          (List.map unmarked) :=
      fetchFrom_change (fun row hrow => hread row (mem_of_page hselected hrow)) 0
    cases hprepared : db.io.preparing .extractedRecords with
    | some e => rfl
    | none =>
      simp only [Sqlite.succeeds, ok_bind, Except.map]
      rw [hrest]
      cases fetchFrom (db.io.stepping .extractedRecords) ExtractedRow.read 0 rows <;> rfl

theorem storeRows_unmarked {α : Type} (db : CaseDatabase) (item : ℤ) (reals : α → List Float)
    (values : List α) (inserted : Tables) :
    (unmarkedDb db).storeRows item reals values (unmarkedTables inserted) =
      (db.storeRows item reals values inserted).map (Prod.map unmarkedDb id) := by
  unfold CaseDatabase.storeRows
  have hio : (unmarkedDb db).io = db.io := rfl
  have hitems : (unmarkedDb db).tables.evidenceItems = db.tables.evidenceItems := rfl
  rw [hio, hitems]
  cases db.io.writing with
  | some e => rfl
  | none =>
    dsimp only
    cases values.findSome? fun a =>
      CaseDatabase.refusedRow db.tables.evidenceItems item (reals a) <;> rfl

section Storing

variable (db : CaseDatabase) (item : ℤ)

theorem storeCarvedRecords_unmarked (frames : List CarvedFrame) :
    (unmarkedDb db).storeCarvedRecords item frames =
      (db.storeCarvedRecords item frames).map (Prod.map unmarkedDb id) := by
  rw [CaseDatabase.storeCarvedRecords_eq, CaseDatabase.storeCarvedRecords_eq]
  exact storeRows_unmarked db item _ frames (withFrames db.tables item frames)

theorem storeCorrelatedEvents_unmarked (events : List CorrelatedDbEvent) :
    (unmarkedDb db).storeCorrelatedEvents item events =
      (db.storeCorrelatedEvents item events).map (Prod.map unmarkedDb id) :=
  storeRows_unmarked db item _ events (withEvents db.tables item events)

theorem storeAnalyticsDetections_unmarked (found : List AnalyticsDbDetection) :
    (unmarkedDb db).storeAnalyticsDetections item found =
      (db.storeAnalyticsDetections item found).map (Prod.map unmarkedDb id) :=
  storeRows_unmarked db item _ found (withDetections db.tables item found)

end Storing

/-- The database that a stage opens answers without the marks. -/
theorem opened_unmarked {path : String} {db opened : CaseDatabase} (hwritten : Written db.tables)
    (hopen : CaseDatabase.openFile path (fileOf db) = .ok opened) {filter : RecordFilter}
    (hfilter : filter.descrambledOnly = false) :
    (unmarkedDb opened).queryRecords filter =
      (opened.queryRecords filter).map (List.map unmarked) := by
  have hexisting : (fileOf db).tables = some db.tables := rfl
  have htables : opened.tables = db.tables := CaseDatabase.tables_openFile hexisting hopen
  exact queryRecords_unmarked (htables ▸ hwritten) hfilter

theorem runCarve_unmarked (X : Crates) (w : Workspace) (path : String) {db : CaseDatabase}
    (hwritten : Written db.tables) :
    runCarve X (withoutPlugins w) path (fileOf (unmarkedDb db)) =
      (runCarve X w path (fileOf db)).map unmarkedTables := by
  have hblocks : ∀ manifest (records : List ExtractedRecord),
      carvedFrames X (withoutPlugins w) manifest (records.map unmarked) =
        carvedFrames X w manifest records := by
    intro manifest records
    have htargets : targetBlocks manifest (records.map unmarked) =
        targetBlocks manifest records := by
      unfold targetBlocks
      rw [List.map_map, List.isEmpty_map]
      rfl
    unfold carvedFrames
    rw [htargets]
    rfl
  unfold runCarve
  rw [openFile_unmarked]
  change loadManifest w.dir >>= _ = _
  cases loadManifest w.dir with
  | error e => rfl
  | ok manifest =>
    simp only [ok_bind]
    cases hopen : CaseDatabase.openFile path (fileOf db) with
    | error e => rfl
    | ok opened =>
      have hfilter : { RecordFilter.default with corruptedOnly := true }.descrambledOnly = false :=
        rfl
      have hquery := opened_unmarked hwritten hopen hfilter
      simp only [Except.map, fromParser, ok_bind]
      rw [hquery]
      cases opened.queryRecords { RecordFilter.default with corruptedOnly := true } with
      | error e => rfl
      | ok records =>
        simp only [Except.map, ok_bind]
        rw [hblocks]
        cases carvedFrames X w manifest records with
        | error e => rfl
        | ok frames =>
          simp only [ok_bind]
          have hprimary : (unmarkedDb opened).primaryEvidenceId = opened.primaryEvidenceId := rfl
          rw [hprimary]
          cases opened.primaryEvidenceId with
          | error e => rfl
          | ok item =>
            simp only [ok_bind, storeCarvedRecords_unmarked]
            cases opened.storeCarvedRecords (item.getD 1) frames <;> rfl

/-- To correlate records that are not marked is to correlate under the same clock. -/
theorem correlatedEvents_unmarked (w : Workspace) (records : List ExtractedRecord) :
    correlatedEvents (withoutPlugins w) (records.map unmarked) = correlatedEvents w records := by
  have hinputs : List.Forall₂ (Ahead 0 (· = ·))
      ((records.map unmarked).map ExtractedRecord.toCorrelationInput)
      (records.map ExtractedRecord.toCorrelationInput) := by
    simp only [List.forall₂_map_left_iff, List.forall₂_map_right_iff, List.forall₂_same]
    exact fun r _ => ⟨rfl, rfl, rfl, rfl, rfl, rfl, rfl⟩
  have htransitions := detectTransitions_ahead (mergeTimeline_ahead hinputs) w.window
  have hblackouts := detectGlobalBlackouts_ahead hinputs w.blackoutGap
  exact congrArg₂ (· ++ ·)
    (Related.map_eq (fun t t' h => congrArg (transitionEvent w.json) h.eq) htransitions)
    (Related.map_eq (fun b b' h => congrArg (blackoutEvent w.json) h.eq) hblackouts)

theorem runCorrelate_unmarked (w : Workspace) (path : String) {db : CaseDatabase}
    (hwritten : Written db.tables) :
    runCorrelate (withoutPlugins w) path (fileOf (unmarkedDb db)) =
      (runCorrelate w path (fileOf db)).map unmarkedTables := by
  unfold runCorrelate
  rw [openFile_unmarked]
  cases hopen : CaseDatabase.openFile path (fileOf db) with
  | error e => rfl
  | ok opened =>
    have hquery : (unmarkedDb opened).queryAllRecords =
        opened.queryAllRecords.map (List.map unmarked) := opened_unmarked hwritten hopen rfl
    simp only [Except.map, fromParser, ok_bind]
    rw [hquery]
    cases opened.queryAllRecords with
    | error e => rfl
    | ok records =>
      have hprimary : (unmarkedDb opened).primaryEvidenceId = opened.primaryEvidenceId := rfl
      simp only [Except.map, ok_bind, hprimary, correlatedEvents_unmarked]
      cases opened.primaryEvidenceId with
      | error e => rfl
      | ok item =>
        simp only [ok_bind, storeCorrelatedEvents_unmarked]
        cases opened.storeCorrelatedEvents (item.getD 1) (correlatedEvents w records) <;> rfl

theorem detections_unmarked (X : Crates) (w : Workspace) (manifest : AcquisitionManifest)
    (records : List ExtractedRecord) :
    detections X (withoutPlugins w) manifest (records.map unmarked) =
      detections X w manifest records := by
  have hall : ∀ content, (records.map unmarked).zipIdx.mapM
      (analyzeRecord X (withoutPlugins w) content) =
        records.zipIdx.mapM (analyzeRecord X w content) := by
    intro content
    rw [List.zipIdx_map, List.mapM_map]
    rfl
  unfold detections
  simp only [hall]
  rfl

theorem runAnalyze_unmarked (X : Crates) (w : Workspace) (path : String) {db : CaseDatabase}
    (hwritten : Written db.tables) :
    runAnalyze X (withoutPlugins w) path (fileOf (unmarkedDb db)) =
      (runAnalyze X w path (fileOf db)).map unmarkedTables := by
  unfold runAnalyze
  rw [openFile_unmarked]
  change loadManifest w.dir >>= _ = _
  cases loadManifest w.dir with
  | error e => rfl
  | ok manifest =>
    simp only [ok_bind]
    cases hopen : CaseDatabase.openFile path (fileOf db) with
    | error e => rfl
    | ok opened =>
      have hquery : (unmarkedDb opened).queryAllRecords =
          opened.queryAllRecords.map (List.map unmarked) := opened_unmarked hwritten hopen rfl
      simp only [Except.map, fromParser, ok_bind]
      rw [hquery]
      cases opened.queryAllRecords with
      | error e => rfl
      | ok records =>
        have hprimary : (unmarkedDb opened).primaryEvidenceId = opened.primaryEvidenceId := rfl
        simp only [Except.map, ok_bind, hprimary, detections_unmarked]
        cases opened.primaryEvidenceId with
        | error e => rfl
        | ok item =>
          simp only [ok_bind]
          cases detections X w manifest records with
          | error e => rfl
          | ok found =>
            simp only [ok_bind, storeAnalyticsDetections_unmarked]
            cases opened.storeAnalyticsDetections (item.getD 1) found <;> rfl

/-- A run by a workstation that has no plugins sees the same tables, but for the marks. -/
theorem outcome_unmarked (X : Crates) (w : Workspace) (path : String) {db : CaseDatabase}
    (hwritten : Written db.tables) (stage : Stage) :
    (stage = .parse ∧ parseCase X w.dir w.grammarsDir w.loadPlugin path (fileOf db) w.headerPlan
        w.parsePlan = panicked) ∨
      stage.outcome X (withoutPlugins w) path (fileOf (unmarkedDb db)) =
        (stage.outcome X w path (fileOf db)).map unmarkedTables := by
  cases stage with
  | parse =>
    refine (parseCase_unmarked X w path db).imp (fun h => ⟨rfl, h⟩) fun hsame => ?_
    have hleft : (parseCase X w.dir w.grammarsDir (fun _ => none) path (fileOf (unmarkedDb db))
        w.headerPlan w.parsePlan).toOption.map Prod.snd =
          ((parseCase X w.dir w.grammarsDir (fun _ => none) path (fileOf (unmarkedDb db))
            w.headerPlan w.parsePlan).map Prod.snd).toOption := by
      cases parseCase X w.dir w.grammarsDir (fun _ => none) path (fileOf (unmarkedDb db))
        w.headerPlan w.parsePlan <;> rfl
    refine hleft.trans ?_
    rw [hsame]
    unfold Stage.outcome
    cases parseCase X w.dir w.grammarsDir w.loadPlugin path (fileOf db) w.headerPlan
      w.parsePlan <;> rfl
  | carve =>
    right
    unfold Stage.outcome
    rw [runCarve_unmarked X w path hwritten]
    cases runCarve X w path (fileOf db) <;> rfl
  | correlate =>
    right
    unfold Stage.outcome
    rw [runCorrelate_unmarked w path hwritten]
    cases runCorrelate w path (fileOf db) <;> rfl
  | analyze =>
    right
    unfold Stage.outcome
    rw [runAnalyze_unmarked X w path hwritten]
    cases runAnalyze X w path (fileOf db) <;> rfl

/-- The visit of a workstation that has no plugins. -/
def pluginless (v : Visit) : Visit := { v with workspace := withoutPlugins v.workspace }

/-- The visit is a parse run that panics. -/
def panics (X : Crates) (db : CaseDatabase) (v : Visit) : Bool :=
  match v.stage, parseCase X v.workspace.dir v.workspace.grammarsDir v.workspace.loadPlugin db.path
    (fileOf { db with io := v.io }) v.workspace.headerPlan v.workspace.parsePlan with
  | .parse, .error .panic => true
  | _, _ => false

/-- The visits but for the parse runs that panic. -/
def surviving (X : Crates) : CaseDatabase → List Visit → List Visit
  | _, [] => []
  | db, v :: rest =>
    if panics X db v then surviving X (v.run X db) rest
    else v :: surviving X (v.run X db) rest

theorem written_run {X : Crates} {db : CaseDatabase} (h : Written db.tables) (v : Visit) :
    Written (v.run X db).tables := by
  unfold Visit.run Stage.run
  dsimp only
  cases hrun : v.stage.outcome X v.workspace db.path (fileOf { db with io := v.io }) with
  | none => exact h
  | some tables =>
    change Written tables
    have hleaves := @leaves_of_outcome X tables v.workspace { db with io := v.io } v.stage hrun
    revert hleaves
    generalize v.stage = stage
    intro hleaves
    cases hleaves with
    | parsed item records hrecords =>
      intro row hrow
      rw [hrecords] at hrow
      rcases List.mem_append.mp hrow with hold | hnew
      · exact h row hold
      · obtain ⟨r, -, rfl⟩ := List.mem_map.mp hnew
        exact ⟨item, r, rfl⟩
    | carved => exact h
    | uncorrelated => exact h
    | correlated => exact h
    | analyzed => exact h

theorem tables_run_of_panics {X : Crates} {db : CaseDatabase} {v : Visit}
    (h : panics X db v = true) : (v.run X db).tables = db.tables := by
  unfold panics at h
  split at h
  · next hstage hparse =>
    unfold Visit.run Stage.run Stage.outcome
    rw [hstage]
    dsimp only
    rw [hparse]
    rfl
  · cases h

/-- A visit that does not panic does without plugins what it does with them, and no marks. -/
theorem tables_run_unmarked {X : Crates} {db : CaseDatabase} (hwritten : Written db.tables)
    {v : Visit} (h : panics X db v = false) :
    ((pluginless v).run X (unmarkedDb db)).tables = unmarkedTables (v.run X db).tables := by
  have hsame : v.stage.outcome X (withoutPlugins v.workspace) db.path
      (fileOf (unmarkedDb { db with io := v.io })) =
        (v.stage.outcome X v.workspace db.path (fileOf { db with io := v.io })).map
          unmarkedTables := by
    have houtcome := @outcome_unmarked X v.workspace db.path { db with io := v.io } hwritten v.stage
    refine houtcome.resolve_left ?_
    rintro ⟨hstage, hparse⟩
    unfold panics at h
    rw [hstage, hparse] at h
    cases h
  change (v.stage.outcome X (withoutPlugins v.workspace) db.path
    (fileOf (unmarkedDb { db with io := v.io }))).getD (unmarkedTables db.tables) = _
  rw [hsame]
  unfold Visit.run Stage.run
  cases v.stage.outcome X v.workspace db.path (fileOf { db with io := v.io }) <;> rfl

theorem tables_visits_unmarked {X : Crates} {db plain : CaseDatabase} (hpath : plain.path = db.path)
    (hwritten : Written db.tables) (hplain : plain.tables = unmarkedTables db.tables)
    (visits : List Visit) :
    (runVisits X plain ((surviving X db visits).map pluginless)).tables =
      unmarkedTables (runVisits X db visits).tables := by
  induction visits generalizing db plain with
  | nil => exact hplain
  | cons v rest ih =>
    unfold surviving
    split_ifs with hpanics
    · refine ih hpath (written_run hwritten v) ?_
      rw [tables_run_of_panics hpanics]
      exact hplain
    · have hstep : ((pluginless v).run X plain).tables =
          unmarkedTables (v.run X db).tables := by
        rw [← tables_run_unmarked hwritten (Bool.eq_false_iff.mpr hpanics)]
        unfold Visit.run Stage.run
        dsimp only
        rw [hpath, hplain]
        rfl
      exact ih hpath (written_run hwritten v) hstep

/-- Whatever plugins are loaded, over whatever visits: the case database is the one that the
visits leave without any plugin, but for the marks, and but for the parse runs that a panic
ends, which leave nothing. -/
theorem plugins_only_mark (X : Crates) (path : String) (visits : List Visit) :
    unmarkedTables (runVisits X (fresh path) visits).tables =
      (runVisits X (fresh path)
        ((surviving X (fresh path) visits).map pluginless)).tables := by
  refine (tables_visits_unmarked rfl ?_ rfl visits).symm
  intro row hrow
  exact absurd hrow List.not_mem_nil

end Dvrft.Isolation
