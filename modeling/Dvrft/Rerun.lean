import Dvrft.Binary64
import Dvrft.Pipeline

/-!
Running stages again. Every run appends: a parse run the records of the image, a
later run the rows that it computes from the records. So a sequence of runs leaves
the lists of a single one exactly when each stage that stores anything did so once.
-/

namespace Dvrft.Rerun

open ShortReads Machine Platform Sqlite Acquisition Interpreter Database ParseCase Carving Analytics
  Interference Pipeline

/-- The values that a sound database takes for an item it has: all, or none when
one of them has a real that is no number. -/
def accepted {α : Type} (reals : α → List Float) (values : Option (List α)) : List α :=
  match values with
  | none => []
  | some values => if ∀ a ∈ values, ∀ x ∈ reals a, x.isNaN = false then values else []

theorem mem_accepted {α : Type} {reals : α → List Float} {values : Option (List α)} {a : α}
    (h : a ∈ accepted reals values) :
    (∃ all, values = some all ∧ a ∈ all) ∧ ∀ x ∈ reals a, x.isNaN = false := by
  cases values with
  | none => exact absurd h List.not_mem_nil
  | some all =>
    unfold accepted at h
    dsimp only at h
    split_ifs at h with hnumbers
    · exact ⟨⟨all, rfl, h⟩, hnumbers a h⟩
    · exact absurd h List.not_mem_nil

theorem refusedRow_eq_none_iff {items : List EvidenceRow} {evidenceId : ℤ} {reals : List Float} :
    CaseDatabase.refusedRow items evidenceId reals = none ↔
      (∀ x ∈ reals, x.isNaN = false) ∧ ∃ item ∈ items, item.id = evidenceId := by
  have hnumbers : (∀ x ∈ reals, x.isNaN = false) ↔ ¬ reals.any Float.isNaN = true := by
    rw [Bool.not_eq_true, List.any_eq_false]
    simp
  have hthere : (∃ item ∈ items, item.id = evidenceId) ↔
      ¬ items.all (fun item => item.id != evidenceId) = true := by
    rw [Bool.not_eq_true, List.all_eq_false]
    simp
  unfold CaseDatabase.refusedRow
  rw [hnumbers, hthere]
  split_ifs with hnan hall <;> simp_all

/-- The item that the later stages store their rows for. -/
def primary (db : CaseDatabase) : ℤ := (db.tables.evidenceItems.head?.map EvidenceRow.id).getD 1

/-- The database after a transaction that may be refused. -/
def stored {α : Type} (db : CaseDatabase) (reals : α → List Float) (values : Option (List α))
    (inserted : List α → Tables) : CaseDatabase :=
  match values with
  | none => db
  | some values =>
    match db.storeRows (primary db) reals values (inserted values) with
    | .ok outcome => outcome.1
    | .error _ => db

theorem storeRows_sound {α : Type} {db : CaseDatabase} (hsound : db.io = .sound)
    (evidenceId : ℤ) (reals : α → List Float) (values : List α) (inserted : Tables) :
    (∀ a ∈ values, CaseDatabase.refusedRow db.tables.evidenceItems evidenceId (reals a) = none) ∧
        db.storeRows evidenceId reals values inserted =
          .ok (⟨db.path, inserted, db.io⟩, values.length) ∨
      (¬ ∀ a ∈ values, CaseDatabase.refusedRow db.tables.evidenceItems evidenceId (reals a) = none) ∧
        ∃ e, db.storeRows evidenceId reals values inserted = .error e := by
  unfold CaseDatabase.storeRows
  rw [CaseDatabase.writing_sound hsound]
  dsimp only
  rw [← List.findSome?_eq_none_iff]
  cases values.findSome? fun a =>
      CaseDatabase.refusedRow db.tables.evidenceItems evidenceId (reals a) with
  | none => exact .inl ⟨rfl, rfl⟩
  | some e => exact .inr ⟨by simp, _, rfl⟩

/-- Without an item nothing can be stored. -/
theorem stored_of_no_item {α : Type} {db : CaseDatabase} (hsound : db.io = .sound)
    (hitems : db.tables.evidenceItems = []) (reals : α → List Float)
    (values : Option (List α)) {inserted : List α → Tables} (hnil : inserted [] = db.tables) :
    stored db reals values inserted = db := by
  cases values with
  | none => rfl
  | some values =>
    unfold stored
    dsimp only
    rcases storeRows_sound hsound (primary db) reals values (inserted values) with
      ⟨hall, hstore⟩ | ⟨-, e, hstore⟩
    · rw [hstore]
      cases values with
      | nil => rw [hnil]
      | cons a rest =>
        have hrefused := (refusedRow_eq_none_iff.mp (hall a List.mem_cons_self)).2
        rw [hitems] at hrefused
        simp at hrefused
    · rw [hstore]

/-- With item 1 in front of all, its rows are stored unless they are refused. -/
theorem stored_of_first {α : Type} {db : CaseDatabase} (hsound : db.io = .sound)
    {item : EvidenceRow} {rest : List EvidenceRow} (hitems : db.tables.evidenceItems = item :: rest)
    (reals : α → List Float) (values : Option (List α)) {inserted : List α → Tables}
    (hnil : inserted [] = db.tables) :
    stored db reals values inserted =
      { db with tables := inserted (accepted reals values) } := by
  cases values with
  | none => rw [accepted, hnil, stored]
  | some values =>
    have hid : primary db = item.id := by
      rw [primary, hitems]
      rfl
    have hthere : ∀ a, CaseDatabase.refusedRow db.tables.evidenceItems item.id (reals a) = none ↔
        ∀ x ∈ reals a, x.isNaN = false := by
      intro a
      rw [refusedRow_eq_none_iff, and_iff_left]
      exact ⟨item, by rw [hitems]; exact List.mem_cons_self, rfl⟩
    unfold stored accepted
    dsimp only
    rw [hid]
    rcases storeRows_sound hsound item.id reals values (inserted values) with
      ⟨hall, hstore⟩ | ⟨hrefused, e, hstore⟩
    · rw [hstore, if_pos]
      intro a ha
      exact (hthere a).mp (hall a ha)
    · rw [hstore, if_neg, hnil]
      intro hnumbers
      exact hrefused fun a ha => (hthere a).mpr (hnumbers a ha)

theorem openFile_fileOf_sound {db : CaseDatabase} (hsound : db.io = .sound) :
    CaseDatabase.openFile db.path (fileOf db) = .ok db :=
  CaseDatabase.openFile_ok.mpr ⟨by rw [fileOf, hsound]; rfl, rfl⟩

theorem primaryEvidenceId_sound {db : CaseDatabase} (hsound : db.io = .sound) :
    db.primaryEvidenceId = .ok (db.tables.evidenceItems.head?.map EvidenceRow.id) := by
  unfold CaseDatabase.primaryEvidenceId
  rw [hsound]
  cases db.tables.evidenceItems <;> rfl

theorem queryRecords_congr {db db' : CaseDatabase} (hpath : db.path = db'.path)
    (hio : db.io = db'.io) (hrows : db.tables.extractedRecords = db'.tables.extractedRecords)
    (filter : RecordFilter) : db.queryRecords filter = db'.queryRecords filter := by
  simp only [CaseDatabase.queryRecords, CaseDatabase.fetch, hpath, hio, hrows]

/-- The frames that a carving run computes, the events of a correlation run, and
the detections of an analysis. -/
def frameValues (X : Crates) (w : Workspace) (db : CaseDatabase) : Staged (List CarvedFrame) := do
  let manifest ← loadManifest w.dir
  let corruptedRecords ← fromParser
    (db.queryRecords { RecordFilter.default with corruptedOnly := true })
  carvedFrames X w manifest corruptedRecords

def eventValues (w : Workspace) (db : CaseDatabase) : Staged (List CorrelatedDbEvent) := do
  let records ← fromParser db.queryAllRecords
  .ok (correlatedEvents w records)

def detectionValues (X : Crates) (w : Workspace) (db : CaseDatabase) :
    Staged (List AnalyticsDbDetection) := do
  let manifest ← loadManifest w.dir
  let records ← fromParser db.queryAllRecords
  detections X w manifest records

/-- A run that computes values and stores them is a transaction. -/
theorem stored_of_outcome {α : Type} {db : CaseDatabase} (hsound : db.io = .sound)
    (reals : α → List Float) (values : Staged (List α)) (inserted : List α → Tables)
    (outcome : Option Tables)
    (houtcome : outcome.getD db.tables = (values >>= fun vs => do
      let stored ← fromParser (db.storeRows (primary db) reals vs (inserted vs))
      (.ok stored.1.tables : Staged Tables)).toOption.getD db.tables) :
    { db with tables := outcome.getD db.tables } = stored db reals values.toOption inserted := by
  rw [houtcome]
  cases values with
  | error e => rfl
  | ok vs =>
    rcases storeRows_sound hsound (primary db) reals vs (inserted vs) with
      ⟨-, hstore⟩ | ⟨-, e, hstore⟩
    · rw [ok_bind, hstore]
      simp only [stored, Except.toOption, hstore]
      rfl
    · rw [ok_bind, hstore]
      simp only [stored, Except.toOption, hstore]
      rfl

def withFrames (tables : Tables) (item : ℤ) (frames : List CarvedFrame) : Tables :=
  { tables with carvedRecords := tables.carvedRecords ++ frames.map (CarvedRow.ofFrame item) }

def withEvents (tables : Tables) (item : ℤ) (events : List CorrelatedDbEvent) : Tables :=
  let first := nextId (tables.correlatedEvents.map CorrelatedRow.id)
  { tables with
    correlatedEvents := tables.correlatedEvents ++
      events.zipIdx.map fun p => CorrelatedRow.ofEvent (first + p.2) item p.1 }

def withDetections (tables : Tables) (item : ℤ) (found : List AnalyticsDbDetection) : Tables :=
  let first := nextId (tables.analyticsDetections.map AnalyticsRow.id)
  { tables with
    analyticsDetections := tables.analyticsDetections ++
      found.zipIdx.map fun p => AnalyticsRow.ofDetection (first + p.2) item p.1 }

def frameReals (f : CarvedFrame) : List Float := [f.confidence]

def eventReals (e : CorrelatedDbEvent) : List Float := [e.confidence]

def detectionReals (d : AnalyticsDbDetection) : List Float :=
  [d.motionEnergy, d.relevanceScore, d.confidence]

theorem run_carve (X : Crates) (w : Workspace) {db : CaseDatabase} (hsound : db.io = .sound) :
    Stage.carve.run X w db = stored db frameReals (frameValues X w db).toOption
      (withFrames db.tables (primary db)) := by
  apply stored_of_outcome hsound
  unfold Stage.outcome runCarve frameValues
  cases hmanifest : loadManifest w.dir with
  | error e => rfl
  | ok manifest =>
    simp only [openFile_fileOf_sound hsound, primaryEvidenceId_sound hsound, fromParser, ok_bind]
    cases hrecords : db.queryRecords { RecordFilter.default with corruptedOnly := true } with
    | error e => rfl
    | ok corruptedRecords =>
      simp only [ok_bind]
      cases hframes : carvedFrames X w manifest corruptedRecords with
      | error e => rfl
      | ok frames =>
        simp only [ok_bind, CaseDatabase.storeCarvedRecords_eq]
        rfl

theorem run_correlate (X : Crates) (w : Workspace) {db : CaseDatabase}
    (hsound : db.io = .sound) : Stage.correlate.run X w db =
      stored db eventReals (eventValues w db).toOption (withEvents db.tables (primary db)) := by
  apply stored_of_outcome hsound
  unfold Stage.outcome runCorrelate eventValues
  simp only [openFile_fileOf_sound hsound, primaryEvidenceId_sound hsound, fromParser, ok_bind]
  cases hrecords : db.queryAllRecords with
  | error e => rfl
  | ok records =>
    simp only [ok_bind]
    have hstores : db.storeCorrelatedEvents
        ((db.tables.evidenceItems.head?.map EvidenceRow.id).getD 1) (correlatedEvents w records) =
        db.storeRows (primary db) eventReals (correlatedEvents w records)
          (withEvents db.tables (primary db) (correlatedEvents w records)) := rfl
    rw [hstores]
    -- a refusal is passed over, and leaves the tables as they were
    cases db.storeRows (primary db) eventReals (correlatedEvents w records)
      (withEvents db.tables (primary db) (correlatedEvents w records)) <;> rfl

theorem run_analyze (X : Crates) (w : Workspace) {db : CaseDatabase} (hsound : db.io = .sound) :
    Stage.analyze.run X w db = stored db detectionReals (detectionValues X w db).toOption
      (withDetections db.tables (primary db)) := by
  apply stored_of_outcome hsound
  unfold Stage.outcome runAnalyze detectionValues
  cases hmanifest : loadManifest w.dir with
  | error e => rfl
  | ok manifest =>
    simp only [openFile_fileOf_sound hsound, primaryEvidenceId_sound hsound, fromParser, ok_bind]
    cases hrecords : db.queryAllRecords with
    | error e => rfl
    | ok records =>
      simp only [ok_bind]
      cases hfound : detections X w manifest records <;> rfl

/-- What the later stages compute depends on the records alone. -/
theorem values_congr (X : Crates) (w : Workspace) {db db' : CaseDatabase}
    (hpath : db.path = db'.path) (hio : db.io = db'.io)
    (hrows : db.tables.extractedRecords = db'.tables.extractedRecords) :
    frameValues X w db = frameValues X w db' ∧ eventValues w db = eventValues w db' ∧
      detectionValues X w db = detectionValues X w db' := by
  have hquery := queryRecords_congr hpath hio hrows
  have hall : db.queryAllRecords = db'.queryAllRecords := hquery .default
  unfold frameValues eventValues detectionValues
  rw [hquery, hall]
  exact ⟨rfl, rfl, rfl⟩

/-- The image can be parsed: everything up to the storing succeeds. -/
def Parses (X : Crates) (w : Workspace) (caseName : String) (grammar : Grammar.GrammarFile)
    (records : List ExtractedRecord) : Prop :=
  ∃ manifest evidence detected source streams,
    w.dir.loadManifest = .ok manifest ∧ w.dir.resolveEvidence manifest = .ok evidence ∧
    Detection.detectGrammar X evidence w.grammarsDir w.headerPlan = .ok detected ∧
    evidence.source w.parsePlan = .ok source ∧
    extractRecords X manifest detected.1 (detected.1.descramblePlugin.bind w.loadPlugin) source =
      .ok records ∧
    Demux.demuxRecords X records = .ok streams ∧ caseName = manifest.caseName ∧
    grammar = detected.1

/-- What a parse run stores, in every sound database. -/
def Extracts (X : Crates) (w : Workspace) (records : List ExtractedRecord) : Prop :=
  ∃ caseName grammarId validationTier, ∀ db : CaseDatabase, db.io = .sound →
    ∃ db' caseId evidenceId,
      db.storeCaseExtraction caseName grammarId validationTier records =
        .ok (db', caseId, evidenceId) ∧
      db'.path = db.path ∧ db'.io = db.io ∧ Stage.parse.run X w db = db'

theorem extracts_of_parses {X : Crates} {w : Workspace} {caseName : String}
    {grammar : Grammar.GrammarFile} {records : List ExtractedRecord}
    (h : Parses X w caseName grammar records) : Extracts X w records := by
  obtain ⟨manifest, evidence, detected, source, streams, hmanifest, hevidence, hdetected,
    hsource, hrecords, hstreams, rfl, rfl⟩ := h
  refine ⟨manifest.caseName, detected.1.id, detected.1.tier, ?_⟩
  intro db hsound
  obtain ⟨db', caseId, evidenceId, hstore, hpath, hio⟩ :=
    CaseDatabase.storeCaseExtraction_isOk manifest.caseName detected.1.id detected.1.tier records
      (CaseDatabase.writing_sound hsound)
  refine ⟨db', caseId, evidenceId, hstore, hpath, hio, ?_⟩
  unfold Stage.run Stage.outcome parseCase
  simp only [hmanifest, hevidence, hdetected, hsource, hrecords, storeRecords, hstreams,
    openFile_fileOf_sound hsound, hstore, ok_bind, Machine.ofExcept]
  change CaseDatabase.mk db.path db'.tables db.io = db'
  rw [← hpath, ← hio]

theorem parses_of_parseCase {X : Crates} {w : Workspace} {dbPath : String} {file : DbFile}
    {out : ParseSummary × Tables} (h : parseCase X w.dir w.grammarsDir w.loadPlugin dbPath file
      w.headerPlan w.parsePlan = .ok out) :
    ∃ caseName grammar records, Parses X w caseName grammar records := by
  obtain ⟨manifest, hmanifest, h⟩ := bind_ok.mp h
  obtain ⟨evidence, hevidence, h⟩ := bind_ok.mp h
  obtain ⟨detected, hdetected, h⟩ := bind_ok.mp h
  obtain ⟨source, hsource, h⟩ := bind_ok.mp h
  obtain ⟨records, hrecords, h⟩ := bind_ok.mp h
  obtain ⟨streams, hstreams, -⟩ := bind_ok.mp h
  exact ⟨_, _, records, manifest, evidence, detected, source, streams, hmanifest, hevidence,
    hdetected, hsource, hrecords, hstreams, rfl, rfl⟩

/-- A parse run stores the records of the image, the same ones each time, or fails
each time. -/
theorem run_parse (X : Crates) (w : Workspace) :
    (∀ db : CaseDatabase, db.io = .sound → Stage.parse.run X w db = db) ∨
      ∃ records, Extracts X w records := by
  by_cases hparses : ∃ caseName grammar records, Parses X w caseName grammar records
  · right
    obtain ⟨caseName, grammar, records, hparses⟩ := hparses
    exact ⟨records, extracts_of_parses hparses⟩
  · left
    intro db hsound
    unfold Stage.run Stage.outcome
    dsimp only
    cases hout : parseCase X w.dir w.grammarsDir w.loadPlugin db.path (fileOf db) w.headerPlan
        w.parsePlan with
    | error e => rfl
    | ok out => exact absurd (parses_of_parseCase hout) hparses

def eventAside (e : CorrelatedDbEvent) : CorrelatedDbEvent := { e with id := none }

def detectionAside (d : AnalyticsDbDetection) : AnalyticsDbDetection := { d with id := none }

/-- The queries of the two databases answer alike, whatever is asked, but for the
ids of events and detections. -/
structure SameLists (db db' : CaseDatabase) : Prop where
  records : db.queryAllRecords = db'.queryAllRecords
  carved : ∀ evidenceId, db.queryCarvedRecords evidenceId = db'.queryCarvedRecords evidenceId
  events : ∀ evidenceId, (db.queryCorrelatedEvents evidenceId).map (List.map eventAside) =
    (db'.queryCorrelatedEvents evidenceId).map (List.map eventAside)
  detections : ∀ evidenceId minRelevance minConfidence entityClass limit,
    (db.queryAnalyticsDetections evidenceId minRelevance minConfidence entityClass limit).map
        (List.map detectionAside) =
      (db'.queryAnalyticsDetections evidenceId minRelevance minConfidence entityClass limit).map
        (List.map detectionAside)

def unnumberedEvent (row : CorrelatedRow) : CorrelatedRow := { row with id := 0 }

def unnumberedDetection (row : AnalyticsRow) : AnalyticsRow := { row with id := 0 }

theorem fetchFrom_cons_map {ρ α β : Type} (answer : ℕ → Option SqlError)
    (read : ρ → Except SqlError α) (aside : α → β) (k : ℕ) (row : ρ) (rest : List ρ) :
    (fetchFrom answer read k (row :: rest)).map (List.map aside) = (do
      Sqlite.succeeds (answer k)
      let head ← (read row).map aside
      let tail ← (fetchFrom answer read (k + 1) rest).map (List.map aside)
      .ok (head :: tail)) := by
  rw [fetchFrom]
  cases answer k <;> cases read row <;> cases fetchFrom answer read (k + 1) rest <;> rfl

theorem fetchFrom_aside {ρ α β : Type} (answer : ℕ → Option SqlError)
    (read : ρ → Except SqlError α) (change : ρ → ρ) (aside : α → β)
    (hread : ∀ row, (read (change row)).map aside = (read row).map aside) (k : ℕ) (rows : List ρ) :
    (fetchFrom answer read k (rows.map change)).map (List.map aside) =
      (fetchFrom answer read k rows).map (List.map aside) := by
  induction rows generalizing k with
  | nil => rfl
  | cons row rest ih => rw [List.map_cons, fetchFrom_cons_map, fetchFrom_cons_map, hread, ih]

/-- A change of rows that does not show in what is read, but for what is put aside. -/
theorem fetch_aside {ρ α β : Type} (db : CaseDatabase) (table : Table)
    (read : ρ → Except SqlError α) (change : ρ → ρ) (aside : α → β)
    (hread : ∀ row, (read (change row)).map aside = (read row).map aside)
    (selected : Except SqlError (List ρ)) :
    (db.fetch table read (selected.map (List.map change))).map (List.map aside) =
      (db.fetch table read selected).map (List.map aside) := by
  have herror : ∀ x : Except SqlError (List α),
      (x.mapError (Errors.ParserError.databaseError db.path)).map (List.map aside) =
        (x.map (List.map aside)).mapError (.databaseError db.path) := by
    intro x
    cases x <;> rfl
  unfold CaseDatabase.fetch
  rw [herror, herror]
  cases selected with
  | error e => rfl
  | ok rows =>
    cases hprepared : db.io.preparing table with
    | some e => rfl
    | none =>
      simp only [Sqlite.succeeds, ok_bind, Except.map]
      exact congrArg _ (fetchFrom_aside _ read change aside hread 0 rows)

/-- The database with the ids of its events and detections blanked. -/
def blanked (db : CaseDatabase) : CaseDatabase :=
  { db with tables := { db.tables with
      correlatedEvents := db.tables.correlatedEvents.map unnumberedEvent
      analyticsDetections := db.tables.analyticsDetections.map unnumberedDetection } }

theorem queryCorrelatedEvents_blanked (db : CaseDatabase) (evidenceId : Option ℤ) :
    ((blanked db).queryCorrelatedEvents evidenceId).map (List.map eventAside) =
      (db.queryCorrelatedEvents evidenceId).map (List.map eventAside) := by
  have hread : ∀ row, (CorrelatedRow.read (unnumberedEvent row)).map eventAside =
      (CorrelatedRow.read row).map eventAside := by
    intro row
    simp only [CorrelatedRow.read, Machine.map_bind]
    rfl
  have hfetch := fetch_aside db .correlatedEvents CorrelatedRow.read unnumberedEvent eventAside
    hread (.ok (db.tables.correlatedEvents.filter fun row => evidenceId.all (row.evidenceId == ·)))
  unfold CaseDatabase.queryCorrelatedEvents
  rw [← hfetch]
  unfold blanked
  dsimp only
  rw [List.filter_map]
  rfl

theorem queryAnalyticsDetections_blanked (db : CaseDatabase) (evidenceId : Option ℤ)
    (minRelevance minConfidence : Float) (entityClass : Option String) (limit : Option ℕ) :
    ((blanked db).queryAnalyticsDetections evidenceId minRelevance minConfidence entityClass
        limit).map (List.map detectionAside) =
      (db.queryAnalyticsDetections evidenceId minRelevance minConfidence entityClass limit).map
        (List.map detectionAside) := by
  have hread : ∀ row, (AnalyticsRow.read (unnumberedDetection row)).map detectionAside =
      (AnalyticsRow.read row).map detectionAside := by
    intro row
    simp only [AnalyticsRow.read, Machine.map_bind]
    rfl
  have hpage : ∀ rows : List AnalyticsRow, page limit none (rows.map unnumberedDetection) =
      (page limit none rows).map (List.map unnumberedDetection) := by
    intro rows
    unfold page
    split
    · rfl
    · split_ifs
      · rfl
      · simp [Except.map, List.map_take]
  let order (a b : AnalyticsRow) : Prop :=
    ((b.relevanceScore.compareValues a.relevanceScore).then
      (a.timestamp.compareValues b.timestamp)).isLE
  have hsort : ∀ rows : List AnalyticsRow, (rows.map unnumberedDetection).insertionSort order =
      (rows.insertionSort order).map unnumberedDetection :=
    fun rows => (List.map_insertionSort order order unnumberedDetection rows
      fun _ _ _ _ => Iff.rfl).symm
  unfold CaseDatabase.queryAnalyticsDetections
  dsimp only
  rw [← fetch_aside db .analyticsDetections AnalyticsRow.read unnumberedDetection detectionAside
    hread, ← hpage, ← hsort]
  unfold blanked
  dsimp only
  rw [List.filter_map]
  rfl

/-- Rows that are the same but for the ids of events and detections. -/
structure SameRows (db db' : CaseDatabase) : Prop where
  path : db.path = db'.path
  io : db.io = db'.io
  records : db.tables.extractedRecords = db'.tables.extractedRecords
  frames : db.tables.carvedRecords = db'.tables.carvedRecords
  events : db.tables.correlatedEvents.map unnumberedEvent =
    db'.tables.correlatedEvents.map unnumberedEvent
  detections : db.tables.analyticsDetections.map unnumberedDetection =
    db'.tables.analyticsDetections.map unnumberedDetection

theorem sameLists_of_sameRows {db db' : CaseDatabase} (h : SameRows db db') :
    SameLists db db' where
  records := queryRecords_congr h.path h.io h.records .default
  carved := by
    intro evidenceId
    simp only [CaseDatabase.queryCarvedRecords, CaseDatabase.fetch, h.path, h.io, h.frames]
  events := by
    intro evidenceId
    rw [← queryCorrelatedEvents_blanked db, ← queryCorrelatedEvents_blanked db']
    simp only [CaseDatabase.queryCorrelatedEvents, CaseDatabase.fetch, blanked, h.path, h.io,
      h.events]
  detections := by
    intro evidenceId minRelevance minConfidence entityClass limit
    rw [← queryAnalyticsDetections_blanked db, ← queryAnalyticsDetections_blanked db']
    simp only [CaseDatabase.queryAnalyticsDetections, CaseDatabase.fetch, blanked, h.path, h.io,
      h.detections]

/-- A query of a sound database answers with a value for each row, if all can be read. -/
theorem length_fetch {ρ α : Type} {db : CaseDatabase} (hsound : db.io = .sound) (table : Table)
    {read : ρ → Except SqlError α} {rows : List ρ} (hrows : ∀ row ∈ rows, ∃ a, read row = .ok a) :
    ∃ out, db.fetch table read (.ok rows) = .ok out ∧ out.length = rows.length := by
  obtain ⟨out, hout⟩ := exists_forall₂ hrows
  refine ⟨out, CaseDatabase.fetch_ok.mpr ⟨?_, ?_, hout⟩, hout.length_eq.symm⟩
  · rw [hsound]
    rfl
  · intro k _
    rw [hsound]
    rfl

/-- The rows that one run of a later stage appends to the records of one parse. -/
structure Batches where
  frames : List CarvedFrame
  events : List CorrelatedDbEvent
  detections : List AnalyticsDbDetection

/-- The database when nothing but the records of one parse run is in it. -/
def parsedOnce (path : String) (records : List ExtractedRecord) : CaseDatabase where
  path := path
  tables := { Tables.empty with
    extractedRecords := records.map (ExtractedRow.ofRecord 1) }
  io := .sound

def batches (X : Crates) (w : Workspace) (path : String) (records : List ExtractedRecord) :
    Batches where
  frames := accepted frameReals (frameValues X w (parsedOnce path records)).toOption
  events := accepted eventReals (eventValues w (parsedOnce path records)).toOption
  detections := accepted detectionReals (detectionValues X w (parsedOnce path records)).toOption

def copies {α : Type} (n : ℕ) (xs : List α) : List α := (List.replicate n xs).flatten

/-- The records stand there once, and every run of a later stage has left its batch. -/
structure Settled (records : List ExtractedRecord) (b : Batches) (done : List Stage)
    (db : CaseDatabase) : Prop where
  records : db.tables.extractedRecords = records.map (ExtractedRow.ofRecord 1)
  frames : db.tables.carvedRecords =
    copies (done.count .carve) (b.frames.map (CarvedRow.ofFrame 1))
  events : db.tables.correlatedEvents.map unnumberedEvent =
    copies (done.count .correlate) (b.events.map (CorrelatedRow.ofEvent 0 1))
  detections : db.tables.analyticsDetections.map unnumberedDetection =
    copies (done.count .analyze) (b.detections.map (AnalyticsRow.ofDetection 0 1))

/-- Every parse run has added the records once more. While they stand there once,
or there are none, the later stages have added their batches. -/
structure Counted (records : List ExtractedRecord) (b : Batches) (done : List Stage)
    (db : CaseDatabase) : Prop where
  sound : db.io = .sound
  length : db.tables.extractedRecords.length = done.count .parse * records.length
  readable : ∀ row ∈ db.tables.extractedRecords, ∃ r, row.read = .ok r
  settled : done.count .parse = 1 ∨ records = [] → Settled records b done db

/-- The same, with the item that the later stages store their rows for. -/
structure Ran (path : String) (records : List ExtractedRecord) (b : Batches)
    (done : List Stage) (db : CaseDatabase) : Prop extends Counted records b done db where
  path : db.path = path
  parsed : 1 ≤ done.count .parse
  first : ∃ item rest, db.tables.evidenceItems = item :: rest ∧ item.id = 1

theorem copies_succ {α : Type} (n : ℕ) (xs : List α) : copies (n + 1) xs = copies n xs ++ xs := by
  rw [copies, List.replicate_succ', List.flatten_append]
  simp [copies]

theorem length_copies {α : Type} (n : ℕ) (xs : List α) :
    (copies n xs).length = n * xs.length := by
  simp [copies]

theorem map_zipIdx_fst {α β : Type} (f : α → β) (xs : List α) :
    xs.zipIdx.map (fun p => f p.1) = xs.map f := by
  have hfst : (xs.zipIdx.map Prod.fst).map f = xs.map f := by rw [List.zipIdx_map_fst]
  rwa [List.map_map] at hfst

variable {X : Crates} {w : Workspace} {path : String} {records : List ExtractedRecord}
  {done : List Stage} {db : CaseDatabase}

/-- The database as the later stages see it while the records stand there once. -/
theorem sees_parsedOnce (h : Ran path records (batches X w path records) done db)
    (hsettled : Settled records (batches X w path records) done db) :
    frameValues X w db = frameValues X w (parsedOnce path records) ∧
      eventValues w db = eventValues w (parsedOnce path records) ∧
      detectionValues X w db = detectionValues X w (parsedOnce path records) :=
  values_congr X w h.path h.sound hsettled.records

theorem primary_of_ran {b : Batches} (h : Ran path records b done db) : primary db = 1 := by
  obtain ⟨item, rest, hitems, hid⟩ := h.first
  rw [primary, hitems]
  exact hid

/-- A run of a later stage leaves records and items alone. -/
theorem ran_later {b : Batches} {stage : Stage} (hlater : stage ≠ .parse) {tables : Tables}
    (h : Ran path records b done db)
    (hrecords : tables.extractedRecords = db.tables.extractedRecords)
    (hitems : tables.evidenceItems = db.tables.evidenceItems)
    (hsettled : Settled records b done db →
      Settled records b (done ++ [stage]) { db with tables := tables }) :
    Ran path records b (done ++ [stage]) { db with tables := tables } := by
  have hparses : (done ++ [stage]).count .parse = done.count .parse := by
    simp [hlater]
  obtain ⟨item, rest, hfirst, hid⟩ := h.first
  refine ⟨⟨h.sound, ?_, ?_, ?_⟩, h.path, ?_, ⟨item, rest, hitems.trans hfirst, hid⟩⟩
  · rw [hparses, ← h.length]
    exact congrArg List.length hrecords
  · intro row hrow
    apply h.readable
    rwa [← hrecords]
  · rw [hparses]
    exact fun honce => hsettled (h.settled honce)
  · rw [hparses]
    exact h.parsed

theorem ran_carve (h : Ran path records (batches X w path records) done db) :
    Ran path records (batches X w path records) (done ++ [.carve]) (Stage.carve.run X w db) := by
  obtain ⟨item, rest, hitems, -⟩ := h.first
  have hnil : withFrames db.tables (primary db) [] = db.tables := by simp [withFrames]
  rw [run_carve X w h.sound, stored_of_first h.sound hitems _ _ hnil, primary_of_ran h]
  refine ran_later (by decide) h rfl rfl ?_
  intro hsettled
  refine ⟨hsettled.records, ?_, ?_, ?_⟩
  · have hcount : (done ++ [Stage.carve]).count .carve = done.count .carve + 1 := by simp
    rw [hcount, copies_succ, ← hsettled.frames]
    simp only [withFrames, batches, (sees_parsedOnce h hsettled).1]
  · have hcount : (done ++ [Stage.carve]).count .correlate = done.count .correlate := by simp
    rw [hcount]
    exact hsettled.events
  · have hcount : (done ++ [Stage.carve]).count .analyze = done.count .analyze := by simp
    rw [hcount]
    exact hsettled.detections

theorem ran_correlate (h : Ran path records (batches X w path records) done db) :
    Ran path records (batches X w path records) (done ++ [.correlate])
      (Stage.correlate.run X w db) := by
  obtain ⟨item, rest, hitems, -⟩ := h.first
  have hnil : withEvents db.tables (primary db) [] = db.tables := by simp [withEvents]
  rw [run_correlate X w h.sound, stored_of_first h.sound hitems _ _ hnil, primary_of_ran h]
  refine ran_later (by decide) h rfl rfl ?_
  intro hsettled
  refine ⟨hsettled.records, ?_, ?_, ?_⟩
  · have hcount : (done ++ [Stage.correlate]).count .carve = done.count .carve := by simp
    rw [hcount]
    exact hsettled.frames
  · have hcount : (done ++ [Stage.correlate]).count .correlate = done.count .correlate + 1 := by
      simp
    rw [hcount, copies_succ, ← hsettled.events]
    dsimp only [withEvents, batches]
    rw [(sees_parsedOnce h hsettled).2.1, List.map_append, List.map_map,
      ← map_zipIdx_fst (CorrelatedRow.ofEvent 0 1)]
    rfl
  · have hcount : (done ++ [Stage.correlate]).count .analyze = done.count .analyze := by simp
    rw [hcount]
    exact hsettled.detections

theorem ran_analyze (h : Ran path records (batches X w path records) done db) :
    Ran path records (batches X w path records) (done ++ [.analyze])
      (Stage.analyze.run X w db) := by
  obtain ⟨item, rest, hitems, -⟩ := h.first
  have hnil : withDetections db.tables (primary db) [] = db.tables := by simp [withDetections]
  rw [run_analyze X w h.sound, stored_of_first h.sound hitems _ _ hnil, primary_of_ran h]
  refine ran_later (by decide) h rfl rfl ?_
  intro hsettled
  refine ⟨hsettled.records, ?_, ?_, ?_⟩
  · have hcount : (done ++ [Stage.analyze]).count .carve = done.count .carve := by simp
    rw [hcount]
    exact hsettled.frames
  · have hcount : (done ++ [Stage.analyze]).count .correlate = done.count .correlate := by simp
    rw [hcount]
    exact hsettled.events
  · have hcount : (done ++ [Stage.analyze]).count .analyze = done.count .analyze + 1 := by simp
    rw [hcount, copies_succ, ← hsettled.detections]
    dsimp only [withDetections, batches]
    rw [(sees_parsedOnce h hsettled).2.2, List.map_append, List.map_map,
      ← map_zipIdx_fst (AnalyticsRow.ofDetection 0 1)]
    rfl

theorem ran_parse (hextracts : Extracts X w records)
    (h : Ran path records (batches X w path records) done db) :
    Ran path records (batches X w path records) (done ++ [.parse])
      (Stage.parse.run X w db) := by
  obtain ⟨caseName, grammarId, validationTier, hstores⟩ := hextracts
  obtain ⟨db', caseId, evidenceId, hstore, hpath, hio, hrun⟩ := hstores db h.sound
  obtain ⟨-, hitems, hrecords, hframes, hevents, hdetections⟩ :=
    CaseDatabase.storeCaseExtraction_ok hstore
  obtain ⟨item, rest, hfirst, hid⟩ := h.first
  have hparses : (done ++ [Stage.parse]).count .parse = done.count .parse + 1 := by simp
  rw [hrun]
  refine ⟨⟨hio.trans h.sound, ?_, ?_, ?_⟩, hpath.trans h.path, ?_, ?_⟩
  · rw [hparses, hrecords, List.length_append, List.length_map, h.length, Nat.succ_mul]
  · rw [hrecords]
    intro row hrow
    rcases List.mem_append.mp hrow with hold | hnew
    · exact h.readable row hold
    · obtain ⟨r, -, rfl⟩ := List.mem_map.mp hnew
      exact ⟨_, read_ofRecord _ r⟩
  · rw [hparses]
    intro honce
    -- the records stood there before, so there are none
    have hnone : records = [] := by
      rcases honce with honce | hnone
      · have hparsed := h.parsed
        omega
      · exact hnone
    have hsettled := h.settled (.inr hnone)
    have hcarves : (done ++ [Stage.parse]).count .carve = done.count .carve := by simp
    have hcorrelates : (done ++ [Stage.parse]).count .correlate = done.count .correlate := by simp
    have hanalyzes : (done ++ [Stage.parse]).count .analyze = done.count .analyze := by simp
    refine ⟨?_, ?_, ?_, ?_⟩
    · rw [hrecords, hsettled.records, hnone]
      rfl
    · rw [hcarves, hframes]
      exact hsettled.frames
    · rw [hcorrelates, hevents]
      exact hsettled.events
    · rw [hanalyzes, hdetections]
      exact hsettled.detections
  · omega
  · rw [hitems, hfirst]
    exact ⟨item, rest ++ _, rfl, hid⟩

theorem ran_run (hextracts : Extracts X w records)
    (h : Ran path records (batches X w path records) done db) (stage : Stage) :
    Ran path records (batches X w path records) (done ++ [stage]) (stage.run X w db) := by
  cases stage with
  | parse => exact ran_parse hextracts h
  | carve => exact ran_carve h
  | correlate => exact ran_correlate h
  | analyze => exact ran_analyze h

theorem ran_runAll (hextracts : Extracts X w records) (stages : List Stage)
    (h : Ran path records (batches X w path records) done db) :
    Ran path records (batches X w path records) (done ++ stages) (runAll X w db stages) := by
  induction stages generalizing done db with
  | nil =>
    rw [List.append_nil]
    exact h
  | cons stage rest ih =>
    have hrest := ih (ran_run hextracts h stage)
    rwa [List.append_assoc, List.singleton_append] at hrest

theorem sound_fresh (path : String) : (fresh path).io = .sound := rfl

/-- Without an item a later stage stores nothing. -/
theorem run_of_no_item (hsound : db.io = .sound) (hitems : db.tables.evidenceItems = [])
    {stage : Stage} (hlater : stage ≠ .parse) : stage.run X w db = db := by
  cases stage with
  | parse => exact absurd rfl hlater
  | carve =>
    rw [run_carve X w hsound]
    exact stored_of_no_item hsound hitems _ _ (by simp [withFrames])
  | correlate =>
    rw [run_correlate X w hsound]
    exact stored_of_no_item hsound hitems _ _ (by simp [withEvents])
  | analyze =>
    rw [run_analyze X w hsound]
    exact stored_of_no_item hsound hitems _ _ (by simp [withDetections])

/-- What is run before the first parse run leaves no trace. -/
theorem runAll_fresh (X : Crates) (w : Workspace) (path : String) (stages : List Stage) :
    runAll X w (fresh path) stages = runAll X w (fresh path) (stages.dropWhile (· ≠ .parse)) := by
  induction stages with
  | nil => rfl
  | cons stage rest ih =>
    by_cases hparse : stage = .parse
    · rw [List.dropWhile_cons_of_neg (by simp [hparse])]
    · rw [List.dropWhile_cons_of_pos (by simp [hparse]), ← ih]
      have hrun : stage.run X w (fresh path) = fresh path :=
        run_of_no_item (sound_fresh path) rfl hparse
      rw [runAll, List.foldl_cons, hrun]
      rfl

theorem ran_first (hextracts : Extracts X w records) (path : String) :
    Ran path records (batches X w path records) [.parse] (Stage.parse.run X w (fresh path)) := by
  obtain ⟨caseName, grammarId, validationTier, hstores⟩ := hextracts
  obtain ⟨db', caseId, evidenceId, hstore, hpath, hio, hrun⟩ := hstores (fresh path) rfl
  obtain ⟨hid, hitems, hrecords, hframes, hevents, hdetections⟩ :=
    CaseDatabase.storeCaseExtraction_ok hstore
  have hone : evidenceId = 1 := hid
  subst hone
  rw [hrun]
  have hrows : db'.tables.extractedRecords = records.map (ExtractedRow.ofRecord 1) := hrecords
  refine ⟨⟨hio, ?_, ?_, ?_⟩, hpath, ?_, ?_⟩
  · rw [hrows, List.length_map]
    simp
  · rw [hrows]
    intro row hrow
    obtain ⟨r, -, rfl⟩ := List.mem_map.mp hrow
    exact ⟨_, read_ofRecord 1 r⟩
  · intro _
    refine ⟨hrows, hframes, ?_, ?_⟩
    · rw [hevents]
      rfl
    · rw [hdetections]
      rfl
  · simp
  · exact ⟨_, [], hitems, rfl⟩

/-- A sequence of runs leaves what the runs from the first parse run on have added. -/
theorem counted_runAll (hextracts : Extracts X w records) (path : String)
    (stages : List Stage) :
    Counted records (batches X w path records) (stages.dropWhile (· ≠ .parse))
      (runAll X w (fresh path) stages) := by
  rw [runAll_fresh]
  cases hrest : stages.dropWhile (· ≠ .parse) with
  | nil =>
    refine ⟨rfl, ?_, ?_, ?_⟩
    · simp [runAll, fresh, Tables.empty]
    · intro row hrow
      exact absurd hrow List.not_mem_nil
    · intro honce
      rcases honce with honce | rfl
      · exact absurd honce (by decide)
      · exact ⟨rfl, rfl, rfl, rfl⟩
  | cons stage rest =>
    have hparse : stage = .parse := by
      have hhead := List.head?_dropWhile_not (fun stage : Stage => decide (stage ≠ .parse)) stages
      rw [hrest] at hhead
      simpa using hhead
    subst hparse
    exact (ran_runAll hextracts rest (ran_first hextracts path)).toCounted

theorem isNaN_unsignedZero (x : Float) : (unsignedZero x).isNaN = x.isNaN := by
  unfold unsignedZero
  split_ifs with hzero
  · obtain ⟨hx, hzero, -⟩ := Binary64.place_of_beq hzero
    rw [hx, hzero]
  · rfl

/-- A zero that loses its sign keeps its place. -/
theorem place_unsignedZero (x : Float) : Binary64.place (unsignedZero x) = Binary64.place x := by
  unfold unsignedZero
  split_ifs with hzero
  · exact (Binary64.place_of_beq hzero).2.2.symm
  · rfl

theorem unsignedZero_lt_iff {x y : Float} (hx : x.isNaN = false) (hy : y.isNaN = false) :
    unsignedZero x < unsignedZero y ↔ x < y := by
  rw [Binary64.lt_iff_place hx hy, Binary64.lt_iff_place ((isNaN_unsignedZero x).trans hx)
    ((isNaN_unsignedZero y).trans hy), place_unsignedZero, place_unsignedZero]

theorem readable_ofEvent (id evidenceId : ℤ) {e : CorrelatedDbEvent}
    (h : e.confidence.isNaN = false) :
    ∃ e', (CorrelatedRow.ofEvent id evidenceId e).read = .ok e' := by
  simp only [CorrelatedRow.read, CorrelatedRow.ofEvent, SqlValue.ofFloat_of_number h]
  exact ⟨_, rfl⟩

theorem readable_ofDetection (id evidenceId : ℤ) {d : AnalyticsDbDetection}
    (h : ∀ x ∈ detectionReals d, x.isNaN = false) :
    ∃ d', (AnalyticsRow.ofDetection id evidenceId d).read = .ok d' := by
  have hmotion := SqlValue.ofFloat_of_number (h d.motionEnergy (by simp [detectionReals]))
  have hrelevance := SqlValue.ofFloat_of_number (h d.relevanceScore (by simp [detectionReals]))
  have hconfidence := SqlValue.ofFloat_of_number (h d.confidence (by simp [detectionReals]))
  simp only [AnalyticsRow.read, AnalyticsRow.ofDetection, hmotion, hrelevance, hconfidence]
  exact ⟨_, rfl⟩

theorem mem_copies {α : Type} {n : ℕ} {xs : List α} {a : α} (h : a ∈ copies n xs) : a ∈ xs := by
  obtain ⟨l, hl, ha⟩ := List.mem_flatten.mp h
  rwa [List.eq_of_mem_replicate hl] at ha

/-- Two numbers of copies of a batch have the same length. -/
theorem copies_eq_one {n : ℕ} {α : Type} {xs : List α} (hne : xs ≠ [])
    (h : n * xs.length = 1 * xs.length) : n = 1 :=
  Nat.eq_of_mul_eq_mul_right (List.length_pos_iff.mpr hne) h

theorem copies_one_or {n : ℕ} {α : Type} {xs : List α} (h : xs ≠ [] → n = 1) :
    copies n xs = copies 1 xs := by
  by_cases hne : xs = []
  · subst hne
    simp [copies]
  · rw [h hne]

/-- A cell at or above a floor passes the filter for it. -/
theorem holds_of_not_lt {x floor : Float} (hx : x.isNaN = false) (hfloor : floor.isNaN = false)
    (h : ¬ x < floor) : (SqlValue.ofFloat x).holds Ordering.isGE (.ofFloat floor) = true := by
  rw [SqlValue.ofFloat_of_number hx, SqlValue.ofFloat_of_number hfloor]
  change Ordering.isGE (if unsignedZero x < unsignedZero floor then .lt
    else if unsignedZero floor < unsignedZero x then .gt else .eq) = true
  rw [if_neg ((unsignedZero_lt_iff hx hfloor).not.mpr h)]
  split_ifs <;> rfl

/-- Detections come from analysed frames. -/
theorem floors_of_batch {d : AnalyticsDbDetection}
    (hd : d ∈ (batches X w path records).detections) :
    (∀ x ∈ detectionReals d, x.isNaN = false) ∧ ¬ d.relevanceScore < 0.0 ∧
      ¬ d.confidence < 0.60 := by
  obtain ⟨⟨all, hall, hd⟩, hnumbers⟩ := mem_accepted hd
  refine ⟨hnumbers, ?_⟩
  have hvalues : detectionValues X w (parsedOnce path records) = .ok all := by
    cases hvalues : detectionValues X w (parsedOnce path records) with
    | error e =>
      rw [hvalues] at hall
      cases hall
    | ok values =>
      rw [hvalues] at hall
      exact congrArg Except.ok (Option.some.inj hall)
  obtain ⟨manifest, -, hvalues⟩ := bind_ok.mp hvalues
  obtain ⟨read, -, hvalues⟩ := bind_ok.mp hvalues
  obtain ⟨content, -, hvalues⟩ := bind_ok.mp hvalues
  obtain ⟨found, hfound, hvalues⟩ := bind_ok.mp hvalues
  obtain rfl := Except.ok.inj hvalues
  obtain ⟨part, hpart, hd⟩ := List.mem_flatten.mp hd
  obtain ⟨p, -, hp⟩ := mem_of_mapM_ok hfound part hpart
  unfold analyzeRecord at hp
  dsimp only at hp
  split_ifs at hp
  · rw [← Except.ok.inj hp] at hd
    exact absurd hd List.not_mem_nil
  · obtain ⟨payload, -, hp⟩ := bind_ok.mp hp
    cases payload with
    | none =>
      rw [← Except.ok.inj hp] at hd
      exact absurd hd List.not_mem_nil
    | some payload =>
      obtain ⟨analysis, hanalysis, hp⟩ := bind_ok.mp hp
      rw [← Except.ok.inj hp] at hd
      obtain ⟨det, hdet, rfl⟩ := List.mem_map.mp hd
      obtain ⟨hrelevance, hconfidence⟩ := analyzeFrame_floors hanalysis
      exact ⟨hrelevance, hconfidence det hdet⟩

variable {b : Batches}

theorem length_queryAllRecords (h : Counted records b done db) :
    ∃ out, db.queryAllRecords = .ok out ∧
      out.length = done.count .parse * records.length := by
  have hrows : ∀ row ∈ orderBy ExtractedRow.blockIndex db.tables.extractedRecords,
      ∃ r, row.read = .ok r :=
    fun row hrow => h.readable row ((perm_orderBy _ _).mem_iff.mp hrow)
  obtain ⟨out, hout, hlen⟩ := length_fetch h.sound .extractedRecords hrows
  refine ⟨out, ?_, ?_⟩
  · rw [CaseDatabase.queryAllRecords_eq]
    exact hout
  · rw [hlen, length_orderBy, h.length]

theorem length_queryCarvedRecords (h : Settled records b done db) (hsound : db.io = .sound)
    (hnumbers : ∀ f ∈ b.frames, f.confidence.isNaN = false) :
    ∃ out, db.queryCarvedRecords none = .ok out ∧
      out.length = done.count .carve * b.frames.length := by
  have hrows : ∀ row ∈ orderBy CarvedRow.byteOffset db.tables.carvedRecords,
      ∃ f, row.read = .ok f := by
    intro row hrow
    have hmem := (perm_orderBy _ _).mem_iff.mp hrow
    rw [h.frames] at hmem
    obtain ⟨f, hf, rfl⟩ := List.mem_map.mp (mem_copies hmem)
    exact read_ofFrame 1 f (hnumbers f hf)
  obtain ⟨out, hout, hlen⟩ := length_fetch hsound .carvedRecords hrows
  refine ⟨out, ?_, ?_⟩
  · rw [CaseDatabase.queryCarvedRecords_none]
    exact hout
  · rw [hlen, length_orderBy, h.frames, length_copies, List.length_map]

theorem length_queryCorrelatedEvents (h : Settled records b done db) (hsound : db.io = .sound)
    (hnumbers : ∀ e ∈ b.events, e.confidence.isNaN = false) :
    ∃ out, (db.queryCorrelatedEvents none).map (List.map eventAside) = .ok out ∧
      out.length = done.count .correlate * b.events.length := by
  have hrows : ∀ row ∈ db.tables.correlatedEvents.map unnumberedEvent,
      ∃ e, row.read = .ok e := by
    intro row hrow
    rw [h.events] at hrow
    obtain ⟨e, he, rfl⟩ := List.mem_map.mp (mem_copies hrow)
    exact readable_ofEvent 0 1 (hnumbers e he)
  obtain ⟨out, hout, hlen⟩ := length_fetch hsound .correlatedEvents hrows
  refine ⟨out.map eventAside, ?_, ?_⟩
  · have hquery : (blanked db).queryCorrelatedEvents none = .ok out := by
      rw [CaseDatabase.queryCorrelatedEvents_none]
      exact hout
    rw [← queryCorrelatedEvents_blanked, hquery]
    rfl
  · rw [List.length_map, hlen, h.events, length_copies, List.length_map]

/-- Every stored detection is at or above the floors of the analysis. -/
theorem length_queryAnalyticsDetections (h : Settled records b done db) (hsound : db.io = .sound)
    (hfloors : ∀ d ∈ b.detections, (∀ x ∈ detectionReals d, x.isNaN = false) ∧
      ¬ d.relevanceScore < 0.0 ∧ ¬ d.confidence < 0.60) :
    ∃ out, (db.queryAnalyticsDetections none 0.0 0.60 none none).map (List.map detectionAside) =
        .ok out ∧ out.length = done.count .analyze * b.detections.length := by
  let rows := db.tables.analyticsDetections.map unnumberedDetection
  have hmem : ∀ row ∈ rows, ∃ d ∈ b.detections, AnalyticsRow.ofDetection 0 1 d = row := by
    intro row hrow
    rw [show rows = _ from h.detections] at hrow
    exact List.mem_map.mp (mem_copies hrow)
  have hall : rows.filter (fun row =>
      row.relevanceScore.holds Ordering.isGE (.ofFloat 0.0) &&
      row.confidence.holds Ordering.isGE (.ofFloat 0.60) &&
      (none : Option ℤ).all (row.evidenceId == ·) &&
      (none : Option String).all fun c => row.entityClass.holds Ordering.isEq (.text c)) =
      rows := by
    apply List.filter_eq_self.mpr
    intro row hrow
    obtain ⟨d, hd, rfl⟩ := hmem row hrow
    obtain ⟨hnumbers, hrelevance, hconfidence⟩ := hfloors d hd
    have hrelevant := holds_of_not_lt (hnumbers d.relevanceScore (by simp [detectionReals]))
      (by decide) hrelevance
    have hconfident := holds_of_not_lt (hnumbers d.confidence (by simp [detectionReals]))
      (by decide +kernel) hconfidence
    simp [AnalyticsRow.ofDetection, hrelevant, hconfident]
  let order (a b : AnalyticsRow) : Prop :=
    ((b.relevanceScore.compareValues a.relevanceScore).then
      (a.timestamp.compareValues b.timestamp)).isLE
  have hrows : ∀ row ∈ rows.insertionSort order, ∃ d, row.read = .ok d := by
    intro row hrow
    obtain ⟨d, hd, rfl⟩ := hmem row ((List.perm_insertionSort order rows).mem_iff.mp hrow)
    exact readable_ofDetection 0 1 (hfloors d hd).1
  obtain ⟨out, hout, hlen⟩ := length_fetch hsound .analyticsDetections hrows
  refine ⟨out.map detectionAside, ?_, ?_⟩
  · have hquery : (blanked db).queryAnalyticsDetections none 0.0 0.60 none none = .ok out := by
      unfold CaseDatabase.queryAnalyticsDetections blanked
      dsimp only
      rw [hall]
      exact hout
    rw [← queryAnalyticsDetections_blanked, hquery]
    rfl
  · rw [List.length_map, hlen, (List.perm_insertionSort order rows).length_eq,
      show rows = _ from h.detections, length_copies, List.length_map]

/-- The run count that makes no difference to what a stage has left. -/
theorem once_of_same {α β : Type} {n m : ℕ} {xs : List α} {x y : Except Errors.ParserError (List β)}
    {out out' : List β} (hx : x = .ok out) (hy : y = .ok out') (hsame : x = y)
    (hlen : out.length = n * xs.length) (hlen' : out'.length = m * xs.length) (hone : m = 1)
    (hne : xs ≠ []) : n = 1 := by
  rw [hx, hy] at hsame
  have hlengths := congrArg List.length (Except.ok.inj hsame)
  rw [hlen, hlen', hone] at hlengths
  exact copies_eq_one hne hlengths

theorem settled_of_once (h : Counted records b done db)
    (hparses : records ≠ [] → done.count .parse = 1) : Settled records b done db := by
  apply h.settled
  by_cases hne : records = []
  · exact .inr hne
  · exact .inl (hparses hne)

/-- Two sequences of runs, the second of each stage once, leave the same lists
exactly when the first ran each stage that stores anything once. -/
theorem sameLists_iff {single : CaseDatabase} (hpath : db.path = single.path)
    (h : Counted records b done db) (hsingle : Counted records b Stage.inOrder single)
    (hframes : ∀ f ∈ b.frames, f.confidence.isNaN = false)
    (hevents : ∀ e ∈ b.events, e.confidence.isNaN = false)
    (hfloors : ∀ d ∈ b.detections, (∀ x ∈ detectionReals d, x.isNaN = false) ∧
      ¬ d.relevanceScore < 0.0 ∧ ¬ d.confidence < 0.60) :
    SameLists db single ↔ (records ≠ [] → done.count .parse = 1) ∧
      (b.frames ≠ [] → done.count .carve = 1) ∧ (b.events ≠ [] → done.count .correlate = 1) ∧
      (b.detections ≠ [] → done.count .analyze = 1) := by
  have hsettledOnce := hsingle.settled (.inl rfl)
  constructor
  · intro hsame
    have hparses : records ≠ [] → done.count .parse = 1 := by
      obtain ⟨out, hout, hlen⟩ := length_queryAllRecords h
      obtain ⟨out', hout', hlen'⟩ := length_queryAllRecords hsingle
      exact once_of_same hout hout' hsame.records hlen hlen' rfl
    have hsettled := settled_of_once h hparses
    refine ⟨hparses, ?_, ?_, ?_⟩
    · obtain ⟨out, hout, hlen⟩ := length_queryCarvedRecords hsettled h.sound hframes
      obtain ⟨out', hout', hlen'⟩ := length_queryCarvedRecords hsettledOnce hsingle.sound hframes
      exact once_of_same hout hout' (hsame.carved none) hlen hlen' rfl
    · obtain ⟨out, hout, hlen⟩ := length_queryCorrelatedEvents hsettled h.sound hevents
      obtain ⟨out', hout', hlen'⟩ :=
        length_queryCorrelatedEvents hsettledOnce hsingle.sound hevents
      exact once_of_same hout hout' (hsame.events none) hlen hlen' rfl
    · obtain ⟨out, hout, hlen⟩ := length_queryAnalyticsDetections hsettled h.sound hfloors
      obtain ⟨out', hout', hlen'⟩ :=
        length_queryAnalyticsDetections hsettledOnce hsingle.sound hfloors
      exact once_of_same hout hout' (hsame.detections none 0.0 0.60 none none) hlen hlen' rfl
  · intro honce
    obtain ⟨hparses, hcarves, hcorrelates, hanalyzes⟩ := honce
    have hsettled := settled_of_once h hparses
    apply sameLists_of_sameRows
    refine ⟨hpath, h.sound.trans hsingle.sound.symm, ?_, ?_, ?_, ?_⟩
    · rw [hsettled.records, hsettledOnce.records]
    · rw [hsettled.frames, hsettledOnce.frames]
      exact copies_one_or fun hne => hcarves (by simpa using hne)
    · rw [hsettled.events, hsettledOnce.events]
      exact copies_one_or fun hne => hcorrelates (by simpa using hne)
    · rw [hsettled.detections, hsettledOnce.detections]
      exact copies_one_or fun hne => hanalyzes (by simpa using hne)

/-- The stage has left a row in the database. -/
def Stores : Stage → CaseDatabase → Prop
  | .parse, db => db.tables.extractedRecords ≠ []
  | .carve, db => db.tables.carvedRecords ≠ []
  | .correlate, db => db.tables.correlatedEvents ≠ []
  | .analyze, db => db.tables.analyticsDetections ≠ []

theorem stores_iff {single : CaseDatabase} (h : Settled records b Stage.inOrder single)
    (n : Stage → ℕ) : (∀ stage, Stores stage single → n stage = 1) ↔
      (records ≠ [] → n .parse = 1) ∧ (b.frames ≠ [] → n .carve = 1) ∧
        (b.events ≠ [] → n .correlate = 1) ∧ (b.detections ≠ [] → n .analyze = 1) := by
  have hone : ∀ {α : Type} (xs : List α), copies 1 xs = xs := by
    intro α xs
    simp [copies]
  have hparse : Stores .parse single ↔ records ≠ [] := by
    rw [Stores, h.records, ne_eq, List.map_eq_nil_iff]
  have hcarve : Stores .carve single ↔ b.frames ≠ [] := by
    rw [Stores, h.frames, ne_eq]
    exact not_congr ((congrArg (· = []) (hone _)).to_iff.trans List.map_eq_nil_iff)
  have hcorrelate : Stores .correlate single ↔ b.events ≠ [] := by
    have hrows := h.events
    rw [show Stage.inOrder.count .correlate = 1 from rfl, hone] at hrows
    rw [Stores, ne_eq, ← List.map_eq_nil_iff, hrows, List.map_eq_nil_iff]
  have hanalyze : Stores .analyze single ↔ b.detections ≠ [] := by
    have hrows := h.detections
    rw [show Stage.inOrder.count .analyze = 1 from rfl, hone] at hrows
    rw [Stores, ne_eq, ← List.map_eq_nil_iff, hrows, List.map_eq_nil_iff]
  rw [← hparse, ← hcarve, ← hcorrelate, ← hanalyze]
  constructor
  · intro hall
    exact ⟨hall .parse, hall .carve, hall .correlate, hall .analyze⟩
  · intro hall stage
    obtain ⟨hparses, hcarves, hcorrelates, hanalyzes⟩ := hall
    cases stage with
    | parse => exact hparses
    | carve => exact hcarves
    | correlate => exact hcorrelates
    | analyze => exact hanalyzes

theorem path_runAll (X : Crates) (w : Workspace) (stages : List Stage) (db : CaseDatabase) :
    (runAll X w db stages).path = db.path := by
  induction stages generalizing db with
  | nil => rfl
  | cons stage rest ih => exact ih (stage.run X w db)

/-- While no parse run succeeds, the database stays as it is. -/
theorem runAll_of_fails (hfails : ∀ db : CaseDatabase, db.io = .sound →
    Stage.parse.run X w db = db) (path : String) (stages : List Stage) :
    runAll X w (fresh path) stages = fresh path := by
  induction stages with
  | nil => rfl
  | cons stage rest ih =>
    have hrun : stage.run X w (fresh path) = fresh path := by
      by_cases hparse : stage = .parse
      · rw [hparse]
        exact hfails _ rfl
      · exact run_of_no_item rfl rfl hparse
    rw [runAll, List.foldl_cons, hrun]
    exact ih

/-- A sequence of runs leaves the lists of a single ordered run exactly when, from
the first parse run on, each stage that stores anything was run once. -/
theorem rerun_iff (X : Crates) (w : Workspace) (path : String) (stages : List Stage) :
    SameLists (runAll X w (fresh path) stages) (runAll X w (fresh path) Stage.inOrder) ↔
      ∀ stage, Stores stage (runAll X w (fresh path) Stage.inOrder) →
        (stages.dropWhile (· ≠ .parse)).count stage = 1 := by
  rcases run_parse X w with hfails | ⟨records, hextracts⟩
  · rw [runAll_of_fails hfails, runAll_of_fails hfails]
    constructor
    · intro _ stage hstores
      cases stage <;> exact absurd rfl hstores
    · intro _
      exact ⟨rfl, fun _ => rfl, fun _ => rfl, fun _ _ _ _ _ => rfl⟩
  · have hcounted := counted_runAll hextracts path stages
    have hsingle := counted_runAll hextracts path Stage.inOrder
    rw [show Stage.inOrder.dropWhile (· ≠ .parse) = Stage.inOrder from rfl] at hsingle
    have hpath : (runAll X w (fresh path) stages).path =
        (runAll X w (fresh path) Stage.inOrder).path := by
      rw [path_runAll, path_runAll]
    rw [stores_iff (hsingle.settled (.inl rfl))]
    exact sameLists_iff hpath hcounted hsingle
      (fun f hf => (mem_accepted hf).2 f.confidence (by simp [frameReals]))
      (fun e he => (mem_accepted he).2 e.confidence (by simp [eventReals]))
      fun d hd => floors_of_batch hd

/-- An image of one frame of one byte. -/
def oneFrame : Workspace where
  dir := .holding (plainManifest .sample "evidence.raw" "case" "" 1 [97]) "evidence.raw"
    ⟨[97], by decide⟩
  grammarsDir := tinyDir 1 1
  loadPlugin _ := none
  json := ⟨fun _ => "", fun _ => "", fun _ => "", fun _ => ""⟩
  window := 10
  blackoutGap := 15
  headerPlan := eager
  parsePlan := eager
  carvePlan := eager
  analyzePlans _ := eager

theorem oneFrame_extracts : ∃ record, Extracts .sample oneFrame [record] := by
  obtain ⟨out, hout⟩ := exists_ok
    (x := parseCase .sample oneFrame.dir oneFrame.grammarsDir oneFrame.loadPlugin "case.db" .absent
      oneFrame.headerPlan oneFrame.parsePlan) (by decide +kernel)
  obtain ⟨caseName, grammar, records, hparses⟩ := parses_of_parseCase hout
  have hextracts := extracts_of_parses hparses
  obtain ⟨manifest, evidence, detected, source, -, hmanifest, hevidence, -, hsource, hrecords, -⟩ :=
    hparses
  obtain rfl := Except.ok.inj hmanifest
  obtain rfl := Except.ok.inj hevidence
  obtain rfl := Except.ok.inj hsource
  have hone : records.length = 1 :=
    (plainRecords_getElem (extractRecords_ok hrecords).2).1
  obtain ⟨record, rfl⟩ := List.length_eq_one_iff.mp hone
  exact ⟨record, hextracts⟩

/-- Parsed twice, the image has two records. -/
theorem second_parse_shows :
    ∃ once twice,
      (runAll .sample oneFrame (fresh "case.db") Stage.inOrder).queryAllRecords = .ok once ∧
      (runAll .sample oneFrame (fresh "case.db")
        [.parse, .parse, .carve, .correlate, .analyze]).queryAllRecords = .ok twice ∧
      once.length = 1 ∧ twice.length = 2 ∧
      ¬ SameLists
        (runAll .sample oneFrame (fresh "case.db") [.parse, .parse, .carve, .correlate, .analyze])
        (runAll .sample oneFrame (fresh "case.db") Stage.inOrder) := by
  obtain ⟨record, hextracts⟩ := oneFrame_extracts
  obtain ⟨once, honce, hone⟩ :=
    length_queryAllRecords (counted_runAll hextracts "case.db" Stage.inOrder)
  obtain ⟨twice, htwice, htwo⟩ := length_queryAllRecords
    (counted_runAll hextracts "case.db" [.parse, .parse, .carve, .correlate, .analyze])
  have hone : once.length = 1 := hone
  have htwo : twice.length = 2 := htwo
  refine ⟨once, twice, honce, htwice, hone, htwo, ?_⟩
  intro hsame
  have hlists := hsame.records
  rw [honce, htwice] at hlists
  have hlengths := congrArg List.length (Except.ok.inj hlists)
  omega

end Dvrft.Rerun
