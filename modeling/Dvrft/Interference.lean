import Dvrft.Reporting
import Dvrft.Verdict

/-!
Several evidence items in one database. Every row carries the id of its item, but
the audit and the report read the rows of all items. A case is therefore found as
if it were alone in the database exactly when no other item was given a row.
-/

namespace Dvrft.Interference

open Chunks ShortReads Errors Machine Platform Crates Sqlite Acquisition Interpreter Database
  CaseFiles Verify Verdict Reporting

/-- A call that stores into the database. -/
inductive StoreOp where
  | extraction (caseName grammarId : String) (validationTier : UInt8)
      (records : List ExtractedRecord)
  | carved (evidenceId : ℤ) (frames : List CarvedFrame)

namespace StoreOp

/-- The database after the call; a call that fails leaves it as it was. -/
def apply (db : CaseDatabase) : StoreOp → CaseDatabase
  | extraction caseName grammarId validationTier records =>
    match db.storeCaseExtraction caseName grammarId validationTier.toNat records with
    | .ok (db', _) => db'
    | .error _ => db
  | carved evidenceId frames =>
    match db.storeCarvedRecords evidenceId frames with
    | .ok (db', _) => db'
    | .error _ => db

/-- The number of items after the call, when it was `n` before. -/
def items (n : ℕ) : StoreOp → ℕ
  | extraction .. => n + 1
  | carved .. => n

/-- The id of the item that the call is for. -/
def item (n : ℕ) : StoreOp → ℤ
  | extraction .. => n + 1
  | carved evidenceId _ => evidenceId

def records : StoreOp → List ExtractedRecord
  | extraction _ _ _ records => records
  | carved .. => []

/-- The frames that the call stores; it stores none when a confidence is no number
or the item is not there. -/
def frames (n : ℕ) : StoreOp → List CarvedFrame
  | extraction .. => []
  | carved evidenceId frames =>
    if ∀ f ∈ frames, f.confidence.isNaN = false ∧ 1 ≤ evidenceId ∧ evidenceId ≤ n then frames
    else []

/-- The same call for the first item of a database. -/
def forFirst : StoreOp → StoreOp
  | extraction caseName grammarId validationTier records =>
    extraction caseName grammarId validationTier records
  | carved _ frames => carved 1 frames

end StoreOp

/-- A new database at a path. -/
def fresh (path : String) : CaseDatabase := ⟨path, .empty, .sound⟩

def storeAll (db : CaseDatabase) (ops : List StoreOp) : CaseDatabase := ops.foldl StoreOp.apply db

/-- The calls for item number `e`, counted from zero, as they would be made on a
database for it alone. -/
def callsFor (e : ℕ) : ℕ → List StoreOp → List StoreOp
  | _, [] => []
  | n, op :: rest =>
    (if op.item n = e + 1 then [op.forFirst] else []) ++ callsFor e (op.items n) rest

/-- No other item than number `e` is given a record or a frame. -/
def Exclusive (e : ℕ) : ℕ → List StoreOp → Prop
  | _, [] => True
  | n, op :: rest =>
    (op.item n = e + 1 ∨ op.records = [] ∧ op.frames n = []) ∧ Exclusive e (op.items n) rest

def itemIds (n : ℕ) : List ℤ := (List.range n).map fun (i : ℕ) => (i : ℤ) + 1

theorem mem_itemIds (n : ℕ) (id : ℤ) : id ∈ itemIds n ↔ 1 ≤ id ∧ id ≤ n := by
  simp only [itemIds, List.mem_map, List.mem_range]
  constructor
  · rintro ⟨i, hi, rfl⟩
    omega
  · rintro ⟨hone, hle⟩
    exact ⟨(id - 1).toNat, by omega, by omega⟩

theorem itemIds_succ (n : ℕ) : itemIds (n + 1) = itemIds n ++ [(n : ℤ) + 1] := by
  rw [itemIds, List.range_succ, List.map_append]
  rfl

theorem nextId_itemIds (n : ℕ) : nextId (itemIds n) = n + 1 := by
  have hmax : (itemIds n).foldl max 0 = n := by
    induction n with
    | zero => rfl
    | succ n ih =>
      rw [itemIds_succ, List.foldl_append, ih, List.foldl_cons, List.foldl_nil]
      omega
  rw [nextId, nextIdAfter, hmax]

/-- A database that only the calls have written, with `n` items in it. -/
structure Written (n : ℕ) (db : CaseDatabase) : Prop where
  sound : db.io = .sound
  items : db.tables.evidenceItems.map (·.id) = itemIds n
  primary : ∀ row ∈ db.tables.evidenceItems,
    row.grammarId.isText ∧ ∃ tier, row.validationTier.getU8 1 = .ok tier
  records : ∀ row ∈ db.tables.extractedRecords, ∃ r, row.read = .ok r
  frames : ∀ row ∈ db.tables.carvedRecords, ∃ f, row.read = .ok f
  events : db.tables.correlatedEvents = []
  detections : db.tables.analyticsDetections = []

theorem written_fresh (path : String) : Written 0 (fresh path) where
  sound := rfl
  items := rfl
  primary := by simp [fresh, Tables.empty]
  records := by simp [fresh, Tables.empty]
  frames := by simp [fresh, Tables.empty]
  events := rfl
  detections := rfl

theorem read_ofFrame (evidenceId : ℤ) (f : CarvedFrame) (h : f.confidence.isNaN = false) :
    ∃ g, (CarvedRow.ofFrame evidenceId f).read = .ok g := by
  simp only [CarvedRow.read, CarvedRow.ofFrame, SqlValue.ofFloat_of_number h]
  exact ⟨_, rfl⟩

/-- A frame is inserted unless its confidence is no number or the item is not there. -/
theorem findSome?_refusedFrame {n : ℕ} {items : List EvidenceRow} (evidenceId : ℤ)
    (frames : List CarvedFrame) (hitems : items.map (·.id) = itemIds n) :
    frames.findSome? (CaseDatabase.refusedFrame items evidenceId) = none ↔
      ∀ f ∈ frames, f.confidence.isNaN = false ∧ 1 ≤ evidenceId ∧ evidenceId ≤ n := by
  have hknown : items.all (·.id != evidenceId) = false ↔ 1 ≤ evidenceId ∧ evidenceId ≤ n := by
    rw [← mem_itemIds, ← hitems, List.mem_map, List.all_eq_false]
    simp
  rw [List.findSome?_eq_none_iff]
  refine forall₂_congr fun f _ => ?_
  unfold CaseDatabase.refusedFrame
  rw [← hknown]
  split_ifs with hnan hall <;> simp_all

/-- What one call does to a database that calls have written. -/
structure Effect (n : ℕ) (op : StoreOp) (db db' : CaseDatabase) : Prop where
  written : Written (op.items n) db'
  path : db'.path = db.path
  records : db'.tables.extractedRecords =
    db.tables.extractedRecords ++ op.records.map (ExtractedRow.ofRecord (op.item n))
  frames : db'.tables.carvedRecords =
    db.tables.carvedRecords ++ (op.frames n).map (CarvedRow.ofFrame (op.item n))

theorem effect_extraction {n : ℕ} {db : CaseDatabase} (h : Written n db)
    (caseName grammarId : String) (validationTier : UInt8) (records : List ExtractedRecord) :
    Effect n (.extraction caseName grammarId validationTier records) db
      (StoreOp.apply db (.extraction caseName grammarId validationTier records)) := by
  obtain ⟨db', caseId, evidenceId, hstore, hpath, hio⟩ :=
    db.storeCaseExtraction_isOk caseName grammarId validationTier.toNat records
      (by rw [h.sound]; rfl)
  have happly : StoreOp.apply db (.extraction caseName grammarId validationTier records) = db' := by
    simp only [StoreOp.apply, hstore]
  obtain ⟨hid, hitems, hrecords, hcarved, hevents, hdetections⟩ :=
    CaseDatabase.storeCaseExtraction_ok hstore
  rw [h.items, nextId_itemIds] at hid
  subst hid
  rw [happly]
  refine ⟨⟨hio.trans h.sound, ?_, ?_, ?_, ?_, hevents.trans h.events,
    hdetections.trans h.detections⟩, hpath, hrecords, ?_⟩
  · rw [hitems, List.map_append, h.items]
    exact (itemIds_succ n).symm
  · rw [hitems]
    intro row hrow
    rcases List.mem_append.mp hrow with hold | hnew
    · exact h.primary row hold
    · obtain rfl := List.mem_singleton.mp hnew
      have hbound := validationTier.toNat_lt
      refine ⟨rfl, validationTier.toNat, ?_⟩
      simp only [SqlValue.getU8]
      rw [if_pos (by omega), Int.toNat_natCast]
  · rw [hrecords]
    intro row hrow
    rcases List.mem_append.mp hrow with hold | hnew
    · exact h.records row hold
    · obtain ⟨r, -, rfl⟩ := List.mem_map.mp hnew
      exact ⟨_, read_ofRecord _ r⟩
  · rw [hcarved]
    exact h.frames
  · rw [hcarved]
    simp [StoreOp.frames]

theorem effect_carved {n : ℕ} {db : CaseDatabase} (h : Written n db) (evidenceId : ℤ)
    (frames : List CarvedFrame) :
    Effect n (.carved evidenceId frames) db (StoreOp.apply db (.carved evidenceId frames)) := by
  have hrefused := findSome?_refusedFrame evidenceId frames h.items
  have hwriting := CaseDatabase.writing_sound h.sound
  by_cases haccepted : ∀ f ∈ frames,
      f.confidence.isNaN = false ∧ 1 ≤ evidenceId ∧ evidenceId ≤ n
  · have happly : StoreOp.apply db (.carved evidenceId frames) =
        ⟨db.path, { db.tables with
          carvedRecords := db.tables.carvedRecords ++ frames.map (CarvedRow.ofFrame evidenceId) },
          db.io⟩ := by
      simp only [StoreOp.apply, CaseDatabase.storeCarvedRecords, hwriting,
        hrefused.mpr haccepted]
    rw [happly]
    refine ⟨⟨h.sound, h.items, h.primary, h.records, ?_, h.events, h.detections⟩, rfl, ?_, ?_⟩
    · intro row hrow
      rcases List.mem_append.mp hrow with hold | hnew
      · exact h.frames row hold
      · obtain ⟨f, hf, rfl⟩ := List.mem_map.mp hnew
        exact read_ofFrame evidenceId f (haccepted f hf).1
    · simp [StoreOp.records]
    · simp only [StoreOp.frames, if_pos haccepted, StoreOp.item]
  · obtain ⟨e, he⟩ := Option.ne_none_iff_exists'.mp fun hnone => haccepted (hrefused.mp hnone)
    have happly : StoreOp.apply db (.carved evidenceId frames) = db := by
      simp only [StoreOp.apply, CaseDatabase.storeCarvedRecords, hwriting, he]
    rw [happly]
    refine ⟨h, rfl, ?_, ?_⟩
    · simp [StoreOp.records]
    · simp only [StoreOp.frames, if_neg haccepted, List.map_nil, List.append_nil]

theorem effect_apply {n : ℕ} {db : CaseDatabase} (h : Written n db) (op : StoreOp) :
    Effect n op db (op.apply db) := by
  cases op with
  | extraction caseName grammarId validationTier records =>
    exact effect_extraction h caseName grammarId validationTier records
  | carved evidenceId frames => exact effect_carved h evidenceId frames

/-- The row, as it is numbered in a database for its item alone. -/
def asFirstRecord (row : ExtractedRow) : ExtractedRow := { row with evidenceId := 1 }

def asFirstFrame (row : CarvedRow) : CarvedRow := { row with evidenceId := 1 }

/-- The second database holds what the first one holds of item number `e`. -/
structure Projects (e n : ℕ) (db alone : CaseDatabase) : Prop where
  path : alone.path = db.path
  written : Written n db
  writtenAlone : Written (if e < n then 1 else 0) alone
  records : alone.tables.extractedRecords =
    (db.tables.extractedRecords.filter fun row => row.evidenceId == (e : ℤ) + 1).map asFirstRecord
  frames : alone.tables.carvedRecords =
    (db.tables.carvedRecords.filter fun row => row.evidenceId == (e : ℤ) + 1).map asFirstFrame

/-- Rows written for one item are all there in the selection of that item and in
no other. -/
theorem filter_written {α ρ : Type} (owner : ρ → ℤ) (write : α → ρ) (item id : ℤ)
    (howner : ∀ a, owner (write a) = item) (xs : List α) :
    (xs.map write).filter (fun row => owner row == id) =
      if item = id then xs.map write else [] := by
  split_ifs with heq
  · refine List.filter_eq_self.mpr fun row hrow => ?_
    obtain ⟨a, -, rfl⟩ := List.mem_map.mp hrow
    simp [howner, heq]
  · refine List.filter_eq_nil_iff.mpr fun row hrow => ?_
    obtain ⟨a, -, rfl⟩ := List.mem_map.mp hrow
    simp [howner, heq]

theorem forall_written {α ρ : Type} (owner : ρ → ℤ) (write : α → ρ) (item id : ℤ)
    (howner : ∀ a, owner (write a) = item) (xs : List α) :
    (∀ row ∈ xs.map write, owner row = id) ↔ item = id ∨ xs = [] := by
  simp only [List.forall_mem_map, howner]
  cases xs with
  | nil => simp
  | cons a rest => exact ⟨fun hall => .inl (hall a (by simp)), by simp +contextual⟩

/-- A call for the item has the same effect on both. -/
theorem projects_kept {e n : ℕ} {db alone : CaseDatabase} (h : Projects e n db alone)
    (op : StoreOp) (hitem : op.item n = e + 1) :
    Projects e (op.items n) (op.apply db) (op.forFirst.apply alone) := by
  have hfull := effect_apply h.written op
  have halone := effect_apply h.writtenAlone op.forFirst
  have hitems : op.forFirst.items (if e < n then 1 else 0) = if e < op.items n then 1 else 0 := by
    cases op with
    | extraction caseName grammarId validationTier records =>
      have hnew : n = e := by
        simpa [StoreOp.item] using hitem
      simp [StoreOp.forFirst, StoreOp.items, hnew]
    | carved evidenceId frames => rfl
  have hfirst : op.forFirst.item (if e < n then 1 else 0) = 1 := by
    cases op with
    | extraction caseName grammarId validationTier records =>
      have hnew : n = e := by
        simpa [StoreOp.item] using hitem
      simp [StoreOp.forFirst, StoreOp.item, hnew]
    | carved evidenceId frames => rfl
  have hrecords : op.forFirst.records = op.records := by
    cases op <;> rfl
  have hframes : op.forFirst.frames (if e < n then 1 else 0) = op.frames n := by
    cases op with
    | extraction caseName grammarId validationTier records => rfl
    | carved evidenceId frames =>
      simp only [StoreOp.item] at hitem
      have hthere : ((1 : ℤ) ≤ 1 ∧ (1 : ℤ) ≤ (if e < n then 1 else 0 : ℕ)) ↔
          (1 ≤ evidenceId ∧ evidenceId ≤ n) := by
        split_ifs <;> omega
      simp only [StoreOp.forFirst, StoreOp.frames, hthere]
  refine ⟨halone.path.trans (h.path.trans hfull.path.symm), hfull.written, hitems ▸ halone.written,
    ?_, ?_⟩
  · rw [halone.records, hfull.records, hfirst, hrecords, h.records, List.filter_append,
      filter_written ExtractedRow.evidenceId (.ofRecord _) _ _ fun _ => rfl, if_pos hitem,
      List.map_append, List.map_map]
    rfl
  · rw [halone.frames, hfull.frames, hfirst, hframes, h.frames, List.filter_append,
      filter_written CarvedRow.evidenceId (.ofFrame _) _ _ fun _ => rfl, if_pos hitem,
      List.map_append, List.map_map]
    rfl

/-- A call for another item changes nothing of this one. -/
theorem projects_dropped {e n : ℕ} {db alone : CaseDatabase} (h : Projects e n db alone)
    (op : StoreOp) (hitem : op.item n ≠ e + 1) : Projects e (op.items n) (op.apply db) alone := by
  have hfull := effect_apply h.written op
  have hitems : (if e < op.items n then 1 else 0) = if e < n then 1 else 0 := by
    cases op with
    | extraction caseName grammarId validationTier records =>
      have hother : n ≠ e := by
        simpa [StoreOp.item] using hitem
      refine if_congr ?_ rfl rfl
      change e < n + 1 ↔ e < n
      omega
    | carved evidenceId frames => rfl
  refine ⟨h.path.trans hfull.path.symm, hfull.written, hitems ▸ h.writtenAlone, ?_, ?_⟩
  · rw [hfull.records, List.filter_append,
      filter_written ExtractedRow.evidenceId (.ofRecord _) _ _ fun _ => rfl, if_neg hitem,
      List.append_nil, h.records]
  · rw [hfull.frames, List.filter_append,
      filter_written CarvedRow.evidenceId (.ofFrame _) _ _ fun _ => rfl, if_neg hitem,
      List.append_nil, h.frames]

/-- The calls for the item alone produce what all calls produce of it. -/
theorem projects_run (e : ℕ) (ops : List StoreOp) {n : ℕ} {db alone : CaseDatabase}
    (h : Projects e n db alone) :
    ∃ m, Projects e m (storeAll db ops) (storeAll alone (callsFor e n ops)) := by
  induction ops generalizing n db alone with
  | nil => exact ⟨n, h⟩
  | cons op rest ih =>
    by_cases hitem : op.item n = e + 1
    · simp only [callsFor, if_pos hitem]
      exact ih (projects_kept h op hitem)
    · simp only [callsFor, if_neg hitem]
      exact ih (projects_dropped h op hitem)

theorem projects_fresh (e : ℕ) (path : String) : Projects e 0 (fresh path) (fresh path) where
  path := rfl
  written := written_fresh path
  writtenAlone := written_fresh path
  records := rfl
  frames := rfl

/-- Every row is the item's own. -/
def OwnRows (e : ℕ) (db : CaseDatabase) : Prop :=
  (∀ row ∈ db.tables.extractedRecords, row.evidenceId = e + 1) ∧
    ∀ row ∈ db.tables.carvedRecords, row.evidenceId = e + 1

theorem ownRows_apply {e n : ℕ} {db : CaseDatabase} (h : Written n db) (op : StoreOp) :
    OwnRows e (op.apply db) ↔
      OwnRows e db ∧ (op.item n = e + 1 ∨ op.records = [] ∧ op.frames n = []) := by
  have heffect := effect_apply h op
  simp only [OwnRows, heffect.records, heffect.frames, List.forall_mem_append]
  rw [forall_written ExtractedRow.evidenceId (.ofRecord _) _ _ fun _ => rfl,
    forall_written CarvedRow.evidenceId (.ofFrame _) _ _ fun _ => rfl]
  tauto

theorem ownRows_run (e : ℕ) (ops : List StoreOp) {n : ℕ} {db : CaseDatabase}
    (h : Written n db) : OwnRows e (storeAll db ops) ↔ OwnRows e db ∧ Exclusive e n ops := by
  induction ops generalizing n db with
  | nil => simp [storeAll, Exclusive]
  | cons op rest ih =>
    have hrest := ih (effect_apply h op).written
    rw [ownRows_apply h op] at hrest
    simp only [Exclusive, ← and_assoc]
    exact hrest

def fileOf (db : CaseDatabase) : DbFile := ⟨some db.tables, db.io⟩

/-- The number of records and of frames that a report on the database counts. -/
def artifactCounts (dbPath : String) (db : DbFile) : Reported (ℕ × ℕ) := do
  let opened ← openDatabase dbPath db
  let artifacts ← fromParser (queryArtifacts opened)
  .ok (artifacts.records.length, artifacts.carved.length)

/-- The clips cut out for the frames in the database. -/
def clipsOf (X : Crates) (dbPath : String) (db : DbFile) (evidence : Option EvidenceFile)
    (plans : ℕ → Schedule IoError) (outDir : String) (out : OutputIo) :
    Reported (ExportSummary × List Clip) := do
  let opened ← openDatabase dbPath db
  let carved ← fromParser (opened.queryCarvedRecords none)
  exportClips X evidence plans carved outDir out

/-- No audit, no count, no clip and no report tells the two files apart. -/
structure SameFindings (db db' : DbFile) : Prop where
  verified : ∀ X dir dbPath plan now,
    verifyCaseIntegrity X dir dbPath db' plan now = verifyCaseIntegrity X dir dbPath db plan now
  counted : ∀ dbPath, artifactCounts dbPath db' = artifactCounts dbPath db
  exported : ∀ X dbPath evidence plans outDir out,
    clipsOf X dbPath db' evidence plans outDir out = clipsOf X dbPath db evidence plans outDir out
  reported : ∀ X dir dbPath examiner outDir out plans now,
    (generateCaseReport X dir dbPath db' examiner outDir out plans now).map figures =
      (generateCaseReport X dir dbPath db examiner outDir out plans now).map figures

/-- The database as it is when the file is opened from another path. -/
def atPath (path : String) (db : CaseDatabase) : CaseDatabase := ⟨path, db.tables, db.io⟩

theorem Written.atPath {n : ℕ} {db : CaseDatabase} (h : Written n db) (path : String) :
    Written n (atPath path db) := ⟨h.sound, h.items, h.primary, h.records, h.frames, h.events,
  h.detections⟩

theorem openFile_fileOf {n : ℕ} {db : CaseDatabase} (h : Written n db) (path : String) :
    CaseDatabase.openFile path (fileOf db) = .ok (atPath path db) :=
  CaseDatabase.openFile_ok.mpr ⟨by rw [fileOf, h.sound]; rfl, rfl⟩

theorem primary_written {n : ℕ} {db : CaseDatabase} (h : Written n db) :
    ∃ p, db.primaryEvidenceGrammarAndTier = .ok p := by
  unfold CaseDatabase.primaryEvidenceGrammarAndTier
  rw [h.sound]
  cases hitems : db.tables.evidenceItems with
  | nil => exact ⟨none, rfl⟩
  | cons row rest =>
    obtain ⟨htext, tier, htier⟩ := h.primary row (by simp [hitems])
    obtain ⟨grammarId, hgrammar⟩ := (SqlValue.getString_isOk 0 row.grammarId).mpr htext
    refine ⟨some (grammarId, tier), ?_⟩
    simp only [hgrammar, htier, ok_bind]
    rfl

/-- All rows are counted. -/
theorem artifactCounts_written {n : ℕ} {db : CaseDatabase} (h : Written n db) (path : String) :
    artifactCounts path (fileOf db) =
      .ok (db.tables.extractedRecords.length, db.tables.carvedRecords.length) := by
  have hopen := openFile_fileOf h path
  replace h := h.atPath path
  have hread : ∀ row ∈ orderBy ExtractedRow.blockIndex db.tables.extractedRecords,
      ∃ r, row.read = .ok r := fun row hrow => h.records row ((perm_orderBy _ _).mem_iff.mp hrow)
  have hreadFrames : ∀ row ∈ orderBy CarvedRow.byteOffset db.tables.carvedRecords,
      ∃ f, row.read = .ok f := fun row hrow => h.frames row ((perm_orderBy _ _).mem_iff.mp hrow)
  obtain ⟨records, hrecords⟩ := exists_forall₂ hread
  obtain ⟨frames, hframes⟩ := exists_forall₂ hreadFrames
  have hall : (atPath path db).queryAllRecords = .ok records :=
    CaseDatabase.queryAllRecords_ok.mpr
      ⟨by rw [h.sound]; rfl, fun _ _ => by rw [h.sound]; rfl, hrecords⟩
  have hcarved : (atPath path db).queryCarvedRecords none = .ok frames :=
    CaseDatabase.queryCarvedRecords_ok.mpr
      ⟨by rw [h.sound]; rfl, fun _ _ => by rw [h.sound]; rfl, hframes⟩
  have hevents : (atPath path db).queryCorrelatedEvents none = .ok [] := by
    rw [CaseDatabase.queryCorrelatedEvents, h.events, CaseDatabase.fetch, h.sound]
    rfl
  have hdetections :
      (atPath path db).queryAnalyticsDetections none 0.50 0.60 none none = .ok [] := by
    rw [CaseDatabase.queryAnalyticsDetections, h.detections, CaseDatabase.fetch, h.sound]
    rfl
  have hartifacts : queryArtifacts (atPath path db) = .ok ⟨records, frames, [], []⟩ := by
    simp only [queryArtifacts, hall, hcarved, hevents, hdetections, ok_bind]
  have hlength := hrecords.length_eq
  have hlengthFrames := hframes.length_eq
  rw [length_orderBy] at hlength hlengthFrames
  simp only [artifactCounts, openDatabase_ok.mpr hopen, fromParser_ok.mpr hartifacts, ok_bind,
    hlength, hlengthFrames]

/-- Without rows of other items the two databases answer alike. -/
theorem answers_alike {e n : ℕ} {db alone : CaseDatabase} (h : Projects e n db alone)
    (hown : OwnRows e db) (path : String) :
    (atPath path alone).queryAllRecords = (atPath path db).queryAllRecords ∧
      (atPath path alone).queryCarvedRecords none = (atPath path db).queryCarvedRecords none := by
  have hio : alone.io = db.io := h.writtenAlone.sound.trans h.written.sound.symm
  have hrecords := h.records
  have hframes := h.frames
  rw [List.filter_eq_self.mpr fun row hrow => by simp [hown.1 row hrow]] at hrecords
  rw [List.filter_eq_self.mpr fun row hrow => by simp [hown.2 row hrow]] at hframes
  exact ⟨CaseDatabase.queryAllRecords_map asFirstRecord (fun _ => rfl) (fun _ => rfl) rfl hio
    hrecords, CaseDatabase.queryCarvedRecords_map asFirstFrame (fun _ => rfl) (fun _ => rfl) rfl hio
    hframes⟩

theorem queryArtifacts_alike {e n : ℕ} {db alone : CaseDatabase} (h : Projects e n db alone)
    (hown : OwnRows e db) (path : String) :
    queryArtifacts (atPath path alone) = queryArtifacts (atPath path db) := by
  obtain ⟨hrecords, hframes⟩ := answers_alike h hown path
  have hevents : (atPath path alone).queryCorrelatedEvents none =
      (atPath path db).queryCorrelatedEvents none := by
    simp only [CaseDatabase.queryCorrelatedEvents, CaseDatabase.fetch, atPath,
      h.written.events, h.writtenAlone.events, h.written.sound, h.writtenAlone.sound]
  have hdetections : (atPath path alone).queryAnalyticsDetections none 0.50 0.60 none none =
      (atPath path db).queryAnalyticsDetections none 0.50 0.60 none none := by
    simp only [CaseDatabase.queryAnalyticsDetections, CaseDatabase.fetch, atPath,
      h.written.detections, h.writtenAlone.detections, h.written.sound, h.writtenAlone.sound]
  simp only [queryArtifacts, hrecords, hframes, hevents, hdetections]

theorem sameFindings_of_ownRows {e n : ℕ} {db alone : CaseDatabase} (h : Projects e n db alone)
    (hown : OwnRows e db) : SameFindings (fileOf db) (fileOf alone) := by
  have hopen := openFile_fileOf h.written
  have hopenAlone := openFile_fileOf h.writtenAlone
  refine ⟨fun X dir dbPath plan now => ?_, fun dbPath => ?_, ?_, ?_⟩
  · have hcheck : ∀ hashes, crossCheck dbPath (fileOf alone) hashes =
        crossCheck dbPath (fileOf db) hashes := by
      intro hashes
      simp only [crossCheck, hopen, hopenAlone, (answers_alike h hown dbPath).1]
      rfl
    simp only [verifyCaseIntegrity, Audit.report, hcheck]
  · simp only [artifactCounts, openDatabase_ok.mpr (hopen dbPath),
      openDatabase_ok.mpr (hopenAlone dbPath), ok_bind, queryArtifacts_alike h hown dbPath]
  · intro X dbPath evidence plans outDir out
    simp only [clipsOf, openDatabase_ok.mpr (hopen dbPath),
      openDatabase_ok.mpr (hopenAlone dbPath), ok_bind, (answers_alike h hown dbPath).2]
  · intro X dir dbPath examiner outDir out plans now
    exact figures_congr (hopen dbPath) (hopenAlone dbPath) (queryArtifacts_alike h hown dbPath)
      (primary_written (h.written.atPath dbPath)) (primary_written (h.writtenAlone.atPath dbPath))

/-- A count that comes out the same leaves no row to another item. -/
theorem ownRows_of_counted {e n : ℕ} {db alone : CaseDatabase} (h : Projects e n db alone)
    (path : String) (hcounted : artifactCounts path (fileOf alone) =
      artifactCounts path (fileOf db)) : OwnRows e db := by
  rw [artifactCounts_written h.written, artifactCounts_written h.writtenAlone, Except.ok.injEq,
    Prod.mk.injEq, h.records, h.frames, List.length_map, List.length_map,
    List.length_filter_eq_length_iff, List.length_filter_eq_length_iff] at hcounted
  simpa [OwnRows] using hcounted

/-- Item number `e` is found as if it were alone exactly when no other item was
given a row. -/
theorem findings_alone_iff (e : ℕ) (path : String) (ops : List StoreOp) :
    SameFindings (fileOf (storeAll (fresh path) ops))
        (fileOf (storeAll (fresh path) (callsFor e 0 ops))) ↔
      Exclusive e 0 ops := by
  obtain ⟨n, h⟩ := projects_run e ops (projects_fresh e path)
  have hrows : OwnRows e (storeAll (fresh path) ops) ↔ Exclusive e 0 ops := by
    simpa [OwnRows, fresh, Tables.empty] using ownRows_run e ops (written_fresh path)
  rw [← hrows]
  exact ⟨fun hsame => ownRows_of_counted h path (hsame.counted path), sameFindings_of_ownRows h⟩

/-- Two images of one block each, recorded in one database. -/
def twoItems : List StoreOp :=
  [.extraction "first" "synthetic-v1" 1
      [plainRecord 0 0 0 1 false "video_frame" (Crates.sample.blake3Hex [97])],
    .extraction "second" "synthetic-v1" 1
      [plainRecord 0 0 0 1 false "video_frame" (Crates.sample.blake3Hex [98])]]

/-- The record of the second image counts against the first one. -/
theorem second_item_condemns_first :
    ∃ mixed alone,
      verifyCaseIntegrity .sample
        (.holding (plainManifest .sample "evidence.raw" "first" "" 1 [97]) "evidence.raw"
          ⟨[97], by decide⟩) "case.db" (fileOf (storeAll (fresh "case.db") twoItems)) eager "" =
        .ok mixed ∧
      verifyCaseIntegrity .sample
        (.holding (plainManifest .sample "evidence.raw" "first" "" 1 [97]) "evidence.raw"
          ⟨[97], by decide⟩) "case.db"
          (fileOf (storeAll (fresh "case.db") (callsFor 0 0 twoItems))) eager "" = .ok alone ∧
      mixed.isPristine = false ∧ alone.isPristine = true ∧
      artifactCounts "case.db" (fileOf (storeAll (fresh "case.db") twoItems)) = .ok (2, 0) ∧
      artifactCounts "case.db" (fileOf (storeAll (fresh "case.db") (callsFor 0 0 twoItems))) =
        .ok (1, 0) ∧
      ¬ SameFindings (fileOf (storeAll (fresh "case.db") twoItems))
        (fileOf (storeAll (fresh "case.db") (callsFor 0 0 twoItems))) := by
  have hrun := fun db => verifyCaseIntegrity_legal .sample
    (plainManifest .sample "evidence.raw" "first" "" 1 [97]) "evidence.raw" ⟨[97], by decide⟩
    "case.db" db eager "" (by decide) eager_legal
  have hverdict := fun db => @plainReport_isPristine .sample [97] 1 "evidence.raw" "first" "" _ [97]
    "evidence.raw" "case.db" "" db rfl
  have hblocks : (blocks 1 (scanned
      (plainManifest .sample "evidence.raw" "first" "" 1 [97]) [97])).map
        Crates.sample.blake3Hex = [Crates.sample.blake3Hex [97]] := rfl
  have hmixed : artifactCounts "case.db" (fileOf (storeAll (fresh "case.db") twoItems)) =
      .ok (2, 0) := rfl
  have halone : artifactCounts "case.db"
      (fileOf (storeAll (fresh "case.db") (callsFor 0 0 twoItems))) = .ok (1, 0) := rfl
  refine ⟨_, _, hrun _, hrun _, ?_, ?_, hmixed, halone, ?_⟩
  · rw [Bool.eq_false_iff, Ne, hverdict, hblocks]
    rintro ⟨-, -, -, hsilent⟩
    have hreadable : (fileOf (storeAll (fresh "case.db") twoItems)).RecordsReadable
        (storeAll (fresh "case.db") twoItems).tables :=
      ⟨rfl, rfl, fun _ _ => rfl, by decide +kernel⟩
    obtain ⟨r, hread, hhash⟩ := hsilent _ rfl hreadable _
      (List.mem_cons_of_mem _ (List.mem_singleton_self _))
    rw [read_ofRecord] at hread
    obtain rfl := Except.ok.inj hread
    exact absurd (Option.some.inj hhash) ((blake3Hex_eq_iff _ _ _).not.mpr (by decide +kernel))
  · refine (hverdict _).mpr ⟨rfl, rfl, rfl, ?_⟩
    rw [hblocks]
    intro tables htables _ row hrow
    obtain rfl := Option.some.inj htables
    obtain rfl := List.mem_singleton.mp hrow
    exact ⟨_, read_ofRecord _ _, rfl⟩
  · intro hsame
    have hcounted := hsame.counted "case.db"
    rw [hmixed, halone] at hcounted
    simp at hcounted

end Dvrft.Interference
