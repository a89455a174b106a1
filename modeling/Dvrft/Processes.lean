import Dvrft.Scores
import Dvrft.Sessions

/-!
Stages that run at the same time, each in a process of its own, on one database. SQLite
answers each query from what has been committed and runs each transaction as a whole, so a
stage is a program of a few accesses, and anything may be committed between two of them.
-/

namespace Dvrft.Processes

open Errors Machine Platform Crates Sqlite Acquisition CaseFiles Interpreter Database Detection
  ParseCase Verify Carving Correlation Analytics Pipeline Interference StreamKinds Custody Rerun
  Scores Sessions

/-- The database as an access finds it. -/
def asOf (db : CaseDatabase) (tables : Tables) : CaseDatabase := { db with tables := tables }

def asking {α : Type} (db : CaseDatabase) (ask : CaseDatabase → Except ParserError α)
    (next : α → Program Tables) : Program Tables :=
  .query fun tables => .given (ask (asOf db tables)) next

/-- One of the `store_*` functions: a transaction that fails leaves nothing. -/
def storing {α : Type} (db : CaseDatabase)
    (store : CaseDatabase → Except ParserError (CaseDatabase × α)) : Program Tables :=
  .commit fun tables => (store (asOf db tables)).toOption.map (·.1.tables)

def parsing (X : Crates) (path : String) (io : DbIo) (w : Workspace) : Program Tables :=
  .given w.dir.loadManifest fun manifest =>
  .given (w.dir.resolveEvidence manifest) fun evidence =>
  .given (detectGrammar X evidence w.grammarsDir w.headerPlan) fun detected =>
  .given (evidence.source w.parsePlan) fun source =>
  .given (extractRecords X manifest detected.1 (detected.1.descramblePlugin.bind w.loadPlugin)
    source) fun records =>
  .given (Demux.demuxRecords X records) fun _ =>
  .given (CaseDatabase.openFile path ⟨none, io⟩) fun db =>
  storing db (·.storeCaseExtraction manifest.caseName detected.1.id detected.1.tier records)

def carving (X : Crates) (path : String) (io : DbIo) (w : Workspace) : Program Tables :=
  .given (loadManifest w.dir) fun manifest =>
  .given (CaseDatabase.openFile path ⟨none, io⟩) fun db =>
  asking db (·.queryRecords { RecordFilter.default with corruptedOnly := true })
    fun corruptedRecords =>
  .given (carvedFrames X w manifest corruptedRecords) fun carved =>
  asking db (·.primaryEvidenceId) fun primaryEvidenceId =>
  storing db (·.storeCarvedRecords (primaryEvidenceId.getD 1) carved)

def correlating (path : String) (io : DbIo) (w : Workspace) : Program Tables :=
  .given (CaseDatabase.openFile path ⟨none, io⟩) fun db =>
  asking db (·.queryAllRecords) fun records =>
  asking db (·.primaryEvidenceId) fun primaryEvidenceId =>
  storing db (·.storeCorrelatedEvents (primaryEvidenceId.getD 1) (correlatedEvents w records))

def analyzing (X : Crates) (path : String) (io : DbIo) (w : Workspace) : Program Tables :=
  .given (loadManifest w.dir) fun manifest =>
  .given (CaseDatabase.openFile path ⟨none, io⟩) fun db =>
  asking db (·.queryAllRecords) fun records =>
  asking db (·.primaryEvidenceId) fun primaryEvidenceId =>
  .given (detections X w manifest records) fun dbDetections =>
  storing db (·.storeAnalyticsDetections (primaryEvidenceId.getD 1) dbDetections)

def program (X : Crates) (path : String) (v : Visit) : Program Tables :=
  match v.stage with
  | .parse => parsing X path v.io v.workspace
  | .carve => carving X path v.io v.workspace
  | .correlate => correlating path v.io v.workspace
  | .analyze => analyzing X path v.io v.workspace

section Alone

variable {ε ε' α : Type} {db opened : CaseDatabase}

/-- A computation between accesses, whatever its failures are called. -/
theorem run_given {s : Tables} {outcome : Except ε α} {outcome' : Except ε' α}
    {next : α → Program Tables} {rest : α → Except ε' Tables}
    (hsame : outcome.toOption = outcome'.toOption)
    (h : ∀ a, (next a).run s = (rest a).toOption.getD s) :
    (Program.given outcome next).run s = (outcome' >>= rest).toOption.getD s := by
  cases outcome with
  | error e =>
    cases outcome' with
    | error e' => rfl
    | ok a => cases hsame
  | ok a =>
    cases outcome' with
    | error e' => cases hsame
    | ok a' =>
      obtain rfl := Option.some.inj hsame
      exact h a

theorem toOption_fromParser (outcome : Except ParserError α) :
    outcome.toOption = (fromParser outcome).toOption := by
  cases outcome <;> rfl

theorem toOption_ofExcept (outcome : Except ε α) :
    outcome.toOption = (ofExcept outcome).toOption := by
  cases outcome <;> rfl

/-- A database that is opened shows its tables to the accesses. -/
theorem run_opened {outcome' : Except ε' CaseDatabase} {next : CaseDatabase → Program Tables}
    {rest : CaseDatabase → Except ε' Tables}
    (hsame : (CaseDatabase.openFile db.path (fileOf db)).toOption = outcome'.toOption)
    (h : ∀ opened, asOf opened db.tables = db →
      (next opened).run db.tables = (rest db).toOption.getD db.tables) :
    (Program.given (CaseDatabase.openFile db.path ⟨none, db.io⟩) next).run db.tables =
      (outcome' >>= rest).toOption.getD db.tables := by
  unfold CaseDatabase.openFile fileOf at *
  cases hopening : db.io.opening with
  | some e =>
    rw [hopening] at hsame
    cases outcome' with
    | error e' => rfl
    | ok a => cases hsame
  | none =>
    rw [hopening] at hsame
    cases outcome' with
    | error e' => cases hsame
    | ok a =>
      obtain rfl := Option.some.inj hsame
      exact h _ rfl

theorem run_asking (hopened : asOf opened db.tables = db)
    {ask : CaseDatabase → Except ParserError α} {next : α → Program Tables}
    {rest : α → Staged Tables}
    (h : ∀ a, (next a).run db.tables = (rest a).toOption.getD db.tables) :
    (asking opened ask next).run db.tables =
      (fromParser (ask db) >>= rest).toOption.getD db.tables := by
  unfold asking
  rw [Program.run_query, hopened]
  exact run_given (toOption_fromParser _) h

theorem run_storing (hopened : asOf opened db.tables = db)
    (store : CaseDatabase → Except ParserError (CaseDatabase × α)) :
    (storing opened store).run db.tables =
      ((store db).toOption.map (·.1.tables)).getD db.tables := by
  conv_rhs => rw [← hopened]
  rfl

end Alone

theorem run_parsing (X : Crates) (w : Workspace) (db : CaseDatabase) :
    (parsing X db.path db.io w).run db.tables =
      ((parseCase X w.dir w.grammarsDir w.loadPlugin db.path (fileOf db) w.headerPlan
        w.parsePlan).toOption.map Prod.snd).getD db.tables := by
  have hmap : ∀ outcome : Parsed (ParseSummary × Tables),
      outcome.toOption.map Prod.snd = (outcome.map Prod.snd).toOption := by
    intro outcome
    cases outcome <;> rfl
  rw [hmap]
  unfold parseCase storeRecords
  simp only [Machine.map_bind]
  refine run_given rfl fun manifest => ?_
  refine run_given rfl fun evidence => ?_
  refine run_given rfl fun detected => ?_
  refine run_given rfl fun source => ?_
  refine run_given rfl fun records => ?_
  refine run_given rfl fun _ => ?_
  refine run_opened (toOption_ofExcept _) fun opened hopened => ?_
  rw [run_storing hopened]
  cases db.storeCaseExtraction manifest.caseName detected.1.id detected.1.tier records <;> rfl

theorem run_carving (X : Crates) (w : Workspace) (db : CaseDatabase) :
    (carving X db.path db.io w).run db.tables =
      (runCarve X w db.path (fileOf db)).toOption.getD db.tables := by
  refine run_given rfl fun manifest => ?_
  refine run_opened (toOption_fromParser _) fun opened hopened => ?_
  refine run_asking hopened fun corruptedRecords => ?_
  refine run_given rfl fun carved => ?_
  refine run_asking hopened fun primaryEvidenceId => ?_
  rw [run_storing hopened]
  cases db.storeCarvedRecords (primaryEvidenceId.getD 1) carved <;> rfl

theorem run_correlating (w : Workspace) (db : CaseDatabase) :
    (correlating db.path db.io w).run db.tables =
      (runCorrelate w db.path (fileOf db)).toOption.getD db.tables := by
  refine run_opened (toOption_fromParser _) fun opened hopened => ?_
  refine run_asking hopened fun records => ?_
  refine run_asking hopened fun primaryEvidenceId => ?_
  rw [run_storing hopened]
  cases db.storeCorrelatedEvents (primaryEvidenceId.getD 1) (correlatedEvents w records) <;> rfl

theorem run_analyzing (X : Crates) (w : Workspace) (db : CaseDatabase) :
    (analyzing X db.path db.io w).run db.tables =
      (runAnalyze X w db.path (fileOf db)).toOption.getD db.tables := by
  refine run_given rfl fun manifest => ?_
  refine run_opened (toOption_fromParser _) fun opened hopened => ?_
  refine run_asking hopened fun records => ?_
  refine run_asking hopened fun primaryEvidenceId => ?_
  refine run_given rfl fun dbDetections => ?_
  rw [run_storing hopened]
  cases db.storeAnalyticsDetections (primaryEvidenceId.getD 1) dbDetections <;> rfl

/-- Run alone, a program leaves what the stage leaves. -/
theorem run_program (X : Crates) (db : CaseDatabase) (v : Visit) :
    (program X db.path v).run db.tables = (v.run X db).tables := by
  unfold program Visit.run Stage.run Stage.outcome
  cases v.stage with
  | parse => exact run_parsing X v.workspace { db with io := v.io }
  | carve => exact run_carving X v.workspace { db with io := v.io }
  | correlate => exact run_correlating v.workspace { db with io := v.io }
  | analyze => exact run_analyzing X v.workspace { db with io := v.io }

/-- Each visit in a process of its own. -/
def processes {ι : Type} (X : Crates) (db : CaseDatabase) (visits : ι → Visit) :
    System ι Tables where
  state := db.tables
  running i := program X db.path (visits i)

section Keeping

variable {α : Type} {later : Tables → Tables → Prop} {I : Tables → Prop} {tables : Tables}
  {db : CaseDatabase}

theorem keeps_asking {ask : CaseDatabase → Except ParserError α} {next : α → Program Tables}
    (h : ∀ found a, later tables found → I found → ask (asOf db found) = .ok a →
      Keeps later I found (next a)) : Keeps later I tables (asking db ask next) :=
  .query fun found hlater hI => keeps_given fun a ha => h found a hlater hI ha

theorem keeps_storing {store : CaseDatabase → Except ParserError (CaseDatabase × α)}
    (h : ∀ found out, later tables found → I found → store (asOf db found) = .ok out →
      later found out.1.tables ∧ I out.1.tables) : Keeps later I tables (storing db store) := by
  refine .commit fun found left hlater hI hleft => ?_
  obtain ⟨out, hout, rfl⟩ := Option.map_eq_some_iff.mp hleft
  exact h found out hlater hI (toOption_eq_some hout)

end Keeping

instance : Std.Refl Grows := ⟨fun _ => ⟨List.prefix_rfl, List.prefix_rfl⟩⟩

instance : IsTrans Tables Grows :=
  ⟨fun _ _ _ h h' => ⟨h.items.trans h'.items, h.records.trans h'.records⟩⟩

/-- Every row is explained by the evidence, and every score is within its bounds. -/
def Sound (X : Crates) (manifest : AcquisitionManifest) (content : Bytes)
    (visited : Set Workspace) (tables : Tables) : Prop :=
  Backed X manifest content visited tables ∧ Scored tables

variable {X : Crates} {manifest : AcquisitionManifest} {content : FileContent}
  {visited : Set Workspace} {tables : Tables} {path : String} {io : DbIo} {w : Workspace}

theorem keeps_parsing (hw : w ∈ visited) (hdir : Unaltered manifest content w.dir) :
    Keeps Grows (Sound X manifest content.bytes visited) tables (parsing X path io w) := by
  refine keeps_given fun m hm => keeps_given fun evidence hevidence => ?_
  refine keeps_given fun detected hdetected => keeps_given fun source hsource => ?_
  refine keeps_given fun records hrecords => keeps_given fun _ _ => keeps_given fun db _ => ?_
  refine keeps_storing fun found out _ hsound hstore => ?_
  obtain ⟨stored, caseId, evidenceId⟩ := out
  have hplain := extracted_backed hw hdir hm ⟨hevidence, hdetected⟩ hsource hrecords
  obtain ⟨hgrows, hbacked⟩ :=
    @Backed.extract X manifest content _ (asOf db found) stored hsound.1 _ _ _ _ hplain _ _ hstore
  obtain ⟨-, -, hrows, hframes, hevents, hdetections⟩ :=
    CaseDatabase.storeCaseExtraction_ok hstore
  have hleaves : Leaves X w found .parse stored.tables :=
    .parsed evidenceId records hrows hframes hevents hdetections
  exact ⟨hgrows, hbacked, hsound.2.leaves hleaves⟩

theorem keeps_carving (hdir : Unaltered manifest content w.dir) :
    Keeps Grows (Sound X manifest content.bytes visited) tables (carving X path io w) := by
  refine keeps_given fun m hm => keeps_given fun db _ => ?_
  refine keeps_asking fun _ corrupted _ _ _ => keeps_given fun carved hcarved => ?_
  refine keeps_asking fun _ item _ _ _ => ?_
  refine keeps_storing fun found out _ hsound hstore => ?_
  obtain rfl := hdir.stage_manifest hm
  rw [CaseDatabase.storeCarvedRecords_eq] at hstore
  obtain ⟨htables, hitem⟩ := storeRows_ok hstore
  have hleaves : Leaves X w found .carve (withFrames found (item.getD 1) carved) :=
    .carved m _ corrupted carved hcarved
  rw [htables]
  exact ⟨⟨List.prefix_rfl, List.prefix_rfl⟩,
    hsound.1.addFrames (carvedFrames_pieces hdir hcarved) hitem, hsound.2.leaves hleaves⟩

/-- The events connect records that were there, and still are. -/
theorem keeps_correlating (hw : w ∈ visited) :
    Keeps Grows (Sound X manifest content.bytes visited) tables (correlating path io w) := by
  refine keeps_given fun db _ => ?_
  refine keeps_asking fun shown records _ _ hrecords => ?_
  refine keeps_asking fun meanwhile item hmeanwhile _ _ => ?_
  refine keeps_storing fun found out hfound hsound hstore => ?_
  obtain ⟨htables, hitem⟩ := storeRows_ok hstore
  have hgrows : Grows shown found := trans_of Grows hmeanwhile hfound
  have hevents : ∀ e ∈ correlatedEvents w records,
      EventBacked visited found.extractedRecords e := fun e he =>
    hgrows.event (correlatedEvents_backed hw (answered_of_query hrecords) e he)
  have hleaves : Leaves X w found .correlate
      (withEvents found (item.getD 1) (correlatedEvents w records)) := .correlated _ records
  rw [htables]
  exact ⟨⟨List.prefix_rfl, List.prefix_rfl⟩, hsound.1.addEvents hevents hitem,
    hsound.2.leaves hleaves⟩

theorem keeps_analyzing (hw : w ∈ visited) (hdir : Unaltered manifest content w.dir) :
    Keeps Grows (Sound X manifest content.bytes visited) tables (analyzing X path io w) := by
  refine keeps_given fun m hm => keeps_given fun db _ => ?_
  refine keeps_asking fun shown records _ _ hrecords => ?_
  refine keeps_asking fun meanwhile item hmeanwhile _ _ => ?_
  refine keeps_given fun detected hdetected => ?_
  refine keeps_storing fun found out hfound hsound hstore => ?_
  obtain rfl := hdir.stage_manifest hm
  obtain ⟨htables, hitem⟩ := storeRows_ok hstore
  have hgrows : Grows shown found := trans_of Grows hmeanwhile hfound
  have hbacked : ∀ d ∈ detected,
      DetectionBacked X content.bytes visited found.extractedRecords d := fun d hd =>
    hgrows.detection (detections_backed hw hdir (stored_of_query hrecords) hdetected d hd)
  have hleaves : Leaves X w found .analyze (withDetections found (item.getD 1) detected) :=
    .analyzed m _ records detected hdetected
  rw [htables]
  exact ⟨⟨List.prefix_rfl, List.prefix_rfl⟩, hsound.1.addDetections hbacked hitem,
    hsound.2.leaves hleaves⟩

/-- However processes are interleaved that run stages on one database and the unchanged
evidence, at every moment every row is explained by the evidence. -/
theorem interleaved_sound (X : Crates) {manifest : AcquisitionManifest} {content : FileContent}
    (path : String) {ι : Type} [DecidableEq ι] {visits : ι → Visit}
    (hdirs : ∀ i, Unaltered manifest content (visits i).workspace.dir) (schedule : List ι) :
    Sound X manifest content.bytes (Set.range fun i => (visits i).workspace)
      ((processes X (fresh path) visits).runs schedule).state := by
  have hkeeps : ∀ i, Keeps Grows
      (Sound X manifest content.bytes (Set.range fun i => (visits i).workspace)) Tables.empty
      (program X path (visits i)) := by
    intro i
    unfold program
    cases (visits i).stage with
    | parse => exact keeps_parsing ⟨i, rfl⟩ (hdirs i)
    | carve => exact keeps_carving (hdirs i)
    | correlate => exact keeps_correlating ⟨i, rfl⟩
    | analyze => exact keeps_analyzing ⟨i, rfl⟩ (hdirs i)
  have hempty : Sound X manifest content.bytes (Set.range fun i => (visits i).workspace) .empty :=
    ⟨backed_empty X manifest content.bytes _, scored_empty⟩
  exact keeps_runs hkeeps hempty schedule

/-- Every stage on the two cameras, and a second parse run. -/
def onCameras (stage : Option Stage) : Visit :=
  ⟨.sound, twoCamerasWorkspace, stage.getD .parse⟩

/-- The second parse run commits when the later stages have read the records, and before
they store their rows. -/
def betweenAccesses : List (Option Stage) :=
  [some .parse, some .carve, some .correlate, some .analyze, none, some .analyze, some .correlate,
    some .carve, some .analyze, some .correlate, some .carve]

theorem interleaved_sound_cameras :
    Sound .sample twoCamerasManifest twoCameras.bytes
        (Set.range fun stage => (onCameras stage).workspace)
        ((processes .sample (fresh "case.db") onCameras).runs betweenAccesses).state ∧
      rowCounts ((processes .sample (fresh "case.db") onCameras).runs betweenAccesses).state =
        [2, 6, 1, 1, 2] := by
  have hdir := unaltered_holding twoCamerasManifest "evidence.raw" twoCameras
  exact ⟨interleaved_sound .sample "case.db" (fun _ => hdir) betweenAccesses, by decide +kernel⟩

end Dvrft.Processes
