import Dvrft.Processes
import Mathlib.Algebra.Group.Prod
import Mathlib.Algebra.Order.Group.Multiset

/-!
A serial order for stages that run at the same time. A stage is settled when it has read
the records: from then on it adds rows of its own tables, which no other stage reads. So the
processes could have run one after the other, but for the order in which rows were added.
-/

namespace Dvrft.SerialOrder

open Errors Machine Platform Sqlite Acquisition CaseFiles Interpreter Database Detection ParseCase
  Carving Correlation Analytics Pipeline Interference Custody Rerun Scores Sessions
  Processes

/-- What the stages read. -/
def core (tables : Tables) : List CaseRow × ℤ × List EvidenceRow × List ExtractedRow :=
  (tables.cases, tables.caseSequence, tables.evidenceItems, tables.extractedRecords)

/-- What they only add to, without order and ids. -/
def load (tables : Tables) :
    Multiset CarvedRow × Multiset CorrelatedRow × Multiset AnalyticsRow :=
  (tables.carvedRecords, tables.correlatedEvents.map unnumberedEvent,
    tables.analyticsDetections.map unnumberedDetection)

/-- The same rows, in the tables that are only added to in another order and with other ids. -/
structure Shuffled (tables tables' : Tables) : Prop where
  cases : tables.cases = tables'.cases
  sequence : tables.caseSequence = tables'.caseSequence
  items : tables.evidenceItems = tables'.evidenceItems
  records : tables.extractedRecords = tables'.extractedRecords
  frames : tables.carvedRecords.Perm tables'.carvedRecords
  events : (tables.correlatedEvents.map unnumberedEvent).Perm
    (tables'.correlatedEvents.map unnumberedEvent)
  detections : (tables.analyticsDetections.map unnumberedDetection).Perm
    (tables'.analyticsDetections.map unnumberedDetection)

theorem shuffled_of_alike {tables tables' : Tables} (h : Alike core load tables tables') :
    Shuffled tables tables' := by
  obtain ⟨hcore, hload⟩ := h
  simp only [core, load, Prod.mk.injEq, Multiset.coe_eq_coe] at hcore hload
  exact ⟨hcore.1, hcore.2.1, hcore.2.2.1, hcore.2.2.2, hload.1, hload.2.1, hload.2.2⟩

/-- More items behind those that are there. -/
def MoreItems (tables tables' : Tables) : Prop := tables.evidenceItems <+: tables'.evidenceItems

instance : Std.Refl MoreItems := ⟨fun _ => List.prefix_rfl⟩

instance : IsTrans Tables MoreItems := ⟨fun _ _ _ h h' => List.IsPrefix.trans h h'⟩

/-- The primary item stays the first one. -/
theorem head_of_moreItems {tables tables' : Tables} {item : EvidenceRow}
    (h : MoreItems tables tables') (hitem : tables.evidenceItems.head? = some item) :
    tables'.evidenceItems.head? = some item := by
  obtain ⟨rest, hrest⟩ := h
  rw [← hrest, List.head?_append, hitem]
  rfl

/-- The program adds the same rows whenever it comes to it. -/
def AddsFor (item : EvidenceRow) (p : Program Tables) : Prop :=
  ∃ m, ∀ tables, tables.evidenceItems.head? = some item → Adds MoreItems core load m tables p

variable {α : Type} {item : EvidenceRow} {db : CaseDatabase}

theorem addsFor_given {ε : Type} {outcome : Except ε α} {next : α → Program Tables}
    (h : ∀ a, AddsFor item (next a)) : AddsFor item (.given outcome next) := by
  cases outcome with
  | error e => exact ⟨0, fun _ _ => .done rfl⟩
  | ok a => exact h a

/-- While its first item stays, a database names it or fails, whatever else it holds. -/
theorem primaryEvidenceId_asOf (db : CaseDatabase) (item : EvidenceRow) :
    (∃ e, ∀ found : Tables, found.evidenceItems.head? = some item →
      (asOf db found).primaryEvidenceId = .error e) ∨
    ∀ found : Tables, found.evidenceItems.head? = some item →
      (asOf db found).primaryEvidenceId = .ok (some item.id) := by
  cases hpreparing : db.io.preparing .evidenceItems with
  | some e =>
    refine .inl ⟨.databaseError db.path e, fun found _ => ?_⟩
    unfold CaseDatabase.primaryEvidenceId asOf
    simp only [hpreparing]
    rfl
  | none =>
    cases hstepping : db.io.stepping .evidenceItems 0 with
    | some e =>
      refine .inl ⟨.databaseError db.path e, fun found _ => ?_⟩
      unfold CaseDatabase.primaryEvidenceId asOf
      simp only [hpreparing, hstepping]
      rfl
    | none =>
      refine .inr fun found hitem => ?_
      obtain ⟨rest, hrest⟩ := List.head?_eq_some_iff.mp hitem
      unfold CaseDatabase.primaryEvidenceId asOf
      simp only [hpreparing, hstepping, hrest]
      rfl

theorem addsFor_primary {next : Option ℤ → Program Tables}
    (h : AddsFor item (next (some item.id))) :
    AddsFor item (asking db (·.primaryEvidenceId) next) := by
  obtain ⟨m, hm⟩ := h
  rcases primaryEvidenceId_asOf db item with ⟨e, hfails⟩ | hnames
  · refine ⟨0, fun tables hitem => .query fun found hlater => ?_⟩
    beta_reduce
    rw [hfails found (head_of_moreItems hlater hitem)]
    exact .done rfl
  · refine ⟨m, fun tables hitem => .query fun found hlater => ?_⟩
    have hfound := head_of_moreItems hlater hitem
    beta_reduce
    rw [hnames found hfound]
    exact hm found hfound

/-- Rows are refused for what they are, once their item is there. -/
theorem storeRows_asOf (db : CaseDatabase) (item : EvidenceRow) (reals : α → List Float)
    (values : List α) :
    (∀ found inserted : Tables, found.evidenceItems.head? = some item →
      ∃ e, (asOf db found).storeRows item.id reals values inserted = .error e) ∨
    ∀ found inserted : Tables, found.evidenceItems.head? = some item →
      ∃ out, (asOf db found).storeRows item.id reals values inserted = .ok out ∧
        out.1.tables = inserted := by
  cases hwriting : db.io.writing with
  | some e =>
    refine .inl fun found inserted _ => ⟨.databaseError db.path e, ?_⟩
    unfold CaseDatabase.storeRows asOf
    simp only [hwriting]
  | none =>
    have hrefused : ∀ found : Tables, found.evidenceItems.head? = some item → ∀ a,
        CaseDatabase.refusedRow found.evidenceItems item.id (reals a) =
          CaseDatabase.refusedRow [item] item.id (reals a) := by
      intro found hitem a
      obtain ⟨rest, hrest⟩ := List.head?_eq_some_iff.mp hitem
      unfold CaseDatabase.refusedRow
      rw [hrest]
      simp
    cases hfirst : values.findSome? fun a =>
        CaseDatabase.refusedRow [item] item.id (reals a) with
    | some e =>
      refine .inl fun found inserted hitem => ⟨.databaseError db.path e, ?_⟩
      unfold CaseDatabase.storeRows asOf
      simp only [hwriting, hrefused found hitem, hfirst]
    | none =>
      refine .inr fun found inserted hitem =>
        ⟨⟨⟨db.path, inserted, db.io⟩, values.length⟩, ?_, rfl⟩
      unfold CaseDatabase.storeRows asOf
      simp only [hwriting, hrefused found hitem, hfirst]

theorem addsFor_storing {reals : α → List Float} {values : List α}
    {store : CaseDatabase → Except ParserError (CaseDatabase × ℕ)} (inserted : Tables → Tables)
    (m : Multiset CarvedRow × Multiset CorrelatedRow × Multiset AnalyticsRow)
    (hstore : ∀ db, store db = db.storeRows item.id reals values (inserted db.tables))
    (hcore : ∀ found, core (inserted found) = core found)
    (hload : ∀ found, load (inserted found) = load found + m) :
    AddsFor item (storing db store) := by
  rcases storeRows_asOf db item reals values with hfails | hstores
  · refine ⟨0, fun tables hitem => .commit fun found hlater => ?_⟩
    obtain ⟨e, he⟩ := hfails found (inserted found) (head_of_moreItems hlater hitem)
    rw [hstore, show (asOf db found).tables = found from rfl, he]
    exact ⟨refl_of MoreItems found, rfl, (add_zero _).symm⟩
  · refine ⟨m, fun tables hitem => .commit fun found hlater => ?_⟩
    obtain ⟨out, hout, htables⟩ :=
      hstores found (inserted found) (head_of_moreItems hlater hitem)
    have hitems : (inserted found).evidenceItems = found.evidenceItems :=
      congrArg (fun c => c.2.2.1) (hcore found)
    rw [hstore, show (asOf db found).tables = found from rfl, hout]
    change MoreItems found out.1.tables ∧ core out.1.tables = core found ∧
      load out.1.tables = load found + m
    rw [htables]
    exact ⟨by rw [MoreItems, hitems], hcore found, hload found⟩

theorem addsFor_frames (frames : List CarvedFrame) :
    AddsFor item (storing db (·.storeCarvedRecords item.id frames)) := by
  refine addsFor_storing (fun found => withFrames found item.id frames)
    (frames.map (CarvedRow.ofFrame item.id), 0, 0)
    (fun db => CaseDatabase.storeCarvedRecords_eq db item.id frames) (fun _ => rfl) fun found => ?_
  simp [load, withFrames]

theorem addsFor_events (events : List CorrelatedDbEvent) :
    AddsFor item (storing db (·.storeCorrelatedEvents item.id events)) := by
  refine addsFor_storing (fun found => withEvents found item.id events)
    (0, events.map (CorrelatedRow.ofEvent 0 item.id), 0) (fun db => rfl) (fun _ => rfl)
    fun found => ?_
  have hnumbers : ∀ first : ℤ,
      (events.zipIdx.map fun p => CorrelatedRow.ofEvent (first + p.2) item.id p.1).map
        unnumberedEvent = events.map (CorrelatedRow.ofEvent 0 item.id) := by
    intro first
    conv_rhs => rw [← List.zipIdx_map_fst 0 events]
    rw [List.map_map, List.map_map]
    rfl
  simp only [load, withEvents, List.map_append, hnumbers]
  simp

theorem addsFor_detections (found : List AnalyticsDbDetection) :
    AddsFor item (storing db (·.storeAnalyticsDetections item.id found)) := by
  refine addsFor_storing (fun tables => withDetections tables item.id found)
    (0, 0, found.map (AnalyticsRow.ofDetection 0 item.id)) (fun db => rfl) (fun _ => rfl)
    fun tables => ?_
  have hnumbers : ∀ first : ℤ,
      (found.zipIdx.map fun p => AnalyticsRow.ofDetection (first + p.2) item.id p.1).map
        unnumberedDetection = found.map (AnalyticsRow.ofDetection 0 item.id) := by
    intro first
    conv_rhs => rw [← List.zipIdx_map_fst 0 found]
    rw [List.map_map, List.map_map]
    rfl
  simp only [load, withDetections, List.map_append, hnumbers]
  simp

variable {X : Crates} {path : String} {io : DbIo} {w : Workspace} {base : Tables}

theorem orderly_given {ε : Type} {outcome : Except ε α} {next : α → Program Tables}
    (h : ∀ a, Orderly MoreItems core load base (next a)) :
    Orderly MoreItems core load base (.given outcome next) := by
  cases outcome with
  | error e => exact .done
  | ok a => exact h a

theorem orderly_records (hbase : base.evidenceItems.head? = some item) (filter : RecordFilter)
    {next : List ExtractedRecord → Program Tables} (h : ∀ records, AddsFor item (next records)) :
    Orderly MoreItems core load base (asking db (·.queryRecords filter) next) := by
  refine .query fun t t' ht ht' hcore => ?_
  have hrecords : t.extractedRecords = t'.extractedRecords := congrArg (fun c => c.2.2.2) hcore
  have hsame : (asOf db t).queryRecords filter = (asOf db t').queryRecords filter :=
    @queryRecords_congr (asOf db t) (asOf db t') rfl rfl hrecords filter
  have hnext : AddsFor item (.given ((asOf db t').queryRecords filter) next) := addsFor_given h
  obtain ⟨m, hm⟩ := hnext
  beta_reduce
  rw [hsame]
  exact ⟨m, hm t (head_of_moreItems ht hbase), hm t' (head_of_moreItems ht' hbase)⟩

/-- What an extraction makes of items and records does not depend on the other tables. -/
theorem core_storeCaseExtraction {t t' : Tables} (hcore : core t = core t') (db : CaseDatabase)
    (caseName grammarId : String) (tier : ℕ) (records : List ExtractedRecord) :
    ((asOf db t).storeCaseExtraction caseName grammarId tier records).map
        (fun out => core out.1.tables) =
      ((asOf db t').storeCaseExtraction caseName grammarId tier records).map
        fun out => core out.1.tables := by
  obtain ⟨cases, sequence, items, rows, frames, events, found⟩ := t
  obtain ⟨cases', sequence', items', rows', frames', events', found'⟩ := t'
  simp only [core, Prod.mk.injEq] at hcore
  obtain ⟨rfl, rfl, rfl, rfl⟩ := hcore
  unfold CaseDatabase.storeCaseExtraction asOf
  dsimp only
  cases db.io.writing with
  | some e => rfl
  | none =>
    dsimp only
    cases List.find? (fun row : CaseRow => row.caseName == caseName)
      (if cases.any (fun row => row.caseName == caseName) then cases
        else cases ++ [⟨nextIdAfter sequence (cases.map (·.id)), caseName⟩]) <;> rfl

theorem load_storeCaseExtraction {t : Tables} {out : CaseDatabase × ℤ × ℤ}
    {caseName grammarId : String} {tier : ℕ} {records : List ExtractedRecord}
    (h : (asOf db t).storeCaseExtraction caseName grammarId tier records = .ok out) :
    MoreItems t out.1.tables ∧ load out.1.tables = load t + 0 := by
  obtain ⟨stored, caseId, evidenceId⟩ := out
  obtain ⟨-, hitems, -, hframes, hevents, hdetections⟩ := CaseDatabase.storeCaseExtraction_ok h
  refine ⟨⟨_, hitems.symm⟩, ?_⟩
  rw [add_zero]
  unfold load
  rw [hframes, hevents, hdetections]
  rfl

/-- An extraction is stored behind the items and records, whatever else there is. -/
theorem orderly_extraction (caseName grammarId : String) (tier : ℕ)
    (records : List ExtractedRecord) : Orderly MoreItems core load base
      (storing db (·.storeCaseExtraction caseName grammarId tier records)) := by
  refine .commit fun t t' _ _ hcore => ?_
  have hsame := core_storeCaseExtraction hcore db caseName grammarId tier records
  beta_reduce
  cases hstore : (asOf db t).storeCaseExtraction caseName grammarId tier records with
  | error e =>
    cases hstore' : (asOf db t').storeCaseExtraction caseName grammarId tier records with
    | error e' => exact ⟨refl_of MoreItems t, hcore, 0, (add_zero _).symm, (add_zero _).symm⟩
    | ok out' =>
      rw [hstore, hstore'] at hsame
      cases hsame
  | ok out =>
    cases hstore' : (asOf db t').storeCaseExtraction caseName grammarId tier records with
    | error e' =>
      rw [hstore, hstore'] at hsame
      cases hsame
    | ok out' =>
      rw [hstore, hstore'] at hsame
      obtain ⟨hmore, hload⟩ := load_storeCaseExtraction hstore
      exact ⟨hmore, Except.ok.inj hsame, 0, hload, (load_storeCaseExtraction hstore').2⟩

theorem orderly_parsing : Orderly MoreItems core load base (parsing X path io w) := by
  refine orderly_given fun manifest => orderly_given fun evidence => ?_
  refine orderly_given fun detected => orderly_given fun source => ?_
  refine orderly_given fun records => orderly_given fun _ => orderly_given fun db => ?_
  exact orderly_extraction _ _ _ records

theorem orderly_carving (hbase : base.evidenceItems.head? = some item) :
    Orderly MoreItems core load base (carving X path io w) := by
  refine orderly_given fun manifest => orderly_given fun db => ?_
  refine orderly_records hbase _ fun corrupted => addsFor_given fun carved => ?_
  exact addsFor_primary (addsFor_frames carved)

theorem orderly_correlating (hbase : base.evidenceItems.head? = some item) :
    Orderly MoreItems core load base (correlating path io w) := by
  refine orderly_given fun db => orderly_records hbase _ fun records => ?_
  exact addsFor_primary (addsFor_events _)

theorem orderly_analyzing (hbase : base.evidenceItems.head? = some item) :
    Orderly MoreItems core load base (analyzing X path io w) := by
  refine orderly_given fun manifest => orderly_given fun db => ?_
  refine orderly_records hbase _ fun records => addsFor_primary ?_
  exact addsFor_given fun found => addsFor_detections found

theorem orderly_program {tables : Tables} (hitems : tables.evidenceItems ≠ []) (v : Visit) :
    Orderly MoreItems core load tables (program X path v) := by
  obtain ⟨item, rest, hrest⟩ := List.exists_cons_of_ne_nil hitems
  have hbase : tables.evidenceItems.head? = some item := by rw [hrest, List.head?_cons]
  unfold program
  cases v.stage with
  | parse => exact orderly_parsing
  | carve => exact orderly_carving hbase
  | correlate => exact orderly_correlating hbase
  | analyze => exact orderly_analyzing hbase

/-- Programs one after the other are visits one after the other. -/
theorem serial_processes {ι : Type} (X : Crates) (visits : ι → Visit) (order : List ι)
    (db : CaseDatabase) :
    serial (processes X db visits).running order db.tables =
      (runVisits X db (order.map visits)).tables := by
  induction order generalizing db with
  | nil => rfl
  | cons i rest ih =>
    have hfirst := run_program X db (visits i)
    exact (congrArg (serial (processes X db visits).running rest) hfirst).trans
      (ih ((visits i).run X db))

/-- However processes are interleaved that run stages on one database with an item: those
that have ended leave what they leave one after the other, in some order, but for the order
and the ids of the rows that they add. An item is needed: a carving that found no records
may come to store its frames when a parse run has made the item 1 that it falls back to. -/
theorem interleaved_serializes (X : Crates) {db : CaseDatabase}
    (hitems : db.tables.evidenceItems ≠ []) {ι : Type} [DecidableEq ι] (visits : ι → Visit)
    (schedule : List ι) :
    ∃ order : List ι, order.Nodup ∧
      (∀ i, i ∈ order ↔ i ∈ schedule ∧
        (((processes X db visits).runs schedule).running i).isDone = true) ∧
      Shuffled ((processes X db visits).runs schedule).state
        (runVisits X db (order.map visits)).tables := by
  have horderly : ∀ i, Orderly MoreItems core load (processes X db visits).state
      ((processes X db visits).running i) := fun i => orderly_program hitems (visits i)
  obtain ⟨order, hnodup, hmem, halike⟩ := serializable horderly schedule
  refine ⟨order, hnodup, hmem, shuffled_of_alike ?_⟩
  rw [← serial_processes]
  exact halike

/-- The later stages on the parsed case of the two cameras, with a parse run between what
they read and what they store: a frame, an event and two detections are added. -/
theorem interleaved_serializes_cameras :
    (∃ order : List (Option Stage), order.Nodup ∧
      (∀ i, i ∈ order ↔ i ∈ betweenAccesses.tail ∧
        (((processes .sample parsedCameras onCameras).runs betweenAccesses.tail).running
          i).isDone = true) ∧
      Shuffled ((processes .sample parsedCameras onCameras).runs betweenAccesses.tail).state
        (runVisits .sample parsedCameras (order.map onCameras)).tables) ∧
      rowCounts ((processes .sample parsedCameras onCameras).runs betweenAccesses.tail).state =
        [2, 6, 1, 1, 2] := by
  have hitems : parsedCameras.tables.evidenceItems ≠ [] := by decide +kernel
  exact ⟨interleaved_serializes .sample hitems onCameras betweenAccesses.tail, by decide +kernel⟩

end Dvrft.SerialOrder
