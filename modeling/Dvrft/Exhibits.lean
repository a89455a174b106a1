import Dvrft.Owners
import Dvrft.Rerun

/-!
What the case database is for: an archive of exhibits, each with what was extracted from
it, carved out of it, correlated and analysed. The tables keep the rows of all exhibits in
the order of the calls; a sequence of calls, refused ones among them, answers and leaves
the tables as the archive says.
-/

namespace Dvrft.Exhibits

open Errors Machine Sqlite Interpreter Database Interference Rerun Owners

/-- The reals of these values are numbers. -/
def Numbers {α : Type} (reals : α → List Float) (values : List α) : Prop :=
  ∀ v ∈ values, ∀ x ∈ reals v, x.isNaN = false

/-- An item of evidence. Events and detections stand under the numbers they were given. -/
structure Exhibit where
  caseName : String
  grammarId : String
  validationTier : UInt8
  records : List ExtractedRecord
  frames : List CarvedFrame
  events : List (ℤ × CorrelatedDbEvent)
  detections : List (ℤ × AnalyticsDbDetection)
  framesReal : Numbers frameReals frames
  eventsReal : Numbers (eventReals ∘ Prod.snd) events
  detectionsReal : Numbers (detectionReals ∘ Prod.snd) detections

/-- The exhibits in the order of their arrival. -/
structure Archive where
  exhibits : List Exhibit
  eventCount : ℕ
  detectionCount : ℕ

theorem numbers_nil {α : Type} (reals : α → List Float) : Numbers reals [] :=
  fun _ hv => absurd hv List.not_mem_nil

theorem Numbers.append {α : Type} {reals : α → List Float} {values values' : List α}
    (h : Numbers reals values) (h' : Numbers reals values') : Numbers reals (values ++ values') := by
  intro v hv
  rcases List.mem_append.mp hv with hv | hv
  · exact h v hv
  · exact h' v hv

/-- Values under consecutive numbers. -/
def numbered {α : Type} (first : ℤ) (values : List α) : List (ℤ × α) :=
  values.zipIdx.map fun p => (first + p.2, p.1)

theorem map_snd_numbered {α : Type} (first : ℤ) (values : List α) :
    (numbered first values).map Prod.snd = values := by
  rw [numbered, List.map_map]
  exact List.zipIdx_map_fst 0 values

theorem numbers_numbered {α : Type} {reals : α → List Float} (first : ℤ) {values : List α}
    (h : Numbers reals values) : Numbers (reals ∘ Prod.snd) (numbered first values) := by
  intro v hv
  refine h v.2 ?_
  rw [← map_snd_numbered first values]
  exact List.mem_map_of_mem hv

namespace Exhibit

def addFrames (x : Exhibit) (frames : List CarvedFrame) (h : Numbers frameReals frames) :
    Exhibit :=
  { x with frames := x.frames ++ frames, framesReal := x.framesReal.append h }

def addEvents (x : Exhibit) (first : ℤ) (events : List CorrelatedDbEvent)
    (h : Numbers eventReals events) : Exhibit :=
  { x with
    events := x.events ++ numbered first events
    eventsReal := x.eventsReal.append (numbers_numbered first h) }

def addDetections (x : Exhibit) (first : ℤ) (detections : List AnalyticsDbDetection)
    (h : Numbers detectionReals detections) : Exhibit :=
  { x with
    detections := x.detections ++ numbered first detections
    detectionsReal := x.detectionsReal.append (numbers_numbered first h) }

end Exhibit

namespace Archive

def empty : Archive := ⟨[], 0, 0⟩

/-- The case of each exhibit. -/
def caseNames (a : Archive) : List String := a.exhibits.map Exhibit.caseName

/-- The exhibit under a number; the first one has number 1. -/
def exhibit? (a : Archive) (id : ℤ) : Option Exhibit :=
  if 0 < id then a.exhibits[(id - 1).toNat]? else none

/-- What one shelf of an exhibit holds, if the exhibit is there. -/
def shelf {α : Type} (a : Archive) (part : Exhibit → List α) (id : ℤ) : List α :=
  ((a.exhibit? id).map part).getD []

/-- The number of a case is that of its first exhibit. -/
def caseId (a : Archive) (caseName : String) : ℤ := (a.caseNames.idxOf caseName : ℤ) + 1

def extract (a : Archive) (caseName grammarId : String) (validationTier : UInt8)
    (records : List ExtractedRecord) : Archive :=
  { a with
    exhibits := a.exhibits ++ [⟨caseName, grammarId, validationTier, records, [], [], [],
      numbers_nil _, numbers_nil _, numbers_nil _⟩] }

/-- Why values cannot be put with an exhibit: one of their reals is no number, or the
exhibit is not there. -/
def refusal {α : Type} (a : Archive) (id : ℤ) (reals : α → List Float) (values : List α) :
    Option SqlError :=
  values.findSome? fun v =>
    if (reals v).any Float.isNaN then some (.sqliteFailure 1299)
    else if (a.exhibit? id).isNone then some (.sqliteFailure 787)
    else none

theorem numbers_of_refusal {α : Type} {a : Archive} {id : ℤ} {reals : α → List Float}
    {values : List α} (h : a.refusal id reals values = none) : Numbers reals values := by
  intro v hv x hx
  have hv := List.findSome?_eq_none_iff.mp h v hv
  by_contra hnan
  have hany : (reals v).any Float.isNaN = true :=
    List.any_eq_true.mpr ⟨x, hx, by simpa using hnan⟩
  rw [if_pos hany] at hv
  cases hv

/-- The exhibit under a number changed. -/
def change (a : Archive) (id : ℤ) (f : Exhibit → Exhibit) : Archive :=
  { a with exhibits := if 0 < id then a.exhibits.modify (id - 1).toNat f else a.exhibits }

end Archive

/-- A call that stores something; the later ones name an evidence item. -/
inductive StoreCall where
  | extraction (caseName grammarId : String) (validationTier : UInt8)
      (records : List ExtractedRecord)
  | carved (evidenceId : ℤ) (frames : List CarvedFrame)
  | correlated (evidenceId : ℤ) (events : List CorrelatedDbEvent)
  | analysed (evidenceId : ℤ) (detections : List AnalyticsDbDetection)

inductive Answer where
  | extracted (caseId evidenceId : ℤ)
  | stored (count : ℕ)
  deriving DecidableEq, Repr

abbrev Answered := Except ParserError Answer

/-- Put values with an exhibit, unless they are refused. -/
def Archive.put {α : Type} (a : Archive) (id : ℤ) (reals : α → List Float) (values : List α)
    (add : Numbers reals values → Archive) : Except SqlError (Archive × Answer) :=
  match h : a.refusal id reals values with
  | some e => .error e
  | none => .ok (add (Archive.numbers_of_refusal h), .stored values.length)

/-- The call on a database whose transaction ends as given; a call that fails leaves the
database as it was. -/
def StoreCall.perform (db : CaseDatabase) (writing : Option SqlError) (call : StoreCall) :
    CaseDatabase × Answered :=
  let opened : CaseDatabase := { db with io := { db.io with writing := writing } }
  let count : CaseDatabase × ℕ → CaseDatabase × Answered := fun p =>
    ({ db with tables := p.1.tables }, .ok (.stored p.2))
  let outcome : Except ParserError (CaseDatabase × Answered) :=
    match call with
    | extraction caseName grammarId validationTier records =>
      (opened.storeCaseExtraction caseName grammarId validationTier.toNat records).map fun p =>
        ({ db with tables := p.1.tables }, .ok (.extracted p.2.1 p.2.2))
    | carved evidenceId frames => (opened.storeCarvedRecords evidenceId frames).map count
    | correlated evidenceId events => (opened.storeCorrelatedEvents evidenceId events).map count
    | analysed evidenceId detections =>
      (opened.storeAnalyticsDetections evidenceId detections).map count
  match outcome with
  | .ok done => done
  | .error e => (db, .error e)

/-- Calls one after the other, each with how its transaction ends. -/
def performAll (db : CaseDatabase) : List (Option SqlError × StoreCall) → CaseDatabase × List Answered
  | [] => (db, [])
  | (writing, call) :: rest =>
    let done := call.perform db writing
    let all := performAll done.1 rest
    (all.1, done.2 :: all.2)

def Archive.addFrames (a : Archive) (id : ℤ) (frames : List CarvedFrame)
    (h : Numbers frameReals frames) : Archive :=
  a.change id (·.addFrames frames h)

def Archive.addEvents (a : Archive) (id : ℤ) (events : List CorrelatedDbEvent)
    (h : Numbers eventReals events) : Archive :=
  { a.change id (·.addEvents (a.eventCount + 1) events h) with
    eventCount := a.eventCount + events.length }

def Archive.addDetections (a : Archive) (id : ℤ) (detections : List AnalyticsDbDetection)
    (h : Numbers detectionReals detections) : Archive :=
  { a.change id (·.addDetections (a.detectionCount + 1) detections h) with
    detectionCount := a.detectionCount + detections.length }

/-- What the archive makes of a call in a sound transaction. -/
def StoreCall.enter (a : Archive) : StoreCall → Except SqlError (Archive × Answer)
  | extraction caseName grammarId validationTier records =>
    let a' := a.extract caseName grammarId validationTier records
    .ok (a', .extracted (a'.caseId caseName) (a.exhibits.length + 1))
  | carved id frames => a.put id frameReals frames (a.addFrames id frames)
  | correlated id events => a.put id eventReals events (a.addEvents id events)
  | analysed id detections => a.put id detectionReals detections (a.addDetections id detections)

/-- The same for any transaction of the database at a path. -/
def Archive.record (path : String) (a : Archive) (writing : Option SqlError) (call : StoreCall) :
    Archive × Answered :=
  let outcome : Except SqlError (Archive × Answer) :=
    match writing with
    | some e => .error e
    | none => call.enter a
  match outcome with
  | .ok (a', answer) => (a', .ok answer)
  | .error e => (a, .error (.databaseError path e))

def Archive.recordAll (path : String) (a : Archive) :
    List (Option SqlError × StoreCall) → Archive × List Answered
  | [] => (a, [])
  | (writing, call) :: rest =>
    let done := a.record path writing call
    let all := Archive.recordAll path done.1 rest
    (all.1, done.2 :: all.2)

/-- The values of a list with their places, each where it stands first. -/
def firstOnes {α : Type} [DecidableEq α] (values : List α) : List (α × ℕ) :=
  values.zipIdx.filter fun p => values.idxOf p.1 == p.2

section FirstOnes

variable {α : Type} [DecidableEq α] {values : List α}

theorem mem_firstOnes {p : α × ℕ} (h : p ∈ firstOnes values) :
    p.1 ∈ values ∧ p.2 < values.length := by
  have hp := List.mem_zipIdx (List.mem_of_mem_filter h)
  refine ⟨List.fst_mem_of_mem_zipIdx (List.mem_of_mem_filter h), ?_⟩
  omega

/-- One more value is listed unless it is known. -/
theorem firstOnes_concat (values : List α) (v : α) :
    firstOnes (values ++ [v]) =
      if v ∈ values then firstOnes values else firstOnes values ++ [(v, values.length)] := by
  have hold : (values.zipIdx.filter fun p => (values ++ [v]).idxOf p.1 == p.2) =
      firstOnes values := by
    refine List.filter_congr fun p hp => ?_
    rw [List.idxOf_append_of_mem (List.fst_mem_of_mem_zipIdx hp)]
  rw [firstOnes, List.zipIdx_append, List.filter_append, hold, List.zipIdx_singleton, Nat.zero_add]
  split_ifs with hin
  · have hplace := List.idxOf_lt_length_of_mem hin
    rw [List.filter_cons_of_neg, List.filter_nil, List.append_nil]
    rw [List.idxOf_append_of_mem hin, beq_iff_eq]
    omega
  · rw [List.filter_cons_of_pos, List.filter_nil]
    rw [List.idxOf_append_of_notMem hin, beq_iff_eq, List.idxOf_cons_self, Nat.add_zero]

theorem find?_firstOnes {v : α} (h : v ∈ values) :
    (firstOnes values).find? (fun p => p.1 == v) = some (v, values.idxOf v) := by
  induction values using List.reverseRecOn with
  | nil => exact absurd h List.not_mem_nil
  | append_singleton rest w ih =>
    rw [firstOnes_concat]
    by_cases hin : v ∈ rest
    · rw [List.idxOf_append_of_mem hin]
      split_ifs
      · exact ih hin
      · rw [List.find?_append, ih hin, Option.some_or]
    · obtain rfl : v = w := by simpa [hin] using h
      have hnone : (firstOnes rest).find? (fun p => p.1 == v) = none := by
        refine List.find?_eq_none.mpr fun p hp heq => hin ?_
        rw [← beq_iff_eq.mp heq]
        exact (mem_firstOnes hp).1
      rw [if_neg hin, List.find?_append, hnone, List.idxOf_append_of_notMem hin]
      simp

theorem any_firstOnes (values : List α) (v : α) :
    (firstOnes values).any (fun p => p.1 == v) = decide (v ∈ values) := by
  rw [Bool.eq_iff_iff, decide_eq_true_eq, List.any_eq_true]
  constructor
  · rintro ⟨p, hp, heq⟩
    rw [← beq_iff_eq.mp heq]
    exact (mem_firstOnes hp).1
  · intro h
    exact ⟨_, List.mem_of_find?_eq_some (find?_firstOnes h), beq_self_eq_true v⟩

end FirstOnes

/-- The tables list the cases, each under the number of its first exhibit, and the items; every
exhibit has used up the number of a case. -/
structure Lists (tables : Tables) (a : Archive) : Prop where
  cases : tables.cases = (firstOnes a.caseNames).map fun p => ⟨(p.2 : ℤ) + 1, p.1⟩
  sequence : tables.caseSequence = a.exhibits.length
  items : tables.evidenceItems = a.exhibits.zipIdx.map fun p =>
    ⟨(p.2 : ℤ) + 1, a.caseId p.1.caseName, .text p.1.grammarId,
      .integer p.1.validationTier.toNat⟩

/-- The tables show the archive: what they list, and for every item the rows that were written
for it. -/
structure Holds (tables : Tables) (a : Archive) : Prop extends Lists tables a where
  records : Shows ExtractedRow.evidenceId tables.extractedRecords fun id =>
    (a.shelf Exhibit.records id).map (ExtractedRow.ofRecord id)
  frames : Shows CarvedRow.evidenceId tables.carvedRecords fun id =>
    (a.shelf Exhibit.frames id).map (CarvedRow.ofFrame id)
  events : Shows CorrelatedRow.evidenceId tables.correlatedEvents fun id =>
    (a.shelf Exhibit.events id).map fun p => CorrelatedRow.ofEvent p.1 id p.2
  detections : Shows AnalyticsRow.evidenceId tables.analyticsDetections fun id =>
    (a.shelf Exhibit.detections id).map fun p => AnalyticsRow.ofDetection p.1 id p.2
  eventIds : tables.correlatedEvents.map (·.id) = itemIds a.eventCount
  detectionIds : tables.analyticsDetections.map (·.id) = itemIds a.detectionCount

section Shelves

variable {a : Archive} {α : Type}

theorem shelf_of_none {id : ℤ} (h : a.exhibit? id = none) (part : Exhibit → List α) :
    a.shelf part id = [] := by
  rw [Archive.shelf, h]
  rfl

theorem exhibit?_natCast (i : ℕ) : a.exhibit? ((i : ℤ) + 1) = a.exhibits[i]? := by
  rw [Archive.exhibit?, if_pos (by omega)]
  congr 1
  omega

theorem exhibit?_eq_some {id : ℤ} {x : Exhibit} (h : a.exhibit? id = some x) :
    ∃ i : ℕ, id = (i : ℤ) + 1 ∧ a.exhibits[i]? = some x := by
  unfold Archive.exhibit? at h
  split_ifs at h with hpos
  exact ⟨(id - 1).toNat, by omega, h⟩

theorem exhibit?_isSome_iff (id : ℤ) :
    (a.exhibit? id).isSome ↔ id ∈ itemIds a.exhibits.length := by
  rw [mem_itemIds, Archive.exhibit?]
  split_ifs with hpos
  · have hin : (a.exhibits[(id - 1).toNat]?).isSome ↔ (id - 1).toNat < a.exhibits.length := by
      simp
    rw [hin]
    omega
  · simp only [Option.isSome_none, Bool.false_eq_true, false_iff]
    omega

/-- A new exhibit stands behind the ones that were there. -/
theorem exhibit?_extract (caseName grammarId : String) (validationTier : UInt8)
    (records : List ExtractedRecord) (id : ℤ) :
    (a.extract caseName grammarId validationTier records).exhibit? id =
      if id = a.exhibits.length + 1 then
        some ⟨caseName, grammarId, validationTier, records, [], [], [], numbers_nil _,
          numbers_nil _, numbers_nil _⟩
      else a.exhibit? id := by
  unfold Archive.exhibit? Archive.extract
  dsimp only
  split_ifs with hpos hnew hnew
  · rw [List.getElem?_append_right (by omega), hnew]
    simp
  · rcases lt_or_ge (id - 1).toNat a.exhibits.length with hlt | hge
    · rw [List.getElem?_append_left hlt]
    · rw [List.getElem?_eq_none (by simp only [List.length_append, List.length_singleton]; omega),
        List.getElem?_eq_none hge]
  · omega
  · rfl

/-- The shelf of the next exhibit is still empty. -/
theorem shelf_next (part : Exhibit → List α) : a.shelf part (a.exhibits.length + 1) = [] := by
  refine shelf_of_none ?_ part
  rw [exhibit?_natCast, List.getElem?_eq_none le_rfl]

theorem shelf_extract (part : Exhibit → List α) (caseName grammarId : String)
    (validationTier : UInt8) (records : List ExtractedRecord) :
    (a.extract caseName grammarId validationTier records).shelf part =
      Function.update (a.shelf part) (a.exhibits.length + 1)
        (a.shelf part (a.exhibits.length + 1) ++
          part ⟨caseName, grammarId, validationTier, records, [], [], [], numbers_nil _,
            numbers_nil _, numbers_nil _⟩) := by
  funext id
  rw [shelf_next, List.nil_append, Archive.shelf, exhibit?_extract]
  by_cases hid : id = a.exhibits.length + 1
  · rw [if_pos hid, hid, Function.update_self]
    rfl
  · rw [if_neg hid, Function.update_of_ne hid]
    rfl

/-- A new exhibit has nothing on its other shelves. -/
theorem shelf_extract_same {part : Exhibit → List α} (caseName grammarId : String)
    (validationTier : UInt8) (records : List ExtractedRecord)
    (hpart : part ⟨caseName, grammarId, validationTier, records, [], [], [], numbers_nil _,
      numbers_nil _, numbers_nil _⟩ = []) :
    (a.extract caseName grammarId validationTier records).shelf part = a.shelf part := by
  rw [shelf_extract, hpart, List.append_nil, Function.update_eq_self]

theorem exhibit?_change (id : ℤ) (f : Exhibit → Exhibit) (id' : ℤ) :
    (a.change id f).exhibit? id' =
      if id' = id then (a.exhibit? id).map f else a.exhibit? id' := by
  unfold Archive.exhibit? Archive.change
  dsimp only
  by_cases hid : id' = id
  · subst hid
    rw [if_pos rfl]
    split_ifs with hpos
    · rw [List.getElem?_modify_eq]
      rfl
    · rfl
  · rw [if_neg hid]
    split_ifs with hpos' hpos
    · rw [List.getElem?_modify_ne]
      omega
    · rfl
    · rfl

/-- Values put on one shelf of an exhibit that is there. -/
theorem shelf_change {id : ℤ} {f : Exhibit → Exhibit} {part : Exhibit → List α}
    {batch : List α} (hpart : ∀ x, part (f x) = part x ++ batch)
    (hthere : batch = [] ∨ (a.exhibit? id).isSome) :
    (a.change id f).shelf part =
      Function.update (a.shelf part) id (a.shelf part id ++ batch) := by
  funext id'
  rw [Archive.shelf, exhibit?_change]
  by_cases hid : id' = id
  · rw [if_pos hid, hid, Function.update_self, Archive.shelf]
    cases hx : a.exhibit? id with
    | none =>
      rcases hthere with hnone | hsome
      · rw [hnone]
        rfl
      · rw [hx] at hsome
        cases hsome
    | some x =>
      simp only [Option.map_some, Option.getD_some]
      exact hpart x
  · rw [if_neg hid, Function.update_of_ne hid]
    rfl

theorem shelf_change_same {id : ℤ} {f : Exhibit → Exhibit} {part : Exhibit → List α}
    (hpart : ∀ x, part (f x) = part x) : (a.change id f).shelf part = a.shelf part := by
  rw [@shelf_change a α id f part [] (fun x => by rw [hpart, List.append_nil]) (.inl rfl),
    List.append_nil, Function.update_eq_self]

/-- Values that are not refused have an exhibit to go to, unless there are none. -/
theorem there_of_refusal {id : ℤ} {reals : α → List Float} {values : List α}
    (h : a.refusal id reals values = none) : values = [] ∨ (a.exhibit? id).isSome := by
  cases values with
  | nil => exact .inl rfl
  | cons v rest =>
    right
    have hv := List.findSome?_eq_none_iff.mp h v List.mem_cons_self
    split_ifs at hv with hnan hnone
    exact Option.isSome_iff_ne_none.mpr (by simpa using hnone)

end Shelves

theorem map_id_zipIdx {α ρ : Type} (id : ρ → ℤ) (write : α → ℕ → ρ)
    (hid : ∀ a i, id (write a i) = (i : ℤ) + 1) (values : List α) :
    (values.zipIdx.map fun p => write p.1 p.2).map id = itemIds values.length := by
  have hsnd : (values.zipIdx.map fun p => write p.1 p.2).map id =
      (values.zipIdx.map Prod.snd).map fun i : ℕ => (i : ℤ) + 1 := by
    rw [List.map_map, List.map_map]
    exact List.map_congr_left fun p _ => hid p.1 p.2
  rw [hsnd, List.zipIdx_map_snd, ← List.range_eq_range']
  rfl

section Refinement

variable {db : CaseDatabase} {a : Archive}

theorem caseNames_extract (a : Archive) (caseName grammarId : String) (validationTier : UInt8)
    (records : List ExtractedRecord) :
    (a.extract caseName grammarId validationTier records).caseNames = a.caseNames ++ [caseName] := by
  rw [Archive.caseNames, Archive.extract, List.map_append]
  rfl

/-- The insertion takes the next number, whether a row keeps it or not. -/
theorem nextId_cases (h : Lists db.tables a) :
    nextIdAfter db.tables.caseSequence (db.tables.cases.map (·.id)) = a.exhibits.length + 1 := by
  rw [h.sequence]
  refine nextIdAfter_of_le fun id hid => ?_
  rw [h.cases, List.map_map] at hid
  obtain ⟨p, hp, rfl⟩ := List.mem_map.mp hid
  have hplace := (mem_firstOnes hp).2
  rw [Archive.caseNames, List.length_map] at hplace
  simp only [Function.comp_apply]
  omega

/-- The cases after an extraction, as the transaction computes them. -/
theorem cases_extract (h : Lists db.tables a) (caseName grammarId : String)
    (validationTier : UInt8) (records : List ExtractedRecord) :
    (if db.tables.cases.any (·.caseName == caseName) then db.tables.cases
      else db.tables.cases ++ [⟨(a.exhibits.length : ℤ) + 1, caseName⟩]) =
      (firstOnes (a.extract caseName grammarId validationTier records).caseNames).map fun p =>
        ⟨(p.2 : ℤ) + 1, p.1⟩ := by
  have hknown : db.tables.cases.any (·.caseName == caseName) = decide (caseName ∈ a.caseNames) := by
    rw [h.cases, List.any_map, ← any_firstOnes]
    rfl
  rw [hknown, caseNames_extract, firstOnes_concat]
  by_cases hin : caseName ∈ a.caseNames
  · rw [if_pos (by simpa using hin), if_pos hin, h.cases]
  · rw [if_neg (by simpa using hin), if_neg hin, h.cases, List.map_append, Archive.caseNames,
      List.length_map]
    rfl

/-- An exhibit keeps the number of its case. -/
theorem caseId_extract (a : Archive) (caseName grammarId : String) (validationTier : UInt8)
    (records : List ExtractedRecord) {name : String} (hname : name ∈ a.caseNames) :
    (a.extract caseName grammarId validationTier records).caseId name = a.caseId name := by
  rw [Archive.caseId, caseNames_extract, List.idxOf_append_of_mem hname]
  rfl

/-- The next state and the answer of the database are those of the archive. -/
structure Follows (db : CaseDatabase) (done : CaseDatabase × Answered)
    (entered : Archive × Answered) : Prop where
  holds : Holds done.1.tables entered.1
  answer : done.2 = entered.2
  path : done.1.path = db.path
  io : done.1.io = db.io

theorem perform_failed (h : Holds db.tables a) (e : SqlError) (call : StoreCall) :
    Follows db (call.perform db (some e)) (a.record db.path (some e) call) := by
  cases call with
  | extraction | carved | correlated | analysed => exact ⟨h, rfl, rfl, rfl⟩

theorem perform_extraction (h : Holds db.tables a) (caseName grammarId : String)
    (validationTier : UInt8) (records : List ExtractedRecord) :
    Follows db ((StoreCall.extraction caseName grammarId validationTier records).perform db none)
      (a.record db.path none (.extraction caseName grammarId validationTier records)) := by
  have hnext := nextId_cases h.toLists
  have hcases := cases_extract h.toLists caseName grammarId validationTier records
  have hfind : ((firstOnes (a.extract caseName grammarId validationTier records).caseNames).map
      fun p => (⟨(p.2 : ℤ) + 1, p.1⟩ : CaseRow)).find? (fun row => row.caseName == caseName) =
        some ⟨(a.extract caseName grammarId validationTier records).caseId caseName, caseName⟩ := by
    have hin : caseName ∈ (a.extract caseName grammarId validationTier records).caseNames := by
      rw [caseNames_extract]
      exact List.mem_append_right _ (List.mem_singleton_self _)
    have hfirst := find?_firstOnes hin
    rw [List.find?_map]
    exact congrArg (Option.map _) hfirst
  have hids : nextId (db.tables.evidenceItems.map (·.id)) = a.exhibits.length + 1 := by
    rw [h.items, map_id_zipIdx EvidenceRow.id (fun (x : Exhibit) i => ⟨(i : ℤ) + 1,
      a.caseId x.caseName, .text x.grammarId, .integer x.validationTier.toNat⟩) (fun _ _ => rfl),
      nextId_itemIds]
  have hperform : (StoreCall.extraction caseName grammarId validationTier records).perform db none =
      ({ db with tables := { db.tables with
          cases := (firstOnes (a.extract caseName grammarId validationTier records).caseNames).map
            fun p => ⟨(p.2 : ℤ) + 1, p.1⟩
          caseSequence := a.exhibits.length + 1
          evidenceItems := db.tables.evidenceItems ++ [⟨(a.exhibits.length : ℤ) + 1,
            (a.extract caseName grammarId validationTier records).caseId caseName,
            .text grammarId, .integer validationTier.toNat⟩]
          extractedRecords := db.tables.extractedRecords ++
            records.map (ExtractedRow.ofRecord (a.exhibits.length + 1)) } },
        .ok (.extracted ((a.extract caseName grammarId validationTier records).caseId caseName)
          (a.exhibits.length + 1))) := by
    simp only [StoreCall.perform, CaseDatabase.storeCaseExtraction, hnext, hcases, hfind, hids]
    simp only [Except.map]
  have hrecord : a.record db.path none (.extraction caseName grammarId validationTier records) =
      (a.extract caseName grammarId validationTier records,
        .ok (.extracted ((a.extract caseName grammarId validationTier records).caseId caseName)
          (a.exhibits.length + 1))) := rfl
  rw [hperform, hrecord]
  refine ⟨⟨⟨rfl, ?_, ?_⟩, ?_, ?_, ?_, ?_, h.eventIds, h.detectionIds⟩, rfl, rfl, rfl⟩
  · simp [Archive.extract]
  · have hexhibits : (a.extract caseName grammarId validationTier records).exhibits =
        a.exhibits ++ [⟨caseName, grammarId, validationTier, records, [], [], [],
          numbers_nil _, numbers_nil _, numbers_nil _⟩] := rfl
    have hold : a.exhibits.zipIdx.map (fun p => (⟨(p.2 : ℤ) + 1, a.caseId p.1.caseName,
          .text p.1.grammarId, .integer p.1.validationTier.toNat⟩ : EvidenceRow)) =
        a.exhibits.zipIdx.map fun p => ⟨(p.2 : ℤ) + 1,
          (a.extract caseName grammarId validationTier records).caseId p.1.caseName,
          .text p.1.grammarId, .integer p.1.validationTier.toNat⟩ := by
      refine List.map_congr_left fun p hp => ?_
      rw [caseId_extract a caseName grammarId validationTier records
        (List.mem_map_of_mem (List.fst_mem_of_mem_zipIdx hp))]
    rw [hexhibits, List.zipIdx_append, List.map_append, h.items, hold]
    simp
  · rw [shelf_extract]
    exact h.records.put (fun _ => rfl) records
  · rw [shelf_extract_same _ _ _ _ rfl]
    exact h.frames
  · rw [shelf_extract_same _ _ _ _ rfl]
    exact h.events
  · rw [shelf_extract_same _ _ _ _ rfl]
    exact h.detections

/-- A transaction for an item refuses what the archive refuses. -/
theorem storeRows_opened (h : Holds db.tables a) {α : Type} (id : ℤ) (reals : α → List Float)
    (values : List α) (inserted : Tables) :
    ({ db with io := { db.io with writing := none } } : CaseDatabase).storeRows id reals values
        inserted =
      match a.refusal id reals values with
      | some e => .error (.databaseError db.path e)
      | none => .ok (⟨db.path, inserted, { db.io with writing := none }⟩, values.length) := by
  have hids : db.tables.evidenceItems.map (·.id) = itemIds a.exhibits.length := by
    rw [h.items]
    exact map_id_zipIdx EvidenceRow.id (fun (x : Exhibit) i => ⟨(i : ℤ) + 1,
      a.caseId x.caseName, .text x.grammarId, .integer x.validationTier.toNat⟩) (fun _ _ => rfl) _
  have habsent : db.tables.evidenceItems.all (·.id != id) = (a.exhibit? id).isNone := by
    rw [Bool.eq_iff_iff, List.all_eq_true, ← Option.not_isSome, Bool.not_eq_true',
      Bool.eq_false_iff, Ne, exhibit?_isSome_iff, ← hids, List.mem_map]
    simp
  have hrefused : (fun v => CaseDatabase.refusedRow db.tables.evidenceItems id (reals v)) =
      fun v => if (reals v).any Float.isNaN then some (.sqliteFailure 1299)
        else if (a.exhibit? id).isNone then some (.sqliteFailure 787) else none := by
    funext v
    rw [CaseDatabase.refusedRow, habsent]
  rw [CaseDatabase.storeRows, hrefused]
  rfl

theorem put_refused {α : Type} {id : ℤ} {reals : α → List Float} {values : List α}
    (add : Numbers reals values → Archive) {e : SqlError}
    (h : a.refusal id reals values = some e) : a.put id reals values add = .error e := by
  unfold Archive.put
  split
  · next e' he => rw [Option.some.inj (he.symm.trans h)]
  · next hnone => exact absurd (hnone.symm.trans h) (by simp)

theorem put_entered {α : Type} {id : ℤ} {reals : α → List Float} {values : List α}
    (add : Numbers reals values → Archive) (h : a.refusal id reals values = none) :
    a.put id reals values add =
      .ok (add (Archive.numbers_of_refusal h), .stored values.length) := by
  unfold Archive.put
  split
  · next e he => exact absurd (he.symm.trans h) (by simp)
  · rfl

/-- A call that turns values into rows for an item follows the archive when the rows are
those of what the archive adds. -/
theorem perform_rows (h : Holds db.tables a) {α : Type} {id : ℤ} {reals : α → List Float}
    {values : List α} {inserted : Tables} {add : Numbers reals values → Archive}
    {call : StoreCall}
    (hperform : call.perform db none =
      match (({ db with io := { db.io with writing := none } } : CaseDatabase).storeRows id reals
        values inserted) with
      | .ok p => ({ db with tables := p.1.tables }, .ok (.stored p.2))
      | .error e => (db, .error e))
    (henter : call.enter a = a.put id reals values add)
    (hadded : ∀ hnumbers, values = [] ∨ (a.exhibit? id).isSome → Holds inserted (add hnumbers)) :
    Follows db (call.perform db none) (a.record db.path none call) := by
  rw [storeRows_opened h] at hperform
  unfold Archive.record
  rw [hperform]
  dsimp only
  rw [henter]
  cases hrefusal : a.refusal id reals values with
  | some e =>
    rw [put_refused add hrefusal]
    exact ⟨h, rfl, rfl, rfl⟩
  | none =>
    rw [put_entered add hrefusal]
    exact ⟨hadded _ (there_of_refusal hrefusal), rfl, rfl, rfl⟩

theorem map_zipIdx_modify {α β : Type} (f : α → α) (view : α × ℕ → β)
    (hview : ∀ x i, view (f x, i) = view (x, i)) (k : ℕ) (values : List α) :
    (values.modify k f).zipIdx.map view = values.zipIdx.map view := by
  refine List.ext_getElem (by simp) fun i hi hi' => ?_
  simp only [List.getElem_map, List.getElem_zipIdx, List.getElem_modify]
  split_ifs
  · exact hview _ _
  · rfl

/-- What is put with an exhibit does not show in the lists of cases and items. -/
theorem lists_change (h : Lists db.tables a) (id : ℤ) {f : Exhibit → Exhibit}
    (hcase : ∀ x, (f x).caseName = x.caseName) (hgrammar : ∀ x, (f x).grammarId = x.grammarId)
    (htier : ∀ x, (f x).validationTier = x.validationTier) :
    Lists db.tables (a.change id f) := by
  have hexhibits : (a.change id f).exhibits = a.exhibits ∨
      (a.change id f).exhibits = a.exhibits.modify (id - 1).toNat f := by
    unfold Archive.change
    dsimp only
    split_ifs
    · exact .inr rfl
    · exact .inl rfl
  have hlength : (a.change id f).exhibits.length = a.exhibits.length := by
    rcases hexhibits with heq | heq <;> simp [heq]
  have hnames : (a.change id f).caseNames = a.caseNames := by
    rcases hexhibits with heq | heq
    · rw [Archive.caseNames, heq]
      rfl
    · refine List.ext_getElem (by simp [Archive.caseNames, hlength]) fun i hi hi' => ?_
      simp only [Archive.caseNames, heq, List.getElem_map, List.getElem_modify]
      split_ifs
      · exact hcase _
      · rfl
  refine ⟨by rw [hnames]; exact h.cases, by rw [hlength]; exact h.sequence, ?_⟩
  simp only [Archive.caseId, hnames]
  rcases hexhibits with heq | heq
  · rw [heq]
    exact h.items
  · rw [heq, map_zipIdx_modify f _ (fun x i => by dsimp only; rw [hcase, hgrammar, htier])]
    exact h.items

theorem perform_carved (h : Holds db.tables a) (id : ℤ) (frames : List CarvedFrame) :
    Follows db ((StoreCall.carved id frames).perform db none)
      (a.record db.path none (.carved id frames)) := by
  refine @perform_rows db a h _ id frameReals frames (withFrames db.tables id frames)
    (a.addFrames id frames) _ ?_ rfl ?_
  · unfold StoreCall.perform
    dsimp only
    rw [CaseDatabase.storeCarvedRecords_eq]
    unfold frameReals withFrames
    dsimp only
    cases CaseDatabase.storeRows _ id (fun f : CarvedFrame => [f.confidence]) frames _ <;> rfl
  · intro hnumbers hthere
    have hput : (a.addFrames id frames hnumbers).shelf Exhibit.frames =
        Function.update (a.shelf Exhibit.frames) id (a.shelf Exhibit.frames id ++ frames) :=
      shelf_change (fun _ => rfl) hthere
    have hother : ∀ {α : Type} {part : Exhibit → List α},
        (∀ x, part (x.addFrames frames hnumbers) = part x) →
          (a.addFrames id frames hnumbers).shelf part = a.shelf part :=
      fun hpart => shelf_change_same hpart
    have hlists : Lists db.tables (a.addFrames id frames hnumbers) :=
      lists_change h.toLists id (fun _ => rfl) (fun _ => rfl) fun _ => rfl
    refine ⟨⟨hlists.cases, hlists.sequence, hlists.items⟩, ?_, ?_, ?_, ?_, h.eventIds,
      h.detectionIds⟩
    · rw [hother fun _ => rfl]
      exact h.records
    · rw [hput]
      exact h.frames.put (fun _ => rfl) frames
    · rw [hother fun _ => rfl]
      exact h.events
    · rw [hother fun _ => rfl]
      exact h.detections

theorem numbered_eq_nil {α : Type} (first : ℤ) {values : List α} (h : values = []) :
    numbered first values = [] := by
  rw [h]
  rfl

/-- Rows under the next numbers. -/
theorem map_id_append {α ρ : Type} (id : ρ → ℤ) (write : ℤ → α → ρ)
    (hid : ∀ i v, id (write i v) = i) {rows : List ρ} {n : ℕ} (h : rows.map id = itemIds n)
    (values : List α) :
    (rows ++ (numbered ((n : ℤ) + 1) values).map fun p => write p.1 p.2).map id =
      itemIds (n + values.length) := by
  have hnew : ((numbered ((n : ℤ) + 1) values).map fun p => write p.1 p.2).map id =
      (List.range values.length).map fun i : ℕ => ((n + i : ℕ) : ℤ) + 1 := by
    have hsnd : (numbered ((n : ℤ) + 1) values).map (fun p => id (write p.1 p.2)) =
        (values.zipIdx.map Prod.snd).map fun i : ℕ => ((n + i : ℕ) : ℤ) + 1 := by
      rw [numbered, List.map_map, List.map_map]
      refine List.map_congr_left fun p _ => ?_
      rw [Function.comp_apply, Function.comp_apply, hid]
      push_cast
      ring
    rw [List.map_map, List.range_eq_range', ← List.zipIdx_map_snd, ← hsnd]
    rfl
  rw [List.map_append, h, hnew, itemIds, itemIds, List.range_add, List.map_append, List.map_map]
  rfl

theorem perform_correlated (h : Holds db.tables a) (id : ℤ) (events : List CorrelatedDbEvent) :
    Follows db ((StoreCall.correlated id events).perform db none)
      (a.record db.path none (.correlated id events)) := by
  have hrows : withEvents db.tables id events = { db.tables with
      correlatedEvents := db.tables.correlatedEvents ++
        (numbered ((a.eventCount : ℤ) + 1) events).map
          fun p => CorrelatedRow.ofEvent p.1 id p.2 } := by
    rw [withEvents, h.eventIds, nextId_itemIds, numbered, List.map_map]
    rfl
  refine @perform_rows db a h _ id eventReals events (withEvents db.tables id events)
    (a.addEvents id events) _ ?_ rfl ?_
  · unfold StoreCall.perform CaseDatabase.storeCorrelatedEvents eventReals withEvents
    dsimp only
    cases CaseDatabase.storeRows _ id (fun e : CorrelatedDbEvent => [e.confidence]) events _ <;> rfl
  · intro hnumbers hthere
    have hput : (a.addEvents id events hnumbers).shelf Exhibit.events =
        Function.update (a.shelf Exhibit.events) id
          (a.shelf Exhibit.events id ++ numbered (a.eventCount + 1) events) :=
      shelf_change (fun _ => rfl) (hthere.imp_left (numbered_eq_nil _))
    have hother : ∀ {α : Type} {part : Exhibit → List α},
        (∀ x, part (x.addEvents (a.eventCount + 1) events hnumbers) = part x) →
          (a.addEvents id events hnumbers).shelf part = a.shelf part :=
      fun hpart => shelf_change_same hpart
    have hlists : Lists db.tables (a.change id (·.addEvents (a.eventCount + 1) events hnumbers)) :=
      lists_change h.toLists id (fun _ => rfl) (fun _ => rfl) fun _ => rfl
    rw [hrows]
    refine ⟨⟨hlists.cases, hlists.sequence, hlists.items⟩, ?_, ?_, ?_, ?_,
      map_id_append CorrelatedRow.id (fun i v => CorrelatedRow.ofEvent i id v) (fun _ _ => rfl)
        h.eventIds events, h.detectionIds⟩
    · rw [hother fun _ => rfl]
      exact h.records
    · rw [hother fun _ => rfl]
      exact h.frames
    · rw [hput]
      exact h.events.put (fun _ => rfl) _
    · rw [hother fun _ => rfl]
      exact h.detections

theorem perform_analysed (h : Holds db.tables a) (id : ℤ)
    (detections : List AnalyticsDbDetection) :
    Follows db ((StoreCall.analysed id detections).perform db none)
      (a.record db.path none (.analysed id detections)) := by
  have hrows : withDetections db.tables id detections = { db.tables with
      analyticsDetections := db.tables.analyticsDetections ++
        (numbered ((a.detectionCount : ℤ) + 1) detections).map
          fun p => AnalyticsRow.ofDetection p.1 id p.2 } := by
    rw [withDetections, h.detectionIds, nextId_itemIds, numbered, List.map_map]
    rfl
  refine @perform_rows db a h _ id detectionReals detections
    (withDetections db.tables id detections) (a.addDetections id detections) _ ?_ rfl ?_
  · unfold StoreCall.perform CaseDatabase.storeAnalyticsDetections detectionReals withDetections
    dsimp only
    cases CaseDatabase.storeRows _ id
      (fun d : AnalyticsDbDetection => [d.motionEnergy, d.relevanceScore, d.confidence])
      detections _ <;> rfl
  · intro hnumbers hthere
    have hput : (a.addDetections id detections hnumbers).shelf Exhibit.detections =
        Function.update (a.shelf Exhibit.detections) id
          (a.shelf Exhibit.detections id ++ numbered (a.detectionCount + 1) detections) :=
      shelf_change (fun _ => rfl) (hthere.imp_left (numbered_eq_nil _))
    have hother : ∀ {α : Type} {part : Exhibit → List α},
        (∀ x, part (x.addDetections (a.detectionCount + 1) detections hnumbers) = part x) →
          (a.addDetections id detections hnumbers).shelf part = a.shelf part :=
      fun hpart => shelf_change_same hpart
    have hlists : Lists db.tables
        (a.change id (·.addDetections (a.detectionCount + 1) detections hnumbers)) :=
      lists_change h.toLists id (fun _ => rfl) (fun _ => rfl) fun _ => rfl
    rw [hrows]
    refine ⟨⟨hlists.cases, hlists.sequence, hlists.items⟩, ?_, ?_, ?_, ?_, h.eventIds,
      map_id_append AnalyticsRow.id (fun i v => AnalyticsRow.ofDetection i id v) (fun _ _ => rfl)
        h.detectionIds detections⟩
    · rw [hother fun _ => rfl]
      exact h.records
    · rw [hother fun _ => rfl]
      exact h.frames
    · rw [hother fun _ => rfl]
      exact h.events
    · rw [hput]
      exact h.detections.put (fun _ => rfl) _

/-- One call, whatever becomes of its transaction. -/
theorem perform_follows (h : Holds db.tables a) (writing : Option SqlError) (call : StoreCall) :
    Follows db (call.perform db writing) (a.record db.path writing call) := by
  cases writing with
  | some e => exact perform_failed h e call
  | none =>
    cases call with
    | extraction caseName grammarId validationTier records =>
      exact perform_extraction h caseName grammarId validationTier records
    | carved id frames => exact perform_carved h id frames
    | correlated id events => exact perform_correlated h id events
    | analysed id detections => exact perform_analysed h id detections

/-- Calls one after the other. -/
theorem performAll_follows (h : Holds db.tables a) (calls : List (Option SqlError × StoreCall)) :
    Holds (performAll db calls).1.tables (a.recordAll db.path calls).1 ∧
      (performAll db calls).2 = (a.recordAll db.path calls).2 ∧
      (performAll db calls).1.path = db.path ∧ (performAll db calls).1.io = db.io := by
  induction calls generalizing db a with
  | nil => exact ⟨h, rfl, rfl, rfl⟩
  | cons first rest ih =>
    obtain ⟨writing, call⟩ := first
    have hstep := perform_follows h writing call
    obtain ⟨hholds, hanswers, hpath, hio⟩ := ih hstep.holds
    rw [hstep.path] at hholds hanswers
    refine ⟨hholds, ?_, hpath.trans hstep.path, hio.trans hstep.io⟩
    simp only [performAll, Archive.recordAll, hanswers, hstep.answer]

theorem shelf_empty {α : Type} (part : Exhibit → List α) (id : ℤ) :
    Archive.empty.shelf part id = [] :=
  shelf_of_none (by simp [Archive.exhibit?, Archive.empty]) part

theorem holds_empty : Holds .empty .empty where
  cases := rfl
  sequence := rfl
  items := rfl
  records id := by
    simp only [shelf_empty]
    rfl
  frames id := by
    simp only [shelf_empty]
    rfl
  events id := by
    simp only [shelf_empty]
    rfl
  detections id := by
    simp only [shelf_empty]
    rfl
  eventIds := rfl
  detectionIds := rfl

end Refinement

/-- From a new file on, every sequence of calls, with transactions failing anywhere in it,
is answered as the archive answers it, and leaves tables that show the archive. -/
theorem performAll_refines (path : String) (io : DbIo)
    (calls : List (Option SqlError × StoreCall)) :
    (performAll ⟨path, .empty, io⟩ calls).2 = (Archive.empty.recordAll path calls).2 ∧
      Holds (performAll ⟨path, .empty, io⟩ calls).1.tables
        (Archive.empty.recordAll path calls).1 := by
  obtain ⟨hholds, hanswers, -⟩ :=
    @performAll_follows ⟨path, .empty, io⟩ .empty holds_empty calls
  exact ⟨hanswers, hholds⟩

end Dvrft.Exhibits
