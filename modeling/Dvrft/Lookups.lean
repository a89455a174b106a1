import Dvrft.Binary64
import Dvrft.Exhibits
import Dvrft.Filtering

/-!
What the queries of the case database answer after any calls. A query for one item answers
from its exhibit, one for all items from the exhibits together.
-/

namespace Dvrft.Exhibits

open Errors Machine Sqlite Interpreter Database Interference Rerun Owners Filtering

/-- A frame as it comes back: its offset and length cut to 64 bits, no signed zero. -/
def frame64 (f : CarvedFrame) : CarvedFrame :=
  { f with
    byteOffset := f.byteOffset % 2 ^ 64
    length := f.length % 2 ^ 64
    confidence := unsignedZero f.confidence }

def filedEvent (p : ℤ × CorrelatedDbEvent) : CorrelatedDbEvent :=
  { p.2 with
    id := some p.1
    confidence := unsignedZero p.2.confidence }

def filedDetection (p : ℤ × AnalyticsDbDetection) : AnalyticsDbDetection :=
  { p.2 with
    id := some p.1
    blockIndex := p.2.blockIndex % 2 ^ 64
    motionEnergy := unsignedZero p.2.motionEnergy
    relevanceScore := unsignedZero p.2.relevanceScore
    confidence := unsignedZero p.2.confidence }

/-- Values in the order of a signed 64-bit column, ties as they were. -/
def inOrderOf {α : Type} (column : α → ℕ) (values : List α) : List α :=
  values.insertionSort fun a b => asI64 (column a) ≤ asI64 (column b)

/-- More relevant, or just as relevant and not later. -/
def RanksBefore (d e : AnalyticsDbDetection) : Prop :=
  e.relevanceScore < d.relevanceScore ∨
    ¬ d.relevanceScore < e.relevanceScore ∧ asI64 d.timestamp.toNat ≤ asI64 e.timestamp.toNat

instance : DecidableRel RanksBefore := fun d e =>
  inferInstanceAs (Decidable (e.relevanceScore < d.relevanceScore ∨
    ¬ d.relevanceScore < e.relevanceScore ∧ asI64 d.timestamp.toNat ≤ asI64 e.timestamp.toNat))

/-- What the floors and the class of a query let through. -/
def passes (minRelevance minConfidence : Float) (entityClass : Option String)
    (d : AnalyticsDbDetection) : Bool :=
  decide (minRelevance ≤ d.relevanceScore) && decide (minConfidence ≤ d.confidence) &&
    entityClass.all (d.entityClass == ·)

/-- Detections that pass, the most relevant ones first. -/
def ranked (minRelevance minConfidence : Float) (entityClass : Option String)
    (detections : List (ℤ × AnalyticsDbDetection)) : List (ℤ × AnalyticsDbDetection) :=
  (detections.filter fun p => passes minRelevance minConfidence entityClass p.2).insertionSort
    fun p q => RanksBefore p.2 q.2

/-- Every query answers from the archive. The queries over all items see the values of all
exhibits in one arrangement. -/
structure Serves (db : CaseDatabase) (a : Archive) : Prop where
  primary : db.primaryEvidenceId = .ok (if a.exhibits = [] then none else some 1)
  primaryGrammar : db.primaryEvidenceGrammarAndTier =
    .ok (a.exhibits.head?.map fun x => (x.grammarId, x.validationTier.toNat))
  records : ∃ records : List ExtractedRecord,
    records.Perm (a.exhibits.flatMap Exhibit.records) ∧ ∀ filter, db.queryRecords filter =
      ((page filter.limit filter.offset
        (inOrderOf ExtractedRecord.blockIndex (records.filter (takes filter)))).map
          (List.map wrap64)).mapError (.databaseError db.path)
  frames (id : ℤ) : db.queryCarvedRecords (some id) =
    .ok ((inOrderOf CarvedFrame.byteOffset (a.shelf Exhibit.frames id)).map frame64)
  allFrames : ∃ frames : List CarvedFrame, frames.Perm (a.exhibits.flatMap Exhibit.frames) ∧
    db.queryCarvedRecords none = .ok ((inOrderOf CarvedFrame.byteOffset frames).map frame64)
  events (id : ℤ) : db.queryCorrelatedEvents (some id) =
    .ok ((a.shelf Exhibit.events id).map filedEvent)
  allEvents : ∃ events : List (ℤ × CorrelatedDbEvent),
    events.Perm (a.exhibits.flatMap Exhibit.events) ∧
      events.map Prod.fst = itemIds a.eventCount ∧
      db.queryCorrelatedEvents none = .ok (events.map filedEvent)
  detections (id : ℤ) (minRelevance minConfidence : Float) (entityClass : Option String)
    (limit : Option ℕ) :
    db.queryAnalyticsDetections (some id) minRelevance minConfidence entityClass limit =
      ((page limit none (ranked minRelevance minConfidence entityClass
        (a.shelf Exhibit.detections id))).map
          (List.map filedDetection)).mapError (.databaseError db.path)
  allDetections : ∃ detections : List (ℤ × AnalyticsDbDetection),
    detections.Perm (a.exhibits.flatMap Exhibit.detections) ∧
    ∀ (minRelevance minConfidence : Float) (entityClass : Option String) (limit : Option ℕ),
      db.queryAnalyticsDetections none minRelevance minConfidence entityClass limit =
        ((page limit none (ranked minRelevance minConfidence entityClass detections)).map
          (List.map filedDetection)).mapError (.databaseError db.path)

theorem read_frame (evidenceId : ℤ) {f : CarvedFrame} (h : ∀ x ∈ frameReals f, x.isNaN = false) :
    (CarvedRow.ofFrame evidenceId f).read = .ok (frame64 f) := by
  have hconfidence := SqlValue.ofFloat_of_number (h f.confidence (by simp [frameReals]))
  have hbool : ∀ b : Bool, ((if b then (1 : ℤ) else 0) == 1) = b := by decide
  simp only [CarvedRow.read, CarvedRow.ofFrame, hconfidence, SqlValue.getI64, SqlValue.getString,
    SqlValue.getF64, SqlValue.ofBool, ok_bind, hbool, asU64_asI64, frame64]

theorem read_event (evidenceId : ℤ) {p : ℤ × CorrelatedDbEvent}
    (h : ∀ x ∈ eventReals p.2, x.isNaN = false) :
    (CorrelatedRow.ofEvent p.1 evidenceId p.2).read = .ok (filedEvent p) := by
  have hconfidence := SqlValue.ofFloat_of_number (h p.2.confidence (by simp [eventReals]))
  simp only [CorrelatedRow.read, CorrelatedRow.ofEvent, hconfidence, SqlValue.getString,
    SqlValue.getF64, ok_bind, filedEvent]

theorem read_detection (evidenceId : ℤ) {p : ℤ × AnalyticsDbDetection}
    (h : ∀ x ∈ detectionReals p.2, x.isNaN = false) :
    (AnalyticsRow.ofDetection p.1 evidenceId p.2).read = .ok (filedDetection p) := by
  have hmotion := SqlValue.ofFloat_of_number (h p.2.motionEnergy (by simp [detectionReals]))
  have hrelevance := SqlValue.ofFloat_of_number (h p.2.relevanceScore (by simp [detectionReals]))
  have hconfidence := SqlValue.ofFloat_of_number (h p.2.confidence (by simp [detectionReals]))
  have hchannel : p.2.channelId.toNat % 2 ^ 64 = p.2.channelId.toNat :=
    Nat.mod_eq_of_lt (p.2.channelId.toNat_lt.trans (by decide))
  have htimestamp : p.2.timestamp.toNat % 2 ^ 64 = p.2.timestamp.toNat :=
    Nat.mod_eq_of_lt p.2.timestamp.toNat_lt
  simp only [AnalyticsRow.read, AnalyticsRow.ofDetection, hmotion, hrelevance, hconfidence,
    SqlValue.getI64, SqlValue.getString, SqlValue.getF64, ok_bind, asU64_asI64, asU64_natCast,
    hchannel, htimestamp, UInt32.ofNat_toNat, UInt64.ofNat_toNat, filedDetection]

theorem page_map {α ρ : Type} (write : α → ρ) (limit offset : Option ℕ) (values : List α) :
    page limit offset (values.map write) = (page limit offset values).map (List.map write) := by
  unfold page
  cases limit with
  | none => rfl
  | some limit =>
    dsimp only
    split_ifs
    · rfl
    · rw [← List.map_drop, ← List.map_take]
      rfl

/-- Paging takes from what it is given. -/
theorem mem_of_page {α : Type} {limit offset : Option ℕ} {values out : List α}
    (h : page limit offset values = .ok out) {v : α} (hv : v ∈ out) : v ∈ values := by
  unfold page at h
  cases limit with
  | none =>
    rw [Except.ok.inj h]
    exact hv
  | some limit =>
    dsimp only at h
    split_ifs at h
    rw [← Except.ok.inj h] at hv
    exact List.mem_of_mem_drop (List.mem_of_mem_take hv)

/-- A page of rows, read in a database on which reading succeeds. -/
theorem fetch_page {db : CaseDatabase} (hsound : db.io = .sound) {α β γ ρ : Type} (table : Table)
    {read : ρ → Except SqlError γ} {write : β → ρ} {entry : β → α} {back : α → γ}
    {chosen : List β} (hread : ∀ b ∈ chosen, read (write b) = .ok (back (entry b)))
    (limit offset : Option ℕ) :
    db.fetch table read (page limit offset (chosen.map write)) =
      ((page limit offset (chosen.map entry)).map (List.map back)).mapError
        (.databaseError db.path) := by
  rw [page_map, page_map]
  cases hpage : page limit offset chosen with
  | error e =>
    rw [CaseDatabase.fetch, hsound]
    rfl
  | ok out =>
    have hrows : List.Forall₂ (fun row v => read row = .ok v) (out.map write)
        ((out.map entry).map back) := by
      rw [List.map_map, List.forall₂_map_left_iff, List.forall₂_map_right_iff, List.forall₂_same]
      exact fun b hb => hread b (mem_of_page hpage hb)
    exact CaseDatabase.fetch_ok.mpr ⟨by rw [hsound]; rfl, fun _ _ => by rw [hsound]; rfl, hrows⟩

theorem mem_inOrderOf {α : Type} {column : α → ℕ} {values : List α} {v : α} :
    v ∈ inOrderOf column values ↔ v ∈ values := List.mem_insertionSort _

theorem inOrderOf_map {α β : Type} (column : α → ℕ) (entry : β → α) (written : List β) :
    (inOrderOf (column ∘ entry) written).map entry = inOrderOf column (written.map entry) :=
  List.map_insertionSort _ _ entry written fun _ _ _ _ => Iff.rfl

/-- Rows ordered by an integer column. -/
theorem orderBy_written {α β ρ : Type} {key : ρ → SqlValue} {write : β → ρ} {entry : β → α}
    {column : α → ℕ} (hkey : ∀ b, key (write b) = .integer (asI64 (column (entry b))))
    (written : List β) :
    orderBy key (written.map write) = (inOrderOf (column ∘ entry) written).map write := by
  unfold orderBy inOrderOf
  refine (List.map_insertionSort _ _ write written fun a _ b _ => ?_).symm
  rw [hkey, hkey]
  exact Int.isLE_compare.symm

/-- A cell passes the filter for a floor when its real is at or above it. -/
theorem holds_isGE_ofFloat {x : Float} (hx : x.isNaN = false) (floor : Float) :
    (SqlValue.ofFloat x).holds Ordering.isGE (.ofFloat floor) = decide (floor ≤ x) := by
  rw [SqlValue.ofFloat_of_number hx]
  cases hfloor : floor.isNaN with
  | true =>
    rw [SqlValue.ofFloat, hfloor, decide_eq_false (Binary64.not_le_of_isNaN hfloor)]
    rfl
  | false =>
    rw [SqlValue.ofFloat_of_number hfloor, Bool.eq_iff_iff, decide_eq_true_eq,
      Binary64.le_iff_not_lt hfloor hx]
    change Ordering.isGE (if unsignedZero x < unsignedZero floor then .lt
      else if unsignedZero floor < unsignedZero x then .gt else .eq) = true ↔ _
    simp only [unsignedZero_lt_iff hx hfloor, unsignedZero_lt_iff hfloor hx]
    split_ifs with hlt hgt <;> simp [hlt, Ordering.isGE]

theorem holds_isEq_text (s t : String) :
    (SqlValue.text s).holds Ordering.isEq (.text t) = (s == t) := by
  rw [Bool.eq_iff_iff, beq_iff_eq]
  change (compare s t).isEq = true ↔ _
  simp

/-- The order of the rows is that of the detections. -/
theorem ranks_written {d e : AnalyticsDbDetection} (hd : d.relevanceScore.isNaN = false)
    (he : e.relevanceScore.isNaN = false) :
    RanksBefore d e ↔
      (((SqlValue.ofFloat e.relevanceScore).compareValues (.ofFloat d.relevanceScore)).then
        ((SqlValue.integer (asI64 d.timestamp.toNat)).compareValues
          (.integer (asI64 e.timestamp.toNat)))).isLE := by
  rw [SqlValue.ofFloat_of_number hd, SqlValue.ofFloat_of_number he]
  change _ ↔ ((if unsignedZero e.relevanceScore < unsignedZero d.relevanceScore then Ordering.lt
    else if unsignedZero d.relevanceScore < unsignedZero e.relevanceScore then .gt else .eq).then
      (compare (asI64 d.timestamp.toNat) (asI64 e.timestamp.toNat))).isLE = true
  simp only [unsignedZero_lt_iff he hd, unsignedZero_lt_iff hd he]
  unfold RanksBefore
  split_ifs with hlt hgt
  · simp [hlt, Ordering.isLE]
  · simp [hlt, hgt, Ordering.isLE]
  · simp only [hlt, hgt, false_or, not_false_eq_true, true_and, Ordering.eq_then]
    exact Int.isLE_compare.symm

section Written

variable {db : CaseDatabase} {β : Type} {item : β → ℤ} {written : List β}

theorem queryRecords_written (hsound : db.io = .sound) {entry : β → ExtractedRecord}
    (hrows : db.tables.extractedRecords = written.map fun b => .ofRecord (item b) (entry b))
    (filter : RecordFilter) :
    db.queryRecords filter =
      ((page filter.limit filter.offset
        (inOrderOf ExtractedRecord.blockIndex ((written.map entry).filter (takes filter)))).map
          (List.map wrap64)).mapError (.databaseError db.path) := by
  have hselected : db.tables.extractedRecords.filter filter.selects =
      (written.filter (takes filter ∘ entry)).map fun b => .ofRecord (item b) (entry b) := by
    rw [hrows, List.filter_map]
    refine congrArg _ (List.filter_congr fun b _ => ?_)
    exact selects_ofRecord filter (item b) (entry b)
  have hordered := @orderBy_written _ _ _ ExtractedRow.blockIndex
    (fun b => ExtractedRow.ofRecord (item b) (entry b)) entry ExtractedRecord.blockIndex
    (fun _ => rfl) (written.filter (takes filter ∘ entry))
  rw [CaseDatabase.queryRecords, hselected, hordered, List.filter_map, ← inOrderOf_map]
  exact fetch_page hsound _ (fun b _ => read_ofRecord (item b) (entry b)) _ _

theorem queryCarvedRecords_written (hsound : db.io = .sound) {evidenceId : Option ℤ}
    {entry : β → CarvedFrame}
    (hrows : db.tables.carvedRecords.filter (fun row => evidenceId.all (row.evidenceId == ·)) =
      written.map fun b => .ofFrame (item b) (entry b))
    (hnumbers : ∀ b ∈ written, ∀ x ∈ frameReals (entry b), x.isNaN = false) :
    db.queryCarvedRecords evidenceId =
      .ok ((inOrderOf CarvedFrame.byteOffset (written.map entry)).map frame64) := by
  have hordered := @orderBy_written _ _ _ CarvedRow.byteOffset
    (fun b => CarvedRow.ofFrame (item b) (entry b)) entry CarvedFrame.byteOffset
    (fun _ => rfl) written
  rw [CaseDatabase.queryCarvedRecords, hrows, hordered, ← inOrderOf_map]
  exact fetch_page hsound _
    (fun b hb => read_frame (item b) (hnumbers b (mem_inOrderOf.mp hb))) none none

theorem queryCorrelatedEvents_written (hsound : db.io = .sound) {evidenceId : Option ℤ}
    {entry : β → ℤ × CorrelatedDbEvent}
    (hrows : db.tables.correlatedEvents.filter (fun row => evidenceId.all (row.evidenceId == ·)) =
      written.map fun b => .ofEvent (entry b).1 (item b) (entry b).2)
    (hnumbers : ∀ b ∈ written, ∀ x ∈ eventReals (entry b).2, x.isNaN = false) :
    db.queryCorrelatedEvents evidenceId = .ok ((written.map entry).map filedEvent) := by
  rw [CaseDatabase.queryCorrelatedEvents, hrows]
  exact fetch_page hsound _ (fun b hb => read_event (item b) (hnumbers b hb)) none none

theorem queryAnalyticsDetections_written (hsound : db.io = .sound) {evidenceId : Option ℤ}
    {entry : β → ℤ × AnalyticsDbDetection}
    (hrows : db.tables.analyticsDetections.filter
      (fun row => evidenceId.all (row.evidenceId == ·)) =
        written.map fun b => .ofDetection (entry b).1 (item b) (entry b).2)
    (hnumbers : ∀ b ∈ written, ∀ x ∈ detectionReals (entry b).2, x.isNaN = false)
    (minRelevance minConfidence : Float) (entityClass : Option String) (limit : Option ℕ) :
    db.queryAnalyticsDetections evidenceId minRelevance minConfidence entityClass limit =
      ((page limit none
        (ranked minRelevance minConfidence entityClass (written.map entry))).map
          (List.map filedDetection)).mapError (.databaseError db.path) := by
  have hrelevance : ∀ b ∈ written, (entry b).2.relevanceScore.isNaN = false := fun b hb =>
    hnumbers b hb _ (by simp [detectionReals])
  have hconfidence : ∀ b ∈ written, (entry b).2.confidence.isNaN = false := fun b hb =>
    hnumbers b hb _ (by simp [detectionReals])
  have hselected : (db.tables.analyticsDetections.filter fun row =>
      row.relevanceScore.holds Ordering.isGE (.ofFloat minRelevance) &&
      row.confidence.holds Ordering.isGE (.ofFloat minConfidence) &&
      evidenceId.all (row.evidenceId == ·) &&
      entityClass.all fun c => row.entityClass.holds Ordering.isEq (.text c)) =
        (written.filter fun b => passes minRelevance minConfidence entityClass (entry b).2).map
          fun b => .ofDetection (entry b).1 (item b) (entry b).2 := by
    have hcond : (db.tables.analyticsDetections.filter fun row =>
        row.relevanceScore.holds Ordering.isGE (.ofFloat minRelevance) &&
        row.confidence.holds Ordering.isGE (.ofFloat minConfidence) &&
        evidenceId.all (row.evidenceId == ·) &&
        entityClass.all fun c => row.entityClass.holds Ordering.isEq (.text c)) =
          (db.tables.analyticsDetections.filter
            fun row => evidenceId.all (row.evidenceId == ·)).filter fun row =>
              row.relevanceScore.holds Ordering.isGE (.ofFloat minRelevance) &&
              row.confidence.holds Ordering.isGE (.ofFloat minConfidence) &&
              entityClass.all fun c => row.entityClass.holds Ordering.isEq (.text c) := by
      rw [List.filter_filter]
      refine List.filter_congr fun row _ => ?_
      ac_rfl
    rw [hcond, hrows, List.filter_map]
    refine congrArg _ (List.filter_congr fun b hb => ?_)
    simp only [Function.comp_apply, AnalyticsRow.ofDetection, passes,
      holds_isGE_ofFloat (hrelevance b hb), holds_isGE_ofFloat (hconfidence b hb),
      holds_isEq_text]
  have hordered := List.map_insertionSort
    (fun b c : β => RanksBefore (entry b).2 (entry c).2)
    (fun a b : AnalyticsRow => ((b.relevanceScore.compareValues a.relevanceScore).then
      (a.timestamp.compareValues b.timestamp)).isLE)
    (fun b => AnalyticsRow.ofDetection (entry b).1 (item b) (entry b).2)
    (written.filter fun b => passes minRelevance minConfidence entityClass (entry b).2)
    fun b hb c hc => ranks_written (hrelevance b (List.mem_of_mem_filter hb))
      (hrelevance c (List.mem_of_mem_filter hc))
  have hranked : ranked minRelevance minConfidence entityClass (written.map entry) =
      ((written.filter fun b => passes minRelevance minConfidence entityClass
        (entry b).2).insertionSort fun b c => RanksBefore (entry b).2 (entry c).2).map entry := by
    rw [ranked, List.filter_map]
    exact (List.map_insertionSort _ _ entry _ fun _ _ _ _ => Iff.rfl).symm
  rw [CaseDatabase.queryAnalyticsDetections, hselected, ← hordered, hranked]
  refine fetch_page hsound _ (fun b hb => read_detection (item b) (hnumbers b ?_)) _ _
  exact List.mem_of_mem_filter ((List.mem_insertionSort _).mp hb)

end Written

section Shelved

variable {a : Archive} {α : Type} {part : Exhibit → List α}

theorem mem_shelf {id : ℤ} {v : α} (hv : v ∈ a.shelf part id) : ∃ x ∈ a.exhibits, v ∈ part x := by
  cases hx : a.exhibit? id with
  | none =>
    rw [shelf_of_none hx] at hv
    exact absurd hv List.not_mem_nil
  | some x =>
    obtain ⟨i, -, hi⟩ := exhibit?_eq_some hx
    rw [Archive.shelf, hx] at hv
    exact ⟨x, List.mem_of_getElem? hi, hv⟩

theorem nodup_itemIds (n : ℕ) : (itemIds n).Nodup :=
  List.nodup_range.map fun i j hij => by simpa using hij

/-- The shelves in the order of the exhibits. -/
theorem flatMap_shelf (part : Exhibit → List α) :
    (itemIds a.exhibits.length).flatMap (a.shelf part) = a.exhibits.flatMap part := by
  have hshelf : ∀ i : ℕ, i < a.exhibits.length →
      a.shelf part ((i : ℤ) + 1) = (a.exhibits[i]?.map part).getD [] := by
    intro i _
    rw [Archive.shelf, exhibit?_natCast]
  have hall : (List.range a.exhibits.length).flatMap
      (fun i => (a.exhibits[i]?.map part).getD []) = a.exhibits.flatMap part := by
    generalize a.exhibits = exhibits
    induction exhibits with
    | nil => rfl
    | cons x rest ih =>
      rw [List.length_cons, List.range_succ_eq_map, List.flatMap_cons, List.flatMap_map,
        List.flatMap_cons, ← ih]
      rfl
  rw [itemIds, List.flatMap_map, ← hall]
  exact List.flatMap_congr fun i hi => hshelf i (List.mem_range.mp hi)

/-- A table that shows the shelves is the values of all exhibits, in some arrangement. -/
theorem exists_written {ρ : Type} {owner : ρ → ℤ} {rows : List ρ} {write : ℤ → α → ρ}
    (h : Shows owner rows fun id => (a.shelf part id).map (write id)) :
    ∃ written : List (ℤ × α), rows = written.map (fun p => write p.1 p.2) ∧
      (written.map Prod.snd).Perm (a.exhibits.flatMap part) := by
  have hout : ∀ id, id ∉ itemIds a.exhibits.length → a.shelf part id = [] := by
    intro id hid
    refine shelf_of_none ?_ part
    rw [← exhibit?_isSome_iff] at hid
    simpa using hid
  obtain ⟨written, hrows, hperm⟩ := h.exists_values (nodup_itemIds _) hout
  refine ⟨written, hrows, ?_⟩
  have hvalues := hperm.map Prod.snd
  have hsnd : ∀ id, ((a.shelf part id).map (Prod.mk id)).map Prod.snd = a.shelf part id := by
    intro id
    rw [List.map_map]
    exact List.map_id _
  rw [List.map_flatMap] at hvalues
  simp only [hsnd] at hvalues
  rwa [flatMap_shelf] at hvalues

/-- Without an item the query sees every row. -/
theorem filter_none {ρ : Type} (owner : ρ → ℤ) (rows : List ρ) :
    (rows.filter fun row => (none : Option ℤ).all (owner row == ·)) = rows :=
  List.filter_eq_self.mpr fun _ _ => rfl

/-- The values of all exhibits are numbers when those of each are. -/
theorem numbers_written {ι : Type} {reals : α → List Float} (h : ∀ x, Numbers reals (part x))
    {written : List (ι × α)} (hperm : (written.map Prod.snd).Perm (a.exhibits.flatMap part)) :
    ∀ b ∈ written, ∀ x ∈ reals b.2, x.isNaN = false := by
  intro b hb
  obtain ⟨x, -, hx⟩ :=
    List.mem_flatMap.mp (hperm.mem_iff.mp (List.mem_map_of_mem hb))
  exact h x b.2 hx

end Shelved

/-- A database whose tables show an archive serves it. -/
theorem serves_of_holds {db : CaseDatabase} {a : Archive} (hsound : db.io = .sound)
    (h : Holds db.tables a) : Serves db a where
  primary := by
    rw [CaseDatabase.primaryEvidenceId, hsound, h.items]
    cases hexhibits : a.exhibits <;> rfl
  primaryGrammar := by
    rw [CaseDatabase.primaryEvidenceGrammarAndTier, hsound, h.items]
    cases hexhibits : a.exhibits with
    | nil => rfl
    | cons x rest =>
      have htier : (SqlValue.integer (x.validationTier.toNat : ℤ)).getU8 1 =
          .ok x.validationTier.toNat := by
        have hbound := x.validationTier.toNat_lt
        simp only [SqlValue.getU8]
        rw [if_pos (by omega), Int.toNat_natCast]
      simp only [List.zipIdx_cons, List.map_cons, DbIo.sound, Sqlite.succeeds, ok_bind,
        SqlValue.getString, htier, List.head?_cons, Option.map_some]
      rfl
  records := by
    obtain ⟨written, hrows, hperm⟩ := exists_written h.records
    exact ⟨_, hperm, queryRecords_written hsound hrows⟩
  frames id := by
    have hrows := h.frames id
    have hnumbers : ∀ f ∈ a.shelf Exhibit.frames id, ∀ x ∈ frameReals f, x.isNaN = false := by
      intro f hf
      obtain ⟨x, -, hx⟩ := mem_shelf hf
      exact x.framesReal f hx
    have hquery := @queryCarvedRecords_written db CarvedFrame (fun _ => id)
      (a.shelf Exhibit.frames id) hsound (some id) (fun f => f) hrows hnumbers
    rwa [List.map_id'] at hquery
  allFrames := by
    obtain ⟨written, hrows, hperm⟩ := exists_written h.frames
    exact ⟨_, hperm, queryCarvedRecords_written hsound ((filter_none _ _).trans hrows)
      (numbers_written Exhibit.framesReal hperm)⟩
  events id := by
    have hrows := h.events id
    have hnumbers : ∀ e ∈ a.shelf Exhibit.events id, ∀ x ∈ eventReals e.2, x.isNaN = false := by
      intro e he
      obtain ⟨x, -, hx⟩ := mem_shelf he
      exact x.eventsReal e hx
    have hquery := @queryCorrelatedEvents_written db (ℤ × CorrelatedDbEvent) (fun _ => id)
      (a.shelf Exhibit.events id) hsound (some id) (fun e => e) hrows hnumbers
    rwa [List.map_id'] at hquery
  allEvents := by
    obtain ⟨written, hrows, hperm⟩ := exists_written h.events
    have hids : (written.map Prod.snd).map Prod.fst = itemIds a.eventCount := by
      rw [← h.eventIds, hrows, List.map_map, List.map_map]
      rfl
    exact ⟨_, hperm, hids, queryCorrelatedEvents_written hsound ((filter_none _ _).trans hrows)
      (numbers_written Exhibit.eventsReal hperm)⟩
  detections id minRelevance minConfidence entityClass limit := by
    have hrows := h.detections id
    have hnumbers : ∀ d ∈ a.shelf Exhibit.detections id, ∀ x ∈ detectionReals d.2,
        x.isNaN = false := by
      intro d hd
      obtain ⟨x, -, hx⟩ := mem_shelf hd
      exact x.detectionsReal d hx
    have hquery := @queryAnalyticsDetections_written db (ℤ × AnalyticsDbDetection) (fun _ => id)
      (a.shelf Exhibit.detections id) hsound (some id) (fun d => d) hrows hnumbers minRelevance
      minConfidence entityClass limit
    rwa [List.map_id'] at hquery
  allDetections := by
    obtain ⟨written, hrows, hperm⟩ := exists_written h.detections
    exact ⟨_, hperm, queryAnalyticsDetections_written hsound ((filter_none _ _).trans hrows)
      (numbers_written Exhibit.detectionsReal hperm)⟩

/-- From a new file on, whatever calls were made and failed, every query answers from the
archive that the calls describe. -/
theorem performAll_serves (path : String) (calls : List (Option SqlError × StoreCall)) :
    Serves (performAll ⟨path, .empty, .sound⟩ calls).1 (Archive.empty.recordAll path calls).1 := by
  obtain ⟨hholds, -, -, hio⟩ :=
    @performAll_follows ⟨path, .empty, .sound⟩ .empty holds_empty calls
  exact serves_of_holds hio hholds

end Dvrft.Exhibits
