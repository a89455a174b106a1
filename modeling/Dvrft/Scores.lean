import Dvrft.Custody
import Dvrft.Rerun
import Dvrft.Rounding

/-!
The scores that the stages compute. All of them are numbers within their bounds, so the
database refuses none of the rows, and what a run computes is what it stores.
-/

namespace Dvrft.Scores

open Rounding Binary64 Errors Machine Platform Sqlite CaseFiles Interpreter Database Carving
  Correlation Analytics Pipeline Interference StreamKinds Custody Rerun

/-- Both bounds hold. Of NaN neither does. -/
def Between (low high x : Float) : Prop := low ≤ x ∧ x ≤ high

instance (low high : Float) : DecidablePred (Between low high) :=
  fun x => inferInstanceAs (Decidable (low ≤ x ∧ x ≤ high))

theorem Between.isNaN {low high x : Float} (h : Between low high x) : x.isNaN = false := by
  cases hnan : x.isNaN with
  | false => rfl
  | true => exact absurd h.2 (not_le_of_isNaN hnan)

/-- A number is clamped to its bounds. -/
theorem between_clamp {low high x : Float} (hlow : low.isNaN = false) (hhigh : high.isNaN = false)
    (hx : x.isNaN = false) (hself : low ≤ low) (h : low ≤ high) (hself' : high ≤ high) :
    Between low high (clamp x low high) := by
  unfold clamp
  split_ifs with hbelow habove
  · exact ⟨hself, h⟩
  · exact ⟨h, hself'⟩
  · exact ⟨(le_iff_not_lt hlow hx).mpr hbelow, (le_iff_not_lt hx hhigh).mpr habove⟩

theorem isUnsigned_clamp {low high x : Float} (hlow : IsUnsigned low) (hhigh : IsUnsigned high)
    (hx : IsUnsigned x) : IsUnsigned (clamp x low high) := by
  unfold clamp
  split_ifs
  · exact hlow
  · exact hhigh
  · exact hx

theorem between_unit {x : Float} (hx : IsUnsigned x) : Between 0.0 1.0 (clamp x 0.0 1.0) :=
  between_clamp (by decide +kernel) (by decide +kernel) (isNaN_of_unsigned hx) (by decide +kernel)
    (by decide +kernel) (by decide +kernel)

theorem computeMotionEnergy_score {ε : Type} {X : Crates} {payload : Acquisition.Bytes}
    (hlen : payload.length < 2 ^ 64) {energy : Float}
    (h : (computeMotionEnergy X payload : Outcome ε Float) = .ok energy) :
    IsUnsigned energy ∧ Between 0.0 1.0 energy := by
  unfold computeMotionEnergy at h
  split_ifs at h with hshort
  · rw [← Except.ok.inj h]
    decide +kernel
  · obtain ⟨total, -, h⟩ := bind_ok.mp h
    rw [← Except.ok.inj h]
    have hcount : IsPositive (UInt64.ofNat (payload.length - 1)).toFloat := by
      apply isPositive_toFloat
      rw [UInt64.toNat_ofNat', Nat.mod_eq_of_lt (by omega)]
      omega
    have haverage : IsUnsigned ((UInt64.ofNat total).toFloat /
        (UInt64.ofNat (payload.length - 1)).toFloat / 128.0) :=
      ((isUnsigned_toFloat _).div hcount).div (by decide +kernel)
    exact ⟨isUnsigned_clamp (by decide +kernel) (by decide +kernel) haverage, between_unit haverage⟩

theorem proposeEntities_score {hBytes : Acquisition.Bytes} {channelId : UInt32} {isKeyframe : Bool}
    {motionEnergy : Float} (hmotion : IsUnsigned motionEnergy) {entity : DetectedEntity}
    (h : entity ∈ proposeEntities hBytes channelId isKeyframe motionEnergy) :
    IsUnsigned entity.confidence ∧ Between 0.60 0.98 entity.confidence := by
  have hfirst : ∀ aspect, IsUnsigned (clamp ((classifyAspect aspect).2 + motionEnergy * 0.10)
      0.60 0.98) ∧ Between 0.60 0.98 (clamp ((classifyAspect aspect).2 + motionEnergy * 0.10)
        0.60 0.98) := by
    intro aspect
    have hbase : IsUnsigned (classifyAspect aspect).2 := by
      unfold classifyAspect
      split_ifs <;> decide +kernel
    have hsum := hbase.add (hmotion.mul (show IsPositive 0.10 by decide +kernel))
    exact ⟨isUnsigned_clamp (by decide +kernel) (by decide +kernel) hsum,
      between_clamp (by decide +kernel) (by decide +kernel) (isNaN_of_unsigned hsum)
        (by decide +kernel) (by decide +kernel) (by decide +kernel)⟩
  have hsecond : IsUnsigned 0.78 ∧ Between 0.60 0.98 0.78 := by decide +kernel
  unfold proposeEntities at h
  extract_lets at h
  split_ifs at h
  · rcases List.mem_cons.mp h with rfl | h
    · exact hfirst _
    · obtain rfl := List.mem_singleton.mp h
      exact hsecond
  · obtain rfl := List.mem_singleton.mp h
    exact hfirst _

theorem isUnsigned_larger {a b : Float} (ha : IsUnsigned a) (hb : IsUnsigned b) :
    IsUnsigned (larger a b) := by
  unfold larger
  split_ifs
  · exact hb
  · exact ha
  · exact hb
  · exact ha

theorem isUnsigned_foldl_larger {scores : List Float} (h : ∀ x ∈ scores, IsUnsigned x) {a : Float}
    (ha : IsUnsigned a) : IsUnsigned (scores.foldl larger a) := by
  induction scores generalizing a with
  | nil => exact ha
  | cons x rest ih =>
    obtain ⟨hx, hrest⟩ := List.forall_mem_cons.mp h
    exact ih hrest (isUnsigned_larger ha hx)

/-- The bounds of an analysis and of an entity that it proposes. -/
structure InBounds (analysis : FrameAnalytics) : Prop where
  motion : Between 0.0 1.0 analysis.motionEnergy
  relevance : Between 0.0 1.0 analysis.relevanceScore
  confidence : ∀ entity ∈ analysis.entities, Between 0.60 0.98 entity.confidence

theorem analyzeFrame_inBounds {ε : Type} {X : Crates} {blockIndex : ℕ} {channelId : UInt32}
    {timestamp : UInt64} {normalizedTimestamp : String} {payload : Acquisition.Bytes}
    {isKeyframe : Bool} {analysis : FrameAnalytics} (hlen : payload.length < 2 ^ 64)
    (h : (analyzeFrame X blockIndex channelId timestamp normalizedTimestamp payload isKeyframe :
      Outcome ε FrameAnalytics) = .ok analysis) : InBounds analysis := by
  obtain ⟨motionEnergy, henergy, h⟩ := bind_ok.mp h
  obtain ⟨hmotion, hbetween⟩ := computeMotionEnergy_score hlen henergy
  obtain rfl := Except.ok.inj h
  have hentities : ∀ entity ∈ (if 32 ≤ payload.length ∧ (isKeyframe ∨ 0.35 < motionEnergy) then
      proposeEntities (X.blake3 payload) channelId isKeyframe motionEnergy else []),
        IsUnsigned entity.confidence ∧ Between 0.60 0.98 entity.confidence := by
    intro entity hentity
    split_ifs at hentity
    · exact proposeEntities_score hmotion hentity
    · exact absurd hentity List.not_mem_nil
  refine ⟨hbetween, between_unit ?_, fun entity hentity => (hentities entity hentity).2⟩
  have hmost := isUnsigned_foldl_larger (a := 0.0) (fun x hx => by
    obtain ⟨entity, hentity, rfl⟩ := List.mem_map.mp hx
    exact (hentities entity hentity).1) (by decide +kernel)
  refine ((hmotion.mul (by decide +kernel)).add (hmost.mul (by decide +kernel))).add ?_
  split_ifs <;> decide +kernel

theorem isPositive_ofInt {n : ℤ} (hpos : 0 < n) (hlt : n < 2 ^ 63) : IsPositive (Float.ofInt n) := by
  obtain ⟨k, rfl⟩ := Int.eq_ofNat_of_zero_le hpos.le
  exact isPositive_ofNat (by omega) (by omega)

theorem isUnsigned_ofInt {n : ℤ} (h : 0 ≤ n) : IsUnsigned (Float.ofInt n) := by
  obtain ⟨k, rfl⟩ := Int.eq_ofNat_of_zero_le h
  exact isUnsigned_ofNat k

/-- A confidence is a number for every window, even one of which the floats lose count. -/
theorem transitionConfidence_score (fromEvent toEvent : TimelineEvent) {delta maxWindowSecs : ℤ}
    (hpos : 0 < delta) (hlt : delta < 2 ^ 63) (hwindow : 0 ≤ maxWindowSecs) :
    Between 0.50 0.99 (transitionConfidence fromEvent toEvent delta maxWindowSecs) := by
  have hwhole : IsUnsigned (Float.ofInt maxWindowSecs + 1.0) :=
    (isUnsigned_ofInt hwindow).add (by decide +kernel)
  have hpart : IsUnsigned (Float.ofInt delta / (Float.ofInt maxWindowSecs + 1.0) * 0.4) :=
    ((isPositive_ofInt hpos hlt).div hwhole).mul (by decide +kernel)
  have hfactor := isNaN_sub_of_finite (x := 1.0) (by decide +kernel) hpart
  unfold transitionConfidence
  dsimp only
  refine between_clamp (by decide +kernel) (by decide +kernel) ?_ (by decide +kernel)
    (by decide +kernel) (by decide +kernel)
  apply isNaN_add_of_finite hfactor
  split_ifs <;> decide +kernel

theorem correlatedEvents_score {w : Workspace} {records : List ExtractedRecord}
    {e : CorrelatedDbEvent} (he : e ∈ correlatedEvents w records) :
    Between 0.50 0.99 e.confidence := by
  rcases List.mem_append.mp he with he | he
  · obtain ⟨t, ht, rfl⟩ := List.mem_map.mp he
    unfold detectTransitions at ht
    split_ifs at ht with hnothing
    · exact absurd ht List.not_mem_nil
    · obtain ⟨a, -, b, -, ⟨-, hpositive, hwithin⟩, rfl⟩ :=
        (mem_allTransitions ((mergeTimeline_sorted _).filter _)).mp (mem_of_mem_dedupe ht)
      exact transitionConfidence_score a b hpositive (elapsed_lt _ _) (by omega)
  · obtain ⟨b, -, rfl⟩ := List.mem_map.mp he
    exact show Between 0.50 0.99 0.99 by decide +kernel

theorem defaultConfidence_score (c : NalClassification) :
    Between 0.50 0.95 c.defaultConfidence := by
  cases c with
  | unknownNal headerByte => exact show Between 0.50 0.95 0.50 by decide +kernel
  | _ => decide +kernel

theorem carvedFrames_score {X : Crates} {w : Workspace} {manifest : Acquisition.AcquisitionManifest}
    {corruptedRecords : List ExtractedRecord} {frames : List CarvedFrame}
    (h : carvedFrames X w manifest corruptedRecords = .ok frames) :
    ∀ f ∈ frames, Between 0.50 0.95 f.confidence := by
  unfold carvedFrames at h
  cases himage : w.dir.resolve manifest.sourcePath with
  | none => simp [himage, fail] at h
  | some image =>
    rw [himage] at h
    intro f hf
    obtain ⟨place, length, u, -, rfl⟩ := fromPiece_of_carved (fromRecovery_ok.mp h) f hf
    exact defaultConfidence_score _

/-- The bounds of a detection. -/
structure DetectionInBounds (d : AnalyticsDbDetection) : Prop where
  motion : Between 0.0 1.0 d.motionEnergy
  relevance : Between 0.0 1.0 d.relevanceScore
  confidence : Between 0.60 0.98 d.confidence

theorem openEvidence_length {w : Workspace} {manifest : Acquisition.AcquisitionManifest}
    {bytes : Acquisition.Bytes} (h : openEvidence w manifest = .ok bytes) :
    bytes.length < 2 ^ 63 := by
  unfold openEvidence at h
  cases hfile : w.dir.resolve manifest.sourcePath with
  | none => simp [hfile, fail] at h
  | some file =>
    cases hrefusal : file.refusal with
    | some e => simp [hfile, hrefusal, fail] at h
    | none =>
      rw [hfile] at h
      simp only [hrefusal] at h
      rw [← Except.ok.inj h]
      exact file.content.size_lt

theorem analyzeRecord_score {X : Crates} {w : Workspace} {bytes : Acquisition.Bytes}
    (hsize : bytes.length < 2 ^ 63) {p : ExtractedRecord × ℕ} {found : List AnalyticsDbDetection}
    (h : analyzeRecord X w bytes p = .ok found) : ∀ d ∈ found, DetectionInBounds d := by
  unfold analyzeRecord at h
  dsimp only at h
  split_ifs at h with hempty
  · rw [← Except.ok.inj h]
    simp
  · obtain ⟨read, hread, h⟩ := bind_ok.mp h
    cases read with
    | none =>
      rw [← Except.ok.inj h]
      simp
    | some payload =>
      obtain ⟨hpayload, -⟩ := readPayload_some hread
      obtain ⟨analysis, hanalysis, h⟩ := bind_ok.mp h
      have hlen : payload.length < 2 ^ 64 := by
        rw [hpayload, List.length_take, List.length_drop]
        omega
      have hbounds := analyzeFrame_inBounds hlen hanalysis
      rw [← Except.ok.inj h]
      intro d hd
      obtain ⟨entity, hentity, rfl⟩ := List.mem_map.mp hd
      exact ⟨hbounds.motion, hbounds.relevance, hbounds.confidence entity hentity⟩

theorem detections_score {X : Crates} {w : Workspace} {manifest : Acquisition.AcquisitionManifest}
    {records : List ExtractedRecord} {found : List AnalyticsDbDetection}
    (h : detections X w manifest records = .ok found) : ∀ d ∈ found, DetectionInBounds d := by
  simp only [detections, bind_ok] at h
  obtain ⟨bytes, hbytes, lists, hlists, hflat⟩ := h
  rw [← Except.ok.inj hflat]
  intro d hd
  obtain ⟨list, hlist, hd⟩ := List.mem_flatten.mp hd
  obtain ⟨i, hi, rfl⟩ := List.mem_iff_getElem.mp hlist
  have hall := mapM_ok.mp hlists
  have hi' : i < records.zipIdx.length := by rw [hall.length_eq]; exact hi
  exact analyzeRecord_score (openEvidence_length hbytes) (hall.get hi' hi) d hd

/-- A stored score. -/
def Holds (low high : Float) (v : SqlValue) : Prop := ∃ x, v = .real x ∧ Between low high x

theorem between_unsignedZero {low high x : Float} (h : Between low high x) :
    Between low high (unsignedZero x) := by
  obtain ⟨hlow, hx⟩ := number_of_le h.1
  obtain ⟨-, hhigh⟩ := number_of_le h.2
  have hzero := (isNaN_unsignedZero x).trans hx
  constructor
  · rw [le_iff_place hlow hzero, place_unsignedZero]
    exact (le_iff_place hlow hx).mp h.1
  · rw [le_iff_place hzero hhigh, place_unsignedZero]
    exact (le_iff_place hx hhigh).mp h.2

theorem holds_ofFloat {low high x : Float} (h : Between low high x) :
    Holds low high (.ofFloat x) :=
  ⟨_, SqlValue.ofFloat_of_number h.isNaN, between_unsignedZero h⟩

/-- Every stored score is a number within its bounds. -/
structure Scored (tables : Tables) : Prop where
  frames : ∀ row ∈ tables.carvedRecords, Holds 0.50 0.95 row.confidence
  events : ∀ row ∈ tables.correlatedEvents, Holds 0.50 0.99 row.confidence
  motion : ∀ row ∈ tables.analyticsDetections, Holds 0.0 1.0 row.motionEnergy
  relevance : ∀ row ∈ tables.analyticsDetections, Holds 0.0 1.0 row.relevanceScore
  confidence : ∀ row ∈ tables.analyticsDetections, Holds 0.60 0.98 row.confidence

theorem scored_empty : Scored .empty := by constructor <;> simp [Tables.empty]

variable {tables : Tables}

theorem Scored.addFrames (h : Scored tables) (item : ℤ) {frames : List CarvedFrame}
    (hframes : ∀ f ∈ frames, Between 0.50 0.95 f.confidence) :
    Scored (withFrames tables item frames) where
  frames row hrow := by
    rcases List.mem_append.mp hrow with hrow | hrow
    · exact h.frames row hrow
    · obtain ⟨f, hf, rfl⟩ := List.mem_map.mp hrow
      exact holds_ofFloat (hframes f hf)
  events := h.events
  motion := h.motion
  relevance := h.relevance
  confidence := h.confidence

theorem Scored.addEvents (h : Scored tables) (item : ℤ) {events : List CorrelatedDbEvent}
    (hevents : ∀ e ∈ events, Between 0.50 0.99 e.confidence) :
    Scored (withEvents tables item events) where
  frames := h.frames
  events row hrow := by
    rcases List.mem_append.mp hrow with hrow | hrow
    · exact h.events row hrow
    · obtain ⟨p, hp, rfl⟩ := List.mem_map.mp hrow
      exact holds_ofFloat (hevents p.1 (List.fst_mem_of_mem_zipIdx hp))
  motion := h.motion
  relevance := h.relevance
  confidence := h.confidence

theorem Scored.addDetections (h : Scored tables) (item : ℤ) {found : List AnalyticsDbDetection}
    (hfound : ∀ d ∈ found, DetectionInBounds d) :
    Scored (withDetections tables item found) := by
  have hrows : ∀ row ∈ (withDetections tables item found).analyticsDetections,
      row ∈ tables.analyticsDetections ∨ ∃ id d, DetectionInBounds d ∧
        row = .ofDetection id item d := by
    intro row hrow
    refine (List.mem_append.mp hrow).imp id fun hrow => ?_
    obtain ⟨p, hp, rfl⟩ := List.mem_map.mp hrow
    exact ⟨_, p.1, hfound p.1 (List.fst_mem_of_mem_zipIdx hp), rfl⟩
  refine ⟨h.frames, h.events, fun row hrow => ?_, fun row hrow => ?_, fun row hrow => ?_⟩
  · rcases hrows row hrow with hold | ⟨id, d, hd, rfl⟩
    · exact h.motion row hold
    · exact holds_ofFloat hd.motion
  · rcases hrows row hrow with hold | ⟨id, d, hd, rfl⟩
    · exact h.relevance row hold
    · exact holds_ofFloat hd.relevance
  · rcases hrows row hrow with hold | ⟨id, d, hd, rfl⟩
    · exact h.confidence row hold
    · exact holds_ofFloat hd.confidence

theorem Scored.leaves {X : Crates} {w : Workspace} {stage : Stage} {tables' : Tables}
    (h : Scored tables) (hleaves : Leaves X w tables stage tables') : Scored tables' := by
  cases hleaves with
  | parsed item records _ hframes hevents hdetections =>
    constructor
    · exact hframes ▸ h.frames
    · exact hevents ▸ h.events
    · exact hdetections ▸ h.motion
    · exact hdetections ▸ h.relevance
    · exact hdetections ▸ h.confidence
  | carved m item corrupted frames hframes => exact h.addFrames item (carvedFrames_score hframes)
  | uncorrelated => exact h
  | correlated item records => exact h.addEvents item fun e he => correlatedEvents_score he
  | analyzed m item records found hfound => exact h.addDetections item (detections_score hfound)

theorem scored_run {X : Crates} {db : CaseDatabase} (h : Scored db.tables) (v : Visit) :
    Scored (v.run X db).tables := by
  unfold Visit.run Stage.run
  dsimp only
  cases hrun : v.stage.outcome X v.workspace db.path (fileOf { db with io := v.io }) with
  | none => exact h
  | some tables => exact h.leaves (@leaves_of_outcome X _ v.workspace { db with io := v.io } _ hrun)

theorem scored_visits {X : Crates} {db : CaseDatabase} (h : Scored db.tables)
    (visits : List Visit) : Scored (runVisits X db visits).tables := by
  induction visits generalizing db with
  | nil => exact h
  | cons v rest ih => exact ih (scored_run h v)

/-- Whatever stages are run on whatever evidence, and whatever fails of them, every score in
the database is a number within its bounds. -/
theorem scores_after_visits (X : Crates) (path : String) (visits : List Visit) :
    Scored (runVisits X (fresh path) visits).tables := scored_visits scored_empty visits

theorem accepted_of_numbers {α : Type} {reals : α → List Float} {outcome : Staged (List α)}
    (h : ∀ values, outcome = .ok values → ∀ v ∈ values, ∀ x ∈ reals v, x.isNaN = false) :
    accepted reals outcome.toOption = outcome.toOption.getD [] := by
  cases outcome with
  | error e => rfl
  | ok values =>
    change (if ∀ a ∈ values, ∀ x ∈ reals a, x.isNaN = false then values else []) = values
    exact if_pos (h values rfl)

theorem frameValues_numbers {X : Crates} {w : Workspace} {db : CaseDatabase}
    {values : List CarvedFrame} (h : frameValues X w db = .ok values) :
    ∀ f ∈ values, ∀ x ∈ frameReals f, x.isNaN = false := by
  intro f hf x hx
  unfold frameValues at h
  obtain ⟨m, -, h⟩ := bind_ok.mp h
  obtain ⟨corrupted, -, h⟩ := bind_ok.mp h
  rw [frameReals, List.mem_singleton] at hx
  exact hx ▸ (carvedFrames_score h f hf).isNaN

theorem eventValues_numbers {w : Workspace} {db : CaseDatabase}
    {values : List CorrelatedDbEvent} (h : eventValues w db = .ok values) :
    ∀ e ∈ values, ∀ x ∈ eventReals e, x.isNaN = false := by
  intro e he x hx
  unfold eventValues at h
  obtain ⟨records, -, h⟩ := bind_ok.mp h
  rw [← Except.ok.inj h] at he
  rw [eventReals, List.mem_singleton] at hx
  exact hx ▸ (correlatedEvents_score he).isNaN

theorem detectionValues_numbers {X : Crates} {w : Workspace} {db : CaseDatabase}
    {values : List AnalyticsDbDetection} (h : detectionValues X w db = .ok values) :
    ∀ d ∈ values, ∀ x ∈ detectionReals d, x.isNaN = false := by
  intro d hd x hx
  unfold detectionValues at h
  obtain ⟨m, -, h⟩ := bind_ok.mp h
  obtain ⟨records, -, h⟩ := bind_ok.mp h
  have hbounds := detections_score h d hd
  simp only [detectionReals, List.mem_cons, List.not_mem_nil, or_false] at hx
  rcases hx with rfl | rfl | rfl
  · exact hbounds.motion.isNaN
  · exact hbounds.relevance.isNaN
  · exact hbounds.confidence.isNaN

/-- What is computed is stored, if all of it is numbers. -/
theorem stored_of_numbers {α : Type} {db : CaseDatabase} (hsound : db.io = .sound)
    (hitems : db.tables.evidenceItems ≠ []) {reals : α → List Float} {outcome : Staged (List α)}
    {inserted : List α → Tables} (hnil : inserted [] = db.tables)
    (h : ∀ values, outcome = .ok values → ∀ v ∈ values, ∀ x ∈ reals v, x.isNaN = false) :
    (stored db reals outcome.toOption inserted).tables =
      inserted (outcome.toOption.getD []) := by
  obtain ⟨item, rest, hlist⟩ := List.exists_cons_of_ne_nil hitems
  rw [stored_of_first hsound hlist reals _ hnil, accepted_of_numbers h]

theorem correlate_stores (X : Crates) (w : Workspace) {db : CaseDatabase} (hsound : db.io = .sound)
    (hitems : db.tables.evidenceItems ≠ []) : (Stage.correlate.run X w db).tables =
      withEvents db.tables (primary db) ((eventValues w db).toOption.getD []) := by
  rw [run_correlate X w hsound]
  exact stored_of_numbers hsound hitems (by simp [withEvents]) fun _ h => eventValues_numbers h

theorem analyze_stores (X : Crates) (w : Workspace) {db : CaseDatabase} (hsound : db.io = .sound)
    (hitems : db.tables.evidenceItems ≠ []) : (Stage.analyze.run X w db).tables =
      withDetections db.tables (primary db) ((detectionValues X w db).toOption.getD []) := by
  rw [run_analyze X w hsound]
  exact stored_of_numbers hsound hitems (by simp [withDetections])
    fun _ h => detectionValues_numbers h

/-- In a sound database with an item a stage stores everything that it computes: the refusal
that a correlation would pass over, and on which the other stages would fail, never comes. -/
theorem stages_store (X : Crates) (w : Workspace) {db : CaseDatabase} (hsound : db.io = .sound)
    (hitems : db.tables.evidenceItems ≠ []) :
    (Stage.carve.run X w db).tables =
        withFrames db.tables (primary db) ((frameValues X w db).toOption.getD []) ∧
      (Stage.correlate.run X w db).tables =
        withEvents db.tables (primary db) ((eventValues w db).toOption.getD []) ∧
      (Stage.analyze.run X w db).tables =
        withDetections db.tables (primary db) ((detectionValues X w db).toOption.getD []) := by
  refine ⟨?_, correlate_stores X w hsound hitems, analyze_stores X w hsound hitems⟩
  rw [run_carve X w hsound]
  exact stored_of_numbers hsound hitems (by simp [withFrames]) fun _ h => frameValues_numbers h

/-- A database after a parse run over the frames of two cameras. -/
def parsedCameras : CaseDatabase := runVisits .sample (fresh "case.db") (fiveVisits.take 1)

/-- A frame, an event and two detections are computed, and stored. -/
theorem stages_store_cameras :
    ∃ frames events found, frames.length = 1 ∧ events.length = 1 ∧ found.length = 2 ∧
      (Stage.carve.run .sample twoCamerasWorkspace parsedCameras).tables =
        withFrames parsedCameras.tables 1 frames ∧
      (Stage.correlate.run .sample twoCamerasWorkspace parsedCameras).tables =
        withEvents parsedCameras.tables 1 events ∧
      (Stage.analyze.run .sample twoCamerasWorkspace parsedCameras).tables =
        withDetections parsedCameras.tables 1 found := by
  have hitems : parsedCameras.tables.evidenceItems ≠ [] := by decide +kernel
  have hprimary : primary parsedCameras = 1 := by decide +kernel
  have hstored := stages_store .sample twoCamerasWorkspace (rfl : parsedCameras.io = .sound) hitems
  rw [hprimary] at hstored
  exact ⟨_, _, _, by decide +kernel, by decide +kernel, by decide +kernel, hstored⟩

end Dvrft.Scores
