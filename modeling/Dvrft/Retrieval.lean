import Dvrft.Database

/-!
Records stored and read again. Their block indices are kept as signed integers, so
below the signed limit the order of the stored rows is the order of the records, and
every other column comes back as it was.
-/

namespace Dvrft.Retrieval

open Errors Machine Sqlite Interpreter Database

/-- Offsets and lengths are machine words. -/
structure FitsWords (r : ExtractedRecord) : Prop where
  byteOffset : r.byteOffset < 2 ^ 64
  payloadOffset : r.payloadOffset < 2 ^ 64
  payloadLen : r.payloadLen < 2 ^ 64

def inOrder (a b : ExtractedRecord) : Prop := a.blockIndex ≤ b.blockIndex

instance : DecidableRel inOrder :=
  fun a b => inferInstanceAs (Decidable (a.blockIndex ≤ b.blockIndex))

instance : Std.Total inOrder := ⟨fun a b => Nat.le_total a.blockIndex b.blockIndex⟩

instance : IsTrans ExtractedRecord inOrder := ⟨fun _ _ _ => Nat.le_trans⟩

def sorted (records : List ExtractedRecord) : List ExtractedRecord :=
  records.insertionSort inOrder

theorem mem_sorted {records : List ExtractedRecord} {r : ExtractedRecord} :
    r ∈ sorted records ↔ r ∈ records := List.mem_insertionSort inOrder

theorem wrap64_eq {r : ExtractedRecord} (hindex : r.blockIndex < 2 ^ 63) (hwords : FitsWords r) :
    wrap64 r = r := by
  have hwide : r.blockIndex < 2 ^ 64 := hindex.trans (by decide)
  unfold wrap64
  rw [Nat.mod_eq_of_lt hwide, Nat.mod_eq_of_lt hwords.byteOffset,
    Nat.mod_eq_of_lt hwords.payloadOffset, Nat.mod_eq_of_lt hwords.payloadLen]

/-- Rows are ordered as their records are. -/
theorem orderBy_ofRecord (evidenceId : ℤ) {records : List ExtractedRecord}
    (hindex : ∀ r ∈ records, r.blockIndex < 2 ^ 63) :
    orderBy ExtractedRow.blockIndex (records.map (ExtractedRow.ofRecord evidenceId)) =
      (sorted records).map (ExtractedRow.ofRecord evidenceId) := by
  refine (List.map_insertionSort _ _ _ _ fun a ha b hb => ?_).symm
  have hcompare : (ExtractedRow.ofRecord evidenceId a).blockIndex.compareValues
      (ExtractedRow.ofRecord evidenceId b).blockIndex =
        compare (a.blockIndex : ℤ) (b.blockIndex : ℤ) := by
    rw [← asI64_of_lt (hindex a ha), ← asI64_of_lt (hindex b hb)]
    rfl
  rw [hcompare, Int.isLE_compare, Int.ofNat_le]
  rfl

/-- Rows of records are fetched as the records. -/
theorem fetch_ofRecord {db : CaseDatabase} (hsound : db.io = .sound) (evidenceId : ℤ)
    {records : List ExtractedRecord} (hindex : ∀ r ∈ records, r.blockIndex < 2 ^ 63)
    (hwords : ∀ r ∈ records, FitsWords r) :
    db.fetch .extractedRecords ExtractedRow.read
      (.ok (records.map (ExtractedRow.ofRecord evidenceId))) = .ok records := by
  refine CaseDatabase.fetch_ok.mpr ⟨by rw [hsound]; rfl, fun _ _ => by rw [hsound]; rfl, ?_⟩
  rw [List.forall₂_map_left_iff, List.forall₂_same]
  intro r hr
  rw [read_ofRecord, wrap64_eq (hindex r hr) (hwords r hr)]

/-- An extraction that is stored in a database without records and queried again gives
the records it was made of, in the order of their blocks. -/
theorem queryAllRecords_storeCaseExtraction {db : CaseDatabase} (hsound : db.io = .sound)
    (hempty : db.tables.extractedRecords = []) (caseName grammarId : String)
    (validationTier : ℕ) {records : List ExtractedRecord}
    (hindex : ∀ r ∈ records, r.blockIndex < 2 ^ 63)
    (hdistinct : (records.map ExtractedRecord.blockIndex).Nodup)
    (hwords : ∀ r ∈ records, FitsWords r) :
    ∃ db' caseId evidenceId out,
      db.storeCaseExtraction caseName grammarId validationTier records =
        .ok (db', caseId, evidenceId) ∧
      db'.queryAllRecords = .ok out ∧ out.Perm records ∧
      out.Pairwise fun a b => a.blockIndex < b.blockIndex := by
  obtain ⟨db', caseId, evidenceId, hstore, -, hio⟩ :=
    CaseDatabase.storeCaseExtraction_isOk caseName grammarId validationTier records
      (CaseDatabase.writing_sound hsound)
  obtain ⟨-, -, hrows, -⟩ := CaseDatabase.storeCaseExtraction_ok hstore
  rw [hempty, List.nil_append] at hrows
  refine ⟨db', caseId, evidenceId, sorted records, hstore, ?_, List.perm_insertionSort _ _, ?_⟩
  · rw [CaseDatabase.queryAllRecords_eq, hrows, orderBy_ofRecord evidenceId hindex]
    apply fetch_ofRecord (hio.trans hsound) evidenceId
    · intro r hr
      exact hindex r (mem_sorted.mp hr)
    · intro r hr
      exact hwords r (mem_sorted.mp hr)
  · have hnodup : ((sorted records).map ExtractedRecord.blockIndex).Nodup :=
      ((List.perm_insertionSort inOrder records).map _).nodup_iff.mpr hdistinct
    have hle := List.pairwise_insertionSort inOrder records
    refine (hle.and (List.pairwise_map.mp hnodup)).imp ?_
    intro a b h
    exact Nat.lt_of_le_of_ne h.1 h.2

/-- A video frame whose time and offset are above the signed range. -/
def lateRecord (blockIndex : ℕ) : ExtractedRecord where
  blockIndex := blockIndex
  byteOffset := 2 ^ 64 - 1
  channelId := 1
  timestamp := 0x8000000000000000
  normalizedTimestamp := "1970-01-01T00:00:00Z"
  sequenceNum := 7
  payloadOffset := 24
  payloadLen := 8
  flags := 1
  isScrambled := false
  isCorrupted := false
  blockType := "video_frame"
  blake3Hash := ""
  descrambled := false
  descrambledBlake3Hash := none

theorem lateRecord_fitsWords (blockIndex : ℕ) : FitsWords (lateRecord blockIndex) := by
  constructor <;> simp [lateRecord]

theorem queryAllRecords_storeCaseExtraction_late :
    ∃ db' caseId evidenceId out,
      (⟨"case.db", .empty, .sound⟩ : CaseDatabase).storeCaseExtraction "case" "synthetic-v1" 1
        [lateRecord 1, lateRecord 0] = .ok (db', caseId, evidenceId) ∧
      db'.queryAllRecords = .ok out ∧ out.Perm [lateRecord 1, lateRecord 0] ∧
      out.Pairwise fun a b => a.blockIndex < b.blockIndex := by
  apply queryAllRecords_storeCaseExtraction rfl rfl
  · intro r hr
    simp only [List.mem_cons, List.not_mem_nil, or_false] at hr
    rcases hr with rfl | rfl <;> decide
  · decide
  · intro r hr
    simp only [List.mem_cons, List.not_mem_nil, or_false] at hr
    rcases hr with rfl | rfl <;> exact lateRecord_fitsWords _

end Dvrft.Retrieval
