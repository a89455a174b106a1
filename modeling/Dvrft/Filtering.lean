import Dvrft.Keyframes
import Dvrft.Pages
import Dvrft.Retrieval
import Dvrft.Selection

/-!
The filter of a record query against what it is asked for. The query compares times as
signed integers and passes an offset on only with a limit. Of the rows that the signed
and the unsigned reading of a filter admit, one contains the other, so the two answers
are a list and a part of it, cut to a page.
-/

namespace Dvrft.Filtering

open Errors Machine Sqlite Interpreter Database Retrieval Pages Selection Keyframes

/-- The conditions of a filter that no time enters. -/
def hasMarks (filter : RecordFilter) (r : ExtractedRecord) : Bool :=
  filter.channelId.all (fun c => r.channelId == c) &&
  (!filter.keyframesOnly || r.flags &&& 1 != 0) &&
  (!filter.scrambledOnly || r.isScrambled) &&
  (!filter.descrambledOnly || r.descrambled) &&
  (!filter.corruptedOnly || r.isCorrupted)

/-- The record's time lies between the bounds that are set, by a reading of the words. -/
def inWindow (le : UInt64 → UInt64 → Bool) (filter : RecordFilter) (r : ExtractedRecord) : Bool :=
  filter.startTimestamp.all (fun t => le t r.timestamp) &&
  filter.endTimestamp.all (fun t => le r.timestamp t)

def unsignedLe (a b : UInt64) : Bool := decide (a ≤ b)

def wants (filter : RecordFilter) (r : ExtractedRecord) : Bool :=
  hasMarks filter r && inWindow unsignedLe filter r

/-- The records that satisfy the filter, sorted, without the first few, up to the limit. -/
def specified (filter : RecordFilter) (records : List ExtractedRecord) : List ExtractedRecord :=
  let rest := (sorted (records.filter (wants filter))).drop (filter.offset.getD 0)
  match filter.limit with
  | none => rest
  | some limit => rest.take limit

def signedLe (a b : UInt64) : Bool := decide (asI64 a.toNat ≤ asI64 b.toNat)

/-- The `WHERE` clause on a record. -/
def takes (filter : RecordFilter) (r : ExtractedRecord) : Bool :=
  hasMarks filter r && inWindow signedLe filter r

def answered (filter : RecordFilter) (records : List ExtractedRecord) : List ExtractedRecord :=
  let selected := sorted (records.filter (takes filter))
  match filter.limit with
  | none => selected
  | some limit => (selected.drop (filter.offset.getD 0)).take limit

theorem holds_isLE (a b : ℤ) :
    (SqlValue.integer a).holds Ordering.isLE (.integer b) = decide (a ≤ b) := by
  rw [Bool.eq_iff_iff, decide_eq_true_eq]
  exact Int.isLE_compare

theorem holds_isGE (a b : ℤ) :
    (SqlValue.integer a).holds Ordering.isGE (.integer b) = decide (b ≤ a) := by
  rw [Bool.eq_iff_iff, decide_eq_true_eq]
  exact Int.isGE_compare

theorem holds_isEq (a b : ℤ) :
    (SqlValue.integer a).holds Ordering.isEq (.integer b) = decide (a = b) := by
  have hcompare : (compare a b).isEq ↔ a = b := by simp
  rw [Bool.eq_iff_iff, decide_eq_true_eq]
  exact hcompare

theorem holds_ofBool (b : Bool) :
    (SqlValue.ofBool b).holds Ordering.isEq (.integer 1) = b := by
  rw [SqlValue.ofBool, holds_isEq]
  cases b <;> rfl

theorem selects_ofRecord (filter : RecordFilter) (evidenceId : ℤ) (r : ExtractedRecord) :
    filter.selects (.ofRecord evidenceId r) = takes filter r := by
  have hchannel : ∀ c : UInt32, decide ((r.channelId.toNat : ℤ) = c.toNat) =
      (r.channelId == c) := by
    intro c
    rw [Bool.eq_iff_iff, decide_eq_true_eq, beq_iff_eq, Int.ofNat_inj, UInt32.toNat_inj]
  have hkey : ((r.flags.toNat : ℤ) % 2 != 0) = (r.flags &&& 1 != 0) := by
    rw [odd_flags, Bool.eq_iff_iff, bne_iff_ne, beq_iff_eq]
    omega
  simp only [RecordFilter.selects, ExtractedRow.ofRecord, SqlValue.castInteger, holds_isLE,
    holds_isGE, holds_isEq, holds_ofBool, hchannel, hkey]
  rw [takes, hasMarks, inWindow]
  simp only [signedLe, Bool.and_assoc]
  ac_rfl

/-- The query of a stored extraction. -/
theorem queryRecords_ofRecords {db : CaseDatabase} (hsound : db.io = .sound) {evidenceId : ℤ}
    {records : List ExtractedRecord}
    (hrows : db.tables.extractedRecords = records.map (ExtractedRow.ofRecord evidenceId))
    (hindex : ∀ r ∈ records, r.blockIndex < 2 ^ 63) (hwords : ∀ r ∈ records, FitsWords r)
    {filter : RecordFilter} (hlimit : ∀ n ∈ filter.limit, n < 2 ^ 63)
    (hoffset : ∀ o ∈ filter.offset, o < 2 ^ 63) :
    db.queryRecords filter = .ok (answered filter records) := by
  have hselected : orderBy ExtractedRow.blockIndex
      (db.tables.extractedRecords.filter filter.selects) =
        (sorted (records.filter (takes filter))).map (ExtractedRow.ofRecord evidenceId) := by
    have htakes : filter.selects ∘ ExtractedRow.ofRecord evidenceId = takes filter :=
      funext (selects_ofRecord filter evidenceId)
    rw [hrows, List.filter_map, htakes]
    exact orderBy_ofRecord evidenceId fun r hr => hindex r (List.mem_of_mem_filter hr)
  have hpage : page filter.limit filter.offset
      ((sorted (records.filter (takes filter))).map (ExtractedRow.ofRecord evidenceId)) =
        .ok ((answered filter records).map (ExtractedRow.ofRecord evidenceId)) := by
    unfold page answered
    cases hset : filter.limit with
    | none => rfl
    | some limit =>
      have hn := hlimit limit hset
      have ho : filter.offset.getD 0 < 2 ^ 63 := by
        cases hset : filter.offset with
        | none => decide
        | some o => exact hoffset o hset
      dsimp only
      rw [if_neg (by omega), ← List.map_drop, ← List.map_take]
  have hstored : ∀ r ∈ answered filter records, r ∈ records := by
    intro r hr
    have hselected : r ∈ sorted (records.filter (takes filter)) := by
      unfold answered at hr
      cases hset : filter.limit with
      | none => rwa [hset] at hr
      | some limit =>
        rw [hset] at hr
        exact List.mem_of_mem_drop (List.mem_of_mem_take hr)
    exact List.mem_of_mem_filter (mem_sorted.mp hselected)
  rw [CaseDatabase.queryRecords, hselected, hpage]
  exact fetch_ofRecord hsound evidenceId (fun r hr => hindex r (hstored r hr))
    fun r hr => hwords r (hstored r hr)

/-- Read as signed, the words from the sign bit on come before the others. -/
theorem signedLe_iff (a b : UInt64) : signedLe a b ↔
    (a.toNat < 2 ^ 63 ∧ b.toNat < 2 ^ 63 ∧ a.toNat ≤ b.toNat) ∨
      (2 ^ 63 ≤ a.toNat ∧ (b.toNat < 2 ^ 63 ∨ a.toNat ≤ b.toNat)) := by
  have ha := a.toNat_lt
  have hb := b.toNat_lt
  rw [signedLe, decide_eq_true_eq]
  rcases asI64_cases ha with ⟨hlowA, heqA⟩ | ⟨hhighA, heqA⟩
  · rcases asI64_cases hb with ⟨hlowB, heqB⟩ | ⟨hhighB, heqB⟩
    · rw [heqA, heqB]
      omega
    · rw [heqA, heqB]
      omega
  · rcases asI64_cases hb with ⟨hlowB, heqB⟩ | ⟨hhighB, heqB⟩
    · rw [heqA, heqB]
      omega
    · rw [heqA, heqB]
      omega

theorem unsignedLe_iff (a b : UInt64) : unsignedLe a b ↔ a.toNat ≤ b.toNat := by
  rw [unsignedLe, decide_eq_true_eq, UInt64.le_iff_toNat_le]

/-- One reading of the window contains the other. -/
theorem inWindow_comparable (filter : RecordFilter) :
    (∀ r, inWindow signedLe filter r → inWindow unsignedLe filter r) ∨
      ∀ r, inWindow unsignedLe filter r → inWindow signedLe filter r := by
  unfold inWindow
  simp only [Bool.and_eq_true]
  cases filter.startTimestamp with
  | none =>
    cases filter.endTimestamp with
    | none => exact .inl fun r h => h
    | some stop =>
      simp only [Option.all_none, Option.all_some, true_and, signedLe_iff, unsignedLe_iff]
      by_cases hstop : stop.toNat < 2 ^ 63
      · right
        intro r h
        omega
      · left
        intro r h
        omega
  | some start =>
    cases filter.endTimestamp with
    | none =>
      simp only [Option.all_none, Option.all_some, and_true, signedLe_iff, unsignedLe_iff]
      by_cases hstart : start.toNat < 2 ^ 63
      · left
        intro r h
        omega
      · right
        intro r h
        omega
    | some stop =>
      simp only [Option.all_some, signedLe_iff, unsignedLe_iff]
      by_cases hcross : 2 ^ 63 ≤ start.toNat ∧ stop.toNat < 2 ^ 63
      · right
        intro r h
        omega
      · left
        intro r h
        omega

theorem takes_comparable (filter : RecordFilter) :
    (∀ r, takes filter r → wants filter r) ∨ ∀ r, wants filter r → takes filter r := by
  simp only [takes, wants, Bool.and_eq_true]
  rcases inWindow_comparable filter with hcontained | hcontains
  · left
    intro r h
    exact ⟨h.1, hcontained r h.2⟩
  · right
    intro r h
    exact ⟨h.1, hcontains r h.2⟩

/-- The two readings of the filter differ on a record: it has the marks that are asked
for, and its time or a bound is above the signed range. -/
def misjudges (filter : RecordFilter) (r : ExtractedRecord) : Bool :=
  wants filter r != takes filter r

/-- The records that either reading admits. -/
def admitted (filter : RecordFilter) (records : List ExtractedRecord) : List ExtractedRecord :=
  sorted (records.filter fun r => wants filter r || takes filter r)

/-- Without a limit nothing is dropped, so the first records, as many as the offset
says, have to be missing already. With a limit the page has to be free of misjudged
records, and what was misjudged before it must not have moved it. -/
def AnswersRight (filter : RecordFilter) (records : List ExtractedRecord) : Prop :=
  let offset := filter.offset.getD 0
  let skipped := (admitted filter records).take offset
  let rest := (admitted filter records).drop offset
  match filter.limit with
  | none => (∀ r ∈ skipped, wants filter r ∧ misjudges filter r) ∧
      ∀ r ∈ rest, misjudges filter r = false
  | some limit => limit = 0 ∨ rest = [] ∨
      ((∀ r ∈ rest.take limit, misjudges filter r = false) ∧
        ((rest.filter fun r => !misjudges filter r).drop
            (skipped.countP (misjudges filter))).take limit =
          (rest.filter fun r => !misjudges filter r).take limit)

theorem sorted_filter (p : ExtractedRecord → Bool) (records : List ExtractedRecord) :
    sorted (records.filter p) = (sorted records).filter p :=
  (filter_insertionSort p records).symm

/-- What a reading within the admitted records leaves of them. -/
theorem sorted_filter_eq {filter : RecordFilter} {p : ExtractedRecord → Bool}
    (records : List ExtractedRecord) (hp : ∀ r, p r → wants filter r || takes filter r) :
    sorted (records.filter p) = (admitted filter records).filter p := by
  rw [admitted, sorted_filter, sorted_filter, List.filter_filter]
  apply List.filter_congr
  intro r _
  cases hpr : p r with
  | false => rfl
  | true =>
    rw [hp r hpr]
    rfl

/-- The admitted records are those of the wider reading; the narrower one leaves out
what is misjudged. -/
theorem sorted_filter_wider {filter : RecordFilter} {wide narrow : ExtractedRecord → Bool}
    (records : List ExtractedRecord)
    (hadmitted : ∀ r, (wants filter r || takes filter r) = (wide r || narrow r))
    (hmisjudged : ∀ r, misjudges filter r = (wide r != narrow r))
    (hnarrow : ∀ r, narrow r → wide r) :
    sorted (records.filter wide) = admitted filter records ∧
      (∀ r ∈ admitted filter records, wide r) ∧
      sorted (records.filter narrow) =
        (admitted filter records).filter fun r => !misjudges filter r := by
  have hwide : ∀ r, (wide r || narrow r) = wide r := by
    intro r
    cases hr : wide r with
    | true => rfl
    | false => exact Bool.eq_false_iff.mpr fun h => by simp [hnarrow r h] at hr
  have hall : sorted (records.filter wide) = admitted filter records := by
    rw [admitted]
    congr 1
    apply List.filter_congr
    intro r _
    rw [hadmitted, hwide]
  have hin : ∀ r ∈ admitted filter records, wide r := by
    intro r hr
    rw [← hall, mem_sorted] at hr
    exact (List.mem_filter.mp hr).2
  refine ⟨hall, hin, ?_⟩
  rw [sorted_filter_eq records fun r hr => by rw [hadmitted, hwide]; exact hnarrow r hr]
  apply List.filter_congr
  intro r hr
  rw [hmisjudged, hin r hr]
  cases narrow r <;> rfl

theorem answered_eq_specified_iff (filter : RecordFilter) (records : List ExtractedRecord) :
    answered filter records = specified filter records ↔ AnswersRight filter records := by
  unfold answered specified AnswersRight
  rcases takes_comparable filter with hnarrow | hnarrow
  · obtain ⟨hall, hin, hpart⟩ := sorted_filter_wider records (fun r => rfl) (fun r => rfl) hnarrow
    rw [hall, hpart]
    cases filter.limit with
    | none =>
      dsimp only
      rw [filter_not_eq_drop_iff]
      refine and_congr_left fun _ => forall₂_congr fun r hr => ?_
      exact (and_iff_right (hin r (List.mem_of_mem_take hr))).symm
    | some limit =>
      dsimp only
      rw [page_filter_not_eq_iff]
  · obtain ⟨hall, hin, hpart⟩ := sorted_filter_wider records (fun r => Bool.or_comm _ _)
      (fun r => bne_comm) hnarrow
    rw [hall, hpart]
    cases filter.limit with
    | none =>
      dsimp only
      rw [eq_drop_filter_not_iff]
      -- what is wanted is taken, so no record is missing
      have hnone : (∀ r ∈ (admitted filter records).take (filter.offset.getD 0),
          wants filter r ∧ misjudges filter r) ↔
            (admitted filter records).take (filter.offset.getD 0) = [] := by
        rw [List.eq_nil_iff_forall_not_mem]
        refine forall₂_congr fun r _ => iff_false_intro fun hmissing => ?_
        obtain ⟨hwanted, hmisjudged⟩ := hmissing
        rw [misjudges, hwanted, hnarrow r hwanted] at hmisjudged
        exact absurd hmisjudged (by decide)
      rw [hnone]
      refine and_congr_right fun hempty => ?_
      have hsplit := List.take_append_drop (filter.offset.getD 0) (admitted filter records)
      rw [hempty, List.nil_append] at hsplit
      rw [hsplit]
    | some limit =>
      dsimp only
      rw [eq_comm, page_filter_not_eq_iff]

/-- Of distinct records, those up to the end of the page decide. -/
theorem answersRight_limit_iff_of_nodup {filter : RecordFilter} {records : List ExtractedRecord}
    {limit : ℕ} (hlimit : filter.limit = some limit) (hdistinct : records.Nodup) :
    AnswersRight filter records ↔
      limit = 0 ∨ (admitted filter records).drop (filter.offset.getD 0) = [] ∨
        ∀ r ∈ (admitted filter records).take (filter.offset.getD 0 + limit),
          misjudges filter r = false := by
  have hadmitted : (admitted filter records).Nodup :=
    (List.perm_insertionSort inOrder _).nodup_iff.mpr (hdistinct.filter _)
  unfold AnswersRight
  rw [hlimit]
  generalize admitted filter records = seen at hadmitted
  generalize filter.offset.getD 0 = offset
  dsimp only
  rcases Nat.eq_zero_or_pos limit with hzero | hpos
  · exact iff_of_true (.inl hzero) (.inl hzero)
  apply or_congr_right
  cases hrest : seen.drop offset with
  | nil => exact iff_of_true (.inl rfl) (.inl rfl)
  | cons r rest =>
    apply or_congr_right
    have hpage : seen.take (offset + limit) = seen.take offset ++ (r :: rest).take limit := by
      rw [List.take_add, hrest]
    have hkept : ((r :: rest).filter fun r => !misjudges filter r).Nodup := by
      rw [← hrest]
      exact (hadmitted.sublist (List.drop_sublist _ _)).filter _
    rw [take_drop_eq_take_iff _ hkept hpos, hpage, List.forall_mem_append, List.countP_eq_zero,
      List.filter_eq_nil_iff, and_comm]
    apply and_congr_left
    intro hright
    have hhead : misjudges filter r = false :=
      hright r (List.mem_take_iff_getElem.mpr ⟨0, by rw [List.length_cons]; omega, rfl⟩)
    constructor
    · intro h
      rcases h with h | h
      · intro x hx
        exact Bool.eq_false_iff.mpr (h x hx)
      · exact absurd (by rw [hhead]; rfl) (h r List.mem_cons_self)
    · intro h
      left
      intro x hx
      exact Bool.eq_false_iff.mp (h x hx)

/-- A query answers as its filter says exactly when nothing on its page is misjudged,
nothing before the page has moved it, and no offset is set without a limit. -/
theorem queryRecords_eq_specified_iff {db : CaseDatabase} (hsound : db.io = .sound)
    {evidenceId : ℤ} {records : List ExtractedRecord}
    (hrows : db.tables.extractedRecords = records.map (ExtractedRow.ofRecord evidenceId))
    (hindex : ∀ r ∈ records, r.blockIndex < 2 ^ 63) (hwords : ∀ r ∈ records, FitsWords r)
    {filter : RecordFilter} (hlimit : ∀ n ∈ filter.limit, n < 2 ^ 63)
    (hoffset : ∀ o ∈ filter.offset, o < 2 ^ 63) :
    db.queryRecords filter = .ok (specified filter records) ↔ AnswersRight filter records := by
  rw [queryRecords_ofRecords hsound hrows hindex hwords hlimit hoffset, Except.ok.injEq,
    answered_eq_specified_iff]

/-- A case of one late record. -/
def lateCase : CaseDatabase where
  path := "case.db"
  tables := { Tables.empty with
    cases := [⟨1, "case"⟩]
    caseSequence := 1
    evidenceItems := [⟨1, 1, .text "synthetic-v1", .integer 1⟩]
    extractedRecords := [lateRecord 0].map (ExtractedRow.ofRecord 1) }
  io := .sound

example : (⟨"case.db", .empty, .sound⟩ : CaseDatabase).storeCaseExtraction "case" "synthetic-v1" 1
    [lateRecord 0] = .ok (lateCase, 1, 1) := rfl

theorem lateRecord_stored : ∀ r ∈ [lateRecord 0], r.blockIndex < 2 ^ 63 ∧ FitsWords r := by
  intro r hr
  rw [List.mem_singleton.mp hr]
  exact ⟨by decide, lateRecord_fitsWords 0⟩

def shuffledRecords : List ExtractedRecord := [lateRecord 2, lateRecord 0, lateRecord 1]

/-- The second of three records that are stored out of order. -/
theorem queryRecords_eq_specified_iff_paged :
    CaseDatabase.queryRecords ⟨"case.db", { lateCase.tables with
        extractedRecords := shuffledRecords.map (ExtractedRow.ofRecord 1) }, .sound⟩
      { RecordFilter.default with limit := some 1, offset := some 1 } = .ok [lateRecord 1] := by
  have hfits : ∀ r ∈ shuffledRecords, r.blockIndex < 2 ^ 63 ∧ FitsWords r := by
    intro r hr
    obtain ⟨i, hi, rfl⟩ : ∃ i < 3, r = lateRecord i := by
      simp only [shuffledRecords, List.mem_cons, List.not_mem_nil, or_false] at hr
      rcases hr with rfl | rfl | rfl
      · exact ⟨2, by decide, rfl⟩
      · exact ⟨0, by decide, rfl⟩
      · exact ⟨1, by decide, rfl⟩
    exact ⟨hi.trans (by decide), lateRecord_fitsWords i⟩
  have hone : ∀ n ∈ some 1, n < 2 ^ 63 := by simp
  have hright : AnswersRight { RecordFilter.default with limit := some 1, offset := some 1 }
      shuffledRecords := .inr (.inr (by decide +kernel))
  refine ((queryRecords_eq_specified_iff rfl rfl (fun r hr => (hfits r hr).1)
    (fun r hr => (hfits r hr).2) hone hone).mpr hright).trans ?_
  exact congrArg Except.ok (by decide +kernel)

/-- An offset of one without a limit: the record that is to be dropped is answered. A
lower bound of one second: the record is later and is not answered. -/
theorem queryRecords_late :
    lateCase.queryRecords { RecordFilter.default with offset := some 1 } =
        .ok [lateRecord 0] ∧
      specified { RecordFilter.default with offset := some 1 } [lateRecord 0] = [] ∧
      lateCase.queryRecords { RecordFilter.default with startTimestamp := some 1 } = .ok [] ∧
      specified { RecordFilter.default with startTimestamp := some 1 } [lateRecord 0] =
        [lateRecord 0] := by
  have hanswer : ∀ filter : RecordFilter, (∀ n ∈ filter.limit, n < 2 ^ 63) →
      (∀ o ∈ filter.offset, o < 2 ^ 63) →
      lateCase.queryRecords filter = .ok (answered filter [lateRecord 0]) := by
    intro filter
    exact queryRecords_ofRecords rfl rfl (fun r hr => (lateRecord_stored r hr).1)
      fun r hr => (lateRecord_stored r hr).2
  have hnone : ∀ n ∈ (none : Option ℕ), n < 2 ^ 63 := by simp
  have hone : ∀ n ∈ some 1, n < 2 ^ 63 := by simp
  refine ⟨?_, rfl, ?_, by decide +kernel⟩
  · refine (hanswer _ hnone hone).trans ?_
    exact congrArg Except.ok (by decide +kernel)
  · refine (hanswer _ hnone hnone).trans ?_
    exact congrArg Except.ok (by decide +kernel)

end Dvrft.Filtering
