import Dvrft.Correlation

/-!
The merged timeline does not depend on the order in which the records arrive, as
long as no two of them are the same block.
-/

namespace Dvrft.Canonical

open Correlation

variable {records records' : List RecordInput}

theorem blockIndex_eq_of_sortKey_eq {a b : RecordInput} (h : sortKey a = sortKey b) :
    a.blockIndex = b.blockIndex :=
  congrArg (fun key : ℕ ×ₗ ℕ ×ₗ ℕ ×ₗ ℕ => (ofLex (ofLex (ofLex key).2).2).2) h

/-- Two blocks that sort alike are one. -/
theorem eq_of_precedes (hdistinct : (records.map RecordInput.blockIndex).Nodup) {a b : RecordInput}
    (ha : a ∈ records) (hb : b ∈ records) (hab : precedes a b) (hba : precedes b a) : a = b :=
  List.inj_on_of_nodup_map hdistinct ha hb (blockIndex_eq_of_sortKey_eq (le_antisymm hab hba))

theorem insertionSort_perm_eq (hdistinct : (records.map RecordInput.blockIndex).Nodup)
    (hperm : records'.Perm records) :
    records'.insertionSort precedes = records.insertionSort precedes := by
  have hsorted := (List.perm_insertionSort precedes records').trans
    (hperm.trans (List.perm_insertionSort precedes records).symm)
  refine hsorted.eq_of_pairwise ?_ (List.pairwise_insertionSort precedes records')
    (List.pairwise_insertionSort precedes records)
  intro a b ha hb hab hba
  exact eq_of_precedes hdistinct (hperm.mem_iff.mp ((List.mem_insertionSort precedes).mp ha))
    ((List.mem_insertionSort precedes).mp hb) hab hba

theorem mergeTimeline_perm (hdistinct : (records.map RecordInput.blockIndex).Nodup)
    (hperm : records'.Perm records) : mergeTimeline records' = mergeTimeline records := by
  rw [mergeTimeline, mergeTimeline, insertionSort_perm_eq hdistinct hperm]

theorem map_sequenceOrder_mergeTimeline (records : List RecordInput) :
    (mergeTimeline records).map TimelineEvent.sequenceOrder = List.range' 1 records.length := by
  have hplaces : (records.insertionSort precedes).zipIdx.map Prod.snd =
      List.range' 0 records.length := by
    rw [List.zipIdx_map_snd, List.length_insertionSort]
  rw [mergeTimeline, List.map_map]
  calc ((records.insertionSort precedes).zipIdx.map
        (TimelineEvent.sequenceOrder ∘ fun p => ⟨p.1, p.2 + 1⟩))
      = ((records.insertionSort precedes).zipIdx.map Prod.snd).map (· + 1) := by
        rw [List.map_map]
        rfl
    _ = List.range' 1 records.length := by
        simp only [hplaces, Nat.add_comm _ 1, List.map_add_range']

/-- Each record once, with what it carries. -/
theorem mergeTimeline_perm_records (records : List RecordInput) :
    ((mergeTimeline records).map TimelineEvent.toRecordInput).Perm records := by
  rw [map_mergeTimeline]
  exact List.perm_insertionSort precedes records

theorem mergeTimeline_pairwise (records : List RecordInput) :
    (mergeTimeline records).Pairwise fun a b => precedes a.toRecordInput b.toRecordInput := by
  have hsorted := List.pairwise_insertionSort precedes records
  rwa [← map_mergeTimeline, List.pairwise_map] at hsorted

/-- Records of distinct blocks have one timeline, whatever their order, and its
transitions are theirs. -/
theorem mergeTimeline_canonical (hdistinct : (records.map RecordInput.blockIndex).Nodup) :
    ((mergeTimeline records).map TimelineEvent.toRecordInput).Perm records ∧
    ((mergeTimeline records).Pairwise fun a b => precedes a.toRecordInput b.toRecordInput) ∧
    (mergeTimeline records).map TimelineEvent.sequenceOrder = List.range' 1 records.length ∧
    ∀ records', records'.Perm records → mergeTimeline records' = mergeTimeline records ∧
      ∀ windowSecs blackoutGapSecs,
        (generateCorrelationReport records' windowSecs blackoutGapSecs).transitions =
          (generateCorrelationReport records windowSecs blackoutGapSecs).transitions := by
  refine ⟨mergeTimeline_perm_records records, mergeTimeline_pairwise records,
    map_sequenceOrder_mergeTimeline records, ?_⟩
  intro records' hperm
  have htimeline := mergeTimeline_perm hdistinct hperm
  refine ⟨htimeline, fun windowSecs _ => ?_⟩
  exact congrArg (fun timeline => detectTransitions timeline windowSecs) htimeline

def channelRecord (blockIndex : ℕ) (channelId : UInt32) (timestamp : UInt64) : RecordInput where
  blockIndex := blockIndex
  byteOffset := 4096 * blockIndex
  channelId := channelId
  timestamp := timestamp
  normalizedTimestamp := ""
  sequenceNum := 1
  isKeyframe := true
  isScrambled := false
  descrambled := false
  isCorrupted := false

theorem mergeTimeline_canonical_swapped :
    mergeTimeline [channelRecord 2 1 100, channelRecord 1 2 100] =
      mergeTimeline [channelRecord 1 2 100, channelRecord 2 1 100] :=
  ((mergeTimeline_canonical
    (by decide : ([channelRecord 1 2 100, channelRecord 2 1 100].map RecordInput.blockIndex).Nodup)
    ).2.2.2 _ (List.Perm.swap _ _ _)).1

end Dvrft.Canonical
