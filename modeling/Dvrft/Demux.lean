import Dvrft.Gaps
import Dvrft.Interpreter
import Mathlib.Data.List.Sort

/-!
Demultiplexing: the records of each channel, in the order of their sequence
numbers, with the numbers that are missing between them. Channel zero is no
channel.
-/

namespace Dvrft.Demux

open Gaps Errors Machine Platform Interpreter

structure DemuxedStream where
  channelId : UInt32
  totalBlocks : ℕ
  minTimestamp : UInt64
  maxTimestamp : UInt64
  sequenceGaps : List UInt32
  records : List ExtractedRecord
  deriving DecidableEq, Repr

/-- The sort key `(sequence_num, timestamp)`. -/
def precedes (a b : ExtractedRecord) : Prop :=
  a.sequenceNum < b.sequenceNum ∨ (a.sequenceNum = b.sequenceNum ∧ a.timestamp ≤ b.timestamp)

instance : DecidableRel precedes := fun a b => by unfold precedes; infer_instance

def sortKey (r : ExtractedRecord) : ℕ ×ₗ ℕ := toLex (r.sequenceNum.toNat, r.timestamp.toNat)

theorem precedes_iff (a b : ExtractedRecord) : precedes a b ↔ sortKey a ≤ sortKey b := by
  simp only [precedes, sortKey, Prod.Lex.toLex_le_toLex, UInt32.lt_iff_toNat_lt,
    UInt32.toNat_inj, UInt64.le_iff_toNat_le]

instance : Std.Total precedes :=
  ⟨fun a b => (le_total (sortKey a) (sortKey b)).imp (precedes_iff a b).mpr (precedes_iff b a).mpr⟩

instance : IsTrans ExtractedRecord precedes :=
  ⟨fun a b c hab hbc => (precedes_iff a c).mpr
    (((precedes_iff a b).mp hab).trans ((precedes_iff b c).mp hbc))⟩

/-- The numbers missing after `prev`. The successor of the largest number leaves
32 bits. -/
def gapsAfter (X : Crates) : UInt32 → List ExtractedRecord → Parsed (List UInt32)
  | _, [] => .ok []
  | prev, r :: rest => do
    let next ← X.build.fitU32 (prev.toNat + 1)
    let missing := (List.range' next (r.sequenceNum.toNat - next)).map UInt32.ofNat
    let later ← gapsAfter X r.sequenceNum rest
    .ok (missing ++ later)

def sequenceGaps (X : Crates) : List ExtractedRecord → Parsed (List UInt32)
  | [] => .ok []
  | r :: rest => gapsAfter X r.sequenceNum rest

def demuxChannel (X : Crates) (records : List ExtractedRecord) (channelId : UInt32) :
    Parsed DemuxedStream := do
  let chRecords := (records.filter (·.channelId == channelId)).insertionSort precedes
  let gaps ← sequenceGaps X chRecords
  .ok
    { channelId := channelId
      totalBlocks := chRecords.length
      minTimestamp := (chRecords.map (·.timestamp)).min?.getD 0
      maxTimestamp := (chRecords.map (·.timestamp)).max?.getD 0
      sequenceGaps := gaps
      records := chRecords }

/-- The gaps of a stream are those of its sequence numbers, as long as none of them but
the last is the largest 32-bit number. -/
theorem gapsAfter_eq (X : Crates) {prev : UInt32} {rs : List ExtractedRecord}
    (hfit : ∀ q ∈ (prev :: rs.map (·.sequenceNum)).dropLast, q.toNat + 1 < 2 ^ 32) :
    gapsAfter X prev rs = .ok
      ((gapsFrom prev.toNat (rs.map (·.sequenceNum.toNat))).map UInt32.ofNat) := by
  induction rs generalizing prev with
  | nil => rfl
  | cons r rest ih =>
    rw [List.map_cons, List.dropLast_cons_cons, List.forall_mem_cons] at hfit
    have hnext : (X.build.fitU32 (prev.toNat + 1) : Parsed ℕ) = .ok (prev.toNat + 1) :=
      if_pos hfit.1
    have hrest := ih hfit.2
    simp only [gapsAfter, hnext, hrest, ok_bind, List.map_cons, gapsFrom, List.map_append]

theorem sequenceGaps_eq (X : Crates) (rs : List ExtractedRecord)
    (hfit : ∀ q ∈ (rs.map (·.sequenceNum)).dropLast, q.toNat + 1 < 2 ^ 32) :
    sequenceGaps X rs = .ok ((gaps (rs.map (·.sequenceNum.toNat))).map UInt32.ofNat) := by
  cases rs with
  | nil => rfl
  | cons r rest => exact gapsAfter_eq X hfit

def channels (records : List ExtractedRecord) : List UInt32 :=
  ((records.map (·.channelId)).filter (0 < ·)).eraseDups

/-- One stream a channel; the map is listed in the order in which channels appear. -/
def demuxRecords (X : Crates) (records : List ExtractedRecord) : Parsed (List DemuxedStream) :=
  (channels records).mapM (demuxChannel X records)

/-- A channel's stream reports the numbers that lie between those of its records
and that none of them has. -/
theorem demuxChannel_gaps (X : Crates) (records : List ExtractedRecord) (c : UInt32)
    (hfit : ∀ r ∈ records, r.channelId = c → r.sequenceNum.toNat + 1 < 2 ^ 32) :
    ∃ s xs, demuxChannel X records c = .ok s ∧ s.channelId = c ∧
      s.sequenceGaps = (gaps xs).map UInt32.ofNat ∧ xs.Pairwise (· ≤ ·) ∧
      ∀ k, k ∈ xs ↔ ∃ r ∈ records, r.channelId = c ∧ r.sequenceNum.toNat = k := by
  have hmem : ∀ r, r ∈ (records.filter (·.channelId == c)).insertionSort precedes ↔
      r ∈ records ∧ r.channelId = c := by
    intro r
    rw [List.mem_insertionSort, List.mem_filter, beq_iff_eq]
  have hnumbers : ∀ q ∈ (((records.filter (·.channelId == c)).insertionSort precedes).map
      (·.sequenceNum)).dropLast, q.toNat + 1 < 2 ^ 32 := by
    intro q hq
    obtain ⟨r, hr, rfl⟩ := List.mem_map.mp ((List.dropLast_sublist _).mem hq)
    exact hfit r ((hmem r).mp hr).1 ((hmem r).mp hr).2
  have hgaps := sequenceGaps_eq X _ hnumbers
  refine ⟨_, ((records.filter (·.channelId == c)).insertionSort precedes).map
    (·.sequenceNum.toNat), by rw [demuxChannel, hgaps, ok_bind], rfl, rfl, ?_, fun k => ?_⟩
  · refine List.pairwise_map.mpr ((List.pairwise_insertionSort precedes _).imp fun h => ?_)
    rcases h with hlt | ⟨heq, -⟩
    · exact Nat.le_of_lt hlt
    · rw [heq]
  · simp only [List.mem_map, hmem, and_assoc]

end Dvrft.Demux
