import Dvrft.Demux
import Mathlib.Algebra.BigOperators.Group.List.Lemmas

/-!
The streams of a demultiplexed list. There is one for each channel that occurs, and it
is a function of that channel's records alone. Records of channel zero are in none, so
a video frame is in a stream exactly when its header names another channel.
-/

namespace Dvrft.Streams

open Gaps Errors Machine Platform Interpreter Demux

/-- The records of a channel as its stream lists them. -/
def chRecords (records : List ExtractedRecord) (c : UInt32) : List ExtractedRecord :=
  (records.filter (·.channelId == c)).insertionSort precedes

/-- The stream of a channel, but for its gaps a matter of its records. -/
def streamOf (records : List ExtractedRecord) (c : UInt32) (gaps : List UInt32) :
    DemuxedStream where
  channelId := c
  totalBlocks := (chRecords records c).length
  minTimestamp := ((chRecords records c).map (·.timestamp)).min?.getD 0
  maxTimestamp := ((chRecords records c).map (·.timestamp)).max?.getD 0
  sequenceGaps := gaps
  records := chRecords records c

theorem demuxChannel_ok {X : Crates} {records : List ExtractedRecord} {c : UInt32}
    {s : DemuxedStream} : demuxChannel X records c = .ok s ↔
      ∃ gaps, sequenceGaps X (chRecords records c) = .ok gaps ∧ s = streamOf records c gaps := by
  unfold demuxChannel
  dsimp only
  rw [bind_ok]
  constructor
  · intro h
    obtain ⟨gaps, hgaps, hs⟩ := h
    exact ⟨gaps, hgaps, (Except.ok.inj hs).symm⟩
  · intro h
    obtain ⟨gaps, hgaps, rfl⟩ := h
    exact ⟨gaps, hgaps, rfl⟩

theorem mem_chRecords {records : List ExtractedRecord} {c : UInt32} {r : ExtractedRecord} :
    r ∈ chRecords records c ↔ r ∈ records ∧ r.channelId = c := by
  rw [chRecords, List.mem_insertionSort, List.mem_filter, beq_iff_eq]

theorem chRecords_sorted (records : List ExtractedRecord) (c : UInt32) :
    (chRecords records c).Pairwise precedes := List.pairwise_insertionSort precedes _

theorem length_chRecords (records : List ExtractedRecord) (c : UInt32) :
    (chRecords records c).length = (records.map (·.channelId)).count c := by
  rw [chRecords, List.length_insertionSort, ← List.countP_eq_length_filter, List.count,
    List.countP_map]
  rfl

theorem nodup_eraseDups {α : Type} [BEq α] [LawfulBEq α] (xs : List α) : xs.eraseDups.Nodup := by
  induction hn : xs.length using Nat.strongRecOn generalizing xs with
  | ind n ih =>
    cases xs with
    | nil => exact .nil
    | cons x xs =>
      have hlength := List.length_filter_le (fun b => !b == x) xs
      rw [List.eraseDups_cons]
      refine List.nodup_cons.mpr ⟨?_, ih _ ?_ _ rfl⟩
      · rw [List.mem_eraseDups]
        simp
      · rw [← hn, List.length_cons]
        omega

theorem mem_channels {records : List ExtractedRecord} {c : UInt32} :
    c ∈ channels records ↔ 0 < c ∧ ∃ r ∈ records, r.channelId = c := by
  rw [channels, List.mem_eraseDups, List.mem_filter, List.mem_map, decide_eq_true_eq, and_comm]

/-- A run of the demultiplexer makes the stream of each channel. -/
theorem demuxRecords_ok {X : Crates} {records : List ExtractedRecord}
    {streams : List DemuxedStream} (h : demuxRecords X records = .ok streams) :
    streams.map (·.channelId) = channels records ∧
      ∀ s ∈ streams, demuxChannel X records s.channelId = .ok s := by
  have hall := mapM_ok.mp h
  clear h
  generalize channels records = cs at hall
  induction hall with
  | nil => exact ⟨rfl, by simp⟩
  | cons hs _ ih =>
    obtain ⟨gaps, hgaps, rfl⟩ := demuxChannel_ok.mp hs
    refine ⟨congrArg (List.cons _) ih.1, ?_⟩
    exact List.forall_mem_cons.mpr ⟨hs, ih.2⟩

theorem demuxRecords_isOk {X : Crates} {records : List ExtractedRecord}
    (h : ∀ c, 0 < c → ∃ s, demuxChannel X records c = .ok s) :
    ∃ streams, demuxRecords X records = .ok streams :=
  mapM_isOk fun c hc => h c (mem_channels.mp hc).1

/-- Every channel above zero that occurs has its stream. -/
theorem exists_stream {X : Crates} {records : List ExtractedRecord}
    {streams : List DemuxedStream} (h : demuxRecords X records = .ok streams)
    {r : ExtractedRecord} (hr : r ∈ records) (hpos : 0 < r.channelId) :
    ∃ s ∈ streams, s.channelId = r.channelId := by
  have hchannel : r.channelId ∈ channels records := mem_channels.mpr ⟨hpos, r, hr, rfl⟩
  rw [← (demuxRecords_ok h).1] at hchannel
  exact List.mem_map.mp hchannel

theorem stream_eq {X : Crates} {records : List ExtractedRecord} {streams : List DemuxedStream}
    (h : demuxRecords X records = .ok streams) {s s' : DemuxedStream} (hs : s ∈ streams)
    (hs' : s' ∈ streams) (hchannel : s.channelId = s'.channelId) : s = s' := by
  have hsame := (demuxRecords_ok h).2 s hs
  rw [hchannel, (demuxRecords_ok h).2 s' hs'] at hsame
  exact (Except.ok.inj hsame).symm

/-- A stream has the records of its channel, which is above zero. -/
theorem mem_stream {X : Crates} {records : List ExtractedRecord} {streams : List DemuxedStream}
    (h : demuxRecords X records = .ok streams) {s : DemuxedStream} (hs : s ∈ streams) :
    0 < s.channelId ∧ s.records = chRecords records s.channelId ∧
      s.totalBlocks = (chRecords records s.channelId).length := by
  have hchannel : s.channelId ∈ channels records := by
    rw [← (demuxRecords_ok h).1]
    exact List.mem_map_of_mem hs
  obtain ⟨gaps, -, heq⟩ := demuxChannel_ok.mp ((demuxRecords_ok h).2 s hs)
  refine ⟨(mem_channels.mp hchannel).1, ?_, ?_⟩
  · rw [heq]
    rfl
  · rw [heq]
    rfl

/-- A record above channel zero is in one stream. -/
theorem existsUnique_stream {X : Crates} {records : List ExtractedRecord}
    {streams : List DemuxedStream} (h : demuxRecords X records = .ok streams)
    {r : ExtractedRecord} (hr : r ∈ records) (hpos : 0 < r.channelId) :
    ∃! s, s ∈ streams ∧ r ∈ s.records := by
  obtain ⟨s, hs, hchannel⟩ := exists_stream h hr hpos
  have hin : r ∈ s.records := by
    rw [(mem_stream h hs).2.1, mem_chRecords]
    exact ⟨hr, hchannel.symm⟩
  refine ⟨s, ⟨hs, hin⟩, ?_⟩
  intro s' hs'
  have hin' := hs'.2
  rw [(mem_stream h hs'.1).2.1, mem_chRecords] at hin'
  exact stream_eq h hs'.1 hs (hin'.2.symm.trans hchannel.symm)

/-- The streams have as many blocks together as there are records above channel zero. -/
theorem sum_totalBlocks {X : Crates} {records : List ExtractedRecord}
    {streams : List DemuxedStream} (h : demuxRecords X records = .ok streams) :
    (streams.map (·.totalBlocks)).sum = records.countP fun r => decide (0 < r.channelId) := by
  have hcounts : streams.map (·.totalBlocks) =
      (channels records).map fun c => (records.map (·.channelId)).count c := by
    rw [← (demuxRecords_ok h).1, List.map_map]
    apply List.map_congr_left
    intro s hs
    rw [(mem_stream h hs).2.2, length_chRecords]
    rfl
  have hchannels : (channels records).Perm
      ((records.map (·.channelId)).dedup.filter fun c => decide (0 < c)) := by
    have hnodup : (channels records).Nodup := nodup_eraseDups _
    refine (List.perm_ext_iff_of_nodup hnodup ((List.nodup_dedup _).filter _)).mpr ?_
    intro c
    rw [mem_channels, List.mem_filter, List.mem_dedup, List.mem_map, decide_eq_true_eq, and_comm]
  rw [hcounts, (hchannels.map _).sum_eq,
    List.sum_map_count_dedup_filter_eq_countP, List.countP_map]
  rfl

end Dvrft.Streams
