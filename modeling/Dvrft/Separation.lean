import Dvrft.Keyframes
import Dvrft.SequenceGaps

/-!
What demultiplexing keeps. The streams do not depend on the order of the records, and
the stream of a channel not on the records of others. The video frames of a run of
blocks are all there when none of them names channel zero, which the interpreter
gives to blocks that are no frames.
-/

namespace Dvrft.Separation

open Gaps Errors Machine Platform Grammar Interpreter Demux Streams SequenceGaps Keyframes

/-- No record carries the largest number. -/
def BelowLimit (records : List ExtractedRecord) : Prop :=
  ∀ r ∈ records, r.sequenceNum.toNat < 2 ^ 32 - 1

instance (records : List ExtractedRecord) : Decidable (BelowLimit records) :=
  inferInstanceAs (Decidable (∀ r ∈ records, _))

/-- The stream of a channel, by its numbers alone as far as the gaps go. -/
def plainStream (records : List ExtractedRecord) (c : UInt32) : DemuxedStream :=
  streamOf records c ((gaps ((numbers records c).map UInt32.toNat)).map UInt32.ofNat)

theorem demuxChannel_below (X : Crates) {records : List ExtractedRecord}
    (hbelow : BelowLimit records) (c : UInt32) :
    demuxChannel X records c = .ok (plainStream records c) := by
  have hfits : ∀ q ∈ (numbers records c).dropLast, q.toNat + 1 < 2 ^ 32 := by
    intro q hq
    obtain ⟨r, hr, -, rfl⟩ := mem_numbers.mp (List.mem_of_mem_dropLast hq)
    have hlt := hbelow r hr
    omega
  have hgaps := sequenceGaps_eq X _ hfits
  refine demuxChannel_ok.mpr ⟨_, hgaps, ?_⟩
  rw [plainStream, numbers, List.map_map]
  rfl

theorem demuxRecords_below (X : Crates) {records : List ExtractedRecord}
    (hbelow : BelowLimit records) :
    demuxRecords X records = .ok ((channels records).map (plainStream records)) := by
  refine mapM_ok.mpr ?_
  rw [List.forall₂_map_right_iff, List.forall₂_same]
  intro c _
  exact demuxChannel_below X hbelow c

theorem mem_plainStreams {records : List ExtractedRecord} {s : DemuxedStream} :
    s ∈ (channels records).map (plainStream records) ↔
      s.channelId ∈ channels records ∧ s = plainStream records s.channelId := by
  rw [List.mem_map]
  constructor
  · intro h
    obtain ⟨c, hc, rfl⟩ := h
    exact ⟨hc, rfl⟩
  · intro h
    exact ⟨s.channelId, h.1, h.2.symm⟩

theorem chRecords_perm {records records' : List ExtractedRecord} (hperm : records'.Perm records)
    (c : UInt32) : (chRecords records' c).Perm (chRecords records c) := by
  have hsorted := List.perm_insertionSort precedes (records.filter (·.channelId == c))
  have hsorted' := List.perm_insertionSort precedes (records'.filter (·.channelId == c))
  exact hsorted'.trans ((hperm.filter _).trans hsorted.symm)

/-- Sorted numbers are the same in every order of the records. -/
theorem numbers_perm {records records' : List ExtractedRecord} (hperm : records'.Perm records)
    (c : UInt32) : numbers records' c = numbers records c := by
  refine ((chRecords_perm hperm c).map _).eq_of_pairwise ?_ (numbers_sorted records' c)
    (numbers_sorted records c)
  intro a b _ _ hab hba
  exact UInt32.le_antisymm hab hba

theorem min?_perm {xs ys : List UInt64} (hperm : xs.Perm ys) : xs.min? = ys.min? := by
  cases hmin : ys.min? with
  | none =>
    rw [List.min?_eq_none_iff] at hmin ⊢
    rwa [hmin, List.perm_nil] at hperm
  | some a =>
    rw [List.min?_eq_some_iff] at hmin ⊢
    exact ⟨hperm.mem_iff.mpr hmin.1, fun b hb => hmin.2 b (hperm.mem_iff.mp hb)⟩

theorem max_eq_ite (a b : UInt64) : max a b = if a ≤ b then b else a := rfl

instance lawfulOrderMax : Std.LawfulOrderMax UInt64 :=
  .of_max_le_iff
    (fun a b c => by
      rw [max_eq_ite]
      simp only [UInt64.le_iff_toNat_le]
      split_ifs <;> omega)
    (fun a b => by
      rw [max_eq_ite]
      split_ifs <;> simp)

theorem max?_perm {xs ys : List UInt64} (hperm : xs.Perm ys) : xs.max? = ys.max? := by
  cases hmax : ys.max? with
  | none =>
    rw [List.max?_eq_none_iff] at hmax ⊢
    rwa [hmax, List.perm_nil] at hperm
  | some a =>
    rw [List.max?_eq_some_iff] at hmax ⊢
    exact ⟨hperm.mem_iff.mpr hmax.1, fun b hb => hmax.2 b (hperm.mem_iff.mp hb)⟩

/-- Two streams of one channel, up to the order of their records. -/
structure Alike (s s' : DemuxedStream) : Prop where
  totalBlocks : s'.totalBlocks = s.totalBlocks
  minTimestamp : s'.minTimestamp = s.minTimestamp
  maxTimestamp : s'.maxTimestamp = s.maxTimestamp
  sequenceGaps : s'.sequenceGaps = s.sequenceGaps
  records : s'.records.Perm s.records

theorem plainStream_alike {records records' : List ExtractedRecord}
    (hperm : records'.Perm records) (c : UInt32) :
    Alike (plainStream records c) (plainStream records' c) where
  totalBlocks := (chRecords_perm hperm c).length_eq
  minTimestamp := congrArg (Option.getD · 0) (min?_perm ((chRecords_perm hperm c).map _))
  maxTimestamp := congrArg (Option.getD · 0) (max?_perm ((chRecords_perm hperm c).map _))
  sequenceGaps := by
    dsimp only [plainStream, streamOf]
    rw [numbers_perm hperm]
  records := chRecords_perm hperm c

theorem mem_channels_iff {records : List ExtractedRecord} {c : UInt32} :
    c ∈ channels records ↔ 0 < c ∧ ∃ r, r ∈ chRecords records c := by
  simp only [mem_channels, mem_chRecords]

/-- What the streams of a list have in them: the records of their channels, each as often as
it is listed, and every record above channel zero. Each stream is sorted and its channel's
only one; another order of the records changes them only by that of theirs, and records of
other channels do not change a stream at all. -/
structure Separates (X : Crates) (records : List ExtractedRecord)
    (streams : List DemuxedStream) : Prop where
  distinct : (streams.map (·.channelId)).Nodup
  content : ∀ s ∈ streams, s.records.Perm (records.filter (·.channelId == s.channelId))
  complete : ∀ r ∈ records, 0 < r.channelId → ∃! s, s ∈ streams ∧ r ∈ s.records
  sorted : ∀ s ∈ streams, s.records.Pairwise precedes
  reordered : ∀ records', records'.Perm records →
    ∃ streams', demuxRecords X records' = .ok streams' ∧
      (∀ c, c ∈ streams'.map (·.channelId) ↔ c ∈ streams.map (·.channelId)) ∧
      ∀ s ∈ streams, ∀ s' ∈ streams', s'.channelId = s.channelId → Alike s s'
  separate : ∀ c others, BelowLimit others →
    others.filter (·.channelId == c) = records.filter (·.channelId == c) →
    ∃ streams', demuxRecords X others = .ok streams' ∧
      ∀ s, s.channelId = c → (s ∈ streams' ↔ s ∈ streams)

theorem demuxRecords_separates (X : Crates) {records : List ExtractedRecord}
    (hbelow : BelowLimit records) :
    ∃ streams, demuxRecords X records = .ok streams ∧ Separates X records streams := by
  have hids : ∀ l : List ExtractedRecord,
      ((channels l).map (plainStream l)).map (·.channelId) = channels l := by
    intro l
    rw [List.map_map]
    exact List.map_id _
  have hstreams := demuxRecords_below X hbelow
  refine ⟨_, hstreams, ?_, ?_, ?_, ?_, ?_, ?_⟩
  · rw [hids]
    exact nodup_eraseDups _
  · intro s hs
    rw [(mem_stream hstreams hs).2.1]
    exact List.perm_insertionSort precedes _
  · intro r hr hpos
    exact existsUnique_stream hstreams hr hpos
  · intro s hs
    rw [(mem_plainStreams.mp hs).2]
    exact chRecords_sorted records s.channelId
  · intro records' hperm
    have hbelow' : BelowLimit records' := fun r hr => hbelow r (hperm.mem_iff.mp hr)
    refine ⟨_, demuxRecords_below X hbelow', ?_, ?_⟩
    · intro c
      rw [hids, hids, mem_channels, mem_channels]
      simp only [hperm.mem_iff]
    · intro s hs s' hs' hchannel
      rw [(mem_plainStreams.mp hs).2, (mem_plainStreams.mp hs').2, hchannel]
      exact plainStream_alike hperm s.channelId
  · intro c others hothers hfilter
    have hsame : chRecords others c = chRecords records c := by
      rw [chRecords, chRecords, hfilter]
    refine ⟨_, demuxRecords_below X hothers, ?_⟩
    intro s hchannel
    subst hchannel
    rw [mem_plainStreams, mem_plainStreams, mem_channels_iff, mem_channels_iff, hsame,
      plainStream, plainStream, numbers, numbers, streamOf, streamOf, hsame]

/-- Two channels, the second one's records out of order and twice the same. -/
def twoChannels : List ExtractedRecord :=
  [{ plainRecord 0 0 0 0 false "video_frame" "" with channelId := 2, sequenceNum := 9 },
    { plainRecord 1 0 0 0 false "video_frame" "" with channelId := 1, sequenceNum := 4 },
    { plainRecord 2 0 0 0 false "video_frame" "" with channelId := 2, sequenceNum := 7 },
    { plainRecord 2 0 0 0 false "video_frame" "" with channelId := 2, sequenceNum := 7 }]

example : (demuxRecords .sample twoChannels).map
    (List.map fun s => (s.channelId, s.totalBlocks, s.sequenceGaps)) =
      .ok [(2, 3, [8]), (1, 1, [])] := rfl

theorem demuxRecords_separates_twoChannels :
    ∃ streams, demuxRecords .sample twoChannels = .ok streams ∧
      Separates .sample twoChannels streams :=
  demuxRecords_separates .sample (by decide)

/-- What the interpreter is given of a block. -/
structure BlockInput where
  blockIndex : ℕ
  byteOffset : ℕ
  blockBytes : List UInt8
  blake3Hash : String

def interpretAll (X : Crates) (grammar : GrammarFile) (blocks : List BlockInput) :
    Parsed (List ExtractedRecord) :=
  blocks.mapM fun b => interpretBlock X grammar b.blockIndex b.byteOffset b.blockBytes b.blake3Hash

/-- A block that is no video frame is given channel zero. -/
theorem channelId_of_not_videoFrame {X : Crates} {grammar : GrammarFile}
    {blockIndex byteOffset : ℕ} {blockBytes : List UInt8} {blake3Hash : String}
    {r : ExtractedRecord}
    (h : interpretBlock X grammar blockIndex byteOffset blockBytes blake3Hash = .ok r)
    (htype : r.blockType ≠ "video_frame") : r.channelId = 0 := by
  obtain ⟨-, _, -, ⟨-, hvideo⟩ | ⟨-, _, _, _, _, -, rfl⟩⟩ := interpretBlock_cases h
  · obtain ⟨_, _, -, -, rfl⟩ := parseVideoBlock_cases hvideo
    exact absurd rfl htype
  · rfl

/-- Every video frame is in one stream, and the streams have no other blocks. -/
def FramesKept (records : List ExtractedRecord) (streams : List DemuxedStream) : Prop :=
  (∀ r ∈ records, r.blockType = "video_frame" → ∃! s, s ∈ streams ∧ r ∈ s.records) ∧
    (streams.map (·.totalBlocks)).sum = records.countP fun r => r.blockType == "video_frame"

/-- The video frames are kept exactly when none of them names channel zero and the
streams can be made at all. -/
theorem videoFrames_kept_iff {X : Crates} {grammar : GrammarFile} {blocks : List BlockInput}
    {records : List ExtractedRecord} (h : interpretAll X grammar blocks = .ok records) :
    (∃ streams, demuxRecords X records = .ok streams ∧ FramesKept records streams) ↔
      (∀ r ∈ records, r.blockType = "video_frame" → 0 < r.channelId) ∧
        (X.build = .release ∨ ∀ c, 0 < c → atLimit records c ≤ 1) := by
  rw [← demuxRecords_isOk_iff]
  constructor
  · intro hkept
    obtain ⟨streams, hstreams, hone, -⟩ := hkept
    refine ⟨?_, streams, hstreams⟩
    intro r hr htype
    obtain ⟨s, ⟨hs, hin⟩, -⟩ := hone r hr htype
    obtain ⟨hpos, hrecords, -⟩ := mem_stream hstreams hs
    rw [hrecords, mem_chRecords] at hin
    rwa [hin.2]
  · intro hkept
    obtain ⟨hpositive, streams, hstreams⟩ := hkept
    refine ⟨streams, hstreams, ?_, ?_⟩
    · intro r hr htype
      exact existsUnique_stream hstreams hr (hpositive r hr htype)
    · rw [sum_totalBlocks hstreams]
      apply List.countP_congr
      intro r hr
      rw [decide_eq_true_eq, beq_iff_eq]
      constructor
      · intro hpos
        by_contra htype
        obtain ⟨b, -, hb⟩ := mem_of_mapM_ok h r hr
        rw [channelId_of_not_videoFrame hb htype] at hpos
        exact absurd hpos (by decide)
      · exact hpositive r hr

/-- One block, all of whose header fields are zero but its flags. -/
theorem videoFrames_kept_iff_dahua :
    ∃ records, interpretAll .sample dahuaV1 [⟨0, 0, dahuaFlags 0x01 0xFD, ""⟩] = .ok records ∧
      ((∃ streams, demuxRecords .sample records = .ok streams ∧ FramesKept records streams) ↔
        (∀ r ∈ records, r.blockType = "video_frame" → 0 < r.channelId) ∧
          (Crates.sample.build = .release ∨ ∀ c, 0 < c → atLimit records c ≤ 1)) := by
  obtain ⟨records, hrun⟩ : ∃ records,
      interpretAll .sample dahuaV1 [⟨0, 0, dahuaFlags 0x01 0xFD, ""⟩] = .ok records := ⟨_, rfl⟩
  exact ⟨records, hrun, videoFrames_kept_iff hrun⟩

/-- A frame of the Dahua grammar whose channel bytes are zero. -/
theorem channel_zero_frame_lost :
    ∃ r, interpretAll .sample dahuaV1 [⟨0, 0, dahuaFlags 0x01 0xFD, ""⟩] = .ok [r] ∧
      r.blockType = "video_frame" ∧ r.channelId = 0 ∧ demuxRecords .sample [r] = .ok [] :=
  ⟨_, rfl, rfl, rfl, rfl⟩

end Dvrft.Separation
