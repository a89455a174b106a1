import Dvrft.Streams

/-!
When the reported gaps of a channel are its gaps. The scan takes the successor of every
sequence number but the last. The largest number has none in 32 bits, so a second
record that carries it stops a checked build, and an unchecked one starts over at zero.
-/

namespace Dvrft.SequenceGaps

open Gaps Errors Machine Platform Interpreter Demux Streams

/-- `u32::MAX`. -/
def largest : UInt32 := 0xFFFFFFFF

theorem toNat_largest : largest.toNat = 2 ^ 32 - 1 := rfl

/-- How many records of a channel carry the largest number. -/
def atLimit (records : List ExtractedRecord) (c : UInt32) : ℕ :=
  records.countP fun r => r.channelId == c && r.sequenceNum == largest

/-- The numbers between those of a channel that it does not have, in ascending order. -/
structure IsGaps (records : List ExtractedRecord) (c : UInt32) (gaps : List UInt32) : Prop where
  ascending : gaps.Pairwise (· < ·)
  mem : ∀ k, k ∈ gaps ↔ (∃ r ∈ records, r.channelId = c ∧ r.sequenceNum < k) ∧
    (∃ r ∈ records, r.channelId = c ∧ k < r.sequenceNum) ∧
    ∀ r ∈ records, r.channelId = c → r.sequenceNum ≠ k

def numbers (records : List ExtractedRecord) (c : UInt32) : List UInt32 :=
  (chRecords records c).map (·.sequenceNum)

theorem numbers_sorted (records : List ExtractedRecord) (c : UInt32) :
    (numbers records c).Pairwise (· ≤ ·) := by
  refine List.pairwise_map.mpr ((chRecords_sorted records c).imp fun h => ?_)
  rcases h with hlt | ⟨heq, -⟩
  · exact UInt32.le_of_lt hlt
  · exact UInt32.le_of_eq heq

theorem mem_numbers {records : List ExtractedRecord} {c k : UInt32} :
    k ∈ numbers records c ↔ ∃ r ∈ records, r.channelId = c ∧ r.sequenceNum = k := by
  simp only [numbers, List.mem_map, mem_chRecords, and_assoc]

theorem count_largest (records : List ExtractedRecord) (c : UInt32) :
    (numbers records c).count largest = atLimit records c := by
  have hperm := ((List.perm_insertionSort precedes (records.filter (·.channelId == c))).map
    (·.sequenceNum)).count_eq largest
  rw [numbers, chRecords, hperm, List.count, List.countP_map, List.countP_filter, atLimit]
  congr 1
  funext r
  rw [Bool.and_comm]
  rfl

theorem succ_lt_iff (q : UInt32) : q.toNat + 1 < 2 ^ 32 ↔ q ≠ largest := by
  have hlt := q.toNat_lt
  rw [ne_eq, ← UInt32.toNat_inj, toNat_largest]
  omega

/-- In a sorted list only the last member is the largest number exactly when no two are. -/
theorem dropLast_fits_iff {xs : List UInt32} (hsorted : xs.Pairwise (· ≤ ·)) :
    (∀ q ∈ xs.dropLast, q.toNat + 1 < 2 ^ 32) ↔ xs.count largest ≤ 1 := by
  simp only [succ_lt_iff]
  rcases List.eq_nil_or_concat xs with rfl | ⟨front, last, rfl⟩
  · simp
  rw [List.concat_eq_append] at hsorted ⊢
  rw [List.dropLast_append_of_ne_nil (by simp), List.dropLast_singleton, List.append_nil,
    List.count_append]
  have hlast := List.count_le_length (l := [last]) (a := largest)
  rw [List.length_singleton] at hlast
  constructor
  · intro h
    have hnone : front.count largest = 0 :=
      List.count_eq_zero.mpr fun hmem => h largest hmem rfl
    omega
  · intro h q hq heq
    subst heq
    -- whatever follows the largest number is the largest number again
    have hle : largest ≤ last := (List.pairwise_append.mp hsorted).2.2 largest hq last (by simp)
    have hsame : last = largest := by
      rw [UInt32.le_iff_toNat_le] at hle
      have hlt := last.toNat_lt
      have hlargest := toNat_largest
      rw [← UInt32.toNat_inj]
      omega
    have hpos := List.count_pos_iff.mpr hq
    rw [hsame, List.count_singleton_self] at h
    omega

theorem numbers_fit_iff (records : List ExtractedRecord) (c : UInt32) :
    (∀ q ∈ (numbers records c).dropLast, q.toNat + 1 < 2 ^ 32) ↔ atLimit records c ≤ 1 := by
  rw [dropLast_fits_iff (numbers_sorted records c), count_largest]

/-- The successor of the largest number. -/
theorem fitU32_succ_largest (build : Build) :
    (build.fitU32 (largest.toNat + 1) : Parsed ℕ) =
      if build = .release then .ok 0 else panicked := by
  cases build <;> rfl

/-- An unchecked build always gets to the end. -/
theorem gapsAfter_release {X : Crates} (hbuild : X.build = .release) (prev : UInt32)
    (rs : List ExtractedRecord) : ∃ out, gapsAfter X prev rs = .ok out := by
  induction rs generalizing prev with
  | nil => exact ⟨[], rfl⟩
  | cons r rest ih =>
    obtain ⟨later, hlater⟩ := ih r.sequenceNum
    have hnext : ∃ next, (X.build.fitU32 (prev.toNat + 1) : Parsed ℕ) = .ok next := by
      unfold Build.fitU32
      rw [hbuild]
      split_ifs
      · exact ⟨_, rfl⟩
      · exact ⟨_, rfl⟩
    obtain ⟨next, hnext⟩ := hnext
    rw [gapsAfter, hnext, ok_bind]
    dsimp only
    rw [hlater, ok_bind]
    exact ⟨_, rfl⟩

/-- A number behind the largest one: a checked build panics, an unchecked one reports
zero as missing. -/
theorem gapsAfter_overflow (X : Crates) {prev : UInt32} {rs : List ExtractedRecord}
    (hsorted : (prev :: rs.map (·.sequenceNum)).Pairwise (· ≤ ·))
    (hlimit : largest ∈ (prev :: rs.map (·.sequenceNum)).dropLast) :
    (X.build = .debug ∧ gapsAfter X prev rs = panicked) ∨
      (X.build = .release ∧ ∃ out, gapsAfter X prev rs = .ok out ∧ 0 ∈ out) := by
  induction rs generalizing prev with
  | nil => simp at hlimit
  | cons r rest ih =>
    rw [List.map_cons, List.dropLast_cons_cons, List.mem_cons] at hlimit
    rw [List.map_cons] at hsorted
    obtain ⟨hprev, hrest⟩ := List.pairwise_cons.mp hsorted
    rw [gapsAfter]
    by_cases hfirst : prev = largest
    · subst hfirst
      have hle := UInt32.le_iff_toNat_le.mp (hprev r.sequenceNum (by simp))
      have hlargest := toNat_largest
      rw [fitU32_succ_largest]
      cases hbuild : X.build with
      | debug => exact .inl ⟨rfl, rfl⟩
      | release =>
        obtain ⟨later, hlater⟩ := gapsAfter_release hbuild r.sequenceNum rest
        rw [if_pos rfl, ok_bind]
        dsimp only
        rw [hlater, ok_bind]
        refine .inr ⟨rfl, _, rfl, List.mem_append_left _ ?_⟩
        exact List.mem_map.mpr ⟨0, List.mem_range'_1.mpr ⟨Nat.le_refl 0, by omega⟩, rfl⟩
    · have hnext : (X.build.fitU32 (prev.toNat + 1) : Parsed ℕ) = .ok (prev.toNat + 1) :=
        if_pos ((succ_lt_iff prev).mpr hfirst)
      have hlater := hlimit.resolve_left fun heq => hfirst heq.symm
      rw [hnext, ok_bind]
      dsimp only
      rcases ih hrest hlater with ⟨hbuild, hpanic⟩ | ⟨hbuild, out, hout, hzero⟩
      · rw [hpanic]
        exact .inl ⟨hbuild, rfl⟩
      · rw [hout, ok_bind]
        exact .inr ⟨hbuild, _, rfl, List.mem_append_right _ hzero⟩

/-- The scan of a channel with a second record at the limit. -/
theorem sequenceGaps_overflow (X : Crates) {records : List ExtractedRecord} {c : UInt32}
    (hlimit : ¬ atLimit records c ≤ 1) :
    (X.build = .debug ∧ sequenceGaps X (chRecords records c) = panicked) ∨
      (X.build = .release ∧
        ∃ out, sequenceGaps X (chRecords records c) = .ok out ∧ 0 ∈ out) := by
  have hlargest : largest ∈ (numbers records c).dropLast := by
    by_contra hnone
    refine hlimit ((numbers_fit_iff records c).mp fun q hq => (succ_lt_iff q).mpr ?_)
    intro heq
    exact hnone (heq ▸ hq)
  have hsorted := numbers_sorted records c
  unfold numbers at hlargest hsorted
  cases hrecords : chRecords records c with
  | nil => simp [hrecords] at hlargest
  | cons r rest =>
    rw [hrecords, List.map_cons] at hlargest hsorted
    exact gapsAfter_overflow X hsorted hlargest

/-- A stream is made in an unchecked build, and where no two records are at the limit. -/
theorem demuxChannel_isOk_iff (X : Crates) (records : List ExtractedRecord) (c : UInt32) :
    (∃ s, demuxChannel X records c = .ok s) ↔ X.build = .release ∨ atLimit records c ≤ 1 := by
  simp only [demuxChannel_ok]
  by_cases hlimit : atLimit records c ≤ 1
  · refine iff_of_true ?_ (.inr hlimit)
    exact ⟨_, _, sequenceGaps_eq X _ ((numbers_fit_iff records c).mpr hlimit), rfl⟩
  · rcases sequenceGaps_overflow X hlimit with ⟨hbuild, hpanic⟩ | ⟨hbuild, out, hout, -⟩
    · refine iff_of_false ?_ (by simp [hbuild, hlimit])
      intro h
      obtain ⟨s, gaps, hgaps, -⟩ := h
      rw [hpanic] at hgaps
      simp [panicked] at hgaps
    · exact iff_of_true ⟨_, out, hout, rfl⟩ (.inl hbuild)

theorem exists_stream_of_atLimit {X : Crates} {records : List ExtractedRecord}
    {streams : List DemuxedStream} (h : demuxRecords X records = .ok streams) {c : UInt32}
    (hpos : 0 < c) (hsome : 0 < atLimit records c) : ∃ s ∈ streams, s.channelId = c := by
  obtain ⟨r, hr, hcarries⟩ := List.countP_pos_iff.mp hsome
  rw [Bool.and_eq_true, beq_iff_eq, beq_iff_eq] at hcarries
  obtain ⟨rfl, -⟩ := hcarries
  exact exists_stream h hr hpos

theorem demuxRecords_isOk_iff (X : Crates) (records : List ExtractedRecord) :
    (∃ streams, demuxRecords X records = .ok streams) ↔
      X.build = .release ∨ ∀ c, 0 < c → atLimit records c ≤ 1 := by
  constructor
  · intro h
    obtain ⟨streams, hstreams⟩ := h
    refine or_iff_not_imp_left.mpr fun hbuild c hpos => ?_
    by_contra hlimit
    obtain ⟨s, hs, rfl⟩ := exists_stream_of_atLimit hstreams hpos (by omega)
    have hstream := (demuxChannel_isOk_iff X records s.channelId).mp
      ⟨s, (demuxRecords_ok hstreams).2 s hs⟩
    exact hstream.elim hbuild hlimit
  · intro h
    apply demuxRecords_isOk
    intro c hpos
    exact (demuxChannel_isOk_iff X records c).mpr (h.imp_right fun hall => hall c hpos)

theorem chNumbers_sorted (records : List ExtractedRecord) (c : UInt32) :
    ((chRecords records c).map (·.sequenceNum.toNat)).Pairwise (· ≤ ·) := by
  have hnumbers := numbers_sorted records c
  rw [numbers, List.pairwise_map] at hnumbers
  exact List.pairwise_map.mpr (hnumbers.imp UInt32.le_iff_toNat_le.mp)

theorem mem_gaps_chRecords {records : List ExtractedRecord} {c : UInt32} {n : ℕ} :
    n ∈ gaps ((chRecords records c).map (·.sequenceNum.toNat)) ↔
      (∃ r ∈ records, r.channelId = c ∧ r.sequenceNum.toNat < n) ∧
      (∃ r ∈ records, r.channelId = c ∧ n < r.sequenceNum.toNat) ∧
      ∀ r ∈ records, r.channelId = c → r.sequenceNum.toNat ≠ n := by
  have hnumber : ∀ n, n ∈ (chRecords records c).map (·.sequenceNum.toNat) ↔
      ∃ r ∈ records, r.channelId = c ∧ r.sequenceNum.toNat = n := by
    intro n
    simp only [List.mem_map, mem_chRecords, and_assoc]
  rw [mem_gaps (chNumbers_sorted records c)]
  simp only [hnumber]
  constructor
  · intro h
    obtain ⟨hnone, ⟨_, ⟨a, ha, hchannelA, rfl⟩, hlow⟩, _, ⟨b, hb, hchannelB, rfl⟩, hhigh⟩ := h
    refine ⟨⟨a, ha, hchannelA, hlow⟩, ⟨b, hb, hchannelB, hhigh⟩, ?_⟩
    intro r hr hchannel heq
    exact hnone ⟨r, hr, hchannel, heq⟩
  · intro h
    obtain ⟨⟨a, ha, hchannelA, hlow⟩, ⟨b, hb, hchannelB, hhigh⟩, hnone⟩ := h
    refine ⟨?_, ⟨_, ⟨a, ha, hchannelA, rfl⟩, hlow⟩, _, ⟨b, hb, hchannelB, rfl⟩, hhigh⟩
    intro hmember
    obtain ⟨r, hr, hchannel, heq⟩ := hmember
    exact hnone r hr hchannel heq

theorem isGaps_gaps (records : List ExtractedRecord) (c : UInt32) :
    IsGaps records c ((gaps ((chRecords records c).map (·.sequenceNum.toNat))).map UInt32.ofNat) := by
  have hfits : ∀ n ∈ gaps ((chRecords records c).map (·.sequenceNum.toNat)), n < 2 ^ 32 := by
    intro n hn
    obtain ⟨-, ⟨r, -, -, hlt⟩, -⟩ := mem_gaps_chRecords.mp hn
    exact hlt.trans r.sequenceNum.toNat_lt
  constructor
  · refine List.pairwise_map.mpr ((pairwise_gaps (chNumbers_sorted records c)).imp_of_mem ?_)
    intro m n hm hn hlt
    rw [UInt32.lt_iff_toNat_lt, UInt32.toNat_ofNat_of_lt' (hfits m hm),
      UInt32.toNat_ofNat_of_lt' (hfits n hn)]
    exact hlt
  · intro k
    have hmem : k ∈ (gaps ((chRecords records c).map (·.sequenceNum.toNat))).map UInt32.ofNat ↔
        k.toNat ∈ gaps ((chRecords records c).map (·.sequenceNum.toNat)) := by
      rw [List.mem_map]
      constructor
      · intro h
        obtain ⟨n, hn, rfl⟩ := h
        rwa [UInt32.toNat_ofNat_of_lt' (hfits n hn)]
      · intro h
        exact ⟨k.toNat, h, UInt32.ofNat_toNat⟩
    rw [hmem, mem_gaps_chRecords]
    simp only [UInt32.lt_iff_toNat_lt, ne_eq, UInt32.toNat_inj]

theorem not_isGaps_of_zero {records : List ExtractedRecord} {c : UInt32} {gaps : List UInt32}
    (hzero : 0 ∈ gaps) : ¬ IsGaps records c gaps := by
  intro h
  obtain ⟨⟨r, -, -, hlt⟩, -⟩ := (h.mem 0).mp hzero
  rw [UInt32.lt_iff_toNat_lt] at hlt
  exact absurd hlt (Nat.not_lt_zero _)

theorem demuxChannel_gaps_iff (X : Crates) (records : List ExtractedRecord) (c : UInt32) :
    (∃ s, demuxChannel X records c = .ok s ∧ IsGaps records c s.sequenceGaps) ↔
      atLimit records c ≤ 1 := by
  by_cases hlimit : atLimit records c ≤ 1
  · refine iff_of_true ?_ hlimit
    have hgaps := sequenceGaps_eq X _ ((numbers_fit_iff records c).mpr hlimit)
    exact ⟨_, demuxChannel_ok.mpr ⟨_, hgaps, rfl⟩, isGaps_gaps records c⟩
  · refine iff_of_false ?_ hlimit
    intro h
    obtain ⟨s, hs, hgaps⟩ := h
    obtain ⟨gaps, heq, rfl⟩ := demuxChannel_ok.mp hs
    rcases sequenceGaps_overflow X hlimit with ⟨-, hpanic⟩ | ⟨-, out, hout, hzero⟩
    · rw [hpanic] at heq
      simp [panicked] at heq
    · obtain rfl := Except.ok.inj (heq.symm.trans hout)
      exact not_isGaps_of_zero hzero hgaps

/-- The gaps of a channel are reported, and nothing overflows on the way, exactly when
at most one of its records carries the largest number; and those of every channel of a
list exactly when this holds of each. -/
theorem sequenceGaps_exact_iff (X : Crates) (records : List ExtractedRecord) :
    (∀ c, (∃ s, demuxChannel X records c = .ok s ∧ IsGaps records c s.sequenceGaps) ↔
      atLimit records c ≤ 1) ∧
    ((∃ streams, demuxRecords X records = .ok streams ∧
        ∀ s ∈ streams, IsGaps records s.channelId s.sequenceGaps) ↔
      ∀ c, 0 < c → atLimit records c ≤ 1) := by
  refine ⟨demuxChannel_gaps_iff X records, ?_⟩
  constructor
  · intro h c hpos
    obtain ⟨streams, hstreams, hgaps⟩ := h
    by_contra hlimit
    -- two records at the limit are in the channel's stream
    obtain ⟨s, hs, rfl⟩ := exists_stream_of_atLimit hstreams hpos (by omega)
    exact hlimit ((demuxChannel_gaps_iff X records s.channelId).mp
      ⟨s, (demuxRecords_ok hstreams).2 s hs, hgaps s hs⟩)
  · intro h
    obtain ⟨streams, hstreams⟩ := (demuxRecords_isOk_iff X records).mpr (.inr h)
    refine ⟨streams, hstreams, fun s hs => ?_⟩
    obtain ⟨s', hs', hgaps⟩ :=
      (demuxChannel_gaps_iff X records s.channelId).mpr (h _ (mem_stream hstreams hs).1)
    rw [(demuxRecords_ok hstreams).2 s hs] at hs'
    rwa [← Except.ok.inj hs'] at hgaps

/-- A record of the first channel with the largest number. -/
def lastRecord (blockIndex : ℕ) : ExtractedRecord :=
  { plainRecord blockIndex 0 0 0 false "video_frame" "" with channelId := 1, sequenceNum := largest }

/-- Two records with the largest number stop a checked build. -/
theorem two_at_limit_panic :
    demuxRecords .sample [lastRecord 0, lastRecord 1] = panicked ∧
      ¬ ∃ s, demuxChannel .sample [lastRecord 0, lastRecord 1] 1 = .ok s ∧
        IsGaps [lastRecord 0, lastRecord 1] 1 s.sequenceGaps := by
  refine ⟨rfl, ?_⟩
  intro h
  obtain ⟨s, hs, -⟩ := h
  have hpanic : demuxChannel .sample [lastRecord 0, lastRecord 1] 1 = panicked := rfl
  rw [hpanic] at hs
  simp [panicked] at hs

end Dvrft.SequenceGaps
