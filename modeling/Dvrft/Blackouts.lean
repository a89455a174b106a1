import Dvrft.Correlation

/-!
The outages that all cameras share, against their definition over the times of
all cameras together. What is reported is an outage. An outage is reported when
the smallest channel brackets it, since only the gaps of that channel are
looked at.
-/

namespace Dvrft.Blackouts

open Machine Correlation

/-- The times at which some camera records. -/
def recordedTimes (records : List RecordInput) : Set UInt64 :=
  {t | ∃ r ∈ records, eligible r ∧ r.timestamp = t}

/-- Two neighbouring times of all cameras, at least `minGapSecs` apart. -/
structure SharedGap (records : List RecordInput) (minGapSecs : ℤ) (t1 t2 : UInt64) : Prop where
  first : t1 ∈ recordedTimes records
  second : t2 ∈ recordedTimes records
  lt : t1.toNat < t2.toNat
  neighbours : ∀ t ∈ recordedTimes records, ¬ (t1.toNat < t.toNat ∧ t.toNat < t2.toNat)
  long : minGapSecs ≤ (t2.toNat : ℤ) - t1.toNat

/-- No camera records more than a second inside both ends. -/
def Silent (records : List RecordInput) (start stop : UInt64) : Prop :=
  ∀ t ∈ recordedTimes records, ¬ (start.toNat + 1 < t.toNat ∧ t.toNat + 1 < stop.toNat)

/-- The smallest channel records before and after, with nothing but silence and
less than `2 ^ 63` seconds in between. -/
def Bracketed (records : List RecordInput) (t1 t2 : UInt64) : Prop :=
  ∃ a ∈ records, ∃ b ∈ records, eligible a ∧ eligible b ∧ a.channelId = b.channelId ∧
    (∀ r ∈ records, eligible r → a.channelId ≤ r.channelId) ∧
    a.timestamp ≤ t1 ∧ t2 ≤ b.timestamp ∧ b.timestamp.toNat - a.timestamp.toNat < 2 ^ 63 ∧
    Silent records a.timestamp b.timestamp

section Neighbours

variable {α : Type}

theorem consecutive_cons_cons (a b : α) (xs : List α) :
    consecutive (a :: b :: xs) = (a, b) :: consecutive (b :: xs) := rfl

/-- No member of a sorted list lies between two neighbours. -/
theorem key_le_or_le_of_consecutive (key : α → ℕ) {xs : List α}
    (hsorted : xs.Pairwise fun a b => key a ≤ key b) {p : α × α} (hp : p ∈ consecutive xs) :
    ∀ x ∈ xs, key x ≤ key p.1 ∨ key p.2 ≤ key x := by
  induction xs with
  | nil => simp
  | cons a rest ih =>
    obtain ⟨ha, hrest⟩ := List.pairwise_cons.mp hsorted
    cases rest with
    | nil => simp [consecutive] at hp
    | cons b rest =>
      rw [consecutive_cons_cons] at hp
      intro x hx
      rcases List.mem_cons.mp hp with rfl | hlater
      · rcases List.mem_cons.mp hx with rfl | hx
        · exact .inl le_rfl
        · rcases List.mem_cons.mp hx with rfl | hx
          · exact .inr le_rfl
          · exact .inr ((List.pairwise_cons.mp hrest).1 x hx)
      · rcases List.mem_cons.mp hx with rfl | hx
        · exact .inl (ha p.1 (mem_of_mem_consecutive hlater).1)
        · exact ih hrest hlater x hx

/-- A sorted list with a member on either side of a cut has neighbours that
straddle it. -/
theorem exists_consecutive_straddling (key : α → ℕ) (cut : ℕ) {xs : List α}
    (hsorted : xs.Pairwise fun a b => key a ≤ key b) {x y : α} (hx : x ∈ xs) (hy : y ∈ xs)
    (hlow : key x ≤ cut) (hhigh : cut < key y) :
    ∃ p ∈ consecutive xs, key p.1 ≤ cut ∧ cut < key p.2 := by
  induction xs generalizing x with
  | nil => simp at hx
  | cons a rest ih =>
    obtain ⟨ha, hrest⟩ := List.pairwise_cons.mp hsorted
    cases rest with
    | nil =>
      rw [List.mem_singleton] at hx hy
      subst hx hy
      omega
    | cons b rest =>
      rw [consecutive_cons_cons]
      have hfirst : key a ≤ cut := by
        rcases List.mem_cons.mp hx with rfl | hx
        · exact hlow
        · exact (ha x hx).trans hlow
      by_cases hb : cut < key b
      · exact ⟨(a, b), by simp, hfirst, hb⟩
      · have hlater : y ∈ b :: rest := by
          rcases List.mem_cons.mp hy with rfl | hy
          · omega
          · exact hy
        obtain ⟨p, hp, hcut⟩ := ih hrest (List.mem_cons_self (a := b)) hlater (by omega)
        exact ⟨p, List.mem_cons_of_mem _ hp, hcut⟩

end Neighbours

theorem mem_allChannels {records : List RecordInput} {channel : UInt32} :
    channel ∈ allChannels records ↔ ∃ r ∈ records, eligible r ∧ r.channelId = channel := by
  rw [allChannels, (List.perm_insertionSort _ _).mem_iff, List.mem_eraseDups, List.mem_map]
  simp [and_assoc]

theorem allChannels_least {records : List RecordInput} {primary : UInt32} {others : List UInt32}
    (h : allChannels records = primary :: others) :
    ∀ r ∈ records, eligible r → primary ≤ r.channelId := by
  intro r hr heligible
  have hmem : r.channelId ∈ primary :: others := by
    rw [← h]
    exact mem_allChannels.mpr ⟨r, hr, heligible, rfl⟩
  have hsorted : (primary :: others).Pairwise (· ≤ ·) := by
    rw [← h]
    exact List.pairwise_insertionSort _ _
  rcases List.mem_cons.mp hmem with heq | hlater
  · rw [heq]
    exact UInt32.le_refl primary
  · exact (List.pairwise_cons.mp hsorted).1 _ hlater

/-- The channel whose gaps are looked at is the least with an eligible record. -/
theorem primary_eq_of_least {records : List RecordInput} {primary : UInt32}
    {others : List UInt32} (h : allChannels records = primary :: others) {a : RecordInput}
    (ha : a ∈ records) (heligible : eligible a)
    (hleast : ∀ r ∈ records, eligible r → a.channelId ≤ r.channelId) :
    a.channelId = primary := by
  have hmem : primary ∈ allChannels records := by simp [h]
  obtain ⟨r, hr, hr', rfl⟩ := mem_allChannels.mp hmem
  exact UInt32.le_antisymm (hleast r hr hr') (allChannels_least h a ha heligible)

/-- The other channels' silence and the neighbours' own make the silence of all. -/
theorem silentBetween_iff {records : List RecordInput} {primary : UInt32} {p : Stamp × Stamp}
    (hp : p ∈ consecutive (channelTimes records primary)) :
    silentBetween records primary p.1.1 p.2.1 = true ↔ Silent records p.1.1 p.2.1 := by
  have hstep : silentBetween records primary p.1.1 p.2.1 = true ↔
      ∀ channel ∈ allChannels records, channel = primary ∨
        ∀ t ∈ channelTimes records channel,
          ¬ (p.1.1.toNat + 1 < t.1.toNat ∧ t.1.toNat < p.2.1.toNat - 1) := by
    simp [silentBetween]
  rw [hstep]
  constructor
  · rintro hothers t ⟨r, hr, heligible, rfl⟩ ⟨hlow, hhigh⟩
    rcases hothers r.channelId (mem_allChannels.mpr ⟨r, hr, heligible, rfl⟩) with hsame | hquiet
    · have hmem : r.stamp ∈ channelTimes records primary :=
        mem_channelTimes.mpr ⟨r, hr, heligible, hsame, rfl⟩
      have hside := key_le_or_le_of_consecutive (fun s : Stamp => s.1.toNat)
        (channelTimes_sorted records primary) hp r.stamp hmem
      simp only [RecordInput.stamp] at hside
      omega
    · have hmem : r.stamp ∈ channelTimes records r.channelId :=
        mem_channelTimes.mpr ⟨r, hr, heligible, rfl, rfl⟩
      apply hquiet r.stamp hmem
      simp only [RecordInput.stamp]
      omega
  · intro hsilent channel hchannel
    right
    intro t ht hinside
    obtain ⟨r, hr, heligible, -, rfl⟩ := mem_channelTimes.mp ht
    have hout := hsilent r.timestamp ⟨r, hr, heligible, rfl⟩
    simp only [RecordInput.stamp] at hinside
    omega

/-- What is reported is an outage: nobody records inside it. -/
theorem blackout_silent {records : List RecordInput} {minGapSecs : ℤ}
    {b : GlobalBlackoutAnomaly} (h : b ∈ detectGlobalBlackouts records minGapSecs) :
    Silent records b.startTimestamp b.endTimestamp := by
  obtain ⟨p, hp, hstart, hstop, -⟩ := detectGlobalBlackouts_sound h
  have hends : b.startTimestamp = p.1.1 ∧ b.endTimestamp = p.2.1 :=
    ⟨congrArg Prod.fst hstart, congrArg Prod.fst hstop⟩
  unfold silences at hp
  split at hp
  · simp at hp
  · obtain ⟨hp, hsilent⟩ := List.mem_filter.mp hp
    rw [hends.1, hends.2]
    exact (silentBetween_iff hp).mp hsilent

/-- The smallest channel's neighbours around a gap of all channels. -/
theorem exists_silence_of_bracketed {records : List RecordInput} {minGapSecs : ℤ}
    {t1 t2 : UInt64} (hgap : SharedGap records minGapSecs t1 t2)
    (hbracketed : Bracketed records t1 t2) :
    ∃ p ∈ silences records, p.1.1 ≤ t1 ∧ t2 ≤ p.2.1 ∧
      p.2.1.toNat - p.1.1.toNat < 2 ^ 63 := by
  obtain ⟨a, ha, b, hb, heligibleA, heligibleB, hsame, hleast, hbefore, hafter, hnear, hsilent⟩ :=
    hbracketed
  rw [UInt64.le_iff_toNat_le] at hbefore hafter
  have hlt := hgap.lt
  have hsorted := channelTimes_sorted records a.channelId
  have hfirst : a.stamp ∈ channelTimes records a.channelId :=
    mem_channelTimes.mpr ⟨a, ha, heligibleA, rfl, rfl⟩
  have hlast : b.stamp ∈ channelTimes records a.channelId :=
    mem_channelTimes.mpr ⟨b, hb, heligibleB, hsame.symm, rfl⟩
  obtain ⟨p, hp, hlow, hhigh⟩ := exists_consecutive_straddling (fun s : Stamp => s.1.toNat)
    t1.toNat hsorted hfirst hlast (by simpa [RecordInput.stamp] using hbefore)
    (by simp only [RecordInput.stamp]; omega)
  have hside := key_le_or_le_of_consecutive (fun s : Stamp => s.1.toNat) hsorted hp
  have hfirstSide := hside a.stamp hfirst
  have hlastSide := hside b.stamp hlast
  simp only [RecordInput.stamp] at hlow hhigh hfirstSide hlastSide
  -- The upper neighbour is a time of all channels, so it is not between `t1` and `t2`.
  have hbeyond : t2.toNat ≤ p.2.1.toNat := by
    obtain ⟨r, hr, heligible, -, hstamp⟩ := mem_channelTimes.mp (mem_of_mem_consecutive hp).2
    have hneighbours := hgap.neighbours r.timestamp ⟨r, hr, heligible, rfl⟩
    rw [← hstamp] at hhigh ⊢
    simp only [RecordInput.stamp] at hhigh ⊢
    omega
  have hinside : Silent records p.1.1 p.2.1 := by
    intro t ht hin
    have hquiet := hsilent t ht
    omega
  refine ⟨p, ?_, UInt64.le_iff_toNat_le.mpr hlow, UInt64.le_iff_toNat_le.mpr hbeyond, by omega⟩
  unfold silences
  cases hchannels : allChannels records with
  | nil =>
    have hmem := mem_allChannels.mpr ⟨a, ha, heligibleA, rfl⟩
    simp [hchannels] at hmem
  | cons primary others =>
    have hprimary := primary_eq_of_least hchannels ha heligibleA hleast
    rw [hprimary] at hp
    exact List.mem_filter.mpr ⟨hp, (silentBetween_iff hp).mpr hinside⟩

/-- A silence that is short of `2 ^ 63` seconds brackets what lies in it. -/
theorem bracketed_of_silence {records : List RecordInput} {p : Stamp × Stamp} {t1 t2 : UInt64}
    (hp : p ∈ silences records) (hbefore : p.1.1 ≤ t1) (hafter : t2 ≤ p.2.1)
    (hnear : p.2.1.toNat - p.1.1.toNat < 2 ^ 63) : Bracketed records t1 t2 := by
  unfold silences at hp
  cases hchannels : allChannels records with
  | nil => simp [hchannels] at hp
  | cons primary others =>
    simp only [hchannels] at hp
    obtain ⟨hp, hsilent⟩ := List.mem_filter.mp hp
    obtain ⟨hfirst, hsecond⟩ := mem_of_mem_consecutive hp
    obtain ⟨a, ha, heligibleA, hchannelA, hstampA⟩ := mem_channelTimes.mp hfirst
    obtain ⟨b, hb, heligibleB, hchannelB, hstampB⟩ := mem_channelTimes.mp hsecond
    have htimeA : a.timestamp = p.1.1 := congrArg Prod.fst hstampA
    have htimeB : b.timestamp = p.2.1 := congrArg Prod.fst hstampB
    refine ⟨a, ha, b, hb, heligibleA, heligibleB, hchannelA.trans hchannelB.symm, ?_, ?_⟩
    · intro r hr heligible
      rw [hchannelA]
      exact allChannels_least hchannels r hr heligible
    · rw [htimeA, htimeB]
      exact ⟨hbefore, hafter, hnear, (silentBetween_iff hp).mp hsilent⟩

/-- A gap of all channels lies inside a reported outage exactly when the smallest
channel brackets it. -/
theorem reported_iff_bracketed {records : List RecordInput} {minGapSecs : ℤ} {t1 t2 : UInt64}
    (hpositive : 0 < minGapSecs) (hgap : SharedGap records minGapSecs t1 t2) :
    (∃ b ∈ detectGlobalBlackouts records minGapSecs,
      b.startTimestamp ≤ t1 ∧ t2 ≤ b.endTimestamp) ↔ Bracketed records t1 t2 := by
  constructor
  · rintro ⟨b, hb, hbefore, hafter⟩
    obtain ⟨p, hp, hstart, hstop, hduration, -, hlong⟩ := detectGlobalBlackouts_sound hb
    have hends : b.startTimestamp = p.1.1 ∧ b.endTimestamp = p.2.1 :=
      ⟨congrArg Prod.fst hstart, congrArg Prod.fst hstop⟩
    rw [hends.1] at hbefore
    rw [hends.2] at hafter
    apply bracketed_of_silence hp hbefore hafter
    by_contra hfar
    have hnegative := elapsed_neg (Nat.le_of_not_lt hfar)
    omega
  · intro hbracketed
    obtain ⟨p, hp, hbefore, hafter, hnear⟩ := exists_silence_of_bracketed hgap hbracketed
    have hlong : minGapSecs ≤ elapsed p.1.1 p.2.1 := by
      have hgapLong := hgap.long
      have hlt := hgap.lt
      rw [elapsed_of_lt hnear]
      rw [UInt64.le_iff_toNat_le] at hbefore hafter
      omega
    obtain ⟨b, hb, hstart, hstop⟩ := (exists_blackout_iff hp hpositive).mpr hlong
    refine ⟨b, hb, ?_, ?_⟩
    · rwa [show b.startTimestamp = p.1.1 from congrArg Prod.fst hstart]
    · rwa [show b.endTimestamp = p.2.1 from congrArg Prod.fst hstop]

/-- The detection is complete, besides being sound, exactly when the smallest
channel brackets every gap of all channels. -/
theorem detectGlobalBlackouts_complete_iff (records : List RecordInput) (minGapSecs : ℤ)
    (hpositive : 0 < minGapSecs) :
    ((∀ t1 t2, SharedGap records minGapSecs t1 t2 →
        ∃ b ∈ detectGlobalBlackouts records minGapSecs,
          b.startTimestamp ≤ t1 ∧ t2 ≤ b.endTimestamp) ∧
      ∀ b ∈ detectGlobalBlackouts records minGapSecs,
        Silent records b.startTimestamp b.endTimestamp) ↔
      ∀ t1 t2, SharedGap records minGapSecs t1 t2 → Bracketed records t1 t2 := by
  constructor
  · rintro ⟨hcomplete, -⟩ t1 t2 hgap
    exact (reported_iff_bracketed hpositive hgap).mp (hcomplete t1 t2 hgap)
  · intro hbracketed
    refine ⟨?_, fun b hb => blackout_silent hb⟩
    intro t1 t2 hgap
    exact (reported_iff_bracketed hpositive hgap).mpr (hbracketed t1 t2 hgap)

/-- A sound frame of a channel. -/
def frame (channel : UInt32) (timestamp : UInt64) : RecordInput :=
  ⟨0, 0, channel, timestamp, "", 0, false, false, false, false⟩

theorem detectGlobalBlackouts_complete_iff_common :
    (∀ t1 t2, SharedGap [frame 1 0, frame 1 500, frame 2 0, frame 2 500] 60 t1 t2 →
      ∃ b ∈ detectGlobalBlackouts [frame 1 0, frame 1 500, frame 2 0, frame 2 500] 60,
        b.startTimestamp ≤ t1 ∧ t2 ≤ b.endTimestamp) ∧
    ∀ b ∈ detectGlobalBlackouts [frame 1 0, frame 1 500, frame 2 0, frame 2 500] 60,
      Silent [frame 1 0, frame 1 500, frame 2 0, frame 2 500] b.startTimestamp b.endTimestamp := by
  apply (detectGlobalBlackouts_complete_iff _ 60 (by decide)).mpr
  intro t1 t2 hgap
  have htimes : ∀ t ∈ recordedTimes [frame 1 0, frame 1 500, frame 2 0, frame 2 500],
      t = 0 ∨ t = 500 := by
    rintro t ⟨r, hr, -, rfl⟩
    simp only [List.mem_cons, List.not_mem_nil, or_false] at hr
    rcases hr with rfl | rfl | rfl | rfl <;> simp [frame]
  have hlt := hgap.lt
  obtain ⟨rfl, rfl⟩ : t1 = 0 ∧ t2 = 500 := by
    rcases htimes t1 hgap.first with rfl | rfl <;> rcases htimes t2 hgap.second with rfl | rfl <;>
      first | exact ⟨rfl, rfl⟩ | exact absurd hlt (by decide)
  refine ⟨frame 1 0, by simp, frame 1 500, by simp, by decide, by decide, rfl, by decide,
    by decide, by decide, by decide, ?_⟩
  intro t ht hinside
  rcases htimes t ht with rfl | rfl <;> exact absurd hinside (by decide)

/-- A second camera that goes on longer than the first one has its outages missed. -/
theorem late_outage_missed :
    SharedGap [frame 1 0, frame 1 10, frame 2 10, frame 2 500] 60 10 500 ∧
      ¬ ∃ b ∈ detectGlobalBlackouts [frame 1 0, frame 1 10, frame 2 10, frame 2 500] 60,
        b.startTimestamp ≤ 10 ∧ 500 ≤ b.endTimestamp := by
  refine ⟨⟨⟨frame 2 10, by simp, by decide, rfl⟩, ⟨frame 2 500, by simp, by decide, rfl⟩,
    by decide, ?_, by decide⟩, by decide⟩
  rintro t ⟨r, hr, -, rfl⟩
  simp only [List.mem_cons, List.not_mem_nil, or_false] at hr
  rcases hr with rfl | rfl | rfl | rfl <;> decide

end Dvrft.Blackouts
