import Dvrft.Analytics
import Dvrft.Selection
import Dvrft.Tallies

/-!
The summary of a series of frame analyses. Its leads are the best frames, but the
threshold only counts: it keeps no frame out of the leads. They are all at or above
the threshold when there are at least as many such frames as leads are asked for, or
when there are no others.
-/

namespace Dvrft.Summaries

open Selection Tallies Analytics

variable {α S : Type}

/-- The entity counts are a map, here with its keys in the order of their insertion. -/
structure AnalyticsSummary (α : Type) where
  totalFramesAnalyzed : ℕ
  totalEntitiesDetected : ℕ
  highRelevanceFrames : ℕ
  entityCounts : List (String × ℕ)
  topLeads : List α

/-- What the loop over the analyses counts. -/
structure Counts where
  totalEntities : ℕ
  highRelevanceCount : ℕ
  entityCounts : List (String × ℕ)
  deriving DecidableEq

section Summarize

variable [LE S] [LT S] [DecidableLE S] [DecidableLT S]
variable (relevanceScore : α → S) (entities : α → List ObjectClass)

def countFrame (minRelevance : S) (counts : Counts) (a : α) : Counts where
  totalEntities := counts.totalEntities + (entities a).length
  highRelevanceCount :=
    if minRelevance ≤ relevanceScore a then counts.highRelevanceCount + 1
    else counts.highRelevanceCount
  entityCounts := (entities a).foldl (fun tally e => bump tally e.code) counts.entityCounts

/-- In the order of the sort `a` stays in front of `b`: `partial_cmp` of `b` with `a` is
not `Greater`. -/
def staysBefore (a b : α) : Prop := ¬ relevanceScore a < relevanceScore b

instance : DecidableRel (staysBefore relevanceScore) :=
  fun a b => inferInstanceAs (Decidable (¬ relevanceScore a < relevanceScore b))

/-- `summarize_analytics`, over what it reads of a frame: its score and the classes of
its entities. -/
def summarizeAnalytics (analyses : List α) (minRelevance : S) (limitLeads : ℕ) :
    AnalyticsSummary α :=
  let counts := analyses.foldl (countFrame relevanceScore entities minRelevance) ⟨0, 0, []⟩
  { totalFramesAnalyzed := analyses.length
    totalEntitiesDetected := counts.totalEntities
    highRelevanceFrames := counts.highRelevanceCount
    entityCounts := counts.entityCounts
    topLeads := (analyses.insertionSort (staysBefore relevanceScore)).take limitLeads }

/-- The leads are the best of the qualifying frames. -/
structure BestQualifying (analyses : List α) (minRelevance : S) (limitLeads : ℕ)
    (summary : AnalyticsSummary α) : Prop where
  count : summary.topLeads.length = min limitLeads summary.highRelevanceFrames
  high : summary.highRelevanceFrames =
    analyses.countP fun a => decide (minRelevance ≤ relevanceScore a)
  qualifying : ∀ a ∈ summary.topLeads, minRelevance ≤ relevanceScore a
  nonIncreasing : summary.topLeads.Pairwise fun a b => relevanceScore b ≤ relevanceScore a
  best : ∃ leftOut, (summary.topLeads ++ leftOut).Perm analyses ∧
    ∀ a ∈ summary.topLeads, ∀ b ∈ leftOut, relevanceScore b ≤ relevanceScore a
  entitiesAddUp : total summary.entityCounts = summary.totalEntitiesDetected

/-- Two summaries with the same counts, and leads with the same scores. -/
structure SameCounts (first second : AnalyticsSummary α) : Prop where
  frames : first.totalFramesAnalyzed = second.totalFramesAnalyzed
  entities : first.totalEntitiesDetected = second.totalEntitiesDetected
  high : first.highRelevanceFrames = second.highRelevanceFrames
  classes : ∀ label, first.entityCounts.lookup label = second.entityCounts.lookup label
  scores : (first.topLeads.map relevanceScore).Perm (second.topLeads.map relevanceScore)

end Summarize

/-- The summary of the frames of the program. -/
def summarizeFrames (analyses : List FrameAnalytics) (minRelevance : Float) (limitLeads : ℕ) :
    AnalyticsSummary FrameAnalytics :=
  summarizeAnalytics FrameAnalytics.relevanceScore
    (fun a => a.entities.map DetectedEntity.classLabel) analyses minRelevance limitLeads

section Counting

variable [LE S] [DecidableLE S] (relevanceScore : α → S) (entities : α → List ObjectClass)

theorem foldl_countFrame (minRelevance : S) (analyses : List α) (counts : Counts) :
    analyses.foldl (countFrame relevanceScore entities minRelevance) counts =
      ⟨counts.totalEntities + (analyses.flatMap entities).length,
        counts.highRelevanceCount +
          analyses.countP fun a => decide (minRelevance ≤ relevanceScore a),
        ((analyses.flatMap entities).map ObjectClass.code).foldl bump counts.entityCounts⟩ := by
  induction analyses generalizing counts with
  | nil => rfl
  | cons a rest ih =>
    rw [List.foldl_cons, ih, List.flatMap_cons, List.length_append, List.map_append,
      List.foldl_append, List.countP_cons, List.foldl_map (l := entities a)]
    unfold countFrame
    by_cases hhigh : minRelevance ≤ relevanceScore a
    · simp only [hhigh, if_true, decide_true, Counts.mk.injEq, and_true]
      omega
    · simp only [hhigh, if_false, decide_false, Bool.false_eq_true, Counts.mk.injEq, and_true]
      omega

end Counting

section LinearOrder

variable [LinearOrder S] (relevanceScore : α → S) (entities : α → List ObjectClass)
variable (analyses : List α) (minRelevance : S) (limitLeads : ℕ)

theorem highRelevanceFrames_eq :
    (summarizeAnalytics relevanceScore entities analyses minRelevance
      limitLeads).highRelevanceFrames =
        analyses.countP fun a => decide (minRelevance ≤ relevanceScore a) := by
  simp only [summarizeAnalytics, foldl_countFrame, Nat.zero_add]

theorem totalEntitiesDetected_eq :
    (summarizeAnalytics relevanceScore entities analyses minRelevance
      limitLeads).totalEntitiesDetected = (analyses.flatMap entities).length := by
  simp only [summarizeAnalytics, foldl_countFrame, Nat.zero_add]

theorem entityCounts_eq :
    (summarizeAnalytics relevanceScore entities analyses minRelevance
      limitLeads).entityCounts = tally ((analyses.flatMap entities).map ObjectClass.code) := by
  simp only [summarizeAnalytics, foldl_countFrame, tally]

theorem topLeads_eq :
    (summarizeAnalytics relevanceScore entities analyses minRelevance limitLeads).topLeads =
      (analyses.insertionSort (staysBefore relevanceScore)).take limitLeads := rfl

instance : Std.Total (staysBefore relevanceScore) :=
  ⟨fun a b => (le_total (relevanceScore b) (relevanceScore a)).imp not_lt.mpr not_lt.mpr⟩

instance : IsTrans α (staysBefore relevanceScore) :=
  ⟨fun _ _ _ hab hbc => not_lt.mpr ((not_lt.mp hbc).trans (not_lt.mp hab))⟩

theorem sorted_nonIncreasing :
    (analyses.insertionSort (staysBefore relevanceScore)).Pairwise
      fun a b => relevanceScore b ≤ relevanceScore a :=
  (List.pairwise_insertionSort (staysBefore relevanceScore) analyses).imp not_lt.mp

theorem topLeads_nonIncreasing :
    (summarizeAnalytics relevanceScore entities analyses minRelevance
      limitLeads).topLeads.Pairwise fun a b => relevanceScore b ≤ relevanceScore a :=
  (sorted_nonIncreasing relevanceScore analyses).sublist (List.take_sublist _ _)

/-- What is left out completes the leads to the input, and none of it scores above one. -/
theorem topLeads_best :
    ∃ leftOut, ((summarizeAnalytics relevanceScore entities analyses minRelevance
        limitLeads).topLeads ++ leftOut).Perm analyses ∧
      ∀ a ∈ (summarizeAnalytics relevanceScore entities analyses minRelevance
        limitLeads).topLeads, ∀ b ∈ leftOut, relevanceScore b ≤ relevanceScore a := by
  have hsorted := sorted_nonIncreasing relevanceScore analyses
  refine ⟨(analyses.insertionSort (staysBefore relevanceScore)).drop limitLeads, ?_, ?_⟩
  · rw [topLeads_eq, List.take_append_drop]
    exact List.perm_insertionSort _ _
  · rw [← List.take_append_drop limitLeads (analyses.insertionSort _)] at hsorted
    exact (List.pairwise_append.mp hsorted).2.2

theorem topLeads_length :
    (summarizeAnalytics relevanceScore entities analyses minRelevance
      limitLeads).topLeads.length = min limitLeads analyses.length := by
  rw [topLeads_eq, List.length_take, List.length_insertionSort]

/-- As many of the best frames qualify as there are qualifying frames. -/
theorem topLeads_qualify
    (h : limitLeads ≤ analyses.countP fun a => decide (minRelevance ≤ relevanceScore a)) :
    ∀ a ∈ (summarizeAnalytics relevanceScore entities analyses minRelevance
      limitLeads).topLeads, minRelevance ≤ relevanceScore a := by
  rw [topLeads_eq]
  apply forall_mem_take
  · exact (sorted_nonIncreasing relevanceScore analyses).imp fun hba hb => hb.trans hba
  · rwa [(List.perm_insertionSort (staysBefore relevanceScore) analyses).countP_eq]

theorem leads_qualify_iff :
    ((summarizeAnalytics relevanceScore entities analyses minRelevance
        limitLeads).topLeads.length = min limitLeads
          (analyses.countP fun a => decide (minRelevance ≤ relevanceScore a)) ∧
      ∀ a ∈ (summarizeAnalytics relevanceScore entities analyses minRelevance
        limitLeads).topLeads, minRelevance ≤ relevanceScore a) ↔
    limitLeads ≤ (analyses.countP fun a => decide (minRelevance ≤ relevanceScore a)) ∨
      ∀ a ∈ analyses, minRelevance ≤ relevanceScore a := by
  rw [topLeads_length]
  have hcount := List.countP_le_length (l := analyses)
    (p := fun a => decide (minRelevance ≤ relevanceScore a))
  constructor
  · rintro ⟨hlength, -⟩
    by_cases hlimit : limitLeads ≤
        analyses.countP fun a => decide (minRelevance ≤ relevanceScore a)
    · exact .inl hlimit
    · -- fewer qualify than are asked for, so the leads are all there is
      have hall : (analyses.countP fun a => decide (minRelevance ≤ relevanceScore a)) =
          analyses.length := by omega
      have hmem := List.countP_eq_length.mp hall
      exact .inr fun a ha => of_decide_eq_true (hmem a ha)
  · rintro (hlimit | hall)
    · refine ⟨by omega, ?_⟩
      exact topLeads_qualify relevanceScore entities analyses minRelevance limitLeads hlimit
    · have hcountAll : (analyses.countP fun a => decide (minRelevance ≤ relevanceScore a)) =
          analyses.length := List.countP_eq_length.mpr fun a ha => decide_eq_true (hall a ha)
      refine ⟨by rw [hcountAll], ?_⟩
      intro a ha
      exact hall a ((List.mem_insertionSort _).mp (List.mem_of_mem_take ha))

theorem entityCounts_total :
    total (summarizeAnalytics relevanceScore entities analyses minRelevance
        limitLeads).entityCounts =
      (summarizeAnalytics relevanceScore entities analyses minRelevance
        limitLeads).totalEntitiesDetected := by
  rw [entityCounts_eq, totalEntitiesDetected_eq, total_tally, List.length_map]

/-- The scores of the leads are the best scores, in whatever order the frames came. -/
theorem scores_perm {first second : List α} (hperm : first.Perm second) :
    (first.insertionSort (staysBefore relevanceScore)).map relevanceScore =
      (second.insertionSort (staysBefore relevanceScore)).map relevanceScore := by
  have hscores : ((first.insertionSort (staysBefore relevanceScore)).map relevanceScore).Perm
      ((second.insertionSort (staysBefore relevanceScore)).map relevanceScore) :=
    ((List.perm_insertionSort _ _).trans
      (hperm.trans (List.perm_insertionSort _ _).symm)).map relevanceScore
  have hsorted : ∀ l : List α, ((l.insertionSort (staysBefore relevanceScore)).map
      relevanceScore).Pairwise fun x y => y ≤ x :=
    fun l => List.pairwise_map.mpr (sorted_nonIncreasing relevanceScore l)
  exact hscores.eq_of_pairwise (fun _ _ _ _ hxy hyx => le_antisymm hyx hxy)
    (hsorted first) (hsorted second)

theorem sameCounts_of_perm {first second : List α} (hperm : first.Perm second) :
    SameCounts relevanceScore
      (summarizeAnalytics relevanceScore entities first minRelevance limitLeads)
      (summarizeAnalytics relevanceScore entities second minRelevance limitLeads) where
  frames := hperm.length_eq
  entities := by
    rw [totalEntitiesDetected_eq, totalEntitiesDetected_eq]
    exact (hperm.flatMap_right entities).length_eq
  high := by
    rw [highRelevanceFrames_eq, highRelevanceFrames_eq]
    exact hperm.countP_eq _
  classes label := by
    rw [entityCounts_eq, entityCounts_eq]
    exact lookup_tally_perm ((hperm.flatMap_right entities).map _) label
  scores := by
    rw [topLeads_eq, topLeads_eq, List.map_take, List.map_take,
      scores_perm relevanceScore hperm]

/-- The leads are the best qualifying frames, and depend on the order of the frames
through ties alone, exactly when enough frames qualify or all do. -/
theorem topLeads_qualify_iff :
    (BestQualifying relevanceScore analyses minRelevance limitLeads
        (summarizeAnalytics relevanceScore entities analyses minRelevance limitLeads) ∧
      ∀ reordered : List α, reordered.Perm analyses → SameCounts relevanceScore
        (summarizeAnalytics relevanceScore entities reordered minRelevance limitLeads)
        (summarizeAnalytics relevanceScore entities analyses minRelevance limitLeads)) ↔
    limitLeads ≤ (analyses.countP fun a => decide (minRelevance ≤ relevanceScore a)) ∨
      ∀ a ∈ analyses, minRelevance ≤ relevanceScore a := by
  rw [← leads_qualify_iff relevanceScore entities]
  constructor
  · rintro ⟨hbest, -⟩
    have hlength := hbest.count
    rw [hbest.high] at hlength
    exact ⟨hlength, hbest.qualifying⟩
  · rintro ⟨hlength, hqualify⟩
    refine ⟨?_, fun reordered hperm =>
      sameCounts_of_perm relevanceScore entities minRelevance limitLeads hperm⟩
    exact
      { count := by rw [highRelevanceFrames_eq]; exact hlength
        high := highRelevanceFrames_eq relevanceScore entities analyses minRelevance limitLeads
        qualifying := hqualify
        nonIncreasing :=
          topLeads_nonIncreasing relevanceScore entities analyses minRelevance limitLeads
        best := topLeads_best relevanceScore entities analyses minRelevance limitLeads
        entitiesAddUp :=
          entityCounts_total relevanceScore entities analyses minRelevance limitLeads }

end LinearOrder

/-- A frame of the first channel in which nothing was detected. -/
def emptyFrame (blockIndex : ℕ) (motionEnergy relevanceScore : Float) : FrameAnalytics where
  blockIndex := blockIndex
  channelId := 1
  timestamp := 100
  normalizedTimestamp := "2026-03-18T00:00:00Z"
  motionEnergy := motionEnergy
  relevanceScore := relevanceScore
  entities := []

/-- Of two frames, one is relevant and both are leads. -/
theorem topLeads_below_threshold :
    ¬ BestQualifying FrameAnalytics.relevanceScore
      [emptyFrame 1 0.20 0.35, emptyFrame 2 0.80 0.92] 0.50 10
      (summarizeFrames [emptyFrame 1 0.20 0.35, emptyFrame 2 0.80 0.92] 0.50 10) := by
  intro h
  exact absurd h.count (by decide +kernel)

end Dvrft.Summaries
