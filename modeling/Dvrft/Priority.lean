import Dvrft.ListingOrder

/-!
The stated priority of identification against the score that stands for it. A tier
is worth a bonus on the confidence, and only the candidate with the best score is
held against the threshold.
-/

namespace Dvrft.Priority

open Errors Machine Platform Grammar Acquisition ShortReads Interpreter CaseFiles Detection
open Containers Identification ListingOrder Binary32 Selection Texts

/-- Confident enough to be an answer. -/
def Confident (d : DeviceIdentification) : Prop := minConfidenceThreshold ≤ d.confidence

instance : DecidablePred Confident := fun d => by unfold Confident; infer_instance

/-- Declarative tiers come before the registry's and that before the others. -/
def classOf (d : DeviceIdentification) : ℕ :=
  match d.validationTier with
  | some 1 => 2
  | some 2 => 2
  | some 0 => 1
  | _ => 0

/-- No answer only without a confident candidate, and otherwise a confident one of the
highest class. -/
structure Honoured (candidates : List DeviceIdentification) (answer : DeviceIdentification) :
    Prop where
  unrecognized : answer = .unrecognized ↔ ∀ d ∈ candidates, ¬ Confident d
  best : ∀ d ∈ candidates, Confident d →
    answer ∈ candidates ∧ Confident answer ∧ classOf d ≤ classOf answer

/-- A confident candidate of the highest class that confident ones have. -/
def Champion (candidates : List DeviceIdentification) (d : DeviceIdentification) : Prop :=
  d ∈ candidates ∧ Confident d ∧ ∀ c ∈ candidates, Confident c → classOf c ≤ classOf d

/-- A champion outscores the candidates before it that are none, and is not outscored by
those behind it. -/
def ChampionPrevails (candidates : List DeviceIdentification) : Prop :=
  ∃ front d back, candidates = front ++ d :: back ∧ Champion candidates d ∧
    (∀ c ∈ front, ¬ Champion candidates c → score c < score d) ∧
    ∀ c ∈ back, ¬ Champion candidates c → ¬ score d < score c

variable {candidates : List DeviceIdentification}

theorem not_confident_unrecognized : ¬ Confident .unrecognized := by decide

theorem verdict_some_of_confident {d : DeviceIdentification} (h : Confident d) :
    verdict (some d) = d := if_pos h

theorem verdict_some_of_not_confident {d : DeviceIdentification} (h : ¬ Confident d) :
    verdict (some d) = .unrecognized := if_neg h

/-- With a confident candidate the verdict honours the priority exactly when it is over
a champion. -/
theorem honoured_verdict_iff {best : DeviceIdentification} (hbest : best ∈ candidates)
    (hconfident : ∃ d ∈ candidates, Confident d) :
    Honoured candidates (verdict (some best)) ↔ Champion candidates best := by
  obtain ⟨d, hd, hsure⟩ := hconfident
  constructor
  · intro h
    have hanswer := h.best d hd hsure
    by_cases hbestSure : Confident best
    · rw [verdict_some_of_confident hbestSure] at h
      exact ⟨hbest, hbestSure, fun c hc hcsure => (h.best c hc hcsure).2.2⟩
    · rw [verdict_some_of_not_confident hbestSure] at hanswer
      exact absurd hanswer.2.1 not_confident_unrecognized
  · rintro ⟨-, hbestSure, hclass⟩
    rw [verdict_some_of_confident hbestSure]
    refine ⟨iff_of_false ?_ ?_, fun c hc hcsure => ⟨hbest, hbestSure, hclass c hc hcsure⟩⟩
    · rintro rfl
      exact not_confident_unrecognized hbestSure
    · intro hnone
      exact hnone d hd hsure

theorem not_ranksBefore_iff {a b : DeviceIdentification} :
    ¬ ranksBefore a b ↔ score a < score b := not_not

/-- The verdict over the candidates with the best score first. -/
theorem honoured_iff (hnumbers : ∀ d ∈ candidates, d.confidence.isNaN = false) :
    Honoured candidates (verdict (candidates.insertionSort ranksBefore).head?) ↔
      (∀ d ∈ candidates, ¬ Confident d) ∨ ChampionPrevails candidates := by
  by_cases hconfident : ∃ d ∈ candidates, Confident d
  · have hsome : ¬ ∀ d ∈ candidates, ¬ Confident d := by
      obtain ⟨d, hd, hsure⟩ := hconfident
      exact fun hnone => hnone d hd hsure
    rw [or_iff_right hsome]
    cases hhead : (candidates.insertionSort ranksBefore).head? with
    | none =>
      obtain ⟨d, hd, -⟩ := hconfident
      rw [← List.mem_insertionSort ranksBefore, List.head?_eq_none_iff.mp hhead] at hd
      exact absurd hd List.not_mem_nil
    | some best =>
      have hbest : best ∈ candidates :=
        (List.mem_insertionSort ranksBefore).mp (List.mem_of_head? hhead)
      rw [honoured_verdict_iff hbest hconfident]
      refine (good_head?_iff (totalOn_ranksBefore hnumbers) (transOn_ranksBefore hnumbers)
        hhead).trans ?_
      simp only [not_ranksBefore_iff]
      rfl
  · push Not at hconfident
    have hunrecognized : verdict (candidates.insertionSort ranksBefore).head? = .unrecognized := by
      cases hhead : (candidates.insertionSort ranksBefore).head? with
      | none => rfl
      | some best =>
        have hbest := (List.mem_insertionSort ranksBefore).mp (List.mem_of_head? hhead)
        exact verdict_some_of_not_confident (hconfident best hbest)
    rw [hunrecognized]
    refine iff_of_true ⟨iff_of_true rfl hconfident, fun d hd hsure => ?_⟩ (.inl hconfident)
    exact absurd hsure (hconfident d hd)

/-- What identification weighs: nothing of an empty file, else the candidates that the
grammars, the registry and the container scan propose for its head. -/
def Weighed (X : Crates) (host : GrammarHost) (gDir : String) (header : Bytes)
    (candidates : List DeviceIdentification) : Prop :=
  if header = [] then candidates = []
  else candidateMatches X host (host.resolve gDir) header = .ok candidates

/-- An empty file is answered at once. -/
theorem identifyDevice_of_empty (X : Crates) (host : GrammarHost) {evidence : EvidenceFile}
    (gDir : String) {plan : Schedule IoError} (hhead : headOf evidence plan = .ok []) :
    identifyDevice X host evidence gDir plan = .ok .unrecognized := by
  have hcontent := (headOf_eq_nil_iff hhead).mp rfl
  have hrefusal := (headOf_ok.mp hhead).1
  unfold identifyDevice
  rw [hrefusal, if_neg (by simp), openReadOnly_eq_ok.mpr hrefusal]
  dsimp only
  rw [hcontent]
  rfl

/-- Identification honours the stated priority exactly when a champion prevails in score or
no candidate is confident. -/
theorem identifyDevice_honoured_iff {X : Crates} {host : GrammarHost} {evidence : EvidenceFile}
    {gDir : String} {plan : Schedule IoError} {header : Bytes} {answer : DeviceIdentification}
    (hnumbers : RegistryNumbers host (host.resolve gDir))
    (hhead : headOf evidence plan = .ok header)
    (hcandidates : Weighed X host gDir header candidates)
    (h : identifyDevice X host evidence gDir plan = .ok answer) :
    Honoured candidates answer ↔
      (∀ d ∈ candidates, ¬ Confident d) ∨ ChampionPrevails candidates := by
  unfold Weighed at hcandidates
  split_ifs at hcandidates with hempty
  · subst hcandidates hempty
    rw [identifyDevice_of_empty X host gDir hhead] at h
    rw [← Except.ok.inj h]
    exact honoured_iff (fun d hd => absurd hd List.not_mem_nil)
  · rw [identifyDevice_eq X host gDir hhead hempty, hcandidates, ok_bind] at h
    rw [← Except.ok.inj h]
    refine honoured_iff fun d hd => ?_
    exact isNaN_of_proposed hnumbers ((mem_candidateMatches hcandidates d).mp hd)

/-- A verified grammar whose only rule has a weight of its own. -/
def weighedGrammar (weight : Float32) : DeviceGrammar where
  id := "cam-v1"
  name := "cam-v1"
  tier := 1
  descramblePlugin := none
  rules := [⟨0, some "CAM1", none⟩]
  structures := dahuaV1.structures
  vendor := none
  model := none
  chipset := none
  weights := [some weight]
  weights_length := rfl

def camVendor : RegistryVendor where
  name := "Cam"
  fullName := "Cam Systems"
  knownChipsets := []
  claimedOsFilesystem := ""
  thirdPartyToolSupport := ""
  signatures := [⟨some "CAM1", none, 0, 0.55⟩]

/-- The grammar in its directory, and beside it a registry with the same signature. -/
def camHost (weight : Float32) : GrammarHost where
  dirs path := if path = "grammars" then
    some (.ok [⟨"grammars/cam.yaml", some "yaml", some (weighedGrammar weight)⟩]) else none
  registries _ := .decoded ⟨[camVendor]⟩

theorem registryNumbers_camHost (weight : Float32) :
    RegistryNumbers (camHost weight) ((camHost weight).resolve "grammars") := by
  intro registry h vendor hvendor sig hsig
  have hload : VendorRegistry.loadFromPaths (camHost weight).registries
      ((camHost weight).resolve "grammars") = some ⟨[camVendor]⟩ := rfl
  rw [hload] at h
  obtain rfl := Option.some.inj h
  obtain rfl := List.mem_singleton.mp hvendor
  obtain rfl := List.mem_singleton.mp hsig
  decide

/-- What the grammar proposes. -/
def camDeclared (weight : Float32) : DeviceIdentification where
  recognized := true
  vendor := "cam-v1"
  model := none
  chipset := none
  confidence := ruleConfidence ⟨1, weight, some "CAM1"⟩ false
  matchedGrammarId := some "cam-v1"
  validationTier := some 1
  matchedSignature := some "CAM1"
  details := ["Matched 1 detection rule(s) in grammar 'cam-v1'"]

def camRegistered : DeviceIdentification :=
  camVendor.identification ⟨some "CAM1", none, 0, 0.55⟩

theorem headOf_camImage : headOf camImage eager = .ok (ascii "CAM1") := by decide +kernel

theorem weighed_camHost {weight : Float32} (h : weight = 0.45 ∨ weight = 0.80) :
    Weighed .sample (camHost weight) "grammars" (ascii "CAM1")
      [camDeclared weight, camRegistered] := by
  unfold Weighed
  rw [if_neg (by decide)]
  rcases h with rfl | rfl
  · decide +kernel
  · decide +kernel

/-- The grammar is sure enough and wins. -/
theorem identifyDevice_honoured_camHost :
    identifyDevice .sample (camHost 0.80) camImage "grammars" eager = .ok (camDeclared 0.80) ∧
      Honoured [camDeclared 0.80, camRegistered] (camDeclared 0.80) := by
  have hanswer : identifyDevice .sample (camHost 0.80) camImage "grammars" eager =
      .ok (camDeclared 0.80) := by decide +kernel
  refine ⟨hanswer, ?_⟩
  refine (identifyDevice_honoured_iff (registryNumbers_camHost 0.80) headOf_camImage
    (weighed_camHost (.inr rfl)) hanswer).mpr (.inr ?_)
  have hsure : Confident (camDeclared 0.80) := by decide +kernel
  refine ⟨[], camDeclared 0.80, [camRegistered], rfl, ⟨by simp, hsure, ?_⟩, by simp, ?_⟩
  · intro c hc _
    rcases List.mem_pair.mp hc with rfl | rfl
    · exact le_rfl
    · decide +kernel
  · intro c hc _
    obtain rfl := List.mem_singleton.mp hc
    decide +kernel

/-- A grammar below the threshold outscores a registry entry above it, and there is no
answer at all. -/
theorem registry_entry_lost :
    headOf camImage eager = .ok (ascii "CAM1") ∧
      Weighed .sample (camHost 0.45) "grammars" (ascii "CAM1")
        [camDeclared 0.45, camRegistered] ∧
      identifyDevice .sample (camHost 0.45) camImage "grammars" eager = .ok .unrecognized ∧
      ¬ Honoured [camDeclared 0.45, camRegistered] .unrecognized := by
  refine ⟨headOf_camImage, weighed_camHost (.inl rfl), by decide +kernel, ?_⟩
  intro h
  have hsure : Confident camRegistered := by decide +kernel
  exact h.unrecognized.mp rfl camRegistered (by simp) hsure

end Dvrft.Priority
