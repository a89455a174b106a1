import Dvrft.Identification

/-!
The order in which a directory is listed. Detection and identification both keep
the first of the files that their ranking puts on top, so the order shows exactly
when two such files lead to different answers.
-/

namespace Dvrft.ListingOrder

open Errors Machine Platform Grammar Acquisition ShortReads Interpreter CaseFiles Detection
open Containers Identification Binary32 Selection

theorem isNaN_ruleConfidence (s : RuleScan) (superblock : Bool) :
    (ruleConfidence s superblock).isNaN = false := by
  have hlimit : (0.99 : Float32).isNaN = false := by decide
  unfold ruleConfidence
  dsimp only
  split_ifs
  · exact isNaN_minimum_right hlimit
  · exact isNaN_minimum_right hlimit

theorem isFinite_tierPriority (tier : Option ℕ) : (tierPriority tier).isFinite = true := by
  unfold tierPriority
  split <;> decide

theorem isNaN_score {d : DeviceIdentification} (h : d.confidence.isNaN = false) :
    (score d).isNaN = false := isNaN_add_finite h (isFinite_tierPriority _)

/-- The confidence of a container is one of a few constants. -/
theorem isNaN_container {probe : Bytes} {d : DeviceIdentification}
    (h : detectVideoContainerOrStream probe = some d) : d.confidence.isNaN = false := by
  have hnumber : ∀ x ∈ [(0.95 : Float32), 0.96, 0.92, 0.90, 0.88, 0.85, 0.99],
      x.isNaN = false := by decide
  unfold detectVideoContainerOrStream at h
  split_ifs at h
  obtain ⟨step, hstep, h⟩ := List.exists_of_findSome?_eq_some h
  simp only [containerSteps, List.mem_cons, List.not_mem_nil, or_false] at hstep
  rcases hstep with rfl | rfl | rfl | rfl | rfl | rfl | rfl | rfl
  · unfold isoBaseMedia at h
    dsimp only at h
    split_ifs at h
    · rw [← Option.some.inj h]
      exact hnumber 0.95 (by simp)
    · rw [← Option.some.inj h]
      exact hnumber 0.95 (by simp)
    · split at h
      · rw [← Option.some.inj h]
        exact hnumber 0.96 (by simp)
      · rw [← Option.some.inj h]
        exact hnumber 0.92 (by simp)
  · unfold dahuaStream at h
    split at h
    · rw [← Option.some.inj h]
      exact hnumber 0.90 (by simp)
    · simp at h
  · unfold riffAvi at h
    split_ifs at h
    rw [← Option.some.inj h]
    exact hnumber 0.92 (by simp)
  · unfold matroska at h
    split_ifs at h
    rw [← Option.some.inj h]
    exact hnumber 0.92 (by simp)
  · unfold elementaryStream at h
    split at h
    · simp at h
    · split at h
      · simp at h
      · dsimp only at h
        split_ifs at h
        · rw [← Option.some.inj h]
          exact hnumber 0.92 (by simp)
        · rw [← Option.some.inj h]
          exact hnumber 0.92 (by simp)
  · unfold transportStream at h
    split_ifs at h
    rw [← Option.some.inj h]
    exact hnumber 0.88 (by simp)
  · unfold standardFilesystem at h
    split_ifs at h
    · rw [← Option.some.inj h]
      exact hnumber 0.85 (by simp)
    · rw [← Option.some.inj h]
      exact hnumber 0.85 (by simp)
    · rw [← Option.some.inj h]
      exact hnumber 0.85 (by simp)
  · unfold stillImage at h
    split_ifs at h
    · rw [← Option.some.inj h]
      exact hnumber 0.99 (by simp)
    · rw [← Option.some.inj h]
      exact hnumber 0.99 (by simp)

theorem onlyPanics_matchesAt (X : Crates) (data expected : Bytes) (offset : ℕ) :
    OnlyPanics (matchesAt X data offset expected) := by
  unfold matchesAt
  apply (X.build.onlyPanics_add _ _).bind
  intro stop
  split_ifs
  · exact (onlyPanics_slice _ _ _).bind fun found => onlyPanics_ok _
  · exact onlyPanics_ok _

theorem onlyPanics_parsing {α : Type} {x : Parsed α} (hx : OnlyPanics x) :
    OnlyPanics (parsing x) := by
  match x, hx with
  | .ok a, _ => exact onlyPanics_ok a
  | .error (.error e), hx => exact absurd rfl (hx e)
  | .error .panic, _ => exact onlyPanics_panicked

theorem onlyPanics_matchesRules (X : Crates) (header : Bytes) (rules : List DetectionRule) :
    OnlyPanics (matchesRules X header rules) := by
  induction rules with
  | nil => exact onlyPanics_ok _
  | cons rule rest ih =>
    unfold matchesRules
    split
    · exact onlyPanics_ok _
    · apply (onlyPanics_matchesAt _ _ _ _).bind
      intro found
      cases found with
      | true => exact ih
      | false => exact onlyPanics_ok _

theorem onlyPanics_entryMatch (X : Crates) (header : Bytes) (entry : GrammarEntry) :
    OnlyPanics (entryMatch X header entry) := by
  unfold entryMatch
  dsimp only
  split
  · apply OnlyPanics.bind
    · unfold matchesGrammar
      split_ifs
      · exact onlyPanics_ok _
      · exact onlyPanics_matchesRules _ _ _
    · intro found
      split
      · exact onlyPanics_ok _
      · exact onlyPanics_ok _
  · exact onlyPanics_ok _

theorem onlyPanics_scanRule (X : Crates) (probe : Bytes) (s : RuleScan)
    (p : DetectionRule × Option Float32) : OnlyPanics (scanRule X probe s p) := by
  unfold scanRule
  dsimp only
  split
  · exact onlyPanics_ok _
  · apply (onlyPanics_parsing (onlyPanics_matchesAt _ _ _ _)).bind
    intro found
    split_ifs
    · exact (X.build.onlyPanics_fitI32 _).bind fun count => onlyPanics_ok _
    · exact (X.build.onlyPanics_fitI32 _).bind fun count => onlyPanics_ok _
    · exact onlyPanics_ok _

theorem onlyPanics_superblockSeen (X : Crates) (probe : Bytes) (grammar : DeviceGrammar) :
    OnlyPanics (superblockSeen X probe grammar) := by
  unfold superblockSeen
  split
  · exact onlyPanics_ok _
  · split
    · exact onlyPanics_ok _
    · split
      · exact onlyPanics_ok _
      · exact onlyPanics_parsing (onlyPanics_matchesAt _ _ _ _)

theorem onlyPanics_entryCandidate (X : Crates) (probe : Bytes) (entry : DeviceEntry) :
    OnlyPanics (entryCandidate X probe entry) := by
  unfold entryCandidate
  split_ifs
  · exact onlyPanics_ok _
  · exact onlyPanics_ok _
  · split
    · exact onlyPanics_ok _
    · unfold grammarCandidate scanRules
      apply (onlyPanics_foldlM (onlyPanics_scanRule X probe) _ _).bind
      intro s
      split_ifs
      · exact (onlyPanics_superblockSeen _ _ _).bind fun superblock => onlyPanics_ok _
      · exact onlyPanics_ok _

/-- The grammars on top of the parser's order are one and the same, unless a
comparison ends the program. -/
def DetectionTies (X : Crates) (header : Bytes) (entries : List DeviceEntry) : Prop :=
  (∀ entry ∈ entries, Comparable X header entry.forParser) →
    ∀ e₁ ∈ entries, ∀ e₂ ∈ entries, ∀ g₁ g₂, Matches X header e₁.forParser g₁ →
      Matches X header e₂.forParser g₂ →
      (∀ e ∈ entries, ∀ g, Matches X header e.forParser g →
        precedes (g₁, e₁.path) (g, e.path) ∧ precedes (g₂, e₂.path) (g, e.path)) → g₁ = g₂

/-- The match that an entry contributes. -/
def matchOf (X : Crates) (header : Bytes) (entry : DeviceEntry) : Option (GrammarFile × String) :=
  yields (entryMatch X header) entry.forParser

/-- The parser's grammar, given the match that came out first. -/
def grammarOf (evidence : EvidenceFile) (path : String) :
    Option (GrammarFile × String) → Parsed GrammarFile
  | some found => .ok found.1
  | none => fail (.detectionFailed evidence.path path)

theorem matchOf_eq_some {X : Crates} {header : Bytes} {entry : DeviceEntry}
    {p : GrammarFile × String} :
    matchOf X header entry = some p ↔ Matches X header entry.forParser p.1 ∧ p.2 = entry.path := by
  unfold matchOf
  rw [yields_eq_some, entryMatch_eq_some]
  rfl

theorem leads_matches_iff {X : Crates} {header : Bytes} {entries : List DeviceEntry}
    {b : GrammarFile × String} :
    Leads precedes (entries.filterMap (matchOf X header)) b ↔
      ∀ e ∈ entries, ∀ g, Matches X header e.forParser g → precedes b (g, e.path) := by
  constructor
  · intro h e he g hg
    exact h (g, e.path) (List.mem_filterMap.mpr ⟨e, he, matchOf_eq_some.mpr ⟨hg, rfl⟩⟩)
  · intro h c hc
    obtain ⟨e, he, hmatch⟩ := List.mem_filterMap.mp hc
    obtain ⟨hg, hpath⟩ := matchOf_eq_some.mp hmatch
    have hbefore := h e he c.1 hg
    rwa [← hpath] at hbefore

theorem detectGrammar_of_comparable {X : Crates} {evidence : EvidenceFile}
    {plan : Schedule IoError} {header : Bytes} (hhead : headOf evidence plan = .ok header)
    (path : String) {l : List DeviceEntry}
    (hall : ∀ entry ∈ l, Comparable X header entry.forParser) :
    (detectGrammar X evidence ⟨path, .ok (l.map DeviceEntry.forParser)⟩ plan).map Prod.fst =
      grammarOf evidence path
        ((l.filterMap (matchOf X header)).insertionSort precedes).head? := by
  have hfound : matching X header (l.map DeviceEntry.forParser) =
      .ok (l.filterMap (matchOf X header)) := by
    rw [matching_ok_iff]
    refine ⟨List.forall_mem_map.mpr hall, ?_⟩
    rw [List.filterMap_map]
    rfl
  rw [detectGrammar_eq X evidence _ plan hhead rfl, hfound, ok_bind]
  cases ((l.filterMap (matchOf X header)).insertionSort precedes).head? <;> rfl

theorem matching_panicked {X : Crates} {header : Bytes} {entries : List GrammarEntry}
    (hnot : ¬ ∀ entry ∈ entries, Comparable X header entry) :
    matching X header entries = panicked := by
  apply OnlyPanics.eq_panicked
  · rw [matching_eq]
    exact (onlyPanics_mapM (onlyPanics_entryMatch X header) _).bind fun found => onlyPanics_ok _
  · intro found hfound
    exact hnot (matching_ok_iff.mp hfound).1

/-- A comparison that ends the program ends it wherever the file is listed. -/
theorem detectGrammar_panicked {X : Crates} {evidence : EvidenceFile} {plan : Schedule IoError}
    {header : Bytes} (hhead : headOf evidence plan = .ok header) (path : String)
    {l : List DeviceEntry} (hnot : ¬ ∀ entry ∈ l, Comparable X header entry.forParser) :
    detectGrammar X evidence ⟨path, .ok (l.map DeviceEntry.forParser)⟩ plan = panicked := by
  have hmatching : matching X header (l.map DeviceEntry.forParser) = panicked :=
    matching_panicked (mt List.forall_mem_map.mp hnot)
  rw [detectGrammar_eq X evidence _ plan hhead rfl, hmatching]
  rfl

theorem detection_order_iff (X : Crates) (evidence : EvidenceFile) (plan : Schedule IoError)
    (path : String) {header : Bytes} (hhead : headOf evidence plan = .ok header)
    (entries : List DeviceEntry) :
    (∀ l' : List DeviceEntry, l'.Perm entries →
        (detectGrammar X evidence ⟨path, .ok (l'.map DeviceEntry.forParser)⟩ plan).map Prod.fst =
          (detectGrammar X evidence ⟨path, .ok (entries.map DeviceEntry.forParser)⟩ plan).map
            Prod.fst) ↔
      DetectionTies X header entries := by
  have hsame : ∀ l' : List DeviceEntry, l'.Perm entries →
      ((∀ entry ∈ l', Comparable X header entry.forParser) ↔
        ∀ entry ∈ entries, Comparable X header entry.forParser) :=
    fun l' hperm => forall_congr' fun entry => by rw [hperm.mem_iff]
  by_cases hall : ∀ entry ∈ entries, Comparable X header entry.forParser
  · have hanswer : ∀ l : List DeviceEntry, l.Perm entries →
        (detectGrammar X evidence ⟨path, .ok (l.map DeviceEntry.forParser)⟩ plan).map Prod.fst =
          grammarOf evidence path
            ((l.filterMap (matchOf X header)).insertionSort precedes).head? :=
      fun l hperm => detectGrammar_of_comparable hhead path ((hsame l hperm).mpr hall)
    have hiff := head?_perm_iff precedes (matchOf X header) (grammarOf evidence path) entries []
      (totalOn_precedes _) (transOn_precedes _)
    simp only [List.append_nil, leads_matches_iff] at hiff
    constructor
    · intro h _ e₁ he₁ e₂ he₂ g₁ g₂ hg₁ hg₂ htop
      have hequal := hiff.mp (by
        intro l' hperm
        have hsorted := h l' hperm
        rwa [hanswer l' hperm, hanswer entries (.refl _)] at hsorted)
        e₁ he₁ e₂ he₂ (g₁, e₁.path) (g₂, e₂.path)
        (matchOf_eq_some.mpr ⟨hg₁, rfl⟩) (matchOf_eq_some.mpr ⟨hg₂, rfl⟩)
        (fun e he g hg => (htop e he g hg).1) (fun e he g hg => (htop e he g hg).2)
      exact Except.ok.inj hequal
    · intro h l' hperm
      rw [hanswer l' hperm, hanswer entries (.refl _)]
      apply hiff.mpr _ l' hperm
      intro e₁ he₁ e₂ he₂ b₁ b₂ hb₁ hb₂ hlead₁ hlead₂
      obtain ⟨hg₁, hpath₁⟩ := matchOf_eq_some.mp hb₁
      obtain ⟨hg₂, hpath₂⟩ := matchOf_eq_some.mp hb₂
      have hequal := h hall e₁ he₁ e₂ he₂ b₁.1 b₂.1 hg₁ hg₂ (by
        intro e he g hg
        rw [← hpath₁, ← hpath₂]
        exact ⟨hlead₁ e he g hg, hlead₂ e he g hg⟩)
      exact congrArg Except.ok hequal
  · constructor
    · intro _ hcomparable
      exact absurd hcomparable hall
    · intro _ l' hperm
      rw [detectGrammar_panicked hhead path (mt (hsame l' hperm).mp hall),
        detectGrammar_panicked hhead path hall]

theorem onlyPanics_vendorCandidate (X : Crates) (probe : Bytes) (vendor : RegistryVendor)
    (signatures : List RegistrySignature) :
    OnlyPanics (vendorCandidate X probe vendor signatures) := by
  induction signatures with
  | nil => exact onlyPanics_ok _
  | cons sig rest ih =>
    unfold vendorCandidate
    split
    · exact ih
    · apply (onlyPanics_parsing (onlyPanics_matchesAt _ _ _ _)).bind
      intro found
      split_ifs
      · exact onlyPanics_ok _
      · exact ih

theorem onlyPanics_registryCandidates (X : Crates) (probe : Bytes)
    (registry : Option VendorRegistry) : OnlyPanics (registryCandidates X probe registry) := by
  cases registry with
  | none => exact onlyPanics_ok _
  | some r =>
    unfold registryCandidates
    exact (onlyPanics_mapM (fun vendor => onlyPanics_vendorCandidate _ _ _ _) _).bind
      fun found => onlyPanics_ok _

/-- The answer for a head, given the registry and the entries in their order. -/
def answerFrom (X : Crates) (probe : Bytes) (registry : Option VendorRegistry)
    (entries : List DeviceEntry) : Identified DeviceIdentification := do
  let declared ← grammarCandidates X probe entries
  let registered ← registryCandidates X probe registry
  .ok (verdict ((declared ++ (registered ++
    (detectVideoContainerOrStream probe).toList)).insertionSort ranksBefore).head?)

theorem identifyDevice_eq_answerFrom (X : Crates) (host : GrammarHost) {evidence : EvidenceFile}
    (gDir : String) {plan : Schedule IoError} {header : Bytes}
    (hhead : headOf evidence plan = .ok header) (hne : header ≠ []) :
    identifyDevice X host evidence gDir plan =
      answerFrom X header (VendorRegistry.loadFromPaths host.registries (host.resolve gDir))
        (host.entries (host.resolve gDir)) := by
  rw [identifyDevice_eq X host gDir hhead hne]
  unfold candidateMatches answerFrom
  cases grammarCandidates X header (host.entries (host.resolve gDir)) with
  | error e => rfl
  | ok declared =>
    cases registryCandidates X header
        (VendorRegistry.loadFromPaths host.registries (host.resolve gDir)) <;> rfl

/-- The registry weighs its signatures with numbers. -/
def RegistryNumbers (host : GrammarHost) (gDir : String) : Prop :=
  ∀ registry, VendorRegistry.loadFromPaths host.registries gDir = some registry →
    ∀ vendor ∈ registry.vendors, ∀ sig ∈ vendor.signatures, sig.weight.isNaN = false

theorem isNaN_of_proposed {X : Crates} {host : GrammarHost} {gDir : String} {header : Bytes}
    (hnumbers : RegistryNumbers host gDir) {d : DeviceIdentification}
    (h : Proposed X host gDir header d) : d.confidence.isNaN = false := by
  rcases h with ⟨entry, -, hcandidate⟩ | ⟨registry, hload, vendor, hvendor, hcandidate⟩ | hscan
  · obtain ⟨grammar, -, hgrammar⟩ := entryCandidate_ok hcandidate
    obtain ⟨-, -, ⟨s, superblock, hconfidence⟩, -⟩ := grammarCandidate_ok hgrammar
    rw [hconfidence]
    exact isNaN_ruleConfidence s superblock
  · obtain ⟨sig, hsig, rfl⟩ := vendorCandidate_ok hcandidate
    exact hnumbers registry hload vendor hvendor sig hsig
  · exact isNaN_container hscan

theorem totalOn_ranksBefore {l : List DeviceIdentification}
    (hl : ∀ d ∈ l, d.confidence.isNaN = false) : TotalOn ranksBefore l := by
  intro a ha b hb
  unfold ranksBefore
  by_cases hlt : score a < score b
  · right
    exact not_lt_of_lt (isNaN_score (hl a ha)) (isNaN_score (hl b hb)) hlt
  · left
    exact hlt

theorem transOn_ranksBefore {l : List DeviceIdentification}
    (hl : ∀ d ∈ l, d.confidence.isNaN = false) : TransOn ranksBefore l := by
  intro a ha b hb c hc hab hbc
  exact not_lt_trans (isNaN_score (hl a ha)) (isNaN_score (hl b hb)) (isNaN_score (hl c hc))
    hab hbc

/-- The files whose candidates no candidate outscores lead to one and the same answer,
unless a comparison ends the program. -/
def IdentificationTies (X : Crates) (host : GrammarHost) (gDir : String) (header : Bytes) :
    Prop :=
  (∀ entry ∈ host.entries gDir, ∃ o, entryCandidate X header entry = .ok o) →
    (∀ registry, VendorRegistry.loadFromPaths host.registries gDir = some registry →
      ∀ vendor ∈ registry.vendors,
        ∃ o, vendorCandidate X header vendor vendor.signatures = .ok o) →
    ∀ e₁ ∈ host.entries gDir, ∀ e₂ ∈ host.entries gDir, ∀ d₁ d₂,
      entryCandidate X header e₁ = .ok (some d₁) → entryCandidate X header e₂ = .ok (some d₂) →
      (∀ d, Proposed X host gDir header d → ¬ score d₁ < score d ∧ ¬ score d₂ < score d) →
        verdict (some d₁) = verdict (some d₂)

theorem onlyPanics_answerFrom (X : Crates) (probe : Bytes) (registry : Option VendorRegistry)
    (entries : List DeviceEntry) : OnlyPanics (answerFrom X probe registry entries) := by
  unfold answerFrom grammarCandidates
  apply OnlyPanics.bind
  · exact (onlyPanics_mapM (onlyPanics_entryCandidate X probe) _).bind
      fun found => onlyPanics_ok _
  · intro declared
    exact (onlyPanics_registryCandidates X probe registry).bind fun found => onlyPanics_ok _

/-- An answer means that no comparison ended the program. -/
theorem comparable_of_answerFrom {X : Crates} {probe : Bytes} {registry : Option VendorRegistry}
    {entries : List DeviceEntry} {d : DeviceIdentification}
    (h : answerFrom X probe registry entries = .ok d) :
    (∀ entry ∈ entries, ∃ o, entryCandidate X probe entry = .ok o) ∧
      ∀ r, registry = some r → ∀ vendor ∈ r.vendors,
        ∃ o, vendorCandidate X probe vendor vendor.signatures = .ok o := by
  unfold answerFrom at h
  obtain ⟨declared, hdeclared, h⟩ := bind_ok.mp h
  obtain ⟨registered, hregistered, -⟩ := bind_ok.mp h
  exact ⟨(grammarCandidates_ok_iff.mp hdeclared).1, (registryCandidates_ok_iff.mp hregistered).1⟩

theorem answerFrom_of_comparable {X : Crates} {probe : Bytes} {registry : Option VendorRegistry}
    {l : List DeviceEntry} {registered : List DeviceIdentification}
    (hall : ∀ entry ∈ l, ∃ o, entryCandidate X probe entry = .ok o)
    (hregistered : registryCandidates X probe registry = .ok registered) :
    answerFrom X probe registry l =
      .ok (verdict ((l.filterMap (yields (entryCandidate X probe)) ++
        (registered ++ (detectVideoContainerOrStream probe).toList)).insertionSort
          ranksBefore).head?) := by
  have hdeclared : grammarCandidates X probe l =
      .ok (l.filterMap (yields (entryCandidate X probe))) :=
    grammarCandidates_ok_iff.mpr ⟨hall, rfl⟩
  unfold answerFrom
  rw [hdeclared, ok_bind, hregistered, ok_bind]

theorem mem_candidates_iff {X : Crates} {host : GrammarHost} {gDir : String} {header : Bytes}
    {registered : List DeviceIdentification}
    (hall : ∀ entry ∈ host.entries gDir, ∃ o, entryCandidate X header entry = .ok o)
    (hregistered : registryCandidates X header
      (VendorRegistry.loadFromPaths host.registries gDir) = .ok registered)
    (d : DeviceIdentification) :
    d ∈ (host.entries gDir).filterMap (yields (entryCandidate X header)) ++
        (registered ++ (detectVideoContainerOrStream header).toList) ↔
      Proposed X host gDir header d := by
  have hdeclared : grammarCandidates X header (host.entries gDir) =
      .ok ((host.entries gDir).filterMap (yields (entryCandidate X header))) :=
    grammarCandidates_ok_iff.mpr ⟨hall, rfl⟩
  apply mem_candidateMatches
  unfold candidateMatches
  rw [hdeclared, ok_bind, hregistered, ok_bind]

theorem identification_order_iff (X : Crates) (host : GrammarHost) (gDir : String)
    (header : Bytes) (hnumbers : RegistryNumbers host gDir) :
    (∀ l' : List DeviceEntry, l'.Perm (host.entries gDir) →
        answerFrom X header (VendorRegistry.loadFromPaths host.registries gDir) l' =
          answerFrom X header (VendorRegistry.loadFromPaths host.registries gDir)
            (host.entries gDir)) ↔
      IdentificationTies X host gDir header := by
  let registry := VendorRegistry.loadFromPaths host.registries gDir
  by_cases hcomparable : (∀ entry ∈ host.entries gDir, ∃ o, entryCandidate X header entry = .ok o) ∧
      ∀ r, registry = some r → ∀ vendor ∈ r.vendors,
        ∃ o, vendorCandidate X header vendor vendor.signatures = .ok o
  · obtain ⟨hall, hregistry⟩ := hcomparable
    obtain ⟨registered, hregistered⟩ : ∃ registered,
        registryCandidates X header registry = .ok registered :=
      ⟨_, registryCandidates_ok_iff.mpr ⟨hregistry, rfl⟩⟩
    have hanswer : ∀ l : List DeviceEntry, l.Perm (host.entries gDir) →
        answerFrom X header registry l =
          .ok (verdict ((l.filterMap (yields (entryCandidate X header)) ++
            (registered ++ (detectVideoContainerOrStream header).toList)).insertionSort
              ranksBefore).head?) :=
      fun l hperm => answerFrom_of_comparable
        (fun entry hentry => hall entry (hperm.subset hentry)) hregistered
    have hmem := mem_candidates_iff hall hregistered
    have hnumber := fun d hd => isNaN_of_proposed hnumbers ((hmem d).mp hd)
    have hiff := head?_perm_iff ranksBefore (yields (entryCandidate X header)) verdict
      (host.entries gDir) (registered ++ (detectVideoContainerOrStream header).toList)
      (totalOn_ranksBefore hnumber) (transOn_ranksBefore hnumber)
    constructor
    · intro h _ _ e₁ he₁ e₂ he₂ d₁ d₂ hd₁ hd₂ htop
      apply hiff.mp _ e₁ he₁ e₂ he₂ d₁ d₂ (yields_eq_some.mpr hd₁) (yields_eq_some.mpr hd₂)
      · intro d hd
        exact (htop d ((hmem d).mp hd)).1
      · intro d hd
        exact (htop d ((hmem d).mp hd)).2
      · intro l' hperm
        have hsame := h l' hperm
        rw [hanswer l' hperm, hanswer _ (.refl _)] at hsame
        exact Except.ok.inj hsame
    · intro h l' hperm
      rw [hanswer l' hperm, hanswer _ (.refl _)]
      congr 1
      apply hiff.mpr _ l' hperm
      intro e₁ he₁ e₂ he₂ d₁ d₂ hd₁ hd₂ hlead₁ hlead₂
      apply h hall hregistry e₁ he₁ e₂ he₂ d₁ d₂ (yields_eq_some.mp hd₁) (yields_eq_some.mp hd₂)
      intro d hd
      exact ⟨hlead₁ d ((hmem d).mpr hd), hlead₂ d ((hmem d).mpr hd)⟩
  · -- some comparison ends the program, in whatever order the files are read
    have hpanics : ∀ l : List DeviceEntry, l.Perm (host.entries gDir) →
        answerFrom X header registry l = panicked := fun l hperm =>
      (onlyPanics_answerFrom X header registry l).eq_panicked fun d hd =>
        hcomparable ⟨fun entry hentry =>
          (comparable_of_answerFrom hd).1 entry (hperm.symm.subset hentry),
          (comparable_of_answerFrom hd).2⟩
    constructor
    · intro _ hall hregistry
      exact absurd ⟨hall, hregistry⟩ hcomparable
    · intro _ l' hperm
      exact (hpanics l' hperm).trans (hpanics _ (.refl _)).symm

/-- The same directories with the same files, listed in orders of their own. -/
inductive SameListing : Option (Except IoError (List DeviceEntry)) →
    Option (Except IoError (List DeviceEntry)) → Prop
  | listed {l l' : List DeviceEntry} (h : l'.Perm l) : SameListing (some (.ok l)) (some (.ok l'))
  | same (d : Option (Except IoError (List DeviceEntry))) : SameListing d d

structure Reordered (host host' : GrammarHost) : Prop where
  registries : host'.registries = host.registries
  dirs : ∀ path, SameListing (host.dirs path) (host'.dirs path)

theorem Reordered.dirs_cases {host host' : GrammarHost} (h : Reordered host host')
    (path : String) :
    (∃ l l', host.dirs path = some (.ok l) ∧ host'.dirs path = some (.ok l') ∧ l'.Perm l) ∨
      host'.dirs path = host.dirs path := by
  have hpath := h.dirs path
  generalize host.dirs path = d at hpath
  generalize host'.dirs path = d' at hpath
  cases hpath with
  | listed hperm => exact .inl ⟨_, _, rfl, rfl, hperm⟩
  | same => exact .inr rfl

theorem resolve_of_reordered {host host' : GrammarHost} (h : Reordered host host')
    (gDir : String) : host'.resolve gDir = host.resolve gDir := by
  have hsome : ∀ path, (host'.dirs path).isSome = (host.dirs path).isSome := by
    intro path
    rcases h.dirs_cases path with ⟨l, l', hl, hl', -⟩ | hsame
    · rw [hl, hl']
      rfl
    · rw [hsame]
  unfold GrammarHost.resolve
  simp only [hsome]

theorem entries_of_reordered {host host' : GrammarHost} (h : Reordered host host')
    (gDir : String) : (host'.entries gDir).Perm (host.entries gDir) := by
  rcases h.dirs_cases gDir with ⟨l, l', hl, hl', hperm⟩ | hsame
  · rw [(entries_of_listed hl).2.1, (entries_of_listed hl').2.1]
    exact hperm
  · unfold GrammarHost.entries
    rw [hsame]

/-- Every order of the entries of a directory is that of some listing. -/
theorem exists_reordered (host : GrammarHost) (gDir : String) {l' : List DeviceEntry}
    (hperm : l'.Perm (host.entries gDir)) :
    ∃ host', Reordered host host' ∧ host'.entries gDir = l' ∧
      ∀ l, host.dirs gDir = some (.ok l) → host'.dirs gDir = some (.ok l') := by
  by_cases hlisted : ∃ l, host.dirs gDir = some (.ok l)
  · obtain ⟨l, hdir⟩ := hlisted
    let dirs := fun path => if path = gDir then some (.ok l') else host.dirs path
    have hdir' : dirs gDir = some (.ok l') := if_pos rfl
    refine ⟨{ host with dirs := dirs }, ⟨rfl, ?_⟩, (entries_of_listed hdir').2.1, fun _ _ => hdir'⟩
    intro path
    change SameListing (host.dirs path) (dirs path)
    by_cases hpath : path = gDir
    · subst hpath
      rw [hdir, hdir']
      rw [(entries_of_listed hdir).2.1] at hperm
      exact .listed hperm
    · have hsame : dirs path = host.dirs path := if_neg hpath
      rw [hsame]
      exact .same _
  · push Not at hlisted
    have hnil := entries_of_unlisted hlisted
    rw [hnil, List.perm_nil] at hperm
    subst hperm
    exact ⟨host, ⟨rfl, fun path => .same _⟩, hnil, fun l hl => absurd hl (hlisted l)⟩

theorem detectGrammar_of_no_head (X : Crates) {evidence : EvidenceFile} {plan : Schedule IoError}
    {e : IoError} (h : headOf evidence plan = .error e) (grammarsDir : GrammarsDir) :
    detectGrammar X evidence grammarsDir plan = fail (.io e) := by
  unfold headOf at h
  unfold detectGrammar
  cases hrefusal : evidence.refusal with
  | some e' =>
    simp only [hrefusal, Except.error.injEq] at h
    rw [h]
  | none =>
    cases hread : (Reader.opened evidence.content.bytes plan).read headerSize with
    | error e' =>
      simp only [hrefusal, hread, Except.error.injEq] at h
      rw [h]
    | ok result => simp [hrefusal, hread] at h

theorem detection_listing_iff (X : Crates) (host : GrammarHost) (evidence : EvidenceFile)
    (gDir : String) (plan : Schedule IoError) {header : Bytes}
    (hhead : headOf evidence plan = .ok header) :
    (∀ host', Reordered host host' →
        (detectGrammar X evidence (host'.grammarsDir gDir) plan).map Prod.fst =
          (detectGrammar X evidence (host.grammarsDir gDir) plan).map Prod.fst) ↔
      DetectionTies X header (host.entries gDir) := by
  constructor
  · intro h
    by_cases hlisted : ∃ l, host.dirs gDir = some (.ok l)
    · obtain ⟨l, hl⟩ := hlisted
      obtain ⟨-, hentries, hdir⟩ := entries_of_listed hl
      apply (detection_order_iff X evidence plan gDir hhead _).mp
      intro l' hperm
      obtain ⟨host', hreordered, -, hdirs⟩ := exists_reordered host gDir hperm
      have hsame := h host' hreordered
      rwa [(entries_of_listed (hdirs l hl)).2.2, hdir, ← hentries] at hsame
    · push Not at hlisted
      intro _ e₁ he₁
      rw [entries_of_unlisted hlisted] at he₁
      exact absurd he₁ List.not_mem_nil
  · intro h host' hreordered
    rcases hreordered.dirs_cases gDir with ⟨l, l', hl, hl', hperm⟩ | hsame
    · obtain ⟨-, hentries, hdir⟩ := entries_of_listed hl
      obtain ⟨-, -, hdir'⟩ := entries_of_listed hl'
      rw [hentries] at h
      rw [hdir, hdir']
      exact (detection_order_iff X evidence plan gDir hhead l).mpr h l' hperm
    · unfold GrammarHost.grammarsDir
      rw [hsame]

theorem identification_listing_iff (X : Crates) (host : GrammarHost) (evidence : EvidenceFile)
    (gDir : String) (plan : Schedule IoError) {header : Bytes}
    (hhead : headOf evidence plan = .ok header) (hne : header ≠ [])
    (hnumbers : RegistryNumbers host (host.resolve gDir)) :
    (∀ host', Reordered host host' →
        identifyDevice X host' evidence gDir plan = identifyDevice X host evidence gDir plan) ↔
      IdentificationTies X host (host.resolve gDir) header := by
  have hanswer : ∀ host', Reordered host host' →
      identifyDevice X host' evidence gDir plan =
        answerFrom X header (VendorRegistry.loadFromPaths host.registries (host.resolve gDir))
          (host'.entries (host.resolve gDir)) := by
    intro host' hreordered
    rw [identifyDevice_eq_answerFrom X host' gDir hhead hne, resolve_of_reordered hreordered,
      hreordered.registries]
  rw [identifyDevice_eq_answerFrom X host gDir hhead hne,
    ← identification_order_iff X host _ header hnumbers]
  constructor
  · intro h l' hperm
    obtain ⟨host', hreordered, hentries, -⟩ := exists_reordered host (host.resolve gDir) hperm
    have hsame := h host' hreordered
    rwa [hanswer host' hreordered, hentries] at hsame
  · intro h host' hreordered
    rw [hanswer host' hreordered]
    exact h _ (entries_of_reordered hreordered _)

/-- The order of the listing shows in neither answer exactly when, for the head of the
evidence, the files on top of either ranking agree. -/
theorem listing_order_iff (X : Crates) (host : GrammarHost) (evidence : EvidenceFile)
    (gDir : String) (plan : Schedule IoError)
    (hnumbers : RegistryNumbers host (host.resolve gDir)) :
    (∀ host', Reordered host host' →
        (detectGrammar X evidence (host'.grammarsDir gDir) plan).map Prod.fst =
            (detectGrammar X evidence (host.grammarsDir gDir) plan).map Prod.fst ∧
          identifyDevice X host' evidence gDir plan = identifyDevice X host evidence gDir plan) ↔
      ∀ header, headOf evidence plan = .ok header →
        DetectionTies X header (host.entries gDir) ∧
          (header ≠ [] → IdentificationTies X host (host.resolve gDir) header) := by
  constructor
  · intro h header hhead
    refine ⟨?_, ?_⟩
    · exact (detection_listing_iff X host evidence gDir plan hhead).mp fun host' hreordered =>
        (h host' hreordered).1
    · intro hne
      exact (identification_listing_iff X host evidence gDir plan hhead hne hnumbers).mp
        fun host' hreordered => (h host' hreordered).2
  · intro h host' hreordered
    refine ⟨?_, ?_⟩
    · cases hhead : headOf evidence plan with
      | error e => rw [detectGrammar_of_no_head X hhead, detectGrammar_of_no_head X hhead]
      | ok header =>
        exact (detection_listing_iff X host evidence gDir plan hhead).mpr (h header hhead).1
          host' hreordered
    · by_cases hnone : ∀ header, headOf evidence plan = .ok header → header = []
      · obtain ⟨answer, -, hanswer⟩ := identifyDevice_of_no_head hnone
        rw [hanswer, hanswer]
      · push Not at hnone
        obtain ⟨header, hhead, hne⟩ := hnone
        exact (identification_listing_iff X host evidence gDir plan hhead hne hnumbers).mpr
          ((h header hhead).2 hne) host' hreordered

def camA : DeviceEntry :=
  ⟨"grammars/cam-a.yaml", some "yaml", some (plainGrammar "cam-a" [⟨0, some "CAM1", none⟩])⟩

def camB : DeviceEntry :=
  ⟨"grammars/cam-b.yaml", some "yaml", some (plainGrammar "cam-b" [⟨0, some "CAM1", none⟩])⟩

def twins : GrammarHost := oneDirectory "grammars" [camA, camB]

theorem registryNumbers_twins : RegistryNumbers twins (twins.resolve "grammars") := by
  intro registry h
  have hnone : VendorRegistry.loadFromPaths twins.registries (twins.resolve "grammars") = none :=
    rfl
  rw [hnone] at h
  simp at h

theorem listing_order_iff_twins :
    (∀ host', Reordered twins host' →
        (detectGrammar .sample camImage (host'.grammarsDir "grammars") eager).map Prod.fst =
            (detectGrammar .sample camImage (twins.grammarsDir "grammars") eager).map Prod.fst ∧
          identifyDevice .sample host' camImage "grammars" eager =
            identifyDevice .sample twins camImage "grammars" eager) ↔
      ∀ header, headOf camImage eager = .ok header →
        DetectionTies .sample header [camA, camB] ∧
          (header ≠ [] → IdentificationTies .sample twins "grammars" header) :=
  listing_order_iff .sample twins camImage "grammars" eager registryNumbers_twins

/-- Two files with the same signature, tier and number of rules: the answers are the
first one's grammar and the first one's id. -/
theorem listing_order_shows :
    Reordered twins (oneDirectory "grammars" [camB, camA]) ∧
      (detectGrammar .sample camImage (twins.grammarsDir "grammars") eager).map
          (fun best => best.1.id) = .ok "cam-a" ∧
      (detectGrammar .sample camImage
          ((oneDirectory "grammars" [camB, camA]).grammarsDir "grammars") eager).map
          (fun best => best.1.id) = .ok "cam-b" ∧
      (identifyDevice .sample twins camImage "grammars" eager).map
          (fun d => d.matchedGrammarId) = .ok (some "cam-a") ∧
      (identifyDevice .sample (oneDirectory "grammars" [camB, camA]) camImage "grammars"
          eager).map (fun d => d.matchedGrammarId) = .ok (some "cam-b") := by
  refine ⟨⟨rfl, ?_⟩, by decide, by decide, by decide +kernel, by decide +kernel⟩
  intro path
  unfold twins oneDirectory
  dsimp only
  split_ifs
  · exact .listed (.swap _ _ _)
  · exact .same _

end Dvrft.ListingOrder
