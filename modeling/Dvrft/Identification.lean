import Dvrft.Containers
import Dvrft.Detection
import Dvrft.Paths
import Dvrft.Selection

/-!
Device identification: every grammar file of a directory, every vendor of the
registry and the container scan may propose an answer for the head of the
evidence. The answer with the best score is given if it is confident enough.
-/

namespace Dvrft.Identification

open Errors Machine Platform Grammar Acquisition ShortReads Interpreter CaseFiles Detection
open Containers Binary32 Selection Texts

inductive IdentificationError where
  | imageNotFound (path : String)
  | ioError (path : String) (source : AcquisitionError)
  | parserError (source : ParserError)
  deriving DecidableEq, Repr

abbrev Identified := Outcome IdentificationError

/-- The comparisons with the head are those of the parser. -/
def parsing {α : Type} : Parsed α → Identified α
  | .ok a => .ok a
  | .error (.error e) => fail (.parserError e)
  | .error .panic => panicked

/-- `MIN_CONFIDENCE_THRESHOLD`. -/
def minConfidenceThreshold : Float32 := 0.50

/-- A grammar with what only identification reads: a weight for each rule, and the
device it is about. -/
structure DeviceGrammar extends GrammarFile where
  vendor : Option String
  model : Option String
  chipset : Option String
  weights : List (Option Float32)
  weights_length : weights.length = rules.length
  deriving DecidableEq

/-- A directory entry; `grammar` is what its text loads as. -/
structure DeviceEntry where
  path : String
  extension : Option String
  grammar : Option DeviceGrammar
  deriving DecidableEq

/-- The same entry, as the parser reads it. -/
def DeviceEntry.forParser (entry : DeviceEntry) : GrammarEntry where
  path := entry.path
  extension := entry.extension
  grammar := entry.grammar.map DeviceGrammar.toGrammarFile

structure RegistrySignature where
  magicAscii : Option String
  magicHex : Option String
  offset : ℕ
  weight : Float32
  deriving DecidableEq

structure RegistryVendor where
  name : String
  fullName : String
  knownChipsets : List String
  claimedOsFilesystem : String
  thirdPartyToolSupport : String
  signatures : List RegistrySignature
  deriving DecidableEq

structure VendorRegistry where
  vendors : List RegistryVendor
  deriving DecidableEq

/-- What lies at a path where a registry is looked for. -/
inductive RegistryFile where
  | missing
  | unreadable
  | decoded (registry : VendorRegistry)

/-- Where the registry is looked for; a place that would lie above the root is the
empty path. -/
def registryPaths (gDir : String) : List String :=
  let parent := Paths.parent gDir
  let grandparent := parent.bind Paths.parent
  [Paths.join gDir "vendor_registry.yaml",
    (parent.map fun p => Paths.join p "vendor_registry.yaml").getD "",
    (parent.map fun p => Paths.join p "engine/vendor_registry.yaml").getD "",
    (grandparent.map fun p => Paths.join p "engine/vendor_registry.yaml").getD "",
    (grandparent.map fun p => Paths.join p "grammars/vendor_registry.yaml").getD ""]

def VendorRegistry.loadFromPaths (files : String → RegistryFile) (gDir : String) :
    Option VendorRegistry :=
  (registryPaths gDir).findSome? fun path =>
    match files path with
    | .decoded registry => some registry
    | _ => none

/-- The grammar directories and registry files of a file system. -/
structure GrammarHost where
  /-- What exists at a path, and what listing it gives. -/
  dirs : String → Option (Except IoError (List DeviceEntry))
  registries : String → RegistryFile

def fallbackDirs : List String :=
  ["../grammars", "grammars", "../../grammars", "scratch/dvr-forensics/grammars",
    "C:/Users/HP/.gemini/antigravity/scratch/dvr-forensics/grammars"]

namespace GrammarHost

/-- The directory that identification uses for the one it is given. -/
def resolve (host : GrammarHost) (gDir : String) : String :=
  if (host.dirs gDir).isSome then gDir
  else (fallbackDirs.find? fun p => (host.dirs p).isSome).getD gDir

/-- The entries that identification sees; a directory that cannot be listed has none. -/
def entries (host : GrammarHost) (gDir : String) : List DeviceEntry :=
  match host.dirs gDir with
  | some (.ok entries) => entries
  | _ => []

/-- The same directory, as the parser reads it. -/
def grammarsDir (host : GrammarHost) (gDir : String) : GrammarsDir where
  path := gDir
  entries :=
    match host.dirs gDir with
    | none => .error .notFound
    | some (.error e) => .error e
    | some (.ok entries) => .ok (entries.map DeviceEntry.forParser)

end GrammarHost

theorem entries_of_listed {host : GrammarHost} {gDir : String} {entries : List DeviceEntry}
    (hdir : host.dirs gDir = some (.ok entries)) :
    host.resolve gDir = gDir ∧ host.entries gDir = entries ∧
      host.grammarsDir gDir = ⟨gDir, .ok (entries.map DeviceEntry.forParser)⟩ := by
  refine ⟨?_, ?_, ?_⟩
  · unfold GrammarHost.resolve
    rw [hdir]
    rfl
  · unfold GrammarHost.entries
    rw [hdir]
  · unfold GrammarHost.grammarsDir
    rw [hdir]

theorem entries_of_unlisted {host : GrammarHost} {gDir : String}
    (h : ∀ l, host.dirs gDir ≠ some (.ok l)) : host.entries gDir = [] := by
  unfold GrammarHost.entries
  split
  · rename_i l hl
    exact absurd hl (h l)
  · rfl

/-- What the loop over the rules of a grammar has found. -/
structure RuleScan where
  matchedRulesCount : ℤ
  maxRuleWeight : Float32
  matchedSigStr : Option String

def RuleScan.start : RuleScan := ⟨0, 0.0, none⟩

def scanRule (X : Crates) (probe : Bytes) (s : RuleScan)
    (p : DetectionRule × Option Float32) : Identified RuleScan :=
  let rule := p.1
  match rule.expectedBytes with
  | .error _ => .ok s
  | .ok expected => do
    let found ← parsing (matchesAt X probe rule.offset expected)
    if found then do
      let count ← X.build.fitI32 (s.matchedRulesCount + 1)
      let weight := p.2.getD 0.80
      if s.maxRuleWeight < weight then .ok ⟨count, weight, rule.magicAscii.or rule.magicHex⟩
      else .ok { s with matchedRulesCount := count }
    else .ok s

def scanRules (X : Crates) (probe : Bytes) (grammar : DeviceGrammar) : Identified RuleScan :=
  (grammar.rules.zip grammar.weights).foldlM (scanRule X probe) .start

/-- Whether the superblock's magic is where the grammar declares it. -/
def superblockSeen (X : Crates) (probe : Bytes) (grammar : DeviceGrammar) : Identified Bool :=
  match grammar.structures.superblock with
  | none => .ok false
  | some sb =>
    match sb.magic with
    | none => .ok false
    | some magic =>
      match magic.expectedBytes with
      | .error _ => .ok false
      | .ok bytes => parsing (matchesAt X probe magic.offset bytes)

def ruleConfidence (s : RuleScan) (superblock : Bool) : Float32 :=
  let multiRuleBonus := minimum (Float32.ofInt (s.matchedRulesCount - 1) * 0.04) 0.08
  let confidence := minimum (s.maxRuleWeight + multiRuleBonus) 0.99
  if superblock then minimum (confidence + 0.02) 0.99 else confidence

def DeviceGrammar.identification (grammar : DeviceGrammar) (s : RuleScan) (superblock : Bool) :
    DeviceIdentification :=
  let count := s.matchedRulesCount
  let name := grammar.name
  { recognized := true
    vendor := grammar.vendor.getD name
    model := grammar.model
    chipset := grammar.chipset
    confidence := ruleConfidence s superblock
    matchedGrammarId := some grammar.id
    validationTier := some grammar.tier
    matchedSignature := s.matchedSigStr
    details := [s!"Matched {count} detection rule(s) in grammar '{name}'"] }

/-- What one grammar proposes. -/
def grammarCandidate (X : Crates) (probe : Bytes) (grammar : DeviceGrammar) :
    Identified (Option DeviceIdentification) := do
  let s ← scanRules X probe grammar
  if 0 < s.matchedRulesCount then do
    let superblock ← superblockSeen X probe grammar
    .ok (some (grammar.identification s superblock))
  else .ok none

/-- A grammar file that identification reads. -/
def DeviceEntry.declares (entry : DeviceEntry) (grammar : DeviceGrammar) : Prop :=
  entry.extension = some "yaml" ∧ Paths.fileName entry.path ≠ some "vendor_registry.yaml" ∧
    entry.grammar = some grammar

def entryCandidate (X : Crates) (probe : Bytes) (entry : DeviceEntry) :
    Identified (Option DeviceIdentification) :=
  if entry.extension ≠ some "yaml" then .ok none
  else if Paths.fileName entry.path = some "vendor_registry.yaml" then .ok none
  else match entry.grammar with
    | none => .ok none
    | some grammar => grammarCandidate X probe grammar

def RegistrySignature.expectedBytes (sig : RegistrySignature) : Option Bytes :=
  match sig.magicAscii, sig.magicHex with
  | some asc, _ => some asc.toUTF8.data.toList
  | none, some hexStr =>
    StreamHash.hexDecode (String.ofList (hexStr.toList.filter (· ≠ ' ')))
  | none, none => none

def RegistryVendor.identification (vendor : RegistryVendor) (sig : RegistrySignature) :
    DeviceIdentification :=
  let name := vendor.name
  let fullName := vendor.fullName
  let claimed := vendor.claimedOsFilesystem
  let chipsets := String.intercalate ", " vendor.knownChipsets
  let support := vendor.thirdPartyToolSupport
  { recognized := true
    vendor := name
    model := some s!"{fullName} (Format Unimplemented)"
    chipset := vendor.knownChipsets.head?
    confidence := sig.weight
    matchedGrammarId := none
    validationTier := some 0
    matchedSignature := sig.magicAscii.or sig.magicHex
    details :=
      [s!"Identified vendor '{name}', format not yet implemented (Tier 0: Registry-Only)",
        s!"Claimed Architecture: {claimed}", s!"Known Chipsets: {chipsets}",
        s!"Third-party Support: {support}",
        "Action Required: Refer to docs/vendor-extension-guide.md to author a grammar " ++
          "definition."] }

/-- The first signature of a vendor that is in the head. -/
def vendorCandidate (X : Crates) (probe : Bytes) (vendor : RegistryVendor) :
    List RegistrySignature → Identified (Option DeviceIdentification)
  | [] => .ok none
  | sig :: rest =>
    match sig.expectedBytes with
    | none => vendorCandidate X probe vendor rest
    | some expected => do
      let found ← parsing (matchesAt X probe sig.offset expected)
      if found then .ok (some (vendor.identification sig))
      else vendorCandidate X probe vendor rest

def registryCandidates (X : Crates) (probe : Bytes) (registry : Option VendorRegistry) :
    Identified (List DeviceIdentification) :=
  match registry with
  | none => .ok []
  | some registry => do
    let found ← registry.vendors.mapM fun vendor =>
      vendorCandidate X probe vendor vendor.signatures
    .ok (found.filterMap id)

def grammarCandidates (X : Crates) (probe : Bytes) (entries : List DeviceEntry) :
    Identified (List DeviceIdentification) := do
  let found ← entries.mapM (entryCandidate X probe)
  .ok (found.filterMap id)

/-- `candidate_matches` before it is sorted. -/
def candidateMatches (X : Crates) (host : GrammarHost) (gDir : String) (probe : Bytes) :
    Identified (List DeviceIdentification) := do
  let declared ← grammarCandidates X probe (host.entries gDir)
  let registered ← registryCandidates X probe (VendorRegistry.loadFromPaths host.registries gDir)
  .ok (declared ++ (registered ++ (detectVideoContainerOrStream probe).toList))

def tierPriority : Option ℕ → Float32
  | some 1 => 0.20
  | some 2 => 0.15
  | some 0 => 0.08
  | _ => 0.0

def score (d : DeviceIdentification) : Float32 := d.confidence + tierPriority d.validationTier

/-- The order of `sort_by`: only a higher score moves to the front. -/
def ranksBefore (a b : DeviceIdentification) : Prop := ¬ score a < score b

instance : DecidableRel ranksBefore := fun a b => by unfold ranksBefore; infer_instance

/-- The answer, given the candidate that came out first. -/
def verdict : Option DeviceIdentification → DeviceIdentification
  | some best =>
    if minConfidenceThreshold ≤ best.confidence then best else .unrecognized
  | none => .unrecognized

def identifyDevice (X : Crates) (host : GrammarHost) (evidence : EvidenceFile) (gDir : String)
    (plan : Schedule IoError) : Identified DeviceIdentification :=
  if evidence.refusal = some .notFound then fail (.imageNotFound evidence.path)
  else
    match evidence.openReadOnly with
    | .error e => fail (.ioError evidence.path e)
    | .ok () =>
      let fileLen := evidence.content.bytes.length
      if fileLen = 0 then .ok .unrecognized
      else
        match (Reader.opened evidence.content.bytes plan).read (min fileLen 65536) with
        | .error e => fail (.ioError evidence.path (.io e))
        | .ok (probe, _) => do
          let candidates ← candidateMatches X host (host.resolve gDir) probe
          .ok (verdict (candidates.insertionSort ranksBefore).head?)

theorem parsing_eq_ok {α : Type} {x : Parsed α} {a : α} : parsing x = .ok a ↔ x = .ok a := by
  match x with
  | .ok b => simp [parsing]
  | .error (.error e) => simp [parsing, fail]
  | .error .panic => simp [parsing, panicked]

/-- Asking for no more than the file has makes no difference to a read. -/
theorem read_min {α ε : Type} (r : Reader α ε) (len : ℕ) :
    r.read (min r.rest.length len) = r.read len := by
  unfold Reader.read
  have hcount : ∀ want, min (max 1 want) (min (min r.rest.length len) r.rest.length) =
      min (max 1 want) (min len r.rest.length) := by
    intro want
    omega
  simp only [hcount]

/-- The head of a file is empty when the file is. -/
theorem headOf_eq_nil_iff {evidence : EvidenceFile} {plan : Schedule IoError} {header : Bytes}
    (hhead : headOf evidence plan = .ok header) :
    header = [] ↔ evidence.content.bytes = [] := by
  obtain ⟨-, reader, hread⟩ := headOf_ok.mp hhead
  obtain ⟨n, hlen, hrest, hpos, hchunk, -⟩ := read_ok hread
  rw [hchunk, List.take_eq_nil_iff]
  constructor
  · intro h
    rcases h with h | h
    · by_contra hne
      have hn := hpos (by decide) hne
      omega
    · exact h
  · intro h
    exact .inr h

/-- Identification of a file that is not empty and whose head can be read. -/
theorem identifyDevice_eq (X : Crates) (host : GrammarHost) {evidence : EvidenceFile}
    (gDir : String) {plan : Schedule IoError} {header : Bytes}
    (hhead : headOf evidence plan = .ok header) (hne : header ≠ []) :
    identifyDevice X host evidence gDir plan =
      candidateMatches X host (host.resolve gDir) header >>= fun candidates =>
        .ok (verdict (candidates.insertionSort ranksBefore).head?) := by
  have hcontent : evidence.content.bytes ≠ [] := by
    intro h
    exact hne ((headOf_eq_nil_iff hhead).mpr h)
  have hlength : evidence.content.bytes.length ≠ 0 := by
    intro h
    exact hcontent (List.eq_nil_of_length_eq_zero h)
  have hmin := read_min (Reader.opened evidence.content.bytes plan) 65536
  obtain ⟨hrefusal, reader, hread⟩ := headOf_ok.mp hhead
  have hprobe : (Reader.opened evidence.content.bytes plan).read
      (min evidence.content.bytes.length 65536) = .ok (header, reader) := by
    rw [← hread]
    exact hmin
  unfold identifyDevice
  rw [hrefusal, if_neg (by simp), openReadOnly_eq_ok.mpr hrefusal]
  dsimp only
  rw [if_neg hlength, hprobe]

/-- A file without a readable head is answered without looking at the grammars, and it
is not recognized. -/
theorem identifyDevice_of_no_head {evidence : EvidenceFile} {plan : Schedule IoError}
    (h : ∀ header, headOf evidence plan = .ok header → header = []) :
    ∃ answer : Identified DeviceIdentification, (∀ d, answer = .ok d → d.recognized = false) ∧
      ∀ X host gDir, identifyDevice X host evidence gDir plan = answer := by
  by_cases hmissing : evidence.refusal = some .notFound
  · refine ⟨fail (.imageNotFound evidence.path), by simp [fail], ?_⟩
    intro X host gDir
    exact if_pos hmissing
  · cases hopen : evidence.openReadOnly with
    | error e =>
      refine ⟨fail (.ioError evidence.path e), by simp [fail], ?_⟩
      intro X host gDir
      unfold identifyDevice
      rw [if_neg hmissing, hopen]
    | ok u =>
      by_cases hempty : evidence.content.bytes.length = 0
      · refine ⟨.ok .unrecognized, ?_, ?_⟩
        · intro d hd
          rw [← Except.ok.inj hd]
          rfl
        · intro X host gDir
          unfold identifyDevice
          rw [if_neg hmissing, hopen]
          exact if_pos hempty
      · have hmin := read_min (Reader.opened evidence.content.bytes plan) 65536
        have hrest : (Reader.opened evidence.content.bytes plan).rest.length =
            evidence.content.bytes.length := rfl
        rw [hrest] at hmin
        cases hread : (Reader.opened evidence.content.bytes plan).read 65536 with
        | error e =>
          refine ⟨fail (.ioError evidence.path (.io e)), by simp [fail], ?_⟩
          intro X host gDir
          unfold identifyDevice
          rw [if_neg hmissing, hopen]
          dsimp only
          rw [if_neg hempty, hmin, hread]
        | ok result =>
          have hok : headOf evidence plan = .ok result.1 :=
            headOf_ok.mpr ⟨openReadOnly_eq_ok.mp hopen, result.2, hread⟩
          have hnil := (headOf_eq_nil_iff hok).mp (h _ hok)
          exact absurd (by rw [hnil]; rfl) hempty

/-- An answer that recognizes the device is the best of the candidates. -/
theorem identifyDevice_recognized {X : Crates} {host : GrammarHost} {evidence : EvidenceFile}
    {gDir : String} {plan : Schedule IoError} {d : DeviceIdentification}
    (h : identifyDevice X host evidence gDir plan = .ok d) (hrecognized : d.recognized = true) :
    ∃ header candidates, headOf evidence plan = .ok header ∧
      candidateMatches X host (host.resolve gDir) header = .ok candidates ∧ d ∈ candidates := by
  have hhead : ∃ header, headOf evidence plan = .ok header ∧ header ≠ [] := by
    by_contra hnone
    push Not at hnone
    obtain ⟨answer, hunrecognized, hanswer⟩ := identifyDevice_of_no_head hnone
    have hfalse := hunrecognized d ((hanswer X host gDir).symm.trans h)
    rw [hrecognized] at hfalse
    exact absurd hfalse (by decide)
  obtain ⟨header, hhead, hne⟩ := hhead
  rw [identifyDevice_eq X host gDir hhead hne] at h
  obtain ⟨candidates, hcandidates, hbest⟩ := bind_ok.mp h
  refine ⟨header, candidates, hhead, hcandidates, ?_⟩
  have hverdict := Except.ok.inj hbest
  unfold verdict at hverdict
  split at hverdict
  · rename_i best hfirst
    split_ifs at hverdict with hsure
    · subst hverdict
      exact (List.mem_insertionSort ranksBefore).mp (List.mem_of_head? hfirst)
    · rw [← hverdict] at hrecognized
      exact absurd hrecognized (by decide)
  · rw [← hverdict] at hrecognized
    exact absurd hrecognized (by decide)

/-- A rule that is not seen leaves the count as it is. -/
theorem scanRule_count {X : Crates} {probe : Bytes} {s s' : RuleScan}
    {p : DetectionRule × Option Float32} (h : scanRule X probe s p = .ok s') :
    RuleSeen X probe p.1 ∨ s' = s := by
  unfold scanRule at h
  dsimp only at h
  cases hexpected : p.1.expectedBytes with
  | error e =>
    simp only [hexpected, Except.ok.injEq] at h
    exact .inr h.symm
  | ok expected =>
    simp only [hexpected] at h
    obtain ⟨found, hfound, h⟩ := bind_ok.mp h
    cases found with
    | true => exact .inl ⟨expected, hexpected, parsing_eq_ok.mp hfound⟩
    | false =>
      rw [if_neg (by decide)] at h
      exact .inr (Except.ok.inj h).symm

theorem scanRules_pos {X : Crates} {probe : Bytes} {grammar : DeviceGrammar} {s : RuleScan}
    (h : scanRules X probe grammar = .ok s) (hpos : 0 < s.matchedRulesCount) :
    ∃ rule ∈ grammar.rules, RuleSeen X probe rule := by
  have hinvariant := foldlM_invariant
    (P := fun s => 0 < s.matchedRulesCount → ∃ rule ∈ grammar.rules, RuleSeen X probe rule)
    (fun s s' p hp hs hstep => by
      intro hcount
      rcases scanRule_count hstep with hseen | hsame
      · exact ⟨p.1, (List.of_mem_zip hp).1, hseen⟩
      · subst hsame
        exact hs hcount)
    (by
      intro hstart
      exact absurd hstart (by decide)) h
  exact hinvariant hpos

theorem grammarCandidate_ok {X : Crates} {probe : Bytes} {grammar : DeviceGrammar}
    {d : DeviceIdentification} (h : grammarCandidate X probe grammar = .ok (some d)) :
    d.matchedGrammarId = some grammar.id ∧ d.recognized = true ∧
      (∃ s superblock, d.confidence = ruleConfidence s superblock) ∧
      ∃ rule ∈ grammar.rules, RuleSeen X probe rule := by
  unfold grammarCandidate at h
  obtain ⟨s, hs, h⟩ := bind_ok.mp h
  split_ifs at h with hpos
  · obtain ⟨superblock, -, h⟩ := bind_ok.mp h
    have hd := Option.some.inj (Except.ok.inj h)
    subst hd
    exact ⟨rfl, rfl, ⟨s, superblock, rfl⟩, scanRules_pos hs hpos⟩
  · simp at h

theorem entryCandidate_ok {X : Crates} {probe : Bytes} {entry : DeviceEntry}
    {d : DeviceIdentification} (h : entryCandidate X probe entry = .ok (some d)) :
    ∃ grammar, entry.declares grammar ∧ grammarCandidate X probe grammar = .ok (some d) := by
  unfold entryCandidate at h
  split_ifs at h with hyaml hregistry
  · simp at h
  · simp at h
  · cases hgrammar : entry.grammar with
    | none => simp [hgrammar] at h
    | some grammar =>
      rw [hgrammar] at h
      exact ⟨grammar, ⟨not_not.mp hyaml, hregistry, hgrammar⟩, h⟩

theorem vendorCandidate_ok {X : Crates} {probe : Bytes} {vendor : RegistryVendor}
    {signatures : List RegistrySignature} {d : DeviceIdentification}
    (h : vendorCandidate X probe vendor signatures = .ok (some d)) :
    ∃ sig ∈ signatures, d = vendor.identification sig := by
  induction signatures with
  | nil => simp [vendorCandidate] at h
  | cons sig rest ih =>
    unfold vendorCandidate at h
    cases hexpected : sig.expectedBytes with
    | none =>
      rw [hexpected] at h
      obtain ⟨sig', hsig', hd⟩ := ih h
      exact ⟨sig', by simp [hsig'], hd⟩
    | some expected =>
      simp only [hexpected] at h
      obtain ⟨found, -, h⟩ := bind_ok.mp h
      cases found with
      | true =>
        rw [if_pos rfl] at h
        exact ⟨sig, by simp, (Option.some.inj (Except.ok.inj h)).symm⟩
      | false =>
        rw [if_neg (by decide)] at h
        obtain ⟨sig', hsig', hd⟩ := ih h
        exact ⟨sig', by simp [hsig'], hd⟩

theorem grammarCandidates_ok_iff {X : Crates} {probe : Bytes} {entries : List DeviceEntry}
    {found : List DeviceIdentification} :
    grammarCandidates X probe entries = .ok found ↔
      (∀ entry ∈ entries, ∃ o, entryCandidate X probe entry = .ok o) ∧
        found = entries.filterMap (yields (entryCandidate X probe)) := mapM_filterMap_ok

theorem registryCandidates_ok_iff {X : Crates} {probe : Bytes} {registry : Option VendorRegistry}
    {found : List DeviceIdentification} :
    registryCandidates X probe registry = .ok found ↔
      (∀ r, registry = some r → ∀ vendor ∈ r.vendors,
        ∃ o, vendorCandidate X probe vendor vendor.signatures = .ok o) ∧
      found = (registry.elim [] VendorRegistry.vendors).filterMap
        (yields fun vendor => vendorCandidate X probe vendor vendor.signatures) := by
  cases registry with
  | none =>
    simp only [registryCandidates, Except.ok.injEq, reduceCtorEq, false_implies, implies_true,
      true_and, Option.elim_none, List.filterMap_nil]
    exact eq_comm
  | some r =>
    unfold registryCandidates
    rw [mapM_filterMap_ok]
    simp only [Option.some.injEq, forall_eq', Option.elim_some]

/-- A candidate: of a file, of the registry or of the container scan. -/
def Proposed (X : Crates) (host : GrammarHost) (gDir : String) (probe : Bytes)
    (d : DeviceIdentification) : Prop :=
  (∃ entry ∈ host.entries gDir, entryCandidate X probe entry = .ok (some d)) ∨
    (∃ registry, VendorRegistry.loadFromPaths host.registries gDir = some registry ∧
      ∃ vendor ∈ registry.vendors,
        vendorCandidate X probe vendor vendor.signatures = .ok (some d)) ∨
    detectVideoContainerOrStream probe = some d

theorem mem_candidateMatches {X : Crates} {host : GrammarHost} {gDir : String} {probe : Bytes}
    {found : List DeviceIdentification} (h : candidateMatches X host gDir probe = .ok found)
    (d : DeviceIdentification) : d ∈ found ↔ Proposed X host gDir probe d := by
  unfold candidateMatches at h
  obtain ⟨declared, hdeclared, h⟩ := bind_ok.mp h
  obtain ⟨registered, hregistered, h⟩ := bind_ok.mp h
  obtain ⟨-, rfl⟩ := grammarCandidates_ok_iff.mp hdeclared
  obtain ⟨-, rfl⟩ := registryCandidates_ok_iff.mp hregistered
  rw [← Except.ok.inj h, List.mem_append, List.mem_append, List.mem_filterMap, List.mem_filterMap]
  simp only [yields_eq_some, Option.mem_toList]
  unfold Proposed
  cases hload : VendorRegistry.loadFromPaths host.registries gDir with
  | none => simp
  | some registry => simp

/-- A grammar whose block layout is beside the point: `rules` with the default weight. -/
def plainGrammar (id : String) (rules : List DetectionRule) : DeviceGrammar where
  id := id
  name := id
  tier := 2
  descramblePlugin := none
  rules := rules
  structures := dahuaV1.structures
  vendor := none
  model := none
  chipset := none
  weights := rules.map fun _ => none
  weights_length := List.length_map _

/-- A file system with one directory of grammars and no registry. -/
def oneDirectory (gDir : String) (entries : List DeviceEntry) : GrammarHost where
  dirs path := if path = gDir then some (.ok entries) else none
  registries _ := .missing

def camImage : EvidenceFile := ⟨"dvr.img", ⟨ascii "CAM1", by decide⟩, none⟩

end Dvrft.Identification
