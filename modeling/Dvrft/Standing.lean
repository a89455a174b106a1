import Dvrft.Crashes
import Dvrft.Priority

/-!
What identification proposes, told from the signatures that stand in the bytes. A
grammar proposes its device where one of its rules stands, weighed by all that do, and
a vendor by the first of its signatures that stands. Of the proposals the first with
the best score is held against the threshold.
-/

namespace Dvrft.Standing

open Errors Machine Platform Grammar Acquisition Interpreter Detection Containers
open Identification ListingOrder Priority Superblocks Crashes

/-- The comparison of a signature with the bytes comes to an end. The checked build needs
the place behind the signature to be an address; the other one wraps that place, and needs it
behind the bytes or not in front of the signature. -/
def Ends (X : Crates) (bytes : Bytes) (offset length : ℕ) : Prop :=
  match X.build with
  | .debug => offset + length < 2 ^ 64
  | .release => bytes.length < (offset + length) % 2 ^ 64 ∨ offset ≤ (offset + length) % 2 ^ 64

/-- The same for a signature that may not be decodable, and then is not compared. -/
def SignatureEnds (X : Crates) (bytes : Bytes) (offset : ℕ)
    (signature : Except ParserError Bytes) : Prop :=
  ∀ expected, signature = .ok expected → Ends X bytes offset expected.length

variable {X : Crates} {bytes : Bytes}

theorem ends_of_lt {offset length : ℕ} (h : offset + length < 2 ^ 64) :
    Ends X bytes offset length := by
  unfold Ends
  cases X.build with
  | debug => exact h
  | release =>
    right
    rw [Nat.mod_eq_of_lt h]
    exact Nat.le_add_right _ _

/-- A comparison that ends tells whether the signature stands there. -/
theorem matchesAt_ok_iff (hlen : bytes.length < 2 ^ 64) {offset : ℕ} {expected : Bytes}
    {found : Bool} :
    matchesAt X bytes offset expected = .ok found ↔
      Ends X bytes offset expected.length ∧ found = decide (HasAt bytes offset expected) := by
  by_cases haddress : offset + expected.length < 2 ^ 64
  · rw [matchesAt_eq X haddress, Except.ok.injEq, and_iff_right (ends_of_lt haddress)]
    exact eq_comm
  · have hnot : ¬ HasAt bytes offset expected := by
      intro h
      have hinside := h.1
      omega
    unfold matchesAt Ends Build.add Build.fit
    rw [if_neg haddress]
    cases X.build with
    | debug => exact iff_of_false (by simp [panicked, bind, Except.bind]) (fun h => haddress h.1)
    | release =>
      simp only [ok_bind, decide_eq_false hnot]
      by_cases hstop : (offset + expected.length) % 2 ^ 64 ≤ bytes.length
      · rw [if_pos hstop]
        unfold slice
        by_cases hfront : offset ≤ (offset + expected.length) % 2 ^ 64
        · -- the wrapped range is shorter than the signature
          have hother : ((bytes.drop offset).take
              ((offset + expected.length) % 2 ^ 64 - offset) == expected) = false := by
            apply beq_false_of_ne
            intro heq
            have hlength := congrArg List.length heq
            rw [List.length_take, List.length_drop] at hlength
            omega
          rw [if_pos ⟨hfront, hstop⟩, ok_bind, hother, Except.ok.injEq,
            and_iff_right (.inr hfront)]
          exact eq_comm
        · rw [if_neg fun h => hfront h.1]
          refine iff_of_false (by simp [panicked, bind, Except.bind]) ?_
          intro h
          rcases h.1 with hbehind | hle
          · omega
          · exact hfront hle
      · rw [if_neg hstop, Except.ok.injEq, and_iff_right (.inl (Nat.not_le.mp hstop))]
        exact eq_comm

theorem parsing_matchesAt_ok_iff (hlen : bytes.length < 2 ^ 64) {offset : ℕ} {expected : Bytes}
    {found : Bool} :
    parsing (matchesAt X bytes offset expected) = .ok found ↔
      Ends X bytes offset expected.length ∧ found = decide (HasAt bytes offset expected) :=
  parsing_eq_ok.trans (matchesAt_ok_iff hlen)

/-- A count of `i32`, wrapped. -/
def wrapI32 (z : ℤ) : ℤ := (z + 2 ^ 31) % 2 ^ 32 - 2 ^ 31

theorem wrapI32_of_fits {z : ℤ} (h : FitsI32 z) : wrapI32 z = z := by
  have hlow := h.1
  have hhigh := h.2
  unfold wrapI32
  omega

theorem fitI32_ok_iff {ε : Type} {build : Build} {z count : ℤ} :
    (build.fitI32 z : Outcome ε ℤ) = .ok count ↔
      (build = .debug → FitsI32 z) ∧ count = wrapI32 z := by
  by_cases hfits : FitsI32 z
  · rw [Build.fitI32_of_fits build hfits, Except.ok.injEq, wrapI32_of_fits hfits,
      and_iff_right fun _ => hfits]
    exact eq_comm
  · cases build with
    | debug =>
      have hpanic : (Build.debug.fitI32 z : Outcome ε ℤ) = panicked := if_neg hfits
      rw [hpanic]
      exact iff_of_false (by simp [panicked]) (fun h => hfits (h.1 rfl))
    | release =>
      have hwrap : (Build.release.fitI32 z : Outcome ε ℤ) = .ok (wrapI32 z) := if_neg hfits
      rw [hwrap]
      simp only [Except.ok.injEq, reduceCtorEq, false_implies, true_and]
      exact eq_comm

/-- What one more standing rule adds: one to the count, and its weight and text where it
weighs more than those before it. -/
def noted (s : RuleScan) (p : DetectionRule × Option Float32) : RuleScan :=
  let count := wrapI32 (s.matchedRulesCount + 1)
  let weight := p.2.getD 0.80
  if s.maxRuleWeight < weight then ⟨count, weight, p.1.magicAscii.or p.1.magicHex⟩
  else { s with matchedRulesCount := count }

theorem noted_count (s : RuleScan) (p : DetectionRule × Option Float32) :
    (noted s p).matchedRulesCount = wrapI32 (s.matchedRulesCount + 1) := by
  unfold noted
  dsimp only
  split_ifs
  · rfl
  · rfl

theorem scanRule_ok_iff (hlen : bytes.length < 2 ^ 64) {s s' : RuleScan}
    {p : DetectionRule × Option Float32} :
    scanRule X bytes s p = .ok s' ↔
      SignatureEnds X bytes p.1.offset p.1.expectedBytes ∧
        (ruleFound bytes p = true → X.build = .debug → FitsI32 (s.matchedRulesCount + 1)) ∧
        s' = if ruleFound bytes p then noted s p else s := by
  unfold scanRule SignatureEnds ruleFound carries
  dsimp only
  cases p.1.expectedBytes with
  | error e => simp [eq_comm]
  | ok expected =>
    simp only [Except.ok.injEq, forall_eq', bind_ok, parsing_matchesAt_ok_iff hlen, and_assoc,
      exists_and_left, exists_eq_left]
    apply and_congr_right
    intro _
    by_cases hfound : HasAt bytes p.1.offset expected
    · have hnoted : ∀ count, (if s.maxRuleWeight < p.2.getD 0.80 then
          (.ok ⟨count, p.2.getD 0.80, p.1.magicAscii.or p.1.magicHex⟩ : Identified RuleScan)
          else .ok { s with matchedRulesCount := count }) = .ok s' ↔
            s' = if s.maxRuleWeight < p.2.getD 0.80 then
              ⟨count, p.2.getD 0.80, p.1.magicAscii.or p.1.magicHex⟩
              else { s with matchedRulesCount := count } := by
        intro count
        split_ifs
        · rw [Except.ok.injEq]
          exact eq_comm
        · rw [Except.ok.injEq]
          exact eq_comm
      simp only [hfound, decide_true, if_true, bind_ok, fitI32_ok_iff, hnoted, and_assoc,
        exists_and_left, exists_eq_left, true_implies]
      rfl
    · simp [hfound, eq_comm]

/-- The loop over the rules: every comparison ends, the checked build can count what
stands, and what stands is noted in its order. -/
theorem scan_ok_iff (hlen : bytes.length < 2 ^ 64) {ps : List (DetectionRule × Option Float32)}
    {s s' : RuleScan}
    (hs : X.build = .debug → 0 ≤ s.matchedRulesCount ∧ s.matchedRulesCount < 2 ^ 31) :
    ps.foldlM (scanRule X bytes) s = .ok s' ↔
      (∀ p ∈ ps, SignatureEnds X bytes p.1.offset p.1.expectedBytes) ∧
        (X.build = .debug →
          s.matchedRulesCount + (ps.filter (ruleFound bytes)).length < 2 ^ 31) ∧
        s' = (ps.filter (ruleFound bytes)).foldl noted s := by
  induction ps generalizing s with
  | nil =>
    have hstart : X.build = .debug → s.matchedRulesCount + (0 : ℕ) < 2 ^ 31 := by
      intro hbuild
      have hcount := (hs hbuild).2
      omega
    simpa [pure, Except.pure, eq_comm] using fun _ => hstart
  | cons p rest ih =>
    rw [List.foldlM_cons, bind_ok, List.forall_mem_cons]
    by_cases hfound : ruleFound bytes p = true
    · -- where the count fits, the induction goes on with the rule noted
      have hnext : (X.build = .debug → FitsI32 (s.matchedRulesCount + 1)) →
          X.build = .debug → (noted s p).matchedRulesCount = s.matchedRulesCount + 1 := by
        intro hfits hbuild
        rw [noted_count, wrapI32_of_fits (hfits hbuild)]
      have hrange : (X.build = .debug → FitsI32 (s.matchedRulesCount + 1)) →
          X.build = .debug → 0 ≤ (noted s p).matchedRulesCount ∧
            (noted s p).matchedRulesCount < 2 ^ 31 := by
        intro hfits hbuild
        have hstart := hs hbuild
        rw [hnext hfits hbuild]
        exact ⟨by omega, (hfits hbuild).2⟩
      rw [List.filter_cons_of_pos hfound, List.foldl_cons, List.length_cons]
      simp only [scanRule_ok_iff hlen, hfound, true_implies, if_true]
      constructor
      · intro h
        obtain ⟨middle, ⟨hends, hfits, rfl⟩, hrest⟩ := h
        obtain ⟨hothers, hcount, hvalue⟩ := (ih (hrange hfits)).mp hrest
        refine ⟨⟨hends, hothers⟩, ?_, hvalue⟩
        intro hbuild
        have hbound := hcount hbuild
        rw [hnext hfits hbuild] at hbound
        push_cast
        omega
      · intro h
        obtain ⟨⟨hends, hothers⟩, hcount, hvalue⟩ := h
        have hfits : X.build = .debug → FitsI32 (s.matchedRulesCount + 1) := by
          intro hbuild
          have hstart := hs hbuild
          have hbound := hcount hbuild
          push_cast at hbound
          exact ⟨by omega, by omega⟩
        refine ⟨noted s p, ⟨hends, hfits, rfl⟩,
          (ih (hrange hfits)).mpr ⟨hothers, ?_, hvalue⟩⟩
        intro hbuild
        have hbound := hcount hbuild
        rw [hnext hfits hbuild]
        push_cast at hbound
        omega
    · rw [List.filter_cons_of_neg hfound]
      simp only [scanRule_ok_iff hlen, hfound, Bool.false_eq_true, false_implies, true_and,
        if_false, and_assoc, exists_and_left, exists_eq_left, ih hs]

/-- The rules of a grammar that stand in the bytes, with their weights. -/
def standingRules (bytes : Bytes) (grammar : DeviceGrammar) :
    List (DetectionRule × Option Float32) :=
  (grammar.rules.zip grammar.weights).filter (ruleFound bytes)

/-- The number of them, the strongest weight and its text. -/
def standingScan (bytes : Bytes) (grammar : DeviceGrammar) : RuleScan :=
  (standingRules bytes grammar).foldl noted .start

/-- A grammar proposes its device where its rules stand; the superblock's signature adds to
the confidence where it stands as well. -/
def fileProposal (bytes : Bytes) (grammar : DeviceGrammar) : Option DeviceIdentification :=
  let s := standingScan bytes grammar
  if 0 < s.matchedRulesCount then
    some (grammar.identification s
      (magicFound bytes (grammar.structures.superblock.bind SuperblockDef.magic)))
  else none

/-- What a grammar is compared with ends: every rule, and the superblock's signature where
rules stand. The checked build has to count the rules that stand. -/
structure RulesEnd (X : Crates) (bytes : Bytes) (grammar : DeviceGrammar) : Prop where
  rules : ∀ rule ∈ grammar.rules, SignatureEnds X bytes rule.offset rule.expectedBytes
  count : X.build = .debug → (standingRules bytes grammar).length < 2 ^ 31
  superblock : 0 < (standingScan bytes grammar).matchedRulesCount →
    ∀ magic, grammar.structures.superblock.bind SuperblockDef.magic = some magic →
      SignatureEnds X bytes magic.offset magic.expectedBytes

theorem scanRules_ok_iff (hlen : bytes.length < 2 ^ 64) {grammar : DeviceGrammar}
    {s : RuleScan} :
    scanRules X bytes grammar = .ok s ↔
      (∀ rule ∈ grammar.rules, SignatureEnds X bytes rule.offset rule.expectedBytes) ∧
        (X.build = .debug → (standingRules bytes grammar).length < 2 ^ 31) ∧
        s = standingScan bytes grammar := by
  have hall : (∀ p ∈ grammar.rules.zip grammar.weights,
      SignatureEnds X bytes p.1.offset p.1.expectedBytes) ↔
        ∀ rule ∈ grammar.rules, SignatureEnds X bytes rule.offset rule.expectedBytes := by
    conv_rhs => rw [← rules_of_zip grammar, List.forall_mem_map]
  have hstart : RuleScan.start.matchedRulesCount = 0 := rfl
  unfold scanRules standingScan standingRules
  rw [scan_ok_iff hlen fun _ => ⟨Int.le_refl 0, by decide⟩, hall, hstart, Int.zero_add]
  norm_cast

theorem superblockSeen_ok_iff (hlen : bytes.length < 2 ^ 64) {grammar : DeviceGrammar}
    {seen : Bool} :
    superblockSeen X bytes grammar = .ok seen ↔
      (∀ magic, grammar.structures.superblock.bind SuperblockDef.magic = some magic →
        SignatureEnds X bytes magic.offset magic.expectedBytes) ∧
        seen = magicFound bytes (grammar.structures.superblock.bind SuperblockDef.magic) := by
  rw [superblockSeen_eq_carriesMagic]
  unfold carriesMagic magicFound carries SignatureEnds
  cases grammar.structures.superblock.bind SuperblockDef.magic with
  | none => simp [parsing, eq_comm]
  | some magic =>
    simp only [Option.some.injEq, forall_eq']
    cases magic.expectedBytes with
    | error e => simp [parsing, eq_comm]
    | ok expected => simp [parsing_matchesAt_ok_iff hlen]

theorem grammarCandidate_ok_iff (hlen : bytes.length < 2 ^ 64) {grammar : DeviceGrammar}
    {o : Option DeviceIdentification} :
    grammarCandidate X bytes grammar = .ok o ↔
      RulesEnd X bytes grammar ∧ o = fileProposal bytes grammar := by
  have hsplit : RulesEnd X bytes grammar ↔
      (∀ rule ∈ grammar.rules, SignatureEnds X bytes rule.offset rule.expectedBytes) ∧
        (X.build = .debug → (standingRules bytes grammar).length < 2 ^ 31) ∧
        (0 < (standingScan bytes grammar).matchedRulesCount →
          ∀ magic, grammar.structures.superblock.bind SuperblockDef.magic = some magic →
            SignatureEnds X bytes magic.offset magic.expectedBytes) :=
    ⟨fun h => ⟨h.rules, h.count, h.superblock⟩, fun h => ⟨h.1, h.2.1, h.2.2⟩⟩
  unfold grammarCandidate fileProposal
  simp only [bind_ok, scanRules_ok_iff hlen, hsplit, and_assoc, exists_and_left,
    exists_eq_left]
  apply and_congr_right
  intro _
  apply and_congr_right
  intro _
  by_cases hpos : 0 < (standingScan bytes grammar).matchedRulesCount
  · simp only [hpos, if_true, true_implies, bind_ok, superblockSeen_ok_iff hlen, and_assoc,
      exists_and_left, exists_eq_left, Except.ok.injEq, @eq_comm _ o]
  · simp [hpos, eq_comm]

/-- The proposal of a directory entry: of the grammar that it declares. -/
def entryProposal (bytes : Bytes) (entry : DeviceEntry) : Option DeviceIdentification :=
  if entry.extension ≠ some "yaml" then none
  else if Paths.fileName entry.path = some "vendor_registry.yaml" then none
  else entry.grammar.bind (fileProposal bytes)

def EntryEnds (X : Crates) (bytes : Bytes) (entry : DeviceEntry) : Prop :=
  ∀ grammar, entry.declares grammar → RulesEnd X bytes grammar

theorem entryCandidate_ok_iff (hlen : bytes.length < 2 ^ 64) {entry : DeviceEntry}
    {o : Option DeviceIdentification} :
    entryCandidate X bytes entry = .ok o ↔
      EntryEnds X bytes entry ∧ o = entryProposal bytes entry := by
  unfold entryCandidate EntryEnds entryProposal DeviceEntry.declares
  by_cases hyaml : entry.extension = some "yaml"
  · by_cases hregistry : Paths.fileName entry.path = some "vendor_registry.yaml"
    · simp [hyaml, hregistry, eq_comm]
    · cases entry.grammar with
      | none => simp [hyaml, hregistry, eq_comm]
      | some grammar => simp [hyaml, hregistry, grammarCandidate_ok_iff hlen]
  · simp [hyaml, eq_comm]

/-- A signature of the registry stands in the bytes. -/
def signatureFound (bytes : Bytes) (sig : RegistrySignature) : Bool :=
  match sig.expectedBytes with
  | none => false
  | some expected => decide (HasAt bytes sig.offset expected)

/-- The proposal of a vendor, by the first of its signatures that stands. -/
def vendorProposal (bytes : Bytes) (vendor : RegistryVendor) : Option DeviceIdentification :=
  (vendor.signatures.find? (signatureFound bytes)).map vendor.identification

/-- The comparisons of a vendor's signatures end, up to the first that stands. -/
def VendorEnds (X : Crates) (bytes : Bytes) (signatures : List RegistrySignature) : Prop :=
  ∀ front sig back, signatures = front ++ sig :: back →
    (∀ other ∈ front, signatureFound bytes other = false) →
      ∀ expected, sig.expectedBytes = some expected → Ends X bytes sig.offset expected.length

theorem vendorEnds_cons {sig : RegistrySignature} {rest : List RegistrySignature} :
    VendorEnds X bytes (sig :: rest) ↔
      (∀ expected, sig.expectedBytes = some expected → Ends X bytes sig.offset expected.length) ∧
        (signatureFound bytes sig = false → VendorEnds X bytes rest) := by
  constructor
  · intro h
    refine ⟨h [] sig rest rfl (by simp), ?_⟩
    intro hnot front other back hsplit hfront
    refine h (sig :: front) other back (by rw [hsplit, List.cons_append]) ?_
    rw [List.forall_mem_cons]
    exact ⟨hnot, hfront⟩
  · intro h front other back hsplit hfront
    cases front with
    | nil =>
      obtain ⟨rfl, -⟩ := List.cons.inj hsplit
      exact h.1
    | cons first front =>
      obtain ⟨rfl, hrest⟩ := List.cons.inj hsplit
      rw [List.forall_mem_cons] at hfront
      exact h.2 hfront.1 front other back hrest hfront.2

theorem vendorCandidate_ok_iff (hlen : bytes.length < 2 ^ 64) {vendor : RegistryVendor}
    {signatures : List RegistrySignature} {o : Option DeviceIdentification} :
    vendorCandidate X bytes vendor signatures = .ok o ↔
      VendorEnds X bytes signatures ∧
        o = (signatures.find? (signatureFound bytes)).map vendor.identification := by
  induction signatures with
  | nil =>
    have hends : VendorEnds X bytes [] := by
      intro front sig back hsplit
      simp at hsplit
    simp [vendorCandidate, hends, eq_comm]
  | cons sig rest ih =>
    rw [vendorEnds_cons, List.find?_cons]
    unfold vendorCandidate
    cases hexpected : sig.expectedBytes with
    | none =>
      have hnot : signatureFound bytes sig = false := by
        unfold signatureFound
        rw [hexpected]
      simp [hnot, ih]
    | some expected =>
      have hstands : signatureFound bytes sig = decide (HasAt bytes sig.offset expected) := by
        unfold signatureFound
        rw [hexpected]
      simp only [bind_ok, parsing_matchesAt_ok_iff hlen, hstands, Option.some.injEq, forall_eq',
        and_assoc, exists_and_left, exists_eq_left]
      apply and_congr_right
      intro _
      by_cases hfound : HasAt bytes sig.offset expected
      · simp [hfound, eq_comm]
      · simp [hfound, ih]

/-- What is proposed for the bytes: by the files in the order of the directory, by the
vendors in that of the registry, and by the container scan. -/
def proposals (host : GrammarHost) (gDir : String) (bytes : Bytes) :
    List DeviceIdentification :=
  let vendors := (VendorRegistry.loadFromPaths host.registries gDir).elim []
    VendorRegistry.vendors
  (host.entries gDir).filterMap (entryProposal bytes) ++
    (vendors.filterMap (vendorProposal bytes) ++ (detectVideoContainerOrStream bytes).toList)

/-- Every comparison that identification makes ends. -/
structure Compared (X : Crates) (host : GrammarHost) (gDir : String) (bytes : Bytes) :
    Prop where
  files : ∀ entry ∈ host.entries gDir, EntryEnds X bytes entry
  vendors : ∀ registry, VendorRegistry.loadFromPaths host.registries gDir = some registry →
    ∀ vendor ∈ registry.vendors, VendorEnds X bytes vendor.signatures

/-- A traversal of what is given in closed form. -/
theorem traversal_ok_iff {ε α β : Type} {f : α → Except ε (Option β)} {holds : α → Prop}
    {value : α → Option β} (hf : ∀ a o, f a = .ok o ↔ holds a ∧ o = value a) {xs : List α}
    {out : List β} :
    ((∀ x ∈ xs, ∃ o, f x = .ok o) ∧ out = xs.filterMap (yields f)) ↔
      (∀ x ∈ xs, holds x) ∧ out = xs.filterMap value := by
  have hends : (∀ x ∈ xs, ∃ o, f x = .ok o) ↔ ∀ x ∈ xs, holds x := by
    simp only [hf, exists_and_left, exists_eq, and_true]
  rw [hends]
  apply and_congr_right
  intro hall
  have hsame : xs.filterMap (yields f) = xs.filterMap value := by
    apply List.filterMap_congr
    intro x hx
    unfold yields
    rw [(hf x (value x)).mpr ⟨hall x hx, rfl⟩]
  rw [hsame]

/-- The candidates are the proposals, if every comparison ends. -/
theorem candidateMatches_ok_iff (hlen : bytes.length < 2 ^ 64) {host : GrammarHost}
    {gDir : String} {found : List DeviceIdentification} :
    candidateMatches X host gDir bytes = .ok found ↔
      Compared X host gDir bytes ∧ found = proposals host gDir bytes := by
  have hfiles : ∀ declared, grammarCandidates X bytes (host.entries gDir) = .ok declared ↔
      (∀ entry ∈ host.entries gDir, EntryEnds X bytes entry) ∧
        declared = (host.entries gDir).filterMap (entryProposal bytes) := by
    intro declared
    rw [grammarCandidates_ok_iff]
    exact traversal_ok_iff fun _ _ => entryCandidate_ok_iff hlen
  have hvendors : ∀ registered, registryCandidates X bytes
      (VendorRegistry.loadFromPaths host.registries gDir) = .ok registered ↔
      (∀ registry, VendorRegistry.loadFromPaths host.registries gDir = some registry →
        ∀ vendor ∈ registry.vendors, VendorEnds X bytes vendor.signatures) ∧
        registered = ((VendorRegistry.loadFromPaths host.registries gDir).elim []
          VendorRegistry.vendors).filterMap (vendorProposal bytes) := by
    intro registered
    have hregistered := @traversal_ok_iff _ _ _ (fun vendor : RegistryVendor =>
        vendorCandidate X bytes vendor vendor.signatures)
      (fun vendor => VendorEnds X bytes vendor.signatures) (vendorProposal bytes)
      (fun _ _ => vendorCandidate_ok_iff hlen)
      ((VendorRegistry.loadFromPaths host.registries gDir).elim [] VendorRegistry.vendors)
      registered
    rw [registryCandidates_ok_iff]
    cases hload : VendorRegistry.loadFromPaths host.registries gDir with
    | none => simp
    | some registry => simpa [hload] using hregistered
  unfold candidateMatches proposals
  simp only [bind_ok, hfiles, hvendors, Except.ok.injEq, and_assoc, exists_and_left,
    exists_eq_left]
  constructor
  · intro h
    obtain ⟨hentries, hregistry, rfl⟩ := h
    exact ⟨⟨hentries, hregistry⟩, rfl⟩
  · intro h
    obtain ⟨hcompared, rfl⟩ := h
    exact ⟨hcompared.files, hcompared.vendors, rfl⟩

/-- The first of the best scored: a proposal comes before those behind it unless the best
of them scores higher. -/
def foremost : List DeviceIdentification → Option DeviceIdentification
  | [] => none
  | d :: rest =>
    match foremost rest with
    | none => some d
    | some best => if score d < score best then some best else some d

theorem head?_sorted_eq_foremost (candidates : List DeviceIdentification) :
    (candidates.insertionSort ranksBefore).head? = foremost candidates := by
  induction candidates with
  | nil => rfl
  | cons d rest ih =>
    rw [List.insertionSort_cons, foremost, ← ih]
    cases rest.insertionSort ranksBefore with
    | nil => rfl
    | cons best others =>
      rw [List.orderedInsert_cons, List.head?_cons]
      dsimp only
      by_cases hscore : score d < score best
      · have hbehind : ¬ ranksBefore d best := not_not.mpr hscore
        rw [if_neg hbehind, if_pos hscore, List.head?_cons]
      · have hfront : ranksBefore d best := hscore
        rw [if_pos hfront, if_neg hscore, List.head?_cons]

theorem mem_of_foremost {candidates : List DeviceIdentification} {d : DeviceIdentification}
    (h : foremost candidates = some d) : d ∈ candidates := by
  rw [← head?_sorted_eq_foremost] at h
  exact (List.mem_insertionSort ranksBefore).mp (List.mem_of_head? h)

/-- A grammar that proposes has a rule that stands. -/
theorem exists_rule_of_fileProposal {grammar : DeviceGrammar} {d : DeviceIdentification}
    (h : fileProposal bytes grammar = some d) :
    ∃ rule ∈ grammar.rules, carries bytes rule.offset rule.expectedBytes = true := by
  unfold fileProposal at h
  dsimp only at h
  split_ifs at h with hpos
  have hsome : standingRules bytes grammar ≠ [] := by
    intro hnone
    rw [standingScan, hnone] at hpos
    exact absurd hpos (by decide)
  obtain ⟨p, hp⟩ := List.exists_mem_of_ne_nil _ hsome
  obtain ⟨hzip, hfound⟩ := List.mem_filter.mp hp
  exact ⟨p.1, (List.of_mem_zip hzip).1, hfound⟩

/-- A proposal comes from a rule that stands, from a signature of the registry that does, or
from the container scan. -/
theorem exists_standing {host : GrammarHost} {gDir : String} {d : DeviceIdentification}
    (h : d ∈ proposals host gDir bytes) :
    (∃ entry ∈ host.entries gDir, ∃ grammar, entry.grammar = some grammar ∧
      ∃ rule ∈ grammar.rules, carries bytes rule.offset rule.expectedBytes = true) ∨
    (∃ registry, VendorRegistry.loadFromPaths host.registries gDir = some registry ∧
      ∃ vendor ∈ registry.vendors, ∃ sig ∈ vendor.signatures,
        signatureFound bytes sig = true) ∨
    detectVideoContainerOrStream bytes = some d := by
  rcases List.mem_append.mp h with hfile | hother
  · left
    obtain ⟨entry, hentry, hproposal⟩ := List.mem_filterMap.mp hfile
    unfold entryProposal at hproposal
    split_ifs at hproposal
    obtain ⟨grammar, hgrammar, hproposal⟩ := Option.bind_eq_some_iff.mp hproposal
    exact ⟨entry, hentry, grammar, hgrammar, exists_rule_of_fileProposal hproposal⟩
  · right
    rcases List.mem_append.mp hother with hvendor | hscan
    · left
      obtain ⟨vendor, hvendor, hproposal⟩ := List.mem_filterMap.mp hvendor
      obtain ⟨sig, hsig, -⟩ := Option.map_eq_some_iff.mp hproposal
      cases hload : VendorRegistry.loadFromPaths host.registries gDir with
      | none => simp [hload] at hvendor
      | some registry =>
        rw [hload] at hvendor
        exact ⟨registry, rfl, vendor, hvendor, sig, List.mem_of_find?_eq_some hsig,
          List.find?_some hsig⟩
    · right
      exact Option.mem_toList.mp hscan

end Dvrft.Standing
