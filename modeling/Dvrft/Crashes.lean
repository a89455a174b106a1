import Dvrft.Coverage
import Dvrft.ListingOrder
import Dvrft.Superblocks
import Dvrft.ZoneTexts

/-!
Which grammars can end the program. Nothing bounds the offsets of a grammar, and the
sums that are formed with them come before the comparison with the length of the data.
A run panics in some build exactly when it reaches a sum that is no address, a count or
a zone that is no number of `i32`, or a zone text that is cut inside a character.
-/

namespace Dvrft.Crashes

open Errors Machine Platform Grammar Acquisition Timestamps Interpreter Detection
open Identification ListingOrder Superblocks Coverage ZoneTexts Texts

/-- A signature that can be decoded ends at an address. -/
def Addressed (offset : ℕ) (signature : Except ParserError Bytes) : Prop :=
  ∀ expected, signature = .ok expected → offset + expected.length < 2 ^ 64

/-- A signature can be decoded and stands in the data. -/
def carries (data : Bytes) (offset : ℕ) (signature : Except ParserError Bytes) : Bool :=
  match signature with
  | .ok expected => decide (HasAt data offset expected)
  | .error _ => false

variable {X : Crates}

theorem addressed_ok {offset : ℕ} {expected : Bytes} :
    Addressed offset (.ok expected) ↔ offset + expected.length < 2 ^ 64 := by
  simp [Addressed]

theorem addressed_error {offset : ℕ} {e : ParserError} : Addressed offset (.error e) := by
  simp [Addressed]

/-- A comparison inside the address range tells whether the bytes are there. -/
theorem matchesAt_eq (X : Crates) {data expected : Bytes} {offset : ℕ}
    (h : offset + expected.length < 2 ^ 64) :
    matchesAt X data offset expected = .ok (decide (HasAt data offset expected)) := by
  unfold matchesAt HasAt
  rw [X.build.add_of_lt h, ok_bind]
  by_cases hstop : offset + expected.length ≤ data.length
  · rw [if_pos hstop, slice_of_le (Nat.le_add_right _ _) hstop, ok_bind,
      Nat.add_sub_cancel_left]
    simp [hstop, beq_eq_decide]
  · rw [if_neg hstop]
    simp [hstop]

theorem matchesAt_ne_panicked_iff {data expected : Bytes} {offset : ℕ} :
    matchesAt (X.inBuild .debug) data offset expected ≠ panicked ↔
      offset + expected.length < 2 ^ 64 := by
  constructor
  · intro h
    exact Build.debug_add_ne_panicked_iff.mp (bind_ne_panicked_iff.mp h).1
  · intro h
    rw [matchesAt_eq _ h]
    exact ok_ne_panicked _

theorem checkedBy_matchesAt (X : Crates) (build : Build) (data : Bytes) (offset : ℕ)
    (expected : Bytes) :
    CheckedBy (matchesAt (X.inBuild .debug) data offset expected)
      (matchesAt (X.inBuild build) data offset expected) :=
  (build.checkedBy_add _ _).bind fun _ => .refl _

/-- A rule that is looked at: all rules in front of it are found. -/
def Reached (header : Bytes) (rules : List DetectionRule) (rule : DetectionRule) : Prop :=
  ∃ front back, rules = front ++ rule :: back ∧
    ∀ r ∈ front, carries header r.offset r.expectedBytes = true

theorem reached_cons {header : Bytes} {first rule : DetectionRule} {rest : List DetectionRule} :
    Reached header (first :: rest) rule ↔
      rule = first ∨ (carries header first.offset first.expectedBytes = true ∧
        Reached header rest rule) := by
  constructor
  · intro h
    obtain ⟨front, back, hsplit, hfront⟩ := h
    cases front with
    | nil => exact .inl (List.cons.inj hsplit).1.symm
    | cons r front =>
      obtain ⟨rfl, hrest⟩ := List.cons.inj hsplit
      rw [List.forall_mem_cons] at hfront
      exact .inr ⟨hfront.1, front, back, hrest, hfront.2⟩
  · intro h
    rcases h with rfl | ⟨hfirst, front, back, rfl, hfront⟩
    · exact ⟨[], rest, rfl, by simp⟩
    · exact ⟨first :: front, back, rfl, List.forall_mem_cons.mpr ⟨hfirst, hfront⟩⟩

theorem matchesRules_ne_panicked_iff {header : Bytes} {rules : List DetectionRule} :
    matchesRules (X.inBuild .debug) header rules ≠ panicked ↔
      ∀ rule, Reached header rules rule → Addressed rule.offset rule.expectedBytes := by
  induction rules with
  | nil =>
    refine iff_of_true (ok_ne_panicked true) ?_
    intro rule h
    obtain ⟨front, back, hsplit, -⟩ := h
    simp at hsplit
  | cons rule rest ih =>
    simp only [reached_cons, forall_eq_or_imp, matchesRules, carries]
    cases rule.expectedBytes with
    | error e => simp [addressed_error]
    | ok expected =>
      simp only [addressed_ok, bind_ne_panicked_iff, matchesAt_ne_panicked_iff,
        decide_eq_true_eq]
      apply and_congr_right
      intro haddress
      rw [matchesAt_eq _ haddress]
      by_cases hfound : HasAt header rule.offset expected
      · simp [hfound, ih]
      · simp [hfound]

theorem checkedBy_matchesRules (X : Crates) (build : Build) (header : Bytes)
    (rules : List DetectionRule) :
    CheckedBy (matchesRules (X.inBuild .debug) header rules)
      (matchesRules (X.inBuild build) header rules) := by
  induction rules with
  | nil => exact .refl _
  | cons rule rest ih =>
    unfold matchesRules
    split
    · exact .refl _
    · apply (checkedBy_matchesAt X build header _ _).bind
      intro found
      exact .ite ih (.refl _)

theorem matchesGrammar_ne_panicked_iff {grammar : GrammarFile} {header : Bytes} :
    matchesGrammar (X.inBuild .debug) grammar header ≠ panicked ↔
      ∀ rule, Reached header grammar.rules rule →
        Addressed rule.offset rule.expectedBytes := by
  unfold matchesGrammar
  split_ifs with hnone
  · rw [← @matchesRules_ne_panicked_iff X, hnone]
    exact iff_of_true (ok_ne_panicked _) (ok_ne_panicked _)
  · exact matchesRules_ne_panicked_iff

theorem checkedBy_matchesGrammar (X : Crates) (build : Build) (grammar : GrammarFile)
    (header : Bytes) :
    CheckedBy (matchesGrammar (X.inBuild .debug) grammar header)
      (matchesGrammar (X.inBuild build) grammar header) :=
  .ite (.refl _) (checkedBy_matchesRules X build header grammar.rules)

theorem parsing_ne_panicked_iff {α : Type} {x : Parsed α} :
    parsing x ≠ panicked ↔ x ≠ panicked := by
  match x with
  | .ok a => simp [parsing]
  | .error (.error e) => simp [parsing, fail, panicked]
  | .error .panic => simp [parsing, panicked]

theorem checkedBy_parsing {α : Type} {x y : Parsed α} (h : CheckedBy x y) :
    CheckedBy (parsing x) (parsing y) := by
  intro hends
  rw [h (parsing_ne_panicked_iff.mp hends)]

def ruleFound (header : Bytes) (p : DetectionRule × Option Float32) : Bool :=
  carries header p.1.offset p.1.expectedBytes

/-- A rule inside the address range: one more where it is found, nothing where it is not. -/
theorem scanRule_eq (X : Crates) (header : Bytes) (s : RuleScan)
    {p : DetectionRule × Option Float32} (h : Addressed p.1.offset p.1.expectedBytes) :
    ∃ next : ℤ → RuleScan, (∀ count, (next count).matchedRulesCount = count) ∧
      scanRule X header s p =
        if ruleFound header p then
          X.build.fitI32 (s.matchedRulesCount + 1) >>= fun count => .ok (next count)
        else .ok s := by
  refine ⟨fun count =>
    if s.maxRuleWeight < p.2.getD 0.80 then
      ⟨count, p.2.getD 0.80, p.1.magicAscii.or p.1.magicHex⟩
    else { s with matchedRulesCount := count }, ?_, ?_⟩
  · intro count
    dsimp only
    split_ifs
    · rfl
    · rfl
  · unfold scanRule ruleFound carries
    dsimp only
    cases hexpected : p.1.expectedBytes with
    | error e => rfl
    | ok expected =>
      dsimp only
      rw [matchesAt_eq X (h expected hexpected)]
      dsimp only [parsing]
      rw [ok_bind]
      by_cases hfound : HasAt header p.1.offset expected
      · simp only [hfound, decide_true, if_true]
        congr 1
        funext count
        by_cases hgreater : s.maxRuleWeight < p.2.getD 0.80
        · simp only [if_pos hgreater]
        · simp only [if_neg hgreater]
      · simp only [hfound, decide_false, Bool.false_eq_true, if_false]

theorem scanRule_ne_panicked_iff {header : Bytes} {s : RuleScan}
    {p : DetectionRule × Option Float32} :
    scanRule (X.inBuild .debug) header s p ≠ panicked ↔
      Addressed p.1.offset p.1.expectedBytes ∧
        (ruleFound header p = true → FitsI32 (s.matchedRulesCount + 1)) := by
  by_cases haddress : Addressed p.1.offset p.1.expectedBytes
  · obtain ⟨next, -, hscan⟩ := scanRule_eq (X.inBuild .debug) header s haddress
    rw [hscan]
    by_cases hfound : ruleFound header p = true
    · rw [if_pos hfound, bind_ne_panicked_iff]
      constructor
      · intro h
        exact ⟨haddress, fun _ => Build.debug_fitI32_ne_panicked_iff.mp h.1⟩
      · intro h
        exact ⟨Build.debug_fitI32_ne_panicked_iff.mpr (h.2 hfound), fun _ _ => ok_ne_panicked _⟩
    · rw [if_neg hfound]
      exact iff_of_true (ok_ne_panicked s) ⟨haddress, fun h => absurd h hfound⟩
  · refine iff_of_false ?_ (fun h => haddress h.1)
    intro hends
    apply haddress
    intro expected hexpected
    unfold scanRule at hends
    simp only [hexpected, bind_ne_panicked_iff, parsing_ne_panicked_iff,
      matchesAt_ne_panicked_iff] at hends
    exact hends.1

/-- The loop over the rules: every sum is an address, and the rules that are found can be
counted. -/
theorem scan_ne_panicked_iff {header : Bytes} {ps : List (DetectionRule × Option Float32)}
    {s : RuleScan} (hpos : 0 ≤ s.matchedRulesCount) (hs : s.matchedRulesCount < 2 ^ 31) :
    ps.foldlM (scanRule (X.inBuild .debug) header) s ≠ panicked ↔
      (∀ p ∈ ps, Addressed p.1.offset p.1.expectedBytes) ∧
        s.matchedRulesCount + ps.countP (ruleFound header) < 2 ^ 31 := by
  induction ps generalizing s with
  | nil => exact iff_of_true (ok_ne_panicked s) ⟨by simp, by simpa using hs⟩
  | cons p rest ih =>
    rw [List.foldlM_cons, bind_ne_panicked_iff, scanRule_ne_panicked_iff, List.forall_mem_cons,
      List.countP_cons]
    constructor
    · intro h
      obtain ⟨⟨haddress, hfits⟩, hrest⟩ := h
      obtain ⟨next, hnext, hscan⟩ := scanRule_eq (X.inBuild .debug) header s haddress
      by_cases hfound : ruleFound header p = true
      · have hcount := hfits hfound
        rw [if_pos hfound, Build.fitI32_of_fits _ hcount, ok_bind] at hscan
        have hbehind := (@ih (next (s.matchedRulesCount + 1))
          (by rw [hnext]; omega) (by rw [hnext]; exact hcount.2)).mp (hrest _ hscan)
        rw [hnext] at hbehind
        rw [if_pos hfound]
        exact ⟨⟨haddress, hbehind.1⟩, by push_cast; omega⟩
      · rw [if_neg hfound] at hscan
        have hbehind := (ih hpos hs).mp (hrest _ hscan)
        rw [if_neg hfound]
        exact ⟨⟨haddress, hbehind.1⟩, by simpa using hbehind.2⟩
    · intro h
      obtain ⟨⟨haddress, hothers⟩, hcount⟩ := h
      obtain ⟨next, hnext, hscan⟩ := scanRule_eq (X.inBuild .debug) header s haddress
      by_cases hfound : ruleFound header p = true
      · rw [if_pos hfound] at hcount hscan
        push_cast at hcount
        have hfits : FitsI32 (s.matchedRulesCount + 1) := ⟨by omega, by omega⟩
        rw [Build.fitI32_of_fits _ hfits, ok_bind] at hscan
        refine ⟨⟨haddress, fun _ => hfits⟩, ?_⟩
        intro s' hs'
        obtain rfl := Except.ok.inj (hscan.symm.trans hs')
        apply (ih (by rw [hnext]; omega) (by rw [hnext]; exact hfits.2)).mpr
        rw [hnext]
        exact ⟨hothers, by omega⟩
      · rw [if_neg hfound] at hcount hscan
        refine ⟨⟨haddress, fun h => absurd h hfound⟩, ?_⟩
        intro s' hs'
        obtain rfl := Except.ok.inj (hscan.symm.trans hs')
        exact (ih hpos hs).mpr ⟨hothers, by simpa using hcount⟩

/-- As many rules are counted as are found. -/
theorem scan_count {header : Bytes} {ps : List (DetectionRule × Option Float32)}
    {s s' : RuleScan} (hpos : 0 ≤ s.matchedRulesCount) (hs : s.matchedRulesCount < 2 ^ 31)
    (h : ps.foldlM (scanRule (X.inBuild .debug) header) s = .ok s') :
    s'.matchedRulesCount = s.matchedRulesCount + ps.countP (ruleFound header) := by
  induction ps generalizing s with
  | nil =>
    obtain rfl := Except.ok.inj h
    simp
  | cons p rest ih =>
    rw [List.foldlM_cons] at h
    obtain ⟨middle, hstep, hrest⟩ := bind_ok.mp h
    have hends : scanRule (X.inBuild .debug) header s p ≠ panicked := by
      rw [hstep]
      exact ok_ne_panicked middle
    obtain ⟨haddress, hfits⟩ := scanRule_ne_panicked_iff.mp hends
    obtain ⟨next, hnext, hscan⟩ := scanRule_eq (X.inBuild .debug) header s haddress
    rw [hstep] at hscan
    rw [List.countP_cons]
    by_cases hfound : ruleFound header p = true
    · have hcount := hfits hfound
      rw [if_pos hfound, Build.fitI32_of_fits _ hcount, ok_bind] at hscan
      obtain rfl := Except.ok.inj hscan
      have hbehind := ih (by rw [hnext]; omega) (by rw [hnext]; exact hcount.2) hrest
      rw [hnext] at hbehind
      rw [if_pos hfound, hbehind]
      push_cast
      omega
    · rw [if_neg hfound] at hscan
      obtain rfl := Except.ok.inj hscan
      rw [if_neg hfound, ih hpos hs hrest, Nat.add_zero]

/-- A declared signature ends at an address, if it can be decoded. -/
def MagicAddressed (magic : Option MagicDef) : Prop :=
  ∀ m, magic = some m → Addressed m.offset m.expectedBytes

theorem superblockSeen_eq_carriesMagic (X : Crates) (probe : Bytes) (grammar : DeviceGrammar) :
    superblockSeen X probe grammar =
      parsing (carriesMagic X probe
        (grammar.structures.superblock.bind SuperblockDef.magic)) := by
  unfold superblockSeen carriesMagic
  cases grammar.structures.superblock with
  | none => rfl
  | some sb =>
    rw [Option.bind_some]
    dsimp only
    cases sb.magic with
    | none => rfl
    | some magic =>
      dsimp only
      cases magic.expectedBytes with
      | error e => rfl
      | ok bytes => rfl

theorem carriesMagic_ne_panicked_iff {data : Bytes} {magic : Option MagicDef} :
    carriesMagic (X.inBuild .debug) data magic ≠ panicked ↔ MagicAddressed magic := by
  unfold carriesMagic MagicAddressed
  cases magic with
  | none => simp
  | some m =>
    simp only [Option.some.injEq, forall_eq']
    cases m.expectedBytes with
    | error e => simp [addressed_error]
    | ok expected => exact matchesAt_ne_panicked_iff.trans addressed_ok.symm

theorem checkedBy_carriesMagic (X : Crates) (build : Build) (data : Bytes)
    (magic : Option MagicDef) :
    CheckedBy (carriesMagic (X.inBuild .debug) data magic)
      (carriesMagic (X.inBuild build) data magic) := by
  unfold carriesMagic
  split
  · exact .refl _
  · split
    · exact .refl _
    · exact checkedBy_matchesAt X build data _ _

/-- The rules that are found in the header. -/
def foundRules (header : Bytes) (grammar : DeviceGrammar) : ℕ :=
  grammar.rules.countP fun rule => carries header rule.offset rule.expectedBytes

theorem rules_of_zip (grammar : DeviceGrammar) :
    (grammar.rules.zip grammar.weights).map Prod.fst = grammar.rules :=
  List.map_fst_zip grammar.weights_length.ge

theorem countP_ruleFound (header : Bytes) (grammar : DeviceGrammar) :
    (grammar.rules.zip grammar.weights).countP (ruleFound header) =
      foundRules header grammar := by
  conv_rhs => rw [foundRules, ← rules_of_zip grammar, List.countP_map]
  rfl

theorem scanRules_ne_panicked_iff {header : Bytes} {grammar : DeviceGrammar} :
    scanRules (X.inBuild .debug) header grammar ≠ panicked ↔
      (∀ rule ∈ grammar.rules, Addressed rule.offset rule.expectedBytes) ∧
        foundRules header grammar < 2 ^ 31 := by
  have hall : (∀ p ∈ grammar.rules.zip grammar.weights,
      Addressed p.1.offset p.1.expectedBytes) ↔
        ∀ rule ∈ grammar.rules, Addressed rule.offset rule.expectedBytes := by
    conv_rhs => rw [← rules_of_zip grammar, List.forall_mem_map]
  have hscan := @scan_ne_panicked_iff X header (grammar.rules.zip grammar.weights) .start
    (Int.le_refl 0) (by decide)
  have hstart : RuleScan.start.matchedRulesCount = 0 := rfl
  rw [countP_ruleFound, hall, hstart, Int.zero_add] at hscan
  rw [scanRules, hscan]
  exact and_congr_right fun _ => by omega

theorem matchedRulesCount_of_scanRules {header : Bytes} {grammar : DeviceGrammar} {s : RuleScan}
    (h : scanRules (X.inBuild .debug) header grammar = .ok s) :
    s.matchedRulesCount = foundRules header grammar := by
  have hcounted := scan_count (Int.le_refl 0) (by decide) h
  have hstart : RuleScan.start.matchedRulesCount = 0 := rfl
  rwa [hstart, countP_ruleFound, Int.zero_add] at hcounted

/-- A scan has no error of its own. -/
theorem onlyPanics_scanRules (X : Crates) (header : Bytes) (grammar : DeviceGrammar) :
    OnlyPanics (scanRules X header grammar) :=
  onlyPanics_foldlM (onlyPanics_scanRule X header) _ _

theorem superblockSeen_ne_panicked_iff {header : Bytes} {grammar : DeviceGrammar} :
    superblockSeen (X.inBuild .debug) header grammar ≠ panicked ↔
      MagicAddressed (grammar.structures.superblock.bind SuperblockDef.magic) := by
  rw [superblockSeen_eq_carriesMagic, parsing_ne_panicked_iff, carriesMagic_ne_panicked_iff]

theorem grammarCandidate_ne_panicked_iff {header : Bytes} {grammar : DeviceGrammar} :
    grammarCandidate (X.inBuild .debug) header grammar ≠ panicked ↔
      (∀ rule ∈ grammar.rules, Addressed rule.offset rule.expectedBytes) ∧
        foundRules header grammar < 2 ^ 31 ∧
        (0 < foundRules header grammar →
          MagicAddressed (grammar.structures.superblock.bind SuperblockDef.magic)) := by
  unfold grammarCandidate
  rw [bind_ne_panicked_iff]
  constructor
  · intro h
    obtain ⟨hscan, hrest⟩ := h
    obtain ⟨haddress, hfits⟩ := scanRules_ne_panicked_iff.mp hscan
    refine ⟨haddress, hfits, ?_⟩
    intro hpos
    obtain ⟨s, hs⟩ := (onlyPanics_scanRules _ header grammar).ok_of_ne_panicked hscan
    have hcounted := matchedRulesCount_of_scanRules hs
    have hsuperblock := hrest s hs
    rw [if_pos (by omega), bind_ne_panicked_iff, superblockSeen_ne_panicked_iff] at hsuperblock
    exact hsuperblock.1
  · intro h
    obtain ⟨haddress, hfits, hmagic⟩ := h
    refine ⟨scanRules_ne_panicked_iff.mpr ⟨haddress, hfits⟩, ?_⟩
    intro s hs
    have hcounted := matchedRulesCount_of_scanRules hs
    split_ifs with hpos
    · rw [bind_ne_panicked_iff, superblockSeen_ne_panicked_iff]
      exact ⟨hmagic (by omega), fun _ _ => ok_ne_panicked _⟩
    · exact ok_ne_panicked none

theorem checkedBy_grammarCandidate (X : Crates) (build : Build) (header : Bytes)
    (grammar : DeviceGrammar) :
    CheckedBy (grammarCandidate (X.inBuild .debug) header grammar)
      (grammarCandidate (X.inBuild build) header grammar) := by
  unfold grammarCandidate scanRules
  apply CheckedBy.bind
  · apply checkedBy_foldlM
    intro s p
    unfold scanRule
    dsimp only
    split
    · exact .refl _
    · apply (checkedBy_parsing (checkedBy_matchesAt X build header _ _)).bind
      intro found
      exact .ite ((build.checkedBy_fitI32 _).bind fun count => .refl _) (.refl _)
  · intro s
    refine .ite ?_ (.refl _)
    rw [superblockSeen_eq_carriesMagic, superblockSeen_eq_carriesMagic]
    exact (checkedBy_parsing (checkedBy_carriesMagic X build header _)).bind fun _ => .refl _

/-- The width of a field that is read as a word. -/
def wordWidth : String → Option ℕ
  | "u16" => some 2
  | "u32" => some 4
  | "u64" => some 8
  | _ => none

theorem onlyPanics_readWord (X : Crates) (data : Bytes) (field : FieldDef) (width : ℕ) :
    OnlyPanics (readWord X data field width) := by
  apply (X.build.onlyPanics_add _ _).bind
  intro stop
  by_cases hshort : data.length < stop
  · rw [if_pos hshort]
    exact onlyPanics_ok _
  · rw [if_neg hshort]
    apply OnlyPanics.bind
    · apply onlyPanics_mapM
      intro i
      unfold index
      split
      · exact onlyPanics_ok _
      · exact onlyPanics_panicked
    · intro bytes
      exact onlyPanics_ok _

theorem readWord_ne_panicked_iff {data : Bytes} {field : FieldDef} {width : ℕ} :
    readWord (X.inBuild .debug) data field width ≠ panicked ↔
      field.offset + width < 2 ^ 64 := by
  constructor
  · intro h
    exact Build.debug_add_ne_panicked_iff.mp (bind_ne_panicked_iff.mp h).1
  · intro h
    obtain ⟨val, hval⟩ := readWord_total (X.inBuild .debug) data h
    rw [hval]
    exact ok_ne_panicked val

theorem checkedBy_readWord (X : Crates) (build : Build) (data : Bytes) (field : FieldDef)
    (width : ℕ) :
    CheckedBy (readWord (X.inBuild .debug) data field width)
      (readWord (X.inBuild build) data field width) :=
  (build.checkedBy_add _ _).bind fun _ => .refl _

theorem onlyPanics_readFieldValue (X : Crates) (data : Bytes) (field : FieldDef) :
    OnlyPanics (readFieldValue X data field) := by
  unfold readFieldValue
  split
  · split_ifs with hshort
    · exact onlyPanics_ok _
    · rw [index_of_lt (by omega), ok_bind]
      exact onlyPanics_ok _
  · exact onlyPanics_readWord X data field 2
  · exact onlyPanics_readWord X data field 4
  · exact onlyPanics_readWord X data field 8
  · exact onlyPanics_ok _

theorem readFieldValue_ne_panicked_iff {data : Bytes} {field : FieldDef} :
    readFieldValue (X.inBuild .debug) data field ≠ panicked ↔
      ∀ width, wordWidth field.fieldType = some width → field.offset + width < 2 ^ 64 := by
  have hword : ∀ width, wordWidth field.fieldType = some width →
      ((∀ width', wordWidth field.fieldType = some width' → field.offset + width' < 2 ^ 64) ↔
        field.offset + width < 2 ^ 64) := by
    intro width hwidth
    simp [hwidth]
  have hnone : wordWidth field.fieldType = none →
      ∀ width, wordWidth field.fieldType = some width → field.offset + width < 2 ^ 64 := by
    intro hwidth
    simp [hwidth]
  unfold readFieldValue
  split
  · rename_i htype
    refine iff_of_true ?_ (hnone (by rw [htype]; rfl))
    split_ifs with hshort
    · exact ok_ne_panicked 0
    · rw [index_of_lt (by omega), ok_bind]
      exact ok_ne_panicked _
  · rename_i htype
    rw [hword 2 (by rw [htype]; rfl)]
    exact readWord_ne_panicked_iff
  · rename_i htype
    rw [hword 4 (by rw [htype]; rfl)]
    exact readWord_ne_panicked_iff
  · rename_i htype
    rw [hword 8 (by rw [htype]; rfl)]
    exact readWord_ne_panicked_iff
  · rename_i hu8 hu16 hu32 hu64
    refine iff_of_true (ok_ne_panicked 0) (hnone ?_)
    unfold wordWidth
    split
    · exact absurd ‹_› hu16
    · exact absurd ‹_› hu32
    · exact absurd ‹_› hu64
    · rfl

theorem checkedBy_readFieldValue (X : Crates) (build : Build) (data : Bytes)
    (field : FieldDef) :
    CheckedBy (readFieldValue (X.inBuild .debug) data field)
      (readFieldValue (X.inBuild build) data field) := by
  unfold readFieldValue
  split
  · exact .refl _
  · exact checkedBy_readWord X build data field 2
  · exact checkedBy_readWord X build data field 4
  · exact checkedBy_readWord X build data field 8
  · exact .refl _

/-- A field ends at an address, and the zone of a timestamp that is not zero is readable. -/
structure FieldSafe (X : Crates) (block : Bytes) (field : FieldDef) : Prop where
  address : ∀ width, wordWidth field.fieldType = some width → field.offset + width < 2 ^ 64
  zone : field.role = some "timestamp" → ∀ val,
    readFieldValue (X.inBuild .debug) block field = .ok val → val ≠ 0 →
      ZoneReadable field.timezone

theorem onlyPanics_normalizeTimestamp (X : Crates) (raw : ℕ) (encoding timezone : Option String) :
    OnlyPanics (normalizeTimestamp X raw encoding timezone : Parsed String) := by
  unfold normalizeTimestamp
  split_ifs
  · exact onlyPanics_ok _
  · apply OnlyPanics.bind
    · exact onlyPanics_parseTimezoneOffset X timezone
    · intro offset
      dsimp only
      split_ifs
      · exact onlyPanics_ok _
      · exact onlyPanics_ok _
      · exact onlyPanics_ok _

theorem onlyPanics_applyField (X : Crates) (block : Bytes) (v : HeaderValues)
    (field : FieldDef) : OnlyPanics (applyField X block v field) := by
  apply (onlyPanics_readFieldValue X block field).bind
  intro val
  split
  · exact onlyPanics_ok _
  · exact (onlyPanics_normalizeTimestamp X val _ _).bind fun text => onlyPanics_ok _
  · exact onlyPanics_ok _
  · exact onlyPanics_ok _
  · exact onlyPanics_ok _
  · exact onlyPanics_ok _

theorem applyField_ne_panicked_iff {block : Bytes} {v : HeaderValues} {field : FieldDef} :
    applyField (X.inBuild .debug) block v field ≠ panicked ↔ FieldSafe X block field := by
  unfold applyField
  rw [bind_ne_panicked_iff, readFieldValue_ne_panicked_iff]
  constructor
  · intro h
    refine ⟨h.1, ?_⟩
    intro hrole val hval
    have hsteps := h.2 val hval
    simp only [hrole, bind_ne_panicked_iff] at hsteps
    exact normalizeTimestamp_ne_panicked_iff.mp hsteps.1
  · intro h
    refine ⟨h.address, ?_⟩
    intro val hval
    split
    · exact ok_ne_panicked _
    · rename_i hrole
      rw [bind_ne_panicked_iff, normalizeTimestamp_ne_panicked_iff]
      exact ⟨h.zone hrole val hval, fun _ _ => ok_ne_panicked _⟩
    · exact ok_ne_panicked _
    · exact ok_ne_panicked _
    · exact ok_ne_panicked _
    · exact ok_ne_panicked _

theorem checkedBy_applyField (X : Crates) (build : Build) (block : Bytes) (v : HeaderValues)
    (field : FieldDef) :
    CheckedBy (applyField (X.inBuild .debug) block v field)
      (applyField (X.inBuild build) block v field) := by
  apply (checkedBy_readFieldValue X build block field).bind
  intro val
  split
  · exact .refl _
  · exact (checkedBy_normalizeTimestamp X build val _ _).bind fun text => .refl _
  · exact .refl _
  · exact .refl _
  · exact .refl _
  · exact .refl _

/-- A declared signature stands in the data. -/
def magicFound (data : Bytes) (magic : Option MagicDef) : Bool :=
  match magic with
  | none => false
  | some m => carries data m.offset m.expectedBytes

theorem carriesMagic_eq (X : Crates) {data : Bytes} {magic : Option MagicDef}
    (h : MagicAddressed magic) : carriesMagic X data magic = .ok (magicFound data magic) := by
  unfold carriesMagic magicFound carries
  cases magic with
  | none => rfl
  | some m =>
    dsimp only
    cases hexpected : m.expectedBytes with
    | error e => rfl
    | ok expected => exact matchesAt_eq X (h m rfl expected hexpected)

variable {grammar : GrammarFile} {blockIndex byteOffset : ℕ} {block : Bytes} {hash : String}

/-- The header fields of a video block are safe, and its payload begins at an address. -/
structure VideoSafe (X : Crates) (videoDef : VideoBlockDef) (byteOffset : ℕ) (block : Bytes) :
    Prop where
  fields : ∀ field ∈ videoDef.header.fields, FieldSafe X block field
  payload : byteOffset + videoDef.payload.offset < 2 ^ 64

theorem parseVideoBlock_ne_panicked_iff {videoDef : VideoBlockDef} :
    parseVideoBlock (X.inBuild .debug) videoDef blockIndex byteOffset block hash ≠ panicked ↔
      VideoSafe X videoDef byteOffset block := by
  have hfold := @foldlM_ne_panicked_iff _ _ _ (applyField (X.inBuild .debug) block)
    (FieldSafe X block) (onlyPanics_applyField _ block) (fun _ _ => applyField_ne_panicked_iff)
    videoDef.header.fields (HeaderValues.initial videoDef.payload.defaultLength)
  unfold parseVideoBlock
  rw [bind_ne_panicked_iff]
  constructor
  · intro h
    obtain ⟨v, hv⟩ := (onlyPanics_foldlM (onlyPanics_applyField _ block) _ _).ok_of_ne_panicked h.1
    exact ⟨hfold.mp h.1,
      Build.debug_add_ne_panicked_iff.mp (bind_ne_panicked_iff.mp (h.2 v hv)).1⟩
  · intro h
    refine ⟨hfold.mpr h.fields, ?_⟩
    intro v _
    exact bind_ne_panicked_iff.mpr
      ⟨Build.debug_add_ne_panicked_iff.mpr h.payload, fun _ _ => ok_ne_panicked _⟩

theorem checkedBy_parseVideoBlock (X : Crates) (build : Build) (videoDef : VideoBlockDef)
    (blockIndex byteOffset : ℕ) (block : Bytes) (hash : String) :
    CheckedBy (parseVideoBlock (X.inBuild .debug) videoDef blockIndex byteOffset block hash)
      (parseVideoBlock (X.inBuild build) videoDef blockIndex byteOffset block hash) := by
  apply (checkedBy_foldlM (checkedBy_applyField X build block) _ _).bind
  intro v
  exact (build.checkedBy_add _ _).bind fun payloadOffset => .refl _

/-- What a block without the video signature is compared with ends at addresses, as far as
it gets, and the payload of a block that is nothing begins at one. -/
def OtherSafe (grammar : GrammarFile) (byteOffset : ℕ) (block : Bytes) : Prop :=
  let superblock := grammar.structures.superblock.bind SuperblockDef.magic
  let partitionTable := grammar.structures.partitionTable.bind PartitionTableDef.magic
  MagicAddressed superblock ∧ (magicFound block superblock = false →
    MagicAddressed partitionTable ∧ (magicFound block partitionTable = false →
      byteOffset + grammar.structures.videoBlock.payload.offset < 2 ^ 64))

/-- A block that is long enough, under a video signature that can be decoded, is compared
with it at addresses, and so is what follows from the comparison. -/
def BlockSafe (X : Crates) (grammar : GrammarFile) (byteOffset : ℕ) (block : Bytes) : Prop :=
  let videoDef := grammar.structures.videoBlock
  videoDef.header.size ≤ block.length →
    ∀ magicBytes, videoDef.header.magic.expectedBytes = .ok magicBytes →
      videoDef.header.magic.offset + magicBytes.length < 2 ^ 64 ∧
        (HasAt block videoDef.header.magic.offset magicBytes →
          VideoSafe X videoDef byteOffset block) ∧
        (¬ HasAt block videoDef.header.magic.offset magicBytes →
          OtherSafe grammar byteOffset block)

/-- The interpretation of a block without the video signature. -/
def interpretOther (X : Crates) (grammar : GrammarFile) (blockIndex byteOffset : ℕ)
    (block : Bytes) (hash : String) : Parsed ExtractedRecord := do
  let isSuperblock ← carriesMagic X block (grammar.structures.superblock.bind SuperblockDef.magic)
  if isSuperblock then
    .ok (plainRecord blockIndex byteOffset byteOffset block.length false "superblock" hash)
  else do
    let isPartition ← carriesMagic X block
      (grammar.structures.partitionTable.bind PartitionTableDef.magic)
    if isPartition then
      .ok (plainRecord blockIndex byteOffset byteOffset block.length false "partition_table" hash)
    else do
      let payloadOffset ← X.build.add byteOffset grammar.structures.videoBlock.payload.offset
      .ok (plainRecord blockIndex byteOffset payloadOffset
        grammar.structures.videoBlock.payload.defaultLength true "unallocated_or_corrupted" hash)

theorem interpretOther_ne_panicked_iff :
    interpretOther (X.inBuild .debug) grammar blockIndex byteOffset block hash ≠ panicked ↔
      OtherSafe grammar byteOffset block := by
  unfold interpretOther OtherSafe
  dsimp only
  rw [bind_ne_panicked_iff, carriesMagic_ne_panicked_iff]
  apply and_congr_right
  intro hsuperblock
  rw [carriesMagic_eq _ hsuperblock]
  simp only [Except.ok.injEq, forall_eq']
  cases magicFound block (grammar.structures.superblock.bind SuperblockDef.magic) with
  | true => exact iff_of_true (ok_ne_panicked _) (by simp)
  | false =>
    simp only [Bool.false_eq_true, if_false, true_implies]
    rw [bind_ne_panicked_iff, carriesMagic_ne_panicked_iff]
    apply and_congr_right
    intro hpartition
    rw [carriesMagic_eq _ hpartition]
    simp only [Except.ok.injEq, forall_eq']
    cases magicFound block (grammar.structures.partitionTable.bind PartitionTableDef.magic) with
    | true => exact iff_of_true (ok_ne_panicked _) (by simp)
    | false =>
      simp only [Bool.false_eq_true, if_false, true_implies]
      rw [bind_ne_panicked_iff]
      constructor
      · intro h
        exact Build.debug_add_ne_panicked_iff.mp h.1
      · intro h
        exact ⟨Build.debug_add_ne_panicked_iff.mpr h, fun _ _ => ok_ne_panicked _⟩

theorem checkedBy_interpretOther (X : Crates) (build : Build) (grammar : GrammarFile)
    (blockIndex byteOffset : ℕ) (block : Bytes) (hash : String) :
    CheckedBy (interpretOther (X.inBuild .debug) grammar blockIndex byteOffset block hash)
      (interpretOther (X.inBuild build) grammar blockIndex byteOffset block hash) := by
  apply (checkedBy_carriesMagic X build block _).bind
  intro isSuperblock
  refine .ite (.refl _) ?_
  apply (checkedBy_carriesMagic X build block _).bind
  intro isPartition
  exact .ite (.refl _) ((build.checkedBy_add _ _).bind fun payloadOffset => .refl _)

theorem interpretBlock_eq (X : Crates) (grammar : GrammarFile) (blockIndex byteOffset : ℕ)
    (block : Bytes) (hash : String) :
    interpretBlock X grammar blockIndex byteOffset block hash =
      let videoDef := grammar.structures.videoBlock
      if block.length < videoDef.header.size then
        fail (.blockTooSmall block.length videoDef.header.size)
      else
        Machine.ofExcept videoDef.header.magic.expectedBytes >>= fun magicBytes =>
          matchesAt X block videoDef.header.magic.offset magicBytes >>= fun hasVideoMagic =>
            if hasVideoMagic then parseVideoBlock X videoDef blockIndex byteOffset block hash
            else interpretOther X grammar blockIndex byteOffset block hash := rfl

theorem interpretBlock_ne_panicked_iff :
    interpretBlock (X.inBuild .debug) grammar blockIndex byteOffset block hash ≠ panicked ↔
      BlockSafe X grammar byteOffset block := by
  rw [interpretBlock_eq]
  unfold BlockSafe
  dsimp only
  by_cases hsize : block.length < grammar.structures.videoBlock.header.size
  · rw [if_pos hsize]
    refine iff_of_true (fail_ne_panicked _) ?_
    intro hle
    omega
  · rw [if_neg hsize]
    simp only [Nat.not_lt.mp hsize, true_implies]
    cases hmagic : grammar.structures.videoBlock.header.magic.expectedBytes with
    | error e => exact iff_of_true (fail_ne_panicked e) (by simp)
    | ok magicBytes =>
      have hdecoded : (Machine.ofExcept (.ok magicBytes) : Parsed Bytes) = .ok magicBytes := rfl
      simp only [Except.ok.injEq, forall_eq']
      rw [hdecoded, ok_bind, bind_ne_panicked_iff, matchesAt_ne_panicked_iff]
      apply and_congr_right
      intro haddress
      rw [matchesAt_eq _ haddress]
      simp only [Except.ok.injEq, forall_eq']
      by_cases hvideo : HasAt block grammar.structures.videoBlock.header.magic.offset magicBytes
      · rw [if_pos (decide_eq_true hvideo), parseVideoBlock_ne_panicked_iff]
        simp [hvideo]
      · rw [if_neg (by simpa using hvideo), interpretOther_ne_panicked_iff]
        simp [hvideo]

theorem checkedBy_interpretBlock (X : Crates) (build : Build) (grammar : GrammarFile)
    (blockIndex byteOffset : ℕ) (block : Bytes) (hash : String) :
    CheckedBy (interpretBlock (X.inBuild .debug) grammar blockIndex byteOffset block hash)
      (interpretBlock (X.inBuild build) grammar blockIndex byteOffset block hash) := by
  rw [interpretBlock_eq, interpretBlock_eq]
  refine .ite (.refl _) ((CheckedBy.refl _).bind fun magicBytes => ?_)
  apply (checkedBy_matchesAt X build block _ magicBytes).bind
  intro hasVideoMagic
  exact .ite (checkedBy_parseVideoBlock X build _ blockIndex byteOffset block hash)
    (checkedBy_interpretOther X build grammar blockIndex byteOffset block hash)

/-- What the checked build does without a panic, every build does. -/
theorem forall_build_ne_panicked_iff {ε α : Type} {run : Build → Outcome ε α}
    (h : ∀ build, CheckedBy (run .debug) (run build)) :
    (∀ build, run build ≠ panicked) ↔ run .debug ≠ panicked := by
  constructor
  · intro hall
    exact hall .debug
  · intro hdebug build
    rw [h build hdebug]
    exact hdebug

/-- The rules that are found can be counted, every rule ends at an address, and so does the
superblock's signature if it is looked for. -/
structure RulesSafe (header : Bytes) (grammar : DeviceGrammar) : Prop where
  rules : ∀ rule ∈ grammar.rules, Addressed rule.offset rule.expectedBytes
  count : foundRules header grammar < 2 ^ 31
  superblock : 0 < foundRules header grammar →
    MagicAddressed (grammar.structures.superblock.bind SuperblockDef.magic)

/-- When the engine survives a grammar: detection if the rules it reaches end at addresses,
identification if all do and can be counted, interpretation if the steps that the block
takes are safe. -/
theorem no_crash_iff (X : Crates) (grammar : DeviceGrammar) (header : Bytes)
    (blockIndex byteOffset : ℕ) (block : Bytes) (hash : String) :
    ((∀ build, matchesGrammar (X.inBuild build) grammar.toGrammarFile header ≠ panicked) ↔
        ∀ rule, Reached header grammar.rules rule →
          Addressed rule.offset rule.expectedBytes) ∧
      ((∀ build, grammarCandidate (X.inBuild build) header grammar ≠ panicked) ↔
        RulesSafe header grammar) ∧
      ((∀ build, interpretBlock (X.inBuild build) grammar.toGrammarFile blockIndex byteOffset
          block hash ≠ panicked) ↔
        BlockSafe X grammar.toGrammarFile byteOffset block) := by
  refine ⟨?_, ?_, ?_⟩
  · rw [forall_build_ne_panicked_iff fun build =>
      checkedBy_matchesGrammar X build grammar.toGrammarFile header]
    exact matchesGrammar_ne_panicked_iff
  · rw [forall_build_ne_panicked_iff fun build =>
      checkedBy_grammarCandidate X build header grammar, grammarCandidate_ne_panicked_iff]
    constructor
    · intro h
      exact ⟨h.1, h.2.1, h.2.2⟩
    · intro h
      exact ⟨h.rules, h.count, h.superblock⟩
  · rw [forall_build_ne_panicked_iff fun build =>
      checkedBy_interpretBlock X build grammar.toGrammarFile blockIndex byteOffset block hash]
    exact interpretBlock_ne_panicked_iff

/-- A signature of four bytes that would end behind the last address. -/
def farGrammar : DeviceGrammar :=
  plainGrammar "far" [⟨2 ^ 64 - 1, some "CAM1", none⟩]

theorem farGrammar_crashes :
    ¬ ∀ (grammar : DeviceGrammar) (header : Bytes) (build : Build),
      matchesGrammar (Crates.sample.inBuild build) grammar.toGrammarFile header ≠ panicked := by
  intro h
  exact h farGrammar (ascii "CAM1") .release rfl

end Dvrft.Crashes
