import Dvrft.CaseFiles
import Dvrft.Interpreter
import Dvrft.Selection

/-!
Grammar detection: the files of a directory that load and whose rules all match
the head of the evidence, ordered by tier and number of rules, highest first.
The head is what a single read delivers.
-/

namespace Dvrft.Detection

open Errors Machine Platform Grammar Acquisition ShortReads Interpreter CaseFiles Selection

/-- A directory entry; `grammar` is what its text loads as. -/
structure GrammarEntry where
  path : String
  extension : Option String
  grammar : Option GrammarFile
  deriving DecidableEq, Repr

structure GrammarsDir where
  path : String
  entries : Except IoError (List GrammarEntry)

/-- Every rule is decodable and its bytes are in the header. -/
def matchesRules (X : Crates) (header : Bytes) : List DetectionRule → Parsed Bool
  | [] => .ok true
  | rule :: rest =>
    match rule.expectedBytes with
    | .error _ => .ok false
    | .ok expected => do
      let found ← matchesAt X header rule.offset expected
      if found then matchesRules X header rest else .ok false

def matchesGrammar (X : Crates) (grammar : GrammarFile) (header : Bytes) : Parsed Bool :=
  if grammar.rules = [] then .ok false else matchesRules X header grammar.rules

/-- The grammars that match, with the paths of their files. -/
def matching (X : Crates) (header : Bytes) :
    List GrammarEntry → Parsed (List (GrammarFile × String))
  | [] => .ok []
  | entry :: rest => do
    let found ← match entry.extension, entry.grammar with
      | some "yaml", some grammar => matchesGrammar X grammar header
      | _, _ => .ok false
    let others ← matching X header rest
    match found, entry.grammar with
    | true, some grammar => .ok ((grammar, entry.path) :: others)
    | _, _ => .ok others

/-- Higher tiers first, then more rules. -/
def precedes (a b : GrammarFile × String) : Prop :=
  b.1.tier < a.1.tier ∨ (b.1.tier = a.1.tier ∧ b.1.rules.length ≤ a.1.rules.length)

instance : DecidableRel precedes := fun a b => by unfold precedes; infer_instance

def headerSize : ℕ := 65536

def detectGrammar (X : Crates) (evidence : EvidenceFile) (grammarsDir : GrammarsDir)
    (plan : Schedule IoError) : Parsed (GrammarFile × String) := do
  match evidence.refusal with
  | some e => fail (.io e)
  | none =>
    match (Reader.opened evidence.content.bytes plan).read headerSize with
    | .error e => fail (.io e)
    | .ok (header, _) =>
      match grammarsDir.entries with
      | .error e => fail (.grammarIoError grammarsDir.path e)
      | .ok entries => do
        let found ← matching X header entries
        match found.insertionSort precedes with
        | [] => fail (.detectionFailed evidence.path grammarsDir.path)
        | best :: _ => .ok best

/-- A rule whose bytes can be decoded and are in the header. -/
def RuleSeen (X : Crates) (header : Bytes) (rule : DetectionRule) : Prop :=
  ∃ expected, rule.expectedBytes = .ok expected ∧
    matchesAt X header rule.offset expected = .ok true

/-- The file holds the grammar, and all its rules are seen. -/
def Matches (X : Crates) (header : Bytes) (entry : GrammarEntry) (grammar : GrammarFile) :
    Prop :=
  entry.extension = some "yaml" ∧ entry.grammar = some grammar ∧ grammar.rules ≠ [] ∧
    ∀ rule ∈ grammar.rules, RuleSeen X header rule

theorem matchesRules_eq_true_iff {X : Crates} {header : Bytes} {rules : List DetectionRule} :
    matchesRules X header rules = .ok true ↔ ∀ rule ∈ rules, RuleSeen X header rule := by
  induction rules with
  | nil => simp [matchesRules]
  | cons rule rest ih =>
    unfold matchesRules
    simp only [List.forall_mem_cons]
    cases hexpected : rule.expectedBytes with
    | error e =>
      constructor
      · intro h
        simp at h
      · intro h
        obtain ⟨expected, hok, -⟩ := h.1
        simp [hexpected] at hok
    | ok expected =>
      dsimp only
      rw [bind_ok]
      constructor
      · intro h
        obtain ⟨found, hfound, hrest⟩ := h
        cases found with
        | true => exact ⟨⟨expected, hexpected, hfound⟩, ih.mp hrest⟩
        | false => simp at hrest
      · intro h
        obtain ⟨⟨expected', hok, hfound⟩, hrest⟩ := h
        obtain rfl := Except.ok.inj (hexpected.symm.trans hok)
        exact ⟨true, hfound, ih.mpr hrest⟩

theorem matchesGrammar_eq_true_iff {X : Crates} {header : Bytes} {grammar : GrammarFile} :
    matchesGrammar X grammar header = .ok true ↔
      grammar.rules ≠ [] ∧ ∀ rule ∈ grammar.rules, RuleSeen X header rule := by
  unfold matchesGrammar
  split_ifs with hnone
  · simp [hnone]
  · rw [matchesRules_eq_true_iff]
    simp [hnone]

/-- The comparisons of the entry's grammar, if it has one, do not end the program. -/
def Comparable (X : Crates) (header : Bytes) (entry : GrammarEntry) : Prop :=
  ∀ grammar, entry.extension = some "yaml" → entry.grammar = some grammar →
    ∃ found, matchesGrammar X grammar header = .ok found

def entryMatch (X : Crates) (header : Bytes) (entry : GrammarEntry) :
    Parsed (Option (GrammarFile × String)) := do
  let found ← match entry.extension, entry.grammar with
    | some "yaml", some grammar => matchesGrammar X grammar header
    | _, _ => .ok false
  match found, entry.grammar with
  | true, some grammar => .ok (some (grammar, entry.path))
  | _, _ => .ok none

theorem matching_eq (X : Crates) (header : Bytes) (entries : List GrammarEntry) :
    matching X header entries =
      entries.mapM (entryMatch X header) >>= fun found => .ok (found.filterMap id) := by
  induction entries with
  | nil => rfl
  | cons entry rest ih =>
    unfold matching
    rw [List.mapM_cons, ih]
    generalize rest.mapM (entryMatch X header) = others
    unfold entryMatch
    split
    · rename_i grammar hyaml hgrammar
      cases matchesGrammar X grammar header with
      | error e => rfl
      | ok found =>
        rw [hgrammar]
        cases found <;> cases others <;> rfl
    · cases others <;> rfl

theorem entryMatch_eq_some {X : Crates} {header : Bytes} {entry : GrammarEntry}
    {p : GrammarFile × String} :
    entryMatch X header entry = .ok (some p) ↔
      Matches X header entry p.1 ∧ p.2 = entry.path := by
  obtain ⟨grammar, path⟩ := p
  unfold entryMatch Matches
  rw [← matchesGrammar_eq_true_iff]
  split
  · rename_i declared hyaml hgrammar
    rw [hyaml, hgrammar]
    simp only [Option.some.injEq, true_and]
    cases hfound : matchesGrammar X declared header with
    | error e =>
      simp only [bind, Except.bind, reduceCtorEq, false_iff, not_and]
      intro h
      rw [← h.1, hfound] at h
      exact absurd h.2 (by simp)
    | ok found =>
      cases found with
      | false =>
        simp only [bind, Except.bind, Except.ok.injEq, reduceCtorEq, false_iff, not_and]
        intro h
        rw [← h.1, hfound] at h
        exact absurd h.2 (by simp)
      | true =>
        simp only [bind, Except.bind, Except.ok.injEq, Option.some.injEq, Prod.mk.injEq]
        constructor
        · intro h
          refine ⟨⟨h.1, ?_⟩, h.2.symm⟩
          rw [← h.1, hfound]
        · intro h
          exact ⟨h.1.1, h.2.symm⟩
  · rename_i hno
    simp only [bind, Except.bind, Except.ok.injEq, reduceCtorEq, false_iff, not_and]
    intro h
    exact absurd h.2.1 (hno grammar h.1)

theorem exists_entryMatch_iff {X : Crates} {header : Bytes} {entry : GrammarEntry} :
    (∃ o, entryMatch X header entry = .ok o) ↔ Comparable X header entry := by
  unfold entryMatch Comparable
  split
  · rename_i declared hyaml hgrammar
    rw [hyaml, hgrammar]
    cases hfound : matchesGrammar X declared header with
    | error e =>
      simp only [bind, Except.bind, reduceCtorEq, exists_false, false_iff]
      intro h
      obtain ⟨found, hok⟩ := h declared trivial rfl
      rw [hfound] at hok
      exact absurd hok (by simp)
    | ok found =>
      constructor
      · intro _ grammar _ hsame
        obtain rfl := Option.some.inj hsame
        exact ⟨found, hfound⟩
      · intro _
        cases found <;> exact ⟨_, rfl⟩
  · rename_i hno
    constructor
    · intro _ grammar hyaml hgrammar
      exact absurd hgrammar (hno grammar hyaml)
    · intro _
      exact ⟨_, rfl⟩

theorem totalOn_precedes (l : List (GrammarFile × String)) : TotalOn precedes l := by
  intro a _ b _
  unfold precedes
  omega

theorem transOn_precedes (l : List (GrammarFile × String)) : TransOn precedes l := by
  intro a _ b _ c _ hab hbc
  unfold precedes at *
  omega

/-- The head of a readable evidence file. -/
def headOf (evidence : EvidenceFile) (plan : Schedule IoError) : Except IoError Bytes :=
  match evidence.refusal with
  | some e => .error e
  | none =>
    match (Reader.opened evidence.content.bytes plan).read headerSize with
    | .error e => .error e
    | .ok (header, _) => .ok header

theorem headOf_ok {evidence : EvidenceFile} {plan : Schedule IoError} {header : Bytes} :
    headOf evidence plan = .ok header ↔ evidence.refusal = none ∧
      ∃ reader, (Reader.opened evidence.content.bytes plan).read headerSize =
        .ok (header, reader) := by
  unfold headOf
  cases evidence.refusal with
  | some e => simp
  | none =>
    cases (Reader.opened evidence.content.bytes plan).read headerSize with
    | error e => simp
    | ok result => simp [Prod.ext_iff]

/-- The match that detection answers with: it outranks every match in front of it
and no match behind it outranks it. -/
def Chosen (X : Crates) (header : Bytes) (entries : List GrammarEntry) (grammar : GrammarFile)
    (path : String) : Prop :=
  ∃ front entry back, entries = front ++ entry :: back ∧ entry.path = path ∧
    Matches X header entry grammar ∧
    (∀ other ∈ front, ∀ grammar', Matches X header other grammar' →
      ¬ precedes (grammar', other.path) (grammar, path)) ∧
    ∀ other ∈ back, ∀ grammar', Matches X header other grammar' →
      precedes (grammar, path) (grammar', other.path)

theorem detectGrammar_eq (X : Crates) (evidence : EvidenceFile) (grammarsDir : GrammarsDir)
    (plan : Schedule IoError) {header : Bytes} (hhead : headOf evidence plan = .ok header)
    {entries : List GrammarEntry} (hentries : grammarsDir.entries = .ok entries) :
    detectGrammar X evidence grammarsDir plan =
      matching X header entries >>= fun found =>
        match (found.insertionSort precedes).head? with
        | none => fail (.detectionFailed evidence.path grammarsDir.path)
        | some best => .ok best := by
  obtain ⟨hrefusal, reader, hread⟩ := headOf_ok.mp hhead
  unfold detectGrammar
  simp only [hrefusal, hread, hentries]
  congr 1
  funext found
  cases found.insertionSort precedes <;> rfl

/-- The matches of a directory whose comparisons all end well. -/
theorem matching_ok_iff {X : Crates} {header : Bytes} {entries : List GrammarEntry}
    {found : List (GrammarFile × String)} :
    matching X header entries = .ok found ↔
      (∀ entry ∈ entries, Comparable X header entry) ∧
        found = entries.filterMap (yields (entryMatch X header)) := by
  rw [matching_eq, mapM_filterMap_ok]
  simp only [exists_entryMatch_iff]

theorem mem_matches_iff {X : Crates} {header : Bytes} {entries : List GrammarEntry}
    {p : GrammarFile × String} :
    p ∈ entries.filterMap (yields (entryMatch X header)) ↔
      ∃ entry ∈ entries, Matches X header entry p.1 ∧ p.2 = entry.path := by
  simp only [List.mem_filterMap, yields_eq_some, entryMatch_eq_some]

theorem precedes_of_not {a b : GrammarFile × String} (h : ¬ precedes a b) : precedes b a :=
  (totalOn_precedes [a, b] a (by simp) b (by simp)).resolve_left h

theorem precedes_trans {a b c : GrammarFile × String} (hab : precedes a b)
    (hbc : precedes b c) : precedes a c :=
  transOn_precedes [a, b, c] a (by simp) b (by simp) c (by simp) hab hbc

/-- The head of the sorted matches is the one that is chosen. -/
theorem head?_sorted_matches_iff {X : Crates} {header : Bytes} {entries : List GrammarEntry}
    {grammar : GrammarFile} {path : String} :
    ((entries.filterMap (yields (entryMatch X header))).insertionSort precedes).head? =
        some (grammar, path) ↔
      Chosen X header entries grammar path := by
  rw [head?_insertionSort (totalOn_precedes _) (transOn_precedes _), List.find?_filterMap,
    Option.bind_eq_some_iff]
  have hmatch : ∀ entry p, yields (entryMatch X header) entry = some p ↔
      Matches X header entry p.1 ∧ p.2 = entry.path := by
    intro entry p
    rw [yields_eq_some, entryMatch_eq_some]
  constructor
  · intro h
    obtain ⟨entry, hfind, hyields⟩ := h
    obtain ⟨hlead, front, back, rfl, hfront⟩ := List.find?_eq_some_iff_append.mp hfind
    obtain ⟨hentry, hpath⟩ := (hmatch entry _).mp hyields
    dsimp only at hentry hpath
    rw [hyields, Option.any_some, decide_eq_true_iff] at hlead
    refine ⟨front, entry, back, rfl, hpath.symm, hentry, ?_, ?_⟩
    · intro other hother grammar' hmatches hbefore
      -- a match in front that ties with the head would have been the head
      have hyields' : yields (entryMatch X header) other = some (grammar', other.path) :=
        (hmatch other _).mpr ⟨hmatches, rfl⟩
      have hnot := hfront other hother
      rw [hyields', Option.any_some, Bool.not_eq_true', decide_eq_false_iff_not] at hnot
      exact hnot fun c hc => precedes_trans hbefore (hlead c hc)
    · intro other hother grammar' hmatches
      apply hlead
      exact mem_matches_iff.mpr ⟨other, by simp [hother], hmatches, rfl⟩
  · intro h
    obtain ⟨front, entry, back, rfl, rfl, hentry, hfront, hback⟩ := h
    have hyields : yields (entryMatch X header) entry = some (grammar, entry.path) :=
      (hmatch entry _).mpr ⟨hentry, rfl⟩
    refine ⟨entry, List.find?_eq_some_iff_append.mpr ⟨?_, front, back, rfl, ?_⟩, hyields⟩
    · rw [hyields, Option.any_some, decide_eq_true_iff]
      intro c hc
      obtain ⟨other, hother, hmatches, hpath⟩ := mem_matches_iff.mp hc
      have hc' : c = (c.1, other.path) := by rw [← hpath]
      rcases List.mem_append.mp hother with hother | hother
      · rw [hc']
        exact precedes_of_not (hfront other hother c.1 hmatches)
      · rcases List.mem_cons.mp hother with rfl | hother
        · have hsame : c.1 = grammar := Option.some.inj (hmatches.2.1.symm.trans hentry.2.1)
          rw [hc', hsame]
          exact .inr ⟨rfl, Nat.le_refl _⟩
        · rw [hc']
          exact hback other hother c.1 hmatches
    · intro other hother
      rw [Bool.not_eq_true', Bool.eq_false_iff]
      intro hany
      obtain ⟨p, hp, hleads⟩ := (Option.any_eq_true _ _).mp hany
      obtain ⟨hmatches, hpath⟩ := (hmatch other p).mp hp
      have hbefore := of_decide_eq_true hleads (grammar, entry.path)
        (mem_matches_iff.mpr ⟨entry, by simp, hentry, rfl⟩)
      have hp' : p = (p.1, other.path) := by rw [← hpath]
      rw [hp'] at hbefore
      exact hfront other hother p.1 hmatches hbefore

/-- What detection answers for a header; `refused` is its answer without a match. -/
def answerFor (X : Crates) (refused : ParserError) (entries : List GrammarEntry)
    (header : Bytes) : Parsed (GrammarFile × String) :=
  matching X header entries >>= fun found =>
    match (found.insertionSort precedes).head? with
    | none => fail refused
    | some best => .ok best

theorem answerFor_of_comparable {X : Crates} {header : Bytes} {entries : List GrammarEntry}
    (refused : ParserError) (h : ∀ entry ∈ entries, Comparable X header entry) :
    answerFor X refused entries header =
      match ((entries.filterMap (yields (entryMatch X header))).insertionSort precedes).head? with
      | none => fail refused
      | some best => .ok best := by
  rw [answerFor, matching_ok_iff.mpr ⟨h, rfl⟩]
  rfl

theorem answerFor_ok_iff {X : Crates} {refused : ParserError} {entries : List GrammarEntry}
    {header : Bytes} {grammar : GrammarFile} {path : String} :
    answerFor X refused entries header = .ok (grammar, path) ↔
      (∀ entry ∈ entries, Comparable X header entry) ∧
        Chosen X header entries grammar path := by
  rw [answerFor, bind_ok, ← head?_sorted_matches_iff]
  simp only [matching_ok_iff]
  constructor
  · intro h
    obtain ⟨found, ⟨hcomparable, rfl⟩, hhead?⟩ := h
    refine ⟨hcomparable, ?_⟩
    split at hhead?
    · simp [fail] at hhead?
    · rename_i best hbest
      rw [hbest, Except.ok.inj hhead?]
  · intro h
    refine ⟨_, ⟨h.1, rfl⟩, ?_⟩
    rw [h.2]

/-- Detection answers with the chosen match, if all its comparisons end well. -/
theorem detectGrammar_ok_iff (X : Crates) (evidence : EvidenceFile) (grammarsDir : GrammarsDir)
    (plan : Schedule IoError) {header : Bytes} (hhead : headOf evidence plan = .ok header)
    {entries : List GrammarEntry} (hentries : grammarsDir.entries = .ok entries)
    (grammar : GrammarFile) (path : String) :
    detectGrammar X evidence grammarsDir plan = .ok (grammar, path) ↔
      (∀ entry ∈ entries, Comparable X header entry) ∧
        Chosen X header entries grammar path := by
  rw [detectGrammar_eq X evidence grammarsDir plan hhead hentries]
  exact answerFor_ok_iff

end Dvrft.Detection
