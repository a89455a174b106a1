import Dvrft.Carving
import Dvrft.CodePositions
import Dvrft.Standing

/-!
Results and the portions in which the evidence is read. Carving asks once for a block
and detection and identification ask once for the head, so each of them sees what
the first call delivers: as little as one byte, or all of it. Two runs agree under
all schedules exactly when that makes no difference to what is seen.
-/

namespace Dvrft.ReadSchedules

open Errors Machine Platform Grammar Acquisition ShortReads Chunks Interpreter CaseFiles
open Detection Containers Identification ListingOrder Priority StartCodes Database Carving
open Standing

/-- Two zeros and a one with a byte behind them, in a block that is long enough to carve. -/
def Carvable (block : Bytes) : Prop :=
  5 ≤ block.length ∧ ∃ q, PatternAt block q ∧ q + 3 < block.length

/-- A code that ends the block but for a byte begins a unit. -/
theorem exists_unit_of_pattern {xs : Bytes} {q : ℕ} (hq : PatternAt xs q)
    (hlt : q + 3 < xs.length) (hend : xs.length < q + 7) : ∃ u, Delimited xs u := by
  obtain ⟨p, n, hcode, hpn⟩ : ∃ p n, CodeAt xs p n ∧ p + n = q + 3 := by
    by_cases hzero : ZeroBefore xs q
    · have hpos := hzero.1
      exact ⟨q - 1, 4, ⟨q, hq, .inl ⟨hzero, by omega, rfl⟩⟩, by omega⟩
    · exact ⟨q, 3, ⟨q, hq, .inr ⟨hzero, hlt, rfl, rfl⟩⟩, rfl⟩
  refine ⟨⟨p, n, xs.length⟩, ⟨hcode, by dsimp only; omega, .inl rfl, ?_⟩⟩
  intro p' m hcode'
  dsimp only
  by_contra hbetween
  have hfour := hcode'.four_le
  have hbehind := hcode.disjoint hcode' (by omega)
  omega

/-- Some beginning of a block has a unit exactly when the block is carvable. -/
theorem carvable_iff (place : ℕ) (block : Bytes) :
    Carvable block ↔ ∃ n, 0 < n ∧ n ≤ block.length ∧ carvedUnits place (block.take n) ≠ [] := by
  have hunits : ∀ n, carvedUnits place (block.take n) ≠ [] ↔
      5 ≤ (block.take n).length ∧ ∃ u, Delimited (block.take n) u := by
    intro n
    rw [ne_eq, carvedUnits_eq_nil_iff]
    unfold carvedUnits
    split_ifs with hshort
    · simp only [not_true_eq_false, false_iff, not_and]
      intro hlong
      omega
    · simp only [← ne_eq, ← mem_units_iff, Nat.not_lt.mp hshort, true_and]
      constructor
      · exact List.exists_mem_of_ne_nil _
      · intro h
        obtain ⟨u, hu⟩ := h
        exact List.ne_nil_of_mem hu
  have hpattern : ∀ n q, q + 2 < n → (PatternAt (block.take n) q ↔ PatternAt block q) := by
    intro n q hq
    have hpiece := @patternAt_piece block 0 n q hq
    rwa [List.drop_zero, Nat.zero_add] at hpiece
  simp only [hunits, List.length_take]
  constructor
  · intro h
    obtain ⟨hlong, q, hq, hlt⟩ := h
    refine ⟨max 5 (q + 4), by omega, by omega, by omega, ?_⟩
    apply exists_unit_of_pattern ((hpattern _ q (by omega)).mpr hq)
    · rw [List.length_take]
      omega
    · rw [List.length_take]
      omega
  · intro h
    obtain ⟨n, -, hle, hlong, u, hu⟩ := h
    obtain ⟨q, hq, hkind⟩ := hu.code
    have hlt := hq.lt
    have hstop := hu.stop_le_length
    have hnonempty := hu.nonempty
    rw [List.length_take] at hlt hstop hkind
    refine ⟨by omega, q, (hpattern n q (by omega)).mp hq, ?_⟩
    rcases hkind with ⟨-, hplace, hlength⟩ | ⟨-, hbehind, -, -⟩
    · omega
    · omega

/-- The run gets as far as its blocks, and none of them is carvable. -/
def SteadyBlocks (X : Crates) (image : EvidenceFile) (blockSize : ℕ) (indices : List ℕ) : Prop :=
  image.refusal = none → blockSize ≤ X.memory →
    ∀ places, indices.mapM (blockPlace X blockSize) = .ok places →
      ∀ place ∈ places, ¬ Carvable ((image.content.bytes.drop place).take blockSize)

theorem deliveredAt_eq (content : Bytes) (blockSize : ℕ) (plan : Schedule IoError)
    (place call : ℕ) :
    deliveredAt content blockSize plan place call =
      ((content.drop place).take blockSize).take
        (portion plan call ((content.drop place).take blockSize).length) := by
  have hlength : ((content.drop place).take blockSize).length =
      min blockSize (content.length - place) := by
    rw [List.length_take, List.length_drop]
  have hle := portion_le plan call (min blockSize (content.length - place))
  rw [deliveredAt, hlength, List.take_take, Nat.min_eq_left (hle.trans (Nat.min_le_left _ _))]

theorem deliveredFrames_eq_nil {X : Crates} {content : Bytes} {blockSize : ℕ}
    {plan : Schedule IoError} {places : List ℕ} (call : ℕ)
    (h : ∀ place ∈ places, ∀ call, carvedUnits place
      (deliveredAt content blockSize plan place call) = []) :
    deliveredFrames X content blockSize plan call places = [] := by
  apply List.flatMap_eq_nil_iff.mpr
  intro p hp
  rw [h p.1 (List.fst_mem_of_mem_zipIdx hp) p.2, List.map_nil]

theorem exists_mem_zipIdx {α : Type} {xs : List α} {x : α} (hx : x ∈ xs) (k : ℕ) :
    ∃ i, (x, i) ∈ xs.zipIdx k := by
  obtain ⟨i, hi, rfl⟩ := List.mem_iff_getElem.mp hx
  exact ⟨k + i, List.mk_add_mem_zipIdx_iff_getElem?.mpr (List.getElem?_eq_getElem hi)⟩

/-- A byte a block carries no unit. -/
theorem deliveredFrames_byte (X : Crates) (content : Bytes) (blockSize call : ℕ)
    (places : List ℕ) :
    deliveredFrames X content blockSize (constant 1) call places = [] := by
  apply deliveredFrames_eq_nil
  intro place _ call
  apply carvedUnits_of_lt
  have hone := portion_le (constant 1 : Schedule IoError) call
  rw [deliveredAt_eq, List.length_take]
  unfold portion constant
  dsimp only
  omega

/-- Of a block that is not carvable no read carries a unit. -/
theorem carvedUnits_deliveredAt {content : Bytes} {blockSize place : ℕ} {plan : Schedule IoError}
    (hlegal : Legal plan) (hnot : ¬ Carvable ((content.drop place).take blockSize)) (call : ℕ) :
    carvedUnits place (deliveredAt content blockSize plan place call) = [] := by
  by_contra hunits
  apply hnot
  rw [deliveredAt_eq] at hunits
  have hpos : 0 < ((content.drop place).take blockSize).length := by
    by_contra hempty
    apply hunits
    apply carvedUnits_of_lt
    rw [List.length_take]
    omega
  exact (carvable_iff place _).mpr ⟨_, portion_pos hlegal call hpos, portion_le _ _ _, hunits⟩

/-- Of a carvable block a read of the right length carries one. -/
theorem exists_carvedUnits {content : Bytes} {blockSize place : ℕ}
    (h : Carvable ((content.drop place).take blockSize)) :
    ∃ n, ∀ call, carvedUnits place (deliveredAt content blockSize (constant n) place call) ≠ [] := by
  obtain ⟨n, hpos, hle, hunits⟩ := (carvable_iff place _).mp h
  refine ⟨n, ?_⟩
  intro call
  rwa [deliveredAt_eq, portion_constant call hpos hle]

/-- Carving does not depend on the reads exactly when no block is carvable. -/
theorem carving_steady_iff (X : Crates) (image : EvidenceFile) (blockSize : ℕ)
    (indices : List ℕ) :
    (∀ plan plan', Legal plan → Legal plan' →
      carveCorruptedBlocks X image blockSize indices plan =
        carveCorruptedBlocks X image blockSize indices plan') ↔
      SteadyBlocks X image blockSize indices := by
  obtain ⟨path, content, refusal⟩ := image
  cases refusal with
  | some e =>
    constructor
    · intro _ hrefusal
      exact absurd hrefusal (by simp)
    · intro _ plan plan' _ _
      rfl
  | none =>
    constructor
    · intro h _ hmemory places hplaces place hplace hcarvable
      obtain ⟨n, hunits⟩ := exists_carvedUnits hcarvable
      have hboth := h (constant n) (constant 1) (constant_legal n) (constant_legal 1)
      rw [carveCorruptedBlocks_legal X path content blockSize indices (constant_legal n),
        carveCorruptedBlocks_legal X path content blockSize indices (constant_legal 1),
        X.allocate_of_le hmemory, ok_bind, ok_bind, hplaces] at hboth
      have hframes := Except.ok.inj hboth
      rw [deliveredFrames_byte] at hframes
      obtain ⟨call, hcall⟩ := exists_mem_zipIdx hplace 0
      have hempty := List.flatMap_eq_nil_iff.mp hframes (place, call) hcall
      exact hunits call (List.map_eq_nil_iff.mp hempty)
    · intro h plan plan' hlegal hlegal'
      rw [carveCorruptedBlocks_legal X path content blockSize indices hlegal,
        carveCorruptedBlocks_legal X path content blockSize indices hlegal']
      by_cases hmemory : blockSize ≤ X.memory
      · rw [X.allocate_of_le hmemory, ok_bind, ok_bind]
        cases hplaces : indices.mapM (blockPlace X blockSize) with
        | error e => rfl
        | ok places =>
          have hsteady := h rfl hmemory places hplaces
          apply congrArg Except.ok
          rw [deliveredFrames_eq_nil 0 fun place hplace =>
              carvedUnits_deliveredAt hlegal (hsteady place hplace),
            deliveredFrames_eq_nil 0 fun place hplace =>
              carvedUnits_deliveredAt hlegal' (hsteady place hplace)]
      · have hpanic : (X.allocate blockSize : Carved Unit) = panicked := if_neg hmemory
        rw [hpanic]
        rfl

/-- The bytes that detection and identification ask for. -/
def head (evidence : EvidenceFile) : Bytes := evidence.content.bytes.take headerSize

theorem headOf_legal {evidence : EvidenceFile} {plan : Schedule IoError}
    (hrefusal : evidence.refusal = none) (hlegal : Legal plan) :
    headOf evidence plan =
      .ok ((head evidence).take (portion plan 0 (head evidence).length)) := by
  have hread := read_portion (Reader.opened evidence.content.bytes plan) headerSize hlegal
  have hlength : (head evidence).length = min headerSize evidence.content.bytes.length :=
    List.length_take
  have hle := portion_le plan 0 (min headerSize evidence.content.bytes.length)
  rw [hlength, head, List.take_take, Nat.min_eq_left (hle.trans (Nat.min_le_left _ _))]
  exact headOf_ok.mpr ⟨hrefusal, _, hread⟩

variable {X : Crates} {first header : Bytes}

theorem slice_of_beginning (hbegins : first <+: header) {start stop : ℕ} {bytes : Bytes}
    (h : (slice first start stop : Parsed Bytes) = .ok bytes) :
    (slice header start stop : Parsed Bytes) = .ok bytes := by
  obtain ⟨rest, rfl⟩ := hbegins
  unfold slice at h ⊢
  split_ifs at h with hinside
  · rw [if_pos ⟨hinside.1, by rw [List.length_append]; omega⟩,
      List.drop_append_of_le_length (by omega),
      List.take_append_of_le_length (by rw [List.length_drop]; omega)]
    exact h
  · simp [panicked] at h

theorem matchesAt_true_of_beginning (hbegins : first <+: header) {offset : ℕ} {expected : Bytes}
    (h : matchesAt X first offset expected = .ok true) :
    matchesAt X header offset expected = .ok true := by
  have hle := hbegins.length_le
  unfold matchesAt at h ⊢
  obtain ⟨stop, hstop, h⟩ := bind_ok.mp h
  rw [hstop, ok_bind]
  split_ifs at h with hfirst
  · obtain ⟨bytes, hbytes, h⟩ := bind_ok.mp h
    rw [if_pos (hfirst.trans hle), slice_of_beginning hbegins hbytes, ok_bind]
    exact h
  · simp at h

/-- A comparison that ends well on the whole does on a beginning. -/
theorem matchesAt_of_beginning (hbegins : first <+: header) {offset : ℕ} {expected : Bytes}
    {found : Bool} (h : matchesAt X header offset expected = .ok found) :
    ∃ found', matchesAt X first offset expected = .ok found' := by
  have hle := hbegins.length_le
  unfold matchesAt at h ⊢
  obtain ⟨stop, hstop, h⟩ := bind_ok.mp h
  rw [hstop, ok_bind]
  by_cases hfirst : stop ≤ first.length
  · rw [if_pos hfirst]
    rw [if_pos (hfirst.trans hle)] at h
    obtain ⟨bytes, hbytes, -⟩ := bind_ok.mp h
    unfold slice at hbytes
    split_ifs at hbytes with hinside
    · rw [slice_of_le hinside.1 hfirst]
      exact ⟨_, rfl⟩
    · simp [panicked] at hbytes
  · rw [if_neg hfirst]
    exact ⟨_, rfl⟩

theorem ruleSeen_of_beginning (hbegins : first <+: header) {rule : DetectionRule}
    (h : RuleSeen X first rule) : RuleSeen X header rule := by
  obtain ⟨expected, hexpected, hfound⟩ := h
  exact ⟨expected, hexpected, matchesAt_true_of_beginning hbegins hfound⟩

theorem matches_of_beginning (hbegins : first <+: header) {entry : GrammarEntry}
    {grammar : GrammarFile} (h : Matches X first entry grammar) :
    Matches X header entry grammar :=
  ⟨h.1, h.2.1, h.2.2.1, fun rule hrule => ruleSeen_of_beginning hbegins (h.2.2.2 rule hrule)⟩

theorem matchesRules_of_beginning (hbegins : first <+: header) {rules : List DetectionRule}
    {found : Bool} (h : matchesRules X header rules = .ok found) :
    ∃ found', matchesRules X first rules = .ok found' := by
  induction rules with
  | nil => exact ⟨true, rfl⟩
  | cons rule rest ih =>
    unfold matchesRules at h ⊢
    cases hexpected : rule.expectedBytes with
    | error e => exact ⟨false, rfl⟩
    | ok expected =>
      rw [hexpected] at h
      obtain ⟨whole, hwhole, h⟩ := bind_ok.mp h
      obtain ⟨begun, hbegun⟩ := matchesAt_of_beginning hbegins hwhole
      dsimp only
      rw [hbegun, ok_bind]
      cases begun with
      | false => exact ⟨false, rfl⟩
      | true =>
        obtain rfl := Except.ok.inj (hwhole.symm.trans (matchesAt_true_of_beginning hbegins hbegun))
        exact ih h

theorem comparable_of_beginning (hbegins : first <+: header) {entry : GrammarEntry}
    (h : Comparable X header entry) : Comparable X first entry := by
  intro grammar hyaml hgrammar
  obtain ⟨found, hfound⟩ := h grammar hyaml hgrammar
  unfold matchesGrammar at hfound ⊢
  split_ifs at hfound ⊢ with hnone
  · exact ⟨false, rfl⟩
  · exact matchesRules_of_beginning hbegins hfound

/-- The chosen match is chosen on a beginning that has its rules. -/
theorem chosen_of_beginning (hbegins : first <+: header) {entries : List GrammarEntry}
    {grammar : GrammarFile} {path : String} (h : Chosen X header entries grammar path)
    (hrules : ∀ rule ∈ grammar.rules, RuleSeen X first rule) :
    Chosen X first entries grammar path := by
  obtain ⟨front, entry, back, hsplit, hpath, hentry, hfront, hback⟩ := h
  refine ⟨front, entry, back, hsplit, hpath,
    ⟨hentry.1, hentry.2.1, hentry.2.2.1, hrules⟩, ?_, ?_⟩
  · intro other hother grammar' hmatches
    exact hfront other hother grammar' (matches_of_beginning hbegins hmatches)
  · intro other hother grammar' hmatches
    exact hback other hother grammar' (matches_of_beginning hbegins hmatches)

/-- Some comparison ends the program on the first byte already, or none does on the whole
head and the first byte has the rules of the grammar that is chosen for it. -/
def SteadyMatches (X : Crates) (entries : List GrammarEntry) (whole : Bytes) : Prop :=
  (∃ entry ∈ entries, ¬ Comparable X (whole.take 1) entry) ∨
    ((∀ entry ∈ entries, Comparable X whole entry) ∧
      ∀ grammar path, Chosen X whole entries grammar path →
        ∀ rule ∈ grammar.rules, RuleSeen X (whole.take 1) rule)

theorem answerFor_panicked (refused : ParserError) {entries : List GrammarEntry}
    (h : ∃ entry ∈ entries, ¬ Comparable X header entry) :
    answerFor X refused entries header = panicked := by
  rw [answerFor, matching_panicked]
  · rfl
  · push Not
    exact h

theorem answerFor_ne_panicked (refused : ParserError) {entries : List GrammarEntry}
    (h : ∀ entry ∈ entries, Comparable X header entry) :
    answerFor X refused entries header ≠ panicked := by
  rw [answerFor_of_comparable refused h]
  split
  · simp [fail, panicked]
  · simp [panicked]

/-- Where the grammar that is chosen for the whole has its rules in a beginning, the
beginning is answered like the whole. -/
theorem answerFor_of_beginning (refused : ParserError) (hbegins : first <+: header)
    {entries : List GrammarEntry} (hcomparable : ∀ entry ∈ entries, Comparable X header entry)
    (hrules : ∀ grammar path, Chosen X header entries grammar path →
      ∀ rule ∈ grammar.rules, RuleSeen X first rule) :
    answerFor X refused entries first = answerFor X refused entries header := by
  have hcomparable' : ∀ entry ∈ entries, Comparable X first entry :=
    fun entry hentry => comparable_of_beginning hbegins (hcomparable entry hentry)
  rw [answerFor_of_comparable refused hcomparable, answerFor_of_comparable refused hcomparable']
  congr 1
  cases hbest : ((entries.filterMap (yields (entryMatch X header))).insertionSort
      precedes).head? with
  | none =>
    -- nothing matches the whole, so nothing matches the beginning
    rw [List.head?_eq_none_iff] at hbest ⊢
    have hnone := List.eq_nil_iff_forall_not_mem.mp hbest
    apply List.eq_nil_iff_forall_not_mem.mpr
    intro p hp
    obtain ⟨entry, hentry, hmatches, hpath⟩ :=
      mem_matches_iff.mp ((List.mem_insertionSort precedes).mp hp)
    exact hnone p ((List.mem_insertionSort precedes).mpr
      (mem_matches_iff.mpr ⟨entry, hentry, matches_of_beginning hbegins hmatches, hpath⟩))
  | some best =>
    obtain ⟨grammar, path⟩ := best
    have hchosen := head?_sorted_matches_iff.mp hbest
    exact head?_sorted_matches_iff.mpr
      (chosen_of_beginning hbegins hchosen (hrules grammar path hchosen))

theorem take_one_begins {whole : Bytes} {n : ℕ} (h : 0 < n) : whole.take 1 <+: whole.take n :=
  List.take_prefix_take_left (by omega)

/-- Every beginning is answered like the first byte exactly when the matches are steady. -/
theorem answerFor_steady_iff (refused : ParserError) (entries : List GrammarEntry)
    (whole : Bytes) :
    (∀ n, 0 < n → n ≤ whole.length →
      answerFor X refused entries (whole.take n) = answerFor X refused entries (whole.take 1)) ↔
      SteadyMatches X entries whole := by
  constructor
  · intro h
    have hwhole : answerFor X refused entries whole =
        answerFor X refused entries (whole.take 1) := by
      by_cases hempty : whole = []
      · rw [hempty, List.take_nil]
      · have hsame := h whole.length (List.length_pos_iff.mpr hempty) (Nat.le_refl _)
        rwa [List.take_length] at hsame
    by_cases hfirst : ∀ entry ∈ entries, Comparable X (whole.take 1) entry
    · right
      have hcomparable : ∀ entry ∈ entries, Comparable X whole entry := by
        by_contra hnot
        push Not at hnot
        rw [answerFor_panicked refused hnot] at hwhole
        exact answerFor_ne_panicked refused hfirst hwhole.symm
      refine ⟨hcomparable, ?_⟩
      intro grammar path hchosen rule hrule
      rw [answerFor_ok_iff.mpr ⟨hcomparable, hchosen⟩] at hwhole
      obtain ⟨-, front, entry, back, -, -, hmatches, -⟩ := answerFor_ok_iff.mp hwhole.symm
      exact hmatches.2.2.2 rule hrule
    · left
      push Not at hfirst
      exact hfirst
  · intro h n hpos hle
    have hfirst : whole.take 1 <+: whole.take n := take_one_begins hpos
    have hbyte : whole.take 1 <+: whole := List.take_prefix 1 whole
    have hbytes : whole.take n <+: whole := List.take_prefix n whole
    rcases h with hpanic | ⟨hcomparable, hrules⟩
    · obtain ⟨entry, hentry, hnot⟩ := hpanic
      rw [answerFor_panicked refused ⟨entry, hentry, hnot⟩,
        answerFor_panicked refused ⟨entry, hentry, mt (comparable_of_beginning hfirst) hnot⟩]
    · rw [answerFor_of_beginning refused hbyte hcomparable hrules,
        answerFor_of_beginning refused hbytes hcomparable]
      intro grammar path hchosen rule hrule
      exact ruleSeen_of_beginning hfirst (hrules grammar path hchosen rule hrule)

/-- Readable evidence and a directory that can be listed have steady matches. -/
def SteadyDetection (X : Crates) (evidence : EvidenceFile) (grammarsDir : GrammarsDir) : Prop :=
  evidence.refusal = none → ∀ entries, grammarsDir.entries = .ok entries →
    SteadyMatches X entries (head evidence)

theorem detection_steady_iff (X : Crates) (evidence : EvidenceFile) (grammarsDir : GrammarsDir) :
    (∀ plan plan', Legal plan → Legal plan' →
      detectGrammar X evidence grammarsDir plan = detectGrammar X evidence grammarsDir plan') ↔
      SteadyDetection X evidence grammarsDir := by
  unfold SteadyDetection
  cases hrefusal : evidence.refusal with
  | some e =>
    simp only [detectGrammar, hrefusal, reduceCtorEq, implies_true, false_implies]
  | none =>
    have hheads : ∀ plan, Legal plan → headOf evidence plan =
        .ok ((head evidence).take (portion plan 0 (head evidence).length)) :=
      fun plan hlegal => headOf_legal hrefusal hlegal
    cases hentries : grammarsDir.entries with
    | error e =>
      simp only [reduceCtorEq, false_implies, implies_true, iff_true]
      intro plan plan' hlegal hlegal'
      obtain ⟨-, reader, hread⟩ := headOf_ok.mp (hheads plan hlegal)
      obtain ⟨-, reader', hread'⟩ := headOf_ok.mp (hheads plan' hlegal')
      unfold detectGrammar
      simp only [hrefusal, hread, hread', hentries]
    | ok entries =>
      have hanswer : ∀ plan, Legal plan → detectGrammar X evidence grammarsDir plan =
          answerFor X (.detectionFailed evidence.path grammarsDir.path) entries
            ((head evidence).take (portion plan 0 (head evidence).length)) :=
        fun plan hlegal =>
          detectGrammar_eq X evidence grammarsDir plan (hheads plan hlegal) hentries
      simp only [Except.ok.injEq, forall_eq', true_implies]
      rw [← answerFor_steady_iff (.detectionFailed evidence.path grammarsDir.path)]
      exact single_read_iff _ (head evidence) 0 hanswer

/-- In no beginning of the header does a confident proposal come out in front. -/
def NeverSure (host : GrammarHost) (gDir : String) (whole : Bytes) : Prop :=
  ∀ n, 0 < n → n ≤ whole.length →
    ∀ d, foremost (proposals host gDir (whole.take n)) = some d → ¬ Confident d

/-- One and the same confident proposal comes out in front in every beginning, the first
byte included. -/
def AlwaysSure (host : GrammarHost) (gDir : String) (whole : Bytes) : Prop :=
  ∃ d, Confident d ∧ ∀ n, 0 < n → n ≤ whole.length →
    foremost (proposals host gDir (whole.take n)) = some d

/-- The signatures can be compared with every beginning of the header if they can with its
first byte, and the signatures that stand in the beginnings never name a device for sure,
or name the same one in all of them. -/
def SteadyIdentification (X : Crates) (host : GrammarHost) (evidence : EvidenceFile)
    (gDir : String) : Prop :=
  let whole := head evidence
  evidence.refusal = none →
    (∀ n, 0 < n → n ≤ whole.length →
      (Compared X host (host.resolve gDir) (whole.take n) ↔
        Compared X host (host.resolve gDir) (whole.take 1))) ∧
    (Compared X host (host.resolve gDir) (whole.take 1) →
      NeverSure host (host.resolve gDir) whole ∨ AlwaysSure host (host.resolve gDir) whole)

def identified (X : Crates) (host : GrammarHost) (gDir : String) (header : Bytes) :
    Identified DeviceIdentification :=
  candidateMatches X host gDir header >>= fun candidates =>
    .ok (verdict (candidates.insertionSort ranksBefore).head?)

theorem identified_ok_iff {host : GrammarHost} {gDir : String} {d : DeviceIdentification}
    (hlen : header.length < 2 ^ 64) :
    identified X host gDir header = .ok d ↔
      Compared X host gDir header ∧ d = verdict (foremost (proposals host gDir header)) := by
  unfold identified
  simp only [bind_ok, candidateMatches_ok_iff hlen, head?_sorted_eq_foremost, and_assoc,
    exists_and_left, exists_eq_left, Except.ok.injEq]
  exact and_congr_right fun _ => eq_comm

theorem onlyPanics_identified (X : Crates) (host : GrammarHost) (gDir : String)
    (header : Bytes) : OnlyPanics (identified X host gDir header) := by
  apply OnlyPanics.bind
  · apply OnlyPanics.bind
    · exact (onlyPanics_mapM (onlyPanics_entryCandidate X header) _).bind
        fun found => onlyPanics_ok _
    · intro declared
      exact (onlyPanics_registryCandidates X header _).bind fun registered => onlyPanics_ok _
  · intro candidates
    exact onlyPanics_ok _

theorem identified_panicked {host : GrammarHost} {gDir : String}
    (hlen : header.length < 2 ^ 64) (hnot : ¬ Compared X host gDir header) :
    identified X host gDir header = panicked :=
  (onlyPanics_identified X host gDir header).eq_panicked fun _ hd =>
    hnot ((identified_ok_iff hlen).mp hd).1

/-- A verdict that is confident is what came out in front. -/
theorem verdict_eq_of_confident {best : Option DeviceIdentification} {d : DeviceIdentification}
    (hsure : Confident d) : verdict best = d ↔ best = some d := by
  cases best with
  | none =>
    refine iff_of_false ?_ (by simp)
    intro h
    rw [← h] at hsure
    exact not_confident_unrecognized hsure
  | some c =>
    rw [Option.some.injEq]
    by_cases hconfident : Confident c
    · rw [verdict_some_of_confident hconfident]
    · rw [verdict_some_of_not_confident hconfident]
      refine iff_of_false ?_ ?_
      · rintro rfl
        exact not_confident_unrecognized hsure
      · rintro rfl
        exact hconfident hsure

theorem verdict_of_never_confident {best : Option DeviceIdentification}
    (h : ∀ d, best = some d → ¬ Confident d) : verdict best = .unrecognized := by
  cases best with
  | none => rfl
  | some d => exact verdict_some_of_not_confident (h d rfl)

/-- The verdicts over the beginnings are one and the same exactly when none is sure, or all
are and of the same device. -/
theorem verdicts_same_iff (host : GrammarHost) (gDir : String) (whole : Bytes) :
    (∀ n, 0 < n → n ≤ whole.length →
      verdict (foremost (proposals host gDir (whole.take n))) =
        verdict (foremost (proposals host gDir (whole.take 1)))) ↔
      NeverSure host gDir whole ∨ AlwaysSure host gDir whole := by
  constructor
  · intro h
    by_cases hsure : Confident (verdict (foremost (proposals host gDir (whole.take 1))))
    · right
      exact ⟨_, hsure, fun n hpos hle => (verdict_eq_of_confident hsure).mp (h n hpos hle)⟩
    · left
      intro n hpos hle d hd hconfident
      rw [← h n hpos hle, hd, verdict_some_of_confident hconfident] at hsure
      exact hsure hconfident
  · intro h n hpos hle
    have hone : 1 ≤ whole.length := by omega
    rcases h with hnever | ⟨d, hsure, halways⟩
    · rw [verdict_of_never_confident (hnever n hpos hle),
        verdict_of_never_confident (hnever 1 Nat.one_pos hone)]
    · rw [halways n hpos hle, halways 1 Nat.one_pos hone]

/-- The beginnings of a header are identified alike exactly when all or none of them can be
compared and, if they can, the same device or none leads for sure. -/
theorem identified_same_iff (host : GrammarHost) (gDir : String) {whole : Bytes}
    (hlen : whole.length < 2 ^ 64) :
    (∀ n, 0 < n → n ≤ whole.length →
      identified X host gDir (whole.take n) = identified X host gDir (whole.take 1)) ↔
      (∀ n, 0 < n → n ≤ whole.length →
        (Compared X host gDir (whole.take n) ↔ Compared X host gDir (whole.take 1))) ∧
      (Compared X host gDir (whole.take 1) →
        NeverSure host gDir whole ∨ AlwaysSure host gDir whole) := by
  have htake : ∀ n, (whole.take n).length < 2 ^ 64 :=
    fun n => (List.length_take_le' n whole).trans_lt hlen
  rw [← verdicts_same_iff]
  constructor
  · intro h
    refine ⟨?_, ?_⟩
    · intro n hpos hle
      have hsame := h n hpos hle
      constructor
      · intro hcompared
        rw [(identified_ok_iff (htake n)).mpr ⟨hcompared, rfl⟩] at hsame
        exact ((identified_ok_iff (htake 1)).mp hsame.symm).1
      · intro hcompared
        rw [(identified_ok_iff (htake 1)).mpr ⟨hcompared, rfl⟩] at hsame
        exact ((identified_ok_iff (htake n)).mp hsame).1
    · intro hcompared n hpos hle
      have hsame := h n hpos hle
      rw [(identified_ok_iff (htake 1)).mpr ⟨hcompared, rfl⟩] at hsame
      exact ((identified_ok_iff (htake n)).mp hsame).2.symm
  · intro h n hpos hle
    obtain ⟨hends, hverdicts⟩ := h
    by_cases hcompared : Compared X host gDir (whole.take 1)
    · rw [(identified_ok_iff (htake n)).mpr ⟨(hends n hpos hle).mpr hcompared, rfl⟩,
        (identified_ok_iff (htake 1)).mpr ⟨hcompared, rfl⟩, hverdicts hcompared n hpos hle]
    · rw [identified_panicked (htake n) (mt (hends n hpos hle).mp hcompared),
        identified_panicked (htake 1) hcompared]

/-- In a byte only signatures of at most a byte stand, so without such a signature no device
is named for sure in every beginning. -/
theorem AlwaysSure.exists_short {host : GrammarHost} {gDir : String} {whole : Bytes}
    (h : AlwaysSure host gDir whole) (hne : whole ≠ []) :
    (∃ entry ∈ host.entries gDir, ∃ grammar, entry.grammar = some grammar ∧
      ∃ rule ∈ grammar.rules, ∃ expected, rule.expectedBytes = .ok expected ∧
        expected.length ≤ 1) ∨
    ∃ registry, VendorRegistry.loadFromPaths host.registries gDir = some registry ∧
      ∃ vendor ∈ registry.vendors, ∃ sig ∈ vendor.signatures, ∃ expected,
        sig.expectedBytes = some expected ∧ expected.length ≤ 1 := by
  obtain ⟨d, -, hforemost⟩ := h
  have hbyte : (whole.take 1).length ≤ 1 := List.length_take_le _ _
  have hfirst := hforemost 1 Nat.one_pos (List.length_pos_iff.mpr hne)
  rcases exists_standing (mem_of_foremost hfirst) with hrule | hsig | hscan
  · left
    obtain ⟨entry, hentry, grammar, hgrammar, rule, hrule, hfound⟩ := hrule
    refine ⟨entry, hentry, grammar, hgrammar, rule, hrule, ?_⟩
    unfold Crashes.carries at hfound
    cases hexpected : rule.expectedBytes with
    | error e => simp [hexpected] at hfound
    | ok expected =>
      rw [hexpected] at hfound
      have hinside := (of_decide_eq_true hfound).1
      exact ⟨expected, rfl, by omega⟩
  · right
    obtain ⟨registry, hload, vendor, hvendor, sig, hsig, hfound⟩ := hsig
    refine ⟨registry, hload, vendor, hvendor, sig, hsig, ?_⟩
    unfold signatureFound at hfound
    cases hexpected : sig.expectedBytes with
    | none => simp [hexpected] at hfound
    | some expected =>
      rw [hexpected] at hfound
      have hinside := (of_decide_eq_true hfound).1
      exact ⟨expected, rfl, by omega⟩
  · have hnone : detectVideoContainerOrStream (whole.take 1) = none := if_pos (by omega)
    rw [hnone] at hscan
    exact absurd hscan (by simp)

/-- Evidence that is refused is refused before it is read. -/
theorem identifyDevice_refused {evidence : EvidenceFile} {e : IoError}
    (hrefusal : evidence.refusal = some e) (X : Crates) (host : GrammarHost) (gDir : String)
    (plan plan' : Schedule IoError) :
    identifyDevice X host evidence gDir plan = identifyDevice X host evidence gDir plan' := by
  cases hopen : evidence.openReadOnly with
  | error e' =>
    unfold identifyDevice
    rw [hopen]
  | ok u =>
    rw [openReadOnly_eq_ok.mp hopen] at hrefusal
    exact absurd hrefusal (by simp)

theorem identification_steady_iff (X : Crates) (host : GrammarHost) (evidence : EvidenceFile)
    (gDir : String) :
    (∀ plan plan', Legal plan → Legal plan' →
      identifyDevice X host evidence gDir plan = identifyDevice X host evidence gDir plan') ↔
      SteadyIdentification X host evidence gDir := by
  unfold SteadyIdentification
  cases hrefusal : evidence.refusal with
  | some e =>
    simp only [reduceCtorEq, false_implies, iff_true]
    intro plan plan' _ _
    exact identifyDevice_refused hrefusal X host gDir plan plan'
  | none =>
    have hheads : ∀ plan, Legal plan → headOf evidence plan =
        .ok ((head evidence).take (portion plan 0 (head evidence).length)) :=
      fun plan hlegal => headOf_legal hrefusal hlegal
    have hlen : (head evidence).length < 2 ^ 64 :=
      (List.length_take_le _ _).trans_lt (by decide)
    simp only [true_implies]
    rw [← identified_same_iff host (host.resolve gDir) hlen]
    by_cases hempty : (head evidence).length = 0
    · have hnil : head evidence = [] := List.eq_nil_of_length_eq_zero hempty
      refine iff_of_true ?_ ?_
      · intro plan plan' hlegal hlegal'
        have hhead := hheads plan hlegal
        have hhead' := hheads plan' hlegal'
        rw [hnil, List.take_nil] at hhead hhead'
        rw [identifyDevice_of_empty X host gDir hhead, identifyDevice_of_empty X host gDir hhead']
      · intro n hpos hle
        omega
    · have hanswer : ∀ plan, Legal plan → identifyDevice X host evidence gDir plan =
          identified X host (host.resolve gDir)
            ((head evidence).take (portion plan 0 (head evidence).length)) := by
        intro plan hlegal
        apply identifyDevice_eq X host gDir (hheads plan hlegal)
        have hpos := portion_pos hlegal 0 (Nat.pos_of_ne_zero hempty)
        apply List.ne_nil_of_length_pos
        rw [List.length_take]
        omega
      exact single_read_iff _ (head evidence) 0 hanswer

/-- Carving, detection and identification have the same results under all schedules exactly
when the blocks, the matches and the candidates are steady. -/
theorem results_steady_iff (X : Crates) (host : GrammarHost) (evidence : EvidenceFile)
    (blockSize : ℕ) (indices : List ℕ) (grammarsDir : GrammarsDir) (gDir : String) :
    (∀ plan plan', Legal plan → Legal plan' →
      carveCorruptedBlocks X evidence blockSize indices plan =
          carveCorruptedBlocks X evidence blockSize indices plan' ∧
        detectGrammar X evidence grammarsDir plan = detectGrammar X evidence grammarsDir plan' ∧
        identifyDevice X host evidence gDir plan = identifyDevice X host evidence gDir plan') ↔
      SteadyBlocks X evidence blockSize indices ∧ SteadyDetection X evidence grammarsDir ∧
        SteadyIdentification X host evidence gDir := by
  rw [← carving_steady_iff, ← detection_steady_iff, ← identification_steady_iff]
  constructor
  · intro h
    exact ⟨fun plan plan' hlegal hlegal' => (h plan plan' hlegal hlegal').1,
      fun plan plan' hlegal hlegal' => (h plan plan' hlegal hlegal').2.1,
      fun plan plan' hlegal hlegal' => (h plan plan' hlegal hlegal').2.2⟩
  · intro h plan plan' hlegal hlegal'
    exact ⟨h.1 plan plan' hlegal hlegal', h.2.1 plan plan' hlegal hlegal',
      h.2.2 plan plan' hlegal hlegal'⟩

/-- An IDR picture in one block. -/
def idrImage : EvidenceFile := ⟨"dvr.img", ⟨[0, 0, 0, 1, 0x65, 1, 2, 3], by decide⟩, none⟩

/-- A call that delivers one byte finds no picture in the block. -/
theorem idrImage_lost :
    ¬ ∀ plan plan', Legal plan → Legal plan' →
      carveCorruptedBlocks .sample idrImage 8 [0] plan =
          carveCorruptedBlocks .sample idrImage 8 [0] plan' ∧
        detectGrammar .sample idrImage ⟨"grammars", .ok []⟩ plan =
          detectGrammar .sample idrImage ⟨"grammars", .ok []⟩ plan' ∧
        identifyDevice .sample (oneDirectory "grammars" []) idrImage "grammars" plan =
          identifyDevice .sample (oneDirectory "grammars" []) idrImage "grammars" plan' := by
  intro h
  have hboth := (h (constant 1) eager (constant_legal 1) eager_legal).1
  have hnone : (carveCorruptedBlocks .sample idrImage 8 [0] (constant 1)).map List.length =
      .ok 0 := rfl
  have hone : (carveCorruptedBlocks .sample idrImage 8 [0] eager).map List.length = .ok 1 := rfl
  rw [hboth, hone] at hnone
  exact absurd (Except.ok.inj hnone) (by decide)

end Dvrft.ReadSchedules
