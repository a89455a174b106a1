import Dvrft.Identification

/-!
Identification against parsing. Identification takes a grammar with any rule in the
head, weighs it and compares it with the registry and the container scan; the
parser takes a grammar with all its rules in the head and compares tiers and
numbers of rules. So an identified grammar is the parser's grammar exactly when it
is the match that the parser's own order puts first.
-/

namespace Dvrft.Agreement

open Errors Machine Platform Grammar Acquisition ShortReads Interpreter CaseFiles Detection
open Containers Identification

/-- What an identified id says: the container scan names it, or a grammar file of the
directory has it and one of its rules is in the head. -/
def NamedByHead (X : Crates) (header : Bytes) (entries : List DeviceEntry) (id : String) : Prop :=
  (∃ c, detectVideoContainerOrStream header = some c ∧ c.matchedGrammarId = some id) ∨
    ∃ entry ∈ entries, ∃ grammar, entry.declares grammar ∧ grammar.id = id ∧
      ∃ rule ∈ grammar.rules, RuleSeen X header rule

/-- The grammar of an entry that parsing the head with this directory would use. -/
def ParsedWith (X : Crates) (header : Bytes) (entries : List DeviceEntry)
    (grammar : GrammarFile) : Prop :=
  (∀ entry ∈ entries, Comparable X header entry.forParser) ∧
    ∃ path, Chosen X header (entries.map DeviceEntry.forParser) grammar path

theorem named_of_candidate {X : Crates} {host : GrammarHost} {gDir : String} {header : Bytes}
    {found : List DeviceIdentification} (h : candidateMatches X host gDir header = .ok found)
    {d : DeviceIdentification} (hd : d ∈ found) {id : String}
    (hid : d.matchedGrammarId = some id) : NamedByHead X header (host.entries gDir) id := by
  rcases (mem_candidateMatches h d).mp hd with ⟨entry, hentry, hcandidate⟩ |
    ⟨registry, -, vendor, -, hcandidate⟩ | hscan
  · right
    obtain ⟨grammar, hdeclares, hgrammar⟩ := entryCandidate_ok hcandidate
    obtain ⟨hgrammarId, -, -, hseen⟩ := grammarCandidate_ok hgrammar
    rw [hid] at hgrammarId
    exact ⟨entry, hentry, grammar, hdeclares, (Option.some.inj hgrammarId).symm, hseen⟩
  · obtain ⟨sig, -, rfl⟩ := vendorCandidate_ok hcandidate
    simp [RegistryVendor.identification] at hid
  · left
    exact ⟨d, hscan, hid⟩

/-- When identification names the id of a grammar of the directory, the head bears the
id out, and the parser answers with that grammar exactly when it is the one the
parser's order puts first. -/
theorem identified_grammar_parsed_iff (X : Crates) (host : GrammarHost) (evidence : EvidenceFile)
    (gDir : String) (plan : Schedule IoError) (d : DeviceIdentification)
    (entries : List DeviceEntry) (grammar : DeviceGrammar)
    (hident : identifyDevice X host evidence gDir plan = .ok d) (hrecognized : d.recognized = true)
    (hid : d.matchedGrammarId = some grammar.id)
    (hdir : host.dirs gDir = some (.ok entries)) :
    ∃ header, headOf evidence plan = .ok header ∧ NamedByHead X header entries grammar.id ∧
      ((∃ path, detectGrammar X evidence (host.grammarsDir gDir) plan =
          .ok (grammar.toGrammarFile, path)) ↔
        ParsedWith X header entries grammar.toGrammarFile) := by
  obtain ⟨header, candidates, hhead, hcandidates, hd⟩ :=
    identifyDevice_recognized hident hrecognized
  obtain ⟨hresolve, hentries, hparser⟩ := entries_of_listed hdir
  have hlisted : (host.grammarsDir gDir).entries = .ok (entries.map DeviceEntry.forParser) := by
    rw [hparser]
  rw [hresolve] at hcandidates
  have hnamed := named_of_candidate hcandidates hd hid
  rw [hentries] at hnamed
  refine ⟨header, hhead, hnamed, ?_⟩
  have hdetect := detectGrammar_ok_iff X evidence (host.grammarsDir gDir) plan hhead hlisted
  have hcomparable : (∀ e ∈ entries.map DeviceEntry.forParser, Comparable X header e) ↔
      ∀ e ∈ entries, Comparable X header e.forParser := List.forall_mem_map
  simp only [hdetect, hcomparable]
  unfold ParsedWith
  constructor
  · intro h
    obtain ⟨path, hall, hchosen⟩ := h
    exact ⟨hall, path, hchosen⟩
  · intro h
    obtain ⟨hall, path, hchosen⟩ := h
    exact ⟨path, hall, hchosen⟩

def twoRules : DeviceGrammar :=
  plainGrammar "cam-v1" [⟨0, some "CAM1", none⟩, ⟨8, some "DATA", none⟩]

def grammarShelf : GrammarHost :=
  oneDirectory "grammars" [⟨"grammars/cam-v1.yaml", some "yaml", some twoRules⟩]

/-- The first rule of the grammar is enough for identification. -/
theorem identifyDevice_camImage :
    ∃ d, identifyDevice .sample grammarShelf camImage "grammars" eager = .ok d ∧
      d.recognized = true ∧ d.matchedGrammarId = some twoRules.id := by
  have hanswer : (identifyDevice .sample grammarShelf camImage "grammars" eager).map
      (fun d => (d.recognized, d.matchedGrammarId)) = .ok (true, some "cam-v1") := by
    decide +kernel
  cases hident : identifyDevice .sample grammarShelf camImage "grammars" eager with
  | error e => simp [hident, Except.map] at hanswer
  | ok d =>
    rw [hident] at hanswer
    obtain ⟨hrecognized, hid⟩ := Prod.mk.inj (Except.ok.inj hanswer)
    exact ⟨d, rfl, hrecognized, hid⟩

theorem identified_grammar_parsed_iff_cam :
    ∃ header, headOf camImage eager = .ok header ∧
      NamedByHead .sample header (grammarShelf.entries "grammars") "cam-v1" ∧
      ((∃ path, detectGrammar .sample camImage (grammarShelf.grammarsDir "grammars") eager =
          .ok (twoRules.toGrammarFile, path)) ↔
        ParsedWith .sample header (grammarShelf.entries "grammars") twoRules.toGrammarFile) := by
  obtain ⟨d, hident, hrecognized, hid⟩ := identifyDevice_camImage
  exact identified_grammar_parsed_iff .sample grammarShelf camImage "grammars" eager d _
    twoRules hident hrecognized hid rfl

/-- The parser misses the second rule, and no grammar is left. -/
theorem identified_grammar_not_parsed :
    ∃ d, identifyDevice .sample grammarShelf camImage "grammars" eager = .ok d ∧
      d.recognized = true ∧ d.matchedGrammarId = some twoRules.id ∧
      detectGrammar .sample camImage (grammarShelf.grammarsDir "grammars") eager =
        fail (.detectionFailed "dvr.img" "grammars") := by
  obtain ⟨d, hident, hrecognized, hid⟩ := identifyDevice_camImage
  exact ⟨d, hident, hrecognized, hid, by decide⟩

end Dvrft.Agreement
