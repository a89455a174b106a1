import Dvrft.CaseFiles
import Dvrft.Paths

/-!
Which file each consumer of a case takes for the evidence. Five of them try the
recorded source path and then the same four places around the case directory;
the timeline of the graphical front end tries the source path and then one file
of its own.
-/

namespace Dvrft.EvidencePaths

open Errors Machine Platform Acquisition CaseFiles Paths

/-- The files there are, by the paths that lead to them. All of them can be opened. -/
structure FileSystem where
  file : String → Option FileContent
  /-- The empty path leads nowhere. -/
  file_empty : file "" = none

/-- `path.exists()`. -/
def FileSystem.present (fs : FileSystem) (path : String) : Bool := (fs.file path).isSome

variable (fs : FileSystem) (caseDir sourcePath : String)

/-- The places around the case directory, in the order in which they are tried. -/
def candidatePaths : List String :=
  let name := fileName sourcePath
  [join caseDir sourcePath,
    ((parent caseDir).map (join · sourcePath)).getD "",
    (name.map (join caseDir ·)).getD "",
    (name.bind fun f => (parent caseDir).map (join · f)).getD ""]

/-- The source path if it exists, else the first candidate that does. -/
def found : Option String :=
  if fs.present sourcePath then some sourcePath
  else (candidatePaths caseDir sourcePath).find? fs.present

inductive Consumer where
  | parseCase
  | verifyCaseIntegrity
  | runCarve
  | runAnalyze
  | generateCaseReport
  | timelineAnalytics
  deriving DecidableEq, Repr

/-- The front end's own file. -/
def frontEndPath : String := join ((parent caseDir).getD caseDir) "synthetic_disk.img"

/-- The path that a consumer goes on with. -/
def evidencePath : Consumer → Outcome ParserError String
  | .parseCase | .verifyCaseIntegrity =>
    match found fs caseDir sourcePath with
    | some path => .ok path
    | none => fail (.acquisition (.sourceNotFound sourcePath))
  | .runCarve | .runAnalyze | .generateCaseReport =>
    .ok ((found fs caseDir sourcePath).getD sourcePath)
  | .timelineAnalytics =>
    .ok (if fs.present sourcePath then sourcePath else frontEndPath caseDir)

/-- The path at which a consumer finds the evidence, if it finds any. -/
def opened (consumer : Consumer) : Option String :=
  match evidencePath fs caseDir sourcePath consumer with
  | .ok path => if fs.present path then some path else none
  | .error _ => none

/-- What the parser and the verifier look at, as the case directory presents it. -/
def FileSystem.caseAt (fs : FileSystem) (dir : String) (manifest : ManifestFile) : CaseDir where
  manifestPath := join dir "manifest.json"
  manifest := manifest
  resolve source := (found fs dir source).bind fun path =>
    (fs.file path).map fun content => ⟨path, content, none⟩

variable {fs caseDir sourcePath}

theorem present_of_found {path : String} (h : found fs caseDir sourcePath = some path) :
    fs.present path = true := by
  unfold found at h
  split_ifs at h with hsource
  · rwa [← Option.some.inj h]
  · exact List.find?_some h

/-- The parser and the verifier read the file at the path that was found. -/
theorem resolveEvidence_caseAt (manifestFile : ManifestFile) (manifest : AcquisitionManifest) :
    (fs.caseAt caseDir manifestFile).resolveEvidence manifest =
      (evidencePath fs caseDir manifest.sourcePath .parseCase).bind fun path =>
        match fs.file path with
        | some content => .ok ⟨path, content, none⟩
        | none => fail (.acquisition (.sourceNotFound manifest.sourcePath)) := by
  unfold CaseDir.resolveEvidence FileSystem.caseAt evidencePath
  dsimp only
  cases hfound : found fs caseDir manifest.sourcePath with
  | none => rfl
  | some path =>
    have hpresent := present_of_found hfound
    obtain ⟨content, hcontent⟩ := Option.isSome_iff_exists.mp hpresent
    simp [hcontent, Except.bind]

/-- Five of the consumers find the evidence where it was found, or not at all. -/
theorem opened_eq_found {consumer : Consumer} (h : consumer ≠ .timelineAnalytics) :
    opened fs caseDir sourcePath consumer = found fs caseDir sourcePath := by
  cases hfound : found fs caseDir sourcePath with
  | some path =>
    have hpresent := present_of_found hfound
    cases consumer <;> simp_all [opened, evidencePath]
  | none =>
    have hsource : fs.present sourcePath = false := by
      by_contra hpresent
      rw [Bool.not_eq_false] at hpresent
      simp [found, hpresent] at hfound
    cases consumer <;> simp_all [opened, evidencePath, fail]

theorem opened_timelineAnalytics :
    opened fs caseDir sourcePath .timelineAnalytics =
      if fs.present sourcePath then some sourcePath
      else if fs.present (frontEndPath caseDir) then some (frontEndPath caseDir) else none := by
  unfold opened evidencePath
  by_cases hsource : fs.present sourcePath
  · simp [hsource]
  · simp [hsource]

/-- The five consumers and the front end are all that have to agree. -/
theorem agree_iff_found_frontEnd :
    (∀ a b p q, opened fs caseDir sourcePath a = some p →
        opened fs caseDir sourcePath b = some q → SamePath p q) ↔
      ∀ p q, found fs caseDir sourcePath = some p →
        opened fs caseDir sourcePath .timelineAnalytics = some q → SamePath p q := by
  have hparser : opened fs caseDir sourcePath .parseCase = found fs caseDir sourcePath :=
    opened_eq_found (by decide)
  constructor
  · intro hagree p q hp hq
    exact hagree .parseCase .timelineAnalytics p q (hparser.trans hp) hq
  · intro hagree a b p q ha hb
    by_cases hfrontA : a = .timelineAnalytics
    · by_cases hfrontB : b = .timelineAnalytics
      · rw [hfrontA] at ha
        rw [hfrontB, ha] at hb
        rw [Option.some.inj hb]
        exact .refl q
      · rw [hfrontA] at ha
        rw [opened_eq_found hfrontB] at hb
        exact (hagree q p hb ha).symm
    · rw [opened_eq_found hfrontA] at ha
      by_cases hfrontB : b = .timelineAnalytics
      · rw [hfrontB] at hb
        exact hagree p q ha hb
      · rw [opened_eq_found hfrontB, ha] at hb
        rw [Option.some.inj hb]
        exact .refl q

/-- All consumers read one file exactly when the source path exists, or the front
end's own file does not, or no candidate does, or the first that does is it. -/
theorem consumers_agree_iff (fs : FileSystem) (caseDir sourcePath : String) :
    (∀ a b p q, opened fs caseDir sourcePath a = some p →
        opened fs caseDir sourcePath b = some q → SamePath p q) ↔
      fs.present sourcePath = true ∨ fs.present (frontEndPath caseDir) = false ∨
        (∀ c ∈ candidatePaths caseDir sourcePath, fs.present c = false) ∨
        ∃ c, (candidatePaths caseDir sourcePath).find? fs.present = some c ∧
          SamePath c (frontEndPath caseDir) := by
  rw [agree_iff_found_frontEnd, opened_timelineAnalytics, found]
  by_cases hsource : fs.present sourcePath = true
  · refine iff_of_true ?_ (.inl hsource)
    intro p q hp hq
    rw [if_pos hsource] at hp hq
    rw [← Option.some.inj hp, ← Option.some.inj hq]
    exact .refl sourcePath
  · rw [if_neg hsource, if_neg hsource, or_iff_right hsource]
    by_cases hfront : fs.present (frontEndPath caseDir) = true
    · have hthere : ¬ fs.present (frontEndPath caseDir) = false := by simp [hfront]
      rw [if_pos hfront, or_iff_right hthere]
      cases hfirst : (candidatePaths caseDir sourcePath).find? fs.present with
      | none =>
        have hmissing := List.find?_eq_none.mp hfirst
        refine iff_of_true (fun p q hp => by simp at hp) (.inl ?_)
        intro c hc
        simpa using hmissing c hc
      | some c =>
        have hpresent := List.find?_some hfirst
        have hmem := List.mem_of_find?_eq_some hfirst
        have hnot : ¬ ∀ c ∈ candidatePaths caseDir sourcePath, fs.present c = false := by
          intro hmissing
          rw [hmissing c hmem] at hpresent
          exact absurd hpresent (by decide)
        rw [or_iff_right hnot]
        simp
    · refine iff_of_true ?_ (.inl (by simpa using hfront))
      intro p q _ hq
      rw [if_neg hfront] at hq
      exact absurd hq (by simp)

/-- A file system of empty files at the given paths. -/
def holding (paths : List String) : FileSystem where
  file path := if path ≠ "" ∧ path ∈ paths then some ⟨[], by decide⟩ else none
  file_empty := by simp

/-- The case's own image and another one beside the case directory: the front end
takes the other. -/
theorem front_end_reads_other :
    opened (holding ["cases/one/disk.img", "cases/synthetic_disk.img"]) "cases/one" "disk.img"
        .parseCase = some "cases/one/disk.img" ∧
      opened (holding ["cases/one/disk.img", "cases/synthetic_disk.img"]) "cases/one" "disk.img"
        .timelineAnalytics = some "cases/synthetic_disk.img" ∧
      ¬ SamePath "cases/one/disk.img" "cases/synthetic_disk.img" := by
  decide

end Dvrft.EvidencePaths
