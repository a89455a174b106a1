import Dvrft.Acquisition

/-!
What a stage of the pipeline finds in a case directory: the manifest, or why
there is none, and the evidence file that the manifest's source path leads to.
Both the parser and the verifier begin with these three steps.
-/

namespace Dvrft.CaseFiles

open Errors Machine Platform Acquisition ShortReads

/-- The bytes of a file. Offsets into a file are signed 64-bit numbers. -/
structure FileContent where
  bytes : Bytes
  size_lt : bytes.length < 2 ^ 63
  deriving DecidableEq, Repr

structure EvidenceFile where
  path : String
  content : FileContent
  /-- Why the operating system does not open the file, if it does not. -/
  refusal : Option IoError
  deriving DecidableEq, Repr

inductive ManifestFile where
  | missing
  | unreadable (reason : String)
  | decoded (manifest : AcquisitionManifest)
  deriving DecidableEq, Repr

/-- `resolve` is the file that a source path leads to from this directory. -/
structure CaseDir where
  manifestPath : String
  manifest : ManifestFile
  resolve : String → Option EvidenceFile

/-- `ReadOnlySource::open`, on a path that exists. -/
def EvidenceFile.openReadOnly (file : EvidenceFile) : Except AcquisitionError Unit :=
  match file.refusal with
  | none => .ok ()
  | some .permissionDenied => .error (.permissionDenied file.path .permissionDenied)
  | some e => .error (.io e)

/-- The evidence, opened for reading. -/
def EvidenceFile.source (file : EvidenceFile) (plan : Schedule IoError) :
    Outcome ParserError Source :=
  match file.openReadOnly with
  | .ok () => .ok (.opened file.content.bytes plan)
  | .error e => fail (.acquisition e)

@[simp] theorem source_readable (path : String) (content : FileContent)
    (plan : Schedule IoError) :
    (EvidenceFile.mk path content none).source plan = .ok (.opened content.bytes plan) := rfl

theorem openReadOnly_eq_ok {evidence : EvidenceFile} :
    evidence.openReadOnly = .ok () ↔ evidence.refusal = none := by
  unfold EvidenceFile.openReadOnly
  split
  · rename_i hrefusal
    simp [hrefusal]
  · rename_i hrefusal
    simp [hrefusal]
  · rename_i hrefusal
    simp [hrefusal]

/-- A source is there only if the operating system opens the file. -/
theorem refusal_of_source {evidence : EvidenceFile} {plan : Schedule IoError} {source : Source}
    (h : evidence.source plan = .ok source) : evidence.refusal = none := by
  unfold EvidenceFile.source at h
  cases hopen : evidence.openReadOnly with
  | ok u => exact openReadOnly_eq_ok.mp hopen
  | error e =>
    rw [hopen] at h
    exact absurd h (by simp [fail])

theorem source_ok {file : EvidenceFile} {plan : Schedule IoError} {source : Source}
    (h : file.source plan = .ok source) : source = .opened file.content.bytes plan := by
  unfold EvidenceFile.source at h
  cases hopen : file.openReadOnly with
  | error e => simp [hopen, fail] at h
  | ok u => simpa [hopen, eq_comm] using h

namespace CaseDir

def loadManifest (dir : CaseDir) : Outcome ParserError AcquisitionManifest :=
  match dir.manifest with
  | .missing => fail (.manifestError dir.manifestPath
      "Acquisition manifest.json not found in case directory")
  | .unreadable reason => fail (.manifestError dir.manifestPath reason)
  | .decoded manifest => .ok manifest

def resolveEvidence (dir : CaseDir) (manifest : AcquisitionManifest) :
    Outcome ParserError EvidenceFile :=
  match dir.resolve manifest.sourcePath with
  | some file => .ok file
  | none => fail (.acquisition (.sourceNotFound manifest.sourcePath))

/-- A directory that holds a manifest and finds its evidence. -/
def holding (manifest : AcquisitionManifest) (path : String) (content : FileContent) :
    CaseDir where
  manifestPath := "manifest.json"
  manifest := .decoded manifest
  resolve _ := some ⟨path, content, none⟩

@[simp] theorem loadManifest_holding (manifest : AcquisitionManifest) (path : String)
    (content : FileContent) : (holding manifest path content).loadManifest = .ok manifest := rfl

@[simp] theorem resolveEvidence_holding (manifest m : AcquisitionManifest) (path : String)
    (content : FileContent) :
    (holding manifest path content).resolveEvidence m = .ok ⟨path, content, none⟩ := rfl

end CaseDir

end Dvrft.CaseFiles
