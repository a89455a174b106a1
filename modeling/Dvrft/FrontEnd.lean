import Dvrft.EvidencePaths
import Dvrft.Pipeline
import Dvrft.Reporting
import Dvrft.Summaries

/-!
The requests of the graphical front end that work on a case, and the download of the
certificate. All of them share one case directory: whoever names one last decides
which certificate is handed out, whether or not it wrote one.
-/

namespace Dvrft.FrontEnd

open ShortReads Errors Machine Platform Acquisition CaseFiles Paths EvidencePaths Interpreter
  Database Correlation Analytics Summaries Reporting

/-- The details of a body; a field is `none` where the body has no such text. -/
structure ExaminerBody where
  name : Option String
  designation : Option String
  agency : Option String
  badgeNumber : Option String
  laboratory : Option String

def ExaminerBody.details (body : ExaminerBody) : ExaminerDetails where
  name := body.name.getD "Inspector Vikram Sharma"
  designation := body.designation.getD "Senior Forensic Specialist"
  agency := body.agency.getD "State Cyber Crime Branch"
  badgeNumber := body.badgeNumber.getD "DF-2026-04"
  laboratory := body.laboratory.getD "State Digital Forensic Science Laboratory"

inductive Request where
  | acquire (imagePath caseName outputDir : Option String)
  | parse (caseDir : Option String)
  | timelineAnalytics (caseDir : Option String)
  | report (caseDir : Option String) (examiner : ExaminerBody)

def defaultCaseDir : String := "../samples/case_ident_06"

/-- `text.trim_matches(c)`. -/
def trimMatches (c : Char) (text : String) : String :=
  String.ofList ((text.toList.dropWhile (· == c)).reverse.dropWhile (· == c)).reverse

def cleanPath (text : String) : String := trimMatches '\'' (trimMatches '"' (Texts.trim text))

inductive RequestError where
  | acquisition (source : AcquisitionError)
  | outputDirectory (path : String) (source : IoError)
  | manifestWrite (path : String) (source : IoError)
  | database (source : ParserError)
  | report (source : ReportError)
  deriving DecidableEq, Repr

abbrev Answered (α : Type) := Outcome RequestError α

/-- What the program finds and what becomes of its writes while it answers one request. -/
structure Host where
  file : String → Option EvidenceFile
  caseDir : String → CaseDir
  database : String → DbFile
  outputDirectory : String → Option IoError
  manifestWrite : String → Option IoError
  output : String → OutputIo
  plans : ℕ → Schedule IoError
  now : String
  /-- What a report that fails leaves in place of the certificate, if it comes to that. -/
  leftover : Option Bytes

structure ParsedRecord where
  blockIndex : ℕ
  byteOffset : ℕ
  channelId : UInt32
  normalizedTimestamp : String
  sequenceNum : UInt32
  isScrambled : Bool
  descrambled : Bool
  isCorrupted : Bool
  tier : ℕ

inductive Reply where
  | acquired (manifest : AcquisitionManifest) (path : String)
  | parsed (totalBlocks validFrames descrambledBlocks carvedCount : ℕ)
      (records : List ParsedRecord)
  | analysed (transitionsCount blackoutsCount detectionsCount : ℕ)
      (leads : List FrameAnalytics)
  | reported (caseName certificatePath markdownPath jsonPath : String)
  | failed (error : RequestError)

def lifted {ε α : Type} (wrap : ε → RequestError) : Outcome ε α → Answered α
  | .ok a => .ok a
  | .error (.error e) => fail (wrap e)
  | .error .panic => panicked

def written (wrap : IoError → RequestError) : Option IoError → Answered Unit
  | none => .ok ()
  | some e => fail (wrap e)

section Handlers

variable (X : Crates) (host : Host)

/-- `ReadOnlySource::open`. -/
def openSource (path : String) : Outcome AcquisitionError Source :=
  match host.file path with
  | none => fail (.sourceNotFound path)
  | some file =>
    match file.openReadOnly with
    | .ok () => .ok (.opened file.content.bytes (host.plans 0))
    | .error e => fail e

def acquireEvidenceWithOptions (sourcePath caseName outputDir : String) :
    Answered (AcquisitionManifest × String) := do
  let source ← lifted .acquisition (openSource host sourcePath)
  let manifest ← lifted .acquisition
    (acquireEvidence X sourcePath caseName host.now source (some defaultBlockSize))
  written (.outputDirectory outputDir) (host.outputDirectory outputDir)
  let manifestPath := join outputDir "manifest.json"
  written (.manifestWrite manifestPath) (host.manifestWrite manifestPath)
  .ok (manifest, manifestPath)

def acquire (imagePath caseName outputDir : Option String) : Answered Reply := do
  let (manifest, path) ← acquireEvidenceWithOptions X host
    (cleanPath (imagePath.getD "../samples/synthetic_disk.img"))
    (caseName.getD "GUI-CASE-01") (outputDir.getD "../samples/gui_case")
  .ok (.acquired manifest path)

def openDatabase (caseDir : String) : Answered CaseDatabase :=
  match CaseDatabase.openFile (join caseDir "case.db") (host.database (join caseDir "case.db")) with
  | .ok db => .ok db
  | .error e => fail (.database e)

def mappedRecord (tier : ℕ) (r : ExtractedRecord) : ParsedRecord where
  blockIndex := r.blockIndex
  byteOffset := r.byteOffset
  channelId := r.channelId
  normalizedTimestamp := r.normalizedTimestamp
  sequenceNum := r.sequenceNum
  isScrambled := r.isScrambled
  descrambled := r.descrambled
  isCorrupted := r.isCorrupted
  tier := tier

def parse (caseDir : String) : Answered Reply := do
  let db ← openDatabase host caseDir
  let records := db.queryAllRecords.toOption.getD []
  let carved := (db.queryCarvedRecords none).toOption.getD []
  let primary := db.primaryEvidenceGrammarAndTier.toOption.join.getD ("synthetic-v1", 1)
  .ok (.parsed records.length (records.countP fun r => !r.isCorrupted)
    (records.countP ExtractedRecord.descrambled) carved.length
    ((records.take 100).map (mappedRecord primary.2)))

/-- The evidence of the timeline: the source of the manifest if it is there, else the front
end's own file. -/
def timelineEvidence (caseDir : String) : Option EvidenceFile :=
  match (host.caseDir caseDir).manifest with
  | .decoded manifest => host.file manifest.sourcePath <|> host.file (frontEndPath caseDir)
  | _ => host.file (frontEndPath caseDir)

/-- The analysis of record `p.2` of the list, if it has a payload that can be read. -/
def analyzeRecord (content : Bytes) (p : ExtractedRecord × ℕ) :
    Answered (Option FrameAnalytics) :=
  let record := p.1
  if record.payloadLen = 0 then .ok none
  else do
    X.allocate record.payloadLen
    let file := Reader.opened (content.drop record.payloadOffset) (host.plans p.2)
    if 2 ^ 63 ≤ record.payloadOffset then .ok none
    else match file.readFull record.payloadLen with
      | .error _ => .ok none
      | .ok (buf, _) =>
        if buf.length < record.payloadLen then .ok none
        else (analyzeFrame X record.blockIndex record.channelId record.timestamp
          record.normalizedTimestamp buf (record.flags &&& 1 != 0)).map some

def frameAnalyses (evidence : Option EvidenceFile) (records : List ExtractedRecord) :
    Answered (List FrameAnalytics) :=
  match evidence with
  | none => .ok []
  | some file =>
    match file.refusal with
    | some _ => .ok []
    | none => do
      let analyses ← records.zipIdx.mapM (analyzeRecord X host file.content.bytes)
      .ok analyses.reduceOption

def timelineAnalytics (caseDir : String) : Answered Reply := do
  let db ← openDatabase host caseDir
  let records := db.queryAllRecords.toOption.getD []
  let corrReport := generateCorrelationReport
    (records.map ExtractedRecord.toCorrelationInput) 5 15
  let analyses ← frameAnalyses X host (timelineEvidence host caseDir) records
  let summary := summarizeFrames analyses 0.50 20
  .ok (.analysed corrReport.transitions.length corrReport.blackouts.length
    summary.totalEntitiesDetected summary.topLeads)

/-- `generate_case_report` with its default database and output directory. -/
def caseReport (caseDir : String) (examiner : ExaminerBody) :
    Reported (CaseReportOutcome × List Clip) :=
  generateCaseReport X (host.caseDir caseDir) (join caseDir "case.db")
    (host.database (join caseDir "case.db")) examiner.details (join caseDir "report")
    (host.output (join caseDir "report")) host.plans host.now

def report (caseDir : String) (examiner : ExaminerBody) :
    Answered (Reply × ComprehensiveForensicReport) := do
  let (outcome, _) ← lifted .report (caseReport X host caseDir examiner)
  .ok (.reported outcome.report.caseName outcome.certificatePath outcome.markdownPath
    outcome.jsonPath, outcome.report)

end Handlers

/-- The certificates that are on the disk, by the files that paths lead to. All of them can
be opened and read. -/
structure State (Place : Type) where
  lastCaseDir : String
  certificates : Place → Option Bytes

def certificatePath (caseDir : String) : String :=
  join (join caseDir "report") "certificate.pdf"

section Server

-- `place` is the file that a path leads to, `render` the printing of a certificate
variable {Place : Type} [DecidableEq Place] (place : String → Place)
  (render : ComprehensiveForensicReport → Bytes) (X : Crates)

def State.write (s : State Place) (path : String) (content : Bytes) : State Place :=
  { s with certificates := Function.update s.certificates (place path) (some content) }

/-- The reply to a request that did not panic. -/
def settle {α : Type} (reply : α → State Place × Reply) (refused : State Place) :
    Answered α → Option (State Place × Reply)
  | .ok a => some (reply a)
  | .error (.error e) => some (refused, .failed e)
  | .error .panic => none

/-- Answer one request. A panic ends the server. -/
def handle (s : State Place) (request : Request) (host : Host) : Option (State Place × Reply) :=
  match request with
  | .acquire imagePath caseName outputDir =>
    settle (fun reply => ({ s with lastCaseDir := outputDir.getD "../samples/gui_case" }, reply))
      s (acquire X host imagePath caseName outputDir)
  | .parse caseDir =>
    let dir := caseDir.getD defaultCaseDir
    let s := { s with lastCaseDir := dir }
    settle (fun reply => (s, reply)) s (parse host dir)
  | .timelineAnalytics caseDir =>
    let dir := caseDir.getD defaultCaseDir
    let s := { s with lastCaseDir := dir }
    settle (fun reply => (s, reply)) s (timelineAnalytics X host dir)
  | .report caseDir examiner =>
    let dir := caseDir.getD defaultCaseDir
    let s := { s with lastCaseDir := dir }
    let refused := match host.leftover with
      | some content => s.write place (certificatePath dir) content
      | none => s
    settle (fun p => (s.write place (certificatePath dir) (render p.2), p.1)) refused
      (report X host dir examiner)

/-- A sequence of requests, each with what the program finds while it answers. -/
def run (s : State Place) : List (Request × Host) → Option (State Place)
  | [] => some s
  | (request, host) :: rest => do
    let (s', _) ← handle place render X s request host
    run s' rest

inductive Download (Place : Type) where
  | pdf (file : Place) (data : Bytes)
  | notFound

/-- `GET /api/download-pdf`. -/
def downloadPdf (s : State Place) : Download Place :=
  let certPath := certificatePath s.lastCaseDir
  match s.certificates (place certPath) with
  | some data => .pdf (place certPath) data
  | none => .notFound

/-- The download is the certificate file of this case directory. -/
def ServesCertificateOf (s : State Place) (caseDir : String) : Prop :=
  ∃ data, s.certificates (place (certificatePath caseDir)) = some data ∧
    downloadPdf place s = .pdf (place (certificatePath caseDir)) data

end Server

/-- The directory of a report request that succeeds. -/
def reportedDir (X : Crates) : Request × Host → Option String
  | (.report caseDir examiner, host) =>
    match report X host (caseDir.getD defaultCaseDir) examiner with
    | .ok _ => some (caseDir.getD defaultCaseDir)
    | .error _ => none
  | _ => none

/-- The directory that a request leaves as the last one: of an acquisition only when it
succeeds, of the others in any case. -/
def namedDir (X : Crates) : Request × Host → Option String
  | (.acquire imagePath caseName outputDir, host) =>
    match acquire X host imagePath caseName outputDir with
    | .ok _ => some (outputDir.getD "../samples/gui_case")
    | .error _ => none
  | (.parse caseDir, _) => some (caseDir.getD defaultCaseDir)
  | (.timelineAnalytics caseDir, _) => some (caseDir.getD defaultCaseDir)
  | (.report caseDir _, _) => some (caseDir.getD defaultCaseDir)

section Downloads

variable {Place : Type} {place : String → Place} {s : State Place}

theorem settle_eq_some {α : Type} {answer : α → State Place × Reply} {refused : State Place}
    {x : Answered α} {r : State Place × Reply} (h : settle answer refused x = some r) :
    (∃ a, x = .ok a ∧ r = answer a) ∨ ∃ e, x = fail e ∧ r = (refused, .failed e) := by
  match x with
  | .ok a => exact .inl ⟨a, rfl, (Option.some.inj h).symm⟩
  | .error (.error e) => exact .inr ⟨e, rfl, (Option.some.inj h).symm⟩
  | .error .panic => cases h

theorem servesCertificateOf_iff {caseDir : String}
    (h : (s.certificates (place (certificatePath caseDir))).isSome) :
    ServesCertificateOf place s caseDir ↔
      place (certificatePath s.lastCaseDir) = place (certificatePath caseDir) := by
  obtain ⟨data, hdata⟩ := Option.isSome_iff_exists.mp h
  constructor
  · rintro ⟨data', -, hserved⟩
    unfold downloadPdf at hserved
    dsimp only at hserved
    cases hlast : s.certificates (place (certificatePath s.lastCaseDir)) with
    | none =>
      rw [hlast] at hserved
      cases hserved
    | some found =>
      rw [hlast] at hserved
      exact (Download.pdf.inj hserved).1
  · intro hsame
    refine ⟨data, hdata, ?_⟩
    unfold downloadPdf
    dsimp only
    rw [hsame, hdata]

end Downloads

section Steps

variable {Place : Type} [DecidableEq Place] {place : String → Place}
  {render : ComprehensiveForensicReport → Bytes} {X : Crates}
  {s s' : State Place} {request : Request} {host : Host} {reply : Reply}

@[simp] theorem State.write_certificates (s : State Place) (path : String) (content : Bytes) :
    (s.write place path content).certificates =
      Function.update s.certificates (place path) (some content) := rfl

/-- What a request may do to the state: it names a directory or keeps the last one, takes no
certificate away, and a report that succeeds leaves one. -/
structure Answers (place : String → Place) (X : Crates) (s s' : State Place)
    (event : Request × Host) : Prop where
  named : s'.lastCaseDir = (namedDir X event).getD s.lastCaseDir
  kept : ∀ p, (s.certificates p).isSome → (s'.certificates p).isSome
  certified : ∀ dir, reportedDir X event = some dir →
    (s'.certificates (place (certificatePath dir))).isSome

theorem State.isSome_write (s : State Place) (path : String) (content : Bytes) (p : Place)
    (h : (s.certificates p).isSome) : ((s.write place path content).certificates p).isSome := by
  rw [State.write_certificates]
  by_cases hp : p = place path
  · rw [hp, Function.update_self]
    rfl
  · rwa [Function.update_of_ne hp]

theorem State.isSome_write_self (s : State Place) (path : String) (content : Bytes) :
    ((s.write place path content).certificates (place path)).isSome := by
  rw [State.write_certificates, Function.update_self]
  rfl

theorem handle_answers (h : handle place render X s request host = some (s', reply)) :
    Answers place X s s' (request, host) := by
  cases request with
  | acquire imagePath caseName outputDir =>
    rcases settle_eq_some h with ⟨a, ha, hr⟩ | ⟨e, he, hr⟩
    · obtain ⟨rfl, -⟩ := Prod.mk.inj hr
      exact ⟨by simp [namedDir, ha], fun p hp => hp, fun dir hdir => by cases hdir⟩
    · obtain ⟨rfl, -⟩ := Prod.mk.inj hr
      exact ⟨by simp [namedDir, he, fail], fun p hp => hp, fun dir hdir => by cases hdir⟩
  | parse caseDir =>
    rcases settle_eq_some h with ⟨a, -, hr⟩ | ⟨e, -, hr⟩
    all_goals
      obtain ⟨rfl, -⟩ := Prod.mk.inj hr
      exact ⟨rfl, fun p hp => hp, fun dir hdir => by cases hdir⟩
  | timelineAnalytics caseDir =>
    rcases settle_eq_some h with ⟨a, -, hr⟩ | ⟨e, -, hr⟩
    all_goals
      obtain ⟨rfl, -⟩ := Prod.mk.inj hr
      exact ⟨rfl, fun p hp => hp, fun dir hdir => by cases hdir⟩
  | report caseDir examiner =>
    rcases settle_eq_some h with ⟨a, ha, hr⟩ | ⟨e, he, hr⟩
    · obtain ⟨rfl, -⟩ := Prod.mk.inj hr
      refine ⟨rfl, fun p hp => State.isSome_write _ _ _ p hp, ?_⟩
      intro dir hdir
      simp only [reportedDir, ha, Option.some.injEq] at hdir
      subst hdir
      exact State.isSome_write_self _ _ _
    · obtain ⟨rfl, -⟩ := Prod.mk.inj hr
      refine ⟨?_, ?_, fun dir hdir => by simp [reportedDir, he, fail] at hdir⟩
      · cases host.leftover <;> rfl
      · intro p hp
        cases host.leftover with
        | none => exact hp
        | some content => exact State.isSome_write _ _ _ p hp

/-- The directory of the report ends in a name, not in a separator. -/
theorem getLast?_join_report (caseDir : String) :
    (join caseDir "report").toList.getLast? = some 't' := by
  unfold join
  split_ifs
  · rfl
  · rw [String.toList_append, List.getLast?_append]
    rfl
  · rw [String.toList_append, List.getLast?_append]
    rfl

theorem certificatePath_eq (caseDir : String) :
    certificatePath caseDir = join caseDir "report" ++ "/certificate.pdf" := by
  have hlast := getLast?_join_report caseDir
  have hempty : (join caseDir "report").isEmpty = false := by
    by_contra hne
    rw [Bool.not_eq_false, String.isEmpty_iff] at hne
    rw [hne] at hlast
    cases hlast
  unfold certificatePath
  generalize join caseDir "report" = dir at hlast hempty
  rw [join, if_neg (by simp [isAbsolute, hempty]), if_neg (by simp [hlast]), String.append_assoc]
  rfl

theorem lifted_ok {ε α : Type} {wrap : ε → RequestError} {x : Outcome ε α} {a : α} :
    lifted wrap x = .ok a ↔ x = .ok a := by
  match x with
  | .ok b => simp [lifted]
  | .error (.error e) => simp [lifted, fail]
  | .error .panic => simp [lifted, panicked]

/-- The certificate of the directory is the file that the reply names. -/
theorem report_certificatePath {caseDir caseName certPath markdownPath jsonPath : String}
    {examiner : ExaminerBody} {r : ComprehensiveForensicReport}
    (h : report X host caseDir examiner =
      .ok (.reported caseName certPath markdownPath jsonPath, r)) :
    certPath = certificatePath caseDir := by
  obtain ⟨⟨outcome, clips⟩, hreport, h⟩ := bind_ok.mp h
  obtain ⟨hreply, -⟩ := Prod.mk.inj (Except.ok.inj h)
  rw [← (Reply.reported.inj hreply).2.1, certificatePath_eq]
  exact generateCaseReport_certificatePath (lifted_ok.mp hreport)

theorem reportedDir_named {event : Request × Host} {dir : String}
    (h : reportedDir X event = some dir) : namedDir X event = some dir := by
  obtain ⟨request, host⟩ := event
  cases request with
  | report caseDir examiner =>
    dsimp only [reportedDir] at h
    cases hreport : report X host (caseDir.getD defaultCaseDir) examiner with
    | ok a =>
      rw [hreport] at h
      exact h
    | error e =>
      rw [hreport] at h
      cases h
  | acquire | parse | timelineAnalytics => cases h

theorem run_cons {event : Request × Host} {rest : List (Request × Host)}
    (h : run place render X s (event :: rest) = some s') :
    ∃ s₁, Answers place X s s₁ event ∧ run place render X s₁ rest = some s' := by
  obtain ⟨⟨s₁, reply⟩, hhandle, hrest⟩ := Option.bind_eq_some_iff.mp h
  exact ⟨s₁, handle_answers hhandle, hrest⟩

/-- The directory that was named last is the one the server keeps. -/
theorem run_named {events : List (Request × Host)}
    (h : run place render X s events = some s') :
    s'.lastCaseDir = (events.filterMap (namedDir X)).getLast?.getD s.lastCaseDir := by
  induction events generalizing s with
  | nil =>
    obtain rfl := Option.some.inj h
    rfl
  | cons event rest ih =>
    obtain ⟨s₁, hanswers, hrest⟩ := run_cons h
    rw [ih hrest, hanswers.named]
    cases hnamed : namedDir X event with
    | none => rw [List.filterMap_cons_none hnamed, Option.getD_none]
    | some dir =>
      rw [List.filterMap_cons_some hnamed, List.getLast?_cons, Option.getD_some,
        Option.getD_some]

theorem run_kept {events : List (Request × Host)}
    (h : run place render X s events = some s') (p : Place) (hp : (s.certificates p).isSome) :
    (s'.certificates p).isSome := by
  induction events generalizing s with
  | nil =>
    obtain rfl := Option.some.inj h
    exact hp
  | cons event rest ih =>
    obtain ⟨s₁, hanswers, hrest⟩ := run_cons h
    exact ih hrest (hanswers.kept p hp)

/-- Every certificate that was reported is there in the end. -/
theorem run_certified {events : List (Request × Host)}
    (h : run place render X s events = some s') {dir : String}
    (hdir : dir ∈ events.filterMap (reportedDir X)) :
    (s'.certificates (place (certificatePath dir))).isSome := by
  induction events generalizing s with
  | nil => cases hdir
  | cons event rest ih =>
    obtain ⟨s₁, hanswers, hrest⟩ := run_cons h
    obtain ⟨e, he, hreported⟩ := List.mem_filterMap.mp hdir
    rcases List.mem_cons.mp he with rfl | he
    · exact run_kept hrest _ (hanswers.certified dir hreported)
    · exact ih hrest (List.mem_filterMap.mpr ⟨e, he, hreported⟩)

/-- The download is the certificate reported last exactly when the directory named last has
the same certificate file. -/
theorem downloadPdf_serves_iff (s : State Place) (events : List (Request × Host)) {dir : String}
    (hrun : run place render X s events = some s')
    (hdir : (events.filterMap (reportedDir X)).getLast? = some dir) :
    ServesCertificateOf place s' dir ↔
      ∀ named, (events.filterMap (namedDir X)).getLast? = some named →
        place (certificatePath named) = place (certificatePath dir) := by
  have hmem : dir ∈ events.filterMap (reportedDir X) := List.mem_of_getLast? hdir
  rw [servesCertificateOf_iff (run_certified hrun hmem), run_named hrun]
  obtain ⟨event, hevent, hreported⟩ := List.mem_filterMap.mp hmem
  have hnamed : dir ∈ events.filterMap (namedDir X) :=
    List.mem_filterMap.mpr ⟨event, hevent, reportedDir_named hreported⟩
  obtain ⟨last, hlast⟩ : ∃ last, (events.filterMap (namedDir X)).getLast? = some last :=
    ⟨_, List.getLast?_eq_some_getLast (List.ne_nil_of_mem hnamed)⟩
  rw [hlast, Option.getD_some]
  exact ⟨fun h named hn => Option.some.inj hn ▸ h, fun h => h last rfl⟩

end Steps

theorem length_noBytes : ([] : Bytes).length < 2 ^ 63 := by decide

/-- Every case directory holds the manifest of an empty image, and every write succeeds. -/
def plainHost : Host where
  file _ := none
  caseDir _ := .holding (plainManifest .sample "evidence.raw" "case" "" 1 []) "evidence.raw"
    ⟨[], length_noBytes⟩
  database _ := .absent
  outputDirectory _ := none
  manifestWrite _ := none
  output _ := .sound
  plans _ := eager
  now := ""
  leftover := none

def reportOn (caseDir : String) : Request × Host :=
  (.report (some caseDir) ⟨none, none, none, none, none⟩, plainHost)

def parseOf (caseDir : String) : Request × Host := (.parse (some caseDir), plainHost)

def started : State (Bool × List (List Char)) := ⟨defaultCaseDir, fun _ => none⟩

theorem downloadPdf_serves_reported :
    ∃ s', run components (fun _ => []) .sample started [parseOf "cases/b", reportOn "cases/a"] =
        some s' ∧
      ([parseOf "cases/b", reportOn "cases/a"].filterMap (reportedDir .sample)).getLast? =
        some "cases/a" ∧
      ServesCertificateOf components s' "cases/a" := by
  refine ⟨_, rfl, rfl, ?_⟩
  apply (@downloadPdf_serves_iff _ _ components (fun _ => []) .sample _ started
    [parseOf "cases/b", reportOn "cases/a"] "cases/a" rfl rfl).mpr
  intro named hnamed
  obtain rfl := Option.some.inj hnamed
  rfl

/-- Reports on two cases succeed, the second one last, and the first is looked at again. -/
theorem downloadPdf_other_case :
    ∃ s', run components (fun _ => []) .sample started
        [reportOn "cases/a", reportOn "cases/b", parseOf "cases/a"] = some s' ∧
      ([reportOn "cases/a", reportOn "cases/b", parseOf "cases/a"].filterMap
        (reportedDir .sample)).getLast? = some "cases/b" ∧
      ServesCertificateOf components s' "cases/a" ∧
      ¬ ServesCertificateOf components s' "cases/b" := by
  refine ⟨_, rfl, rfl, ⟨[], rfl, rfl⟩, ?_⟩
  rintro ⟨data, -, hserved⟩
  exact absurd (Download.pdf.inj hserved).1 (by decide)

end Dvrft.FrontEnd
