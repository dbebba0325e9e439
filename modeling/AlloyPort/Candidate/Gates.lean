import AlloyPort.Candidate.Source

/-! The Source Gate: what it finds in the text of a candidate's sources, and the receipt that it authors. -/

namespace AlloyPort.Candidate

inductive SourceGateSeverity where
  | blocking
  | advisory
  deriving DecidableEq

inductive SourceGateFailureKind where
  | artifactSetMismatch
  | artifactIdentityMismatch
  | nonUtf8Source
  | forbiddenFallback
  | missingDeviceSource
  | missingHostEntryPoint
  | missingBuildReference
  | missingBuildTarget
  | incompleteComponentMapping
  | unrecognizedKernelStructure
  deriving DecidableEq

def SourceGateFailureKind.rank : SourceGateFailureKind → Nat
  | .artifactSetMismatch => 0
  | .artifactIdentityMismatch => 1
  | .nonUtf8Source => 2
  | .forbiddenFallback => 3
  | .missingDeviceSource => 4
  | .missingHostEntryPoint => 5
  | .missingBuildReference => 6
  | .missingBuildTarget => 7
  | .incompleteComponentMapping => 8
  | .unrecognizedKernelStructure => 9

structure SourceGateFailure where
  kind : SourceGateFailureKind
  severity : SourceGateSeverity
  path : Option BundlePath
  detail : String
  deriving DecidableEq

structure SourceGateReceipt where
  schemaVersion : Nat
  gateRevision : String
  candidateId : CandidateId
  manifestDigest : Sha256Digest
  passed : Bool
  inspectedArtifacts : List Sha256Digest
  failures : List SourceGateFailure
  deriving DecidableEq

def SOURCE_GATE_RECEIPT_SCHEMA_V1 : Nat := 1

def SOURCE_GATE_REVISION_V2 : String := "source-gate-v2"

def blocking (kind : SourceGateFailureKind) (path : Option BundlePath) (detail : String) : SourceGateFailure :=
  ⟨kind, .blocking, path, detail⟩

def advisory (kind : SourceGateFailureKind) (path : Option BundlePath) (detail : String) : SourceGateFailure :=
  ⟨kind, .advisory, path, detail⟩

abbrev Sources := List (BundlePath × List UInt8)

def fromUtf8 (bytes : List UInt8) : Option String := String.fromUTF8? ⟨bytes.toArray⟩

structure SourceText where
  path : BundlePath
  kind : GeneratedSourceKind
  contents : String
  deriving DecidableEq

section inspections

def contains (text pattern : String) : Bool := text.toList.tails.any pattern.toList.isPrefixOf

def asciiLowercase (text : String) : String := String.ofList (text.toList.map Char.toLower)

def fileName (path : BundlePath) : String := String.ofList ((path.text.toList.splitOn '/').getLastD [])

def stripReturn (line : List Char) : List Char := if line.getLast? = some '\r' then line.dropLast else line

def linesFrom (current : List Char) : List Char → List (List Char)
  | [] => if current = [] then [] else [current]
  | c :: rest => if c = '\n' then stripReturn current :: linesFrom [] rest else linesFrom (current ++ [c]) rest

def includes (contents target : String) : Bool :=
  (linesFrom [] contents.toList).any fun line =>
    let line := line.dropWhile isWhiteSpace
    "#include".toList.isPrefixOf line && contains (String.ofList line) target

def FORBIDDEN : List String := ["torch/", "torch::", "at::", "aclnn", "aclop", "tbe/", "tbe::", "tvm/", "tvm::"]

def ASCEND_C_MARKERS : List String :=
  ["__aicore__", "kernel_operator.h", "GM_ADDR", "GlobalTensor", "AscendC::", "tensor_api"]

variable (manifest : CandidateSourceManifest) (sources : List SourceText)

def inspectForbidden : List SourceGateFailure :=
  sources.filterMap fun source =>
    (FORBIDDEN.find? (contains (asciiLowercase source.contents))).map fun token =>
      blocking .forbiddenFallback (some source.path) ("generated source references " ++ token ++
        ": the deliverable is Ascend C, not a call into a framework or a prebuilt operator")

def inspectDevice : List SourceGateFailure :=
  let device := sources.filter fun source => source.kind = .ascendCDevice
  if device.all (fun source => isBlank source.contents) = true then
    [blocking .missingDeviceSource none "the candidate declares no non-empty Ascend C device source"]
  else
    (device.filter fun source => !(ASCEND_C_MARKERS.any (contains source.contents))).map fun source =>
      advisory .unrecognizedKernelStructure (some source.path)
        "device source carries none of the usual Ascend C markers; the compiler decides"

def inspectHost : List SourceGateFailure :=
  if (sources.any fun source => source.kind = .ascendHost && contains source.contents manifest.spec.publicSymbol &&
      contains source.contents "extern \"C\"") = true then []
  else [blocking .missingHostEntryPoint none ("no host source exposes the migration's public symbol " ++
    manifest.spec.publicSymbol ++ " with C linkage")]

def sourceNames : List String := sources.map fun source => fileName source.path

def reachIncludes (reached : List String) : List String :=
  sources.foldl (fun reached source =>
    if fileName source.path ∈ reached then
      (sourceNames sources).foldl (fun reached candidate =>
        if candidate ∉ reached ∧ includes source.contents candidate = true then reached ++ [candidate]
          else reached) reached
    else reached) reached

def growReached : Nat → List String → List String
  | 0, reached => reached
  | passes + 1, reached =>
    let next := reachIncludes sources reached
    if next = reached then reached else growReached passes next

def buildableNames (build : String) : List String :=
  growReached sources sources.length ((sourceNames sources).filter (contains build))

def joinedContents (kind : GeneratedSourceKind) : String :=
  "\n".intercalate ((sources.filter fun source => source.kind = kind).map SourceText.contents)

def inspectBuild : List SourceGateFailure :=
  let build := joinedContents sources .buildIntegration
  let reachable := buildableNames sources build
  let missing := manifest.files.filter fun file =>
    (file.kind = .ascendCDevice ∨ file.kind = .ascendHost) ∧ fileName file.path ∉ reachable
  (if missing = [] then []
  else [blocking .missingBuildReference none ("build integration does not reach these generated sources: " ++
    ", ".intercalate (missing.map fun file => file.path.text) ++
    ". A source counts as reached when the build files name it, or when a source they do name includes it.")]) ++
  if contains build manifest.spec.buildTarget = true then []
  else [blocking .missingBuildTarget none ("build integration does not define the migration's " ++
    manifest.spec.buildTarget ++ " target")]

def inspectMapping : List SourceGateFailure :=
  let mapping := joinedContents sources .componentMapping
  let implementation := manifest.files.filter fun file => file.kind ≠ .componentMapping
  let paths := manifest.spec.inputSourcePaths.map BundlePath.text ++ implementation.map fun file => file.path.text
  let uncovered := paths.filter fun path => !contains mapping path
  if uncovered = [] then []
  else [blocking .incompleteComponentMapping none ("component mapping does not mention these paths: " ++
    ", ".intercalate uncovered ++ ". Each input and generated implementation source must appear somewhere in the " ++
    "mapping document; the gate looks for the path text and does not require any particular format.")]

end inspections

section receipts

variable [Sha256] (manifest : CandidateSourceManifest) (sources : Sources)

def readText (file : CandidateSourceFile) : List SourceGateFailure × List SourceText :=
  match sources.lookup file.path with
  | none => ([], [])
  | some bytes =>
    if file.artifact.sizeBytes = bytes.length ∧ file.artifact.digest = Sha256.digestBytes bytes then
      match fromUtf8 bytes with
      | some contents => ([], [⟨file.path, file.kind, contents⟩])
      | none => ([blocking .nonUtf8Source (some file.path) "generated source must be UTF-8"], [])
    else ([blocking .artifactIdentityMismatch (some file.path)
      "source bytes do not match the immutable Artifact identity"], [])

def byTextPath (l r : SourceText) : Prop := ¬ r.path.text < l.path.text

instance : DecidableRel byTextPath := fun l r => inferInstanceAs (Decidable (¬ r.path.text < l.path.text))

def sourceTexts : List SourceText :=
  (manifest.files.flatMap fun file => (readText sources file).2).insertionSort byTextPath

def pathSetFailures : List SourceGateFailure :=
  let expected := manifest.files.map CandidateSourceFile.path
  let actual := sources.map Prod.fst
  if expected ⊆ actual ∧ actual ⊆ expected then []
  else [blocking .artifactSetMismatch none "source Artifact set does not exactly match the candidate manifest"]

def SourceGateFailure.before (l r : SourceGateFailure) : Bool :=
  let severity := fun failure : SourceGateFailure => if failure.severity = .blocking then 0 else 1
  if severity l ≠ severity r then severity l < severity r
  else if l.kind ≠ r.kind then l.kind.rank < r.kind.rank
  else match l.path, r.path with
    | none, _ => true
    | some _, none => false
    | some left, some right => ¬ right.text < left.text

def sourceGateFailures : List SourceGateFailure :=
  let texts := sourceTexts manifest sources
  (pathSetFailures manifest sources ++ (manifest.files.flatMap fun file => (readText sources file).1) ++
    inspectForbidden texts ++ inspectDevice texts ++ inspectHost manifest texts ++ inspectBuild manifest texts ++
    inspectMapping manifest texts).insertionSort fun l r => l.before r = true

def evaluateSourceGate (manifestDigest : Sha256Digest) : SourceGateReceipt where
  schemaVersion := SOURCE_GATE_RECEIPT_SCHEMA_V1
  gateRevision := SOURCE_GATE_REVISION_V2
  candidateId := manifest.candidateId
  manifestDigest := manifestDigest
  passed := (sourceGateFailures manifest sources).all fun failure => failure.severity = .advisory
  inspectedArtifacts := manifest.files.map fun file => file.artifact.digest
  failures := sourceGateFailures manifest sources

end receipts

inductive CandidateBuildError where
  | sourceGateDidNotPass
  | sourceGateReceiptMismatch
  | invalidSourceSet
  | invalidSourceIdentity
  | incompleteContext
  | sourceBoundExceeded
  | duplicatePath
  | missingSourceCategory
  | attemptIdentityMismatch
  | incompleteEnvironment
  deriving DecidableEq

structure CandidateBuildFile where
  path : BundlePath
  kind : GeneratedSourceKind
  digest : Sha256Digest
  sizeBytes : Nat
  contents : String
  deriving DecidableEq

def CandidateBuildFile.new [Sha256] (path : BundlePath) (kind : GeneratedSourceKind) (digest : Sha256Digest)
    (sizeBytes : Nat) (contents : String) : Except CandidateBuildError CandidateBuildFile :=
  if path.startsWith GENERATED_ROOT = true ∧ sizeBytes ≠ 0 ∧ sizeBytes = (utf8 contents).length ∧
      digest = Sha256.digestBytes (utf8 contents) then .ok ⟨path, kind, digest, sizeBytes, contents⟩
  else .error .invalidSourceIdentity

structure CandidateBuildBundle where
  schemaVersion : Nat
  candidateId : CandidateId
  taskId : TaskId
  manifestDigest : Sha256Digest
  sourceGateReceiptDigest : Sha256Digest
  migrationSpecDigest : Sha256Digest
  generationStrategy : GenerationStrategy
  publicSymbol : String
  targetArchitecture : String
  files : List CandidateBuildFile
  deriving DecidableEq

def CANDIDATE_BUILD_BUNDLE_SCHEMA_V1 : Nat := 1

def MAX_BUILD_SOURCE_BYTES : Nat := 8 * 1024 * 1024

def CandidateBuildBundle.fromParts (candidateId : CandidateId) (taskId : TaskId) (manifestDigest : Sha256Digest)
    (sourceGateReceiptDigest : Sha256Digest) (migrationSpecDigest : Sha256Digest)
    (generationStrategy : GenerationStrategy)
    (publicSymbol targetArchitecture : String) (files : List CandidateBuildFile) :
    Except CandidateBuildError CandidateBuildBundle :=
  if isBlank publicSymbol = true ∨ isBlank targetArchitecture = true then .error .incompleteContext
  else if (files.map fun file => (utf8 file.contents).length).sum > MAX_BUILD_SOURCE_BYTES then .error
    .sourceBoundExceeded
  else if ¬ (files.map CandidateBuildFile.path).Nodup then .error .duplicatePath
  else if ∃ required ∈ GeneratedSourceKind.all, ∀ file ∈ files, file.kind ≠ required then .error .missingSourceCategory
  else .ok ⟨CANDIDATE_BUILD_BUNDLE_SCHEMA_V1, candidateId, taskId, manifestDigest, sourceGateReceiptDigest,
    migrationSpecDigest, generationStrategy, publicSymbol, targetArchitecture, files⟩

structure AscendBuildEnvironment where
  architecture : String
  cannVersion : String
  driverVersion : String
  firmwareVersion : String
  deriving DecidableEq

def AscendBuildEnvironment.isComplete (environment : AscendBuildEnvironment) : Bool :=
  [environment.architecture, environment.cannVersion, environment.driverVersion, environment.firmwareVersion].all
    fun value => !isBlank value

structure AscendBuildTerminal where
  assignmentId : AssignmentId
  attemptId : AttemptId
  outcome : AttemptOutcome
  exitCode : Option Int
  elapsedMs : Nat
  detail : String
  buildCompleted : Bool
  environment : AscendBuildEnvironment
  workerReceipt : Option ArtifactDescriptor
  stdout : Option ArtifactDescriptor
  stderr : Option ArtifactDescriptor

inductive AscendBuildAttemptObservation where
  | pending (diagnosticDigest : Sha256Digest)
  | finished (terminal : AscendBuildTerminal)

inductive AttemptError where
  | unavailable (detail : String)
  | rejected (detail : String)
  | integrity (detail : String)
  deriving DecidableEq

structure AscendBuildReceiptDocument where
  schemaVersion : Nat
  gateRevision : String
  candidateId : CandidateId
  manifestDigest : Sha256Digest
  sourceGateReceiptDigest : Sha256Digest
  assignment : AssignmentContract
  passed : Bool
  outcome : AttemptOutcome
  exitCode : Option Int
  elapsedMs : Nat
  detail : String
  environment : AscendBuildEnvironment
  workerReceipt : Option ArtifactDescriptor
  stdout : Option ArtifactDescriptor
  stderr : Option ArtifactDescriptor
  deriving DecidableEq

def ASCEND_BUILD_RECEIPT_SCHEMA_V1 : Nat := 1

def ASCEND_BUILD_GATE_REVISION_V1 : String := "ascend-build-gate-v1"

/-- What is asked of a receipt that is read. Whether a build took place cannot be asked. -/
def AscendBuildReceiptDocument.IsValid (document : AscendBuildReceiptDocument) : Prop :=
  document.schemaVersion = ASCEND_BUILD_RECEIPT_SCHEMA_V1 ∧ document.gateRevision = ASCEND_BUILD_GATE_REVISION_V1 ∧
  document.assignment.candidateId = document.candidateId ∧ document.environment.isComplete = true ∧
  (document.passed = true → document.outcome = .succeeded ∧ document.exitCode = some 0)

instance (document : AscendBuildReceiptDocument) : Decidable document.IsValid :=
  inferInstanceAs (Decidable (_ ∧ _ ∧ _ ∧ _ ∧ _))

structure AscendBuildReceipt where
  document : AscendBuildReceiptDocument
  valid : document.IsValid

def AscendBuildReceiptDocument.receipt (document : AscendBuildReceiptDocument) : Option AscendBuildReceipt :=
  if h : document.IsValid then some ⟨document, h⟩ else none

namespace AscendBuildReceipt

def passed (receipt : AscendBuildReceipt) : Bool := receipt.document.passed

def taskId (receipt : AscendBuildReceipt) : TaskId := receipt.document.assignment.taskId

def candidateId (receipt : AscendBuildReceipt) : CandidateId := receipt.document.candidateId

def manifestDigest (receipt : AscendBuildReceipt) : Sha256Digest := receipt.document.manifestDigest

def sourceGateReceiptDigest (receipt : AscendBuildReceipt) : Sha256Digest := receipt.document.sourceGateReceiptDigest

def new (bundle : CandidateBuildBundle) (assignment : AssignmentContract) (terminal : AscendBuildTerminal) :
    Except CandidateBuildError AscendBuildReceipt :=
  if hsame : assignment.assignmentId = terminal.assignmentId ∧ assignment.attemptId = terminal.attemptId ∧
      assignment.candidateId = bundle.candidateId ∧ assignment.taskId = bundle.taskId then
    if hcomplete : terminal.environment.isComplete = true ∧
        terminal.environment.architecture = bundle.targetArchitecture then
      .ok {
        document := {
          schemaVersion := ASCEND_BUILD_RECEIPT_SCHEMA_V1
          gateRevision := ASCEND_BUILD_GATE_REVISION_V1
          candidateId := bundle.candidateId
          manifestDigest := bundle.manifestDigest
          sourceGateReceiptDigest := bundle.sourceGateReceiptDigest
          assignment := assignment
          passed := terminal.outcome = .succeeded ∧ terminal.exitCode = some 0 ∧ terminal.buildCompleted = true
          outcome := terminal.outcome
          exitCode := terminal.exitCode
          elapsedMs := terminal.elapsedMs
          detail := terminal.detail
          environment := terminal.environment
          workerReceipt := terminal.workerReceipt
          stdout := terminal.stdout
          stderr := terminal.stderr }
        valid := by
          refine ⟨rfl, rfl, hsame.2.2.1, hcomplete.1, fun hpassed => ?_⟩
          obtain ⟨houtcome, hexit, -⟩ := of_decide_eq_true hpassed
          exact ⟨houtcome, hexit⟩ }
    else .error .incompleteEnvironment
  else .error .attemptIdentityMismatch

end AscendBuildReceipt

end AlloyPort.Candidate
