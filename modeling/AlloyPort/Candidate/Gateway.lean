import AlloyPort.Candidate.Submit

/-! The candidate tools, as the gateway dispatches them, and the documents that they write into the artifact store
besides the candidates. What a worker answers is an argument, and with it `execute` and `reconcile` are one. -/

namespace AlloyPort.Candidate

open Database Transaction

inductive ReferenceStatus where
  | unaudited
  | reviewed
  | validated
  | refuted
  deriving DecidableEq

structure LedgerRow where
  id : String
  family : String
  contentSha : String
  status : ReferenceStatus
  verdict : Option String
  note : Option String
  deriving DecidableEq

structure ReferenceCorpus where
  documents : List LedgerRow
  cards : List (String × List UInt8)
  present : ∀ row ∈ documents, ∃ bytes, cards.lookup row.id = some bytes

inductive InputDefect where
  | unavailable
  | undecodable (detail : String)
  | unknownReference (document : String) (known : List String)
  deriving DecidableEq

structure DiagnosticStream where
  kept : List UInt8
  totalBytes : Nat
  truncated : Bool
  deriving DecidableEq

inductive GatewayDocument where
  | sourceGateReceipt (receipt : SourceGateReceipt)
  | buildBundle (bundle : CandidateBuildBundle)
  | buildReceipt (document : AscendBuildReceiptDocument)
  | gateResult (receipt : ArtifactDescriptor) (result : List UInt8) (siblings : List (String × ArtifactDescriptor))
  | citationRejection (tool argument : String) (cited expected : Sha256Digest) (mediaType : String)
  | unresolvedCitation (tool argument : String) (cited : Sha256Digest) (expectedMediaType : String)
  | refusal (tool : String) (reason : ToolGatewayError) (guidance : String)
  | inputRejection (tool : String) (reason : InputDefect)
  | buildDiagnostics (outcome : AttemptOutcome) (exitCode : Option Int) (detail : String)
      (stdout stderr : Option DiagnosticStream)
  | referenceIndex (rows : List LedgerRow)
  | referenceDocument (row : LedgerRow) (verdictMatchesCurrentBytes : Bool) (stream : DiagnosticStream)
  | corpus (corpus : ReductionCorpus)
  | executionBundle (bundle : ReductionExecutionBundle)
  deriving DecidableEq

class GatewayJson extends CandidateJson where
  documentBytes : GatewayDocument → List UInt8
  parseBuildReceipt : List UInt8 → Option AscendBuildReceiptDocument
  buildReceiptError : List UInt8 → String

structure CorrectnessJudgement where
  calibration : List UInt8
  receipt : List UInt8
  verdict : CorrectnessVerdict

class CorrectnessOracle where
  judge : ReductionCorrectnessExperiment → (referenceBundle candidateBundle reference candidate : List UInt8) →
    Except String CorrectnessJudgement

section documents

variable [Sha256] [GatewayJson]

def parseReceipt (bytes : List UInt8) : Option AscendBuildReceipt :=
  (GatewayJson.parseBuildReceipt bytes).bind AscendBuildReceiptDocument.receipt

def sourceGateReceiptBytes (receipt : SourceGateReceipt) : List UInt8 :=
  GatewayJson.documentBytes (.sourceGateReceipt receipt)

def buildReceiptBytes (receipt : AscendBuildReceipt) : List UInt8 :=
  GatewayJson.documentBytes (.buildReceipt receipt.document)

def ingestDocument (document : GatewayDocument) : GatewayAction Sha256Digest :=
  ingestBytes (GatewayJson.documentBytes document)

structure PublishedGateResult where
  resultDigest : Sha256Digest
  receiptDigest : Sha256Digest

def describeBytes (bytes : List UInt8) (mediaType : String) : ArtifactDescriptor :=
  ⟨Sha256.digestBytes bytes, bytes.length, mediaType⟩

def SOURCE_GATE_RECEIPT_MEDIA_TYPE : String := "application/vnd.alloyport.source-gate-receipt+json"

def ASCEND_BUILD_RECEIPT_MEDIA_TYPE : String := "application/vnd.alloyport.ascend-build-receipt+json"

def CORRECTNESS_RECEIPT_MEDIA_TYPE : String := "application/vnd.alloyport.reduction-correctness-receipt+json"

def CALIBRATION_RECEIPT_MEDIA_TYPE : String := "application/vnd.alloyport.reduction-calibration-receipt+json"

def publishGateResultWith (receiptBytes : List UInt8) (mediaType : String) (also : List (String × ArtifactDescriptor)) :
    GatewayAction PublishedGateResult := do
  let receiptDigest ← ingestBytes receiptBytes
  let resultDigest ← ingestDocument (.gateResult (describeBytes receiptBytes mediaType) receiptBytes also)
  return ⟨resultDigest, receiptDigest⟩

def publishGateResult (receiptBytes : List UInt8) (mediaType : String) : GatewayAction PublishedGateResult :=
  publishGateResultWith receiptBytes mediaType []

end documents

def SUBMIT_CANDIDATE_BUNDLE_TOOL : String := "submit_candidate_bundle"

def REQUEST_SOURCE_GATE_TOOL : String := "request_source_gate"

def READ_REFERENCE_TOOL : String := "read_reference"

def READ_BUILD_DIAGNOSTICS_TOOL : String := "read_build_diagnostics"

def REQUEST_ASCEND_BUILD_TOOL : String := "request_ascend_build"

def REQUEST_REDUCTION_CORRECTNESS_TOOL : String := "request_reduction_correctness"

inductive ToolGatewayOutcome where
  | completed (completed : Completed)
  | pending (diagnosticDigest : Sha256Digest)

structure RequestAscendBuildArguments where
  manifestDigest : Sha256Digest
  sourceGateReceiptDigest : Sha256Digest

structure RequestReductionCorrectnessArguments where
  candidateId : CandidateId
  manifestDigest : Sha256Digest
  sourceGateReceiptDigest : Sha256Digest
  buildGateReceiptDigest : Sha256Digest

inductive ToolCall where
  | submitCandidateBundle (arguments : SubmitCandidateBundleArguments)
  | requestSourceGate (manifestDigest : Sha256Digest)
  | readReference (document : Option String)
  | readBuildDiagnostics (buildGateReceiptDigest : Sha256Digest)
  | requestAscendBuild (arguments : RequestAscendBuildArguments)
  | requestReductionCorrectness (arguments : RequestReductionCorrectnessArguments)

def ToolCall.name : ToolCall → String
  | .submitCandidateBundle _ => SUBMIT_CANDIDATE_BUNDLE_TOOL
  | .requestSourceGate _ => REQUEST_SOURCE_GATE_TOOL
  | .readReference _ => READ_REFERENCE_TOOL
  | .readBuildDiagnostics _ => READ_BUILD_DIAGNOSTICS_TOOL
  | .requestAscendBuild _ => REQUEST_ASCEND_BUILD_TOOL
  | .requestReductionCorrectness _ => REQUEST_REDUCTION_CORRECTNESS_TOOL

structure CandidateBuildToolConfig where
  image : ArtifactDescriptor
  timeoutMs : Nat
  limits : ResourceContract

structure CandidateCorrectnessToolConfig where
  tolerancePlanDigest : Sha256Digest
  callable : CorrectnessCallable
  corpus : ReductionCorpus
  referenceFiles : List ReductionExecutionFile

structure CandidateToolGateway where
  config : CandidateToolConfig
  build : Option CandidateBuildToolConfig
  correctness : Option CandidateCorrectnessToolConfig
  reference : Option ReferenceCorpus

structure AttemptAnswers where
  build : Except AttemptError AscendBuildAttemptObservation
  correctness : Except AttemptError ReductionCorrectnessAttemptObservation

def candidateRejected (resultDigest : Sha256Digest) : ToolGatewayOutcome :=
  .completed ⟨.candidateFailed, resultDigest, [resultDigest], false⟩

variable [Sha256] [GatewayJson]

section sources

namespace CandidateMaterialization

def readVerifiedFile (root : String) (file : CandidateSourceFile) : Materializing (BundlePath × List UInt8) := do
  let s ← read
  match (s.tree root).lookup file.path.text with
  | some (.file bytes) =>
    if describes file bytes = true then return (file.path, bytes) else raise .artifactIdentity
  | _ => raise .unsafeWorkspace

def readVerifiedFiles (root : String) : List CandidateSourceFile → Materializing Sources
  | [] => return []
  | file :: rest => do
    let source ← readVerifiedFile root file
    let sources ← readVerifiedFiles root rest
    return source :: sources

def readVerifiedSources (manifest : CandidateSourceManifest) : Materializing Sources := do
  verifyCompleteTree manifest.candidateId.text manifest
  let sources ← readVerifiedFiles manifest.candidateId.text manifest.files
  return sources.insertionSort fun l r => ¬ r.1.text < l.1.text

end CandidateMaterialization

open CandidateMaterialization

def readManifest (digest : Sha256Digest) : GatewayAction CandidateSourceManifest := do
  let bytes ← readBounded digest MAX_MANIFEST_BYTES
  match parseManifest bytes with
  | none => raise (.citation (.invalidManifest (CandidateJson.manifestError bytes)))
  | some manifest => return manifest

def materializeSources (manifest : CandidateSourceManifest) : GatewayAction Sources :=
  (do
    materialize manifest
    readVerifiedSources manifest).mapError fun error => .adapter (.materialization error)

end sources

section sourceGate

def MAX_RECEIPT_BYTES : Nat := 1024 * 1024

variable (gateway : CandidateToolGateway)

def persistGateReceipt (receipt : SourceGateReceipt) : GatewayAction ToolGatewayOutcome :=
  if (sourceGateReceiptBytes receipt).length > MAX_RECEIPT_BYTES then raise (.adapter .sourceReceiptExceedsBound)
  else do
    let published ← publishGateResult (sourceGateReceiptBytes receipt) SOURCE_GATE_RECEIPT_MEDIA_TYPE
    return .completed ⟨if receipt.passed then .succeeded else .candidateFailed, published.resultDigest,
      [published.receiptDigest], receipt.passed && gateway.build.isNone && gateway.correctness.isNone⟩

def sourceGate (manifestDigest : Sha256Digest) : GatewayAction ToolGatewayOutcome := do
  let manifest ← readManifest manifestDigest
  if gateway.config.matchesManifest manifest = true then do
    let sources ← materializeSources manifest
    persistGateReceipt gateway (evaluateSourceGate manifest sources manifestDigest)
  else raise (.citation .foreignManifest)

end sourceGate

section instruments

def MAX_DOCUMENT_BYTES : Nat := 128 * 1024

def ReferenceCorpus.contains (corpus : ReferenceCorpus) (document : String) : Bool :=
  corpus.documents.any fun row => row.id = document

def streamOf (bytes : List UInt8) (maximum : Nat) : DiagnosticStream :=
  ⟨bytes.take maximum, bytes.length, maximum < bytes.length⟩

def ReferenceCorpus.read (corpus : ReferenceCorpus) (id : String) : Except ToolGatewayError GatewayDocument :=
  match corpus.documents.find? fun row => row.id = id with
  | none => .error (.adapter (.unknownReference id))
  | some row => match corpus.cards.lookup row.id with
    | none => .error (.adapter (.unknownReference id))
    | some bytes => .ok (.referenceDocument row (toString (Sha256.digestBytes bytes) = row.contentSha)
        (streamOf bytes MAX_DOCUMENT_BYTES))

def readReference (corpus : ReferenceCorpus) (document : Option String) : GatewayAction ToolGatewayOutcome := do
  let result ← attempt (match document with
    | none => .ok (.referenceIndex corpus.documents)
    | some id => corpus.read id)
  let resultDigest ← ingestDocument result
  return .completed ⟨.succeeded, resultDigest, [], false⟩

def MAX_DIAGNOSTIC_BYTES : Nat := 64 * 1024

def MAX_SOURCE_GATE_RECEIPT_BYTES : Nat := 1024 * 1024

def readStream (descriptor : Option ArtifactDescriptor) : GatewayAction (Option DiagnosticStream) :=
  match descriptor with
  | none => return none
  | some descriptor => do
    let s ← Transaction.read
    match s.artifacts.openArtifact descriptor.digest with
    | none => raise (.adapter (.artifactNotFound descriptor.digest))
    | some bytes => return some (streamOf bytes MAX_DIAGNOSTIC_BYTES)

def readBuildDiagnostics (config : CandidateToolConfig) (receiptDigest : Sha256Digest) :
    GatewayAction ToolGatewayOutcome := do
  let receiptBytes ← readBounded receiptDigest MAX_SOURCE_GATE_RECEIPT_BYTES
  match parseReceipt receiptBytes with
  | none => do
    let resultDigest ← ingestDocument (.unresolvedCitation READ_BUILD_DIAGNOSTICS_TOOL "build_gate_receipt_digest"
      receiptDigest ASCEND_BUILD_RECEIPT_MEDIA_TYPE)
    return candidateRejected resultDigest
  | some receipt => do
    let manifest ← readManifest receipt.manifestDigest
    if config.matchesManifest manifest = true then do
      let stdout ← readStream receipt.document.stdout
      let stderr ← readStream receipt.document.stderr
      let resultDigest ← ingestDocument
        (.buildDiagnostics receipt.document.outcome receipt.document.exitCode receipt.document.detail stdout stderr)
      return .completed ⟨.succeeded, resultDigest, [], false⟩
    else raise (.citation .foreignBuildReceipt)

end instruments

section build

def buildFiles (sources : Sources) : List CandidateSourceFile → Except CandidateBuildError (List CandidateBuildFile)
  | [] => .ok []
  | source :: rest => do
    let some bytes := sources.lookup source.path | .error .invalidSourceSet
    let some contents := fromUtf8 bytes | .error .invalidSourceIdentity
    let file ← CandidateBuildFile.new source.path source.kind source.artifact.digest source.artifact.sizeBytes contents
    let files ← buildFiles sources rest
    return file :: files

def CandidateBuildBundle.new (manifest : CandidateSourceManifest)
    (manifestDigest sourceGateReceiptDigest : Sha256Digest)
    (targetArchitecture : String) (sources : Sources) : Except CandidateBuildError CandidateBuildBundle :=
  let receipt := evaluateSourceGate manifest sources manifestDigest
  if receipt.passed = true then
    if Sha256.digestBytes (sourceGateReceiptBytes receipt) = sourceGateReceiptDigest then do
      let files ← buildFiles sources manifest.files
      CandidateBuildBundle.fromParts manifest.candidateId manifest.spec.taskId manifestDigest sourceGateReceiptDigest
        manifest.spec.migrationSpecDigest manifest.spec.generationStrategy manifest.spec.publicSymbol
          targetArchitecture files
    else .error .sourceGateReceiptMismatch
  else .error .sourceGateDidNotPass

/-- The result that a build is refused with, where the cited receipt is not the one of the sources. -/
def verifySourceGateReceipt (manifest : CandidateSourceManifest) (arguments : RequestAscendBuildArguments)
    (sources : Sources) : GatewayAction (Option Sha256Digest) := do
  let supplied ← readBounded arguments.sourceGateReceiptDigest MAX_SOURCE_GATE_RECEIPT_BYTES
  let expected := evaluateSourceGate manifest sources arguments.manifestDigest
  let bytes := sourceGateReceiptBytes expected
  if expected.passed = true then
    if supplied = bytes ∧ Sha256.digestBytes supplied = arguments.sourceGateReceiptDigest then return none
    else do
      let resultDigest ← ingestDocument (.citationRejection REQUEST_ASCEND_BUILD_TOOL "source_gate_receipt_digest"
        arguments.sourceGateReceiptDigest (Sha256.digestBytes bytes) SOURCE_GATE_RECEIPT_MEDIA_TYPE)
      return some resultDigest
  else do
    let published ← publishGateResult bytes SOURCE_GATE_RECEIPT_MEDIA_TYPE
    return some published.resultDigest

def ASCEND_BUILD_BUNDLE_MEDIA_TYPE : String := "application/vnd.alloyport.ascend-build-bundle.v1+json"

def ASCEND_BUILD_FEATURE : String := "ascend-build-v1"

def buildAssignment (policy : CandidateBuildToolConfig) (operationId : ToolOperationId) (bundle : CandidateBuildBundle)
    (bundleArtifact : ArtifactDescriptor) : Except ToolGatewayError AssignmentContract :=
  let identity := utf8 "alloyport-ascend-build-attempt-v1" ++ 0 :: utf8 operationId.text ++
    bundleArtifact.digest.bytes ++ policy.image.digest.bytes
  let digest := (Sha256.digestBytes identity).hexadecimal
  match ValidatedId.tryFrom ("assignment-build-" ++ digest), ValidatedId.tryFrom ("attempt-build-" ++ digest) with
  | some assignmentId, some attemptId =>
    .ok {
      assignmentId := assignmentId
      attemptId := attemptId
      attemptNumber := 1
      idempotencyKey := "ascend-build:" ++ operationId.text
      taskId := bundle.taskId
      candidateId := bundle.candidateId
      execution := {
        executorKind := .ascendBuild
        argv := ["build-v1"]
        workingDirectory := "."
        environment := []
        timeoutMs := policy.timeoutMs
        bundle := bundleArtifact
        image := policy.image
        limits := some policy.limits }
      requiredFeatures := [ASCEND_BUILD_FEATURE] }
  | _, _ => .error (.adapter .invalidAttemptIdentity)

inductive BuildPreparation where
  | ready (bundle : CandidateBuildBundle) (assignment : AssignmentContract)
  | candidateRejected (resultDigest : Sha256Digest)

variable (config : CandidateToolConfig) (policy : CandidateBuildToolConfig) (operationId : ToolOperationId)
  (arguments : RequestAscendBuildArguments)

def prepareBuild : GatewayAction BuildPreparation := do
  let manifest ← readManifest arguments.manifestDigest
  if config.matchesManifest manifest = true then do
    let sources ← materializeSources manifest
    let rejected ← verifySourceGateReceipt manifest arguments sources
    match rejected with
    | some resultDigest => return .candidateRejected resultDigest
    | none => do
      let bundle ← attempt ((CandidateBuildBundle.new manifest arguments.manifestDigest
        arguments.sourceGateReceiptDigest
        config.targetArchitecture sources).mapError fun error => .adapter (.build error))
      let bytes := GatewayJson.documentBytes (.buildBundle bundle)
      let _ ← ingestBytes bytes
      let assignment ← attempt
        (buildAssignment policy operationId bundle (describeBytes bytes ASCEND_BUILD_BUNDLE_MEDIA_TYPE))
      return .ready bundle assignment
  else raise (.adapter .foreignManifest)

def buildStatus (receipt : AscendBuildReceipt) : ToolOperationStatus :=
  if receipt.passed then .succeeded
  else match receipt.document.outcome with
    | .candidateFailed => .candidateFailed
    | .timedOut => .timedOut
    | .cancelled => .cancelled
    | .succeeded | .infraError | .integrityViolation => .infraFailed

def observeBuild (bundle : CandidateBuildBundle) (assignment : AssignmentContract) :
    AscendBuildAttemptObservation → GatewayAction ToolGatewayOutcome
  | .pending diagnosticDigest => return .pending diagnosticDigest
  | .finished terminal => do
    let receipt ← attempt ((AscendBuildReceipt.new bundle assignment terminal).mapError fun error => .adapter
      (.build error))
    let published ← publishGateResult (buildReceiptBytes receipt) ASCEND_BUILD_RECEIPT_MEDIA_TYPE
    return .completed ⟨buildStatus receipt, published.resultDigest, [published.receiptDigest], receipt.passed⟩

def requestAscendBuild (answer : Except AttemptError AscendBuildAttemptObservation) :
    GatewayAction ToolGatewayOutcome := do
  let preparation ← prepareBuild config policy operationId arguments
  match preparation with
  | .candidateRejected resultDigest => return candidateRejected resultDigest
  | .ready bundle assignment => do
    let observation ← attempt (answer.mapError fun error => .adapter (.attempt error))
    observeBuild bundle assignment observation

end build

section correctness

def REDUCTION_EXECUTION_BUNDLE_MEDIA_TYPE : String := "application/vnd.alloyport.reduction-execution-bundle.v1+json"

def MAX_BUILD_RECEIPT_BYTES : Nat := 1024 * 1024

def MAX_RUN_RECEIPT_BYTES : Nat := 8 * 1024 * 1024

def MAX_EXECUTION_BUNDLE_BYTES : Nat := 32 * 1024 * 1024

def readBuildReceipt (config : CandidateToolConfig) (arguments : RequestReductionCorrectnessArguments) :
    GatewayAction AscendBuildReceipt := do
  let bytes ← readBounded arguments.buildGateReceiptDigest MAX_BUILD_RECEIPT_BYTES
  if Sha256.digestBytes bytes = arguments.buildGateReceiptDigest then
    match parseReceipt bytes with
    | none => raise (.citation (.invalidBuildReceipt (GatewayJson.buildReceiptError bytes)))
    | some receipt =>
      if receipt.passed = true ∧ receipt.taskId = config.taskId ∧ receipt.candidateId = arguments.candidateId ∧
          receipt.manifestDigest = arguments.manifestDigest ∧
          receipt.sourceGateReceiptDigest = arguments.sourceGateReceiptDigest then return receipt
      else raise (.citation .otherBuildReceipt)
  else raise (.citation .changedBuildReceipt)

def executionFiles : Sources → Except ToolGatewayError (List ReductionExecutionFile)
  | [] => .ok []
  | (path, bytes) :: rest => do
    let some contents := fromUtf8 bytes | .error (.adapter .candidateNotUtf8)
    let file ← (ReductionExecutionFile.new path contents).mapError fun error => .adapter (.correctness error)
    let files ← executionFiles rest
    return file :: files

def ingestExecutionBundle (bundle : ReductionExecutionBundle) : GatewayAction ArtifactDescriptor := do
  let bytes := GatewayJson.documentBytes (.executionBundle bundle)
  let _ ← ingestBytes bytes
  return describeBytes bytes REDUCTION_EXECUTION_BUNDLE_MEDIA_TYPE

variable (config : CandidateToolConfig) (policy : CandidateCorrectnessToolConfig)
  (arguments : RequestReductionCorrectnessArguments)

def corpusDigest (corpus : ReductionCorpus) : Sha256Digest :=
  Sha256.digestBytes (GatewayJson.documentBytes (.corpus corpus))

def correctnessExperiment : ReductionCorrectnessExperiment :=
  .new config.taskId arguments.candidateId config.migrationSpecDigest arguments.manifestDigest
    arguments.sourceGateReceiptDigest arguments.buildGateReceiptDigest (corpusDigest policy.corpus)
    policy.tolerancePlanDigest

def executionBundle (role : ReductionRunRole) (files : List ReductionExecutionFile) :
    Except ToolGatewayError ReductionExecutionBundle :=
  (ReductionExecutionBundle.new (correctnessExperiment config policy arguments) role policy.callable policy.corpus
    (corpusDigest policy.corpus) files).mapError fun error => .adapter (.correctness error)

def prepareCorrectness : GatewayAction ReductionCorrectnessAttemptSpec := do
  let _ ← readBuildReceipt config arguments
  let manifest ← readManifest arguments.manifestDigest
  if config.matchesManifest manifest = true ∧ manifest.candidateId = arguments.candidateId then do
    let sources ← materializeSources manifest
    let candidateFiles ← attempt (executionFiles sources)
    let referenceBundle ← attempt (executionBundle config policy arguments .cudaReference policy.referenceFiles)
    let candidateBundle ← attempt (executionBundle config policy arguments .ascendCandidate candidateFiles)
    let referenceArtifact ← ingestExecutionBundle referenceBundle
    let candidateArtifact ← ingestExecutionBundle candidateBundle
    return ⟨correctnessExperiment config policy arguments, referenceArtifact, candidateArtifact⟩
  else raise (.citation .otherManifest)

def readDescribed (descriptor : ArtifactDescriptor) (maximum : Nat) (failure : AdapterFailure) :
    GatewayAction (List UInt8) :=
  if descriptor.sizeBytes = 0 ∨ descriptor.sizeBytes > maximum then raise (.adapter failure)
  else do
    let bytes ← readBounded descriptor.digest maximum
    if bytes.length = descriptor.sizeBytes ∧ Sha256.digestBytes bytes = descriptor.digest then return bytes
    else raise (.adapter failure)

def correctnessStatus : CorrectnessVerdict → ToolOperationStatus
  | .pass => .succeeded
  | .fail => .candidateFailed
  | .unverifiable | .infraError => .infraFailed

def observeCorrectness [CorrectnessOracle] (spec : ReductionCorrectnessAttemptSpec) :
    ReductionCorrectnessAttemptObservation → GatewayAction ToolGatewayOutcome
  | .pending diagnosticDigest => return .pending diagnosticDigest
  | .finished referenceRun candidateRun => do
    let reference ← readDescribed referenceRun MAX_RUN_RECEIPT_BYTES (.invalidRunReceipt "CUDA reference")
    let candidate ← readDescribed candidateRun MAX_RUN_RECEIPT_BYTES (.invalidRunReceipt "Ascend candidate")
    let referenceBundle ← readDescribed spec.referenceBundle MAX_EXECUTION_BUNDLE_BYTES .invalidExecutionBundle
    let candidateBundle ← readDescribed spec.candidateBundle MAX_EXECUTION_BUNDLE_BYTES .invalidExecutionBundle
    let judgement ← attempt
      ((CorrectnessOracle.judge spec.experiment referenceBundle candidateBundle reference candidate).mapError
        fun detail => .adapter (.oracle detail))
    let calibrationDigest ← ingestBytes judgement.calibration
    let published ← publishGateResultWith judgement.receipt CORRECTNESS_RECEIPT_MEDIA_TYPE
      [("calibration", describeBytes judgement.calibration CALIBRATION_RECEIPT_MEDIA_TYPE)]
    return .completed ⟨correctnessStatus judgement.verdict, published.resultDigest,
      [calibrationDigest, published.receiptDigest], judgement.verdict = .pass⟩

def requestReductionCorrectness [CorrectnessOracle]
    (answer : Except AttemptError ReductionCorrectnessAttemptObservation) : GatewayAction ToolGatewayOutcome := do
  let spec ← prepareCorrectness config policy arguments
  let observation ← attempt (answer.mapError fun error => .adapter (.attempt error))
  observeCorrectness spec observation

end correctness

section dispatch

def publishRecoverable (tool : String) (reason : ToolGatewayError) (guidance : String) :
    GatewayAction ToolGatewayOutcome := do
  let resultDigest ← ingestDocument (.refusal tool reason guidance)
  return .completed ⟨.candidateFailed, resultDigest, [], false⟩

def recoverCitations (tool : String) (action : GatewayAction ToolGatewayOutcome) : GatewayAction ToolGatewayOutcome :=
  action.recover fun
    | .citation failure => some (publishRecoverable tool (.citation failure)
        "nothing was built, run, or changed. Reissue this call naming a value an earlier tool result gave you.")
    | _ => none

def asInstrument (tool : String) (action : GatewayAction ToolGatewayOutcome) : GatewayAction ToolGatewayOutcome :=
  action.recover fun
    | .adapter failure => some (publishRecoverable tool (.adapter failure)
        ("this tool only reports; nothing was built, run, or changed. Correct the arguments " ++
          "and reissue, or continue without it."))
    | _ => none

variable (gateway : CandidateToolGateway)

def descriptorExists : ToolCall → Bool
  | .submitCandidateBundle _ | .requestSourceGate _ => true
  | .readReference _ => gateway.reference.isSome
  | .readBuildDiagnostics _ | .requestAscendBuild _ => gateway.build.isSome
  | .requestReductionCorrectness _ => gateway.correctness.isSome

def checkReferents (call : ToolCall) : Except InputDefect Unit :=
  match gateway.reference, call with
  | some corpus, .readReference (some document) =>
    if corpus.contains document = true then .ok ()
    else .error (.unknownReference document (corpus.documents.map LedgerRow.id))
  | _, _ => .ok ()

def validateCall (call : ToolCall) : Except InputDefect Unit :=
  if descriptorExists gateway call = true then checkReferents gateway call else .error .unavailable

def invoke (call : ToolCall) : GatewayAction ToolGatewayOutcome :=
  recoverCitations call.name (match call with
    | .submitCandidateBundle arguments => do
      let completed ← submit gateway.config arguments
      return .completed completed
    | .requestSourceGate manifestDigest => sourceGate gateway manifestDigest
    | .readReference document => match gateway.reference with
      | none => raise .unexpectedRequest
      | some corpus => asInstrument call.name (readReference corpus document)
    | .readBuildDiagnostics receiptDigest => asInstrument call.name (readBuildDiagnostics gateway.config receiptDigest)
    | _ => raise .unexpectedRequest)

def requireDownstreamGate (downstreamEnabled : Bool) : ToolGatewayOutcome → ToolGatewayOutcome
  | .completed completed => .completed { completed with
    satisfiesSubtask := completed.satisfiesSubtask && !downstreamEnabled }
  | .pending diagnosticDigest => .pending diagnosticDigest

def execute [CorrectnessOracle] (operationId : ToolOperationId) (call : ToolCall) (answers : AttemptAnswers) :
    GatewayAction ToolGatewayOutcome :=
  match call with
  | .requestAscendBuild arguments => match gateway.build with
    | none => raise .unexpectedRequest
    | some policy => do
      let outcome ← requestAscendBuild gateway.config policy operationId arguments answers.build
      return requireDownstreamGate gateway.correctness.isSome outcome
  | .requestReductionCorrectness arguments => match gateway.correctness with
    | none => raise .unexpectedRequest
    | some policy => requestReductionCorrectness gateway.config policy arguments answers.correctness
  | _ => invoke gateway call

end dispatch

end AlloyPort.Candidate
