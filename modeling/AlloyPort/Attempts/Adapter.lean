import AlloyPort.Candidate.Gateway
import AlloyPort.Oracle.Receipt
import AlloyPort.Service.Operation

/-! The build attempts of the candidate tools over the worker control: what is stored of an attempt, read as
the answer of the attempt port. The artifact store is without I/O failures. -/

namespace AlloyPort.Attempts

open Candidate Framing Oracle Database

def AttemptState.code : AttemptState → Nat
  | .preparing => 10
  | .dispatchable => 1
  | .sent => 2
  | .accepted => 3
  | .running => 4
  | .finished => 5
  | .rejected => 6
  | .leaseExpired => 7
  | .cancelRequested => 8
  | .cancelled => 9

def AttemptOutcome.asStrName : AttemptOutcome → String
  | .succeeded => "ATTEMPT_OUTCOME_SUCCEEDED"
  | .candidateFailed => "ATTEMPT_OUTCOME_CANDIDATE_FAILED"
  | .timedOut => "ATTEMPT_OUTCOME_TIMED_OUT"
  | .cancelled => "ATTEMPT_OUTCOME_CANCELLED"
  | .infraError => "ATTEMPT_OUTCOME_INFRA_ERROR"
  | .integrityViolation => "ATTEMPT_OUTCOME_INTEGRITY_VIOLATION"

def MAX_WORKER_RECEIPT_BYTES : Nat := 1024 * 1024

structure WorkerReceipt where
  schemaVersion : Nat
  assignmentId : String
  attemptId : String
  taskId : String
  candidateId : String
  bundleDigest : String
  imageDigest : String
  outcome : String
  exitCode : Option Int
  elapsedMs : Nat

structure BuildReceiptProjection extends WorkerReceipt where
  environment : AscendBuildEnvironment

structure RunReceiptProjection extends WorkerReceipt where
  stdoutDigest : Sha256Digest

/-- The JSON library the adapters read with, and what the store says of an object that it does not have. -/
class AttemptJson where
  parseBuildReceipt : List UInt8 → Except String BuildReceiptProjection
  parseRunReceipt : List UInt8 → Except String RunReceiptProjection
  parseBundle : List UInt8 → Except String ReductionExecutionBundle
  parseRun : List UInt8 → Except String ReductionRunReceipt
  missing : Sha256Digest → String

def enqueueErrorText : EnqueueError → String
  | .invalid detail => detail
  | .conflictingAttempt attempt => s!"attempt {attempt} was reused with different content"
  | .repository error => error.display
  | .interaction error => error.display
  | .artifact detail => s!"assignment Artifact error: {detail}"

def enqueueError (error : EnqueueError) : AttemptError := .unavailable (enqueueErrorText error)

section receipts

/-- The fields that a receipt shares with its assignment and its terminal observation. -/
def WorkerReceipt.Matches (receipt : WorkerReceipt) (schema : Nat) (assignment : AssignmentContract)
    (finished : FinishedObservation) : Prop :=
  receipt.schemaVersion = schema ∧ receipt.assignmentId = assignment.assignmentId.text ∧
    receipt.attemptId = assignment.attemptId.text ∧ receipt.taskId = assignment.taskId.text ∧
    receipt.candidateId = assignment.candidateId.text ∧ receipt.outcome = AttemptOutcome.asStrName finished.outcome ∧
    receipt.exitCode = finished.exitCode ∧ receipt.elapsedMs = finished.elapsedMs

instance (receipt : WorkerReceipt) (schema : Nat) (assignment : AssignmentContract) (finished : FinishedObservation) :
    Decidable (receipt.Matches schema assignment finished) :=
  inferInstanceAs (Decidable (_ ∧ _ ∧ _ ∧ _ ∧ _ ∧ _ ∧ _ ∧ _))

def validateWorkerReceipt (receipt : WorkerReceipt) (schema : Nat) (assignment : AssignmentContract)
    (finished : FinishedObservation) (also : Bool) (mismatch : String) : Except AttemptError Unit := do
  let bundleDigest ← (Sha256Digest.fromStr receipt.bundleDigest).mapError fun error => .integrity error.display
  let imageDigest ← (Sha256Digest.fromStr receipt.imageDigest).mapError fun error => .integrity error.display
  if receipt.Matches schema assignment finished ∧ bundleDigest = assignment.execution.bundle.digest ∧
      imageDigest = assignment.execution.image.digest ∧ also = true then .ok ()
  else .error (.integrity mismatch)

variable [Sha256] [AttemptJson]

def openArtifact (artifacts : ArtifactStore) (digest : Sha256Digest) : Except AttemptError (List UInt8) :=
  match artifacts.openArtifact digest with
  | none => .error (.unavailable (AttemptJson.missing digest))
  | some bytes => .ok bytes

def readWorkerReceipt (artifacts : ArtifactStore) (descriptor : ArtifactDescriptor) :
    Except AttemptError BuildReceiptProjection := do
  let bytes ← openArtifact artifacts descriptor.digest
  if bytes.length ≠ descriptor.sizeBytes ∨ descriptor.sizeBytes > MAX_WORKER_RECEIPT_BYTES then
    .error (.integrity "worker receipt descriptor is invalid")
  else if Sha256.digestBytes bytes ≠ descriptor.digest then .error (.integrity "worker receipt bytes changed")
  else (AttemptJson.parseBuildReceipt bytes).mapError .integrity

end receipts

structure WorkerBuildAttemptAdapter where
  workerId : String

namespace WorkerBuildAttemptAdapter

def stored (attemptId : String) (db : ControlDatabase) :
    Except AttemptError (Option AssignmentRecord × Option FinishedObservation) := do
  let record ← ((SqliteControlRepository.assignment attemptId).run db).2.mapError fun error =>
    .unavailable error.display
  let finished ← ((SqliteControlRepository.finishedObservation attemptId).run db).2.mapError fun error =>
    .unavailable error.display
  return (record, finished)

variable (adapter : WorkerBuildAttemptAdapter)

def validateRecord (record : AssignmentRecord) (assignment : AssignmentContract) : Except AttemptError Unit :=
  if record.workerId ≠ adapter.workerId ∨ record.contract ≠ assignment then
    .error (.integrity "build assignment identity changed after dispatch")
  else .ok ()

def lookup (db : ControlDatabase) (assignment : AssignmentContract) :
    Except AttemptError (Option (AssignmentRecord × Option FinishedObservation)) := do
  let (record, finished) ← stored assignment.attemptId.text db
  match record with
  | none => return none
  | some record => do
    adapter.validateRecord record assignment
    return some (record, finished)

def buildTerminal (assignment : AssignmentContract) (finished : FinishedObservation)
    (projection : BuildReceiptProjection) : AscendBuildTerminal where
  assignmentId := assignment.assignmentId
  attemptId := assignment.attemptId
  outcome := finished.outcome
  exitCode := finished.exitCode
  elapsedMs := finished.elapsedMs
  detail := finished.detail
  buildCompleted := finished.outcome = .succeeded ∧ finished.exitCode = some 0
  environment := projection.environment
  workerReceipt := finished.receipt
  stdout := finished.stdout
  stderr := finished.stderr

variable [Sha256] [AttemptJson] (artifacts : ArtifactStore)

def pendingDigest (record : AssignmentRecord) : Sha256Digest :=
  Sha256.digestBytes (utf8 "alloyport-build-pending-v1" ++ 0 :: utf8 record.contract.attemptId.text ++
    beBytes 8 (AttemptState.code record.state) ++ beBytes 8 record.updatedAtMs)

def terminal (assignment : AssignmentContract) (finished : FinishedObservation) :
    Except AttemptError AscendBuildAttemptObservation := do
  let some descriptor := finished.receipt | .error (.integrity "build attempt lacks worker receipt")
  let projection ← readWorkerReceipt artifacts descriptor
  validateWorkerReceipt projection.toWorkerReceipt 2 assignment finished true
    "worker receipt does not match the terminal build observation"
  return .finished (buildTerminal assignment finished projection)

def observeStored (assignment : AssignmentContract) (record : AssignmentRecord)
    (finished : Option FinishedObservation) : Except AttemptError AscendBuildAttemptObservation :=
  match record.state, finished with
  | .finished, some finished => terminal artifacts assignment finished
  | .rejected, _ | .cancelled, _ => .error (.rejected s!"build attempt became {record.state.debug}")
  | .leaseExpired, _ => .error (.unavailable "build attempt lease expired")
  | .finished, none => .error (.integrity "finished build attempt lacks terminal observation")
  | _, _ => .ok (.pending (pendingDigest record))

def observe (db : ControlDatabase) (assignment : AssignmentContract) :
    Except AttemptError AscendBuildAttemptObservation := do
  let found ← adapter.lookup db assignment
  match found with
  | none => .error (.integrity "dispatched build assignment is missing")
  | some (record, finished) => observeStored artifacts assignment record finished

/-- `enqueued` is what the control plane answers to the assignment, `db` what it leaves. -/
def dispatchOrObserve (enqueued : Except EnqueueError Unit) (db : ControlDatabase) (assignment : AssignmentContract) :
    Except AttemptError AscendBuildAttemptObservation := do
  enqueued.mapError enqueueError
  adapter.observe artifacts db assignment

def reconcile (enqueued : Except EnqueueError Unit × ControlDatabase) (db : ControlDatabase)
    (assignment : AssignmentContract) : Except AttemptError AscendBuildAttemptObservation := do
  let found ← adapter.lookup db assignment
  match found with
  | some (record, finished) => observeStored artifacts assignment record finished
  | none => adapter.dispatchOrObserve artifacts enqueued.1 enqueued.2 assignment

end WorkerBuildAttemptAdapter

/-! The correctness attempts of the candidate tools: one assignment for the reference and one for the
candidate, enqueued again whenever the pair is looked at. -/

def RUNNER_ARGV : String := "reduction-correctness-v1"

def CUDA_REDUCTION_CORRECTNESS_FEATURE : String := "cuda-reduction-correctness-v1"

def ASCEND_REDUCTION_CORRECTNESS_FEATURE : String := "ascend-reduction-correctness-v1"

structure CorrectnessWorkerTarget where
  workerId : String
  image : ArtifactDescriptor
  limits : ResourceContract
  timeoutMs : Nat

structure WorkerCorrectnessAttemptAdapter where
  cuda : CorrectnessWorkerTarget
  ascend : CorrectnessWorkerTarget
  distinct : cuda.workerId ≠ ascend.workerId

structure RoleFacts where
  name : String
  executorKind : ExecutionKind
  feature : String

def roleFacts : ReductionRunRole → RoleFacts
  | .cudaReference => ⟨"cuda-reference", .cudaCorrectness, CUDA_REDUCTION_CORRECTNESS_FEATURE⟩
  | .ascendCandidate => ⟨"ascend-candidate", .ascendCorrectness, ASCEND_REDUCTION_CORRECTNESS_FEATURE⟩

def expectedSchema : ExecutionKind → Option Nat
  | .cudaCorrectness => some 3
  | .ascendCorrectness => some 2
  | _ => none

section assignments

variable [Sha256]

def correctnessAssignment (spec : ReductionCorrectnessAttemptSpec) (role : ReductionRunRole)
    (bundle : ArtifactDescriptor) (target : CorrectnessWorkerTarget) : Except AttemptError AssignmentContract :=
  if bundle.mediaType ≠ REDUCTION_EXECUTION_BUNDLE_MEDIA_TYPE ∨ bundle.sizeBytes = 0 ∨
      bundle.sizeBytes > MAX_EXECUTION_BUNDLE_BYTES then
    .error (.rejected "invalid correctness execution bundle descriptor")
  else
    let facts := roleFacts role
    let digest := (Sha256.digestBytes (utf8 "alloyport-correctness-assignment-v1" ++
      0 :: spec.experiment.experimentDigest.bytes ++ utf8 facts.name ++ bundle.digest.bytes ++
      target.image.digest.bytes)).hexadecimal
    match ValidatedId.tryFrom ("assignment-" ++ facts.name ++ "-" ++ digest),
        ValidatedId.tryFrom ("attempt-" ++ facts.name ++ "-" ++ digest) with
    | some assignmentId, some attemptId =>
      .ok {
        assignmentId := assignmentId
        attemptId := attemptId
        attemptNumber := 1
        idempotencyKey := "reduction-correctness:" ++ facts.name ++ ":" ++ toString spec.experiment.experimentDigest
        taskId := spec.experiment.taskId
        candidateId := spec.experiment.candidateId
        execution := {
          executorKind := facts.executorKind
          argv := [RUNNER_ARGV]
          workingDirectory := "."
          environment := []
          timeoutMs := target.timeoutMs
          bundle := bundle
          image := target.image
          limits := some target.limits }
        requiredFeatures := [facts.feature] }
    | _, _ => .error (.rejected "identity is empty")

end assignments

def rejectTerminalState (record : AssignmentRecord) : Except AttemptError Unit :=
  match record.state with
  | .rejected | .cancelled => .error (.rejected s!"correctness attempt became {record.state.debug}")
  | .leaseExpired => .error (.unavailable "correctness attempt lease expired")
  | _ => .ok ()

def validateStructuredRun (spec : ReductionCorrectnessAttemptSpec) (role : ReductionRunRole)
    (bundle : ReductionExecutionBundle) (run : ReductionRunReceipt) : Except AttemptError Unit :=
  if bundle.role ≠ role ∨ bundle.experiment ≠ spec.experiment ∨ run.role ≠ role ∨
      run.experimentDigest ≠ spec.experiment.experimentDigest ∨ run.candidateId ≠ role.candidate spec.experiment ∨
      run.corpusDigest ≠ spec.experiment.corpusDigest ∨ run.implementationDigest ≠ bundle.implementationDigest then
    .error (.integrity "structured run receipt does not match its correctness assignment")
  else .ok ()

section artifacts

variable [Sha256] [AttemptJson]

def readJsonArtifact {α : Type} (parse : List UInt8 → Except String α) (artifacts : ArtifactStore)
    (descriptor : ArtifactDescriptor) (maxBytes : Nat) : Except AttemptError α :=
  if descriptor.sizeBytes = 0 ∨ descriptor.sizeBytes > maxBytes then
    .error (.integrity "structured correctness Artifact descriptor is invalid")
  else do
    let bytes ← openArtifact artifacts descriptor.digest
    if bytes.length ≠ descriptor.sizeBytes then .error (.integrity "structured correctness Artifact size changed")
    else if Sha256.digestBytes bytes ≠ descriptor.digest then
      .error (.integrity "structured correctness Artifact identity changed")
    else (parse bytes).mapError .integrity

def validateRunReceipt (receipt : RunReceiptProjection) (assignment : AssignmentContract)
    (finished : FinishedObservation) (stdout : ArtifactDescriptor) : Except AttemptError Unit :=
  match expectedSchema assignment.execution.executorKind with
  | none => .error (.integrity "unexpected correctness executor kind")
  | some schema => validateWorkerReceipt receipt.toWorkerReceipt schema assignment finished
      (receipt.stdoutDigest = stdout.digest) "worker receipt does not match the terminal correctness observation"

def pairPendingDigest (reference candidate : AssignmentRecord) : Sha256Digest :=
  Sha256.digestBytes (utf8 "alloyport-correctness-pending-v1" ++ 0 :: [reference, candidate].flatMap fun record =>
    utf8 record.contract.attemptId.text ++ beBytes 8 (AttemptState.code record.state) ++ beBytes 8 record.updatedAtMs)

end artifacts

namespace WorkerCorrectnessAttemptAdapter

variable (adapter : WorkerCorrectnessAttemptAdapter)

def lookup (db : ControlDatabase) (assignment : AssignmentContract) (workerId : String) :
    Except AttemptError (Option (AssignmentRecord × Option FinishedObservation)) := do
  let (record, finished) ← WorkerBuildAttemptAdapter.stored assignment.attemptId.text db
  match record with
  | none => return none
  | some record =>
    if record.workerId ≠ workerId ∨ record.contract ≠ assignment then
      .error (.integrity "correctness assignment identity changed after dispatch")
    else return some (record, finished)

variable [Sha256] [AttemptJson] (artifacts : ArtifactStore)

def assignments (spec : ReductionCorrectnessAttemptSpec) :
    Except AttemptError (AssignmentContract × AssignmentContract) := do
  let reference ← correctnessAssignment spec .cudaReference spec.referenceBundle adapter.cuda
  let candidate ← correctnessAssignment spec .ascendCandidate spec.candidateBundle adapter.ascend
  return (reference, candidate)

def terminalRun (spec : ReductionCorrectnessAttemptSpec) (assignment : AssignmentContract) (role : ReductionRunRole)
    (bundleDescriptor : ArtifactDescriptor) (finished : FinishedObservation) : Except AttemptError ArtifactDescriptor :=
  if finished.outcome ≠ .succeeded ∨ finished.exitCode ≠ some 0 then
    match finished.outcome with
    | .candidateFailed => .error (.rejected finished.detail)
    | _ => .error (.unavailable finished.detail)
  else do
    let some workerReceipt := finished.receipt | .error (.integrity "correctness attempt lacks worker receipt")
    let some runDescriptor := finished.stdout |
      .error (.integrity "correctness attempt lacks structured stdout receipt")
    let worker ← readJsonArtifact AttemptJson.parseRunReceipt artifacts workerReceipt MAX_WORKER_RECEIPT_BYTES
    validateRunReceipt worker assignment finished runDescriptor
    let bundle ← readJsonArtifact AttemptJson.parseBundle artifacts bundleDescriptor MAX_EXECUTION_BUNDLE_BYTES
    let run ← readJsonArtifact AttemptJson.parseRun artifacts runDescriptor MAX_RUN_RECEIPT_BYTES
    validateStructuredRun spec role bundle run
    return runDescriptor

def observeRecords (spec : ReductionCorrectnessAttemptSpec) (assignments : AssignmentContract × AssignmentContract)
    (reference candidate : AssignmentRecord × Option FinishedObservation) :
    Except AttemptError ReductionCorrectnessAttemptObservation := do
  rejectTerminalState reference.1
  rejectTerminalState candidate.1
  match reference.2, candidate.2 with
  | some referenceFinished, some candidateFinished =>
    if reference.1.state = .finished ∧ candidate.1.state = .finished then do
      let referenceRun ← terminalRun artifacts spec assignments.1 .cudaReference spec.referenceBundle referenceFinished
      let candidateRun ← terminalRun artifacts spec assignments.2 .ascendCandidate spec.candidateBundle
        candidateFinished
      return .finished referenceRun candidateRun
    else return .pending (pairPendingDigest reference.1 candidate.1)
  | _, _ => return .pending (pairPendingDigest reference.1 candidate.1)

def observePair (db : ControlDatabase) (spec : ReductionCorrectnessAttemptSpec)
    (assignments : AssignmentContract × AssignmentContract) :
    Except AttemptError ReductionCorrectnessAttemptObservation := do
  let reference ← lookup db assignments.1 adapter.cuda.workerId
  let candidate ← lookup db assignments.2 adapter.ascend.workerId
  match reference, candidate with
  | some reference, some candidate => observeRecords artifacts spec assignments reference candidate
  | _, _ => .error (.integrity "dispatched correctness assignment is missing")

/-- `enqueued` is what the control plane answers to the two assignments, `db` what they leave. This is `reconcile` as
well. -/
def dispatchOrObserve (enqueued : Except EnqueueError Unit × Except EnqueueError Unit) (db : ControlDatabase)
    (spec : ReductionCorrectnessAttemptSpec) : Except AttemptError ReductionCorrectnessAttemptObservation := do
  let assignments ← adapter.assignments spec
  enqueued.1.mapError enqueueError
  enqueued.2.mapError enqueueError
  adapter.observePair artifacts db spec assignments

end WorkerCorrectnessAttemptAdapter

end AlloyPort.Attempts
