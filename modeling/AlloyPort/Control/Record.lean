import AlloyPort.Identity
import Mathlib.Data.List.AList

/-! The control plane's durable records: assignments and their attempts, leases, observations,
reassignments, connections and the frames sent over them. A table is an association list by its
primary key. -/

namespace AlloyPort

inductive AttemptState where
  | preparing
  | dispatchable
  | sent
  | accepted
  | running
  | finished
  | rejected
  | leaseExpired
  | cancelRequested
  | cancelled
  deriving DecidableEq

def AttemptState.isReplayable : AttemptState → Bool
  | .dispatchable | .sent | .accepted | .running | .cancelRequested => true
  | _ => false

inductive RepositoryError where
  | storage (detail : String)
  | encoding (detail : String)
  | lockPoisoned
  | notFound (attempt : String)
  | identityMismatch (attempt : String)
  | invalidIdentity (detail : String)
  | invalidTransition (source target : AttemptState)
  | conflictingAttempt (attempt : String)
  | corrupt (detail : String)
  deriving DecidableEq

structure ArtifactDescriptor where
  digest : Sha256Digest
  sizeBytes : Nat
  mediaType : String
  deriving DecidableEq

inductive ExecutionKind where
  | process
  | container
  | shell
  | cudaFixture
  | ascendFixture
  | ascendBuild
  | cudaCorrectness
  | ascendCorrectness
  deriving DecidableEq

def ExecutionKind.asStrName : ExecutionKind → String
  | .process => "EXECUTOR_KIND_PROCESS"
  | .container => "EXECUTOR_KIND_CONTAINER"
  | .shell => "EXECUTOR_KIND_SHELL"
  | .cudaFixture => "EXECUTOR_KIND_CUDA_FIXTURE"
  | .ascendFixture => "EXECUTOR_KIND_ASCEND_FIXTURE"
  | .ascendBuild => "EXECUTOR_KIND_ASCEND_BUILD"
  | .cudaCorrectness => "EXECUTOR_KIND_CUDA_CORRECTNESS"
  | .ascendCorrectness => "EXECUTOR_KIND_ASCEND_CORRECTNESS"

def ExecutionKind.debug : ExecutionKind → String
  | .process => "Process"
  | .container => "Container"
  | .shell => "Shell"
  | .cudaFixture => "CudaFixture"
  | .ascendFixture => "AscendFixture"
  | .ascendBuild => "AscendBuild"
  | .cudaCorrectness => "CudaCorrectness"
  | .ascendCorrectness => "AscendCorrectness"

inductive NetworkPolicy where
  | unspecified
  | disabled
  | dependencyFetch
  deriving DecidableEq

structure EnvironmentEntry where
  name : String
  value : String
  deriving DecidableEq

structure ResourceContract where
  cpuMillis : Nat
  memoryBytes : Nat
  diskBytes : Nat
  processCount : Nat
  outputBytes : Nat
  deviceCount : Nat
  network : NetworkPolicy
  deriving DecidableEq

structure ExecutionContract where
  executorKind : ExecutionKind
  argv : List String
  workingDirectory : String
  environment : List EnvironmentEntry
  timeoutMs : Nat
  bundle : ArtifactDescriptor
  image : ArtifactDescriptor
  limits : Option ResourceContract
  deriving DecidableEq

structure AssignmentContract where
  assignmentId : AssignmentId
  attemptId : AttemptId
  attemptNumber : Nat
  idempotencyKey : String
  taskId : TaskId
  candidateId : CandidateId
  execution : ExecutionContract
  requiredFeatures : List String
  deriving DecidableEq

structure AssignmentRecord where
  workerId : String
  contract : AssignmentContract
  state : AttemptState
  createdAtMs : Nat
  updatedAtMs : Nat
  cancellationReason : Option String
  deriving DecidableEq

inductive AttemptOutcome where
  | succeeded
  | candidateFailed
  | timedOut
  | cancelled
  | infraError
  | integrityViolation
  deriving DecidableEq

inductive RejectionReason where
  | invalid
  | unsupported
  | policy
  | capacity
  | conflict
  deriving DecidableEq

structure FinishedObservation where
  outcome : AttemptOutcome
  exitCode : Option Int
  elapsedMs : Nat
  receipt : Option ArtifactDescriptor
  stdout : Option ArtifactDescriptor
  stderr : Option ArtifactDescriptor
  detail : String
  deriving DecidableEq

inductive AttemptObservation where
  | accepted (alreadyKnown : Bool)
  | rejected (reason : RejectionReason) (detail : String)
  | started
  | finished (finished : FinishedObservation)
  | cancellationAcknowledged (alreadyTerminal : Bool)

def AttemptObservation.targetState : AttemptObservation → Option AttemptState
  | .accepted _ => some .accepted
  | .rejected _ _ => some .rejected
  | .started => some .running
  | .finished _ => some .finished
  | .cancellationAcknowledged _ => none

structure ObservedAttempt where
  assignmentId : AssignmentId
  attemptId : AttemptId
  workerId : String
  observedAtMs : Nat
  observation : AttemptObservation

inductive ObservationDisposition where
  | applied
  | duplicate
  | stale
  deriving DecidableEq

inductive StoreAssignmentOutcome where
  | inserted
  | duplicate
  deriving DecidableEq

inductive CancellationStoreOutcome where
  | requested
  | duplicate
  | cancelledBeforeSend
  | alreadyTerminal
  deriving DecidableEq

structure CancellationRecord where
  workerId : String
  outcome : CancellationStoreOutcome

structure ReassignmentRecord where
  outcome : StoreAssignmentOutcome
  assignment : AssignmentRecord
  deriving DecidableEq

inductive ServerFrameKind where
  | assignment
  | cancel
  deriving DecidableEq

structure ServerOutboxFrame where
  connectionId : String
  sequence : Nat
  messageId : String
  workerId : String
  kind : ServerFrameKind
  attemptId : Option String

structure AssignmentDeliveryPreparation where
  frame : ServerOutboxFrame
  leaseId : String
  lastWorkerSequence : Nat
  lastServerAcknowledgedByWorker : Nat
  nowMs : Nat
  leaseDurationMs : Nat

structure ConnectionRegistration where
  connectionId : String
  workerId : String
  instanceId : String
  connectedAtMs : Nat

structure WorkerRegistration where
  workerId : String
  registration : String

structure AssignmentRow where
  assignmentId : String
  workerId : String
  contract : AssignmentContract
  state : AttemptState
  createdAtMs : Nat
  updatedAtMs : Nat
  lastSentAtMs : Option Nat
  cancellationReason : Option String

structure LeaseRow where
  leaseId : String
  workerId : String
  grantedAtMs : Nat
  renewedAtMs : Nat
  expiresAtMs : Nat
  expiredAtMs : Option Nat

structure ObservationRow where
  attemptId : String
  workerId : String
  observedAtMs : Nat
  disposition : ObservationDisposition
  observation : AttemptObservation

structure ReassignmentRow where
  replacementAttemptId : String
  replacementWorkerId : String
  createdAtMs : Nat
  deriving DecidableEq

structure OutboxRow where
  frame : ServerOutboxFrame
  createdAtMs : Nat
  acknowledgedAtMs : Option Nat

structure ConnectionRow where
  workerId : String
  instanceId : String
  connectedAtMs : Nat
  disconnectedAtMs : Option Nat
  lastWorkerSequence : Nat
  lastServerSequence : Nat
  lastServerAcknowledgedByWorker : Nat

structure WorkerRow where
  registration : String
  registeredAtMs : Nat
  lastSeenAtMs : Nat

structure ControlDatabase where
  workers : AList fun _ : String => WorkerRow
  connections : AList fun _ : String => ConnectionRow
  assignments : AList fun _ : String => AssignmentRow
  reassignments : AList fun _ : String => ReassignmentRow
  leases : AList fun _ : String => LeaseRow
  observations : List ObservationRow
  outbox : List OutboxRow

def ControlDatabase.empty : ControlDatabase := ⟨∅, ∅, ∅, ∅, ∅, [], []⟩

def AssignmentRow.record (row : AssignmentRow) : AssignmentRecord :=
  ⟨row.workerId, row.contract, row.state, row.createdAtMs, row.updatedAtMs, row.cancellationReason⟩

def ObservationRow.finished? (row : ObservationRow) : Option FinishedObservation :=
  match row.observation with
  | .finished finished => some finished
  | _ => none

def saturatingAdd (a b : Nat) : Nat := min (a + b) (2 ^ 64 - 1)

/-- SQLite integers are signed; stored timestamps are never negative, so they are read as they are. -/
def toI64 (value : Nat) : Except RepositoryError Nat :=
  if value < 2 ^ 63 then .ok value else .error (.corrupt s!"timestamp {value} exceeds SQLite range")

def sampleExecution : ExecutionContract where
  executorKind := .container
  argv := ["cmake"]
  workingDirectory := "source"
  environment := []
  timeoutMs := 30000
  bundle := ⟨⟨[1]⟩, 1, "application/octet-stream"⟩
  image := ⟨⟨[2]⟩, 1, "application/octet-stream"⟩
  limits := none

def sampleContract : AssignmentContract where
  assignmentId := ⟨"assignment", by decide⟩
  attemptId := ⟨"attempt", by decide⟩
  attemptNumber := 1
  idempotencyKey := "key"
  taskId := ⟨"task", by decide⟩
  candidateId := ⟨"candidate", by decide⟩
  execution := sampleExecution
  requiredFeatures := []

def sampleFinished (detail : String) : FinishedObservation := ⟨.succeeded, some 0, 5, none, none, none, detail⟩

end AlloyPort
