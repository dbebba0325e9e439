import AlloyPort.Control.Record

/-! What the worker control service speaks and keeps in memory: the frames of both directions, the
status codes it answers with, and the record of a connected worker. An assignment on the wire is
its contract. -/

namespace AlloyPort

inductive Code where
  | invalidArgument
  | notFound
  | permissionDenied
  | resourceExhausted
  | failedPrecondition
  | aborted
  | internal
  | unavailable
  | dataLoss
  | unauthenticated

structure Status where
  code : Code
  message : String

def protocolMajor : Nat := 1

def protocolMinor : Nat := 7

def maxOutputPreviewChunkBytes : Nat := 64 * 1024

def heartbeatIntervalMs : Nat := 5000

def attemptLeaseMs : Nat := 30000

def outboxOrphanRetentionMs : Nat := 7 * 24 * 60 * 60 * 1000

def AttemptState.debug : AttemptState → String
  | .preparing => "Preparing"
  | .dispatchable => "Dispatchable"
  | .sent => "Sent"
  | .accepted => "Accepted"
  | .running => "Running"
  | .finished => "Finished"
  | .rejected => "Rejected"
  | .leaseExpired => "LeaseExpired"
  | .cancelRequested => "CancelRequested"
  | .cancelled => "Cancelled"

def RepositoryError.display : RepositoryError → String
  | .storage error => s!"control repository storage error: {error}"
  | .encoding error => s!"control repository encoding error: {error}"
  | .lockPoisoned => "control repository lock is poisoned"
  | .notFound attempt => s!"attempt {attempt} is not assigned"
  | .identityMismatch attempt => s!"attempt {attempt} identity does not match worker"
  | .invalidIdentity detail => s!"invalid identity: {detail}"
  | .invalidTransition source target => s!"invalid attempt transition from {source.debug} to {target.debug}"
  | .conflictingAttempt attempt => s!"attempt {attempt} was reused with different content"
  | .corrupt detail => s!"corrupt control repository: {detail}"

def repositoryStatus (error : RepositoryError) : Status :=
  match error with
  | .notFound detail => ⟨.notFound, detail⟩
  | .identityMismatch detail => ⟨.permissionDenied, detail⟩
  | .invalidIdentity detail => ⟨.invalidArgument, detail⟩
  | .invalidTransition _ _ => ⟨.failedPrecondition, error.display⟩
  | _ => ⟨.internal, error.display⟩

inductive InteractionError where
  | storage (detail : String)
  | encoding (detail : String)
  | invalidFrame (detail : String)
  | conflictingDedupKey (key : String)
  | conflictingOutput (attemptId : String) (stream : Int) (byteOffset : Nat)
  | invalidCursor (runId : String) (afterSequence latestSequence : Nat)
  | revokedRunGrant (runId ownerId : String)
  | missingRunGrant (runId ownerId : String)
  | valueOutOfRange (value : Nat)
  | invalidSubscriptionCapacity
  | lockPoisoned
  deriving DecidableEq

def InteractionError.display : InteractionError → String
  | .storage error => s!"interaction storage error: {error}"
  | .encoding error => s!"interaction encoding error: {error}"
  | .invalidFrame detail => s!"invalid interaction event: {detail}"
  | .conflictingDedupKey key => s!"interaction dedup key {key} has conflicting content"
  | .conflictingOutput attemptId stream byteOffset =>
    s!"attempt {attemptId} stream {stream} has conflicting output at {byteOffset}"
  | .invalidCursor runId afterSequence latestSequence =>
    s!"interaction cursor {afterSequence} is beyond run {runId} high-water mark {latestSequence}"
  | .revokedRunGrant runId ownerId => s!"interaction access for owner {ownerId} to run {runId} was revoked"
  | .missingRunGrant runId ownerId => s!"interaction access for owner {ownerId} to run {runId} does not exist"
  | .valueOutOfRange value => s!"interaction value {value} exceeds SQLite range"
  | .invalidSubscriptionCapacity => "interaction subscription capacity must be positive"
  | .lockPoisoned => "interaction store lock poisoned"

def interactionStatus (error : InteractionError) : Status :=
  match error with
  | .invalidFrame _ | .conflictingDedupKey _ | .conflictingOutput _ _ _ | .invalidCursor _ _ _
  | .revokedRunGrant _ _ | .missingRunGrant _ _ | .valueOutOfRange _ => ⟨.invalidArgument, error.display⟩
  | .storage _ | .encoding _ | .invalidSubscriptionCapacity | .lockPoisoned => ⟨.internal, error.display⟩

abbrev ValidationError := String × String

def ValidationError.display (error : ValidationError) : String := s!"invalid {error.1}: {error.2}"

def validateText (field value : String) : Except ValidationError Unit :=
  if isBlank value then .error (field, "missing") else .ok ()

structure WireArtifact where
  digest : String
  sizeBytes : Nat
  mediaType : String

structure ActiveAttempt where
  assignmentId : String
  attemptId : String
  phase : Int
  deriving DecidableEq

structure WireAcceleratorDevice where
  deviceId : String
  productName : String
  serialNumber : String
  firmwareVersion : String
  deriving DecidableEq

structure WorkerCapabilities where
  backend : Int
  architecture : String
  deviceCount : Nat
  maxConcurrency : Nat
  driverVersion : String
  toolkitVersion : String
  containerRuntime : String
  devices : List WireAcceleratorDevice
  deriving DecidableEq

/-- The hello of a worker without its attempts; `registration` is the text that registration stores of it. -/
structure WorkerHello where
  protocolMajor : Nat
  protocolMinor : Nat
  workerId : String
  instanceId : String
  workerVersion : String
  features : List String
  capabilities : Option WorkerCapabilities
  registration : String
  deriving DecidableEq

structure WireDeviceObservation where
  deviceId : String
  health : Int
  processCount : Nat
  utilizationPercent : Nat
  memoryUsedBytes : Nat
  memoryTotalBytes : Nat
  temperatureMillicelsius : Nat
  powerMilliwatts : Nat
  observedAtMs : Nat
  detail : String
  deriving DecidableEq

structure WireDeviceLease where
  attemptId : String
  deviceId : String
  acquiredAtMs : Nat
  deriving DecidableEq

structure Heartbeat where
  activeAttempts : List ActiveAttempt
  availableSlots : Nat
  deviceFreeSlots : Nat
  health : Int
  devices : List WireDeviceObservation
  deviceLeases : List WireDeviceLease
  deriving DecidableEq

structure ExecutionFinished where
  assignmentId : String
  attemptId : String
  outcome : Int
  exitCode : Option Int
  elapsedMs : Nat
  receipt : Option WireArtifact
  stdout : Option WireArtifact
  stderr : Option WireArtifact
  detail : String

structure OutputChunk where
  attemptId : String
  stream : Int
  byteOffset : Nat
  displaySanitized : Bool
  payload : List UInt8

inductive WorkerMessage where
  | hello (hello : WorkerHello)
  | heartbeat (heartbeat : Heartbeat)
  | status (health : Int) (detail : String)
  | assignmentAccepted (assignmentId attemptId : String) (alreadyKnown : Bool)
  | assignmentRejected (assignmentId attemptId : String) (reason : Int) (detail : String)
  | executionStarted (assignmentId attemptId : String)
  | executionFinished (finished : ExecutionFinished)
  | cancellationAcknowledged (assignmentId attemptId : String) (alreadyTerminal : Bool)
  | outputChunk (output : OutputChunk)

structure WorkerToServer where
  sequence : Nat
  acknowledgesServerThrough : Nat
  messageId : String
  message : Option WorkerMessage

structure ServerWelcome where
  connectionId : String
  protocolMajor : Nat
  protocolMinor : Nat
  heartbeatIntervalMs : Nat
  attemptLeaseMs : Nat

inductive ServerMessage where
  | welcome (welcome : ServerWelcome)
  | assignment (contract : AssignmentContract)
  | cancel (attemptId reason : String)
  | drain (reason : String)
  | acknowledgement

structure ServerToWorker where
  sequence : Nat
  acknowledgesWorkerThrough : Nat
  messageId : String
  message : Option ServerMessage

/-- A worker's entry in the control state. Its sender is named by the connection it belongs to. -/
structure WorkerRecord where
  hello : WorkerHello
  connectionId : String
  connected : Bool
  lastWorkerSequence : Nat
  lastServerSequenceAcknowledged : Nat
  nextServerSequence : Nat
  sender : String
  heartbeat : Option Heartbeat
  deriving DecidableEq

def expectedWorkerMessageId : Option WorkerMessage → Option String
  | some (.assignmentAccepted _ attemptId _) => some s!"assignment-accepted:{attemptId}"
  | some (.assignmentRejected _ attemptId _ _) => some s!"assignment-rejected:{attemptId}"
  | some (.executionStarted _ attemptId) => some s!"execution-started:{attemptId}"
  | some (.executionFinished finished) => some s!"execution-finished:{finished.attemptId}"
  | some (.cancellationAcknowledged _ attemptId _) => some s!"cancellation-acknowledged:{attemptId}"
  | _ => none

def expectedServerMessageId : Option ServerMessage → Option String
  | some (.assignment contract) => some s!"assignment:{contract.attemptId}"
  | some (.cancel attemptId _) => some s!"cancel:{attemptId}"
  | _ => none

end AlloyPort
