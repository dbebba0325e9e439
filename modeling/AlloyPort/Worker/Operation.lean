import AlloyPort.Service.Observer
import AlloyPort.Wire.Assignment
import AlloyPort.Worker.Journal

/-! The outbound worker: what it is composed of, the steps of its control sessions, and the frames its
journal's messages are sent as. A call of the journal is one step; the stream, the executions, the clock
and the devices are reached by further operations. -/

namespace AlloyPort

open Effect

def allowCudaFixture : Nat := 1

def allowAscendFixture : Nat := 2

def allowAscendBuild : Nat := 4

def allowCudaCorrectness : Nat := 8

def allowAscendCorrectness : Nat := 16

structure AdmissionPolicy where
  allowShell : Bool
  allowedFixedExecutors : Nat
  exclusiveExecutor : Option ExecutionKind

/-- A worker; `backends` are the kinds that its registry of execution backends holds, when one is attached. -/
structure OutboundWorker where
  hello : WorkerHello
  policy : AdmissionPolicy
  backends : Option (List ExecutionKind)
  admissionOnly : Bool
  publishesArtifacts : Bool
  probesDevices : Bool

inductive ExecutionObservation where
  | started
  | output (stderr : Bool) (byteOffset : Nat) (bytes : List UInt8)

inductive ExecutionUpdate where
  | observation (attemptId : String) (observation : ExecutionObservation)
  | completed (attemptId : String) (result : Except String Unit)

inductive RecvError where
  | closed
  | lagged

/-- What the `select!` of a session may wake up with. -/
inductive SessionInput where
  | incoming (message : Option (Except Status ServerToWorker))
  | heartbeat
  | update (update : Except RecvError ExecutionUpdate)

/-- The operations of a session. `engage` looks the attempt up among the active executions and starts one
when there is none; it answers with the number of its cancellation token. -/
inductive WorkerOp where
  | journal (operation : JournalOperation)
  | nowUnixMs
  | connect
  | openControlStream (hello : WorkerHello) (activeAttempts : List ActiveAttempt)
  | response
  | receive (stream : String)
  | select (stream : String)
  | send (stream : String) (frame : WorkerToServer)
  | publish (attemptId : String) (finished : StoredFinished)
  | retryTerminalCleanup (executor : ExecutionKind) (attemptId : String)
  | deviceSnapshot
  | engage (attemptId : String)
  | cancelExecution (token : Nat)

@[reducible] def WorkerOp.Reply : WorkerOp → Type
  | journal operation => operation.Reply
  | nowUnixMs | engage .. => Nat
  | connect => Except WorkerError Unit
  | openControlStream .. | retryTerminalCleanup .. | cancelExecution .. => Unit
  | response => Except WorkerError String
  | receive .. => Option (Except Status ServerToWorker)
  | select .. => SessionInput
  | send .. => Bool
  | publish .. => Except String Unit
  | deviceSnapshot => Except Unit (List DeviceObservation)

abbrev WorkerProgram := Prog WorkerOp WorkerOp.Reply

namespace WorkerProgram

def operate {ε : Type} (o : WorkerOp) : WorkerProgram ε o.Reply := .op o .ret

def journal (operation : JournalOperation) : WorkerProgram WorkerError operation.Result :=
  .op (.journal operation) fun reply => .attempt (reply.mapError WorkerError.fromStore)

def journalNow {α : Type} (call : Nat → WorkerProgram WorkerError α) : WorkerProgram WorkerError α :=
  .op .nowUnixMs call

end WorkerProgram

def lifecycleIdentity : WorkerOutboxPayload → String × String
  | .assignmentAccepted _ attemptId _ => (s!"assignment-accepted:{attemptId}", attemptId.text)
  | .assignmentRejected _ attemptId _ _ => (s!"assignment-rejected:{attemptId}", attemptId)
  | .executionStarted _ attemptId => (s!"execution-started:{attemptId}", attemptId.text)
  | .executionFinished _ attemptId _ => (s!"execution-finished:{attemptId}", attemptId.text)
  | .cancellationAcknowledged _ attemptId _ => (s!"cancellation-acknowledged:{attemptId}", attemptId.text)

/-- The message that `enqueue_lifecycle` makes of a payload. -/
def lifecycleMessage (payload : WorkerOutboxPayload) : WorkerOutboxMessage :=
  ⟨(lifecycleIdentity payload).1, (lifecycleIdentity payload).2, payload⟩

def storedToArtifact (artifact : ArtifactDescriptor) : WireArtifact :=
  ⟨toString artifact.digest, artifact.sizeBytes, artifact.mediaType⟩

def storedToFinished (assignmentId attemptId : String) (finished : StoredFinished) : ExecutionFinished where
  assignmentId := assignmentId
  attemptId := attemptId
  outcome := finished.outcome.toI32
  exitCode := finished.exitCode
  elapsedMs := finished.elapsedMs
  receipt := finished.receipt.map storedToArtifact
  stdout := finished.stdout.map storedToArtifact
  stderr := finished.stderr.map storedToArtifact
  detail := finished.detail

def outboxToWire : WorkerOutboxPayload → WorkerMessage
  | .assignmentAccepted assignmentId attemptId alreadyKnown =>
    .assignmentAccepted assignmentId.text attemptId.text alreadyKnown
  | .assignmentRejected assignmentId attemptId reason detail =>
    .assignmentRejected assignmentId attemptId reason.toI32 detail
  | .executionStarted assignmentId attemptId => .executionStarted assignmentId.text attemptId.text
  | .executionFinished assignmentId attemptId finished =>
    .executionFinished (storedToFinished assignmentId.text attemptId.text finished)
  | .cancellationAcknowledged assignmentId attemptId alreadyTerminal =>
    .cancellationAcknowledged assignmentId.text attemptId.text alreadyTerminal

def LocalAttemptPhase.toI32 : LocalAttemptPhase → Int
  | .accepted => 1
  | .running => 2
  | .finished => 3

def LocalAttemptRecord.active (record : LocalAttemptRecord) : ActiveAttempt :=
  ⟨record.assignment.assignmentId.text, record.assignment.attemptId.text, record.phase.toI32⟩

def DeviceHealth.toI32 : DeviceHealth → Int
  | .ready => 1
  | .degraded => 2
  | .unhealthy => 3
  | .recovering => 4

def DeviceObservation.wire (observation : DeviceObservation) : WireDeviceObservation where
  deviceId := observation.deviceId
  health := observation.health.toI32
  processCount := observation.processCount
  utilizationPercent := observation.utilizationPercent
  memoryUsedBytes := observation.memoryUsedBytes
  memoryTotalBytes := observation.memoryTotalBytes
  temperatureMillicelsius := observation.temperatureMillicelsius
  powerMilliwatts := observation.powerMilliwatts
  observedAtMs := observation.observedAtMs
  detail := observation.detail

def DeviceLease.wire (lease : DeviceLease) : WireDeviceLease where
  attemptId := lease.attemptId.text
  deviceId := lease.deviceId
  acquiredAtMs := lease.acquiredAtMs

/-! What a session does for an assignment and a cancellation: admission, the delivery of the outbox and the
start of executions. The two counters a session lends to its calls are handed from one to the next. -/

open WorkerProgram

/-- The next worker sequence of the connection and the messages already delivered on it. -/
structure Registers where
  nextWorkerSequence : Nat
  deliveredMessageIds : List String

namespace WorkerState

def markRunning (attemptId : String) : WorkerProgram WorkerError Unit :=
  journalNow fun now => journal (.markRunning attemptId now)

def markFinished (attemptId : String) (finished : StoredFinished) : WorkerProgram WorkerError Unit :=
  journalNow fun now => journal (.markFinished attemptId finished now)

def enqueueLifecycle (payload : WorkerOutboxPayload) : WorkerProgram WorkerError String := do
  let message := lifecycleMessage payload
  let _ ← journalNow fun now => journal (.enqueueOutbox message now)
  return message.messageId

def recordDelivery (connectionId : String) (sequence : Nat) (messageId : String) : WorkerProgram WorkerError Unit :=
  journalNow fun now => journal (.recordOutboxDelivery connectionId sequence messageId now)

def outboxDeliveryRetentionMs : Nat := 7 * 24 * 60 * 60 * 1000

def pruneOldDeliveries : WorkerProgram WorkerError Nat :=
  journalNow fun now => journal (.pruneOutboxDeliveries (now - outboxDeliveryRetentionMs))

def attempt (attemptId : String) : WorkerProgram WorkerError (Option LocalAttemptRecord) :=
  journal (.attempt attemptId)

end WorkerState

def AdmissionPolicy.check (policy : AdmissionPolicy) (executor : ExecutionKind) : Except WorkerError Unit :=
  match policy.exclusiveExecutor.filter (executor ≠ ·) with
  | some only => .error (.policyViolation s!"only the {only.debug} executor is enabled")
  | none =>
    if executor = .shell ∧ policy.allowShell = false then .error (.policyViolation "shell executor is disabled")
    else if executor = .cudaFixture ∧ policy.allowedFixedExecutors &&& allowCudaFixture = 0 then
      .error (.policyViolation "CUDA fixture executor is disabled")
    else if executor = .ascendFixture ∧ policy.allowedFixedExecutors &&& allowAscendFixture = 0 then
      .error (.policyViolation "Ascend fixture executor is disabled")
    else if executor = .ascendBuild ∧ policy.allowedFixedExecutors &&& allowAscendBuild = 0 then
      .error (.policyViolation "Ascend build executor is disabled")
    else if executor = .cudaCorrectness ∧ policy.allowedFixedExecutors &&& allowCudaCorrectness = 0 then
      .error (.policyViolation "CUDA correctness executor is disabled")
    else if executor = .ascendCorrectness ∧ policy.allowedFixedExecutors &&& allowAscendCorrectness = 0 then
      .error (.policyViolation "Ascend correctness executor is disabled")
    else .ok ()

namespace OutboundWorker

variable (worker : OutboundWorker)

def validateExecutionSupport (assignment : AssignmentContract) : Except WorkerError Unit := do
  (validateAssignment (contractToAssignment assignment)).mapError fun error => .invalidAssignment error.display
  if worker.admissionOnly then .ok ()
  else
    let executor := assignment.execution.executorKind
    match worker.backends with
    | none => .error (.policyViolation s!"no execution backend is attached for {executor.asStrName}")
    | some backends =>
      if executor ∈ backends then .ok ()
      else .error (.policyViolation s!"attached execution backend does not support {executor.asStrName}")

/-- `WorkerState::admit`. -/
def admitAssignment (assignment : AssignmentContract) : WorkerProgram WorkerError StoreAdmissionOutcome := do
  Prog.attempt ((validateAssignment (contractToAssignment assignment)).mapError fun error =>
    .invalidAssignment error.display)
  Prog.attempt (worker.policy.check assignment.execution.executorKind)
  journalNow fun now => journal (.admitAttempt assignment now)

def sendEphemeral (outbound : String) (acknowledgesServerThrough : Nat) (message : WorkerMessage)
    (registers : Registers) : WorkerProgram WorkerError Registers := do
  let sequence := registers.nextWorkerSequence
  if ← operate (.send outbound ⟨sequence, acknowledgesServerThrough, "", some message⟩) then
    return { registers with nextWorkerSequence := sequence + 1 }
  else .fail .streamClosed

def sendPending (connectionId outbound : String) (acknowledgesServerThrough : Nat) :
    List WorkerOutboxMessage → Registers → WorkerProgram WorkerError Registers
  | [], registers => return registers
  | entry :: rest, registers =>
    if entry.messageId ∈ registers.deliveredMessageIds then
      sendPending connectionId outbound acknowledgesServerThrough rest registers
    else do
      let sequence := registers.nextWorkerSequence
      WorkerState.recordDelivery connectionId sequence entry.messageId
      if ← operate (.send outbound
          ⟨sequence, acknowledgesServerThrough, entry.messageId, some (outboxToWire entry.payload)⟩) then
        sendPending connectionId outbound acknowledgesServerThrough rest
          ⟨sequence + 1, entry.messageId :: registers.deliveredMessageIds⟩
      else .fail .streamClosed

def sendPendingOutbox (connectionId outbound : String) (acknowledgesServerThrough : Nat) (registers : Registers) :
    WorkerProgram WorkerError Registers := do
  let pending : List WorkerOutboxMessage ← journal .pendingOutbox
  sendPending connectionId outbound acknowledgesServerThrough pending registers

/-- The cancellation token of the attempt's execution, which is started unless it is active. -/
def ensureExecution (attemptId : String) : WorkerProgram WorkerError (Option Nat) :=
  match worker.backends with
  | none => return none
  | some backends => do
    match ← WorkerState.attempt attemptId with
    | none => .fail (.protocol s!"attempt {attemptId} is missing")
    | some attempt =>
      if attempt.phase = .finished then return none
      else
        let executor := attempt.assignment.execution.executorKind
        if executor ∈ backends then return some (← operate (.engage attemptId))
        else .fail (.execution s!"attached runtime does not support executor kind {executor.asStrName}")

/-- The first half of `handle_assignment`: whether the assignment was admitted. -/
def recordAdmission (assignment : AssignmentContract) : WorkerProgram WorkerError Bool := do
  let admission ← (match worker.validateExecutionSupport assignment with
    | .ok () => (worker.admitAssignment assignment).result
    | .error error => return .error error)
  match admission with
  | .ok _ => return true
  | .error (.invalidAssignment detail) => reject .invalid detail
  | .error (.conflictingAttempt _) => reject .conflict "attempt ID conflicts with locally admitted content"
  | .error (.policyViolation detail) => reject .policy detail
  | .error error => .fail error
where
  reject (reason : RejectionReason) (detail : String) : WorkerProgram WorkerError Bool := do
    let _ ← WorkerState.enqueueLifecycle
      (.assignmentRejected assignment.assignmentId.text assignment.attemptId.text reason detail)
    return false

def announcePhase (attemptId : String) : WorkerProgram WorkerError Unit := do
  match ← WorkerState.attempt attemptId with
  | none => .fail (.protocol s!"admitted attempt {attemptId} is missing")
  | some attempt => match attempt.phase, attempt.finished with
    | .running, _ => WorkerState.markRunning attemptId
    | .finished, some finished => WorkerState.markFinished attemptId finished
    | .finished, none => .fail (.protocol s!"finished attempt {attemptId} lacks terminal journal data")
    | .accepted, _ => return ()

def handleAssignment (assignment : AssignmentContract) (connectionId outbound : String) (acknowledged : Nat)
    (registers : Registers) : WorkerProgram WorkerError Registers := do
  let attemptId := assignment.attemptId.text
  let admitted ← worker.recordAdmission assignment
  let _ ← (if admitted then announcePhase attemptId else pure ())
  let registers ← sendPendingOutbox connectionId outbound acknowledged registers
  let _ ← (if admitted then worker.ensureExecution attemptId else pure none)
  return registers

/-- The attempt of a cancellation, once the cancellation is acknowledged in the outbox, and whether it was
terminal before. -/
def acknowledgeCancellation (attemptId : String) : WorkerProgram WorkerError Bool := do
  match ← WorkerState.attempt attemptId with
  | none => .fail (.protocol s!"server cancelled unknown attempt {attemptId}")
  | some attempt => do
    let alreadyTerminal := decide (attempt.phase = .finished)
    let _ ← WorkerState.enqueueLifecycle (.cancellationAcknowledged attempt.assignment.assignmentId
      attempt.assignment.attemptId alreadyTerminal)
    return alreadyTerminal

/-- What a worker without an execution backend finishes a cancelled attempt with. -/
def cancelledResult (reason : String) : StoredFinished := ⟨.cancelled, none, 0, none, none, none, reason⟩

def handleCancel (attemptId reason : String) (connectionId outbound : String) (acknowledged : Nat)
    (registers : Registers) : WorkerProgram WorkerError Registers := do
  let alreadyTerminal ← acknowledgeCancellation attemptId
  if alreadyTerminal then sendPendingOutbox connectionId outbound acknowledged registers
  else if worker.backends = none then do
    WorkerState.markFinished attemptId (cancelledResult reason)
    match (← WorkerState.attempt attemptId).bind LocalAttemptRecord.finished with
    | none => .fail (.protocol "cancelled attempt lacks terminal journal data")
    | some _ => sendPendingOutbox connectionId outbound acknowledged registers
  else do
    match ← worker.ensureExecution attemptId with
    | none => .fail (.protocol s!"non-terminal attempt {attemptId} did not start an executor")
    | some cancellation => do
      let registers ← sendPendingOutbox connectionId outbound acknowledged registers
      operate (.cancelExecution cancellation)
      return registers

end OutboundWorker

end AlloyPort
