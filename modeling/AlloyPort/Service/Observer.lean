import AlloyPort.Service.Operation

/-! Worker observations: their routing, the durable state transitions of the attempts they are about,
and their projection to the events a user sees. -/

namespace AlloyPort

open Effect

def AttemptOutcome.tryFrom (value : Int) : Except String AttemptOutcome :=
  match value with
  | 1 => .ok .succeeded
  | 2 => .ok .candidateFailed
  | 3 => .ok .timedOut
  | 4 => .ok .cancelled
  | 5 => .ok .infraError
  | 6 => .ok .integrityViolation
  | _ => .error s!"invalid attempt outcome {value}"

def AttemptOutcome.toI32 : AttemptOutcome → Int
  | .succeeded => 1
  | .candidateFailed => 2
  | .timedOut => 3
  | .cancelled => 4
  | .infraError => 5
  | .integrityViolation => 6

def RejectionReason.tryFrom (value : Int) : Except String RejectionReason :=
  match value with
  | 1 => .ok .invalid
  | 2 => .ok .unsupported
  | 3 => .ok .policy
  | 4 => .ok .capacity
  | 5 => .ok .conflict
  | _ => .error s!"invalid rejection reason {value}"

def RejectionReason.toI32 : RejectionReason → Int
  | .invalid => 1
  | .unsupported => 2
  | .policy => 3
  | .capacity => 4
  | .conflict => 5

def isUtf8 (payload : List UInt8) : Bool := (ByteArray.mk payload.toArray).validateUTF8

namespace WorkerControlService

def invalidArgument (message : String) : Status := ⟨.invalidArgument, message⟩

def failedPrecondition (message : String) : Status := ⟨.failedPrecondition, message⟩

def persistOrStatus (operation : ControlOperation) : ServiceProgram Status operation.Result :=
  persist operation repositoryStatus

/-- The identity of an artifact on the wire. Its digest was validated, or the persistence task panics. -/
def artifactToIdentity (artifact : WireArtifact) : ServiceProgram Status ArtifactDescriptor :=
  match Sha256Digest.fromStr artifact.digest with
  | .ok digest => return ⟨digest, artifact.sizeBytes, artifact.mediaType⟩
  | .error _ => .fail ⟨.internal, "server persistence task failed: task panicked"⟩

def artifactToIdentity? : Option WireArtifact → ServiceProgram Status (Option ArtifactDescriptor)
  | none => return none
  | some artifact => do return some (← artifactToIdentity artifact)

/-- One of the three artifacts of a finished attempt: it must have been uploaded, and is then granted. -/
def validateAndGrantArtifact (workerId : String) (nowMs : Nat) (artifact : Option WireArtifact)
    (referenceKey : String) (isReceipt : Bool) (purpose : String) : ServiceProgram Status Unit := do
  match artifact with
  | none => .fail (failedPrecondition s!"terminal execution is missing required Artifact {referenceKey}")
  | some artifact => do
    let digest ← Prog.attempt ((Sha256Digest.fromStr artifact.digest).mapError fun error =>
      invalidArgument error.display)
    let upload ← require (perform (.completedUpload workerId referenceKey)) id
    match upload with
    | none =>
      .fail (failedPrecondition s!"terminal Artifact {referenceKey} is not finalized by worker {workerId}")
    | some uploaded => do
      match uploaded.artifact with
      | none => .fail ⟨.dataLoss, s!"completed upload {referenceKey} lacks its Artifact identity"⟩
      | some identity =>
        if identity.1 ≠ digest ∨ identity.2 ≠ artifact.sizeBytes ∨ uploaded.mediaType ≠ artifact.mediaType then
          .fail ⟨.dataLoss, s!"terminal Artifact {referenceKey} does not match its finalized upload"⟩
        else
          require (perform (.grantReference ⟨workerId, referenceKey, digest, isReceipt, purpose, nowMs⟩)) id

def validateAndGrantFinishedArtifacts (workerId attemptId : String) (finished : ExecutionFinished) (nowMs : Nat) :
    ServiceProgram Status Unit := do
  validateAndGrantArtifact workerId nowMs finished.stdout s!"output:{attemptId}:stdout" false
    "complete attempt stdout"
  validateAndGrantArtifact workerId nowMs finished.stderr s!"output:{attemptId}:stderr" false
    "complete attempt stderr"
  validateAndGrantArtifact workerId nowMs finished.receipt s!"receipt:{attemptId}" true "attempt run receipt"

def appendEvent (dedupKey : String) (contract : AssignmentContract) (workerId : String) (nowMs : Nat)
    (event : WorkerEvent) : ServiceProgram Status Unit :=
  require (perform (.append dedupKey ⟨contract, workerId, nowMs, event⟩)) interactionStatus

def knownAssignment (attemptId unknown : String) : ServiceProgram Status AssignmentRecord := do
  let assignment : Option AssignmentRecord ← persistOrStatus (.assignment attemptId)
  match assignment with
  | none => .fail (failedPrecondition unknown)
  | some assignment => return assignment

def recordCommandStarted (workerId attemptId : String) (nowMs : Nat) : ServiceProgram Status Unit := do
  let assignment ← knownAssignment attemptId "started attempt is unknown"
  appendEvent s!"attempt:{attemptId}:command-started" assignment.contract workerId nowMs .commandStarted

def recordArtifact (workerId attemptId : String) (nowMs : Nat) (contract : AssignmentContract)
    (reference : String) : Option WireArtifact → ServiceProgram Status Unit
  | none => return ()
  | some artifact =>
    appendEvent s!"attempt:{attemptId}:artifact:{reference}" contract workerId nowMs
      (.artifactProduced artifact reference)

def recordCommandFinished (workerId : String) (finished : ExecutionFinished) (nowMs : Nat) :
    ServiceProgram Status Unit := do
  recordCommandStarted workerId finished.attemptId nowMs
  let assignment ← knownAssignment finished.attemptId "finished attempt is unknown"
  recordArtifact workerId finished.attemptId nowMs assignment.contract "stdout" finished.stdout
  recordArtifact workerId finished.attemptId nowMs assignment.contract "stderr" finished.stderr
  recordArtifact workerId finished.attemptId nowMs assignment.contract "receipt" finished.receipt
  appendEvent s!"attempt:{finished.attemptId}:command-completed" assignment.contract workerId nowMs
    (.commandCompleted (finished.exitCode.getD (-1)) finished.elapsedMs
      (finished.outcome = AttemptOutcome.timedOut.toI32) finished.stdout)

def observe (workerId assignmentId attemptId : String) (observedAtMs : Nat) (observation : AttemptObservation) :
    ServiceProgram Status ObservationDisposition :=
  match (ValidatedId.tryFrom assignmentId : Option AssignmentId),
    (ValidatedId.tryFrom attemptId : Option AttemptId) with
  | none, _ => .fail (invalidArgument "assignment ID must not be empty")
  | some _, none => .fail (invalidArgument "attempt ID must not be empty")
  | some assignmentId, some attemptId =>
    persistOrStatus (.observeAttempt ⟨assignmentId, attemptId, workerId, observedAtMs, observation⟩)

def observeHeartbeat (workerId : String) (heartbeat : Heartbeat) (nowMs : Nat) : ServiceProgram Status Unit :=
  persistOrStatus (.renewActiveLeases workerId (heartbeat.activeAttempts.map (·.attemptId)) nowMs attemptLeaseMs)

def observeAccepted (workerId assignmentId attemptId : String) (alreadyKnown : Bool) (nowMs : Nat) :
    ServiceProgram Status ObservationDisposition :=
  observe workerId assignmentId attemptId nowMs (.accepted alreadyKnown)

def observeRejection (workerId assignmentId attemptId : String) (reason : Int) (detail : String) (nowMs : Nat) :
    ServiceProgram Status ObservationDisposition := do
  let reason ← Prog.attempt ((RejectionReason.tryFrom reason).mapError invalidArgument)
  observe workerId assignmentId attemptId nowMs (.rejected reason detail)

def observeStarted (workerId assignmentId attemptId : String) (nowMs : Nat) :
    ServiceProgram Status ObservationDisposition := do
  let disposition ← observe workerId assignmentId attemptId nowMs .started
  recordCommandStarted workerId attemptId nowMs
  return disposition

def observeFinished (workerId : String) (finished : ExecutionFinished) (nowMs : Nat) :
    ServiceProgram Status ObservationDisposition := do
  let hasMetadata ← perform .hasArtifactMetadata
  let _ ← (if hasMetadata then validateAndGrantFinishedArtifacts workerId finished.attemptId finished nowMs
    else pure ())
  let outcome ← Prog.attempt ((AttemptOutcome.tryFrom finished.outcome).mapError invalidArgument)
  let receipt ← artifactToIdentity? finished.receipt
  let stdout ← artifactToIdentity? finished.stdout
  let stderr ← artifactToIdentity? finished.stderr
  let disposition ← observe workerId finished.assignmentId finished.attemptId nowMs
    (.finished ⟨outcome, finished.exitCode, finished.elapsedMs, receipt, stdout, stderr, finished.detail⟩)
  recordCommandFinished workerId finished nowMs
  return disposition

def observeCancellationAcknowledged (workerId assignmentId attemptId : String) (alreadyTerminal : Bool)
    (nowMs : Nat) : ServiceProgram Status ObservationDisposition :=
  observe workerId assignmentId attemptId nowMs (.cancellationAcknowledged alreadyTerminal)

def eventStream (stream : Int) : Option Bool :=
  if stream = 1 then some false else if stream = 2 then some true else none

def observeOutput (workerId : String) (output : OutputChunk) (nowMs : Nat) : ServiceProgram Status Unit := do
  let assignment ← knownAssignment output.attemptId "output attempt is unknown"
  if assignment.workerId ≠ workerId then
    .fail ⟨.permissionDenied, s!"attempt {output.attemptId} belongs to another worker"⟩
  else if assignment.state ≠ .running then
    .fail (failedPrecondition s!"output attempt {output.attemptId} is not running")
  else match eventStream output.stream with
  | none => .fail (invalidArgument "output stream is unspecified")
  | some stderr => do
    let sanitized := output.displaySanitized || !isUtf8 output.payload
    let missing ← require (perform (.appendOutput
      s!"attempt:{output.attemptId}:output:{output.stream}:{output.byteOffset}" output
      ⟨assignment.contract, workerId, nowMs, .commandOutput stderr output.byteOffset output.payload sanitized⟩))
      interactionStatus
    if missing = 0 then return ()
    else
      let expected := output.byteOffset - missing
      let stream := if stderr then "Stderr" else "Stdout"
      appendEvent s!"attempt:{output.attemptId}:output-gap:{output.stream}:{expected}:{output.byteOffset}"
        assignment.contract workerId nowMs (.warning
          (s!"live {stream} preview omitted bytes {expected}..{output.byteOffset}; " ++
            "complete output remains in the terminal Artifact"))

def observeMessage (workerId : String) (message : Option WorkerMessage) (nowMs : Nat) : ServiceProgram Status Unit :=
  match message with
  | some (.heartbeat heartbeat) => observeHeartbeat workerId heartbeat nowMs
  | some (.status _ _) => return ()
  | some (.assignmentAccepted assignmentId attemptId alreadyKnown) => do
    let _ ← observeAccepted workerId assignmentId attemptId alreadyKnown nowMs
    return ()
  | some (.assignmentRejected assignmentId attemptId reason detail) => do
    let _ ← observeRejection workerId assignmentId attemptId reason detail nowMs
    return ()
  | some (.executionStarted assignmentId attemptId) => do
    let _ ← observeStarted workerId assignmentId attemptId nowMs
    return ()
  | some (.executionFinished finished) => do
    let _ ← observeFinished workerId finished nowMs
    return ()
  | some (.cancellationAcknowledged assignmentId attemptId alreadyTerminal) => do
    let _ ← observeCancellationAcknowledged workerId assignmentId attemptId alreadyTerminal nowMs
    return ()
  | some (.outputChunk output) => observeOutput workerId output nowMs
  | some (.hello _) => .fail (invalidArgument "hello is only valid as the first frame")
  | none => .fail (invalidArgument "worker message payload is missing")

end WorkerControlService

/-- What an observation may do: read and change attempts, and reach the stores beside the repository. -/
def ServiceOp.IsObservation : ServiceOp → Prop
  | .persist (.observeAttempt _) | .persist (.renewActiveLeases ..) | .persist (.assignment _) => True
  | .append .. | .appendOutput .. | .hasArtifactMetadata | .completedUpload .. | .grantReference .. => True
  | _ => False

section performs

open WorkerControlService

variable {allowed : ServiceOp → Prop} {artifact : Option WireArtifact} {finished : ExecutionFinished}
variable {contract : AssignmentContract} {ε : Type}

theorem performs_persist {operation : ControlOperation} {raise : RepositoryError → ε}
    (h : allowed (.persist operation)) :
    Performs allowed (persist operation raise : ServiceProgram ε operation.Result) :=
  ⟨h, fun _ => performs_attempt⟩

theorem performs_require {ε' α : Type} {reply : ServiceProgram ε (Except ε' α)} {raise : ε' → ε}
    (h : Performs allowed reply) : Performs allowed (require reply raise) := by
  refine performs_bind h fun r => ?_
  cases r <;> trivial

theorem performs_perform {o : ServiceOp} (h : allowed o) :
    Performs allowed (perform o : ServiceProgram ε o.Reply) :=
  ⟨h, fun _ => trivial⟩

variable {workerId attemptId : String} {nowMs : Nat}

theorem performs_artifactToIdentity? : Performs ServiceOp.IsObservation (artifactToIdentity? artifact) := by
  cases artifact with
  | none => trivial
  | some artifact =>
    refine performs_bind ?_ fun _ => trivial
    unfold artifactToIdentity
    split <;> trivial

theorem performs_validateAndGrantArtifact {referenceKey purpose : String}
    {isReceipt : Bool} : Performs ServiceOp.IsObservation
      (validateAndGrantArtifact workerId nowMs artifact referenceKey isReceipt purpose) := by
  cases artifact with
  | none => trivial
  | some artifact =>
    refine performs_bind performs_attempt fun digest => ?_
    refine performs_bind (performs_require (performs_perform trivial)) fun upload => ?_
    split
    · trivial
    · split
      · trivial
      · split
        · trivial
        · exact performs_require (performs_perform trivial)

theorem performs_validateAndGrantFinishedArtifacts : Performs ServiceOp.IsObservation
    (validateAndGrantFinishedArtifacts workerId attemptId finished nowMs) := by
  refine performs_bind performs_validateAndGrantArtifact fun _ => ?_
  exact performs_bind performs_validateAndGrantArtifact fun _ => performs_validateAndGrantArtifact

theorem performs_appendEvent {dedupKey : String} {event : WorkerEvent} :
    Performs ServiceOp.IsObservation (appendEvent dedupKey contract workerId nowMs event) :=
  performs_require (performs_perform trivial)

theorem performs_knownAssignment {unknown : String} :
    Performs ServiceOp.IsObservation (knownAssignment attemptId unknown) := by
  refine performs_bind (performs_persist trivial) fun assignment => ?_
  split <;> trivial

theorem performs_recordCommandStarted :
    Performs ServiceOp.IsObservation (recordCommandStarted workerId attemptId nowMs) :=
  performs_bind performs_knownAssignment fun _ => performs_appendEvent

theorem performs_recordArtifact {reference : String} :
    Performs ServiceOp.IsObservation (recordArtifact workerId attemptId nowMs contract reference artifact) := by
  cases artifact with
  | none => trivial
  | some artifact => exact performs_appendEvent

theorem performs_recordCommandFinished :
    Performs ServiceOp.IsObservation (recordCommandFinished workerId finished nowMs) := by
  refine performs_bind performs_recordCommandStarted fun _ => ?_
  refine performs_bind performs_knownAssignment fun assignment => ?_
  refine performs_bind performs_recordArtifact fun _ => ?_
  refine performs_bind performs_recordArtifact fun _ => ?_
  exact performs_bind performs_recordArtifact fun _ => performs_appendEvent

theorem performs_observe {assignmentId : String} {observation : AttemptObservation} :
    Performs ServiceOp.IsObservation (observe workerId assignmentId attemptId nowMs observation) := by
  unfold observe
  split
  · trivial
  · trivial
  · exact performs_persist trivial

theorem performs_observeFinished : Performs ServiceOp.IsObservation (observeFinished workerId finished nowMs) := by
  refine performs_bind (performs_perform trivial) fun hasMetadata => ?_
  refine performs_bind ?_ fun _ => ?_
  · split
    · exact performs_validateAndGrantFinishedArtifacts
    · trivial
  · refine performs_bind performs_attempt fun outcome => ?_
    refine performs_bind performs_artifactToIdentity? fun receipt => ?_
    refine performs_bind performs_artifactToIdentity? fun stdout => ?_
    refine performs_bind performs_artifactToIdentity? fun stderr => ?_
    refine performs_bind performs_observe fun disposition => ?_
    exact performs_bind performs_recordCommandFinished fun _ => trivial

theorem performs_observeOutput {output : OutputChunk} :
    Performs ServiceOp.IsObservation (observeOutput workerId output nowMs) := by
  refine performs_bind performs_knownAssignment fun assignment => ?_
  split
  · trivial
  · split
    · trivial
    · split
      · trivial
      · refine performs_bind (performs_require (performs_perform trivial)) fun missing => ?_
        split
        · trivial
        · exact performs_appendEvent

theorem performs_observeMessage {message : Option WorkerMessage} :
    Performs ServiceOp.IsObservation (observeMessage workerId message nowMs) := by
  unfold observeMessage
  split
  · exact performs_persist trivial
  · trivial
  · exact performs_bind performs_observe fun _ => trivial
  · refine performs_bind (performs_bind performs_attempt fun _ => performs_observe) fun _ => trivial
  · refine performs_bind (performs_bind performs_observe fun _ => ?_) fun _ => trivial
    exact performs_bind performs_recordCommandStarted fun _ => trivial
  · exact performs_bind performs_observeFinished fun _ => trivial
  · exact performs_bind performs_observe fun _ => trivial
  · exact performs_observeOutput
  · trivial
  · trivial

end performs

end AlloyPort
