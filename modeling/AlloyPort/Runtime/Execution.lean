import AlloyPort.Runtime.Record

/-! One execution of an attempt: the guard of its device, the supervision of its container, and the
runtime around both. -/

namespace AlloyPort

open Effect RuntimeProgram

def ensureDevice (expected : String) (observation : DeviceObservation) : Except DeviceStatusError Unit :=
  if observation.deviceId = expected then .ok ()
  else .error (.invalidResponse s!"device probe returned {observation.deviceId} while observing {expected}")

structure DevicePreflight where
  lease : DeviceLeaseOutcome
  observation : DeviceObservation

structure DeviceCleanup where
  before : DeviceObservation
  afterRecovery : Option DeviceObservation
  release : DeviceReleaseOutcome

namespace DeviceGuard

variable (attemptId : AttemptId) (deviceId : String)

def ensureRecorded : Option DeviceObservation → RuntimeProgram DeviceGuardError Unit
  | none => return ()
  | some recorded => .attempt ((ensureDevice deviceId recorded).mapError .probeRetained)

def decide (lease : DeviceLeaseOutcome) (recorded : Option DeviceObservation) (observation : DeviceObservation) :
    RuntimeProgram DeviceGuardError DevicePreflight :=
  if observation.reusable then
    match recorded with
    | some recorded => return ⟨lease, recorded⟩
    | none => do
      let _ ← journal .journal (.recordDevicePreflight attemptId observation)
      return ⟨lease, observation⟩
  else if observation.health = .ready then
    match recorded with
    | some _ => .fail (.occupiedRetained observation)
    | none => do
      let _ ← atNow fun now => journal .journal (.releaseDeviceLease attemptId now)
      .fail (.occupied observation)
  else .fail (.notReadyRetained observation)

def acquireAndPreflight : RuntimeProgram DeviceGuardError DevicePreflight := do
  let lease : DeviceLeaseOutcome ← atNow fun now => journal .journal (.acquireDeviceLease attemptId deviceId now)
  let recorded : Option DeviceObservation ← journal .journal (.devicePreflight attemptId)
  ensureRecorded deviceId recorded
  let observation ← observeDevice .probeRetained deviceId
  .attempt ((ensureDevice deviceId observation).mapError .probeRetained)
  decide attemptId lease recorded observation

def recover (before : DeviceObservation) : RuntimeProgram DeviceGuardError DeviceCleanup := do
  let after ← recoverDevice .recoveryRetained deviceId
  .attempt ((ensureDevice deviceId after).mapError .recoveryRetained)
  if after.reusable then do
    let release : DeviceReleaseOutcome ← atNow fun now => journal .journal (.releaseDeviceLease attemptId now)
    return ⟨before, some after, release⟩
  else .fail (.recoveryIncompleteRetained before after)

def cleanupAfterTerminal : RuntimeProgram DeviceGuardError DeviceCleanup := do
  let before ← observeDevice .probeRetained deviceId
  .attempt ((ensureDevice deviceId before).mapError .probeRetained)
  if before.reusable then do
    let release : DeviceReleaseOutcome ← atNow fun now => journal .journal (.releaseDeviceLease attemptId now)
    return ⟨before, none, release⟩
  else if before.processCount > 0 then .fail (.occupiedRetained before)
  else recover attemptId deviceId before

end DeviceGuard

inductive ContainerReconcileError where
  | engine (error : ContainerEngineError)
  | missingAfterCreate (name : String)
  | identityConflict (name : String)
  | unexpectedCreatedPhase (name : String) (phase : ContainerPhase)

def SupervisorError.ofReconcile : ContainerReconcileError → SupervisorError
  | .engine error => .engine error
  | .missingAfterCreate name => .invariant s!"container {name} is missing immediately after create"
  | .identityConflict name => .identityConflict name
  | .unexpectedCreatedPhase name phase => .invariant s!"new container {name} has unexpected phase {phase.debug}"

def createContainer (identity : ContainerIdentity) : RuntimeProgram ContainerReconcileError ContainerPhase := do
  let _ ← engine .engine (.create identity)
  let created : Option ContainerSnapshot ← engine .engine (.inspect identity.name)
  match created with
  | none => .fail (.missingAfterCreate identity.name)
  | some created =>
    if created.identity ≠ identity then .fail (.identityConflict identity.name)
    else if created.phase ≠ .created then .fail (.unexpectedCreatedPhase identity.name created.phase)
    else return created.phase

def reconcileContainer (identity : ContainerIdentity) : RuntimeProgram ContainerReconcileError ContainerPhase := do
  let snapshot : Option ContainerSnapshot ← engine .engine (.inspect identity.name)
  match snapshot with
  | some snapshot =>
    if snapshot.identity ≠ identity then .fail (.identityConflict identity.name) else return snapshot.phase
  | none => createContainer identity

def stopAndWait (name : String) : RuntimeProgram ContainerEngineError ContainerExit := do
  let _ ← engine id (.stop name)
  engine id (.wait name)

def terminate (name : String) : Ending → RuntimeProgram ContainerEngineError ContainerTermination
  | .cancelled => do
    let exit ← stopAndWait name
    return .cancelled exit
  | .timeout => do
    let exit ← stopAndWait name
    return .timedOut exit
  | .exit exit => do
    let exit ← .attempt exit
    return .exited exit

/-- A follower that fails has the container stopped, and its error is the supervisor's. -/
def abandon (name : String) (error : ContainerEngineError) :
    RuntimeProgram ContainerEngineError (ContainerTermination × ContainerLogs) := do
  let _ ← RuntimeProgram.perform (.engine (.stop name))
  let _ ← RuntimeProgram.perform (.engine (.wait name))
  .fail error

def superviseRunningContainer (name : String) (limit : Nat) :
    RuntimeProgram ContainerEngineError (ContainerTermination × ContainerLogs) := do
  let wakeup : Wakeup ← RuntimeProgram.perform (.select name limit)
  match wakeup with
  | .ending ending => do
    let termination ← terminate name ending
    let logs : ContainerLogs ← engine id (.followLogs name limit)
    return (termination, logs)
  | .logs (.error error) => abandon name error
  | .logs (.ok logs) =>
    if logs.outputLimitExceeded then do
      let exit ← stopAndWait name
      return (.outputLimitExceeded exit, logs)
    else do
      let ending : Ending ← RuntimeProgram.perform (.selectEnding name)
      let termination ← terminate name ending
      return (termination, logs)

def collectExited (name : String) (limit : Nat) :
    RuntimeProgram ContainerEngineError (ContainerTermination × ContainerLogs) := do
  let exit : ContainerExit ← engine id (.wait name)
  let logs : ContainerLogs ← engine id (.logs name limit)
  return (.exited exit, logs)

def outputLimit (assignment : StoredAssignment) : Nat :=
  (assignment.execution.limits.map ResourceContract.outputBytes).getD 0

def superviseContainer (name : String) (phase : ContainerPhase) (limit : Nat) :
    RuntimeProgram ContainerEngineError (ContainerTermination × ContainerLogs) :=
  match phase with
  | .exited => collectExited name limit
  | .created => do
    let _ ← engine id (.start name)
    superviseRunningContainer name limit
  | .running => superviseRunningContainer name limit

def plannedIdentity (assignment : StoredAssignment) (imageId : String) : ContainerIdentity where
  name := containerName assignment.attemptId.text
  attemptId := toString assignment.attemptId
  bundleDigest := toString assignment.execution.bundle.digest
  imageManifestDigest := toString assignment.execution.image.digest
  imageId := imageId

/-- `run_with_facts_observed` of both supervisors. -/
def runWithFacts (policy : OutcomePolicy) (assignment : StoredAssignment) :
    RuntimeProgram SupervisorError ExecutorResult := do
  let imageId ← .op (.plan assignment) fun reply => .attempt (reply.mapError .contract)
  let identity := plannedIdentity assignment imageId
  let resolved : String ← engine .engine (.resolveImageId assignment)
  if resolved ≠ identity.imageId then .fail (.imageMismatch identity.imageId resolved)
  else do
    let phase ← (reconcileContainer identity).mapError .ofReconcile
    let ended ← (superviseContainer identity.name phase (outputLimit assignment)).mapError .engine
    return classifyVerifiedOutcome ended.1 (enforceOutputLimit ended.2 (outputLimit assignment))
      assignment.execution.timeoutMs policy

structure DynamicRuntime where
  first : AcceleratorDevice
  rest : List AcceleratorDevice
  selection : DeviceSelectionPolicy

def DynamicRuntime.inventory (dynamic : DynamicRuntime) : List AcceleratorDevice := dynamic.first :: dynamic.rest

structure ExecutionRuntime where
  backend : String
  deviceId : String
  outcome : OutcomePolicy
  dynamic : Option DynamicRuntime

namespace ExecutionRuntime

variable (runtime : ExecutionRuntime)

def leaseOf (attemptId : String) (leases : List DeviceLease) : Option DeviceLease :=
  leases.find? fun lease => lease.attemptId.text = attemptId

def selectDevice (dynamic : DynamicRuntime) (attempt : LocalAttemptRecord) (attemptId : String)
    (leases : List DeviceLease) : RuntimeProgram ExecutionRuntimeError String :=
  match leaseOf attemptId leases with
  | some lease =>
    if dynamic.inventory.any fun device => device.deviceId = lease.deviceId then return lease.deviceId
    else .fail (.integrity
      s!"{runtime.backend} attempt {attemptId} retains a lease for undiscovered device {lease.deviceId}")
  | none =>
    if attempt.phase = .finished then return dynamic.first.deviceId
    else do
      let snapshot ← .op (.snapshot leases) fun reply => .attempt (reply.mapError .device)
      let selected ← .attempt ((selectReadyDevice dynamic.inventory snapshot leases dynamic.selection).mapError .device)
      return selected.identity.deviceId

def runtimeForAttempt (dynamic : DynamicRuntime) (attemptId : String) :
    RuntimeProgram ExecutionRuntimeError String := do
  let attempt : Option LocalAttemptRecord ← journal .journal (.attempt attemptId)
  match attempt with
  | none => .fail (.missingAttempt attemptId)
  | some attempt => do
    let leases : List DeviceLease ← journal .journal .activeDeviceLeases
    let deviceId ← selectDevice runtime dynamic attempt attemptId leases
    .op (.supervisorFor deviceId) fun reply => .attempt (reply.mapError fun detail => .supervisor (.contract detail))
    return deviceId

def activeLease (attemptId : AttemptId) : RuntimeProgram ExecutionRuntimeError DeviceLease := do
  let leases : List DeviceLease ← journal .journal .activeDeviceLeases
  match leaseOf attemptId.text leases with
  | none => .fail (.integrity s!"attempt {attemptId} lost its durable {runtime.backend} device lease")
  | some lease => return lease

def startAttempt (deviceId attemptId : String) (typedAttemptId : AttemptId) :
    RuntimeProgram ExecutionRuntimeError (DeviceLease × DeviceObservation) := do
  let preflight ← (DeviceGuard.acquireAndPreflight typedAttemptId deviceId).mapError .guard
  let lease ← activeLease runtime typedAttemptId
  let _ ← atNow fun now => journal .journal (.markRunning attemptId now)
  return (lease, preflight.observation)

def resumeAttempt (deviceId attemptId : String) (typedAttemptId : AttemptId) :
    RuntimeProgram ExecutionRuntimeError (DeviceLease × DeviceObservation) := do
  let lease ← activeLease runtime typedAttemptId
  let recorded : Option DeviceObservation ← journal .journal (.devicePreflight typedAttemptId)
  match recorded with
  | none => .fail (.integrity s!"running attempt {attemptId} lacks durable {runtime.backend} preflight evidence")
  | some observation =>
    if observation.deviceId ≠ deviceId ∨ lease.deviceId ≠ deviceId then
      .fail (.integrity s!"running attempt {attemptId} has {runtime.backend} evidence for a different device")
    else return (lease, observation)

def prepareAttempt (deviceId attemptId : String) (typedAttemptId : AttemptId) (phase : LocalAttemptPhase) :
    RuntimeProgram ExecutionRuntimeError (DeviceLease × DeviceObservation) :=
  if phase = .accepted then startAttempt runtime deviceId attemptId typedAttemptId
  else resumeAttempt runtime deviceId attemptId typedAttemptId

def observeExact (deviceId : String) : RuntimeProgram ExecutionRuntimeError DeviceObservation := do
  let observation ← observeDevice .device deviceId
  .attempt ((ensureDevice deviceId observation).mapError .device)
  return observation

def storeArtifact (content : List UInt8) : RuntimeProgram ExecutionRuntimeError ArtifactDescriptor :=
  .op (.store content) fun reply => .attempt (reply.mapError .artifact)

def persist (result : ExecutorResult) (lease : DeviceLease) (preObservation postObservation : DeviceObservation) :
    RuntimeProgram ExecutionRuntimeError StoredFinished := do
  let stdout ← storeArtifact result.stdout
  let stderr ← storeArtifact result.stderr
  let receipt ← .op (.storeReceipt ⟨lease, preObservation, postObservation, .fromObservation postObservation, result⟩)
    fun reply => .attempt (reply.mapError .artifact)
  return ⟨result.outcome, result.exitCode, result.elapsedMs, some receipt, some stdout, some stderr, result.detail⟩

def cleanupAfterCommit (deviceId : String) (attemptId : AttemptId) : RuntimeProgram ExecutionRuntimeError Unit := do
  let _ ← engine (fun error => .cleanupAfterCommit (.engine error)) (.remove (containerName attemptId.text))
  let leases : List DeviceLease ← journal .journal .activeDeviceLeases
  match leaseOf attemptId.text leases with
  | none => return ()
  | some _ => do
    let _ ← (DeviceGuard.cleanupAfterTerminal attemptId deviceId).mapError fun error =>
      .cleanupAfterCommit (.guard error)
    return ()

def executeAttempt (deviceId attemptId : String) (typedAttemptId : AttemptId) (attempt : LocalAttemptRecord)
    (publishes : Bool) : RuntimeProgram ExecutionRuntimeError StoredFinished := do
  let prepared ← prepareAttempt runtime deviceId attemptId typedAttemptId attempt.phase
  let result ← (runWithFacts runtime.outcome attempt.assignment).mapError .supervisor
  let postObservation ← observeExact deviceId
  let finished ← persist result prepared.1 prepared.2 postObservation
  let _ ← publish finished
  let _ ← atNow fun now => journal .journal (.markFinished attemptId finished now)
  cleanupAfterCommit deviceId typedAttemptId
  return finished
where
  publish (finished : StoredFinished) : RuntimeProgram ExecutionRuntimeError Unit :=
    if publishes then .op (.publish attemptId finished) fun reply => .attempt (reply.mapError .publish)
    else return ()

/-- `run_inner` below its claim. -/
def runClaimed (deviceId attemptId : String) (publishes : Bool) :
    RuntimeProgram ExecutionRuntimeError StoredFinished := do
  let attempt : Option LocalAttemptRecord ← journal .journal (.attempt attemptId)
  match attempt, (ValidatedId.tryFrom attemptId : Option AttemptId) with
  | none, _ => .fail (.missingAttempt attemptId)
  | some _, none => .fail (.integrity "attempt ID must not be empty")
  | some attempt, some typedAttemptId =>
    if attempt.phase = .finished then
      match attempt.finished with
      | none => .fail (.missingTerminalData attemptId)
      | some finished => do
        cleanupAfterCommit deviceId typedAttemptId
        return finished
    else executeAttempt runtime deviceId attemptId typedAttemptId attempt publishes

def runInner (deviceId attemptId : String) (publishes : Bool) :
    RuntimeProgram ExecutionRuntimeError StoredFinished := do
  if ← RuntimeProgram.perform (.claim deviceId attemptId) then do
    let result ← (runClaimed runtime deviceId attemptId publishes).result
    RuntimeProgram.perform (.unclaim attemptId)
    .attempt result
  else .fail (.attemptAlreadyRunning attemptId)

/-- `run` and `run_observed_and_publish`. -/
def run (attemptId : String) (publishes : Bool) : RuntimeProgram ExecutionRuntimeError StoredFinished :=
  match runtime.dynamic with
  | none => runInner runtime runtime.deviceId attemptId publishes
  | some dynamic => do
    let deviceId ← runtimeForAttempt runtime dynamic attemptId
    runInner runtime deviceId attemptId publishes

end ExecutionRuntime

end AlloyPort
