import AlloyPort.Worker.Lease

/-! What the accelerator runtimes handle: devices and the choice of one, containers, and the outcome
that is read off an ended container. The CUDA and the Ascend runtime share all of it. -/

namespace AlloyPort

inductive DeviceStatusError where
  | invalidConfiguration (detail : String)
  | unavailable (detail : String)
  | invalidResponse (detail : String)
  | recoveryUnsupported (detail : String)
  | internal (detail : String)

structure AcceleratorDevice where
  deviceId : String
  productName : String
  serialNumber : String
  firmwareVersion : String

structure DeviceSelectionPolicy where
  allowedDeviceIds : List String
  preferredDeviceId : Option String

structure SelectedDevice where
  identity : AcceleratorDevice
  observation : DeviceObservation

def DeviceObservation.reusable (observation : DeviceObservation) : Bool :=
  observation.health = .ready ∧ observation.processCount = 0

def validatedDiscovery (inventory : List AcceleratorDevice) (snapshot : List DeviceObservation) :
    Except DeviceStatusError Unit :=
  if (inventory.any fun device => isBlank device.deviceId) ∨ ¬ (inventory.map AcceleratorDevice.deviceId).Nodup then
    .error (.invalidResponse "accelerator inventory contains an empty or duplicate device ID")
  else if ¬ (snapshot.map DeviceObservation.deviceId).Nodup ∨
      ∃ observation ∈ snapshot, observation.deviceId ∉ inventory.map AcceleratorDevice.deviceId then
    .error (.invalidResponse "device observations contain an unknown or duplicate device ID")
  else .ok ()

namespace DeviceSelectionPolicy

variable (policy : DeviceSelectionPolicy)

def allows (device : AcceleratorDevice) : Bool :=
  policy.allowedDeviceIds.isEmpty || decide (device.deviceId ∈ policy.allowedDeviceIds)

def before (a b : AcceleratorDevice) : Prop :=
  if policy.preferredDeviceId = some a.deviceId then True
  else if policy.preferredDeviceId = some b.deviceId then False
  else a.deviceId ≤ b.deviceId

instance : DecidableRel policy.before := fun _ _ => by
  unfold before
  infer_instance

end DeviceSelectionPolicy

def firstReady (snapshot : List DeviceObservation) (leases : List DeviceLease) :
    List AcceleratorDevice → Except DeviceStatusError SelectedDevice
  | [] => .error (.unavailable "no allowed accelerator is Ready, process-free, and unleased")
  | identity :: rest =>
    match snapshot.find? fun observation => observation.deviceId = identity.deviceId with
    | none => .error (.invalidResponse s!"device probe omitted inventory device {identity.deviceId}")
    | some observation =>
      if observation.reusable ∧ identity.deviceId ∉ leases.map DeviceLease.deviceId then .ok ⟨identity, observation⟩
      else firstReady snapshot leases rest

def selectReadyDevice (inventory : List AcceleratorDevice) (snapshot : List DeviceObservation)
    (leases : List DeviceLease) (policy : DeviceSelectionPolicy) : Except DeviceStatusError SelectedDevice := do
  validatedDiscovery inventory snapshot
  firstReady snapshot leases ((inventory.filter policy.allows).insertionSort policy.before)

variable {snapshot : List DeviceObservation} {leases : List DeviceLease} {selected : SelectedDevice}

theorem firstReady_mem {devices : List AcceleratorDevice} (h : firstReady snapshot leases devices = .ok selected) :
    selected.identity ∈ devices := by
  induction devices with
  | nil => cases h
  | cons identity rest ih =>
    unfold firstReady at h
    split at h
    · cases h
    · split at h
      · cases h
        exact List.mem_cons_self
      · exact List.mem_cons_of_mem _ (ih h)

theorem selectReadyDevice_named {inventory : List AcceleratorDevice} {policy : DeviceSelectionPolicy}
    (h : selectReadyDevice inventory snapshot leases policy = .ok selected) :
    ¬ isBlank selected.identity.deviceId = true := by
  obtain ⟨_, hvalid, hready⟩ := Effect.bind_eq_ok.mp h
  have hmem := (List.mem_insertionSort _).mp (firstReady_mem hready)
  have hinventory := (List.mem_filter.mp hmem).1
  intro hblank
  unfold validatedDiscovery at hvalid
  rw [if_pos (.inl (List.any_eq_true.mpr ⟨_, hinventory, hblank⟩))] at hvalid
  cases hvalid

inductive ContainerEngineError where
  | invalidConfiguration (detail : String)
  | unavailable (detail : String)
  | commandFailed (detail : String)
  | invalidResponse (detail : String)
  | internal (detail : String)

structure ContainerIdentity where
  name : String
  attemptId : String
  bundleDigest : String
  imageManifestDigest : String
  imageId : String
  deriving DecidableEq

inductive ContainerPhase where
  | created
  | running
  | exited
  deriving DecidableEq

def ContainerPhase.debug : ContainerPhase → String
  | .created => "Created"
  | .running => "Running"
  | .exited => "Exited"

structure ContainerSnapshot where
  identity : ContainerIdentity
  phase : ContainerPhase

structure ContainerExit where
  exitCode : Int
  elapsedMs : Nat
  deriving DecidableEq

structure ContainerLogs where
  stdout : List UInt8
  stderr : List UInt8
  outputLimitExceeded : Bool

def containerName (attemptId : String) : String := s!"alloyport-{attemptId}"

theorem containerName_inj {a b : String} (h : containerName a = containerName b) : a = b := by
  have hh := congrArg String.toList h
  simpa [containerName, ToString.toString, String.toList_inj] using hh

inductive ContainerTermination where
  | exited (exit : ContainerExit)
  | cancelled (exit : ContainerExit)
  | timedOut (exit : ContainerExit)
  | outputLimitExceeded (exit : ContainerExit)

def ContainerTermination.exit : ContainerTermination → ContainerExit
  | .exited exit | .cancelled exit | .timedOut exit | .outputLimitExceeded exit => exit

/-- The details that a backend gives its outcomes, and its test for the evidence of a success: a
fixture's marker or the receipt of a correctness run. -/
structure OutcomePolicy where
  exited : String
  nonzero : String
  missingEvidence : String
  hasSuccessEvidence : List UInt8 → Bool

structure ExecutorResult where
  outcome : AttemptOutcome
  exitCode : Option Int
  elapsedMs : Nat
  stdout : List UInt8
  stderr : List UInt8
  detail : String

def enforceOutputLimit (logs : ContainerLogs) (limit : Nat) : ContainerLogs :=
  if saturatingAdd logs.stdout.length logs.stderr.length ≤ limit then logs
  else
    let stdout := logs.stdout.take (min limit logs.stdout.length)
    ⟨stdout, logs.stderr.take (limit - stdout.length), true⟩

def ContainerTermination.forced : ContainerTermination → Option (AttemptOutcome × String)
  | .exited _ => none
  | .cancelled _ => some (.cancelled, "execution cancelled")
  | .timedOut _ => some (.timedOut, "execution timed out")
  | .outputLimitExceeded _ => some (.infraError, "execution output limit exceeded")

def classifyVerifiedOutcome (termination : ContainerTermination) (logs : ContainerLogs) (timeoutMs : Nat)
    (policy : OutcomePolicy) : ExecutorResult :=
  let exit := termination.exit
  let result (outcome : AttemptOutcome) (exitCode : Option Int) (elapsedMs : Nat) (detail : String) : ExecutorResult :=
    ⟨outcome, exitCode, elapsedMs, logs.stdout, logs.stderr, detail⟩
  if logs.outputLimitExceeded then result .infraError none exit.elapsedMs "execution output limit exceeded"
  else match termination.forced with
  | some (outcome, detail) => result outcome none (if outcome = .timedOut then timeoutMs else exit.elapsedMs) detail
  | none =>
    if exit.exitCode ≠ 0 then result .candidateFailed (some exit.exitCode) exit.elapsedMs policy.nonzero
    else if policy.hasSuccessEvidence logs.stdout then result .succeeded (some 0) exit.elapsedMs policy.exited
    else result .integrityViolation (some 0) exit.elapsedMs policy.missingEvidence

theorem classifyVerifiedOutcome_candidateFailed {termination : ContainerTermination} {logs : ContainerLogs}
    {timeoutMs : Nat} {policy : OutcomePolicy}
    (h : (classifyVerifiedOutcome termination logs timeoutMs policy).outcome = .candidateFailed) :
    ∃ exit, termination = .exited exit ∧ exit.exitCode ≠ 0 := by
  unfold classifyVerifiedOutcome at h
  cases termination with
  | exited exit =>
    refine ⟨exit, rfl, fun hzero => ?_⟩
    simp only [ContainerTermination.forced, ContainerTermination.exit, hzero] at h
    split at h
    · cases h
    · simp only [ne_eq, not_true_eq_false, if_false] at h
      split at h <;> cases h
  | cancelled exit | timedOut exit | outputLimitExceeded exit =>
    simp only [ContainerTermination.forced] at h
    split at h <;> cases h

end AlloyPort

/-! The steps an execution can be stopped between: calls of the journal, of the container engine and of
the device probe, the claim on its attempt, and the artifacts it stores and publishes. -/

namespace AlloyPort

open Effect

inductive EngineOp where
  | resolveImageId (assignment : StoredAssignment)
  | inspect (name : String)
  | create (identity : ContainerIdentity)
  | start (name : String)
  | wait (name : String)
  | logs (name : String) (limit : Nat)
  | followLogs (name : String) (limit : Nat)
  | stop (name : String)
  | remove (name : String)

@[reducible] def EngineOp.Result : EngineOp → Type
  | resolveImageId .. => String
  | inspect .. => Option ContainerSnapshot
  | wait .. => ContainerExit
  | logs .. | followLogs .. => ContainerLogs
  | create .. | start .. | stop .. | remove .. => Unit

abbrev EngineOp.Reply (operation : EngineOp) : Type := Except ContainerEngineError operation.Result

/-- What ends the `select!` of a supervisor whose log follower is done. -/
inductive Ending where
  | cancelled
  | timeout
  | exit (exit : Except ContainerEngineError ContainerExit)

inductive Wakeup where
  | ending (ending : Ending)
  | logs (logs : Except ContainerEngineError ContainerLogs)

inductive CleanupIntent where
  | releaseAfterCommit
  | quarantineVisibleProcesses
  | recoverOrQuarantineAfterCommit

def CleanupIntent.fromObservation (observation : DeviceObservation) : CleanupIntent :=
  if observation.processCount > 0 then .quarantineVisibleProcesses
  else if observation.health = .ready then .releaseAfterCommit
  else .recoverOrQuarantineAfterCommit

/-- What a run receipt says beyond the assignment and the digests of the output. -/
structure RunReceipt where
  lease : DeviceLease
  preObservation : DeviceObservation
  postObservation : DeviceObservation
  postCommitCleanup : CleanupIntent
  result : ExecutorResult

/-- A claim notes the device that the claiming runtime is bound to, a snapshot the leases that the
selection reads with it. `plan` materializes the bundle of an assignment and answers with the image ID
of the plan made for it. -/
inductive RuntimeOp where
  | journal (operation : JournalOperation)
  | nowUnixMs
  | claim (deviceId attemptId : String)
  | unclaim (attemptId : String)
  | snapshot (leases : List DeviceLease)
  | observeDevice (deviceId : String)
  | recoverDevice (deviceId : String)
  | supervisorFor (deviceId : String)
  | plan (assignment : StoredAssignment)
  | engine (operation : EngineOp)
  | select (name : String) (limit : Nat)
  | selectEnding (name : String)
  | store (content : List UInt8)
  | storeReceipt (receipt : RunReceipt)
  | publish (attemptId : String) (finished : StoredFinished)

@[reducible] def RuntimeOp.Reply : RuntimeOp → Type
  | journal operation => operation.Reply
  | nowUnixMs => Nat
  | claim .. => Bool
  | unclaim .. => Unit
  | snapshot .. => Except DeviceStatusError (List DeviceObservation)
  | observeDevice .. | recoverDevice .. => Except DeviceStatusError DeviceObservation
  | supervisorFor .. | publish .. => Except String Unit
  | plan .. => Except String String
  | engine operation => operation.Reply
  | select .. => Wakeup
  | selectEnding .. => Ending
  | store .. | storeReceipt .. => Except String ArtifactDescriptor

abbrev RuntimeProgram := Prog RuntimeOp RuntimeOp.Reply

inductive DeviceGuardError where
  | journal (error : AttemptStoreError)
  | probeRetained (error : DeviceStatusError)
  | occupied (observation : DeviceObservation)
  | notReadyRetained (observation : DeviceObservation)
  | occupiedRetained (observation : DeviceObservation)
  | recoveryRetained (error : DeviceStatusError)
  | recoveryIncompleteRetained (before after : DeviceObservation)

inductive SupervisorError where
  | contract (detail : String)
  | engine (error : ContainerEngineError)
  | invariant (detail : String)
  | imageMismatch (expected actual : String)
  | identityConflict (name : String)

inductive CleanupError where
  | engine (error : ContainerEngineError)
  | guard (error : DeviceGuardError)

inductive ExecutionRuntimeError where
  | missingAttempt (attemptId : String)
  | missingTerminalData (attemptId : String)
  | attemptAlreadyRunning (attemptId : String)
  | journal (error : AttemptStoreError)
  | device (error : DeviceStatusError)
  | guard (error : DeviceGuardError)
  | supervisor (error : SupervisorError)
  | integrity (detail : String)
  | artifact (detail : String)
  | publish (detail : String)
  | cleanupAfterCommit (error : CleanupError)

namespace RuntimeProgram

variable {ε α : Type}

def perform (o : RuntimeOp) : RuntimeProgram ε o.Reply := .op o .ret

/-- A call of the journal, whose failure is reported as `fault` says. -/
def journal (fault : AttemptStoreError → ε) (operation : JournalOperation) : RuntimeProgram ε operation.Result :=
  .op (.journal operation) fun reply => .attempt (reply.mapError fault)

def atNow (call : Nat → RuntimeProgram ε α) : RuntimeProgram ε α := .op .nowUnixMs call

def observeDevice (fault : DeviceStatusError → ε) (deviceId : String) : RuntimeProgram ε DeviceObservation :=
  .op (.observeDevice deviceId) fun reply => .attempt (reply.mapError fault)

def recoverDevice (fault : DeviceStatusError → ε) (deviceId : String) : RuntimeProgram ε DeviceObservation :=
  .op (.recoverDevice deviceId) fun reply => .attempt (reply.mapError fault)

def engine (fault : ContainerEngineError → ε) (operation : EngineOp) : RuntimeProgram ε operation.Result :=
  .op (.engine operation) fun reply => .attempt (reply.mapError fault)

end RuntimeProgram

end AlloyPort
