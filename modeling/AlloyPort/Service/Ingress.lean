import AlloyPort.Service.Observer

/-! Ingestion of worker frames: their sequencing, the observation they carry and its acknowledgement.
The use cases of the service are collected as the programs that may run beside each other. -/

namespace AlloyPort

open Effect

def validateWorkerFrame (frame : WorkerToServer) : Except ValidationError Unit :=
  match frame.message with
  | some (.outputChunk output) =>
    if output.payload.length > maxOutputPreviewChunkBytes then
      .error ("output_chunk.payload", "exceeds the per-frame preview limit")
    else .ok ()
  | _ => .ok ()

def validateDevices : List String → List WireDeviceObservation → Except ValidationError Unit
  | _, [] => .ok ()
  | observed, device :: rest => do
    validateText "heartbeat.devices.device_id" device.deviceId
    if device.deviceId ∈ observed then .error ("heartbeat.devices.device_id", "duplicate")
    else if ¬ (1 ≤ device.health ∧ device.health ≤ 4) then
      .error ("heartbeat.devices.health", "unspecified or unknown")
    else if device.utilizationPercent > 100 then
      .error ("heartbeat.devices.utilization_percent", "must not exceed 100")
    else if device.memoryUsedBytes > device.memoryTotalBytes then
      .error ("heartbeat.devices.memory_used_bytes", "must not exceed total memory")
    else if device.detail.utf8ByteSize > 1024 then .error ("heartbeat.devices.detail", "exceeds 1024 bytes")
    else validateDevices (device.deviceId :: observed) rest

def validateLeases : List String → List String → List WireDeviceLease → Except ValidationError Unit
  | _, _, [] => .ok ()
  | attempts, devices, lease :: rest => do
    validateText "heartbeat.device_leases.attempt_id" lease.attemptId
    validateText "heartbeat.device_leases.device_id" lease.deviceId
    if lease.attemptId ∈ attempts then .error ("heartbeat.device_leases.attempt_id", "duplicate")
    else if lease.deviceId ∈ devices then
      .error ("heartbeat.device_leases.device_id", "duplicate active device lease")
    else validateLeases (lease.attemptId :: attempts) (lease.deviceId :: devices) rest

def validateHeartbeat (heartbeat : Heartbeat) : Except ValidationError Unit := do
  if ¬ (1 ≤ heartbeat.health ∧ heartbeat.health ≤ 3) then .error ("heartbeat.health", "unspecified or unknown")
  else do
    validateDevices [] heartbeat.devices
    validateLeases [] [] heartbeat.deviceLeases

namespace WorkerControlService

def validateHeartbeatAgainstHello (heartbeat : Heartbeat) (hello : WorkerHello) : Except Status Unit :=
  match hello.capabilities with
  | none => .error (failedPrecondition "registered worker capabilities are missing")
  | some capabilities =>
    let knownDevices := capabilities.devices.map WireAcceleratorDevice.deviceId
    if heartbeat.availableSlots > capabilities.maxConcurrency ∨
        heartbeat.deviceFreeSlots > capabilities.maxConcurrency then
      .error (invalidArgument "heartbeat available slots exceed registered concurrency")
    else if heartbeat.deviceFreeSlots < heartbeat.availableSlots then
      .error (invalidArgument "heartbeat device-free slots are below device-bound slots")
    else if heartbeat.devices.any (fun device => device.deviceId ∉ knownDevices) ∨
        heartbeat.deviceLeases.any (fun lease => lease.deviceId ∉ knownDevices) then
      .error (invalidArgument "heartbeat references a device absent from registered capabilities")
    else if "ascend-fixture-v1" ∈ hello.features ∧ heartbeat.health = 1 ∧
        heartbeat.devices.length ≠ knownDevices.dedup.length then
      .error (invalidArgument "ready fixed Ascend heartbeat must observe every registered device")
    else if heartbeat.deviceLeases.any (fun lease =>
        lease.attemptId ∉ heartbeat.activeAttempts.map (·.attemptId)) then
      .error (invalidArgument "heartbeat device lease does not name a durable local attempt")
    else .ok ()

def validateWorkerAcknowledgement (acknowledged lastAcknowledged sentServerThrough : Nat) : Except Status Unit :=
  if acknowledged < lastAcknowledged then
    .error (invalidArgument s!"worker acknowledgement regressed from {lastAcknowledged} to {acknowledged}")
  else if acknowledged > sentServerThrough then
    .error (invalidArgument
      s!"worker acknowledged server sequence {acknowledged} beyond sent sequence {sentServerThrough}")
  else .ok ()

def superseded : Status := ⟨.aborted, "worker connection was superseded"⟩

def heartbeatOf (frame : WorkerToServer) : Option Heartbeat :=
  match frame.message with
  | some (.heartbeat heartbeat) => some heartbeat
  | _ => none

def supportsDurableMessageIds (worker : WorkerRecord) : Bool := worker.hello.protocolMinor ≥ 2

def validateMessageId (frame : WorkerToServer) : Except Status Unit :=
  match expectedWorkerMessageId frame.message with
  | some expected =>
    if frame.messageId ≠ expected then .error (invalidArgument s!"worker message ID must be {expected}") else .ok ()
  | none =>
    if frame.messageId ≠ "" then .error (invalidArgument "ephemeral worker frame cannot carry a message ID")
    else .ok ()

/-- The checks of a frame against the worker's record, made under the state lock. -/
def admitFrame (connectionId : String) (frame : WorkerToServer) (worker : WorkerRecord) : Except Status Unit := do
  if worker.connectionId ≠ connectionId ∨ worker.connected = false then .error superseded
  else do
    match heartbeatOf frame with
    | some heartbeat => validateHeartbeatAgainstHello heartbeat worker.hello
    | none => .ok ()
    if frame.sequence ≠ worker.lastWorkerSequence + 1 then
      .error (invalidArgument
        s!"worker sequence gap: expected {worker.lastWorkerSequence + 1}, got {frame.sequence}")
    else do
      validateWorkerAcknowledgement frame.acknowledgesServerThrough worker.lastServerSequenceAcknowledged
        (worker.nextServerSequence - 1)
      if supportsDurableMessageIds worker then validateMessageId frame else .ok ()

def validateFrame (frame : WorkerToServer) : Except Status Unit := do
  (validateWorkerFrame frame).mapError fun error => invalidArgument error.display
  match heartbeatOf frame with
  | some heartbeat => (validateHeartbeat heartbeat).mapError fun error => invalidArgument error.display
  | none => .ok ()

def ingest (workerId connectionId : String) (frame : WorkerToServer) : ServiceProgram Status Bool := do
  Prog.attempt (validateFrame frame)
  match ← perform (.worker workerId) with
  | none => .fail (failedPrecondition "worker is not registered")
  | some worker => do
    Prog.attempt (admitFrame connectionId frame worker)
    let nowMs ← perform .nowUnixMs
    observeMessage workerId frame.message nowMs
    match ← perform (.accept workerId connectionId frame.sequence frame.acknowledgesServerThrough
      (heartbeatOf frame)) with
    | none => .fail superseded
    | some lastServerSequence => do
      let _ ← persistOrStatus (.compactServerFrames connectionId frame.acknowledgesServerThrough nowMs)
      persistOrStatus (.updateConnectionSequences connectionId frame.sequence lastServerSequence
        frame.acknowledgesServerThrough nowMs)
      return supportsDurableMessageIds worker && (expectedWorkerMessageId frame.message).isSome

end WorkerControlService

/-- What the ingestion of a frame may do: observe, and read and count under the state lock. -/
def ServiceOp.IsIngestion : ServiceOp → Prop
  | .persist (.compactServerFrames ..) | .persist (.updateConnectionSequences ..) => True
  | .nowUnixMs | .worker .. | .accept .. => True
  | o => o.IsObservation

namespace WorkerControlService

theorem performs_ingest {workerId connectionId : String} {frame : WorkerToServer} :
    Performs ServiceOp.IsIngestion (ingest workerId connectionId frame) := by
  have hobserve : ∀ nowMs, Performs ServiceOp.IsIngestion (observeMessage workerId frame.message nowMs) := by
    refine fun nowMs => performs_mono performs_observeMessage fun o ho => ?_
    unfold ServiceOp.IsIngestion
    split
    all_goals trivial
  refine performs_bind performs_attempt fun _ => ?_
  refine performs_bind (performs_perform trivial) fun found => ?_
  cases found with
  | none => trivial
  | some worker =>
    refine performs_bind performs_attempt fun _ => ?_
    refine performs_bind (performs_perform trivial) fun nowMs => ?_
    refine performs_bind (hobserve nowMs) fun _ => ?_
    refine performs_bind (performs_perform trivial) fun accepted => ?_
    cases accepted with
    | none => trivial
    | some lastServerSequence =>
      refine performs_bind (performs_persist trivial) fun _ => ?_
      exact performs_bind (performs_persist trivial) fun _ => trivial

def endStream (connectionId : String) (status : Status) : ServiceProgram Status Unit := do
  let _ ← perform (.send connectionId (.error status))
  return ()

def acknowledge (workerId connectionId : String) : ServiceProgram Status Bool := do
  match ← (prepareTransportAck workerId connectionId).result with
  | .ok (some (sender, message)) => perform (.send sender (.ok message))
  | .ok none => return false
  | .error error => do
    endStream connectionId (repositoryStatus error)
    return false

def consumeFrame (workerId connectionId : String) (frame : WorkerToServer) : ServiceProgram Status Bool := do
  match ← perform (.revalidate connectionId) with
  | .error status => do
    endStream connectionId status
    return false
  | .ok () => do
    match ← (ingest workerId connectionId frame).result with
    | .ok true => acknowledge workerId connectionId
    | .ok false => return true
    | .error status => do
      endStream connectionId status
      return false

def consumeFrames (workerId connectionId : String) : Nat → ServiceProgram Status Unit
  | 0 => return ()
  | frames + 1 => do
    match ← perform (.receive connectionId) with
    | some (.ok frame) =>
      if ← consumeFrame workerId connectionId frame then consumeFrames workerId connectionId frames else return ()
    | some (.error status) => endStream connectionId status
    | none => return ()

def disconnect (workerId connectionId : String) : ServiceProgram Status Unit := do
  let nowMs ← perform .nowUnixMs
  let _ ← (persistOrStatus (.disconnect connectionId nowMs)).result
  perform (.markDisconnected workerId connectionId)

def consumeStream (workerId connectionId : String) (frames : Nat) : ServiceProgram Status Unit := do
  consumeFrames workerId connectionId frames
  disconnect workerId connectionId

def sendAll (connectionId : String) : List ServerToWorker → ServiceProgram Status Unit
  | [] => return ()
  | message :: rest => do
    if ← perform (.send connectionId (.ok message)) then sendAll connectionId rest
    else .fail ⟨.unavailable, "worker response stream closed"⟩

def openControlStream (hello : WorkerHello) : ServiceProgram Status String := do
  let (connectionId, initialMessages) ← (register hello).mapError repositoryStatus
  sendAll connectionId initialMessages
  return connectionId

end WorkerControlService

/-- What the consumer of a stream may do besides its acknowledgements. -/
def ServiceOp.IsReading : ServiceOp → Prop
  | .revalidate _ | .receive _ | .send _ (.error _) | .markDisconnected .. | .persist (.disconnect ..) => True
  | o => o.IsIngestion

section consuming

open WorkerControlService

variable {G : Type} {C : Contract ServiceOp ServiceOp.Reply G} {quiet : G → Prop} {workerId connectionId : String}
  {g : G}

theorem performs_endStream {allowed : ServiceOp → Prop} {status : Status}
    (h : allowed (.send connectionId (.error status))) : Performs allowed (endStream connectionId status) :=
  performs_bind (performs_perform h) fun _ => trivial

/-- Whatever the operations of a consumer and its acknowledgements keep is kept by it until its stream ends. -/
theorem ends_consumeStream {frames : Nat}
    (hreading : ∀ o, ServiceOp.IsReading o → ∀ g, C.pre g o ∧ ∀ r g', C.post g o r g' → quiet g → quiet g')
    (hack : ∀ g, quiet g → ends C g (acknowledge workerId connectionId) fun g' _ => quiet g') (hquiet : quiet g) :
    ends C g (consumeStream workerId connectionId frames) fun g' _ => quiet g' := by
  have hreads {α : Type} {g : G} {p : ServiceProgram Status α} (hquiet : quiet g)
    (hp : Performs ServiceOp.IsReading p) :
      ends C g p fun g' _ => quiet g' :=
    ends_mono (hp.ends (r := fun g g' => quiet g → quiet g') (fun _ h => h) (fun h h' => h' ∘ h) hreading)
      fun _ _ h => h hquiet
  have hended {status : Status} : Performs ServiceOp.IsReading (endStream connectionId status) :=
    performs_endStream trivial
  have hframe {g : G} {frame : WorkerToServer} (hquiet : quiet g) :
      ends C g (consumeFrame workerId connectionId frame) fun g' _ => quiet g' := by
    refine ends_bind_cases (hreads hquiet (performs_perform trivial)) (fun _ _ h => h) fun g valid hquiet => ?_
    cases valid with
    | error status => exact hreads hquiet (performs_bind hended fun _ => trivial)
    | ok u =>
      have hingest : Performs ServiceOp.IsReading (ingest workerId connectionId frame) := by
        refine performs_mono performs_ingest fun o ho => ?_
        unfold ServiceOp.IsReading
        split <;> trivial
      refine ends_bind.mpr (ends_result.mpr (ends_mono (hreads hquiet hingest) fun g r hquiet => ?_))
      rcases r with status | goesOn
      · exact hreads hquiet (performs_bind hended fun _ => trivial)
      · cases goesOn with
        | true => exact hack g hquiet
        | false => exact hquiet
  have hframes : ends C g (consumeFrames workerId connectionId frames) fun g' _ => quiet g' := by
    induction frames generalizing g with
    | zero => exact hquiet
    | succ frames ih =>
      refine ends_bind_cases (hreads hquiet (performs_perform trivial)) (fun _ _ h => h) fun g received hquiet => ?_
      rcases received with _ | status | frame
      · exact hquiet
      · exact hreads hquiet hended
      · refine ends_bind_cases (hframe hquiet) (fun _ _ h => h) fun g goesOn hquiet => ?_
        cases goesOn with
        | true => exact ih hquiet
        | false => exact hquiet
  refine ends_bind_cases hframes (fun _ _ h => h) fun g _ hquiet => hreads hquiet ?_
  refine performs_bind (performs_perform trivial) fun now => ?_
  exact performs_bind (performs_result (performs_persist trivial)) fun _ => performs_perform trivial

end consuming

inductive ServiceRequest where
  | register (hello : WorkerHello)
  | openControlStream (hello : WorkerHello)
  | consumeStream (workerId connectionId : String) (frames : Nat)
  | enqueueAssignment (workerId : String) (assignment : Except String AssignmentContract)
  | cancelAttempt (attemptId reason : String)

inductive ServiceFailure where
  | status (status : Status)
  | enqueue (error : EnqueueError)
  | repository (error : RepositoryError)

inductive ServiceReply where
  | registered (connectionId : String) (initialMessages : List ServerToWorker)
  | opened (connectionId : String)
  | consumed
  | enqueued (outcome : WorkerControlService.EnqueueOutcome)
  | cancelled (outcome : WorkerControlService.CancelOutcome)

def ServiceRequest.program : ServiceRequest → ServiceProgram ServiceFailure ServiceReply
  | .register hello => do
    let (connectionId, initialMessages) ← (WorkerControlService.register hello).mapError .repository
    return .registered connectionId initialMessages
  | .openControlStream hello => do
    let connectionId ← (WorkerControlService.openControlStream hello).mapError .status
    return .opened connectionId
  | .consumeStream workerId connectionId frames => do
    (WorkerControlService.consumeStream workerId connectionId frames).mapError .status
    return .consumed
  | .enqueueAssignment workerId assignment => do
    let outcome ← (WorkerControlService.enqueueAssignment workerId assignment).mapError .enqueue
    return .enqueued outcome
  | .cancelAttempt attemptId reason => do
    let outcome ← (WorkerControlService.cancelAttempt attemptId reason).mapError .repository
    return .cancelled outcome

def ServiceState.Arrives (s s' : ServiceState) : Prop :=
  ∃ connectionId frame, s' =
    { s with inbound := Function.update s.inbound connectionId (s.inbound connectionId ++ [frame]) }

abbrev ServingConfig := Interleaving.Config ServiceState ServiceOp ServiceOp.Reply ServiceFailure ServiceReply

abbrev ServiceEvent := Interleaving.Event ServiceOp ServiceOp.Reply

/-- Any number of use cases over one service, and workers that send whatever they like. -/
def serviceWorld : Interleaving.World ServiceState ServiceOp ServiceOp.Reply ServiceFailure ServiceReply where
  acts := ServiceActs
  moves := ServiceState.Arrives
  starts _ p := ∃ request, p = ServiceRequest.program request

def ServingConfig.initial (db : ControlDatabase) (counter : Nat) : ServingConfig where
  state := ⟨db, counter, ∅, false, fun _ => [], fun _ => false, fun _ => []⟩
  tasks := []
  log := []

open Interleaving

def ServiceState.perform (s : ServiceState) : (o : ServiceOp) → Option (o.Reply × ServiceState)
  | .persist operation => some ((operation.execute s.db).2, { s with db := (operation.execute s.db).1 })
  | .nextConnection => some (s.connectionCounter, { s with connectionCounter := s.connectionCounter + 1 })
  | .nextLease => some ((0 : Nat), s)
  | .nowUnixMs => some ((0 : Nat), s)
  | .lockDelivery => if s.delivering then none else some ((), { s with delivering := true })
  | .unlockDelivery => some ((), { s with delivering := false })
  | .worker workerId => some (s.workers.lookup workerId, s)
  | .publish workerId record => some ((), { s with workers := s.workers.insert workerId record })
  | .advance workerId connectionId sequence =>
    if s.mayAdvance workerId connectionId sequence then some (true, s.advanced workerId) else some (false, s)
  | .accept workerId connectionId sequence acknowledged heartbeat =>
    if s.mayAccept workerId connectionId sequence then
      some (some (s.lastServerSequence workerId), s.accepted workerId sequence acknowledged heartbeat)
    else some (none, s)
  | .markSendFailed workerId => some ((), s.disconnected workerId)
  | .markDisconnected workerId connectionId =>
    some ((), s.updateRecord workerId fun record =>
      if record.connectionId = connectionId then { record with connected := false } else record)
  | .send connectionId frame => if s.closed connectionId then none else some (true, s.sent connectionId frame)
  | .receive connectionId =>
    match s.inbound connectionId with
    | [] => some ((none : Option (Except Status WorkerToServer)), s)
    | frame :: rest => some (some (.ok frame), { s with inbound := Function.update s.inbound connectionId rest })
  | .revalidate _ => some ((.ok () : Except Status Unit), s)
  | .grantInput .. => some ((.ok () : Except EnqueueError Unit), s)
  | .recordRunStarted .. => some ((.ok () : Except InteractionError Unit), s)
  | .append .. => some ((.ok () : Except InteractionError Unit), s)
  | .appendOutput .. => some ((.ok 0 : Except InteractionError Nat), s)
  | .hasArtifactMetadata => some (true, s)
  | .completedUpload .. => some ((.ok none : Except Status (Option CompletedUpload)), s)
  | .grantReference .. => some ((.ok () : Except Status Unit), s)

theorem ServiceState.perform_acts (s : ServiceState) (o : ServiceOp) (reply : o.Reply) (s' : ServiceState)
    (h : s.perform o = some (reply, s')) : ServiceActs s o reply s' := by
  cases o with simp only [perform] at h
  | persist operation =>
    cases h
    exact .persist (.ran operation)
  | nextConnection =>
    cases h
    exact .nextConnection
  | lockDelivery =>
    split at h
    · cases h
    · cases h
      exact .lockDelivery (Bool.eq_false_iff.mpr ‹_›)
  | advance workerId connectionId sequence =>
    split at h
    · cases h
      exact .advanced ‹_›
    · cases h
      exact .superseded (Bool.eq_false_iff.mpr ‹_›)
  | accept workerId connectionId sequence acknowledged heartbeat =>
    split at h
    · cases h
      exact .accepted ‹_›
    · cases h
      exact .notAccepted (Bool.eq_false_iff.mpr ‹_›)
  | send connectionId frame =>
    split at h
    · cases h
    · cases h
      exact .sent frame (Bool.eq_false_iff.mpr ‹_›)
  | receive connectionId =>
    split at h
    · cases h
      exact .broken connectionId none
    · cases h
      exact .received ‹_›
  | _ =>
    cases h
    constructor

def servicePlayer : Player serviceWorld fun _ _ _ => True where
  perform := ServiceState.perform
  allows _ _ _ := true
  acts := ServiceState.perform_acts
  guarded _ _ _ _ := trivial

def ServingConfig.serving (c : ServingConfig) (requests : List ServiceRequest) : ServingConfig :=
  { c with tasks := c.tasks ++ requests.map ServiceRequest.program }

theorem ServingConfig.run_serving {guard : Guard ServiceState ServiceOp ServiceOp.Reply} (c : ServingConfig)
    (requests : List ServiceRequest) (hg : guard c.state c.log .start) :
    Run serviceWorld guard c (c.serving requests) := by
  refine run_starts (fun p hp => ?_) hg
  obtain ⟨request, _, rfl⟩ := List.mem_map.mp hp
  exact ⟨request, rfl⟩

end AlloyPort
