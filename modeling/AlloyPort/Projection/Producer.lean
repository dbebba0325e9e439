import AlloyPort.Interaction.Replay
import AlloyPort.Interaction.Redaction
import AlloyPort.Migration.Driver
import AlloyPort.Service.Ingress
import AlloyPort.Wire.Assignment

/-! What the control service appends to the stream of a run: the start of an assignment and the observations of workers.
The store of the events answers what the service asks of it. -/

namespace AlloyPort.Projection

open Effect Events Interaction Migration

section text

/-- What the first byte of a longer character says: how many bytes follow, the bounds of the next one, and its bits. -/
def sequenceOf (first : Nat) : Option (Nat × Nat × Nat × Nat) :=
  if 0xC2 ≤ first ∧ first ≤ 0xDF then some (1, 0x80, 0xBF, first % 32)
  else if first = 0xE0 then some (2, 0xA0, 0xBF, first % 16)
  else if first = 0xED then some (2, 0x80, 0x9F, first % 16)
  else if 0xE1 ≤ first ∧ first ≤ 0xEF then some (2, 0x80, 0xBF, first % 16)
  else if first = 0xF0 then some (3, 0x90, 0xBF, first % 8)
  else if 0xF1 ≤ first ∧ first ≤ 0xF3 then some (3, 0x80, 0xBF, first % 8)
  else if first = 0xF4 then some (3, 0x80, 0x8F, first % 8)
  else none

def replacement : Char := Char.ofNat 0xFFFD

def takeSequence : (more low high value : Nat) → List UInt8 → Char × List UInt8
  | 0, _, _, value, rest => (Char.ofNat value, rest)
  | _ + 1, _, _, _, [] => (replacement, [])
  | more + 1, low, high, value, byte :: rest =>
    if low ≤ byte.toNat ∧ byte.toNat ≤ high then takeSequence more 0x80 0xBF (value * 64 + byte.toNat % 64) rest
    else (replacement, byte :: rest)

def decodeLossy : Nat → List UInt8 → List Char
  | 0, _ => []
  | _, [] => []
  | fuel + 1, byte :: rest =>
    if byte.toNat < 0x80 then Char.ofNat byte.toNat :: decodeLossy fuel rest
    else match sequenceOf byte.toNat with
      | none => replacement :: decodeLossy fuel rest
      | some (more, low, high, value) =>
        let (character, rest) := takeSequence more low high value rest
        character :: decodeLossy fuel rest

/-- `String::from_utf8_lossy`: each character takes a byte at least. -/
def fromUtf8Lossy (payload : List UInt8) : String := String.ofList (decodeLossy payload.length payload)

example : fromUtf8Lossy [0x41, 0xE2, 0x82, 0xC3, 0xA4, 0xFF] = "A\uFFFDä\uFFFD" := by decide +kernel

end text

section frames

def eventArtifact (artifact : WireArtifact) (reference : String) : ArtifactRef where
  digest := artifact.digest
  mediaType := artifact.mediaType
  sizeBytes := artifact.sizeBytes
  reference

def canonicalEvent (contract : AssignmentContract) (workerId : String) : WorkerEvent → Event
  | .commandStarted =>
    .commandStarted (" ".intercalate contract.execution.argv) (some contract.execution.workingDirectory) workerId
      (some "worker assignment execution")
  | .artifactProduced artifact reference => .artifactProduced (eventArtifact artifact reference)
  | .commandCompleted exitCode elapsedMs timedOut outputArtifact =>
    .commandCompleted exitCode elapsedMs timedOut (outputArtifact.map (eventArtifact · "stdout"))
  | .commandOutput stderr byteOffset payload displaySanitized =>
    .commandOutput (if stderr then .stderr else .stdout) byteOffset (fromUtf8Lossy payload) displaySanitized
  | .warning message => .warning message

def workerEvent (frame : WorkerEventFrame) : ProducerEvent :=
  { ProducerEvent.new frame.contract.taskId.text ⟨"alloyport-worker", frame.workerId⟩ frame.emittedAtMs
      (redactWorkerEvent (canonicalEvent frame.contract frame.workerId frame.event)) with
    taskId := some frame.contract.taskId.text, operationId := some frame.contract.attemptId.text
    authority := .observed, visibility := .user }

def runStartedFrame (contract : AssignmentContract) (nowMs : Nat) : ProducerEvent :=
  { ProducerEvent.new contract.taskId.text ⟨"alloyport-server", "controller"⟩ nowMs
  (.runStarted contract.taskId.text) with
    taskId := some contract.taskId.text, authority := .observed, visibility := .user }

end frames

inductive RunOp where
  | service (op : ServiceOp)
  | eventsAfter (runId : String) (afterSequence limit : Nat)
  | interact (call : InteractionCall)
  | grantRunAccess (runId ownerId : String)
  | preparingAssignments (limit : Nat)
  | task (call : TaskCall)
  | execute (task : MigrationTaskRecord)

@[reducible] def RunOp.Reply : RunOp → Type
  | service op => op.Reply
  | eventsAfter .. => Except Interaction.InteractionError (List EventEnvelope)
  | interact _ => Except Interaction.InteractionError OutputAppend
  | grantRunAccess .. => Except Interaction.InteractionError Unit
  | preparingAssignments _ => Except RepositoryError (List AssignmentRecord)
  | task call => call.Reply
  | execute _ => Except String Unit

abbrev RunProgram := Prog RunOp RunOp.Reply

def ask {ε : Type} (o : RunOp) : RunProgram ε o.Reply := .op o .ret

def asService : Interaction.InteractionError → AlloyPort.InteractionError
  | .storage detail => .storage detail
  | .invalidFrame detail => .invalidFrame detail
  | .conflictingDedupKey key => .conflictingDedupKey key
  | .conflictingOutput attemptId stream byteOffset => .conflictingOutput attemptId stream byteOffset
  | .invalidCursor runId afterSequence latestSequence => .invalidCursor runId afterSequence latestSequence
  | .valueOutOfRange value => .valueOutOfRange value

section service

variable {ε : Type}

def appendFrame (dedupKey : String) (frame : ProducerEvent) :
    RunProgram ε (Except Interaction.InteractionError OutputAppend) :=
  ask (.interact (.append dedupKey frame))

def recordRunStarted (contract : AssignmentContract) (nowMs : Nat) :
    RunProgram ε (Except AlloyPort.InteractionError Unit) := do
  match ← ask (.eventsAfter contract.taskId.text 0 1) with
  | .error error => return .error (asService error)
  | .ok (_ :: _) => return .ok ()
  | .ok [] => do
    let reply ← appendFrame s!"task:{contract.taskId}:run-started" (runStartedFrame contract nowMs)
    return (reply.mapError asService).map fun _ => ()

def projected : (o : ServiceOp) → RunProgram ε o.Reply
  | .recordRunStarted contract nowMs => recordRunStarted contract nowMs
  | .append dedupKey frame => do
    let reply ← appendFrame dedupKey (workerEvent frame)
    return (reply.mapError asService).map fun _ => ()
  | .appendOutput dedupKey output frame => do
    let reply ← ask
      (.interact (.appendOutput dedupKey output.attemptId output.stream output.byteOffset output.payload
        (workerEvent frame)))
    return (reply.mapError asService).map OutputAppend.missingBytesBefore
  | o => .op (.service o) .ret

end service

section assignments

open WorkerControlService

def reconcileAssignment (assignment : AssignmentRecord) : ServiceProgram RepositoryError Unit := do
  let workerId := assignment.workerId
  let attemptId := assignment.contract.attemptId.text
  let nowMs ← perform .nowUnixMs
  match ← perform (.grantInput workerId assignment.contract nowMs) with
  | .error _ => do
    let _ ← persist (.deferAssignmentPreparation attemptId workerId nowMs) id
    return ()
  | .ok () => do
    match ← perform (.recordRunStarted assignment.contract nowMs) with
    | .error _ => do
      let _ ← persist (.deferAssignmentPreparation attemptId workerId nowMs) id
      return ()
    | .ok () => do
      let becameDispatchable : Bool ← persist (.markAssignmentDispatchable attemptId workerId nowMs) id
      if becameDispatchable = false then return ()
      else do
        match ← (prepareAssignment workerId attemptId).result with
        | .error _ => return ()
        | .ok outbound => do
          let _ ← deliver workerId outbound
          return ()

end assignments

inductive RunFailure where
  | service (failure : ServiceFailure)
  | task (error : MigrationTaskError)
  | interaction (error : Interaction.InteractionError)

section programs

def PREPARATION_RECONCILE_BATCH_SIZE : Nat := 128

def reconcileAll : List AssignmentRecord → RunProgram RunFailure Unit
  | [] => return ()
  | assignment :: rest => do
    ((reconcileAssignment assignment).mapError fun error => RunFailure.service (.repository error)).handle projected
    reconcileAll rest

def reconcilePreparingAssignments : RunProgram RunFailure Unit := do
  let reply ← ask (.preparingAssignments PREPARATION_RECONCILE_BATCH_SIZE)
  let assignments ← Prog.attempt (reply.mapError fun error => RunFailure.service (.repository error))
  reconcileAll assignments

end programs

/-! The server as a whole: the control service, the store of the events and the store of the migrations. -/

/-- `ORDER BY updated_at_ms, attempt_id`. -/
def updatedBefore (a b : AssignmentRecord) : Bool :=
  a.updatedAtMs < b.updatedAtMs || (a.updatedAtMs = b.updatedAtMs && a.contract.attemptId.text ≤
    b.contract.attemptId.text)

def preparingAssignments (db : ControlDatabase) (limit : Nat) : List AssignmentRecord :=
  let rows := db.assignments.entries.filter fun row => row.2.state = .preparing
  ((rows.map fun row => row.2.record).mergeSort updatedBefore).take limit

structure RunsState where
  service : ServiceState
  interactions : InteractionDatabase
  tasks : TaskTable

/-- What an operation may answer and do. Any storage may fail, and an episode may end with anything. -/
inductive RunActs (s : RunsState) : (o : RunOp) → o.Reply → RunsState → Prop where
  | service {o reply service'} (h : ServiceActs s.service o reply service') :
      RunActs s (.service o) reply { s with service := service' }
  | eventsAfter (runId : String) (afterSequence limit : Nat) :
      RunActs s (.eventsAfter runId afterSequence limit)
        (SqliteInteractionStore.eventsAfter s.interactions runId afterSequence limit) s
  | eventsUnread (runId : String) (afterSequence limit : Nat) (detail : String) :
      RunActs s (.eventsAfter runId afterSequence limit) (.error (.storage detail)) s
  | interact {call reply interactions'} (h : InteractionStep s.interactions ⟨s.interactions, call,
    reply⟩ interactions') :
      RunActs s (.interact call) reply { s with interactions := interactions' }
  | grantRunAccess (runId ownerId : String) (reply : Except Interaction.InteractionError Unit) :
      RunActs s (.grantRunAccess runId ownerId) reply s
  | preparingAssignments (limit : Nat) :
      RunActs s (.preparingAssignments limit) (.ok (preparingAssignments s.service.db limit)) s
  | assignmentsUnread (limit : Nat) (error : RepositoryError) : RunActs s (.preparingAssignments limit) (.error error) s
  | task (call : TaskCall) (storage : Storage) :
      RunActs s (.task call) (call.perform storage s.tasks).2 { s with tasks := (call.perform storage s.tasks).1 }
  | execute (task : MigrationTaskRecord) (result : Except String Unit) : RunActs s (.execute task) result s

end AlloyPort.Projection
