import AlloyPort.Library.Transaction
import AlloyPort.Control.Record

/-! The durable control repository over its tables. Every operation is one transaction; the helpers
of a transaction are transactions themselves. -/

namespace AlloyPort

open Database Transaction

abbrev ControlTransaction := Transaction ControlDatabase RepositoryError

namespace ControlDatabase

def updateAssignment (attemptId : String) (f : AssignmentRow → AssignmentRow) (db : ControlDatabase) :
    ControlDatabase :=
  match db.assignments.lookup attemptId with
  | none => db
  | some row => { db with assignments := db.assignments.insert attemptId (f row) }

def updateLease (attemptId : String) (f : LeaseRow → LeaseRow) (db : ControlDatabase) : ControlDatabase :=
  match db.leases.lookup attemptId with
  | none => db
  | some row => { db with leases := db.leases.insert attemptId (f row) }

def updateConnection (connectionId : String) (f : ConnectionRow → ConnectionRow) (db : ControlDatabase) :
    ControlDatabase :=
  match db.connections.lookup connectionId with
  | none => db
  | some row => { db with connections := db.connections.insert connectionId (f row) }

def updateWorker (workerId : String) (f : WorkerRow → WorkerRow) (db : ControlDatabase) : ControlDatabase :=
  match db.workers.lookup workerId with
  | none => db
  | some row => { db with workers := db.workers.insert workerId (f row) }

def insertAssignment (attemptId : String) (row : AssignmentRow) (db : ControlDatabase) : ControlDatabase :=
  { db with assignments := db.assignments.insert attemptId row }

def upsertLease (attemptId : String) (granted : LeaseRow) (db : ControlDatabase) : ControlDatabase :=
  let lease := match db.leases.lookup attemptId with
    | none => granted
    | some existing =>
      { existing with renewedAtMs := granted.renewedAtMs, expiresAtMs := granted.expiresAtMs, expiredAtMs := none }
  { db with leases := db.leases.insert attemptId lease }

def upsertWorker (registration : WorkerRegistration) (nowMs : Nat) (db : ControlDatabase) : ControlDatabase :=
  let row : WorkerRow := match db.workers.lookup registration.workerId with
    | none => ⟨registration.registration, nowMs, nowMs⟩
    | some existing => { existing with registration := registration.registration, lastSeenAtMs := nowMs }
  { db with workers := db.workers.insert registration.workerId row }

def insertObservation (row : ObservationRow) (db : ControlDatabase) : ControlDatabase :=
  { db with observations := db.observations ++ [row] }

/-- The frames in the table are those of its primary key, connection and sequence. -/
def holdsFrame (db : ControlDatabase) (connectionId : String) (sequence : Nat) : Bool :=
  db.outbox.any fun row => row.frame.connectionId = connectionId ∧ row.frame.sequence = sequence

end ControlDatabase

open ControlDatabase

/-- The test `state IN (2, 3, 4, 8)` of the queries on leases. -/
def AttemptState.isLeased : AttemptState → Bool
  | .sent | .accepted | .running | .cancelRequested => true
  | _ => false

def findAssignment (attemptId : String) : ControlTransaction AssignmentRow := do
  let db ← read
  match db.assignments.lookup attemptId with
  | none => raise (.notFound attemptId)
  | some row => return row

def assignmentIdentity (attemptId workerId : String) (assignmentId : Option String) :
    ControlTransaction AttemptState := do
  let row ← findAssignment attemptId
  if row.workerId ≠ workerId ∨ (assignmentId.any fun expected => row.assignmentId ≠ expected) = true then
    raise (.identityMismatch attemptId)
  else return row.state

def transitionAllowed : AttemptState → AttemptState → Bool
  | .sent, .accepted | .sent, .rejected => true
  | .accepted, .running | .accepted, .finished => true
  | .running, .finished | .cancelRequested, .finished => true
  | .cancelRequested, .rejected => true
  | _, _ => false

def expireOne (attemptId : String) (nowMs : Nat) : ControlTransaction Unit := do
  let now ← attempt (toI64 nowMs)
  write (updateLease attemptId fun lease => { lease with expiredAtMs := some (lease.expiredAtMs.getD now) })
  write (updateAssignment attemptId fun row =>
    if row.state.isLeased then { row with state := .leaseExpired, updatedAtMs := now } else row)

def insertServerFrame (frame : ServerOutboxFrame) (nowMs : Nat) : ControlTransaction Unit := do
  let _ ← attempt (toI64 frame.sequence)
  let now ← attempt (toI64 nowMs)
  let db ← read
  if db.holdsFrame frame.connectionId frame.sequence then
    raise (.storage
      "UNIQUE constraint failed: server_outbox_frames.connection_id, server_outbox_frames.sequence")
  else write fun db => { db with outbox := db.outbox ++ [⟨frame, now, none⟩] }

namespace SqliteControlRepository

def storeAssignment (workerId : String) (contract : AssignmentContract) (atMs : Nat) :
    ControlTransaction StoreAssignmentOutcome := do
  let db ← read
  match db.assignments.lookup contract.attemptId.text with
  | some existing =>
    if existing.workerId = workerId ∧ existing.contract = contract then return .duplicate
    else raise (.conflictingAttempt contract.attemptId.text)
  | none => do
    let now ← attempt (toI64 atMs)
    write (insertAssignment contract.attemptId.text
      ⟨contract.assignmentId.text, workerId, contract, .preparing, now, now, none, none⟩)
    return .inserted

def markAssignmentDispatchable (attemptId workerId : String) (atMs : Nat) : ControlTransaction Bool := do
  let state ← assignmentIdentity attemptId workerId none
  if state = .preparing then do
    let now ← attempt (toI64 atMs)
    write (updateAssignment attemptId fun row => { row with state := .dispatchable, updatedAtMs := now })
    return true
  else return false

def deferAssignmentPreparation (attemptId workerId : String) (retryAtMs : Nat) : ControlTransaction Bool := do
  let retry ← attempt (toI64 retryAtMs)
  let db ← read
  match db.assignments.lookup attemptId with
  | none => return false
  | some row =>
    if row.workerId = workerId ∧ row.state = .preparing then do
      write (updateAssignment attemptId fun row => { row with updatedAtMs := retry })
      return true
    else return false

def existingReassignment (expiredAttemptId replacementWorkerId replacementAttemptId : String) :
    ControlTransaction (Option AssignmentRecord) := do
  let db ← read
  match db.reassignments.lookup expiredAttemptId with
  | none => return none
  | some existing =>
    if existing.replacementAttemptId ≠ replacementAttemptId ∨ existing.replacementWorkerId ≠ replacementWorkerId then
      raise (.conflictingAttempt expiredAttemptId)
    else do
      let row ← findAssignment replacementAttemptId
      return some row.record

def insertReassignment (original : AssignmentRecord)
    (expiredAttemptId replacementWorkerId replacementAttemptId : String) (atMs : Nat) :
    ControlTransaction AssignmentRecord := do
  let db ← read
  if (db.assignments.lookup replacementAttemptId).isSome then raise (.conflictingAttempt replacementAttemptId)
  else match (ValidatedId.tryFrom replacementAttemptId : Option AttemptId) with
  | none => raise (.invalidIdentity "attempt ID must not be empty")
  | some attemptId => do
    let contract := { original.contract with
      attemptId := attemptId, attemptNumber := min (original.contract.attemptNumber + 1) (2 ^ 32 - 1) }
    let now ← attempt (toI64 atMs)
    write (insertAssignment replacementAttemptId
      ⟨contract.assignmentId.text, replacementWorkerId, contract, .preparing, now, now, none, none⟩)
    if (db.reassignments.entries.any fun row => row.2.replacementAttemptId = replacementAttemptId) = true then
      raise (.storage "UNIQUE constraint failed: attempt_reassignments.replacement_attempt_id")
    else do
      let row : ReassignmentRow := ⟨replacementAttemptId, replacementWorkerId, now⟩
      write fun db => { db with reassignments := db.reassignments.insert expiredAttemptId row }
      return ⟨replacementWorkerId, contract, .preparing, atMs, atMs, none⟩

def reassignExpired (expiredAttemptId replacementWorkerId replacementAttemptId : String) (atMs : Nat) :
    ControlTransaction ReassignmentRecord := do
  match ← existingReassignment expiredAttemptId replacementWorkerId replacementAttemptId with
  | some assignment => return ⟨.duplicate, assignment⟩
  | none => do
    let original ← findAssignment expiredAttemptId
    if original.state ≠ .leaseExpired then raise (.invalidTransition original.state .dispatchable)
    else if replacementAttemptId = "" ∨ replacementAttemptId = expiredAttemptId then
      raise (.conflictingAttempt replacementAttemptId)
    else do
      let replacement ←
        insertReassignment original.record expiredAttemptId replacementWorkerId replacementAttemptId atMs
      return ⟨.inserted, replacement⟩

def loadAssignment (preparation : AssignmentDeliveryPreparation) (attemptId : String) :
    ControlTransaction (AssignmentContract × AttemptState) := do
  let row ← findAssignment attemptId
  if row.workerId ≠ preparation.frame.workerId then raise (.identityMismatch attemptId)
  else return (row.contract, row.state)

def rejectExpiredLease (attemptId : String) (nowMs : Nat) : ControlTransaction Unit := do
  let db ← read
  match db.leases.lookup attemptId with
  | none => return ()
  | some lease =>
    if lease.expiresAtMs ≤ nowMs then do
      expireOne attemptId nowMs
      raise (.invalidTransition .leaseExpired .sent)
    else return ()

/-- The connection row that an assignment frame may go out on is updated with the frame. -/
def advanceConnection (preparation : AssignmentDeliveryPreparation) : ControlTransaction Unit := do
  let lastWorker ← attempt (toI64 preparation.lastWorkerSequence)
  let sequence ← attempt (toI64 preparation.frame.sequence)
  let acknowledged ← attempt (toI64 preparation.lastServerAcknowledgedByWorker)
  let db ← read
  let active := (db.connections.lookup preparation.frame.connectionId).any fun row =>
    row.workerId = preparation.frame.workerId ∧ row.disconnectedAtMs = none
  if active = true then
    write (updateConnection preparation.frame.connectionId fun row => { row with
      lastWorkerSequence := lastWorker, lastServerSequence := sequence
      lastServerAcknowledgedByWorker := acknowledged })
  else raise (.corrupt s!"active connection {preparation.frame.connectionId} for worker {preparation.frame.workerId} is missing")

/-- The second half of `prepare`, for an attempt that may be sent. -/
def grantDelivery (preparation : AssignmentDeliveryPreparation) (attemptId : String) (contract : AssignmentContract)
    (state : AttemptState) : ControlTransaction AssignmentContract := do
  let nextState := if state = .dispatchable then .sent else state
  let now ← attempt (toI64 preparation.nowMs)
  write (updateAssignment attemptId fun row => { row with
    state := nextState, updatedAtMs := now, lastSentAtMs := some now })
  let expires ← attempt (toI64 (saturatingAdd preparation.nowMs preparation.leaseDurationMs))
  write (upsertLease attemptId ⟨preparation.leaseId, preparation.frame.workerId, now, now, expires, none⟩)
  insertServerFrame preparation.frame preparation.nowMs
  advanceConnection preparation
  write (updateWorker preparation.frame.workerId fun row => { row with lastSeenAtMs := now })
  return contract

def prepare (preparation : AssignmentDeliveryPreparation) : ControlTransaction AssignmentContract := do
  match preparation.frame.attemptId with
  | none => raise (.corrupt "assignment frame has no attempt ID")
  | some attemptId =>
    if preparation.frame.kind ≠ .assignment then
      raise (.corrupt "assignment delivery preparation received a non-assignment frame")
    else do
      let (contract, state) ← loadAssignment preparation attemptId
      if state.isReplayable = false then raise (.invalidTransition state .sent)
      else do
        rejectExpiredLease attemptId preparation.nowMs
        grantDelivery preparation attemptId contract state

/-- The error whose transaction is committed: it carries the expiry that was found. -/
def commitsExpiry : RepositoryError → Bool
  | .invalidTransition .leaseExpired _ => true
  | _ => false

def isLate (current target : AttemptState) (leaseExpiry : Option Nat) (observedAtMs : Nat) : Bool :=
  current = .leaseExpired || (current = .rejected && target = .finished) ||
    (target = .finished && current ≠ .finished && leaseExpiry.any fun expiry => expiry ≤ observedAtMs)

def isDuplicate (current target : AttemptState) : Bool :=
  current = target || current = .finished || (current = .running && target = .accepted) ||
    (current = .cancelRequested && target = .accepted)

def applyObservation (attemptId : String) (current : AttemptState) (leaseExpiry : Option Nat) (observedAtMs : Nat) :
    Option AttemptState → ControlTransaction ObservationDisposition
  | none => match current with
    | .cancelRequested => return .applied
    | .finished | .cancelled => return .duplicate
    | .leaseExpired => return .stale
    | _ => raise (.invalidTransition current .cancelRequested)
  | some target =>
    if isLate current target leaseExpiry observedAtMs then do
      expireOne attemptId observedAtMs
      return .stale
    else if isDuplicate current target then return .duplicate
    else if transitionAllowed current target then do
      let now ← attempt (toI64 observedAtMs)
      write (updateAssignment attemptId fun row => { row with state := target, updatedAtMs := now })
      return .applied
    else raise (.invalidTransition current target)

def observeAttempt (observation : ObservedAttempt) : ControlTransaction ObservationDisposition := do
  let attemptId := observation.attemptId.text
  let current ← assignmentIdentity attemptId observation.workerId (some observation.assignmentId.text)
  let db ← read
  let leaseExpiry := (db.leases.lookup attemptId).map LeaseRow.expiresAtMs
  let disposition ← applyObservation attemptId current leaseExpiry observation.observedAtMs
    observation.observation.targetState
  let now ← attempt (toI64 observation.observedAtMs)
  write (insertObservation ⟨attemptId, observation.workerId, now, disposition, observation.observation⟩)
  return disposition

/-- One pass of the loop of `renew_active_leases`. -/
def renewLease (workerId : String) (nowMs leaseDurationMs : Nat) (attemptId : String) : ControlTransaction Unit := do
  let state ← assignmentIdentity attemptId workerId none
  if state.isReplayable = false then return ()
  else do
    let db ← read
    match db.leases.lookup attemptId with
    | none => return ()
    | some lease =>
      if lease.expiredAtMs.isSome = true ∨ lease.expiresAtMs ≤ nowMs then expireOne attemptId nowMs
      else do
        let renewed ← attempt (toI64 nowMs)
        let expires ← attempt (toI64 (saturatingAdd nowMs leaseDurationMs))
        write (updateLease attemptId fun lease => { lease with renewedAtMs := renewed, expiresAtMs := expires })

def renewActiveLeases (workerId : String) (attemptIds : List String) (nowMs leaseDurationMs : Nat) :
    ControlTransaction Unit :=
  forEach (renewLease workerId nowMs leaseDurationMs) attemptIds

def dueAttempts (db : ControlDatabase) (nowMs : Nat) : List String :=
  let due := db.leases.entries.filter fun row => row.2.expiredAtMs = none ∧ row.2.expiresAtMs ≤ nowMs ∧
    (db.assignments.lookup row.1).any (fun assignment => assignment.state.isLeased) = true
  (due.map Sigma.fst).mergeSort

def expireLeases (nowMs : Nat) : ControlTransaction (List String) := do
  let now ← attempt (toI64 nowMs)
  let db ← read
  forEach (expireOne · nowMs) (dueAttempts db now)
  return dueAttempts db now

def cancelledState : AttemptState → AttemptState × CancellationStoreOutcome
  | .preparing | .dispatchable => (.cancelled, .cancelledBeforeSend)
  | .sent | .accepted | .running => (.cancelRequested, .requested)
  | .cancelRequested => (.cancelRequested, .duplicate)
  | state => (state, .alreadyTerminal)

def requestCancellation (attemptId reason : String) (nowMs : Nat) : ControlTransaction CancellationRecord := do
  let row ← findAssignment attemptId
  let (nextState, outcome) := cancelledState row.state
  if outcome = .alreadyTerminal then return ⟨row.workerId, outcome⟩
  else do
    let now ← attempt (toI64 nowMs)
    write (updateAssignment attemptId fun row => { row with
      state := nextState, updatedAtMs := now, cancellationReason := some reason })
    return ⟨row.workerId, outcome⟩

def registerWorker (registration : WorkerRegistration) (connection : ConnectionRegistration) :
    ControlTransaction Unit := do
  let now ← attempt (toI64 connection.connectedAtMs)
  write (upsertWorker registration now)
  let db ← read
  if (db.connections.lookup connection.connectionId).isSome then
    raise (.storage "UNIQUE constraint failed: worker_connections.connection_id")
  else if (db.workers.lookup connection.workerId).isNone then raise (.storage "FOREIGN KEY constraint failed")
  else do
    let row : ConnectionRow := ⟨connection.workerId, connection.instanceId, now, none, 1, 1, 0⟩
    write fun db => { db with connections := db.connections.insert connection.connectionId row }

/-- The first statement of `update_connection_sequences`. -/
def updateSequences (connectionId : String) (lastWorker lastServer acknowledged : Nat) : ControlTransaction Unit := do
  let lastWorker ← attempt (toI64 lastWorker)
  let lastServer ← attempt (toI64 lastServer)
  let acknowledged ← attempt (toI64 acknowledged)
  write (updateConnection connectionId fun row => { row with
    lastWorkerSequence := lastWorker, lastServerSequence := lastServer
    lastServerAcknowledgedByWorker := acknowledged })

def touchWorker (connectionId : String) (observedAtMs : Nat) : ControlTransaction Unit := do
  let now ← attempt (toI64 observedAtMs)
  let db ← read
  match db.connections.lookup connectionId with
  | none => return ()
  | some row => write (updateWorker row.workerId fun row => { row with lastSeenAtMs := now })

def updateConnectionSequences (connectionId : String) (lastWorker lastServer acknowledged observedAtMs : Nat)
    (db : ControlDatabase) : ControlDatabase × Except RepositoryError Unit :=
  match (updateSequences connectionId lastWorker lastServer acknowledged).run db with
  | (db, .error error) => (db, .error error)
  | (db, .ok ()) => (touchWorker connectionId observedAtMs).run db

def disconnect (connectionId : String) (atMs : Nat) : ControlTransaction Unit := do
  let now ← attempt (toI64 atMs)
  write (updateConnection connectionId fun row => { row with
    disconnectedAtMs := some (row.disconnectedAtMs.getD now) })

def recordServerFrame (frame : ServerOutboxFrame) (nowMs : Nat) : ControlTransaction Unit :=
  insertServerFrame frame nowMs

def compactServerFrames (connectionId : String) (acknowledgedThrough nowMs : Nat) : ControlTransaction Nat := do
  let through ← attempt (toI64 acknowledgedThrough)
  let now ← attempt (toI64 nowMs)
  write fun db => { db with outbox := db.outbox.map fun row =>
    if row.frame.connectionId = connectionId ∧ row.frame.sequence ≤ through ∧ row.acknowledgedAtMs = none then
      { row with acknowledgedAtMs := some now }
    else row }
  let db ← read
  let kept := db.outbox.filter fun row => ¬ (row.frame.connectionId = connectionId ∧ row.acknowledgedAtMs.isSome = true)
  write fun db => { db with outbox := kept }
  return db.outbox.length - kept.length

def pruneOrphanedServerFrames (disconnectedBeforeMs : Nat) : ControlTransaction Nat := do
  let before ← attempt (toI64 disconnectedBeforeMs)
  let db ← read
  let kept := db.outbox.filter fun row => ¬ ((db.connections.lookup row.frame.connectionId).any fun connection =>
    connection.disconnectedAtMs.any fun at_ => at_ < before) = true
  write fun db => { db with outbox := kept }
  return db.outbox.length - kept.length

def assignment (attemptId : String) : ControlTransaction (Option AssignmentRecord) := do
  let db ← read
  return (db.assignments.lookup attemptId).map AssignmentRow.record

/-- The terminal result of a finished attempt: that of its last row, `ORDER BY observation_id DESC`. -/
def finishedObservation (attemptId : String) : ControlTransaction (Option FinishedObservation) := do
  let db ← read
  if (db.assignments.lookup attemptId).map AssignmentRow.state ≠ some .finished then return none
  else
    match (db.observations.filter fun row => row.attemptId = attemptId).reverse.findSome? ObservationRow.finished? with
    | some finished => return some finished
    | none => raise (.corrupt s!"finished attempt {attemptId} has no terminal observation")

/-- The order `ORDER BY created_at_ms, attempt_id`. -/
def createdBefore (a b : AssignmentRecord) : Bool :=
  a.createdAtMs < b.createdAtMs || (a.createdAtMs = b.createdAtMs && a.contract.attemptId.text ≤
    b.contract.attemptId.text)

def replayableAssignments (workerId : String) : ControlTransaction (List AssignmentRecord) := do
  let db ← read
  let rows := db.assignments.entries.filter fun row => row.2.workerId = workerId ∧ row.2.state.isReplayable = true
  return (rows.map fun row => row.2.record).mergeSort createdBefore

end SqliteControlRepository

inductive ControlOperation where
  | storeAssignment (workerId : String) (contract : AssignmentContract) (atMs : Nat)
  | markAssignmentDispatchable (attemptId workerId : String) (atMs : Nat)
  | deferAssignmentPreparation (attemptId workerId : String) (retryAtMs : Nat)
  | reassignExpired (expiredAttemptId replacementWorkerId replacementAttemptId : String) (atMs : Nat)
  | prepareAssignmentDelivery (preparation : AssignmentDeliveryPreparation)
  | observeAttempt (observation : ObservedAttempt)
  | renewActiveLeases (workerId : String) (attemptIds : List String) (nowMs leaseDurationMs : Nat)
  | expireLeases (nowMs : Nat)
  | requestCancellation (attemptId reason : String) (nowMs : Nat)
  | registerWorker (registration : WorkerRegistration) (connection : ConnectionRegistration)
  | updateConnectionSequences (connectionId : String) (lastWorkerSequence lastServerSequence
      lastServerAcknowledgedByWorker observedAtMs : Nat)
  | disconnect (connectionId : String) (atMs : Nat)
  | recordServerFrame (frame : ServerOutboxFrame) (nowMs : Nat)
  | compactServerFrames (connectionId : String) (acknowledgedThrough nowMs : Nat)
  | pruneOrphanedServerFrames (disconnectedBeforeMs : Nat)
  | assignment (attemptId : String)
  | replayableAssignments (workerId : String)

namespace ControlOperation

def Result : ControlOperation → Type
  | storeAssignment .. => StoreAssignmentOutcome
  | markAssignmentDispatchable .. | deferAssignmentPreparation .. => Bool
  | reassignExpired .. => ReassignmentRecord
  | prepareAssignmentDelivery .. => AssignmentContract
  | observeAttempt .. => ObservationDisposition
  | renewActiveLeases .. | registerWorker .. | updateConnectionSequences .. | disconnect ..
  | recordServerFrame .. => Unit
  | expireLeases .. => List String
  | requestCancellation .. => CancellationRecord
  | compactServerFrames .. | pruneOrphanedServerFrames .. => Nat
  | assignment .. => Option AssignmentRecord
  | replayableAssignments .. => List AssignmentRecord

abbrev Reply (operation : ControlOperation) : Type := Except RepositoryError operation.Result

def execute : (operation : ControlOperation) → ControlDatabase → ControlDatabase × operation.Reply
  | storeAssignment workerId contract atMs => (SqliteControlRepository.storeAssignment workerId contract atMs).run
  | markAssignmentDispatchable attemptId workerId atMs =>
    (SqliteControlRepository.markAssignmentDispatchable attemptId workerId atMs).run
  | deferAssignmentPreparation attemptId workerId retryAtMs =>
    (SqliteControlRepository.deferAssignmentPreparation attemptId workerId retryAtMs).run
  | reassignExpired expired worker replacement atMs =>
    (SqliteControlRepository.reassignExpired expired worker replacement atMs).run
  | prepareAssignmentDelivery preparation =>
    (SqliteControlRepository.prepare preparation).runKeeping SqliteControlRepository.commitsExpiry
  | observeAttempt observation => (SqliteControlRepository.observeAttempt observation).run
  | renewActiveLeases workerId attemptIds nowMs leaseDurationMs =>
    (SqliteControlRepository.renewActiveLeases workerId attemptIds nowMs leaseDurationMs).run
  | expireLeases nowMs => (SqliteControlRepository.expireLeases nowMs).run
  | requestCancellation attemptId reason nowMs =>
    (SqliteControlRepository.requestCancellation attemptId reason nowMs).run
  | registerWorker registration connection => (SqliteControlRepository.registerWorker registration connection).run
  | updateConnectionSequences connectionId lastWorker lastServer acknowledged observedAtMs =>
    SqliteControlRepository.updateConnectionSequences connectionId lastWorker lastServer acknowledged observedAtMs
  | disconnect connectionId atMs => (SqliteControlRepository.disconnect connectionId atMs).run
  | recordServerFrame frame nowMs => (SqliteControlRepository.recordServerFrame frame nowMs).run
  | compactServerFrames connectionId acknowledgedThrough nowMs =>
    (SqliteControlRepository.compactServerFrames connectionId acknowledgedThrough nowMs).run
  | pruneOrphanedServerFrames disconnectedBeforeMs =>
    (SqliteControlRepository.pruneOrphanedServerFrames disconnectedBeforeMs).run
  | assignment attemptId => (SqliteControlRepository.assignment attemptId).run
  | replayableAssignments workerId => (SqliteControlRepository.replayableAssignments workerId).run

end ControlOperation

end AlloyPort
