import Mathlib.Data.List.Sort
import AlloyPort.Library.SharedStore
import AlloyPort.Library.Transaction
import AlloyPort.Worker.Record

/-! The operations of the worker journal. Each is one transaction, and a failed one is rolled back.
The index on active leases is not modelled: an acquisition looks for an owner before it writes. -/

namespace AlloyPort

open Database Transaction

abbrev JournalTransaction := Transaction JournalDatabase AttemptStoreError

namespace JournalDatabase

def updateAttempt (attemptId : String) (f : LocalAttemptRow → LocalAttemptRow) (db : JournalDatabase) :
    JournalDatabase :=
  match db.attempts.lookup attemptId with
  | none => db
  | some row => { db with attempts := db.attempts.insert attemptId (f row) }

def insertAttempt (attemptId : String) (row : LocalAttemptRow) (db : JournalDatabase) : JournalDatabase :=
  { db with attempts := db.attempts.insert attemptId row }

def insertMessage (row : OutboxMessageRow) (db : JournalDatabase) : JournalDatabase :=
  { db with outbox := db.outbox ++ [row] }

def deleteMessage (messageId : String) (db : JournalDatabase) : JournalDatabase :=
  { db with
    outbox := db.outbox.filter fun row => row.messageId ≠ messageId
    deliveries := db.deliveries.filter fun row => row.messageId ≠ messageId }

def insertDelivery (row : OutboxDeliveryRow) (db : JournalDatabase) : JournalDatabase :=
  { db with deliveries := db.deliveries ++ [row] }

def putDeviceLease (attemptId : String) (row : DeviceLeaseRow) (db : JournalDatabase) : JournalDatabase :=
  { db with deviceLeases := db.deviceLeases.insert attemptId row }

def putDevicePreflight (attemptId : String) (observation : DeviceObservation) (db : JournalDatabase) :
    JournalDatabase :=
  { db with devicePreflights := db.devicePreflights.insert attemptId observation }

def findMessage (db : JournalDatabase) (messageId : String) : Option OutboxMessageRow :=
  db.outbox.find? fun row => row.messageId = messageId

def deviceOwner (db : JournalDatabase) (deviceId : String) : Option String :=
  (db.deviceLeases.entries.find? fun row => row.2.deviceId = deviceId ∧ row.2.releasedAtMs = none).map Sigma.fst

end JournalDatabase

open JournalDatabase

namespace SqliteAttemptStore

def toI64 (value : Nat) : Except AttemptStoreError Nat :=
  if value < 2 ^ 63 then .ok value else .error (.corrupt s!"timestamp {value} exceeds SQLite range")

def compatibleAdmission : WorkerOutboxPayload → WorkerOutboxPayload → Bool
  | .assignmentAccepted leftAssignment leftAttempt _, .assignmentAccepted rightAssignment rightAttempt _ =>
    leftAssignment = rightAssignment ∧ leftAttempt = rightAttempt
  | _, _ => false

def enqueueOutboxTransaction (message : WorkerOutboxMessage) (atMs : Nat) : JournalTransaction StoreOutboxOutcome := do
  let db ← read
  match db.findMessage message.messageId with
  | some existing =>
    if existing.payload ≠ message.payload ∧
        ¬ (existing.attemptId = message.attemptId ∧ compatibleAdmission existing.payload message.payload = true) then
      raise (.conflictingOutboxMessage message.messageId)
    else return .duplicate
  | none => do
    let now ← attempt (toI64 atMs)
    write (insertMessage ⟨message.messageId, message.attemptId, message.payload, now⟩)
    return .inserted

def pendingOutbox (db : JournalDatabase) : List WorkerOutboxMessage :=
  (db.outbox.insertionSort OutboxMessageRow.Before).map OutboxMessageRow.message

def recordOutboxDelivery (connectionId : String) (sequence : Nat) (messageId : String) (atMs : Nat) :
    JournalTransaction Unit := do
  let sequence ← attempt (toI64 sequence)
  let now ← attempt (toI64 atMs)
  let db ← read
  if db.deliveries.any fun row => row.connectionId = connectionId ∧ row.sequence = sequence then
    raise (.storage
      "UNIQUE constraint failed: worker_outbox_deliveries.connection_id, worker_outbox_deliveries.sequence")
  else if db.findMessage messageId = none then raise (.storage "FOREIGN KEY constraint failed")
  else write (insertDelivery ⟨connectionId, sequence, messageId, now⟩)

def deleteMessages : List String → JournalTransaction Nat
  | [] => return 0
  | messageId :: rest => do
    let db ← read
    write (deleteMessage messageId)
    let deleted ← deleteMessages rest
    return (db.outbox.countP fun row => row.messageId = messageId) + deleted

def acknowledgeOutbox (connectionId : String) (acknowledgedThrough : Nat) : JournalTransaction Nat := do
  let through ← attempt (toI64 acknowledgedThrough)
  let db ← read
  let delivered := db.deliveries.filter fun row => row.connectionId = connectionId ∧ row.sequence ≤ through
  deleteMessages (delivered.map OutboxDeliveryRow.messageId)

def pruneOutboxDeliveries (olderThanMs : Nat) : JournalTransaction Nat := do
  let limit ← attempt (toI64 olderThanMs)
  let db ← read
  write fun db => { db with deliveries := db.deliveries.filter fun row => ¬ row.deliveredAtMs < limit }
  return db.deliveries.countP fun row => row.deliveredAtMs < limit

def bindWorker (workerId : String) : JournalTransaction Unit := do
  let db ← read
  match db.workerId with
  | some stored => if stored ≠ workerId then raise (.workerIdentityMismatch stored workerId) else return ()
  | none => write fun db => { db with workerId := some workerId }

def admissionOutcome (assignment : StoredAssignment) (admittedAtMs : Nat) :
    JournalTransaction StoreAdmissionOutcome := do
  let db ← read
  match db.attempts.lookup assignment.attemptId.text with
  | some existing =>
    if existing.assignment ≠ assignment then raise (.conflictingAttempt assignment.attemptId.text)
    else return .duplicate
  | none => do
    let now ← attempt (toI64 admittedAtMs)
    write (insertAttempt assignment.attemptId.text ⟨assignment.assignmentId.text, assignment, .accepted, now, now,
      none⟩)
    return .inserted

def acceptedMessage (assignment : StoredAssignment) (alreadyKnown : Bool) : WorkerOutboxMessage :=
  ⟨s!"assignment-accepted:{assignment.attemptId}", assignment.attemptId.text,
    .assignmentAccepted assignment.assignmentId assignment.attemptId alreadyKnown⟩

def admitAttempt (assignment : StoredAssignment) (admittedAtMs : Nat) : JournalTransaction StoreAdmissionOutcome := do
  let outcome ← admissionOutcome assignment admittedAtMs
  let _ ← enqueueOutboxTransaction (acceptedMessage assignment (outcome = .duplicate)) admittedAtMs
  return outcome

def attempt (db : JournalDatabase) (attemptId : String) : Option LocalAttemptRecord :=
  (db.attempts.lookup attemptId).map LocalAttemptRow.record

/-- `ORDER BY admitted_at_ms, attempt_id`. -/
def admittedBefore (a b : (_ : String) × LocalAttemptRow) : Prop :=
  a.2.admittedAtMs < b.2.admittedAtMs ∨ a.2.admittedAtMs = b.2.admittedAtMs ∧ a.1 ≤ b.1

instance : DecidableRel admittedBefore := fun a b =>
  inferInstanceAs (Decidable (a.2.admittedAtMs < b.2.admittedAtMs ∨ a.2.admittedAtMs = b.2.admittedAtMs ∧ a.1 ≤ b.1))

def attempts (db : JournalDatabase) : List LocalAttemptRecord :=
  (db.attempts.entries.insertionSort admittedBefore).map fun row => row.2.record

def findAttempt (attemptId : String) : JournalTransaction LocalAttemptRow := do
  let db ← read
  match db.attempts.lookup attemptId with
  | none => raise (.notFound attemptId)
  | some row => return row

def durableIdentity (row : LocalAttemptRow) (attemptId : String) : JournalTransaction (AssignmentId × AttemptId) :=
  match (ValidatedId.tryFrom row.assignmentId : Option AssignmentId) with
  | none => raise (.corrupt "stored assignment identity is invalid: assignment ID must not be empty")
  | some assignmentId => match (ValidatedId.tryFrom attemptId : Option AttemptId) with
    | none => raise (.corrupt "stored attempt identity is invalid: attempt ID must not be empty")
    | some durableAttemptId => return (assignmentId, durableAttemptId)

/-- The last statements of `mark_running` and `mark_finished`. -/
def announce (row : LocalAttemptRow) (attemptId : String) (message : AssignmentId → AttemptId → WorkerOutboxMessage)
    (atMs : Nat) : JournalTransaction Unit := do
  let identity ← durableIdentity row attemptId
  let _ ← enqueueOutboxTransaction (message identity.1 identity.2) atMs
  return ()

def enterRunning (row : LocalAttemptRow) (attemptId : String) (atMs : Nat) : JournalTransaction Unit :=
  match row.phase with
  | .accepted => do
    let now ← Transaction.attempt (toI64 atMs)
    write (updateAttempt attemptId fun row => { row with phase := .running, updatedAtMs := now })
  | .running => return ()
  | .finished => raise (.invalidTransition .finished .running)

def startedMessage (attemptId : String) (assignmentId : AssignmentId) (durableAttemptId : AttemptId) :
    WorkerOutboxMessage :=
  ⟨s!"execution-started:{attemptId}", attemptId, .executionStarted assignmentId durableAttemptId⟩

def markRunning (attemptId : String) (atMs : Nat) : JournalTransaction Unit := do
  let row ← findAttempt attemptId
  enterRunning row attemptId atMs
  announce row attemptId (startedMessage attemptId) atMs

def enterFinished (row : LocalAttemptRow) (attemptId : String) (finished : StoredFinished) (atMs : Nat) :
    JournalTransaction Unit :=
  if row.phase = .finished then
    match row.finished with
    | none => raise (.storage "Invalid column type Null at index: 0, name: finished_json")
    | some existing => if existing ≠ finished then raise (.conflictingFinished attemptId) else return ()
  else do
    let now ← Transaction.attempt (toI64 atMs)
    write (updateAttempt attemptId fun row => { row with
      phase := .finished, updatedAtMs := now, finished := some finished })

def finishedMessage (attemptId : String) (finished : StoredFinished) (assignmentId : AssignmentId)
    (durableAttemptId : AttemptId) : WorkerOutboxMessage :=
  ⟨s!"execution-finished:{attemptId}", attemptId, .executionFinished assignmentId durableAttemptId finished⟩

def markFinished (attemptId : String) (finished : StoredFinished) (atMs : Nat) : JournalTransaction Unit := do
  let row ← findAttempt attemptId
  enterFinished row attemptId finished atMs
  announce row attemptId (finishedMessage attemptId finished) atMs

def acquireDeviceLease (attemptId : AttemptId) (deviceId : String) (atMs : Nat) :
    JournalTransaction DeviceLeaseOutcome :=
  if isBlank deviceId then raise (.conflictingDeviceLease attemptId.text deviceId)
  else do
    let row ← findAttempt attemptId.text
    if row.phase = .finished then raise (.invalidTransition .finished .running)
    else do
      let db ← read
      match db.deviceLeases.lookup attemptId.text with
      | some existing =>
        if existing.deviceId = deviceId ∧ existing.releasedAtMs = none then return .duplicate
        else if existing.deviceId ≠ deviceId then raise (.conflictingDeviceLease attemptId.text existing.deviceId)
        else grant db
      | none => grant db
where
  /-- The lease is inserted, or taken again on the device it was on. -/
  grant (db : JournalDatabase) : JournalTransaction DeviceLeaseOutcome :=
    match db.deviceOwner deviceId with
    | some owner => raise (.deviceAlreadyLeased deviceId owner)
    | none => do
      let now ← Transaction.attempt (toI64 atMs)
      write (putDeviceLease attemptId.text ⟨deviceId, now, none⟩)
      return .acquired

def releaseDeviceLease (attemptId : AttemptId) (atMs : Nat) : JournalTransaction DeviceReleaseOutcome := do
  let db ← read
  match db.deviceLeases.lookup attemptId.text with
  | none => raise (.notFound attemptId.text)
  | some lease =>
    if lease.releasedAtMs ≠ none then return .alreadyReleased
    else do
      let now ← Transaction.attempt (toI64 atMs)
      write (putDeviceLease attemptId.text { lease with releasedAtMs := some now })
      return .released

/-- `ORDER BY device_id, attempt_id`. -/
def leasedBefore (a b : (_ : String) × DeviceLeaseRow) : Prop :=
  a.2.deviceId < b.2.deviceId ∨ a.2.deviceId = b.2.deviceId ∧ a.1 ≤ b.1

instance : DecidableRel leasedBefore := fun a b =>
  inferInstanceAs (Decidable (a.2.deviceId < b.2.deviceId ∨ a.2.deviceId = b.2.deviceId ∧ a.1 ≤ b.1))

def activeDeviceLeases (db : JournalDatabase) : Except AttemptStoreError (List DeviceLease) :=
  ((db.deviceLeases.entries.filter fun row => row.2.releasedAtMs = none).insertionSort leasedBefore).mapM fun row =>
    match (ValidatedId.tryFrom row.1 : Option AttemptId) with
    | none => .error (.corrupt "stored device-lease attempt identity is invalid: attempt ID must not be empty")
    | some attemptId => .ok ⟨attemptId, row.2.deviceId, row.2.acquiredAtMs⟩

def recordDevicePreflight (attemptId : AttemptId) (observation : DeviceObservation) :
    JournalTransaction DevicePreflightOutcome := do
  let db ← read
  match db.devicePreflights.lookup attemptId.text with
  | some existing =>
    if existing = observation then return .duplicate else raise (.conflictingDevicePreflight attemptId.text)
  | none => match db.attempts.lookup attemptId.text, db.deviceLeases.lookup attemptId.text with
    | some row, some lease =>
      if lease.releasedAtMs ≠ none then raise (.notFound attemptId.text)
      else if row.phase ≠ .accepted then raise (.invalidTransition row.phase .running)
      else if lease.deviceId ≠ observation.deviceId then
        raise (.conflictingDeviceLease attemptId.text lease.deviceId)
      else do
        write (putDevicePreflight attemptId.text observation)
        return .recorded
    | _, _ => raise (.notFound attemptId.text)

def devicePreflight (db : JournalDatabase) (attemptId : AttemptId) : Option DeviceObservation :=
  db.devicePreflights.lookup attemptId.text

end SqliteAttemptStore

open SqliteAttemptStore

inductive JournalOperation where
  | bindWorker (workerId : String)
  | admitAttempt (assignment : StoredAssignment) (admittedAtMs : Nat)
  | attempt (attemptId : String)
  | attempts
  | markRunning (attemptId : String) (atMs : Nat)
  | markFinished (attemptId : String) (finished : StoredFinished) (atMs : Nat)
  | enqueueOutbox (message : WorkerOutboxMessage) (atMs : Nat)
  | pendingOutbox
  | recordOutboxDelivery (connectionId : String) (sequence : Nat) (messageId : String) (atMs : Nat)
  | acknowledgeOutbox (connectionId : String) (acknowledgedThrough : Nat)
  | pruneOutboxDeliveries (olderThanMs : Nat)
  | outboxLen
  | acquireDeviceLease (attemptId : AttemptId) (deviceId : String) (atMs : Nat)
  | releaseDeviceLease (attemptId : AttemptId) (atMs : Nat)
  | activeDeviceLeases
  | recordDevicePreflight (attemptId : AttemptId) (observation : DeviceObservation)
  | devicePreflight (attemptId : AttemptId)

def JournalOperation.Result : JournalOperation → Type
  | bindWorker _ | markRunning _ _ | markFinished _ _ _ | recordOutboxDelivery _ _ _ _ => Unit
  | admitAttempt _ _ => StoreAdmissionOutcome
  | attempt _ => Option LocalAttemptRecord
  | attempts => List LocalAttemptRecord
  | enqueueOutbox _ _ => StoreOutboxOutcome
  | pendingOutbox => List WorkerOutboxMessage
  | acknowledgeOutbox _ _ | pruneOutboxDeliveries _ | outboxLen => Nat
  | acquireDeviceLease _ _ _ => DeviceLeaseOutcome
  | releaseDeviceLease _ _ => DeviceReleaseOutcome
  | activeDeviceLeases => List DeviceLease
  | recordDevicePreflight _ _ => DevicePreflightOutcome
  | devicePreflight _ => Option DeviceObservation

abbrev JournalOperation.Reply (operation : JournalOperation) : Type := Except AttemptStoreError operation.Result

def JournalOperation.transaction : (operation : JournalOperation) → JournalTransaction operation.Result
  | .bindWorker workerId => SqliteAttemptStore.bindWorker workerId
  | .admitAttempt assignment admittedAtMs => SqliteAttemptStore.admitAttempt assignment admittedAtMs
  | .attempt attemptId => fun db => (.ok (SqliteAttemptStore.attempt db attemptId), db)
  | .attempts => fun db => (.ok (SqliteAttemptStore.attempts db), db)
  | .markRunning attemptId atMs => SqliteAttemptStore.markRunning attemptId atMs
  | .markFinished attemptId finished atMs => SqliteAttemptStore.markFinished attemptId finished atMs
  | .enqueueOutbox message atMs => enqueueOutboxTransaction message atMs
  | .pendingOutbox => fun db => (.ok (SqliteAttemptStore.pendingOutbox db), db)
  | .recordOutboxDelivery connectionId sequence messageId atMs =>
    SqliteAttemptStore.recordOutboxDelivery connectionId sequence messageId atMs
  | .acknowledgeOutbox connectionId acknowledgedThrough =>
    SqliteAttemptStore.acknowledgeOutbox connectionId acknowledgedThrough
  | .pruneOutboxDeliveries olderThanMs => SqliteAttemptStore.pruneOutboxDeliveries olderThanMs
  | .outboxLen => fun db => (.ok db.outbox.length, db)
  | .acquireDeviceLease attemptId deviceId atMs => SqliteAttemptStore.acquireDeviceLease attemptId deviceId atMs
  | .releaseDeviceLease attemptId atMs => SqliteAttemptStore.releaseDeviceLease attemptId atMs
  | .activeDeviceLeases => fun db => (SqliteAttemptStore.activeDeviceLeases db, db)
  | .recordDevicePreflight attemptId observation => SqliteAttemptStore.recordDevicePreflight attemptId observation
  | .devicePreflight attemptId => fun db => (.ok (SqliteAttemptStore.devicePreflight db attemptId), db)

def JournalOperation.execute (operation : JournalOperation) (db : JournalDatabase) :
    JournalDatabase × operation.Reply := operation.transaction.run db

abbrev JournalEvent := SharedStore.Event JournalOperation JournalOperation.Reply

inductive JournalStep (db : JournalDatabase) : JournalEvent → JournalDatabase → Prop where
  | ran (operation : JournalOperation) :
      JournalStep db ⟨operation, (operation.execute db).2⟩ (operation.execute db).1
  | failed (operation : JournalOperation) (e : AttemptStoreError) (he : e.isStorage = true) :
      JournalStep db ⟨operation, .error e⟩ db

inductive JournalRun (db : JournalDatabase) : List JournalEvent → JournalDatabase → Prop where
  | start : JournalRun db [] db
  | step {log db' e db''} (h : JournalRun db log db') (hs : JournalStep db' e db'') : JournalRun db (log ++ [e]) db''

variable {db db' : JournalDatabase} {operation : JournalOperation}

theorem JournalStep.executed {reply : operation.Reply}
    (h : (operation.execute db).2 = reply) : JournalStep db ⟨operation, reply⟩ (operation.execute db).1 := by
  subst h
  exact .ran operation

theorem JournalRun.trans {log log' : List JournalEvent} {db'' : JournalDatabase} (h : JournalRun db log db')
    (h' : JournalRun db' log' db'') : JournalRun db (log ++ log') db'' := by
  induction h' with
  | start => rwa [List.append_nil]
  | step _ hs ih =>
    rw [← List.append_assoc]
    exact .step ih hs

def executeJournal (operations : List JournalOperation) (db : JournalDatabase) : JournalDatabase :=
  operations.foldl (fun db operation => (operation.execute db).1) db

theorem JournalRun.executeJournal (operations : List JournalOperation) (db : JournalDatabase) :
    ∃ log, JournalRun db log (executeJournal operations db) := by
  induction operations generalizing db with
  | nil => exact ⟨[], .start⟩
  | cons operation rest ih =>
    obtain ⟨log, hrest⟩ := ih (operation.execute db).1
    exact ⟨_, (JournalRun.step .start (.ran operation)).trans hrest⟩

theorem JournalStep.rolledBack {error : AttemptStoreError}
    (h : JournalStep db ⟨operation, .error error⟩ db') : db' = db := by
  generalize hreply : (.error error : operation.Reply) = reply at h
  cases h with
  | failed => rfl
  | ran =>
    unfold JournalOperation.execute Transaction.run Transaction.runKeeping at hreply ⊢
    split at hreply
    · cases hreply
    · rfl

end AlloyPort
