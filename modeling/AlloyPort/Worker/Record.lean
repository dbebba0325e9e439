import AlloyPort.Service.Record

/-! The worker's durable journal: the attempts it admitted, the lifecycle messages it still owes the
server, and the devices its attempts hold. -/

namespace AlloyPort

inductive LocalAttemptPhase where
  | accepted
  | running
  | finished
  deriving DecidableEq

abbrev StoredAssignment := AssignmentContract

abbrev StoredFinished := FinishedObservation

inductive WorkerOutboxPayload where
  | assignmentAccepted (assignmentId : AssignmentId) (attemptId : AttemptId) (alreadyKnown : Bool)
  | assignmentRejected (assignmentId attemptId : String) (reason : RejectionReason) (detail : String)
  | executionStarted (assignmentId : AssignmentId) (attemptId : AttemptId)
  | executionFinished (assignmentId : AssignmentId) (attemptId : AttemptId) (finished : StoredFinished)
  | cancellationAcknowledged (assignmentId : AssignmentId) (attemptId : AttemptId) (alreadyTerminal : Bool)
  deriving DecidableEq

structure WorkerOutboxMessage where
  messageId : String
  attemptId : String
  payload : WorkerOutboxPayload

structure LocalAttemptRecord where
  assignment : StoredAssignment
  phase : LocalAttemptPhase
  admittedAtMs : Nat
  updatedAtMs : Nat
  finished : Option StoredFinished
  deriving DecidableEq

inductive StoreAdmissionOutcome where
  | inserted
  | duplicate
  deriving DecidableEq

inductive StoreOutboxOutcome where
  | inserted
  | duplicate

inductive DeviceLeaseOutcome where
  | acquired
  | duplicate

inductive DeviceReleaseOutcome where
  | released
  | alreadyReleased

inductive DevicePreflightOutcome where
  | recorded
  | duplicate

inductive DeviceHealth where
  | ready
  | degraded
  | unhealthy
  | recovering
  deriving DecidableEq

structure DeviceObservation where
  deviceId : String
  health : DeviceHealth
  processCount : Nat
  utilizationPercent : Nat
  memoryUsedBytes : Nat
  memoryTotalBytes : Nat
  temperatureMillicelsius : Nat
  powerMilliwatts : Nat
  observedAtMs : Nat
  detail : String
  deriving DecidableEq

structure DeviceLease where
  attemptId : AttemptId
  deviceId : String
  acquiredAtMs : Nat
  deriving DecidableEq

inductive AttemptStoreError where
  | storage (detail : String)
  | encoding (detail : String)
  | lockPoisoned
  | notFound (attempt : String)
  | conflictingAttempt (attempt : String)
  | invalidTransition (source target : LocalAttemptPhase)
  | conflictingFinished (attempt : String)
  | conflictingOutboxMessage (messageId : String)
  | workerIdentityMismatch (stored requested : String)
  | deviceAlreadyLeased (deviceId attemptId : String)
  | conflictingDeviceLease (attemptId deviceId : String)
  | conflictingDevicePreflight (attemptId : String)
  | corrupt (detail : String)
  deriving DecidableEq

def AttemptStoreError.isStorage : AttemptStoreError → Bool
  | .storage _ | .lockPoisoned => true
  | _ => false

structure LocalAttemptRow where
  assignmentId : String
  assignment : StoredAssignment
  phase : LocalAttemptPhase
  admittedAtMs : Nat
  updatedAtMs : Nat
  finished : Option StoredFinished
  deriving DecidableEq

structure OutboxMessageRow where
  messageId : String
  attemptId : String
  payload : WorkerOutboxPayload
  createdAtMs : Nat

structure OutboxDeliveryRow where
  connectionId : String
  sequence : Nat
  messageId : String
  deliveredAtMs : Nat

structure DeviceLeaseRow where
  deviceId : String
  acquiredAtMs : Nat
  releasedAtMs : Option Nat
  deriving DecidableEq

structure JournalDatabase where
  workerId : Option String
  attempts : AList fun _ : String => LocalAttemptRow
  outbox : List OutboxMessageRow
  deliveries : List OutboxDeliveryRow
  deviceLeases : AList fun _ : String => DeviceLeaseRow
  devicePreflights : AList fun _ : String => DeviceObservation

def JournalDatabase.empty : JournalDatabase := ⟨none, ∅, [], [], ∅, ∅⟩

def LocalAttemptRow.record (row : LocalAttemptRow) : LocalAttemptRecord :=
  ⟨row.assignment, row.phase, row.admittedAtMs, row.updatedAtMs, row.finished⟩

def OutboxMessageRow.message (row : OutboxMessageRow) : WorkerOutboxMessage :=
  ⟨row.messageId, row.attemptId, row.payload⟩

/-- `ORDER BY created_at_ms, message_id`. -/
def OutboxMessageRow.Before (a b : OutboxMessageRow) : Prop :=
  a.createdAtMs < b.createdAtMs ∨ a.createdAtMs = b.createdAtMs ∧ a.messageId ≤ b.messageId

instance : DecidableRel OutboxMessageRow.Before := fun a b =>
  inferInstanceAs (Decidable (a.createdAtMs < b.createdAtMs ∨ a.createdAtMs = b.createdAtMs ∧
    a.messageId ≤ b.messageId))

inductive WorkerError where
  | invalidAssignment (detail : String)
  | conflictingAttempt (attempt : String)
  | policyViolation (detail : String)
  | attemptStore (error : AttemptStoreError)
  | transport (detail : String)
  | rpc (status : Status)
  | artifactPublication (detail : String)
  | backend (detail : String)
  | execution (detail : String)
  | protocol (detail : String)
  | streamClosed

def WorkerError.fromStore : AttemptStoreError → WorkerError
  | .conflictingAttempt attempt => .conflictingAttempt attempt
  | other => .attemptStore other

namespace OutboundWorker

def validateServerFrame (message : ServerToWorker) (lastServerSequence lastWorkerSequenceAcknowledged
    sentWorkerThrough : Nat) (requireMessageIds : Bool) : Except WorkerError Unit :=
  if message.sequence ≠ lastServerSequence + 1 then
    .error (.protocol s!"server sequence gap: expected {lastServerSequence + 1}, got {message.sequence}")
  else if message.acknowledgesWorkerThrough < lastWorkerSequenceAcknowledged then
    .error (.protocol s!"server acknowledgement regressed from {lastWorkerSequenceAcknowledged} to {
      message.acknowledgesWorkerThrough}")
  else if message.acknowledgesWorkerThrough > sentWorkerThrough then
    .error (.protocol s!"server acknowledged worker sequence {
      message.acknowledgesWorkerThrough} beyond sent sequence {sentWorkerThrough}")
  else if requireMessageIds then
    match expectedServerMessageId message.message with
    | some expected =>
      if message.messageId ≠ expected then .error (.protocol s!"server message ID must be {expected}") else .ok ()
    | none =>
      if message.messageId ≠ "" then .error (.protocol "ephemeral server frame cannot carry a message ID")
      else .ok ()
  else .ok ()

def BearsMessageId (message : ServerToWorker) : Prop :=
  message.messageId = (expectedServerMessageId message.message).getD ""

theorem validateServerFrame_ok_iff {message : ServerToWorker} {last acknowledged sentThrough : Nat} {require : Bool} :
    validateServerFrame message last acknowledged sentThrough require = .ok () ↔
      message.sequence = last + 1 ∧ acknowledged ≤ message.acknowledgesWorkerThrough ∧
        message.acknowledgesWorkerThrough ≤ sentThrough ∧ (require = true → BearsMessageId message) := by
  unfold validateServerFrame BearsMessageId
  by_cases hs : message.sequence = last + 1
  · by_cases ha : acknowledged ≤ message.acknowledgesWorkerThrough
    · by_cases hb : message.acknowledgesWorkerThrough ≤ sentThrough
      · rw [if_neg (not_not.mpr hs), if_neg (Nat.not_lt.mpr ha), if_neg (Nat.not_lt.mpr hb)]
        cases require with
        | false => simp [hs, ha, hb]
        | true => cases he : expectedServerMessageId message.message <;> simp [hs, ha, hb]
      · rw [if_neg (not_not.mpr hs), if_neg (Nat.not_lt.mpr ha), if_pos (Nat.lt_of_not_le hb)]
        simp [hb]
    · rw [if_neg (not_not.mpr hs), if_pos (Nat.lt_of_not_le ha)]
      simp [ha]
  · rw [if_pos hs]
    simp [hs]

end OutboundWorker

end AlloyPort
