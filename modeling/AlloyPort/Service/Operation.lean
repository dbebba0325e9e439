import AlloyPort.Library.Interleaving
import AlloyPort.Control.Attempt
import AlloyPort.Service.Record

/-! The steps of the worker control service. A persistence call and a section under the state lock
are one step each; the delivery lock, the channels, the clock and the stores outside the control
repository are reached by further operations. -/

namespace AlloyPort

open Effect

structure CompletedUpload where
  artifact : Option (Sha256Digest × Nat)
  mediaType : String

structure GrantArtifactReference where
  ownerId : String
  referenceKey : String
  digest : Sha256Digest
  isReceipt : Bool
  purpose : String
  nowMs : Nat

inductive WorkerEvent where
  | commandStarted
  | artifactProduced (artifact : WireArtifact) (reference : String)
  | commandCompleted (exitCode : Int) (elapsedMs : Nat) (timedOut : Bool) (outputArtifact : Option WireArtifact)
  | commandOutput (stderr : Bool) (byteOffset : Nat) (payload : List UInt8) (displaySanitized : Bool)
  | warning (message : String)

structure WorkerEventFrame where
  contract : AssignmentContract
  workerId : String
  emittedAtMs : Nat
  event : WorkerEvent

inductive EnqueueError where
  | invalid (detail : String)
  | conflictingAttempt (attempt : String)
  | repository (error : RepositoryError)
  | interaction (error : InteractionError)
  | artifact (detail : String)
  deriving DecidableEq

def EnqueueError.fromRepository : RepositoryError → EnqueueError
  | .conflictingAttempt attempt => .conflictingAttempt attempt
  | other => .repository other

inductive ServiceOp where
  | persist (operation : ControlOperation)
  | nextConnection
  | nextLease
  | nowUnixMs
  | lockDelivery
  | unlockDelivery
  | worker (workerId : String)
  | publish (workerId : String) (record : WorkerRecord)
  | advance (workerId connectionId : String) (sequence : Nat)
  | accept (workerId connectionId : String) (sequence acknowledged : Nat) (heartbeat : Option Heartbeat)
  | markSendFailed (workerId : String)
  | markDisconnected (workerId connectionId : String)
  | send (connectionId : String) (frame : Except Status ServerToWorker)
  | receive (connectionId : String)
  | revalidate (connectionId : String)
  | grantInput (workerId : String) (contract : AssignmentContract) (nowMs : Nat)
  | recordRunStarted (contract : AssignmentContract) (nowMs : Nat)
  | append (dedupKey : String) (frame : WorkerEventFrame)
  | appendOutput (dedupKey : String) (output : OutputChunk) (frame : WorkerEventFrame)
  | hasArtifactMetadata
  | completedUpload (workerId referenceKey : String)
  | grantReference (grant : GrantArtifactReference)

@[reducible] def ServiceOp.Reply : ServiceOp → Type
  | persist operation => operation.Reply
  | nextConnection | nextLease | nowUnixMs => Nat
  | lockDelivery | unlockDelivery | publish .. | markSendFailed .. | markDisconnected .. => Unit
  | worker .. => Option WorkerRecord
  | advance .. => Bool
  | accept .. => Option Nat
  | send .. => Bool
  | receive .. => Option (Except Status WorkerToServer)
  | revalidate .. => Except Status Unit
  | grantInput .. => Except EnqueueError Unit
  | recordRunStarted .. => Except InteractionError Unit
  | append .. => Except InteractionError Unit
  | appendOutput .. => Except InteractionError Nat
  | hasArtifactMetadata => Bool
  | completedUpload .. => Except Status (Option CompletedUpload)
  | grantReference .. => Except Status Unit

abbrev ServiceProgram := Prog ServiceOp ServiceOp.Reply

def perform {ε : Type} (o : ServiceOp) : ServiceProgram ε o.Reply := .op o .ret

def persist {ε : Type} (operation : ControlOperation) (raise : RepositoryError → ε) :
    ServiceProgram ε operation.Result :=
  .op (.persist operation) fun reply => .attempt (reply.mapError raise)

def require {ε ε' α : Type} (reply : ServiceProgram ε (Except ε' α)) (raise : ε' → ε) : ServiceProgram ε α := do
  match ← reply with
  | .ok a => return a
  | .error error => .fail (raise error)

/-- What runs while the delivery lock is held; the guard is dropped however it ends. -/
def withDelivery {ε α : Type} (body : ServiceProgram ε α) : ServiceProgram ε α := do
  perform .lockDelivery
  let outcome ← body.result
  perform .unlockDelivery
  .attempt outcome

def connectedWorker {ε : Type} (workerId : String) : ServiceProgram ε (Option WorkerRecord) :=
  .op (.worker workerId) fun record => .ret (record.filter fun record => record.connected)

def connectionName (number : Nat) : String := s!"connection-{number}"

/-- The service, the frames sent into the channels to the workers, the channels whose receiver is gone
and the frames under way from the workers. -/
structure ServiceState where
  db : ControlDatabase
  connectionCounter : Nat
  workers : AList fun _ : String => WorkerRecord
  delivering : Bool
  channels : String → List (Except Status ServerToWorker)
  closed : String → Bool
  inbound : String → List WorkerToServer

namespace ServiceState

def updateRecord (workerId : String) (f : WorkerRecord → WorkerRecord) (s : ServiceState) : ServiceState :=
  match s.workers.lookup workerId with
  | none => s
  | some record => { s with workers := s.workers.insert workerId (f record) }

def mayAdvance (s : ServiceState) (workerId connectionId : String) (sequence : Nat) : Bool :=
  (s.workers.lookup workerId).any fun record =>
    record.connectionId = connectionId ∧ record.nextServerSequence = sequence

def mayAccept (s : ServiceState) (workerId connectionId : String) (sequence : Nat) : Bool :=
  (s.workers.lookup workerId).any fun record =>
    record.connectionId = connectionId ∧ record.connected = true ∧ sequence = record.lastWorkerSequence + 1

def advanced (s : ServiceState) (workerId : String) : ServiceState :=
  s.updateRecord workerId fun record => { record with nextServerSequence := record.nextServerSequence + 1 }

def accepted (s : ServiceState) (workerId : String) (sequence acknowledged : Nat) (heartbeat : Option Heartbeat) :
    ServiceState :=
  s.updateRecord workerId fun record => { record with
    lastWorkerSequence := sequence, lastServerSequenceAcknowledged := acknowledged
    heartbeat := heartbeat.orElse fun _ => record.heartbeat }

def lastServerSequence (s : ServiceState) (workerId : String) : Nat :=
  match s.workers.lookup workerId with
  | none => 0
  | some record => record.nextServerSequence - 1

def disconnected (s : ServiceState) (workerId : String) : ServiceState :=
  s.updateRecord workerId fun record => { record with connected := false }

def sent (s : ServiceState) (connectionId : String) (frame : Except Status ServerToWorker) : ServiceState :=
  { s with channels := Function.update s.channels connectionId (s.channels connectionId ++ [frame]) }

def receiverGone (s : ServiceState) (connectionId : String) : ServiceState :=
  { s with closed := Function.update s.closed connectionId true }

variable {s : ServiceState} {workerId connectionId : String} {sequence : Nat}

theorem mayAdvance_iff : s.mayAdvance workerId connectionId sequence = true ↔
    ∃ record, s.workers.lookup workerId = some record ∧ record.connectionId = connectionId ∧
      record.nextServerSequence = sequence := by
  simp [mayAdvance, Option.any_eq_true]

theorem mayAccept_iff : s.mayAccept workerId connectionId sequence = true ↔
    ∃ record, s.workers.lookup workerId = some record ∧ record.connectionId = connectionId ∧
      record.connected = true ∧ sequence = record.lastWorkerSequence + 1 := by
  simp [mayAccept, Option.any_eq_true]

variable {f : WorkerRecord → WorkerRecord} {w : String}

theorem updateRecord_lookup {w' : String} : (s.updateRecord w f).workers.lookup w' =
      if w' = w then (s.workers.lookup w).map f else s.workers.lookup w' := by
  unfold ServiceState.updateRecord
  by_cases hw' : w' = w
  · subst hw'
    rw [if_pos rfl]
    cases hw : s.workers.lookup w' with
    | none => exact hw
    | some record => exact AList.lookup_insert _
  · rw [if_neg hw']
    cases s.workers.lookup w with
    | none => rfl
    | some record => exact AList.lookup_insert_ne hw'

theorem updateRecord_rest :
    (s.updateRecord w f).connectionCounter = s.connectionCounter ∧ (s.updateRecord w f).channels = s.channels ∧
      (s.updateRecord w f).closed = s.closed := by
  unfold ServiceState.updateRecord
  split <;> exact ⟨rfl, rfl, rfl⟩

theorem updateRecord_kept :
    (s.updateRecord w f).db = s.db ∧ (s.updateRecord w f).delivering = s.delivering := by
  unfold updateRecord
  split <;> exact ⟨rfl, rfl⟩

end ServiceState

/-- What an operation may answer and do. The receiver of a channel may go at any time, after which no
send succeeds; a stream may end or break at any time; the counters, the clock and the other stores may
answer anything. -/
inductive ServiceActs (s : ServiceState) : (o : ServiceOp) → o.Reply → ServiceState → Prop where
  | persist {operation reply db'} (h : ControlStep s.db ⟨operation, reply⟩ db') :
      ServiceActs s (.persist operation) reply { s with db := db' }
  | nextConnection :
      ServiceActs s .nextConnection s.connectionCounter { s with connectionCounter := s.connectionCounter + 1 }
  | nextLease (number : Nat) : ServiceActs s .nextLease number s
  | nowUnixMs (now : Nat) : ServiceActs s .nowUnixMs now s
  | lockDelivery (h : s.delivering = false) : ServiceActs s .lockDelivery () { s with delivering := true }
  | unlockDelivery : ServiceActs s .unlockDelivery () { s with delivering := false }
  | worker (workerId : String) : ServiceActs s (.worker workerId) (s.workers.lookup workerId) s
  | publish (workerId : String) (record : WorkerRecord) :
      ServiceActs s (.publish workerId record) () { s with workers := s.workers.insert workerId record }
  | advanced {workerId connectionId sequence} (h : s.mayAdvance workerId connectionId sequence = true) :
      ServiceActs s (.advance workerId connectionId sequence) true (s.advanced workerId)
  | superseded {workerId connectionId sequence} (h : s.mayAdvance workerId connectionId sequence = false) :
      ServiceActs s (.advance workerId connectionId sequence) false s
  | accepted {workerId connectionId sequence acknowledged heartbeat}
      (h : s.mayAccept workerId connectionId sequence = true) :
      ServiceActs s (.accept workerId connectionId sequence acknowledged heartbeat)
        (some (s.lastServerSequence workerId)) (s.accepted workerId sequence acknowledged heartbeat)
  | notAccepted {workerId connectionId sequence acknowledged heartbeat}
      (h : s.mayAccept workerId connectionId sequence = false) :
      ServiceActs s (.accept workerId connectionId sequence acknowledged heartbeat) none s
  | markSendFailed (workerId : String) : ServiceActs s (.markSendFailed workerId) () (s.disconnected workerId)
  | markDisconnected (workerId connectionId : String) :
      ServiceActs s (.markDisconnected workerId connectionId) ()
        (s.updateRecord workerId fun record =>
          if record.connectionId = connectionId then { record with connected := false } else record)
  | sent {connectionId} (frame : Except Status ServerToWorker) (h : s.closed connectionId = false) :
      ServiceActs s (.send connectionId frame) true (s.sent connectionId frame)
  | notSent (connectionId : String) (frame : Except Status ServerToWorker) :
      ServiceActs s (.send connectionId frame) false (s.receiverGone connectionId)
  | received {connectionId frame rest} (h : s.inbound connectionId = frame :: rest) :
      ServiceActs s (.receive connectionId) (some (.ok frame))
        { s with inbound := Function.update s.inbound connectionId rest }
  | broken (connectionId : String) (reply : Option Status) :
      ServiceActs s (.receive connectionId) (reply.map .error) s
  | revalidate (connectionId : String) (reply : Except Status Unit) :
      ServiceActs s (.revalidate connectionId) reply s
  | grantInput (workerId : String) (contract : AssignmentContract) (nowMs : Nat) (reply : Except EnqueueError Unit) :
      ServiceActs s (.grantInput workerId contract nowMs) reply s
  | recordRunStarted (contract : AssignmentContract) (nowMs : Nat) (reply : Except InteractionError Unit) :
      ServiceActs s (.recordRunStarted contract nowMs) reply s
  | append (dedupKey : String) (frame : WorkerEventFrame) (reply : Except InteractionError Unit) :
      ServiceActs s (.append dedupKey frame) reply s
  | appendOutput (dedupKey : String) (output : OutputChunk) (frame : WorkerEventFrame)
      (reply : Except InteractionError Nat) : ServiceActs s (.appendOutput dedupKey output frame) reply s
  | hasArtifactMetadata (reply : Bool) : ServiceActs s .hasArtifactMetadata reply s
  | completedUpload (workerId referenceKey : String) (reply : Except Status (Option CompletedUpload)) :
      ServiceActs s (.completedUpload workerId referenceKey) reply s
  | grantReference (grant : GrantArtifactReference) (reply : Except Status Unit) :
      ServiceActs s (.grantReference grant) reply s

open Interleaving

theorem connectionName_inj {n m : Nat} (h : connectionName n = connectionName m) : n = m := by
  have hh := congrArg String.toList h
  simp only [connectionName, ToString.toString, String.toList_append] at hh
  refine Text.repr_toList_inj ?_
  simpa using hh

/-- Below the counter are the names in use and the ones the tasks have drawn, which are all different. -/
structure Named (counter : Nat) (reserved : List (Option String)) (used : String → Prop) : Prop where
  drawn : ∀ c, used c → ∃ n < counter, c = connectionName n
  fresh : ∀ c, some c ∈ reserved → ¬ used c ∧ ∃ n < counter, c = connectionName n
  apart : (reserved.flatMap Option.toList).Nodup

namespace Named

variable {counter : Nat} {reserved : List (Option String)} {used used' : String → Prop} {i : Nat} {c : String}

theorem congr (h : Named counter reserved used) (hu : ∀ c, used' c ↔ used c) : Named counter reserved used' :=
  ⟨fun c hc => h.drawn c ((hu c).mp hc), fun c hc =>
    ⟨fun hused => (h.fresh c hc).1 ((hu c).mp hused), (h.fresh c hc).2⟩, h.apart⟩

theorem draw (h : Named counter reserved used) {x : Option String} (hget : reserved[i]? = some x) :
    Named (counter + 1) (reserved.set i (some (connectionName counter))) used := by
  have hnew : ∀ c, (∃ n < counter, c = connectionName n) → c ≠ connectionName counter := by
    rintro c ⟨n, hn, rfl⟩ hname
    have := connectionName_inj hname
    omega
  obtain ⟨rest, hl, hset⟩ := flatMap_set_perm Option.toList hget
  refine ⟨fun c hc => ?_, fun c hc => ?_, (hset _).nodup_iff.mpr (List.nodup_cons.mpr ⟨fun hm => ?_, ?_⟩)⟩
  · obtain ⟨n, hn, hname⟩ := h.drawn c hc
    exact ⟨n, Nat.lt_succ_of_lt hn, hname⟩
  · rcases List.mem_or_eq_of_mem_set hc with hc | hc
    · obtain ⟨hunused, n, hn, hname⟩ := h.fresh c hc
      exact ⟨hunused, n, Nat.lt_succ_of_lt hn, hname⟩
    · cases hc
      exact ⟨fun hused => hnew _ (h.drawn _ hused) rfl, counter, Nat.lt_succ_self _, rfl⟩
  · obtain ⟨x, hx, hreserved⟩ := List.mem_flatMap.mp (hl.mem_iff.mpr (List.mem_append_right _ hm))
    exact hnew _ (h.fresh _ (Option.mem_toList.mp hreserved ▸ hx)).2 rfl
  · exact (List.nodup_append.mp (hl.nodup_iff.mp h.apart)).2.1

theorem publish (h : Named counter reserved used) (hget : reserved[i]? = some (some c)) :
    Named counter (reserved.set i none) fun c' => c' = c ∨ used c' := by
  obtain ⟨rest, hl, hset⟩ := flatMap_set_perm Option.toList hget
  have hnodup := hl.nodup_iff.mp h.apart
  refine ⟨?_, fun c' hc' => ?_, (hset _).nodup_iff.mpr (List.nodup_append.mp hnodup).2.1⟩
  · rintro c' (rfl | hc')
    · exact (h.fresh c' (List.mem_of_getElem? hget)).2
    · exact h.drawn c' hc'
  · have hm : c' ∈ rest := (hset none).mem_iff.mp (List.mem_flatMap.mpr ⟨some c', hc', by simp⟩)
    have hold : some c' ∈ reserved := by
      rcases List.mem_or_eq_of_mem_set hc' with hc' | hc'
      · exact hc'
      · cases hc'
    refine ⟨?_, (h.fresh c' hold).2⟩
    rintro (rfl | hused)
    · exact (List.nodup_cons.mp hnodup).1 hm
    · exact (h.fresh c' hold).1 hused

theorem join (h : Named counter reserved used) : Named counter (reserved ++ [none]) used := by
  refine ⟨h.drawn, fun c hc => ?_, by simpa using h.apart⟩
  rcases List.mem_append.mp hc with hc | hc
  · exact h.fresh c hc
  · simp at hc

end Named

/-! Frame preparation at the connection delivery boundary, and the use cases that send: registration
with its replay, admission of assignments, cancellation and transport acknowledgements. -/

namespace WorkerControlService

abbrev Outbound := Option (String × ServerToWorker)

/-- The last section of a preparation: the frame gets its sequence unless its connection or the
sequence is no longer the worker's. -/
def allocate {ε : Type} (workerId : String) (worker : WorkerRecord) (messageId : String) (message : ServerMessage) :
    ServiceProgram ε Outbound :=
  .op (.advance workerId worker.connectionId worker.nextServerSequence) fun advanced =>
    .ret (if advanced then
      some (worker.sender, ⟨worker.nextServerSequence, worker.lastWorkerSequence, messageId, some message⟩)
    else none)

def prepareAssignment (workerId attemptId : String) : ServiceProgram RepositoryError Outbound :=
  withDelivery do
    match ← connectedWorker workerId with
    | none => return none
    | some worker => do
      let leaseNumber ← perform .nextLease
      let nowMs ← perform .nowUnixMs
      let messageId := s!"assignment:{attemptId}"
      let contract ← persist (.prepareAssignmentDelivery
        { frame := ⟨worker.connectionId, worker.nextServerSequence, messageId, workerId, .assignment, some attemptId⟩
          leaseId := s!"lease-{leaseNumber}"
          lastWorkerSequence := worker.lastWorkerSequence
          lastServerAcknowledgedByWorker := worker.lastServerSequenceAcknowledged
          nowMs := nowMs
          leaseDurationMs := attemptLeaseMs }) id
      allocate workerId worker messageId (.assignment contract)

def prepareCancel (workerId attemptId reason : String) : ServiceProgram RepositoryError Outbound :=
  withDelivery do
    match ← connectedWorker workerId with
    | none => return none
    | some worker => do
      let nowMs ← perform .nowUnixMs
      let messageId := s!"cancel:{attemptId}"
      persist (.recordServerFrame
        ⟨worker.connectionId, worker.nextServerSequence, messageId, workerId, .cancel, some attemptId⟩ nowMs) id
      persist (.updateConnectionSequences worker.connectionId worker.lastWorkerSequence worker.nextServerSequence
        worker.lastServerSequenceAcknowledged nowMs) id
      allocate workerId worker messageId (.cancel attemptId reason)

def prepareTransportAck (workerId connectionId : String) : ServiceProgram RepositoryError Outbound :=
  withDelivery do
    match (← connectedWorker workerId).filter (fun worker => worker.connectionId = connectionId) with
    | none => return none
    | some worker => do
      let nowMs ← perform .nowUnixMs
      persist (.updateConnectionSequences connectionId worker.lastWorkerSequence worker.nextServerSequence
        worker.lastServerSequenceAcknowledged nowMs) id
      allocate workerId worker "" .acknowledgement

def initialRecord (hello : WorkerHello) (connectionId : String) : WorkerRecord where
  hello := hello
  connectionId := connectionId
  connected := true
  lastWorkerSequence := 1
  lastServerSequenceAcknowledged := 0
  nextServerSequence := 2
  sender := connectionId
  heartbeat := none

def welcomeFrame (hello : WorkerHello) (connectionId : String) : ServerToWorker where
  sequence := 1
  acknowledgesWorkerThrough := 1
  messageId := ""
  message := some (.welcome
    ⟨connectionId, protocolMajor, min hello.protocolMinor protocolMinor, heartbeatIntervalMs, attemptLeaseMs⟩)

/-- The frames that replay one assignment: the assignment itself, and its cancellation if one was
requested. -/
def replayAssignment (workerId : String) (assignment : AssignmentRecord) :
    ServiceProgram RepositoryError (List ServerToWorker) := do
  let first ← prepareAssignment workerId assignment.contract.attemptId.text
  match assignment.cancellationReason with
  | none => return (first.map Prod.snd).toList
  | some reason => do
    let second ← prepareCancel workerId assignment.contract.attemptId.text reason
    return (first.map Prod.snd).toList ++ (second.map Prod.snd).toList

def replayAssignments (workerId : String) : List AssignmentRecord → ServiceProgram RepositoryError (List ServerToWorker)
  | [] => return []
  | assignment :: rest => do
    let frames ← replayAssignment workerId assignment
    let others ← replayAssignments workerId rest
    return frames ++ others

def register (hello : WorkerHello) : ServiceProgram RepositoryError (String × List ServerToWorker) := do
  let number ← perform .nextConnection
  let connectionId := connectionName number
  let nowMs ← perform .nowUnixMs
  let _ ← persist (.expireLeases nowMs) id
  let _ ← persist (.pruneOrphanedServerFrames (nowMs - outboxOrphanRetentionMs)) id
  persist (.registerWorker ⟨hello.workerId, hello.registration⟩
    ⟨connectionId, hello.workerId, hello.instanceId, nowMs⟩) id
  let pending ← persist (.replayableAssignments hello.workerId) id
  perform (.publish hello.workerId (initialRecord hello connectionId))
  let frames ← replayAssignments hello.workerId pending
  return (connectionId, welcomeFrame hello connectionId :: frames)

inductive EnqueueOutcome where
  | sent
  | pending
  | duplicate

inductive CancelOutcome where
  | sent
  | pending
  | cancelledBeforeSend
  | alreadyTerminal

def deliver {ε : Type} (workerId : String) : Outbound → ServiceProgram ε Bool
  | none => return false
  | some (sender, message) => do
    if ← perform (.send sender (.ok message)) then return true
    else do
      perform (.markSendFailed workerId)
      return false

def enqueueAssignment (workerId : String) (assignment : Except String AssignmentContract) :
    ServiceProgram EnqueueError EnqueueOutcome := do
  let contract ← Prog.attempt (assignment.mapError .invalid)
  let nowMs ← perform .nowUnixMs
  let stored : StoreAssignmentOutcome ← persist (.storeAssignment workerId contract nowMs) .fromRepository
  require (perform (.grantInput workerId contract nowMs)) id
  require (perform (.recordRunStarted contract nowMs)) .interaction
  let atMs ← perform .nowUnixMs
  let becameDispatchable : Bool ←
    persist (.markAssignmentDispatchable contract.attemptId.text workerId atMs) .fromRepository
  if stored = .duplicate ∧ becameDispatchable = false then return .duplicate
  else do
    let outbound ← (prepareAssignment workerId contract.attemptId.text).mapError .fromRepository
    return if ← deliver workerId outbound then .sent else .pending

def cancelAttempt (attemptId reason : String) : ServiceProgram RepositoryError CancelOutcome := do
  let nowMs ← perform .nowUnixMs
  let cancellation : CancellationRecord ← persist (.requestCancellation attemptId reason nowMs) id
  match cancellation.outcome with
  | .cancelledBeforeSend => return .cancelledBeforeSend
  | .alreadyTerminal => return .alreadyTerminal
  | .requested | .duplicate => do
    let outbound ← prepareCancel cancellation.workerId attemptId reason
    return if ← deliver cancellation.workerId outbound then .sent else .pending

end WorkerControlService

end AlloyPort
