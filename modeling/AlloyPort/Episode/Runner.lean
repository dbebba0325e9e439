import AlloyPort.Library.SharedStore
import AlloyPort.Episode.Record

/-! The reducer: every public operation of the runner as a program over the episode repository,
the model gateway, the tool gateway and the fault injector. -/

namespace AlloyPort

open Effect

inductive GatewayCall where
  | invoke (request : ModelTurnRequest)
  | descriptor (name : String)
  | validateCall (call : GatewayToolCall)
  | execute (request : ToolInvocation)
  | reconcile (request : ToolInvocation)
  | shouldCrash (point : AgentRuntimeFaultPoint)

@[reducible] def GatewayReply : GatewayCall → Type
  | .invoke _ => Except ModelGatewayError ModelGatewayOutcome
  | .descriptor _ => Option RuntimeToolDescriptor
  | .validateCall _ => Except ToolInputRejection Unit
  | .execute _ => Except ToolGatewayError ToolGatewayOutcome
  | .reconcile _ => Except ToolGatewayError ToolGatewayOutcome
  | .shouldCrash _ => Bool

abbrev GatewayEvent := SharedStore.Event GatewayCall GatewayReply

abbrev RunnerProg :=
  SharedStore.Program EpisodeId DurableEpisodeState GatewayCall EpisodeRepositoryError GatewayReply
    AgentLoopRuntimeError

inductive AgentLoopAdvance where
  | progressed (status : EpisodeStatus)
  | progressedAfter (status : EpisodeStatus) (delayMillis : Nat)
  | terminal (status : EpisodeStatus)
  | suspended

structure VersionedEpisodeState where
  revision : Nat
  state : DurableEpisodeState

namespace Runner

def load (id : EpisodeId) : RunnerProg VersionedEpisodeState := do
  match ← SharedStore.load id with
  | .ok (revision, state) => return ⟨revision, state⟩
  | .error error => .fail (.repository error)

def save (expectedRevision : Nat) (state : DurableEpisodeState) : RunnerProg Nat := do
  match ← SharedStore.save expectedRevision state with
  | .ok revision => return revision
  | .error error => .fail (.repository error)

def invoke (request : ModelTurnRequest) : RunnerProg ModelGatewayOutcome := do
  let reply ← SharedStore.call (GatewayCall.invoke request)
  .attempt (reply.mapError .modelGateway)

def execute (request : ToolInvocation) : RunnerProg ToolGatewayOutcome := do
  let reply ← SharedStore.call (GatewayCall.execute request)
  .attempt (reply.mapError .toolGateway)

def reconcile (request : ToolInvocation) : RunnerProg ToolGatewayOutcome := do
  let reply ← SharedStore.call (GatewayCall.reconcile request)
  .attempt (reply.mapError .toolGateway)

def crashIf (point : AgentRuntimeFaultPoint) : RunnerProg Unit := do
  let crash ← SharedStore.call (GatewayCall.shouldCrash point)
  if crash then .fail (.injectedCrash point) else return ()

end Runner

open Runner

def progress (status : EpisodeStatus) : AgentLoopAdvance :=
  if status.isTerminal then .terminal status
  else if status = .suspended then .suspended
  else .progressed status

def u32TryFrom (value : Nat) : Except AgentLoopRuntimeError Nat :=
  if value < 2 ^ 32 then .ok value else .error .counterExhausted

def u32Next (value : Nat) : Except AgentLoopRuntimeError Nat := do
  let value ← u32TryFrom value
  u32TryFrom (value + 1)

namespace DurableEpisodeState

def transition (state : DurableEpisodeState) (next : EpisodeStatus) :
    Except AgentLoopRuntimeError DurableEpisodeState := do
  let episode ← (state.episode.transition next).mapError .agentRecord
  return { state with episode := episode }

def suspend (state : DurableEpisodeState) : Except AgentLoopRuntimeError DurableEpisodeState := do
  let state ← state.transition .suspensionRequested
  state.transition .suspended

def setLastAttempt (state : DurableEpisodeState) (attempt : ModelAttemptRecord) : DurableEpisodeState :=
  { state with attempts := state.attempts.dropLast ++ [attempt] }

end DurableEpisodeState

def transitionOnly (versioned : VersionedEpisodeState) (next : EpisodeStatus) : RunnerProg AgentLoopAdvance := do
  let state ← .attempt (versioned.state.transition next)
  let _ ← save versioned.revision state
  return progress next

variable [Sha256]

def prepareAttempt (episodeId : EpisodeId) (versioned : VersionedEpisodeState) : RunnerProg AgentLoopAdvance := do
  let state := versioned.state
  if state.cancellationRequested then transitionOnly versioned .cancellationPending
  else if state.turns.length ≥ state.policy.maxModelTurns ∨
      state.attempts.length ≥ state.policy.maxModelAttempts then
    transitionOnly versioned .budgetExhausted
  else do
    let attemptNumber ← .attempt (u32Next state.attempts.length)
    let id ← .attempt (derivedModelAttemptId episodeId attemptNumber)
    let attempt ← .attempt ((ModelAttemptRecord.new {
      id := id
      episodeId := episodeId
      attemptNumber := attemptNumber
      requestDigest := state.nextInputDigest
      resolvedModelDigest := state.resolvedModelDigest
      deploymentDigest := state.deploymentDigest
      modelProfileDigest := state.modelProfileDigest
      requestBudgetDigest := state.requestBudgetDigest
      predecessorAttemptId := state.attempts.getLast?.map ModelAttemptRecord.id
      predecessorContinuationDigest :=
        state.turns.getLast?.map (·.record.nativeContinuationDigest) }).mapError .modelAttempt)
    let state := { state with attempts := state.attempts ++ [attempt] }
    let state ← .attempt (state.transition .modelAttemptPending)
    let _ ← save versioned.revision state
    return .progressed .modelAttemptPending

def afterAmbiguous (state : DurableEpisodeState) : EpisodeStatus :=
  if state.ambiguousModelAttempts > state.policy.maxAmbiguousModelAttempts then .budgetExhausted
  else .readyForModel

/-- The first branch of `drive_model`: recovery found a dispatch whose outcome is unknown. -/
def recoverDispatching (versioned : VersionedEpisodeState) (attempt : ModelAttemptRecord) :
    RunnerProg AgentLoopAdvance := do
  let state := versioned.state
  let terminal := if state.cancellationRequested then .cancelledAmbiguous else .ambiguous
  let attempt ← .attempt ((attempt.finishWithoutResponse terminal none).mapError .modelAttempt)
  let ambiguousModelAttempts ← .attempt (u32TryFrom (state.ambiguousModelAttempts + 1))
  let state : DurableEpisodeState :=
    { state.setLastAttempt attempt with ambiguousModelAttempts := ambiguousModelAttempts }
  if state.cancellationRequested then do
    let state ← .attempt state.suspend
    let _ ← save versioned.revision state
    return .suspended
  else do
    let state' ← .attempt (state.transition (afterAmbiguous state))
    let _ ← save versioned.revision state'
    return progress (afterAmbiguous state)

def repeatsTheLastFailure (state : DurableEpisodeState) (diagnostic : Option Sha256Digest) : Bool :=
  match diagnostic with
  | none => false
  | some diagnostic => state.attempts.reverse.findSome? ModelAttemptRecord.diagnosticDigest = some diagnostic

def failedAttempts (state : DurableEpisodeState) : Nat :=
  min (state.attempts.countP fun attempt => attempt.diagnosticDigest.isSome) (2 ^ 32 - 1)

def backoffMillis (failures : Nat) : Nat :=
  let shift := if failures > 7 then 7 else failures
  let delay := 250 * 2 ^ shift
  if delay > 30000 then 30000 else delay

def afterFailedDispatch (versioned : VersionedEpisodeState) (retry : ModelTransportRetryHint) (repeated : Bool) :
    RunnerProg AgentLoopAdvance := do
  if retry = .never ∨ repeated = true then do
    let state ← .attempt (versioned.state.transition .failed)
    let _ ← save versioned.revision state
    return .terminal .failed
  else do
    let delayMillis := match retry with
      | .afterMillis millis => millis
      | _ => backoffMillis (failedAttempts versioned.state)
    let state ← .attempt (versioned.state.transition .readyForModel)
    let _ ← save versioned.revision state
    return .progressedAfter .readyForModel delayMillis

/-- The last part of `drive_model`: what the gateway's outcome does to the dispatched attempt. -/
def recordModelOutcome (episodeId : EpisodeId) (versioned : VersionedEpisodeState) (attempt : ModelAttemptRecord)
    (request : ModelTurnRequest) (outcome : ModelGatewayOutcome) : RunnerProg AgentLoopAdvance := do
  let state := versioned.state
  match outcome with
  | .turn exchange => do
    let attempt ← .attempt ((attempt.recordResponse exchange.rawExchangeDigest none
      exchange.turn.usage).mapError .modelAttempt)
    let attempt ← .attempt ((attempt.markDecoded exchange.nativeContinuationDigest).mapError .modelAttempt)
    let turnId ← .attempt (derivedTurnId episodeId request.turnIndex)
    let toolCallCount ← .attempt (u32TryFrom exchange.turn.toolCalls.length)
    let record ← .attempt ((TurnRecord.new {
      id := turnId
      episodeId := episodeId
      modelAttemptId := request.attemptId
      turnIndex := request.turnIndex
      decodedTurnDigest := digestSemanticTurn exchange.turn
      rawExchangeDigest := exchange.rawExchangeDigest
      nativeContinuationDigest := exchange.nativeContinuationDigest
      stopReason := exchange.turn.stopReason
      toolCallCount := toolCallCount
      usage := exchange.turn.usage }).mapError .turnRecord)
    let turn : DurableTurn := ⟨record, exchange.turn⟩
    let state := { state.setLastAttempt attempt with turns := state.turns ++ [turn] }
    let state ← .attempt (state.transition .turnRecorded)
    let _ ← save versioned.revision state
    crashIf .afterTurnCommit
    return .progressed .turnRecorded
  | .confirmedNotSent _ diagnosticDigest retry => do
    let repeated := repeatsTheLastFailure state diagnosticDigest
    let attempt ← .attempt ((attempt.finishWithoutResponse .confirmedNotSent
      diagnosticDigest).mapError .modelAttempt)
    afterFailedDispatch { versioned with state := state.setLastAttempt attempt } retry repeated
  | .rejected responseDigest _ diagnosticDigest retry => do
    let repeated := repeatsTheLastFailure state diagnosticDigest
    let attempt ← .attempt ((attempt.recordResponse responseDigest none none).mapError .modelAttempt)
    let attempt ← .attempt ((attempt.markResponseFailed diagnosticDigest).mapError .modelAttempt)
    afterFailedDispatch { versioned with state := state.setLastAttempt attempt } retry repeated
  | .decodeFailed responseDigest _ diagnosticDigest => do
    let attempt ← .attempt ((attempt.recordResponse responseDigest none none).mapError .modelAttempt)
    let attempt ← .attempt ((attempt.markDecodeFailed diagnosticDigest).mapError .modelAttempt)
    let state ← .attempt ((state.setLastAttempt attempt).transition .failed)
    let _ ← save versioned.revision state
    return .terminal .failed
  | .ambiguous _ diagnosticDigest _ => do
    let attempt ← .attempt ((attempt.finishWithoutResponse .ambiguous diagnosticDigest).mapError .modelAttempt)
    let state : DurableEpisodeState :=
      { state.setLastAttempt attempt with ambiguousModelAttempts := state.ambiguousModelAttempts + 1 }
    let state' ← .attempt (state.transition (afterAmbiguous state))
    let _ ← save versioned.revision state'
    return progress (afterAmbiguous state)

def driveModel (episodeId : EpisodeId) (versioned : VersionedEpisodeState) : RunnerProg AgentLoopAdvance := do
  let state := versioned.state
  match state.attempts.getLast? with
  | none => .fail .missingModelAttempt
  | some attempt =>
    if attempt.status = .dispatching then recoverDispatching versioned attempt
    else if attempt.status ≠ .prepared then
      .fail (.invalidDurableState "pending episode has no prepared/dispatching attempt")
    else do
      let turnIndex ← .attempt (u32Next state.turns.length)
      let attempt ← .attempt (attempt.markDispatching.mapError .modelAttempt)
      let request : ModelTurnRequest := {
        attemptId := attempt.id
        episodeId := episodeId
        turnIndex := turnIndex
        inputDigest := state.nextInputDigest }
      let state := state.setLastAttempt attempt
      let revision ← save versioned.revision state
      crashIf .afterModelDispatchCommit
      let outcome ← invoke request
      crashIf .afterModelOutcomeBeforeCommit
      recordModelOutcome episodeId ⟨revision, state⟩ attempt request outcome

/-- The loop of `plan_turn_tools` over the calls of one turn, from call `index` on. -/
def planCalls (episodeId : EpisodeId) (turn : TurnRecord) (inputDigest : Sha256Digest) :
    Nat → List GatewayToolCall → RunnerProg (List DurableToolOperation)
  | _, [] => return []
  | index, call :: calls => do
    let declared ← SharedStore.call (GatewayCall.descriptor call.name)
    let descriptor := declared.getD ⟨call.name, "unknown", .readOnly, .narrative⟩
    let argumentsDigest := Sha256.digestBytes call.rawArguments
    let operationId ← .attempt (derivedToolOperationId episodeId turn.id index descriptor argumentsDigest inputDigest)
    let record ← .attempt ((ToolOperationRecord.new {
      id := operationId
      episodeId := episodeId
      turnId := turn.id
      nativeCallId := call.nativeCallId
      toolName := call.name
      toolVersion := descriptor.version
      effectClass := descriptor.effectClass
      resultAuthority := descriptor.resultAuthority
      argumentsDigest := argumentsDigest
      inputIdentityDigest := inputDigest }).mapError .agentRecord)
    let validated ← SharedStore.call (GatewayCall.validateCall call)
    let record ← match validated with
      | .error rejection =>
        .attempt ((record.finish .rejectedAsInvalid rejection.resultDigest []).mapError .agentRecord)
      | .ok () => do
        let declared ← SharedStore.call (GatewayCall.descriptor call.name)
        if declared.isNone then
          .attempt ((record.finish .rejectedAsInvalid (digestLabel "unknown-tool") []).mapError .agentRecord)
        else pure record
    let operations ← planCalls episodeId turn inputDigest (index + 1) calls
    return ⟨record, call⟩ :: operations

def planTurnTools (episodeId : EpisodeId) (versioned : VersionedEpisodeState) : RunnerProg AgentLoopAdvance := do
  let state := versioned.state
  match state.turns.getLast? with
  | none => .fail .missingTurn
  | some turn =>
    if turn.semanticTurn.toolCalls.isEmpty then do
      let state ← .attempt (state.transition .stopReview)
      let _ ← save versioned.revision state
      return .progressed .stopReview
    else do
      let callCount ← .attempt (u32TryFrom turn.semanticTurn.toolCalls.length)
      let total := state.toolOperations.length + turn.semanticTurn.toolCalls.length
      if total > state.policy.maxTotalToolOperations then do
        let state ← .attempt (state.transition .budgetExhausted)
        let _ ← save versioned.revision state
        return .terminal .budgetExhausted
      else if callCount > state.policy.maxToolCallsPerTurn then do
        let state ← .attempt (state.transition .stopReview)
        let _ ← save versioned.revision state
        return .progressed .stopReview
      else do
        let operations ← planCalls episodeId turn.record state.nextInputDigest 0 turn.semanticTurn.toolCalls
        let state := { state with toolOperations := state.toolOperations ++ operations }
        let state ← .attempt (state.transition .toolWorkPending)
        let _ ← save versioned.revision state
        crashIf .afterTurnCommit
        return .progressed .toolWorkPending

def turnResults (state : DurableEpisodeState) (turnId : TurnId) : List Sha256Digest :=
  (state.toolOperations.filter fun operation => operation.record.turnId = turnId).filterMap
    fun operation => operation.record.resultDigest

/-- The branch of `drive_tools` with no pending operation left. -/
def finishTools (versioned : VersionedEpisodeState) : RunnerProg AgentLoopAdvance := do
  let state := versioned.state
  match state.turns.getLast? with
  | none => .fail .missingTurn
  | some turn => do
    let state := { state with
      nextInputDigest := deriveModelContinuationInputDigest turn.record.nativeContinuationDigest
        (turnResults state turn.record.id) }
    let state ← .attempt (state.transition .readyForModel)
    let _ ← save versioned.revision state
    return .progressed .readyForModel

def isReconciling (status : ToolOperationStatus) : Bool :=
  status matches .reconciling | .running

/-- The transitions of `drive_tools` before the dispatch commit. -/
def dispatchRecord (record : ToolOperationRecord) : Except AgentLoopRuntimeError ToolOperationRecord :=
  match record.status with
  | .requested => do
    let record ← (record.transition .authorized).mapError .agentRecord
    (record.transition .dispatching).mapError .agentRecord
  | .dispatching => do
    let record ← (record.transition .ambiguous).mapError .agentRecord
    (record.transition .reconciling).mapError .agentRecord
  | .ambiguous => (record.transition .reconciling).mapError .agentRecord
  | .reconciling | .running => .ok record
  | _ => .error (.invalidDurableState "tool work contains an unsupported nonterminal state")

/-- The last part of `drive_tools`: what the gateway's outcome does to operation `index`. -/
def recordToolOutcome (versioned : VersionedEpisodeState) (index : Nat) (operation : DurableToolOperation)
    (outcome : ToolGatewayOutcome) : RunnerProg AgentLoopAdvance := do
  let state := versioned.state
  let record := operation.record
  let setRecord (record : ToolOperationRecord) : DurableEpisodeState :=
    { state with toolOperations := state.toolOperations.set index { operation with record := record } }
  match outcome with
  | .completed status resultDigest receiptDigests satisfiesSubtask =>
    if !status.isTerminal || status == .rejectedAsInvalid then .fail .invalidToolOutcome
    else if satisfiesSubtask && record.resultAuthority != .verifiedReference then .fail .untrustedCompletion
    else do
      let record ← .attempt ((record.finish status resultDigest receiptDigests).mapError .agentRecord)
      let state := { setRecord record with subtaskSatisfied := state.subtaskSatisfied || satisfiesSubtask }
      let _ ← save versioned.revision state
      crashIf .afterToolResultCommit
      return .progressed .toolWorkPending
  | .pending _ => do
    let record ← if record.status ≠ .running then
        .attempt ((record.transition .running).mapError .agentRecord)
      else pure record
    let _ ← save versioned.revision (setRecord record)
    return .progressed .toolWorkPending
  | .ambiguous _ => do
    let record ← if record.status ≠ .reconciling then
        .attempt ((record.transition .ambiguous).mapError .agentRecord)
      else pure record
    let state ← .attempt (setRecord record).suspend
    let _ ← save versioned.revision state
    return .suspended

def driveTools (versioned : VersionedEpisodeState) : RunnerProg AgentLoopAdvance := do
  let state := versioned.state
  match state.toolOperations.findFinIdx? fun operation => !operation.record.status.isTerminal with
  | none => finishTools versioned
  | some index => do
    let operation := state.toolOperations.get index
    let record ← .attempt (dispatchRecord operation.record)
    let operation := { operation with record := record }
    let state := { state with toolOperations := state.toolOperations.set index operation }
    let reconciling := isReconciling record.status
    let invocation : ToolInvocation := {
      operationId := record.id
      call := operation.call
      inputIdentityDigest := state.nextInputDigest }
    let revision ← save versioned.revision state
    crashIf .afterToolDispatchCommit
    let outcome ← if reconciling then reconcile invocation else execute invocation
    crashIf .afterToolOutcomeBeforeCommit
    recordToolOutcome ⟨revision, state⟩ index operation outcome

def reviewStop (versioned : VersionedEpisodeState) : RunnerProg AgentLoopAdvance := do
  let state := versioned.state
  if state.subtaskSatisfied then transitionOnly versioned .succeeded
  else if state.stopFeedbackTurns < state.policy.maxStopFeedbackTurns then
    match state.turns.getLast? with
    | none => .fail .missingTurn
    | some turn => do
      let state := { state with
        stopFeedbackTurns := state.stopFeedbackTurns + 1
        nextInputDigest := deriveModelContinuationInputDigest turn.record.nativeContinuationDigest [] }
      transitionOnly { versioned with state := state } .readyForModel
  else transitionOnly versioned .incomplete

namespace AgentLoopRunner

def advance (episodeId : EpisodeId) : RunnerProg AgentLoopAdvance := do
  let versioned ← load episodeId
  match versioned.state.status with
  | .created => transitionOnly versioned .readyForModel
  | .readyForModel => prepareAttempt episodeId versioned
  | .modelAttemptPending => driveModel episodeId versioned
  | .turnRecorded => planTurnTools episodeId versioned
  | .toolWorkPending => driveTools versioned
  | .stopReview => reviewStop versioned
  | .cancellationPending => transitionOnly versioned .cancelled
  | .suspended | .suspensionRequested => return .suspended
  | .succeeded | .incomplete | .cancelled | .budgetExhausted | .failed => return .terminal versioned.state.status

def resume (episodeId : EpisodeId) (granted : EpisodeAllowance) : RunnerProg EpisodeStatus := do
  let versioned ← load episodeId
  let state := versioned.state
  .attempt state.validateRecovered
  let resumedFrom := state.status
  if !resumedFrom.isTerminal then return resumedFrom
  else do
    let episode ← .attempt (state.episode.resume.mapError .agentRecord)
    let policy := state.policy.withAllowance granted
    .attempt policy.validate
    let grant : AllowanceGrant := ⟨resumedFrom, state.policy.allowance, granted⟩
    let _ ← save versioned.revision { state with
      episode := episode
      policy := policy
      grants := state.grants ++ [grant]
      cancellationRequested := false }
    return resumedFrom

def modelAmbiguous (state : DurableEpisodeState) : Bool :=
  state.attempts.getLast?.any fun attempt => attempt.status = .dispatching

def toolAmbiguous (state : DurableEpisodeState) : Bool :=
  state.toolOperations.any fun operation =>
    operation.record.status matches .dispatching | .running | .ambiguous | .reconciling

def cancelLastAttempt (state : DurableEpisodeState) : Except AgentLoopRuntimeError DurableEpisodeState :=
  match state.attempts.getLast? with
  | some attempt =>
    if modelAmbiguous state then do
      let attempt ← (attempt.finishWithoutResponse .cancelledAmbiguous none).mapError .modelAttempt
      return state.setLastAttempt attempt
    else return state
  | none => return state

def cancelFirstDispatching (state : DurableEpisodeState) : Except AgentLoopRuntimeError DurableEpisodeState :=
  match state.toolOperations.findFinIdx? fun operation => operation.record.status = .dispatching with
  | some index => do
    let operation := state.toolOperations.get index
    let record ← (operation.record.transition .ambiguous).mapError .agentRecord
    return { state with toolOperations := state.toolOperations.set index { operation with record := record } }
  | none => return state

/-- An ambiguous effect suspends the episode; otherwise its cancellation is pending. -/
def cancelStatus (state : DurableEpisodeState) (ambiguous : Bool) :
    Except AgentLoopRuntimeError DurableEpisodeState :=
  if ambiguous then
    if state.status ≠ .suspended then state.suspend else .ok state
  else if state.status ≠ .cancellationPending then state.transition .cancellationPending
  else .ok state

def requestCancellation (episodeId : EpisodeId) : RunnerProg EpisodeStatus := do
  let versioned ← load episodeId
  let state := versioned.state
  if state.status.isTerminal then return state.status
  else do
    let model := modelAmbiguous state
    let tool := toolAmbiguous state
    let state := { state with cancellationRequested := true }
    let state ← .attempt (cancelLastAttempt state)
    let state ← .attempt (if tool then cancelFirstDispatching state else .ok state)
    let state ← .attempt (cancelStatus state (model || tool))
    let _ ← save versioned.revision state
    return state.status

def resumeReconciliation (episodeId : EpisodeId) : RunnerProg EpisodeStatus := do
  let versioned ← load episodeId
  let state := versioned.state
  if state.status ≠ .suspended then
    .fail (.invalidDurableState "only a suspended episode can resume reconciliation")
  else do
    let hasUnresolvedTool := state.toolOperations.any fun operation => !operation.record.status.isTerminal
    let next : EpisodeStatus := if hasUnresolvedTool then .toolWorkPending
      else if state.cancellationRequested then .cancellationPending
      else .readyForModel
    let state ← .attempt (state.transition next)
    let _ ← save versioned.revision state
    return next

end AgentLoopRunner

inductive RunnerRequest where
  | advance
  | resume (granted : EpisodeAllowance)
  | requestCancellation
  | resumeReconciliation

def RunnerRequest.program (episodeId : EpisodeId) : RunnerRequest → RunnerProg (AgentLoopAdvance ⊕ EpisodeStatus)
  | .advance => do return .inl (← AgentLoopRunner.advance episodeId)
  | .resume granted => do return .inr (← AgentLoopRunner.resume episodeId granted)
  | .requestCancellation => do return .inr (← AgentLoopRunner.requestCancellation episodeId)
  | .resumeReconciliation => do return .inr (← AgentLoopRunner.resumeReconciliation episodeId)

end AlloyPort
