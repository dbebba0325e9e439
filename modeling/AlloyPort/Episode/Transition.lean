import AlloyPort.Library.Compliance
import AlloyPort.Episode.Runner

/-! What one save of the reducer can do to the durable state of an episode. There is one case
for every place in the reducer that saves; the calls made since the state was loaded or saved
stand beside it. -/

namespace AlloyPort

namespace DurableEpisodeState

def withStatus (state : DurableEpisodeState) (next : EpisodeStatus) : DurableEpisodeState :=
  { state with episode := { state.episode with status := next } }

def setOperation (state : DurableEpisodeState) (index : Nat) (operation : DurableToolOperation) :
    DurableEpisodeState :=
  { state with toolOperations := state.toolOperations.set index operation }

section withStatus

variable (state : DurableEpisodeState) (next : EpisodeStatus)

@[simp] theorem withStatus_status : (state.withStatus next).status = next := rfl
@[simp] theorem withStatus_nextInputDigest : (state.withStatus next).nextInputDigest = state.nextInputDigest := rfl
@[simp] theorem withStatus_attempts : (state.withStatus next).attempts = state.attempts := rfl
@[simp] theorem withStatus_turns : (state.withStatus next).turns = state.turns := rfl
@[simp] theorem withStatus_toolOperations : (state.withStatus next).toolOperations = state.toolOperations := rfl

end withStatus

theorem transition_ok {state state' : DurableEpisodeState} {next : EpisodeStatus} :
    state.transition next = .ok state' ↔
      state.status.canTransitionTo next = true ∧ state' = state.withStatus next := by
  simp only [transition, Effect.bind_eq_ok, Effect.mapError_eq_ok, AgentEpisodeRecord.transition_ok, pure,
    Except.pure, Except.ok.injEq]
  constructor
  · rintro ⟨_, ⟨h, rfl⟩, rfl⟩
    exact ⟨h, rfl⟩
  · rintro ⟨h, rfl⟩
    exact ⟨_, ⟨h, rfl⟩, rfl⟩

theorem suspend_ok {state state' : DurableEpisodeState} :
    state.suspend = .ok state' ↔
      state.status.canTransitionTo .suspensionRequested = true ∧ state' = state.withStatus .suspended := by
  simp only [suspend, Effect.bind_eq_ok, transition_ok]
  constructor
  · rintro ⟨_, ⟨h, rfl⟩, _, rfl⟩
    exact ⟨h, rfl⟩
  · rintro ⟨h, rfl⟩
    exact ⟨_, ⟨h, rfl⟩, rfl, rfl⟩

end DurableEpisodeState

open DurableEpisodeState

inductive Moves (state : DurableEpisodeState) : EpisodeStatus → Prop where
  | begun (hs : state.status = .created) : Moves state .readyForModel
  | cancelledReady (hs : state.status = .readyForModel) (hc : state.cancellationRequested = true) :
      Moves state .cancellationPending
  | spent (hs : state.status = .readyForModel)
      (hb : state.turns.length ≥ state.policy.maxModelTurns ∨
        state.attempts.length ≥ state.policy.maxModelAttempts) : Moves state .budgetExhausted
  | cancelled (hs : state.status = .cancellationPending) : Moves state .cancelled
  | stopped {turn} (hs : state.status = .turnRecorded) (ht : state.turns.getLast? = some turn)
      (hu : turn.semanticTurn.toolCalls = [] ∨
        turn.semanticTurn.toolCalls.length > state.policy.maxToolCallsPerTurn) : Moves state .stopReview
  | overspent {turn} (hs : state.status = .turnRecorded) (ht : state.turns.getLast? = some turn)
      (hb : state.toolOperations.length + turn.semanticTurn.toolCalls.length >
        state.policy.maxTotalToolOperations) : Moves state .budgetExhausted
  | satisfied (hs : state.status = .stopReview) (hb : state.subtaskSatisfied = true) : Moves state .succeeded
  | gaveUp (hs : state.status = .stopReview) (hb : state.subtaskSatisfied = false)
      (hf : state.stopFeedbackTurns ≥ state.policy.maxStopFeedbackTurns) : Moves state .incomplete
  | unresolved (hs : state.status = .suspended)
      (ho : ∃ operation ∈ state.toolOperations, operation.record.status.isTerminal = false) :
      Moves state .toolWorkPending
  | cancelledSuspended (hs : state.status = .suspended) (hc : state.cancellationRequested = true)
      (ho : ∀ operation ∈ state.toolOperations, operation.record.status.isTerminal = true) :
      Moves state .cancellationPending
  | reopened (hs : state.status = .suspended) (hc : state.cancellationRequested = false)
      (ho : ∀ operation ∈ state.toolOperations, operation.record.status.isTerminal = true) :
      Moves state .readyForModel

def ModelAttemptRecord.afterOutcome (attempt : ModelAttemptRecord) : ModelGatewayOutcome → ModelAttemptRecord
  | .turn exchange => { attempt with
      responseDigest := some exchange.rawExchangeDigest, actualModel := none, usage := exchange.turn.usage,
      continuationDigest := some exchange.nativeContinuationDigest, status := .decoded }
  | .confirmedNotSent _ digest _ => { attempt with diagnosticDigest := digest, status := .confirmedNotSent }
  | .rejected response _ digest _ => { attempt with
      responseDigest := some response, actualModel := none, usage := none,
      diagnosticDigest := digest, status := .failed }
  | .decodeFailed response _ digest => { attempt with
      responseDigest := some response, actualModel := none, usage := none,
      diagnosticDigest := digest, status := .decodeFailed }
  | .ambiguous _ digest _ => { attempt with diagnosticDigest := digest, status := .ambiguous }

variable [Sha256]

inductive Rejected (log : List GatewayEvent) (call : GatewayToolCall) : Sha256Digest → Prop where
  | invalid {rejection} (he : ⟨.validateCall call, .error rejection⟩ ∈ log) :
      Rejected log call rejection.resultDigest
  | unknown (hv : ⟨.validateCall call, .ok ()⟩ ∈ log) (he : ⟨.descriptor call.name, none⟩ ∈ log) :
      Rejected log call (digestLabel "unknown-tool")

def plannedSpec (id : EpisodeId) (turn : TurnRecord) (inputDigest : Sha256Digest) (operationId : ToolOperationId)
    (descriptor : RuntimeToolDescriptor) (call : GatewayToolCall) : ToolOperationSpec where
  id := operationId
  episodeId := id
  turnId := turn.id
  nativeCallId := call.nativeCallId
  toolName := call.name
  toolVersion := descriptor.version
  effectClass := descriptor.effectClass
  resultAuthority := descriptor.resultAuthority
  argumentsDigest := Sha256.digestBytes call.rawArguments
  inputIdentityDigest := inputDigest

structure PlannedCall (id : EpisodeId) (turn : TurnRecord) (inputDigest : Sha256Digest) (log : List GatewayEvent)
    (index : Nat) (call : GatewayToolCall) (operation : DurableToolOperation) : Prop where
  derived : ∃ operationId declared, (⟨.descriptor call.name, declared⟩ : GatewayEvent) ∈ log ∧
    derivedToolOperationId id turn.id index (declared.getD ⟨call.name, "unknown", .readOnly, .narrative⟩)
      (Sha256.digestBytes call.rawArguments) inputDigest = .ok operationId ∧
    operation.record.spec = plannedSpec id turn inputDigest operationId
      (declared.getD ⟨call.name, "unknown", .readOnly, .narrative⟩) call
  called : operation.call = call
  outcome : operation.record.status = .requested ∧ operation.record.resultDigest = none ∨
    operation.record.status = .rejectedAsInvalid ∧
      ∃ digest, Rejected log call digest ∧ operation.record.resultDigest = some digest

/-- The operations planned for the calls of one turn, from call `index` on. -/
inductive PlannedCalls (id : EpisodeId) (turn : TurnRecord) (inputDigest : Sha256Digest)
    (log : List GatewayEvent) : Nat → List GatewayToolCall → List DurableToolOperation → Prop where
  | nil {index} : PlannedCalls id turn inputDigest log index [] []
  | cons {index call calls operation operations}
      (hc : PlannedCall id turn inputDigest log index call operation)
      (hr : PlannedCalls id turn inputDigest log (index + 1) calls operations) :
      PlannedCalls id turn inputDigest log index (call :: calls) (operation :: operations)

/-- The tool gateway answered the invocation, either on its dispatch or on reconciliation. -/
def ToolAnswered (log : List GatewayEvent) (invocation : ToolInvocation) (outcome : ToolGatewayOutcome) : Prop :=
  ⟨.execute invocation, .ok outcome⟩ ∈ log ∨ ⟨.reconcile invocation, .ok outcome⟩ ∈ log

structure Requests (id : EpisodeId) (state : DurableEpisodeState) (attempt : ModelAttemptRecord)
    (request : ModelTurnRequest) : Prop where
  attemptId : request.attemptId = attempt.id
  episodeId : request.episodeId = id
  turnIndex : request.turnIndex = state.turns.length + 1
  inputDigest : request.inputDigest = state.nextInputDigest

structure Invokes (state : DurableEpisodeState) (operation : DurableToolOperation) (invocation : ToolInvocation) :
    Prop where
  operationId : invocation.operationId = operation.record.id
  call : invocation.call = operation.call
  inputIdentityDigest : invocation.inputIdentityDigest = state.nextInputDigest

/-- The saves, with the calls made since the version they replace was loaded or saved. -/
inductive EpisodeStep (id : EpisodeId) (s : DurableEpisodeState) :
    List GatewayEvent → DurableEpisodeState → Prop where
  | moved {next} (hm : Moves s next) : EpisodeStep id s [] (s.withStatus next)
  | prepared {spec : ModelAttemptSpec} (hs : s.status = .readyForModel) (hc : s.cancellationRequested = false)
      (ht : s.turns.length < s.policy.maxModelTurns) (ha : s.attempts.length < s.policy.maxModelAttempts)
      (hn : spec.attemptNumber = s.attempts.length + 1)
      (hi : derivedModelAttemptId id (s.attempts.length + 1) = .ok spec.id)
      (hr : spec.requestDigest = s.nextInputDigest) :
      EpisodeStep id s [] (withStatus { s with
        attempts := s.attempts ++ [⟨1, spec, .prepared, none, none, none, none, none⟩] } .modelAttemptPending)
  | dispatched {attempt} (hs : s.status = .modelAttemptPending) (hl : s.attempts.getLast? = some attempt)
      (ha : attempt.status = .prepared) :
      EpisodeStep id s [] (s.setLastAttempt { attempt with status := .dispatching })
  | recovered {attempt next} (hs : s.status = .modelAttemptPending) (hl : s.attempts.getLast? = some attempt)
      (ha : attempt.status = .dispatching)
      (hn : next = if s.cancellationRequested then .suspended
        else if s.ambiguousModelAttempts + 1 > s.policy.maxAmbiguousModelAttempts then .budgetExhausted
        else .readyForModel) :
      EpisodeStep id s [] (withStatus { s.setLastAttempt { attempt with
        diagnosticDigest := none
        status := if s.cancellationRequested then .cancelledAmbiguous else .ambiguous } with
        ambiguousModelAttempts := s.ambiguousModelAttempts + 1 } next)
  | turned {log} {attempt request exchange} {turn : DurableTurn} (hs : s.status = .modelAttemptPending)
      (hl : s.attempts.getLast? = some attempt) (ha : attempt.status = .dispatching)
      (he : ⟨.invoke request, .ok (.turn exchange)⟩ ∈ log) (hr : Requests id s attempt request)
      (hi : derivedTurnId id (s.turns.length + 1) = .ok turn.record.id)
      (hd : turn.record.nativeContinuationDigest = exchange.nativeContinuationDigest)
      (ht : turn.semanticTurn = exchange.turn) (hm : turn.record.spec.modelAttemptId = request.attemptId)
      (hx : turn.record.spec.turnIndex = request.turnIndex) :
      EpisodeStep id s log (withStatus { s.setLastAttempt (attempt.afterOutcome (.turn exchange)) with
        turns := s.turns ++ [turn] } .turnRecorded)
  | refused {log} {attempt request outcome next} (hs : s.status = .modelAttemptPending)
      (hl : s.attempts.getLast? = some attempt) (ha : attempt.status = .dispatching)
      (he : ⟨.invoke request, .ok outcome⟩ ∈ log) (hr : Requests id s attempt request)
      (ho : (∃ diagnostic digest retry, outcome = .confirmedNotSent diagnostic digest retry) ∨
        (∃ response diagnostic digest retry, outcome = .rejected response diagnostic digest retry) ∨
        ∃ response diagnostic digest, outcome = .decodeFailed response diagnostic digest)
      (hn : next = .failed ∨ next = .readyForModel) :
      EpisodeStep id s log ((s.setLastAttempt (attempt.afterOutcome outcome)).withStatus next)
  | unknown {log} {attempt request diagnostic digest retry next} (hs : s.status = .modelAttemptPending)
      (hl : s.attempts.getLast? = some attempt) (ha : attempt.status = .dispatching)
      (he : ⟨.invoke request, .ok (.ambiguous diagnostic digest retry)⟩ ∈ log)
      (hr : Requests id s attempt request)
      (hn : next = if s.ambiguousModelAttempts + 1 > s.policy.maxAmbiguousModelAttempts then .budgetExhausted
        else .readyForModel) :
      EpisodeStep id s log (withStatus { s.setLastAttempt
        (attempt.afterOutcome (.ambiguous diagnostic digest retry)) with
        ambiguousModelAttempts := s.ambiguousModelAttempts + 1 } next)
  | planned {log} {turn operations} (hs : s.status = .turnRecorded) (ht : s.turns.getLast? = some turn)
      (hb : s.toolOperations.length + turn.semanticTurn.toolCalls.length ≤ s.policy.maxTotalToolOperations)
      (hw : turn.semanticTurn.toolCalls.length ≤ s.policy.maxToolCallsPerTurn)
      (hp : PlannedCalls id turn.record s.nextInputDigest log 0 turn.semanticTurn.toolCalls operations)
      (hne : turn.semanticTurn.toolCalls ≠ []) :
      EpisodeStep id s log (withStatus { s with
        toolOperations := s.toolOperations ++ operations } .toolWorkPending)
  | toolDispatched {index : Nat} {operation record} (hs : s.status = .toolWorkPending)
      (hg : s.toolOperations[index]? = some operation) (hd : dispatchRecord operation.record = .ok record)
      (hb : ∀ before ∈ s.toolOperations.take index, before.record.status.isTerminal = true) :
      EpisodeStep id s [] (s.setOperation index { operation with record := record })
  | toolCompleted {log} {index : Nat} {operation invocation status digest receipts satisfies}
      (hs : s.status = .toolWorkPending) (hg : s.toolOperations[index]? = some operation)
      (he : ToolAnswered log invocation (.completed status digest receipts satisfies))
      (hi : Invokes s operation invocation) (ht : status.isTerminal = true) (hr : status ≠ .rejectedAsInvalid)
      (hc : operation.record.status.canTransitionTo status = true)
      (hv : satisfies = true → operation.record.resultAuthority = .verifiedReference) :
      EpisodeStep id s log { s.setOperation index { operation with record := { operation.record with
        status := status, resultDigest := some digest, receiptDigests := receipts } } with
        subtaskSatisfied := s.subtaskSatisfied || satisfies }
  | toolRunning {log} {index : Nat} {operation invocation digest} (hs : s.status = .toolWorkPending)
      (hg : s.toolOperations[index]? = some operation) (he : ToolAnswered log invocation (.pending digest))
      (hi : Invokes s operation invocation)
      (hc : operation.record.status = .running ∨ operation.record.status.canTransitionTo .running = true) :
      EpisodeStep id s log (s.setOperation index { operation with
        record := { operation.record with status := .running } })
  | toolSuspended {log} {index : Nat} {operation invocation digest next} (hs : s.status = .toolWorkPending)
      (hg : s.toolOperations[index]? = some operation) (he : ToolAnswered log invocation (.ambiguous digest))
      (hi : Invokes s operation invocation)
      (hc : operation.record.status = .reconciling ∧ next = .reconciling ∨
        operation.record.status.canTransitionTo .ambiguous = true ∧ next = .ambiguous) :
      EpisodeStep id s log ((s.setOperation index { operation with
        record := { operation.record with status := next } }).withStatus .suspended)
  | toolsFinished {turn} (hs : s.status = .toolWorkPending) (ht : s.turns.getLast? = some turn)
      (ho : ∀ operation ∈ s.toolOperations, operation.record.status.isTerminal = true) :
      EpisodeStep id s [] (withStatus { s with
        nextInputDigest := deriveModelContinuationInputDigest turn.record.nativeContinuationDigest
          (turnResults s turn.record.id) } .readyForModel)
  | continued {turn} (hs : s.status = .stopReview) (ht : s.turns.getLast? = some turn)
      (hb : s.subtaskSatisfied = false) (hf : s.stopFeedbackTurns < s.policy.maxStopFeedbackTurns) :
      EpisodeStep id s [] (withStatus { s with
        stopFeedbackTurns := s.stopFeedbackTurns + 1
        nextInputDigest :=
          deriveModelContinuationInputDigest turn.record.nativeContinuationDigest [] } .readyForModel)
  | resumed {granted} (hs : s.status = .failed ∨ s.status = .incomplete ∨ s.status = .budgetExhausted)
      (hr : s.validateRecovered = .ok ()) (hp : (s.policy.withAllowance granted).validate = .ok ()) :
      EpisodeStep id s [] (withStatus { s with
        policy := s.policy.withAllowance granted
        grants := s.grants ++ [⟨s.status, s.policy.allowance, granted⟩]
        cancellationRequested := false } .readyForModel)
  | cancelRequested {attempts operations next} (ht : s.status.isTerminal = false)
      (ha : attempts = s.attempts ∨ ∃ attempt, s.attempts.getLast? = some attempt ∧
        attempt.status = .dispatching ∧ attempts = s.attempts.dropLast ++
          [{ attempt with diagnosticDigest := none, status := .cancelledAmbiguous }])
      (ho : operations = s.toolOperations ∨ ∃ (index : Nat) (operation : DurableToolOperation),
        s.toolOperations[index]? = some operation ∧ operation.record.status = .dispatching ∧
        operations = s.toolOperations.set index
          { operation with record := { operation.record with status := .ambiguous } })
      (hn : next = .suspended ∧ (s.status = .suspended ∨ s.status.canTransitionTo .suspensionRequested = true) ∨
        next = .cancellationPending ∧
          (s.status = .cancellationPending ∨ s.status.canTransitionTo .cancellationPending = true)) :
      EpisodeStep id s [] (withStatus { s with
        cancellationRequested := true, attempts := attempts, toolOperations := operations } next)

/-- A dispatch marker: the save after which the call may be made, once. -/
def Mints (s s' : DurableEpisodeState) : GatewayCall → Prop
  | .invoke request => ∃ (i : Nat) (attempt : ModelAttemptRecord),
      s.attempts[i]? = some attempt ∧ attempt.status = .prepared ∧ attempt.id = request.attemptId ∧
      s'.attempts[i]? = some { attempt with status := .dispatching }
  | .execute invocation => ∃ (i : Nat) (operation : DurableToolOperation),
      s.toolOperations[i]? = some operation ∧ operation.record.status = .requested ∧
      operation.record.id = invocation.operationId ∧
      s'.toolOperations[i]? = some { operation with record := { operation.record with status := .dispatching } }
  | _ => False

/-- Which call may follow the calls `log` made since version `s` was loaded or saved. -/
def Calls (id : EpisodeId) (s : DurableEpisodeState) (log : List GatewayEvent) : GatewayCall → Prop
  | .invoke request => s.status = .modelAttemptPending ∧ (∃ attempt, s.attempts.getLast? = some attempt ∧
      attempt.status = .dispatching ∧ Requests id s attempt request) ∧
      ∀ e ∈ log, ∀ request, e.call ≠ .invoke request
  | .validateCall call => s.status = .turnRecorded ∧
      ∃ turn, s.turns.getLast? = some turn ∧ call ∈ turn.semanticTurn.toolCalls
  | .execute invocation | .reconcile invocation => s.status = .toolWorkPending ∧
      ∃ operation ∈ s.toolOperations, operation.record.status.isTerminal = false ∧ Invokes s operation invocation
  | .descriptor _ | .shouldCrash _ => True

def episodeProtocol : SharedStore.Protocol EpisodeId DurableEpisodeState GatewayCall GatewayReply where
  step := EpisodeStep
  calls := Calls
  linear c := (c matches .invoke _ | .execute _) = true
  mints := Mints

instance : DecidablePred episodeProtocol.linear := fun c =>
  inferInstanceAs (Decidable ((c matches .invoke _ | .execute _) = true))

end AlloyPort
