import AlloyPort.Identity
import AlloyPort.Library.Prog

/-! The durable records of one agent episode: its status machine, its model attempts and its
tool operations. Records change only through their checked operations. -/

namespace AlloyPort

inductive EpisodeStatus where
  | created
  | readyForModel
  | modelAttemptPending
  | turnRecorded
  | toolWorkPending
  | stopReview
  | suspensionRequested
  | suspended
  | cancellationPending
  | succeeded
  | incomplete
  | cancelled
  | budgetExhausted
  | failed
  deriving DecidableEq, Repr

def EpisodeStatus.canTransitionTo (status next : EpisodeStatus) : Bool :=
  match status with
  | .created => (next matches .readyForModel | .cancellationPending)
  | .readyForModel =>
    (next matches .modelAttemptPending | .suspensionRequested | .cancellationPending | .budgetExhausted | .failed)
  | .modelAttemptPending =>
    (next matches .turnRecorded | .readyForModel | .suspensionRequested | .cancellationPending
      | .budgetExhausted | .failed)
  | .turnRecorded =>
    (next matches .toolWorkPending | .stopReview | .cancellationPending | .budgetExhausted | .failed)
  | .toolWorkPending =>
    (next matches .readyForModel | .suspensionRequested | .cancellationPending | .budgetExhausted | .failed)
  | .stopReview =>
    (next matches .readyForModel | .succeeded | .incomplete | .suspensionRequested | .cancellationPending
      | .budgetExhausted | .failed)
  | .suspensionRequested => (next matches .suspended | .cancellationPending | .failed)
  | .suspended => (next matches .readyForModel | .toolWorkPending | .cancellationPending | .failed)
  | .cancellationPending => (next matches .cancelled | .suspended)
  | .succeeded | .incomplete | .cancelled | .budgetExhausted | .failed => false

def EpisodeStatus.isTerminal : EpisodeStatus → Bool
  | .succeeded | .incomplete | .cancelled | .budgetExhausted | .failed => true
  | _ => false

def EpisodeStatus.debug : EpisodeStatus → String
  | .created => "Created"
  | .readyForModel => "ReadyForModel"
  | .modelAttemptPending => "ModelAttemptPending"
  | .turnRecorded => "TurnRecorded"
  | .toolWorkPending => "ToolWorkPending"
  | .stopReview => "StopReview"
  | .suspensionRequested => "SuspensionRequested"
  | .suspended => "Suspended"
  | .cancellationPending => "CancellationPending"
  | .succeeded => "Succeeded"
  | .incomplete => "Incomplete"
  | .cancelled => "Cancelled"
  | .budgetExhausted => "BudgetExhausted"
  | .failed => "Failed"

inductive AgentRecordError where
  | emptyField (field : String)
  | invalidTransition (aggregate fromStatus toStatus : String)
  | terminalResultRequired

def requireText (field value : String) : Except AgentRecordError Unit :=
  if isBlank value then .error (.emptyField field) else .ok ()

structure EpisodeSpec where
  id : EpisodeId
  taskId : TaskId
  searchRunId : SearchRunId
  parentCandidateId : Option CandidateId
  subtaskContractDigest : Sha256Digest
  contextProjectionDigest : Sha256Digest
  inputArtifactRootDigest : Sha256Digest
  runtimeModelAlias : String
  resolvedModelDigest : Sha256Digest
  promptRevision : String
  toolCatalogDigest : Sha256Digest
  loopPolicyDigest : Sha256Digest
  dataBoundaryPolicyDigest : Sha256Digest
  budgetSnapshotDigest : Sha256Digest

structure AgentEpisodeRecord where
  schemaVersion : Nat
  spec : EpisodeSpec
  status : EpisodeStatus

def AgentEpisodeRecord.id (record : AgentEpisodeRecord) : EpisodeId := record.spec.id

def AgentEpisodeRecord.new (spec : EpisodeSpec) : Except AgentRecordError AgentEpisodeRecord := do
  requireText "runtime model alias" spec.runtimeModelAlias
  requireText "prompt revision" spec.promptRevision
  return ⟨1, spec, .created⟩

def AgentEpisodeRecord.transition (record : AgentEpisodeRecord) (next : EpisodeStatus) :
    Except AgentRecordError AgentEpisodeRecord :=
  if record.status.canTransitionTo next then .ok { record with status := next }
  else .error (.invalidTransition "episode" record.status.debug next.debug)

/-- Reopening a finished episode is an operator decision and no edge of `canTransitionTo`. -/
def AgentEpisodeRecord.resume (record : AgentEpisodeRecord) : Except AgentRecordError AgentEpisodeRecord :=
  match record.status with
  | .failed | .incomplete | .budgetExhausted => .ok { record with status := .readyForModel }
  | _ => .error (.invalidTransition "episode" record.status.debug EpisodeStatus.readyForModel.debug)

inductive ModelAttemptStatus where
  | prepared
  | dispatching
  | responded
  | decoded
  | decodeFailed
  | confirmedNotSent
  | failed
  | ambiguous
  | cancelledAmbiguous
  deriving DecidableEq, Repr

structure ModelUsage where
  inputTokens : Nat
  outputTokens : Nat
  cachedInputTokens : Option Nat
  costMicros : Option Nat

structure ModelAttemptSpec where
  id : ModelAttemptId
  episodeId : EpisodeId
  attemptNumber : Nat
  requestDigest : Sha256Digest
  resolvedModelDigest : Sha256Digest
  deploymentDigest : Sha256Digest
  modelProfileDigest : Sha256Digest
  requestBudgetDigest : Sha256Digest
  predecessorAttemptId : Option ModelAttemptId
  predecessorContinuationDigest : Option Sha256Digest

structure ModelAttemptRecord where
  schemaVersion : Nat
  spec : ModelAttemptSpec
  status : ModelAttemptStatus
  responseDigest : Option Sha256Digest
  continuationDigest : Option Sha256Digest
  diagnosticDigest : Option Sha256Digest
  actualModel : Option String
  usage : Option ModelUsage

inductive ModelAttemptError where
  | zeroAttemptNumber
  | emptyActualModel
  | invalidTransition (fromStatus expected : ModelAttemptStatus)
  | invalidTerminal (status : ModelAttemptStatus)

namespace ModelAttemptRecord

def id (record : ModelAttemptRecord) : ModelAttemptId := record.spec.id

def new (spec : ModelAttemptSpec) : Except ModelAttemptError ModelAttemptRecord :=
  if spec.attemptNumber = 0 then .error .zeroAttemptNumber
  else .ok ⟨1, spec, .prepared, none, none, none, none, none⟩

def requireStatus (record : ModelAttemptRecord) (expected : ModelAttemptStatus) : Except ModelAttemptError Unit :=
  if record.status = expected then .ok () else .error (.invalidTransition record.status expected)

def markDispatching (record : ModelAttemptRecord) : Except ModelAttemptError ModelAttemptRecord := do
  record.requireStatus .prepared
  return { record with status := .dispatching }

def recordResponse (record : ModelAttemptRecord) (responseDigest : Sha256Digest) (actualModel : Option String)
    (usage : Option ModelUsage) : Except ModelAttemptError ModelAttemptRecord := do
  record.requireStatus .dispatching
  if actualModel.any isBlank then throw .emptyActualModel
  return { record with
    responseDigest := some responseDigest, actualModel := actualModel, usage := usage, status := .responded }

def markDecoded (record : ModelAttemptRecord) (continuationDigest : Sha256Digest) :
    Except ModelAttemptError ModelAttemptRecord := do
  record.requireStatus .responded
  return { record with continuationDigest := some continuationDigest, status := .decoded }

/-- The two failures that keep the provider's response, by their terminal status. -/
def markResponded (terminal : ModelAttemptStatus) (record : ModelAttemptRecord)
    (diagnosticDigest : Option Sha256Digest) : Except ModelAttemptError ModelAttemptRecord := do
  record.requireStatus .responded
  return { record with diagnosticDigest := diagnosticDigest, status := terminal }

def markDecodeFailed := markResponded .decodeFailed

def markResponseFailed := markResponded .failed

def finishWithoutResponse (record : ModelAttemptRecord) (terminal : ModelAttemptStatus)
    (diagnosticDigest : Option Sha256Digest) : Except ModelAttemptError ModelAttemptRecord := do
  record.requireStatus .dispatching
  if !(terminal matches .confirmedNotSent | .failed | .ambiguous | .cancelledAmbiguous) then
    throw (.invalidTerminal terminal)
  return { record with diagnosticDigest := diagnosticDigest, status := terminal }

end ModelAttemptRecord

structure GatewayToolCall where
  nativeCallId : String
  name : String
  rawArguments : List UInt8
  deriving DecidableEq

inductive NormalizedStopReason where
  | stop
  | toolCalls
  | length
  | refusal
  | contentFilter
  | providerResource
  | unknown
  deriving DecidableEq

def NormalizedStopReason.debug : NormalizedStopReason → String
  | .stop => "Stop"
  | .toolCalls => "ToolCalls"
  | .length => "Length"
  | .refusal => "Refusal"
  | .contentFilter => "ContentFilter"
  | .providerResource => "ProviderResource"
  | .unknown => "Unknown"

structure GatewayTurn where
  narrative : List String
  toolCalls : List GatewayToolCall
  stopReason : NormalizedStopReason
  usage : Option ModelUsage

inductive ModelGatewayError where
  | scriptExhausted
  | unexpectedRequest (expectedTurnIndex actualTurnIndex : Nat)
  | invalidTurn (message : String)
  | adapter (message : String)
  deriving DecidableEq

def validateCalls : List GatewayToolCall → List String → Except ModelGatewayError Unit
  | [], _ => .ok ()
  | call :: calls, seen =>
    if isBlank call.nativeCallId || isBlank call.name then
      .error (.invalidTurn "tool call identity and name must not be empty")
    else if call.nativeCallId ∈ seen then
      .error (.invalidTurn s!"duplicate native tool call ID {call.nativeCallId}")
    else validateCalls calls (call.nativeCallId :: seen)

def GatewayTurn.validate (turn : GatewayTurn) : Except ModelGatewayError Unit :=
  if turn.narrative.isEmpty && turn.toolCalls.isEmpty then
    .error (.invalidTurn "turn contains neither narrative nor tool calls")
  else validateCalls turn.toolCalls []

structure TurnSpec where
  id : TurnId
  episodeId : EpisodeId
  modelAttemptId : ModelAttemptId
  turnIndex : Nat
  decodedTurnDigest : Sha256Digest
  rawExchangeDigest : Sha256Digest
  nativeContinuationDigest : Sha256Digest
  stopReason : NormalizedStopReason
  toolCallCount : Nat
  usage : Option ModelUsage

structure TurnRecord where
  schemaVersion : Nat
  spec : TurnSpec

inductive TurnRecordError where
  | zeroTurnIndex

def TurnRecord.new (spec : TurnSpec) : Except TurnRecordError TurnRecord :=
  if spec.turnIndex = 0 then .error .zeroTurnIndex else .ok ⟨1, spec⟩

def TurnRecord.id (record : TurnRecord) : TurnId := record.spec.id

def TurnRecord.nativeContinuationDigest (record : TurnRecord) : Sha256Digest :=
  record.spec.nativeContinuationDigest

inductive ToolEffectClass where
  | readOnly
  | candidateWrite
  | remoteExecution
  | authorityRequest

inductive ToolResultAuthority where
  | narrative
  | reported
  | observed
  | verifiedReference
  deriving DecidableEq

inductive ToolOperationStatus where
  | requested
  | awaitingPermission
  | authorized
  | dispatching
  | running
  | ambiguous
  | reconciling
  | rejectedAsInvalid
  | denied
  | succeeded
  | candidateFailed
  | infraFailed
  | timedOut
  | cancelled
  deriving DecidableEq, Repr

def ToolOperationStatus.canTransitionTo (status next : ToolOperationStatus) : Bool :=
  match status with
  | .requested => (next matches .awaitingPermission | .authorized | .rejectedAsInvalid)
  | .awaitingPermission => (next matches .authorized | .denied)
  | .authorized => (next matches .dispatching | .cancelled)
  | .dispatching =>
    (next matches .running | .ambiguous | .succeeded | .candidateFailed | .infraFailed | .timedOut | .cancelled)
  | .running =>
    (next matches .ambiguous | .succeeded | .candidateFailed | .infraFailed | .timedOut | .cancelled)
  | .ambiguous => (next matches .reconciling)
  | .reconciling =>
    (next matches .running | .succeeded | .candidateFailed | .infraFailed | .timedOut | .cancelled)
  | .rejectedAsInvalid | .denied | .succeeded | .candidateFailed | .infraFailed | .timedOut | .cancelled => false

def ToolOperationStatus.isTerminal : ToolOperationStatus → Bool
  | .rejectedAsInvalid | .denied | .succeeded | .candidateFailed | .infraFailed | .timedOut | .cancelled => true
  | _ => false

def ToolOperationStatus.debug : ToolOperationStatus → String
  | .requested => "Requested"
  | .awaitingPermission => "AwaitingPermission"
  | .authorized => "Authorized"
  | .dispatching => "Dispatching"
  | .running => "Running"
  | .ambiguous => "Ambiguous"
  | .reconciling => "Reconciling"
  | .rejectedAsInvalid => "RejectedAsInvalid"
  | .denied => "Denied"
  | .succeeded => "Succeeded"
  | .candidateFailed => "CandidateFailed"
  | .infraFailed => "InfraFailed"
  | .timedOut => "TimedOut"
  | .cancelled => "Cancelled"

structure ToolOperationSpec where
  id : ToolOperationId
  episodeId : EpisodeId
  turnId : TurnId
  nativeCallId : String
  toolName : String
  toolVersion : String
  effectClass : ToolEffectClass
  resultAuthority : ToolResultAuthority
  argumentsDigest : Sha256Digest
  inputIdentityDigest : Sha256Digest

structure ToolOperationRecord where
  schemaVersion : Nat
  spec : ToolOperationSpec
  status : ToolOperationStatus
  resultDigest : Option Sha256Digest
  receiptDigests : List Sha256Digest

namespace ToolOperationRecord

def id (record : ToolOperationRecord) : ToolOperationId := record.spec.id

def turnId (record : ToolOperationRecord) : TurnId := record.spec.turnId

def resultAuthority (record : ToolOperationRecord) : ToolResultAuthority := record.spec.resultAuthority

def new (spec : ToolOperationSpec) : Except AgentRecordError ToolOperationRecord := do
  requireText "native tool call ID" spec.nativeCallId
  requireText "tool name" spec.toolName
  requireText "tool version" spec.toolVersion
  return ⟨1, spec, .requested, none, []⟩

def transition (record : ToolOperationRecord) (next : ToolOperationStatus) :
    Except AgentRecordError ToolOperationRecord :=
  if next.isTerminal then .error .terminalResultRequired
  else if record.status.canTransitionTo next then .ok { record with status := next }
  else .error (.invalidTransition "tool operation" record.status.debug next.debug)

def finish (record : ToolOperationRecord) (terminal : ToolOperationStatus) (resultDigest : Sha256Digest)
    (receiptDigests : List Sha256Digest) : Except AgentRecordError ToolOperationRecord :=
  if !terminal.isTerminal || !record.status.canTransitionTo terminal then
    .error (.invalidTransition "tool operation" record.status.debug terminal.debug)
  else .ok { record with
    status := terminal, resultDigest := some resultDigest, receiptDigests := receiptDigests }

end ToolOperationRecord

theorem requireText_ok {field value : String} {u : Unit} :
    requireText field value = .ok u ↔ isBlank value = false := by
  cases h : isBlank value <;> simp [requireText, h]

variable {record record' : AgentEpisodeRecord}

theorem AgentEpisodeRecord.transition_ok {next : EpisodeStatus} : record.transition next = .ok record' ↔
      record.status.canTransitionTo next = true ∧ record' = { record with status := next } := by
  simp only [transition]
  split
  · rename_i h
    simp [h, eq_comm]
  · rename_i h
    simp [h]

theorem AgentEpisodeRecord.resume_ok : record.resume = .ok record' ↔
      (record.status = .failed ∨ record.status = .incomplete ∨ record.status = .budgetExhausted) ∧
        record' = { record with status := .readyForModel } := by
  simp only [resume]
  cases record.status <;> simp [eq_comm]

namespace ModelAttemptRecord

variable {record record' : ModelAttemptRecord} {terminal : ModelAttemptStatus}
variable {diagnosticDigest : Option Sha256Digest}

theorem new_ok {spec : ModelAttemptSpec} : new spec = .ok record ↔
      spec.attemptNumber ≠ 0 ∧ record = ⟨1, spec, .prepared, none, none, none, none, none⟩ := by
  simp only [new]
  split
  · rename_i h
    simp [h]
  · rename_i h
    simp [h, eq_comm]

theorem requireStatus_ok {expected : ModelAttemptStatus} {u : Unit} :
    record.requireStatus expected = .ok u ↔ record.status = expected := by
  by_cases h : record.status = expected <;> simp [requireStatus, h]

theorem markDispatching_ok : record.markDispatching = .ok record' ↔
      record.status = .prepared ∧ record' = { record with status := .dispatching } := by
  simp [markDispatching, Effect.bind_eq_ok, requireStatus_ok, pure, Except.pure, @eq_comm _ _ record']

theorem recordResponse_ok {responseDigest : Sha256Digest} {usage : Option ModelUsage} :
    record.recordResponse responseDigest none usage = .ok record' ↔ record.status = .dispatching ∧
      record' = { record with
        responseDigest := some responseDigest, actualModel := none, usage := usage, status := .responded } := by
  simp [recordResponse, Effect.bind_eq_ok, requireStatus_ok, pure, Except.pure, @eq_comm _ _ record']

theorem markDecoded_ok {continuationDigest : Sha256Digest} :
    record.markDecoded continuationDigest = .ok record' ↔ record.status = .responded ∧
      record' = { record with continuationDigest := some continuationDigest, status := .decoded } := by
  simp [markDecoded, Effect.bind_eq_ok, requireStatus_ok, pure, Except.pure, @eq_comm _ _ record']

theorem markResponded_ok : markResponded terminal record diagnosticDigest = .ok record' ↔ record.status = .responded ∧
      record' = { record with diagnosticDigest := diagnosticDigest, status := terminal } := by
  simp [markResponded, Effect.bind_eq_ok, requireStatus_ok, pure, Except.pure, @eq_comm _ _ record']

def endsWithoutResponse (terminal : ModelAttemptStatus) : Bool :=
  terminal matches .confirmedNotSent | .failed | .ambiguous | .cancelledAmbiguous

theorem finishWithoutResponse_ok : record.finishWithoutResponse terminal diagnosticDigest = .ok record' ↔
      record.status = .dispatching ∧ endsWithoutResponse terminal = true ∧
        record' = { record with diagnosticDigest := diagnosticDigest, status := terminal } := by
  cases terminal <;>
    simp [finishWithoutResponse, endsWithoutResponse, Effect.bind_eq_ok, requireStatus_ok, pure, Except.pure,
      throw, throwThe, MonadExceptOf.throw, @eq_comm _ _ record']

end ModelAttemptRecord

theorem TurnRecord.new_ok {spec : TurnSpec} {record : TurnRecord} :
    TurnRecord.new spec = .ok record ↔ spec.turnIndex ≠ 0 ∧ record = ⟨1, spec⟩ := by
  simp only [TurnRecord.new]
  split
  · rename_i h
    simp [h]
  · rename_i h
    simp [h, eq_comm]

namespace ToolOperationRecord

variable {record record' : ToolOperationRecord}

theorem new_ok {spec : ToolOperationSpec} :
    new spec = .ok record ↔ (isBlank spec.nativeCallId = false ∧ isBlank spec.toolName = false ∧
      isBlank spec.toolVersion = false) ∧ record = ⟨1, spec, .requested, none, []⟩ := by
  simp [new, Effect.bind_eq_ok, requireText_ok, pure, Except.pure, @eq_comm _ _ record, and_assoc]

theorem transition_ok {next : ToolOperationStatus} :
    record.transition next = .ok record' ↔ next.isTerminal = false ∧ record.status.canTransitionTo next = true ∧
      record' = { record with status := next } := by
  simp only [transition]
  split
  · rename_i h
    simp [h]
  · rename_i h
    split
    · rename_i h'
      simp [h, h', eq_comm]
    · rename_i h'
      simp [h']

theorem finish_ok {terminal : ToolOperationStatus}
    {resultDigest : Sha256Digest} {receiptDigests : List Sha256Digest} :
    record.finish terminal resultDigest receiptDigests = .ok record' ↔
      terminal.isTerminal = true ∧ record.status.canTransitionTo terminal = true ∧
        record' = { record with
          status := terminal, resultDigest := some resultDigest, receiptDigests := receiptDigests } := by
  simp only [finish]
  split
  · rename_i h
    simp only [Bool.or_eq_true, Bool.not_eq_true'] at h
    rcases h with h | h <;> simp [h]
  · rename_i h
    simp only [Bool.or_eq_true, Bool.not_eq_true', not_or, Bool.not_eq_false] at h
    simp [h, eq_comm]

end ToolOperationRecord

structure EpisodeAllowance where
  maxModelTurns : Nat
  maxModelAttempts : Nat
  maxTotalToolOperations : Nat

structure AgentLoopPolicy where
  maxModelTurns : Nat
  maxModelAttempts : Nat
  maxAmbiguousModelAttempts : Nat
  maxToolCallsPerTurn : Nat
  maxTotalToolOperations : Nat
  maxStopFeedbackTurns : Nat

structure AllowanceGrant where
  resumedFrom : EpisodeStatus
  previous : EpisodeAllowance
  granted : EpisodeAllowance

structure RuntimeToolDescriptor where
  name : String
  version : String
  effectClass : ToolEffectClass
  resultAuthority : ToolResultAuthority

structure ToolInvocation where
  operationId : ToolOperationId
  call : GatewayToolCall
  inputIdentityDigest : Sha256Digest

inductive ToolGatewayOutcome where
  | completed (status : ToolOperationStatus) (resultDigest : Sha256Digest) (receiptDigests : List Sha256Digest)
      (satisfiesSubtask : Bool)
  | pending (diagnosticDigest : Sha256Digest)
  | ambiguous (diagnosticDigest : Sha256Digest)

structure ToolInputRejection where
  resultDigest : Sha256Digest
  diagnostic : String

inductive ToolGatewayError where
  | scriptExhausted
  | unexpectedRequest
  | citation (message : String)
  | adapter (message : String)

structure ModelTurnRequest where
  attemptId : ModelAttemptId
  episodeId : EpisodeId
  turnIndex : Nat
  inputDigest : Sha256Digest

structure GatewayTurnExchange where
  turn : GatewayTurn
  rawExchangeDigest : Sha256Digest
  nativeContinuationDigest : Sha256Digest

inductive ModelTransportRetryHint where
  | never
  | newAttempt
  | afterMillis (millis : Nat)
  deriving DecidableEq

inductive ModelGatewayOutcome where
  | turn (exchange : GatewayTurnExchange)
  | confirmedNotSent (diagnostic : String) (diagnosticDigest : Option Sha256Digest) (retry : ModelTransportRetryHint)
  | rejected (responseDigest : Sha256Digest) (diagnostic : String) (diagnosticDigest : Option Sha256Digest)
      (retry : ModelTransportRetryHint)
  | decodeFailed (responseDigest : Sha256Digest) (diagnostic : String) (diagnosticDigest : Option Sha256Digest)
  | ambiguous (diagnostic : String) (diagnosticDigest : Option Sha256Digest) (retry : ModelTransportRetryHint)

inductive AgentRuntimeFaultPoint where
  | afterModelDispatchCommit
  | afterModelOutcomeBeforeCommit
  | afterTurnCommit
  | afterToolDispatchCommit
  | afterToolOutcomeBeforeCommit
  | afterToolResultCommit
  deriving DecidableEq

inductive EpisodeRepositoryError where
  | alreadyExists (id : EpisodeId)
  | notFound (id : EpisodeId)
  | conflict (expected actual : Nat)
  | revisionExhausted
  | adapter (detail : String)

inductive AgentLoopRuntimeError where
  | invalidPolicy
  | counterExhausted
  | missingModelAttempt
  | missingTurn
  | derivedIdentity
  | invalidDurableState (message : String)
  | invalidToolOutcome
  | untrustedCompletion
  | injectedCrash (point : AgentRuntimeFaultPoint)
  | repository (error : EpisodeRepositoryError)
  | agentRecord (error : AgentRecordError)
  | modelAttempt (error : ModelAttemptError)
  | turnRecord (error : TurnRecordError)
  | modelGateway (error : ModelGatewayError)
  | toolGateway (error : ToolGatewayError)

namespace AgentLoopPolicy

def allowance (policy : AgentLoopPolicy) : EpisodeAllowance :=
  ⟨policy.maxModelTurns, policy.maxModelAttempts, policy.maxTotalToolOperations⟩

def withAllowance (policy : AgentLoopPolicy) (allowance : EpisodeAllowance) : AgentLoopPolicy :=
  { policy with
    maxModelTurns := allowance.maxModelTurns
    maxModelAttempts := allowance.maxModelAttempts
    maxTotalToolOperations := allowance.maxTotalToolOperations }

def validate (policy : AgentLoopPolicy) : Except AgentLoopRuntimeError Unit :=
  if policy.maxModelTurns = 0 ∨ policy.maxModelAttempts = 0 ∨ policy.maxToolCallsPerTurn = 0 ∨
      policy.maxTotalToolOperations = 0 ∨ policy.maxModelAttempts < policy.maxModelTurns then
    .error .invalidPolicy
  else .ok ()

end AgentLoopPolicy

structure DurableTurn where
  record : TurnRecord
  semanticTurn : GatewayTurn

structure DurableToolOperation where
  record : ToolOperationRecord
  call : GatewayToolCall

structure AgentLoopRuntimeSpec where
  episode : AgentEpisodeRecord
  policy : AgentLoopPolicy
  initialInputDigest : Sha256Digest
  resolvedModelDigest : Sha256Digest
  deploymentDigest : Sha256Digest
  modelProfileDigest : Sha256Digest
  requestBudgetDigest : Sha256Digest

structure DurableEpisodeState where
  schemaVersion : Nat
  episode : AgentEpisodeRecord
  policy : AgentLoopPolicy
  initialInputDigest : Sha256Digest
  nextInputDigest : Sha256Digest
  resolvedModelDigest : Sha256Digest
  deploymentDigest : Sha256Digest
  modelProfileDigest : Sha256Digest
  requestBudgetDigest : Sha256Digest
  attempts : List ModelAttemptRecord
  turns : List DurableTurn
  toolOperations : List DurableToolOperation
  ambiguousModelAttempts : Nat
  stopFeedbackTurns : Nat
  subtaskSatisfied : Bool
  cancellationRequested : Bool
  grants : List AllowanceGrant

def durableEpisodeStateSchemaV2 : Nat := 2

namespace DurableEpisodeState

def new (spec : AgentLoopRuntimeSpec) : Except AgentLoopRuntimeError DurableEpisodeState := do
  spec.policy.validate
  return {
    schemaVersion := durableEpisodeStateSchemaV2
    episode := spec.episode
    policy := spec.policy
    initialInputDigest := spec.initialInputDigest
    nextInputDigest := spec.initialInputDigest
    resolvedModelDigest := spec.resolvedModelDigest
    deploymentDigest := spec.deploymentDigest
    modelProfileDigest := spec.modelProfileDigest
    requestBudgetDigest := spec.requestBudgetDigest
    attempts := []
    turns := []
    toolOperations := []
    ambiguousModelAttempts := 0
    stopFeedbackTurns := 0
    subtaskSatisfied := false
    cancellationRequested := false
    grants := [] }

def episodeId (state : DurableEpisodeState) : EpisodeId := state.episode.id

def status (state : DurableEpisodeState) : EpisodeStatus := state.episode.status

def validateTurns : List DurableTurn → Except AgentLoopRuntimeError Unit
  | [] => .ok ()
  | turn :: turns => do
    turn.semanticTurn.validate.mapError .modelGateway
    validateTurns turns

def validateRecovered (state : DurableEpisodeState) : Except AgentLoopRuntimeError Unit := do
  if state.schemaVersion ≠ durableEpisodeStateSchemaV2 then
    throw (.invalidDurableState "unsupported durable episode schema")
  state.policy.validate
  if state.turns.length > state.attempts.length then
    throw (.invalidDurableState "episode has more turns than model attempts")
  validateTurns state.turns

end DurableEpisodeState

variable [Sha256]

def digestLabel (label : String) : Sha256Digest := Sha256.digestBytes (utf8 label)

def pushLen (length : Nat) : List UInt8 :=
  let value := if length < 2 ^ 64 then length else 2 ^ 64 - 1
  (List.range 8).reverse.map fun i => UInt8.ofNat (value / 256 ^ i)

def digestSemanticTurn (turn : GatewayTurn) : Sha256Digest :=
  let text (t : String) := pushLen (utf8 t).length ++ utf8 t
  Sha256.digestBytes (utf8 "alloyport-semantic-turn-v1" ++ turn.narrative.flatMap text ++
    turn.toolCalls.flatMap (fun call => text call.nativeCallId ++ text call.name ++
      (pushLen call.rawArguments.length ++ call.rawArguments)) ++ utf8 turn.stopReason.debug)

def derivedId {kind : IdKind} (text : String) : Except AgentLoopRuntimeError (ValidatedId kind) :=
  match ValidatedId.tryFrom text with
  | some id => .ok id
  | none => .error .derivedIdentity

def derivedModelAttemptId (episodeId : EpisodeId) (attemptNumber : Nat) :
    Except AgentLoopRuntimeError ModelAttemptId :=
  derivedId s!"model-attempt-{episodeId}-{attemptNumber}"

def derivedTurnId (episodeId : EpisodeId) (turnIndex : Nat) : Except AgentLoopRuntimeError TurnId :=
  derivedId s!"turn-{episodeId}-{turnIndex}"

def toolOperationIdentity (episodeId : EpisodeId) (turnId : TurnId) (callIndex : Nat)
    (descriptor : RuntimeToolDescriptor) (argumentsDigest inputIdentityDigest : Sha256Digest) : String :=
  s!"{episodeId}|{turnId}|{callIndex}|{descriptor.name}|{descriptor.version}|{argumentsDigest}|{inputIdentityDigest}"

def derivedToolOperationId (episodeId : EpisodeId) (turnId : TurnId) (callIndex : Nat)
    (descriptor : RuntimeToolDescriptor) (argumentsDigest inputIdentityDigest : Sha256Digest) :
    Except AgentLoopRuntimeError ToolOperationId :=
  let identity := toolOperationIdentity episodeId turnId callIndex descriptor argumentsDigest inputIdentityDigest
  let digest := Sha256.digestBytes (utf8 identity)
  derivedId s!"tool-{callIndex + 1}-{digest}"

def deriveModelContinuationInputDigest (continuation : Sha256Digest) (results : List Sha256Digest) : Sha256Digest :=
  Sha256.digestBytes (utf8 "alloyport-model-continuation-input-v1" ++ continuation.bytes ++
    results.flatMap Sha256Digest.bytes)

end AlloyPort
