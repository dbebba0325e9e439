import AlloyPort.Episode.Record

/-! The durable context of a provider conversation: the first input, the native continuation of the
last committed turn, its pending tool results and every committed exchange. Artifacts are a
content-addressed map; the JSON text of a continuation and of the tools is a parameter. -/

namespace AlloyPort

structure CodecLimits where
  maxResponseBytes : Nat
  maxRequestBytes : Nat
  maxContinuationBytes : Nat
  maxToolArgumentBytes : Nat
  maxToolResultBytes : Nat
  maxNarrativeBytes : Nat
  maxToolCalls : Nat

inductive CodecError where
  | invalidLimits
  | invalidJson
  | unsupportedContinuationSchema (version : Nat)
  | emptyCallId
  | duplicateCallId (id : String)
  | limitExceeded (field : String) (actual maximum : Nat)
  deriving DecidableEq

def CodecError.display : CodecError → String
  | .invalidLimits => "codec limits must all be positive"
  | .invalidJson => "provider response is not valid JSON"
  | .unsupportedContinuationSchema version => s!"unsupported native continuation schema {version}"
  | .emptyCallId => "native tool call ID must not be empty"
  | .duplicateCallId id => s!"duplicate native tool call ID {id}"
  | .limitExceeded field actual maximum => s!"{field} uses {actual} bytes/items; maximum is {maximum}"

def CodecLimits.validate (limits : CodecLimits) : Except CodecError Unit :=
  if limits.maxResponseBytes = 0 ∨ limits.maxRequestBytes = 0 ∨ limits.maxContinuationBytes = 0 ∨
      limits.maxToolArgumentBytes = 0 ∨ limits.maxToolResultBytes = 0 ∨ limits.maxNarrativeBytes = 0 ∨
      limits.maxToolCalls = 0 then
    .error .invalidLimits
  else .ok ()

inductive ProtocolKind where
  | openAiResponses
  | openAiChatCompletions
  | anthropicMessages
  deriving DecidableEq

structure NativeContinuation where
  schemaVersion : Nat
  protocol : ProtocolKind
  nativeHistory : String
  pendingCallIds : List String
  deriving DecidableEq

structure CodecToolDefinition where
  name : String
  description : String
  inputSchema : String
  strict : Bool
  deriving DecidableEq

/-- The JSON library the code links against. -/
class JsonText where
  canonicalBytes : NativeContinuation → List UInt8
  parseContinuation : List UInt8 → Option NativeContinuation
  toolsJson : List CodecToolDefinition → List UInt8

/-- The loop of `from_canonical_bytes` over the pending calls, with the identities seen so far. -/
def validatePendingCallIds : List String → List String → Except CodecError Unit
  | [], _ => .ok ()
  | id :: ids, seen =>
    if isBlank id then .error .emptyCallId
    else if id ∈ seen then .error (.duplicateCallId id)
    else validatePendingCallIds ids (id :: seen)

def NativeContinuation.fromCanonicalBytes [JsonText] (bytes : List UInt8) (limits : CodecLimits) :
    Except CodecError NativeContinuation := do
  limits.validate
  if bytes.length > limits.maxContinuationBytes then
    throw (.limitExceeded "native continuation" bytes.length limits.maxContinuationBytes)
  match JsonText.parseContinuation bytes with
  | none => throw .invalidJson
  | some continuation =>
    if continuation.schemaVersion ≠ 1 then
      throw (.unsupportedContinuationSchema continuation.schemaVersion)
    validatePendingCallIds continuation.pendingCallIds []
    return continuation

structure OwnedToolResult where
  nativeCallId : String
  output : String
  deriving DecidableEq

structure ProviderTurnInput where
  systemPrompt : String
  initialUserText : Option String
  continuation : Option NativeContinuation
  toolResults : List OwnedToolResult
  tools : List CodecToolDefinition
  deriving DecidableEq

structure ProviderTurnExchange where
  gatewayExchange : GatewayTurnExchange
  requestBody : List UInt8
  responseBody : List UInt8
  nativeContinuation : NativeContinuation
  providerRequestId : Option String
  actualModel : Option String

structure ModelEpisodeContext where
  systemPrompt : String
  initialUserText : String
  tools : List CodecToolDefinition
  initialInputDigest : Sha256Digest
  latestInputDigest : Sha256Digest
  continuationDigest : Option Sha256Digest

structure PendingToolResult where
  nativeCallId : String
  resultDigest : Option Sha256Digest

structure ModelExchangeIdentity where
  episodeId : EpisodeId
  turnIndex : Nat
  inputDigest : Sha256Digest
  requestDigest : Sha256Digest
  responseDigest : Sha256Digest
  continuationDigest : Sha256Digest
  providerRequestId : Option String
  actualModel : Option String
  deriving DecidableEq

structure ModelContextStore where
  contexts : EpisodeId → Option ModelEpisodeContext
  pending : EpisodeId → List PendingToolResult
  exchanges : List (ModelAttemptId × ModelExchangeIdentity)
  artifacts : Sha256Digest → Option (List UInt8)
  limits : CodecLimits

variable [Sha256] [JsonText]

def pendingResultDigests (rows : List PendingToolResult) : List Sha256Digest :=
  if rows.any fun row => row.resultDigest.isNone then [] else rows.filterMap (·.resultDigest)

def initialDigest (systemPrompt userText : String) (tools : List CodecToolDefinition) : Sha256Digest :=
  Sha256.digestBytes (utf8 "alloyport-initial-model-input-v1" ++ [0] ++ utf8 systemPrompt ++ [0] ++
    utf8 userText ++ [0] ++ JsonText.toolsJson tools)

def String.fromUtf8 (bytes : List UInt8) : Except String String :=
  match String.fromUTF8? ⟨bytes.toArray⟩ with
  | some text => .ok text
  | none => .error "invalid utf-8 sequence"

namespace ModelContextStore

/-- `ArtifactStore::open`, which verifies what it reads. -/
def openArtifact (store : ModelContextStore) (digest : Sha256Digest) : Except String (List UInt8) :=
  match store.artifacts digest with
  | none => .error "open in-memory Artifact: Artifact is not present"
  | some bytes =>
    if Sha256.digestBytes bytes ≠ digest then
      .error s!"artifact {digest} failed integrity verification: stored bytes do not match their content digest"
    else .ok bytes

def openBytes (store : ModelContextStore) (digest : Sha256Digest) (limit : Nat) : Except String (List UInt8) := do
  let bytes ← store.openArtifact digest
  if bytes.length > limit then throw s!"Artifact {digest} exceeds context bound {limit}"
  if Sha256.digestBytes bytes ≠ digest then throw s!"Artifact {digest} failed context verification"
  return bytes

def openText (store : ModelContextStore) (digest : Sha256Digest) : Except String String := do
  let bytes ← store.openBytes digest store.limits.maxToolResultBytes
  String.fromUtf8 bytes

def ingest (store : ModelContextStore) (bytes : List UInt8) : ModelContextStore :=
  match store.artifacts (Sha256.digestBytes bytes) with
  | some _ => store
  | none => { store with artifacts := Function.update store.artifacts (Sha256.digestBytes bytes) (some bytes) }

def createEpisode (store : ModelContextStore) (episodeId : EpisodeId) (systemPrompt initialUserText : String)
    (tools : List CodecToolDefinition) : ModelContextStore × Except String Sha256Digest :=
  if isBlank systemPrompt || isBlank initialUserText then
    (store, .error "model context prompts must not be empty")
  else
    let digest := initialDigest systemPrompt initialUserText tools
    match store.contexts episodeId with
    | none =>
      let context : ModelEpisodeContext := ⟨systemPrompt, initialUserText, tools, digest, digest, none⟩
      ({ store with contexts := Function.update store.contexts episodeId (some context) }, .ok digest)
    | some existing =>
      if (existing.systemPrompt, existing.initialUserText, existing.tools, existing.initialInputDigest) ≠
          (systemPrompt, initialUserText, tools, digest) then
        (store, .error s!"model context conflicts for {episodeId}")
      else (store, .ok digest)

/-- The second half of `load`, for a conversation that has a continuation. -/
def loadContinuation (store : ModelContextStore) (request : ModelTurnRequest) (context : ModelEpisodeContext)
    (continuationDigest : Sha256Digest) : Except String ProviderTurnInput := do
  let bytes ← store.openBytes continuationDigest store.limits.maxContinuationBytes
  let continuation ← (NativeContinuation.fromCanonicalBytes bytes store.limits).mapError CodecError.display
  let pending := store.pending request.episodeId
  if pending.length ≠ continuation.pendingCallIds.length ∨
      ((pending.zip continuation.pendingCallIds).any fun (row, expected) =>
        row.nativeCallId ≠ expected ∨ row.resultDigest = none) = true then
    throw "provider continuation has incomplete or mismatched tool results"
  let toolResults ← pending.mapM fun row => do
    let output ← store.openText (row.resultDigest.getD ⟨[]⟩)
    return (⟨row.nativeCallId, output⟩ : OwnedToolResult)
  if deriveModelContinuationInputDigest continuationDigest (pendingResultDigests pending) ≠ request.inputDigest then
    throw "model continuation input digest does not bind its results"
  return ⟨context.systemPrompt, none, some continuation, toolResults, context.tools⟩

def load (store : ModelContextStore) (request : ModelTurnRequest) : Except String ProviderTurnInput :=
  match store.contexts request.episodeId with
  | none => .error s!"model context is absent for {request.episodeId}"
  | some context =>
    if request.inputDigest ≠ context.latestInputDigest then
      .error "model request input identity does not match durable context"
    else match context.continuationDigest with
      | none =>
        if request.inputDigest ≠ context.initialInputDigest then .error "initial model context identity changed"
        else .ok ⟨context.systemPrompt, some context.initialUserText, none, [], context.tools⟩
      | some continuationDigest => store.loadContinuation request context continuationDigest

/-- The transaction of `commit` once the exchange is known to be new. -/
def insertExchange (store : ModelContextStore) (request : ModelTurnRequest) (exchange : ProviderTurnExchange)
    (identity : ModelExchangeIdentity) : ModelContextStore × Except String Unit :=
  match store.contexts request.episodeId with
  | none => (store, .error "model exchange does not match current durable input")
  | some context =>
    if context.latestInputDigest ≠ request.inputDigest then
      (store, .error "model exchange does not match current durable input")
    else if request.turnIndex = 0 then (store, .error "CHECK constraint failed: turn_index > 0")
    else if (store.exchanges.any fun row =>
        row.2.episodeId = request.episodeId ∧ row.2.turnIndex = request.turnIndex) = true then
      (store, .error
        "UNIQUE constraint failed: model_turn_exchanges.episode_id, model_turn_exchanges.turn_index")
    else if ¬ exchange.nativeContinuation.pendingCallIds.Nodup then
      (store, .error
        "UNIQUE constraint failed: model_pending_tool_results.episode_id, model_pending_tool_results.native_call_id")
    else ({ store with
      exchanges := store.exchanges ++ [(request.attemptId, identity)]
      pending := Function.update store.pending request.episodeId
        (exchange.nativeContinuation.pendingCallIds.map fun id => ⟨id, none⟩)
      contexts := Function.update store.contexts request.episodeId
        (some { context with continuationDigest := some identity.continuationDigest }) }, .ok ())

def commit (store : ModelContextStore) (request : ModelTurnRequest) (exchange : ProviderTurnExchange) :
    ModelContextStore × Except String Unit :=
  let continuationBytes := JsonText.canonicalBytes exchange.nativeContinuation
  let continuationDigest := Sha256.digestBytes continuationBytes
  let store := store.ingest continuationBytes
  if continuationDigest ≠ exchange.gatewayExchange.nativeContinuationDigest then
    (store, .error "provider continuation identity changed before commit")
  else
    let requestDigest := Sha256.digestBytes exchange.requestBody
    let responseDigest := Sha256.digestBytes exchange.responseBody
    let store := (store.ingest exchange.requestBody).ingest exchange.responseBody
    if responseDigest ≠ exchange.gatewayExchange.rawExchangeDigest then
      (store, .error "provider response identity changed before commit")
    else
      let expected : ModelExchangeIdentity := ⟨request.episodeId, request.turnIndex, request.inputDigest,
        requestDigest, responseDigest, continuationDigest, exchange.providerRequestId, exchange.actualModel⟩
      match store.exchanges.find? fun row => row.1 = request.attemptId with
      | some existing =>
        if existing.2 = expected then (store, .ok ())
        else (store, .error "model attempt exchange conflicts with its committed bytes")
      | none => store.insertExchange request exchange expected

/-- The update of one pending row, which advances the latest input once all rows have a result. -/
def bindResult (store : ModelContextStore) (episodeId : EpisodeId) (nativeCallId : String)
    (resultDigest : Sha256Digest) : ModelContextStore × Except String Unit :=
  let rows := (store.pending episodeId).map fun row =>
    if row.nativeCallId = nativeCallId then { row with resultDigest := some resultDigest } else row
  match store.contexts episodeId with
  | none => (store, .error "Query returned no rows")
  | some context => match context.continuationDigest with
    | none => (store, .error "Invalid column type Null at index: 0, name: continuation_digest")
    | some continuation =>
      let digests := pendingResultDigests rows
      let latest := if digests = [] then context.latestInputDigest
        else deriveModelContinuationInputDigest continuation digests
      ({ store with
        pending := Function.update store.pending episodeId rows
        contexts := Function.update store.contexts episodeId
          (some { context with latestInputDigest := latest }) }, .ok ())

def recordToolResult (store : ModelContextStore) (episodeId : EpisodeId) (nativeCallId : String)
    (resultDigest : Sha256Digest) : ModelContextStore × Except String Unit :=
  match store.openText resultDigest with
  | .error error => (store, .error error)
  | .ok _ => match (store.pending episodeId).find? fun row => row.nativeCallId = nativeCallId with
    | none => (store, .error "tool result does not belong to the pending continuation")
    | some row => match row.resultDigest with
      | some existing =>
        if existing = resultDigest then (store, .ok ())
        else (store, .error "tool result identity conflicts with the committed result")
      | none => store.bindResult episodeId nativeCallId resultDigest

end ModelContextStore

end AlloyPort
