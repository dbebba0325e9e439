import AlloyPort.Library.Coupled
import AlloyPort.Episode.Compliance
import AlloyPort.Context.Store

/-! The gateways the episode service puts around the reducer: the model gateway loads its input from
the context store and commits every turn to it, and the tool gateway records every result there. -/

namespace AlloyPort

open SharedStore

inductive ProviderSdkOutcome where
  | turn (exchange : ProviderTurnExchange)
  | confirmedNotSent (diagnostic : String) (retry : ModelTransportRetryHint)
  | rejected (responseDigest : Sha256Digest) (diagnostic : String) (retry : ModelTransportRetryHint)
  | decodeFailed (responseDigest : Sha256Digest) (diagnostic : String)
  | ambiguous (diagnostic : String) (retry : ModelTransportRetryHint)

variable [Sha256] [JsonText]

/-- What every protocol codec guarantees of a turn it decodes: the turn is valid, the continuation
waits for exactly the calls of the turn, and its bytes stay within the bound it is read under. -/
structure Decoded (limits : CodecLimits) (exchange : ProviderTurnExchange) : Prop where
  valid : exchange.gatewayExchange.turn.validate = .ok ()
  pending : exchange.nativeContinuation.pendingCallIds =
    exchange.gatewayExchange.turn.toolCalls.map GatewayToolCall.nativeCallId
  digest : exchange.gatewayExchange.nativeContinuationDigest =
    Sha256.digestBytes (JsonText.canonicalBytes exchange.nativeContinuation)
  response : exchange.gatewayExchange.rawExchangeDigest = Sha256.digestBytes exchange.responseBody
  rehydrates : NativeContinuation.fromCanonicalBytes (JsonText.canonicalBytes exchange.nativeContinuation) limits =
    .ok exchange.nativeContinuation

namespace ProviderModelGateway

def published (diagnostic : String) : Option Sha256Digest := some (Sha256.digestBytes (utf8 diagnostic))

def invoke (store : ModelContextStore) (sdk : ProviderTurnInput → ProviderSdkOutcome) (request : ModelTurnRequest) :
    ModelContextStore × Except ModelGatewayError ModelGatewayOutcome :=
  let publish (diagnostic : String) := store.ingest (utf8 diagnostic)
  match store.load request with
  | .error diagnostic =>
    (publish diagnostic, .ok (.confirmedNotSent diagnostic (published diagnostic) .never))
  | .ok input => match sdk input with
    | .turn exchange => match store.commit request exchange with
      | (store, .ok ()) => (store, .ok (.turn exchange.gatewayExchange))
      | (store, .error error) => (store, .error (.adapter error))
    | .confirmedNotSent diagnostic retry =>
      (publish diagnostic, .ok (.confirmedNotSent diagnostic (published diagnostic) retry))
    | .rejected responseDigest diagnostic retry =>
      (publish diagnostic, .ok (.rejected responseDigest diagnostic (published diagnostic) retry))
    | .decodeFailed responseDigest diagnostic =>
      (publish diagnostic, .ok (.decodeFailed responseDigest diagnostic (published diagnostic)))
    | .ambiguous diagnostic retry =>
      (publish diagnostic, .ok (.ambiguous diagnostic (published diagnostic) retry))

end ProviderModelGateway

namespace ContextRecordingToolGateway

/-- A rejection is bound to its call; when that fails the rejection stands all the same. -/
def validateCall (store : ModelContextStore) (episodeId : EpisodeId) (inner : Except ToolInputRejection Unit)
    (call : GatewayToolCall) : ModelContextStore × Except ToolInputRejection Unit :=
  match inner with
  | .ok () => (store, .ok ())
  | .error rejection =>
    ((store.recordToolResult episodeId call.nativeCallId rejection.resultDigest).1, .error rejection)

def record (store : ModelContextStore) (episodeId : EpisodeId) (request : ToolInvocation)
    (outcome : ToolGatewayOutcome) : ModelContextStore × Except ToolGatewayError ToolGatewayOutcome :=
  match outcome with
  | .completed _ resultDigest _ _ =>
    match store.recordToolResult episodeId request.call.nativeCallId resultDigest with
    | (store, .ok ()) => (store, .ok outcome)
    | (store, .error error) => (store, .error (.adapter error))
  | _ => (store, .ok outcome)

/-- Both `execute` and `reconcile`, with the inner gateway's answer. -/
def answer (store : ModelContextStore) (episodeId : EpisodeId) (inner : Except ToolGatewayError ToolGatewayOutcome)
    (request : ToolInvocation) : ModelContextStore × Except ToolGatewayError ToolGatewayOutcome :=
  match inner with
  | .error error => (store, .error error)
  | .ok outcome => record store episodeId request outcome

end ContextRecordingToolGateway

/-- What a call of the reducer for one episode does to the context store. The provider and the inner
tool gateway answer as they like; the fault injector of the service never crashes. -/
def GatewayActs (id : EpisodeId) (store : ModelContextStore) :
    (call : GatewayCall) → GatewayReply call → ModelContextStore → Prop
  | .invoke request, reply, store' => ∃ sdk, (∀ input exchange, sdk input = .turn exchange →
      Decoded store.limits exchange) ∧ ProviderModelGateway.invoke store sdk request = (store', reply)
  | .descriptor _, _, store' => store' = store
  | .validateCall call, reply, store' =>
    ∃ inner, ContextRecordingToolGateway.validateCall store id inner call = (store', reply)
  | .execute request, reply, store' =>
    ∃ inner, ContextRecordingToolGateway.answer store id inner request = (store', reply)
  | .reconcile request, reply, store' =>
    ∃ inner, ContextRecordingToolGateway.answer store id inner request = (store', reply)
  | .shouldCrash _, crash, store' => crash = false ∧ store' = store

/-- The context store beside the episode repository. Opening an episode creates its context first;
tools publish artifacts at any time, and contexts may be opened again or for episodes to come. -/
def contextSurroundings :
    Surroundings EpisodeId DurableEpisodeState GatewayCall ModelContextStore GatewayReply where
  acts := GatewayActs
  opens store s store' := ∃ systemPrompt userText tools,
    store.createEpisode s.episodeId systemPrompt userText tools = (store', .ok s.initialInputDigest)
  drifts store store' := (∃ bytes, store' = store.ingest bytes) ∨
    ∃ id systemPrompt userText tools, store' = (store.createEpisode id systemPrompt userText tools).1

/-- A context database without rows, over any artifacts that are stored under their digests. -/
structure EmptyContexts (store : ModelContextStore) : Prop where
  contexts : ∀ id, store.contexts id = none
  pending : ∀ id, store.pending id = []
  exchanges : store.exchanges = []
  addressed : ∀ digest bytes, store.artifacts digest = some bytes → Sha256.digestBytes bytes = digest

abbrev ServiceConfig := Coupled EpisodeId DurableEpisodeState GatewayCall ModelContextStore EpisodeRepositoryError
  GatewayReply AgentLoopRuntimeError (AgentLoopAdvance ⊕ EpisodeStatus)

abbrev ServiceGuard := Guard EpisodeId DurableEpisodeState GatewayCall ModelContextStore GatewayReply

abbrev ServiceRun (guard : ServiceGuard) : ServiceConfig → Prop :=
  CoupledRun (episodeEnv fun _ _ => True) contextSurroundings guard EmptyContexts

end AlloyPort

/-! What the context store shows of one episode: one exchange for every turn, the continuation of
the last turn and a pending row for each of its calls. Each operation of the store keeps this for
its own episode and leaves the others alone. -/

namespace AlloyPort

open SharedStore ModelContextStore

structure Entry where
  attemptId : ModelAttemptId
  turnIndex : Nat
  continuation : Sha256Digest
  calls : List String

def DurableTurn.entry (turn : DurableTurn) : Entry where
  attemptId := turn.record.spec.modelAttemptId
  turnIndex := turn.record.spec.turnIndex
  continuation := turn.record.nativeContinuationDigest
  calls := turn.semanticTurn.toolCalls.map GatewayToolCall.nativeCallId

def exchangeEntry (request : ModelTurnRequest) (exchange : GatewayTurnExchange) : Entry where
  attemptId := request.attemptId
  turnIndex := request.turnIndex
  continuation := exchange.nativeContinuationDigest
  calls := exchange.turn.toolCalls.map GatewayToolCall.nativeCallId

def exchangesOf (store : ModelContextStore) (id : EpisodeId) : List (ModelAttemptId × Nat × Sha256Digest) :=
  (store.exchanges.filter fun row => row.2.episodeId = id).map
    fun row => (row.1, row.2.turnIndex, row.2.continuationDigest)

def Binds (store : ModelContextStore) (id : EpisodeId) (nativeCallId : String) (digest : Sha256Digest) : Prop :=
  ∃ row ∈ store.pending id, row.nativeCallId = nativeCallId ∧ row.resultDigest = some digest

variable [Sha256]

/-- What holds of the whole store: artifacts stand under their digests, and an exchange carries an
attempt identity of its own episode. -/
structure Coherent (store : ModelContextStore) : Prop where
  addressed : ∀ digest bytes, store.artifacts digest = some bytes → Sha256.digestBytes bytes = digest
  owned : ∀ row ∈ store.exchanges, ∃ n, derivedModelAttemptId row.2.episodeId n = .ok row.1

structure Unchanged (id : EpisodeId) (store store' : ModelContextStore) : Prop where
  contexts : store'.contexts id = store.contexts id
  pending : store'.pending id = store.pending id
  exchanges : exchangesOf store' id = exchangesOf store id
  limits : store'.limits = store.limits
  artifacts : ∀ digest bytes, store.artifacts digest = some bytes → store'.artifacts digest = some bytes

variable {id : EpisodeId} {store store' store'' : ModelContextStore} {initial : Sha256Digest} {digest : Sha256Digest}
  {bytes : List UInt8}

omit [Sha256] in
theorem Unchanged.rfl' : Unchanged id store store :=
  ⟨rfl, rfl, rfl, rfl, fun _ _ h => h⟩

omit [Sha256] in
theorem Unchanged.trans (h : Unchanged id store store') (h' : Unchanged id store' store'') :
    Unchanged id store store'' :=
  ⟨h'.contexts.trans h.contexts, h'.pending.trans h.pending, h'.exchanges.trans h.exchanges,
    h'.limits.trans h.limits, fun d b hb => h'.artifacts d b (h.artifacts d b hb)⟩

theorem openArtifact_mono
    (ha : ∀ digest bytes, store.artifacts digest = some bytes → store'.artifacts digest = some bytes)
    (h : store.openArtifact digest = .ok bytes) : store'.openArtifact digest = .ok bytes := by
  simp only [openArtifact] at h ⊢
  split at h
  · cases h
  · rename_i found hfound
    rw [ha _ _ hfound]
    exact h

theorem openBytes_mono {limit : Nat}
    (ha : ∀ digest bytes, store.artifacts digest = some bytes → store'.artifacts digest = some bytes)
    (h : store.openBytes digest limit = .ok bytes) : store'.openBytes digest limit = .ok bytes := by
  simp only [openBytes, Effect.bind_eq_ok] at h ⊢
  obtain ⟨found, hfound, hrest⟩ := h
  exact ⟨found, openArtifact_mono ha hfound, hrest⟩

theorem openText_mono {text : String}
    (ha : ∀ digest bytes, store.artifacts digest = some bytes → store'.artifacts digest = some bytes)
    (hl : store'.limits = store.limits) (h : store.openText digest = .ok text) :
    store'.openText digest = .ok text := by
  simp only [openText, Effect.bind_eq_ok] at h ⊢
  obtain ⟨bytes, hbytes, hrest⟩ := h
  exact ⟨bytes, hl ▸ openBytes_mono ha hbytes, hrest⟩

variable [JsonText]

/-- The continuation of a turn can be read back, and waits for the calls of the turn. -/
def Rehydrates (store : ModelContextStore) (entry : Entry) : Prop :=
  ∃ bytes continuation, store.openBytes entry.continuation store.limits.maxContinuationBytes = .ok bytes ∧
    NativeContinuation.fromCanonicalBytes bytes store.limits = .ok continuation ∧
    continuation.pendingCallIds = entry.calls

/-- The context row agrees with the last turn, and its latest input binds the results once all of
them are there. -/
structure ContextShows (store : ModelContextStore) (id : EpisodeId) (initial : Sha256Digest) (entries : List Entry)
    (context : ModelEpisodeContext) : Prop where
  row : store.contexts id = some context
  initialInput : context.initialInputDigest = initial
  continuation : context.continuationDigest = entries.getLast?.map Entry.continuation
  first : entries = [] → context.latestInputDigest = initial
  latest : ∀ entry, entries.getLast? = some entry → pendingResultDigests (store.pending id) ≠ [] →
    context.latestInputDigest =
      deriveModelContinuationInputDigest entry.continuation (pendingResultDigests (store.pending id))

structure Shows (id : EpisodeId) (store : ModelContextStore) (initial : Sha256Digest) (entries : List Entry) :
    Prop where
  exchanges : exchangesOf store id = entries.map fun entry => (entry.attemptId, entry.turnIndex, entry.continuation)
  pending : (store.pending id).map PendingToolResult.nativeCallId = (entries.getLast?.map Entry.calls).getD []
  distinct : ((store.pending id).map PendingToolResult.nativeCallId).Nodup
  readable : ∀ row ∈ store.pending id, ∀ digest, row.resultDigest = some digest →
    ∃ text, store.openText digest = .ok text
  rehydrates : ∀ entry, entries.getLast? = some entry → Rehydrates store entry
  context : ∃ context, ContextShows store id initial entries context

structure Blank (id : EpisodeId) (store : ModelContextStore) : Prop where
  exchanges : exchangesOf store id = []
  pending : store.pending id = []
  context : ∀ context, store.contexts id = some context →
    context.latestInputDigest = context.initialInputDigest ∧ context.continuationDigest = none

theorem Rehydrates.mono {entry : Entry} (h : Rehydrates store entry) (hl : store'.limits = store.limits)
    (ha : ∀ digest bytes, store.artifacts digest = some bytes → store'.artifacts digest = some bytes) :
    Rehydrates store' entry := by
  obtain ⟨bytes, continuation, hbytes, hcont, hcalls⟩ := h
  rw [Rehydrates, hl]
  exact ⟨bytes, continuation, openBytes_mono ha hbytes, hcont, hcalls⟩

theorem Shows.frame {entries : List Entry} (h : Shows id store initial entries) (hu : Unchanged id store store') :
    Shows id store' initial entries := by
  obtain ⟨context, hc⟩ := h.context
  refine ⟨hu.exchanges.trans h.exchanges, ?_, ?_, ?_, ?_, context, ?_⟩
  · rw [hu.pending]
    exact h.pending
  · rw [hu.pending]
    exact h.distinct
  · intro row hm digest hd
    rw [hu.pending] at hm
    obtain ⟨text, htext⟩ := h.readable row hm digest hd
    exact ⟨text, openText_mono hu.artifacts hu.limits htext⟩
  · exact fun entry he => (h.rehydrates entry he).mono hu.limits hu.artifacts
  · refine ⟨hu.contexts.trans hc.row, hc.initialInput, hc.continuation, hc.first, ?_⟩
    rw [hu.pending]
    exact hc.latest

omit [Sha256] [JsonText] in
theorem Binds.frame {name : String} {digest : Sha256Digest} (h : Binds store id name digest)
    (hu : Unchanged id store store') : Binds store' id name digest := by
  rw [Binds, hu.pending]
  exact h

omit [Sha256] [JsonText] in
theorem Blank.frame (h : Blank id store) (hu : Unchanged id store store') : Blank id store' := by
  refine ⟨hu.exchanges.trans h.exchanges, hu.pending.trans h.pending, ?_⟩
  rw [hu.contexts]
  exact h.context

section ingest

omit [JsonText]

variable {bytes : List UInt8}

theorem ingest_unchanged : Unchanged id store (store.ingest bytes) := by
  simp only [ingest]
  split
  · exact .rfl'
  · rename_i hnone
    refine ⟨rfl, rfl, rfl, rfl, fun digest found hfound => ?_⟩
    have hne : digest ≠ Sha256.digestBytes bytes := by
      rintro rfl
      rw [hnone] at hfound
      cases hfound
    simp only [Function.update_of_ne hne]
    exact hfound

@[simp] theorem ingest_exchanges : (store.ingest bytes).exchanges = store.exchanges := by
  simp only [ingest]
  split <;> rfl

@[simp] theorem ingest_contexts : (store.ingest bytes).contexts = store.contexts := by
  simp only [ingest]
  split <;> rfl

@[simp] theorem ingest_pending : (store.ingest bytes).pending = store.pending := by
  simp only [ingest]
  split <;> rfl

@[simp] theorem ingest_limits : (store.ingest bytes).limits = store.limits := by
  simp only [ingest]
  split <;> rfl

theorem Coherent.ingest (h : Coherent store) : Coherent (store.ingest bytes) := by
  refine ⟨fun digest found hfound => ?_, by simpa using h.owned⟩
  simp only [ModelContextStore.ingest] at hfound
  split at hfound
  · exact h.addressed digest found hfound
  · by_cases heq : digest = Sha256.digestBytes bytes
    · subst heq
      simp only [Function.update_self, Option.some.injEq] at hfound
      rw [hfound]
    · simp only [Function.update_of_ne heq] at hfound
      exact h.addressed digest found hfound

theorem ingest_artifact (hcf : Sha256.CollisionFree) (h : Coherent store) :
    (store.ingest bytes).artifacts (Sha256.digestBytes bytes) = some bytes := by
  simp only [ingest]
  split
  · rename_i found hfound
    rw [hfound, hcf (h.addressed _ _ hfound)]
  · simp

end ingest

section create

variable {episodeId : EpisodeId} {systemPrompt userText : String} {tools : List CodecToolDefinition}

theorem createEpisode_cases (store : ModelContextStore) (episodeId : EpisodeId) (systemPrompt userText : String)
    (tools : List CodecToolDefinition) :
    (store.createEpisode episodeId systemPrompt userText tools).1 = store ∨
      store.contexts episodeId = none ∧ (store.createEpisode episodeId systemPrompt userText tools).1 =
        { store with contexts := Function.update store.contexts episodeId (some ⟨systemPrompt, userText, tools,
          initialDigest systemPrompt userText tools, initialDigest systemPrompt userText tools, none⟩) } := by
  simp only [createEpisode]
  split
  · exact .inl rfl
  · split
    · rename_i hnone
      exact .inr ⟨hnone, rfl⟩
    · split <;> exact .inl rfl

theorem createEpisode_unchanged (hne : id ≠ episodeId) :
    Unchanged id store (store.createEpisode episodeId systemPrompt userText tools).1 := by
  rcases createEpisode_cases store episodeId systemPrompt userText tools with h | ⟨_, h⟩ <;> rw [h]
  · exact .rfl'
  · exact ⟨Function.update_of_ne hne _ _, rfl, rfl, rfl, fun _ _ h => h⟩

theorem Coherent.createEpisode (h : Coherent store) :
    Coherent (store.createEpisode episodeId systemPrompt userText tools).1 := by
  rcases createEpisode_cases store episodeId systemPrompt userText tools with heq | ⟨_, heq⟩ <;> rw [heq]
  · exact h
  · exact ⟨h.addressed, h.owned⟩

theorem Blank.createEpisode (h : Blank episodeId store) :
    Blank episodeId (store.createEpisode episodeId systemPrompt userText tools).1 := by
  rcases createEpisode_cases store episodeId systemPrompt userText tools with heq | ⟨_, heq⟩ <;> rw [heq]
  · exact h
  · refine ⟨h.exchanges, h.pending, fun context hc => ?_⟩
    simp only [Function.update_self, Option.some.injEq] at hc
    rw [← hc]
    exact ⟨rfl, rfl⟩

theorem Shows.createEpisode {entries : List Entry} (h : Shows episodeId store initial entries) :
    (store.createEpisode episodeId systemPrompt userText tools).1 = store := by
  obtain ⟨context, hc⟩ := h.context
  rcases createEpisode_cases store episodeId systemPrompt userText tools with heq | ⟨hnone, _⟩
  · exact heq
  · rw [hc.row] at hnone
    cases hnone

theorem Blank.opened (h : Blank id store)
    (ho : store.createEpisode id systemPrompt userText tools = (store', .ok initial)) : Shows id store' initial [] := by
  have hblank : Blank id store' := by
    have hcreated : Blank id (store.createEpisode id systemPrompt userText tools).1 := h.createEpisode
    rwa [ho] at hcreated
  have hrow : ∃ context, store'.contexts id = some context ∧ context.initialInputDigest = initial := by
    simp only [ModelContextStore.createEpisode] at ho
    split at ho
    · cases ho
    · split at ho
      · cases ho
        exact ⟨_, Function.update_self _ _ _, rfl⟩
      · rename_i existing hexisting
        split at ho
        · cases ho
        · rename_i hsame
          simp only [ne_eq, not_not, Prod.mk.injEq] at hsame
          cases ho
          exact ⟨existing, hexisting, hsame.2.2.2⟩
  obtain ⟨context, hrow, hinit⟩ := hrow
  obtain ⟨hlatest, hnone⟩ := hblank.context context hrow
  refine ⟨by simp [hblank.exchanges], by simp [hblank.pending], by simp [hblank.pending],
    by simp [hblank.pending], by simp, context, hrow, hinit, by simp [hnone], ?_, by simp⟩
  intro _
  rw [hlatest, hinit]

end create

section record

variable {episodeId : EpisodeId} {name : String} {digest : Sha256Digest} {entries : List Entry}

omit [JsonText] in
theorem recordToolResult_cases (store : ModelContextStore) (episodeId : EpisodeId) (name : String)
    (digest : Sha256Digest) :
    (store.recordToolResult episodeId name digest).1 = store ∨
      (∃ text, store.openText digest = .ok text) ∧
      (∃ row, (store.pending episodeId).find? (fun row => row.nativeCallId = name) = some row ∧
        row.resultDigest = none) ∧
      ∃ context continuation, store.contexts episodeId = some context ∧
        context.continuationDigest = some continuation ∧
        store.recordToolResult episodeId name digest = store.bindResult episodeId name digest ∧
        (store.bindResult episodeId name digest).2 = .ok () := by
  simp only [recordToolResult]
  split
  · exact .inl rfl
  · rename_i text htext
    split
    · exact .inl rfl
    · rename_i row hrow
      split
      · split <;> exact .inl rfl
      · rename_i hnone
        simp only [bindResult]
        split
        · exact .inl rfl
        · rename_i context hcontext
          split
          · exact .inl rfl
          · rename_i continuation hcont
            exact .inr ⟨⟨text, htext⟩, ⟨row, hrow, hnone⟩, context, continuation, hcontext, hcont, trivial, rfl⟩

def boundRows (rows : List PendingToolResult) (name : String) (digest : Sha256Digest) : List PendingToolResult :=
  rows.map fun row => if row.nativeCallId = name then { row with resultDigest := some digest } else row

omit [Sha256] [JsonText] in
@[simp] theorem boundRows_names {rows : List PendingToolResult} :
    (boundRows rows name digest).map PendingToolResult.nativeCallId = rows.map PendingToolResult.nativeCallId := by
  simp only [boundRows, List.map_map]
  refine List.map_congr_left fun row _ => ?_
  simp only [Function.comp_apply]
  split <;> rfl

section rows

omit [JsonText]

theorem bindResult_eq {context : ModelEpisodeContext} {continuation : Sha256Digest}
    (hc : store.contexts episodeId = some context) (hd : context.continuationDigest = some continuation) :
    (store.bindResult episodeId name digest).1 = { store with
      pending := Function.update store.pending episodeId (boundRows (store.pending episodeId) name digest)
      contexts := Function.update store.contexts episodeId (some { context with
        latestInputDigest :=
          if pendingResultDigests (boundRows (store.pending episodeId) name digest) = [] then context.latestInputDigest
          else deriveModelContinuationInputDigest continuation
            (pendingResultDigests (boundRows (store.pending episodeId) name digest)) }) } := by
  simp only [bindResult, hc, hd]
  rfl

theorem recordToolResult_unchanged (hne : id ≠ episodeId) :
    Unchanged id store (store.recordToolResult episodeId name digest).1 := by
  rcases recordToolResult_cases store episodeId name digest with
    h | ⟨_, _, context, continuation, hc, hd, h, _⟩ <;> rw [h]
  · exact .rfl'
  · rw [bindResult_eq hc hd]
    exact ⟨Function.update_of_ne hne _ _, Function.update_of_ne hne _ _, rfl, rfl, fun _ _ h => h⟩

theorem recordToolResult_global (store : ModelContextStore) (episodeId : EpisodeId) (name : String)
    (digest : Sha256Digest) :
    (store.recordToolResult episodeId name digest).1.exchanges = store.exchanges ∧
    (store.recordToolResult episodeId name digest).1.artifacts = store.artifacts ∧
    (store.recordToolResult episodeId name digest).1.limits = store.limits := by
  rcases recordToolResult_cases store episodeId name digest with
    h | ⟨_, _, context, continuation, hc, hd, h, _⟩ <;> rw [h]
  · exact ⟨rfl, rfl, rfl⟩
  · rw [bindResult_eq hc hd]
    exact ⟨rfl, rfl, rfl⟩

theorem Coherent.recordToolResult (h : Coherent store) :
    Coherent (store.recordToolResult episodeId name digest).1 := by
  obtain ⟨he, ha, _⟩ := recordToolResult_global store episodeId name digest
  exact ⟨by rw [ha]; exact h.addressed, by rw [he]; exact h.owned⟩

theorem Binds.recordToolResult {name' : String} {digest' : Sha256Digest} (h : Binds store id name' digest')
    (hd : ((store.pending id).map PendingToolResult.nativeCallId).Nodup) :
    Binds (store.recordToolResult id name digest).1 id name' digest' := by
  rcases recordToolResult_cases store id name digest with
    heq | ⟨_, ⟨row, hrow, hnone⟩, context, continuation, hc, hcd, heq, _⟩ <;> rw [heq]
  · exact h
  · rw [bindResult_eq hc hcd]
    obtain ⟨found, hm, hname, hresult⟩ := h
    have hne : found.nativeCallId ≠ name := by
      intro hn
      have hrowName : row.nativeCallId = name := by simpa using List.find?_some hrow
      have hsame := List.inj_on_of_nodup_map hd hm (List.mem_of_find?_eq_some hrow) (hn.trans hrowName.symm)
      rw [hsame, hnone] at hresult
      cases hresult
    refine ⟨found, ?_, hname, hresult⟩
    simp only [Function.update_self, boundRows]
    exact List.mem_map.mpr ⟨found, hm, if_neg hne⟩

theorem recordToolResult_binds (h : (store.recordToolResult id name digest).2 = .ok ()) :
    Binds (store.recordToolResult id name digest).1 id name digest := by
  simp only [recordToolResult] at h ⊢
  split at h
  · cases h
  · split at h
    · cases h
    · rename_i row hrow
      have hname : row.nativeCallId = name := by simpa using List.find?_some hrow
      have hm := List.mem_of_find?_eq_some hrow
      split at h
      · rename_i existing hexisting
        split at h
        · rename_i hsame
          simp only [hsame, if_true]
          exact ⟨row, hm, hname, by rw [hexisting, hsame]⟩
        · cases h
      · simp only [bindResult] at h
        split at h
        · cases h
        · rename_i context hcontext
          split at h
          · cases h
          · rename_i continuation hcont
            rw [bindResult_eq hcontext hcont]
            refine ⟨{ row with resultDigest := some digest }, ?_, hname, rfl⟩
            simp only [Function.update_self, boundRows]
            exact List.mem_map.mpr ⟨row, hm, if_pos hname⟩

end rows

theorem Shows.recordToolResult (h : Shows id store initial entries) :
    Shows id (store.recordToolResult id name digest).1 initial entries := by
  rcases recordToolResult_cases store id name digest with
    heq | ⟨⟨text, htext⟩, _, context, continuation, hc, hcd, heq, _⟩ <;> rw [heq]
  · exact h
  · rw [bindResult_eq hc hcd]
    obtain ⟨context', hshows⟩ := h.context
    obtain rfl : context = context' := Option.some.inj (hc.symm.trans hshows.row)
    have hsame : ∀ d t, store.openText d = .ok t → openText { store with
        pending := Function.update store.pending id (boundRows (store.pending id) name digest)
        contexts := Function.update store.contexts id (some { context with
          latestInputDigest :=
            if pendingResultDigests (boundRows (store.pending id) name digest) = [] then context.latestInputDigest
            else deriveModelContinuationInputDigest continuation
              (pendingResultDigests (boundRows (store.pending id) name digest)) }) } d = .ok t :=
      fun d t ht => openText_mono (fun _ _ h => h) rfl ht
    refine ⟨h.exchanges, ?_, ?_, ?_, fun entry he => (h.rehydrates entry he).mono rfl fun _ _ h => h, ?_⟩
    · simp only [Function.update_self, boundRows_names]
      exact h.pending
    · simp only [Function.update_self, boundRows_names]
      exact h.distinct
    · intro row hm d hd
      simp only [Function.update_self, boundRows] at hm
      obtain ⟨old, hold, rfl⟩ := List.mem_map.mp hm
      split at hd
      · cases hd
        exact ⟨text, hsame _ _ htext⟩
      · obtain ⟨t, ht⟩ := h.readable old hold d hd
        exact ⟨t, hsame _ _ ht⟩
    · refine ⟨_, Function.update_self _ _ _, hshows.initialInput, hshows.continuation, ?_, ?_⟩
      · intro hempty
        rw [hshows.continuation, hempty] at hcd
        cases hcd
      · intro entry he hne
        simp only [Function.update_self] at hne ⊢
        rw [if_neg hne]
        rw [hshows.continuation, he] at hcd
        rw [← Option.some.inj hcd]

end record

section commit

variable {request : ModelTurnRequest} {exchange : ProviderTurnExchange} {entries : List Entry}

omit [Sha256] [JsonText] in
theorem validateCalls_distinct {calls : List GatewayToolCall} {seen : List String}
    (h : validateCalls calls seen = .ok ()) :
    (calls.map GatewayToolCall.nativeCallId).Nodup ∧ ∀ call ∈ calls, call.nativeCallId ∉ seen := by
  induction calls generalizing seen with
  | nil => simp
  | cons call calls ih =>
    simp only [validateCalls] at h
    split at h
    · cases h
    · split at h
      · cases h
      · rename_i hseen
        obtain ⟨hnodup, hrest⟩ := ih h
        refine ⟨List.nodup_cons.mpr ⟨fun hm => ?_, hnodup⟩, ?_⟩
        · obtain ⟨other, hother, heq⟩ := List.mem_map.mp hm
          exact hrest other hother (by simp [heq])
        · intro other hother
          rcases List.mem_cons.mp hother with rfl | hother
          · exact hseen
          · exact fun hm => hrest other hother (List.mem_cons_of_mem _ hm)

omit [Sha256] [JsonText] in
theorem GatewayTurn.validate_distinct {turn : GatewayTurn} (h : turn.validate = .ok ()) :
    (turn.toolCalls.map GatewayToolCall.nativeCallId).Nodup := by
  simp only [GatewayTurn.validate] at h
  split at h
  · cases h
  · exact (validateCalls_distinct h).1

def inserted (store : ModelContextStore) (request : ModelTurnRequest) (exchange : ProviderTurnExchange)
    (identity : ModelExchangeIdentity) (context : ModelEpisodeContext) : ModelContextStore :=
  { store with
    exchanges := store.exchanges ++ [(request.attemptId, identity)]
    pending := Function.update store.pending request.episodeId
      (exchange.nativeContinuation.pendingCallIds.map fun id => ⟨id, none⟩)
    contexts := Function.update store.contexts request.episodeId
      (some { context with continuationDigest := some identity.continuationDigest }) }

omit [Sha256] [JsonText] in
theorem insertExchange_cases (store : ModelContextStore) (request : ModelTurnRequest)
    (exchange : ProviderTurnExchange) (identity : ModelExchangeIdentity) :
    (store.insertExchange request exchange identity).1 = store ∨
      ∃ context, store.contexts request.episodeId = some context ∧
        (store.insertExchange request exchange identity).1 = inserted store request exchange identity context := by
  simp only [insertExchange]
  split
  · exact .inl rfl
  · rename_i context hcontext
    split
    · exact .inl rfl
    · split
      · exact .inl rfl
      · split
        · exact .inl rfl
        · split
          · exact .inl rfl
          · exact .inr ⟨context, hcontext, rfl⟩

def exchangeIdentity (request : ModelTurnRequest) (exchange : ProviderTurnExchange) : ModelExchangeIdentity :=
  ⟨request.episodeId, request.turnIndex, request.inputDigest, Sha256.digestBytes exchange.requestBody,
    Sha256.digestBytes exchange.responseBody, Sha256.digestBytes (JsonText.canonicalBytes exchange.nativeContinuation),
    exchange.providerRequestId, exchange.actualModel⟩

def ingested (store : ModelContextStore) (exchange : ProviderTurnExchange) : ModelContextStore :=
  ((store.ingest (JsonText.canonicalBytes exchange.nativeContinuation)).ingest exchange.requestBody).ingest
    exchange.responseBody

theorem ingested_unchanged : Unchanged id store (ingested store exchange) :=
  (ingest_unchanged.trans ingest_unchanged).trans ingest_unchanged

theorem Coherent.ingested (h : Coherent store) : Coherent (ingested store exchange) :=
  h.ingest.ingest.ingest

theorem commit_cases (store : ModelContextStore) (request : ModelTurnRequest) (exchange : ProviderTurnExchange) :
    (store.commit request exchange).1 = store.ingest (JsonText.canonicalBytes exchange.nativeContinuation) ∨
      (store.commit request exchange).1 = ingested store exchange ∨
      ∃ context, store.contexts request.episodeId = some context ∧ (store.commit request exchange).1 =
        inserted (ingested store exchange) request exchange (exchangeIdentity request exchange) context := by
  simp only [commit]
  split
  · exact .inl rfl
  · split
    · exact .inr (.inl rfl)
    · split
      · split <;> exact .inr (.inl rfl)
      · rcases insertExchange_cases (ingested store exchange) request exchange (exchangeIdentity request exchange) with
          h | ⟨context, hc, h⟩
        · exact .inr (.inl h)
        · refine .inr (.inr ⟨context, ?_, h⟩)
          simpa [ingested] using hc

variable {context : ModelEpisodeContext}

omit [Sha256] [JsonText] in
theorem inserted_unchanged {identity : ModelExchangeIdentity}
    (hne : id ≠ request.episodeId) (hi : identity.episodeId = request.episodeId) :
    Unchanged id store (inserted store request exchange identity context) := by
  refine ⟨Function.update_of_ne hne _ _, Function.update_of_ne hne _ _, ?_, rfl, fun _ _ h => h⟩
  have hother : ([(request.attemptId, identity)] : List (ModelAttemptId × ModelExchangeIdentity)).filter
      (fun row => row.2.episodeId = id) = [] := by
    simp [hi, Ne.symm hne]
  rw [exchangesOf, inserted, List.filter_append, hother, List.append_nil]
  rfl

theorem commit_unchanged (hne : id ≠ request.episodeId) :
    Unchanged id store (store.commit request exchange).1 := by
  rcases commit_cases store request exchange with h | h | ⟨context, _, h⟩ <;> rw [h]
  · exact ingest_unchanged
  · exact ingested_unchanged
  · exact ingested_unchanged.trans (inserted_unchanged hne rfl)

theorem Coherent.commit (h : Coherent store)
    (ho : ∃ n, derivedModelAttemptId request.episodeId n = .ok request.attemptId) :
    Coherent (store.commit request exchange).1 := by
  rcases commit_cases store request exchange with heq | heq | ⟨context, _, heq⟩ <;> rw [heq]
  · exact h.ingest
  · exact h.ingested
  · have hi : Coherent (AlloyPort.ingested store exchange) := h.ingested
    refine ⟨hi.addressed, fun row hm => ?_⟩
    rcases List.mem_append.mp hm with hm | hm
    · exact hi.owned row hm
    · rw [List.mem_singleton.mp hm]
      exact ho

omit [Sha256] in
theorem fromCanonicalBytes_bound {bytes : List UInt8} {limits : CodecLimits} {continuation : NativeContinuation}
    (h : NativeContinuation.fromCanonicalBytes bytes limits = .ok continuation) :
    bytes.length ≤ limits.maxContinuationBytes := by
  simp only [NativeContinuation.fromCanonicalBytes, Effect.bind_eq_ok] at h
  obtain ⟨_, _, h⟩ := h
  by_contra hlong
  rw [if_pos (by omega)] at h
  cases h

omit [JsonText] in
theorem openBytes_of_artifact {bytes : List UInt8} {limit : Nat}
    (ha : store.artifacts (Sha256.digestBytes bytes) = some bytes) (hl : bytes.length ≤ limit) :
    store.openBytes (Sha256.digestBytes bytes) limit = .ok bytes := by
  simp only [openBytes, openArtifact, ha]
  simp [Nat.not_lt.mpr hl, Bind.bind, Except.bind, pure, Except.pure]

theorem commit_eq_inserted (hd : Decoded store.limits exchange)
    (hnew : ∀ row ∈ store.exchanges, row.1 ≠ request.attemptId)
    (hc : store.contexts request.episodeId = some context) (hlatest : context.latestInputDigest = request.inputDigest)
    (hpos : request.turnIndex ≠ 0) (hturn : ∀ row ∈ exchangesOf store request.episodeId, row.2.1 ≠ request.turnIndex) :
    store.commit request exchange =
      (inserted (ingested store exchange) request exchange (exchangeIdentity request exchange) context, .ok ()) := by
  have hnone : (ingested store exchange).exchanges.find? (fun row => row.1 = request.attemptId) = none := by
    refine List.find?_eq_none.mpr fun row hm => ?_
    have hrow := hnew row (by simpa [ingested] using hm)
    simpa using hrow
  have hfree : ((ingested store exchange).exchanges.any fun row =>
      row.2.episodeId = request.episodeId ∧ row.2.turnIndex = request.turnIndex) = false := by
    refine List.any_eq_false.mpr fun row hm hrow => ?_
    have hrow := of_decide_eq_true hrow
    have hm : row ∈ store.exchanges := by simpa [ingested] using hm
    refine hturn (row.1, row.2.turnIndex, row.2.continuationDigest) ?_ hrow.2
    exact List.mem_map.mpr ⟨row, List.mem_filter.mpr ⟨hm, decide_eq_true hrow.1⟩, rfl⟩
  have hnodup : exchange.nativeContinuation.pendingCallIds.Nodup := by
    rw [hd.pending]
    exact GatewayTurn.validate_distinct hd.valid
  have hcontext : (ingested store exchange).contexts request.episodeId = some context := by
    simpa [ingested] using hc
  have hinsert : (ingested store exchange).insertExchange request exchange (exchangeIdentity request exchange) =
      (inserted (ingested store exchange) request exchange (exchangeIdentity request exchange) context, .ok ()) := by
    simp only [insertExchange, hcontext]
    rw [if_neg (not_not.mpr hlatest), if_neg hpos, if_neg (by rw [hfree]; simp), if_neg (not_not.mpr hnodup)]
    rfl
  simp only [commit, ← hd.digest, ← hd.response, ne_eq, not_true_eq_false, if_false]
  rw [ingested] at hnone hinsert
  rw [hd.digest, hd.response] at *
  simp only [hnone]
  exact hinsert

theorem Shows.commit (hcf : Sha256.CollisionFree) (hco : Coherent store) (h : Shows id store initial entries)
    (hid : request.episodeId = id) (hd : Decoded store.limits exchange)
    (hnew : ∀ row ∈ store.exchanges, row.1 ≠ request.attemptId)
    (hlatest : ∀ context, store.contexts id = some context → context.latestInputDigest = request.inputDigest)
    (hpos : request.turnIndex ≠ 0) (hturn : ∀ entry ∈ entries, entry.turnIndex ≠ request.turnIndex) :
    (store.commit request exchange).2 = .ok () ∧ Shows id (store.commit request exchange).1 initial
      (entries ++ [exchangeEntry request exchange.gatewayExchange]) := by
  subst hid
  obtain ⟨context, hc⟩ := h.context
  have hrows : ∀ row ∈ exchangesOf store request.episodeId, row.2.1 ≠ request.turnIndex := by
    intro row hm
    rw [h.exchanges] at hm
    obtain ⟨entry, hentry, rfl⟩ := List.mem_map.mp hm
    exact hturn entry hentry
  rw [commit_eq_inserted hd hnew hc.row (hlatest context hc.row) hpos hrows]
  refine ⟨rfl, ?_⟩
  have hcalls : exchange.nativeContinuation.pendingCallIds =
      (exchangeEntry request exchange.gatewayExchange).calls := hd.pending
  have hnames : ((exchange.nativeContinuation.pendingCallIds.map fun id => (⟨id, none⟩ : PendingToolResult)).map
      PendingToolResult.nativeCallId) = exchange.nativeContinuation.pendingCallIds := by
    rw [List.map_map]
    exact List.map_id _
  refine ⟨?_, ?_, ?_, ?_, ?_, _, Function.update_self _ _ _, hc.initialInput, ?_, by simp, ?_⟩
  · have hold : exchangesOf (ingested store exchange) request.episodeId = _ :=
      ingested_unchanged.exchanges.trans h.exchanges
    rw [exchangesOf] at hold
    rw [exchangesOf, inserted, List.filter_append, List.map_append, hold, List.map_append]
    simp [exchangeIdentity, exchangeEntry, hd.digest]
  · simp only [inserted, Function.update_self, hnames, List.getLast?_append, List.getLast?_singleton]
    exact hcalls
  · simp only [inserted, Function.update_self, hnames]
    rw [hd.pending]
    exact GatewayTurn.validate_distinct hd.valid
  · intro row hm digest hresult
    simp only [inserted, Function.update_self] at hm
    obtain ⟨name, _, rfl⟩ := List.mem_map.mp hm
    cases hresult
  · intro entry hentry
    simp only [List.getLast?_append, List.getLast?_singleton, Option.some_or, Option.some.injEq] at hentry
    subst hentry
    have hkeep : ∀ (store : ModelContextStore) bytes digest found, store.artifacts digest = some found →
        (store.ingest bytes).artifacts digest = some found :=
      fun store bytes digest found hfound => (@ingest_unchanged _ request.episodeId store bytes).artifacts _ _ hfound
    have hart : (ingested store exchange).artifacts
        (Sha256.digestBytes (JsonText.canonicalBytes exchange.nativeContinuation)) =
        some (JsonText.canonicalBytes exchange.nativeContinuation) :=
      hkeep _ _ _ _ (hkeep _ _ _ _ (ingest_artifact hcf hco))
    refine ⟨JsonText.canonicalBytes exchange.nativeContinuation, exchange.nativeContinuation, ?_, ?_, hcalls⟩
    · rw [exchangeEntry, hd.digest]
      refine openBytes_of_artifact hart ?_
      simpa [inserted, ingested] using fromCanonicalBytes_bound hd.rehydrates
    · simpa [inserted, ingested] using hd.rehydrates
  · simp [exchangeIdentity, exchangeEntry, hd.digest]
  · intro entry _ hne
    refine absurd ?_ hne
    simp only [inserted, Function.update_self, pendingResultDigests]
    cases exchange.nativeContinuation.pendingCallIds with
    | nil => rfl
    | cons name names => simp

end commit

section load

variable {request : ModelTurnRequest} {entries : List Entry}
variable {rows : List PendingToolResult}

omit [Sha256] [JsonText] in
theorem pendingResultDigests_eq (h : ∀ row ∈ rows, row.resultDigest.isSome = true) :
    pendingResultDigests rows = rows.filterMap (·.resultDigest) := by
  rw [pendingResultDigests, if_neg]
  intro hany
  obtain ⟨row, hm, hnone⟩ := List.any_eq_true.mp hany
  have hsome := h row hm
  rw [Option.isSome_iff_ne_none] at hsome
  exact hsome (Option.isNone_iff_eq_none.mp hnone)

omit [JsonText] in
theorem mapM_openText (h : ∀ row ∈ rows, ∃ text, store.openText (row.resultDigest.getD ⟨[]⟩) = .ok text) :
    ∃ results, (rows.mapM fun row => do
      let output ← store.openText (row.resultDigest.getD ⟨[]⟩)
      return (⟨row.nativeCallId, output⟩ : OwnedToolResult)) = .ok results := by
  induction rows with
  | nil => exact ⟨[], rfl⟩
  | cons row rows ih =>
    obtain ⟨text, htext⟩ := h row (by simp)
    obtain ⟨results, hresults⟩ := ih fun r hm => h r (List.mem_cons_of_mem _ hm)
    refine ⟨⟨row.nativeCallId, text⟩ :: results, ?_⟩
    rw [List.mapM_cons, hresults, htext]
    rfl

omit [Sha256] [JsonText] in
theorem zip_matches {names : List String}
    (hn : rows.map PendingToolResult.nativeCallId = names) (h : ∀ row ∈ rows, row.resultDigest.isSome = true) :
    ((rows.zip names).any fun (row, expected) => row.nativeCallId ≠ expected ∨ row.resultDigest = none) = false := by
  subst hn
  refine List.any_eq_false.mpr fun pair hm hbad => ?_
  rw [List.zip_map_right] at hm
  obtain ⟨⟨row, row'⟩, hzip, rfl⟩ := List.mem_map.mp hm
  obtain rfl : row = row' := by
    obtain ⟨i, hi, heq⟩ := List.getElem_of_mem hzip
    rw [List.getElem_zip] at heq
    exact (Prod.mk.inj heq).1.symm.trans (Prod.mk.inj heq).2
  have hsome := h row (List.of_mem_zip hzip).1
  have hbad := of_decide_eq_true hbad
  rcases hbad with hne | hnone
  · exact hne rfl
  · rw [show row.resultDigest = none from hnone] at hsome
    cases hsome

theorem Shows.load_first (h : Shows id store initial []) (hid : request.episodeId = id)
    (hi : request.inputDigest = initial) : ∃ input, store.load request = .ok input := by
  subst hid
  obtain ⟨context, hc⟩ := h.context
  have hnone : context.continuationDigest = none := hc.continuation
  refine ⟨⟨context.systemPrompt, some context.initialUserText, none, [], context.tools⟩, ?_⟩
  simp only [ModelContextStore.load, hc.row]
  rw [if_neg (by rw [hc.first rfl, hi]; simp), hnone]
  simp only
  rw [if_neg (by rw [hc.initialInput, hi]; simp)]

theorem Shows.load_next {entry : Entry} (h : Shows id store initial entries) (hid : request.episodeId = id)
    (hlast : entries.getLast? = some entry) (hne : store.pending id ≠ [])
    (hall : ∀ row ∈ store.pending id, row.resultDigest.isSome = true)
    (hi : request.inputDigest =
      deriveModelContinuationInputDigest entry.continuation (pendingResultDigests (store.pending id))) :
    ∃ input, store.load request = .ok input := by
  subst hid
  obtain ⟨context, hc⟩ := h.context
  obtain ⟨bytes, continuation, hbytes, hcont, hcalls⟩ := h.rehydrates entry hlast
  have hdigest : context.continuationDigest = some entry.continuation := by rw [hc.continuation, hlast]; rfl
  have hnonempty : pendingResultDigests (store.pending request.episodeId) ≠ [] := by
    rw [pendingResultDigests_eq hall]
    obtain ⟨row, rows, heq⟩ := List.exists_cons_of_ne_nil hne
    obtain ⟨digest, hd⟩ := Option.isSome_iff_exists.mp (hall row (by simp [heq]))
    rw [heq]
    simp [hd]
  have hnames : (store.pending request.episodeId).map PendingToolResult.nativeCallId =
      continuation.pendingCallIds := by
    rw [hcalls, h.pending, hlast]
    rfl
  have hlen : (store.pending request.episodeId).length = continuation.pendingCallIds.length := by
    rw [← hnames, List.length_map]
  obtain ⟨results, hresults⟩ := @mapM_openText _ store (store.pending request.episodeId) fun row hm => by
    obtain ⟨digest, hd⟩ := Option.isSome_iff_exists.mp (hall row hm)
    rw [hd]
    exact h.readable row hm digest hd
  refine ⟨⟨context.systemPrompt, none, some continuation, results, context.tools⟩, ?_⟩
  simp only [ModelContextStore.load, hc.row, hdigest]
  rw [if_neg (by rw [hc.latest entry hlast hnonempty, hi]; simp)]
  simp only [loadContinuation, hbytes, Effect.bind_eq_ok, Effect.mapError_eq_ok]
  refine ⟨bytes, rfl, continuation, hcont, ?_⟩
  rw [if_neg (by simp only [hlen, zip_matches hnames hall]; simp)]
  simp only [hresults, Effect.bind_eq_ok]
  refine ⟨results, rfl, ?_⟩
  rw [if_neg (by rw [hi]; simp)]
  rfl

end load

end AlloyPort
