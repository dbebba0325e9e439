import AlloyPort.Context.Alignment

/-! The dispatches of the composed service: in an undisturbed run every request loads and the two
stores agree whenever the reducer is ready. A stopped turn that is continued and a crash between
the two commits both break this. -/

namespace AlloyPort

open SharedStore DurableEpisodeState

section sample

def continuationText (continuation : NativeContinuation) : String :=
  "\x7b\"schema_version\":" ++ toString continuation.schemaVersion ++ ",\"protocol\":\"openai_responses\"" ++
    ",\"native_history\":" ++ continuation.nativeHistory ++ ",\"pending_call_ids\":[" ++
    String.intercalate "," (continuation.pendingCallIds.map fun id => "\"" ++ id ++ "\"") ++ "]\x7d"

def toolText (tool : CodecToolDefinition) : String :=
  "\x7b\"name\":\"" ++ tool.name ++ "\",\"description\":\"" ++ tool.description ++ "\",\"input_schema\":" ++
    tool.inputSchema ++ ",\"strict\":" ++ toString tool.strict ++ "\x7d"

def askingContinuation : NativeContinuation := ⟨1, .openAiResponses, "[]", ["call-1"]⟩

def closingContinuation : NativeContinuation := ⟨1, .openAiResponses, "[]", []⟩

@[reducible] def sampleJson : JsonText where
  canonicalBytes continuation := utf8 (continuationText continuation)
  parseContinuation bytes :=
    [askingContinuation, closingContinuation].find? fun continuation => utf8 (continuationText continuation) = bytes
  toolsJson tools := utf8 ("[" ++ String.intercalate "," (tools.map toolText) ++ "]")

def sampleLimits : CodecLimits := ⟨1000, 1000, 1000, 1000, 1000, 1000, 4⟩

def sampleExchange (calls : List GatewayToolCall) (continuation : NativeContinuation) : ProviderTurnExchange where
  gatewayExchange := ⟨⟨["done"], calls, if calls = [] then .stop else .toolCalls, none⟩, ⟨utf8 "response"⟩,
    ⟨utf8 (continuationText continuation)⟩⟩
  requestBody := utf8 "request"
  responseBody := utf8 "response"
  nativeContinuation := continuation
  providerRequestId := none
  actualModel := none

def askingExchange : ProviderTurnExchange := sampleExchange [⟨"call-1", "tool", []⟩] askingContinuation

def closingExchange : ProviderTurnExchange := sampleExchange [] closingContinuation

theorem askingExchange_decoded : @Decoded transparentSha256 sampleJson sampleLimits askingExchange := by
  refine @Decoded.mk transparentSha256 sampleJson _ _ ?_ ?_ ?_ ?_ ?_ <;> decide

theorem closingExchange_decoded : @Decoded transparentSha256 sampleJson sampleLimits closingExchange := by
  refine @Decoded.mk transparentSha256 sampleJson _ _ ?_ ?_ ?_ ?_ ?_ <;> decide

def sampleHandler [Sha256] [JsonText] (exchange : ProviderTurnExchange) (tool : ToolGatewayOutcome) :
    Handler GatewayCall ModelContextStore GatewayReply
  | store, .invoke request => (ProviderModelGateway.invoke store (fun _ => .turn exchange) request).swap
  | store, .descriptor _ => (some ⟨"tool", "1", .readOnly, .verifiedReference⟩, store)
  | store, .validateCall call => (ContextRecordingToolGateway.validateCall store sampleId (.ok ()) call).swap
  | store, .execute request => (ContextRecordingToolGateway.answer store sampleId (.ok tool) request).swap
  | store, .reconcile request => (ContextRecordingToolGateway.answer store sampleId (.ok tool) request).swap
  | store, .shouldCrash _ => (false, store)

variable {exchange : ProviderTurnExchange} {store : ModelContextStore}

theorem sampleHandler_acts [Sha256] [JsonText]
    (hd : Decoded store.limits exchange) (tool : ToolGatewayOutcome) (c : GatewayCall) :
    GatewayActs sampleId store c (sampleHandler exchange tool store c).1 (sampleHandler exchange tool store c).2 := by
  cases c with
  | invoke request => exact ⟨fun _ => .turn exchange, fun _ _ h => by cases h; exact hd, rfl⟩
  | descriptor name => rfl
  | validateCall call => exact ⟨.ok (), rfl⟩
  | execute | reconcile => exact ⟨.ok tool, rfl⟩
  | shouldCrash point => exact ⟨rfl, rfl⟩

abbrev ServiceCast := Cast EpisodeId DurableEpisodeState GatewayCall ModelContextStore EpisodeRepositoryError
    GatewayReply

abbrev Allows := ModelContextStore → List DurableEpisodeState → Label DurableEpisodeState GatewayCall GatewayReply →
    Bool

def sampleCast (allows : Allows) : ServiceCast where
  key := DurableEpisodeState.episodeId
  subject := sampleId
  missing := .adapter ""
  allows := allows

def WithinSampleLimits (store : ModelContextStore) : Prop := store.limits = sampleLimits

variable {allows : Allows} {guard : ServiceGuard} {lengths : List Nat}

theorem sampleCast_plays [Sha256] [JsonText] {guard : ServiceGuard}
    (hg : ∀ store versions label, allows store versions label = true → guard sampleId store versions label)
    (hd : Decoded sampleLimits exchange) (tool : ToolGatewayOutcome) :
    Plays (episodeEnv fun _ _ => True) contextSurroundings guard (sampleCast allows)
      WithinSampleLimits (sampleHandler exchange tool) where
  key := rfl
  allowed := hg
  acts store c hl := by
    have ha := sampleHandler_acts (hl ▸ hd) tool c
    exact ⟨ha, ha.limits.trans hl⟩

def sampleContexts : ModelContextStore where
  contexts _ := none
  pending _ := []
  exchanges := []
  artifacts digest := if digest = ⟨utf8 "ok"⟩ then some (utf8 "ok") else none
  limits := sampleLimits

def sampleInput : Sha256Digest := @initialDigest transparentSha256 sampleJson "system" "user" []

def sampleConversation : DurableEpisodeState :=
  { sampleEpisode sampleId with initialInputDigest := sampleInput, nextInputDigest := sampleInput }

theorem sampleConversation_fresh : Fresh sampleConversation := by
  refine ⟨sampleConversation.episode.spec, ⟨sampleConversation.episode, ⟨4, 8, 2, 2, 8, 1⟩, sampleInput, ⟨[4]⟩, ⟨[10]⟩,
    ⟨[11]⟩, ⟨[12]⟩⟩, ?_, rfl⟩
  have hmodel : isBlank "model" = false := by decide
  have hprompt : isBlank "prompt" = false := by decide
  simp only [AgentEpisodeRecord.new, sampleConversation, sampleEpisode, requireText, hmodel, hprompt]
  rfl

def sampleOpened : ModelContextStore :=
  (@ModelContextStore.createEpisode transparentSha256 sampleJson sampleContexts sampleId "system" "user" []).1

abbrev ServiceStaged [Sha256] [JsonText] (guard : ServiceGuard)
    (tasks : List (EpisodeId × RunnerProg (AgentLoopAdvance ⊕ EpisodeStatus))) (versions : List DurableEpisodeState)
    (store : ModelContextStore) : Prop :=
  Staged (episodeEnv fun _ _ => True) contextSurroundings guard EmptyContexts sampleId tasks versions store

theorem sampleConversation_staged :
    @ServiceStaged transparentSha256 sampleJson guard [] [sampleConversation] sampleOpened := by
  refine ⟨[], .tail (.refl (w := sampleContexts) ?_) (.create sampleConversation sampleConversation_fresh rfl ?_)⟩
  · refine @EmptyContexts.mk transparentSha256 _ (fun _ => rfl) (fun _ => rfl) rfl fun digest bytes h => ?_
    simp only [sampleContexts] at h
    split at h
    · rename_i heq
      cases h
      exact heq.symm
    · cases h
  · exact ⟨"system", "user", [], Prod.ext rfl (by decide +kernel)⟩

def sampleTask (exchange : ProviderTurnExchange) (n : Nat) :
    RunnerProg (AgentLoopAdvance ⊕ EpisodeStatus) × Handler GatewayCall ModelContextStore GatewayReply × Nat :=
  (@RunnerRequest.program transparentSha256 sampleId .advance,
    @sampleHandler transparentSha256 sampleJson exchange (.completed .succeeded ⟨utf8 "ok"⟩ [] true), n)

def playAll (allows : Allows) (exchange : ProviderTurnExchange) (lengths : List Nat) :
    Option (List DurableEpisodeState × ModelContextStore) :=
  rehearseAll (sampleCast allows) (lengths.map (sampleTask exchange)) ([sampleConversation], sampleOpened)

def undisturbedTest (store : ModelContextStore) (versions : List DurableEpisodeState) :
    Label DurableEpisodeState GatewayCall GatewayReply → Bool
  | .save s' => versions.getLast?.all fun s =>
    s'.status ≠ .readyForModel || (s.status ≠ .stopReview && s.status ≠ .incomplete && s.status ≠ .budgetExhausted)
  | .call ⟨.validateCall call, .ok ()⟩ => call.name = "tool"
  | .call ⟨.validateCall _, .error _⟩ => false
  | .call ⟨.descriptor _, none⟩ => false
  | .call _ => true
  | .refuse => false
  | .stop _ => versions.getLast?.all fun s => s.attempts.getLast?.all fun attempt =>
    attempt.status ≠ .dispatching || store.exchanges.all fun row => row.1 ≠ attempt.id

theorem undisturbedTest_allowed {versions : List DurableEpisodeState}
    {label : Label DurableEpisodeState GatewayCall GatewayReply} (h : undisturbedTest store versions label = true) :
    @undisturbed transparentSha256 (· = "tool") sampleId store versions label := by
  cases label with
  | save s' =>
    intro s hs
    simp only [undisturbedTest, hs, Option.all_some, Bool.or_eq_true, Bool.and_eq_true, decide_eq_true_eq] at h
    refine ⟨fun hst hready => ?_, fun hready => ⟨fun hst => ?_, fun hst => ?_⟩⟩ <;> simp_all
  | call e =>
    obtain ⟨c, reply⟩ := e
    cases c with
    | validateCall call =>
      cases reply with
      | ok _ => simpa [undisturbedTest, undisturbed, Explained] using h
      | error _ => simp [undisturbedTest] at h
    | descriptor name =>
      cases reply with
      | none => simp [undisturbedTest] at h
      | some _ => trivial
    | _ => trivial
  | refuse => simp [undisturbedTest] at h
  | stop b =>
    rintro ⟨s, attempt, hs, ha, hst, row, hrow, hid⟩
    simp only [undisturbedTest, hs, ha, hst, Option.all_some, List.all_eq_true, Bool.or_eq_true,
      decide_eq_true_eq] at h
    rcases h with h | h
    · simp at h
    · exact absurd hid (by simpa using h row hrow)

theorem sampleTask_plays
    (hg : ∀ store versions label, allows store versions label = true → guard sampleId store versions label)
    (hd : @Decoded transparentSha256 sampleJson sampleLimits exchange) (n : Nat) :
    @Plays _ _ _ _ _ _ _ _ (@episodeEnv transparentSha256 fun _ _ => True)
      (@contextSurroundings transparentSha256 sampleJson) guard (sampleCast allows)
      WithinSampleLimits (sampleTask exchange n).2.1 :=
  @sampleCast_plays _ _ transparentSha256 sampleJson _ hg hd _

theorem playAll_staged
    {done : List DurableEpisodeState × ModelContextStore}
    (hg : ∀ store versions label, allows store versions label = true → guard sampleId store versions label)
    (hd : @Decoded transparentSha256 sampleJson sampleLimits exchange)
    (h : playAll allows exchange lengths = some done) :
    @ServiceStaged transparentSha256 sampleJson guard [] done.1 done.2 ∧ WithinSampleLimits done.2 := by
  refine rehearseAll_staged (fun x hx => ?_) sampleConversation_staged (rfl : WithinSampleLimits sampleOpened) h
  obtain ⟨n, _, rfl⟩ := List.mem_map.mp hx
  exact ⟨⟨.advance, rfl⟩, sampleTask_plays hg hd n⟩

def invoking : RunnerProg (AgentLoopAdvance ⊕ EpisodeStatus) → Option ModelTurnRequest
  | .op (.call (.invoke request)) _ => some request
  | _ => none

/-- The request of one more task that is left in the middle, and the store it is made to. -/
def playInto (allows : Allows) (exchange : ProviderTurnExchange) (lengths : List Nat) (n : Nat) :
    Option (ModelTurnRequest × ModelContextStore) := do
  let done ← playAll allows exchange lengths
  let stage ← rehearseFor (sampleCast allows) (sampleTask exchange n).2.1 n ((sampleTask exchange n).1, done)
  let request ← invoking stage.1
  return (request, stage.2.2)

theorem playInto_invoking {n : Nat} {made : ModelTurnRequest × ModelContextStore}
    (hg : ∀ store versions label, allows store versions label = true → guard sampleId store versions label)
    (hd : @Decoded transparentSha256 sampleJson sampleLimits exchange)
    (h : playInto allows exchange lengths n = some made) :
    ∃ config next, @ServiceRun transparentSha256 sampleJson guard ⟨config, made.2⟩ ∧
      (sampleId, .op (.call (.invoke made.1)) next) ∈ config.tasks := by
  obtain ⟨done, hdone, h⟩ := Option.bind_eq_some_iff.mp h
  obtain ⟨⟨p, versions, store⟩, hstage, h⟩ := Option.bind_eq_some_iff.mp h
  obtain ⟨request, hrequest, h⟩ := Option.bind_eq_some_iff.mp h
  cases h
  obtain ⟨hstaged, hl⟩ := playAll_staged hg hd hdone
  obtain ⟨⟨history, hrun⟩, _⟩ :=
    rehearseFor_staged (sampleTask_plays hg hd n) (hstaged.start ⟨.advance, rfl⟩) hl hstage
  simp only [invoking] at hrequest hrun
  split at hrequest
  · cases hrequest
    exact ⟨_, _, hrun, List.mem_singleton_self _⟩
  · cases hrequest

end sample

section main

variable [Sha256] [JsonText] {known : String → Prop} {id : EpisodeId} {s : DurableEpisodeState} {c : ServiceConfig}

/-- Whenever the reducer dispatches a model attempt in an undisturbed run, its request loads: the
input is the latest one of the context and every pending result of the turn before is recorded. -/
theorem dispatched_request_loads (hcf : Sha256.CollisionFree) (h : ServiceRun (undisturbed known) c)
    {request : ModelTurnRequest} {next : GatewayReply (.invoke request) → RunnerProg (AgentLoopAdvance ⊕ EpisodeStatus)}
    (ht : (id, .op (.call (.invoke request)) next) ∈ c.config.tasks) :
    (∃ context, c.world.contexts id = some context ∧ context.latestInputDigest = request.inputDigest) ∧
      (∀ row ∈ c.world.pending id, row.resultDigest.isSome = true) ∧
      ∃ input, c.world.load request = .ok input := by
  obtain ⟨front, s, log, _, hcalls, haligned⟩ :=
    h.calling (complies _) (aligned_keeping hcf known) (fun _ hw _ => aligned_empty hw) ht
  obtain ⟨hr, ha⟩ := haligned.last
  obtain ⟨hst, ⟨attempt, _, _, hreq⟩, hquiet⟩ := hcalls
  cases ha.phase with
  | level _ hs hrec =>
    have hready := hr.ready (.inr (.inr (.inl hst))) hs hrec
    rw [hreq.inputDigest]
    exact ⟨hready.latest, hready.answered, hready.loads request hreq.episodeId hreq.inputDigest⟩
  | ahead he _ _ _ _ _ _ => exact absurd rfl (hquiet _ he _)

end main

@[irreducible] def answeredDispatch : Option (ModelTurnRequest × ModelContextStore) :=
  playInto undisturbedTest askingExchange (List.replicate 7 20) 3

def answeredRequest : {made // answeredDispatch = some made ∧ made.1.turnIndex = 2} :=
  attested answeredDispatch (·.1.turnIndex) 2 <| by
    unfold answeredDispatch
    decide +kernel

theorem dispatched_request_loads_sample :
    ∃ (c : ServiceConfig) (request : ModelTurnRequest), @ServiceRun transparentSha256 sampleJson
      (@undisturbed transparentSha256 (· = "tool")) c ∧ request.turnIndex = 2 ∧
      ∃ input, @ModelContextStore.load transparentSha256 sampleJson c.world request = .ok input := by
  obtain ⟨made, hmade, hindex⟩ := answeredRequest
  unfold answeredDispatch at hmade
  obtain ⟨config, next, hrun, ht⟩ :=
    playInto_invoking (fun _ _ _ h => undisturbedTest_allowed h) askingExchange_decoded hmade
  have hloads := @dispatched_request_loads transparentSha256 sampleJson _ _ _ transparentSha256_collisionFree hrun
    made.1 next ht
  exact ⟨_, made.1, hrun, hindex, hloads.2.2⟩

def crashFreeTest : Allows
  | _, _, .refuse => false
  | _, _, .stop finished => finished
  | _, _, _ => true

theorem crashFreeTest_allowed {store : ModelContextStore} {versions : List DurableEpisodeState}
    {label : Label DurableEpisodeState GatewayCall GatewayReply} (h : crashFreeTest store versions label = true) :
    crashFree sampleId store versions label := by
  cases label with
  | save s => trivial
  | refuse => cases h
  | call e => trivial
  | stop b => exact h

@[irreducible] def continuedDispatch : Option (ModelTurnRequest × ModelContextStore) :=
  playInto crashFreeTest closingExchange (List.replicate 6 20) 3

theorem continued_stop_does_not_load : ¬ ∀ (c : ServiceConfig) (request : ModelTurnRequest) next,
    @ServiceRun transparentSha256 sampleJson crashFree c →
    (sampleId, .op (.call (.invoke request)) next) ∈ c.config.tasks →
    ∃ input, @ModelContextStore.load transparentSha256 sampleJson c.world request = .ok input := by
  intro hclaim
  have hfails : continuedDispatch.map (fun made =>
      @ModelContextStore.load transparentSha256 sampleJson made.2 made.1) =
      some (.error "model request input identity does not match durable context") := by
    unfold continuedDispatch
    decide
  obtain ⟨made, hmade, hload⟩ := Option.map_eq_some_iff.mp hfails
  unfold continuedDispatch at hmade
  obtain ⟨config, next, hrun, ht⟩ :=
    playInto_invoking (fun _ _ _ h => crashFreeTest_allowed h) closingExchange_decoded hmade
  obtain ⟨input, hinput⟩ := hclaim _ made.1 next hrun ht
  cases hload.symm.trans hinput

section main

variable [Sha256] [JsonText] {known : String → Prop} {id : EpisodeId} {s : DurableEpisodeState} {c : ServiceConfig}

/-- The context store corresponds to the reducer's turns: one exchange for each, the continuation of
the last one, and a pending row for each of its calls. -/
structure Corresponds (id : EpisodeId) (store : ModelContextStore) (s : DurableEpisodeState) : Prop where
  exchanges : exchangesOf store id =
    s.turns.map fun turn => (turn.record.spec.modelAttemptId, turn.record.spec.turnIndex,
      turn.record.nativeContinuationDigest)
  continuation : ∃ context, store.contexts id = some context ∧
    context.continuationDigest = s.turns.getLast?.map (·.record.nativeContinuationDigest)
  pending : (store.pending id).map PendingToolResult.nativeCallId =
    (s.turns.getLast?.map fun turn => turn.semanticTurn.toolCalls.map GatewayToolCall.nativeCallId).getD []
  loads : ∀ request : ModelTurnRequest, request.episodeId = id → request.inputDigest = s.nextInputDigest →
    ∃ input, store.load request = .ok input

/-- Whenever the reducer is ready for the model in an undisturbed run, the context store
corresponds to it, so that the next request loads. -/
theorem ready_corresponds (hcf : Sha256.CollisionFree) (h : ServiceRun (undisturbed known) c)
    (hs : (c.config.store id).getLast? = some s) (hst : s.status = .readyForModel) : Corresponds id c.world s := by
  obtain ⟨views, hviews⟩ := h.accounted (complies _) (aligned_keeping hcf known) fun _ hw _ => aligned_empty hw
  have hkept := hviews.kept id
  rw [← List.dropLast_append_getLast? s hs] at hkept
  obtain ⟨hr, ha⟩ := hkept.last
  obtain ⟨hshow, hrec⟩ := ha.level (by simp [hst])
  obtain ⟨context, hc⟩ := hshow.context
  refine ⟨?_, ⟨context, hc.row, ?_⟩, ?_, (hr.ready (.inr (.inl hst)) hshow hrec).loads⟩
  · rw [hshow.exchanges, List.map_map]
    rfl
  · rw [hc.continuation, List.getLast?_map, Option.map_map]
    rfl
  · rw [hshow.pending, List.getLast?_map, Option.map_map]
    rfl

end main

@[irreducible] def recoveredTurn : Option (List DurableEpisodeState × ModelContextStore) :=
  playAll undisturbedTest askingExchange ([20, 20, 3] ++ List.replicate 6 20)

def recoveredState : {s // (recoveredTurn.bind fun done => done.1.getLast?) = some s ∧
    (s.status, s.attempts.length, s.turns.length) = (.readyForModel, 2, 1)} :=
  attested (recoveredTurn.bind fun done => done.1.getLast?) (fun s => (s.status, s.attempts.length, s.turns.length))
    (.readyForModel, 2, 1) <| by
      unfold recoveredTurn
      decide +kernel

theorem ready_corresponds_sample :
    ∃ (c : ServiceConfig) (s : DurableEpisodeState), @ServiceRun transparentSha256 sampleJson
      (@undisturbed transparentSha256 (· = "tool")) c ∧ (c.config.store sampleId).getLast? = some s ∧
      s.attempts.length = 2 ∧ s.turns.length = 1 ∧ @Corresponds transparentSha256 sampleJson sampleId c.world s := by
  obtain ⟨s, hs, hfacts⟩ := recoveredState
  obtain ⟨done, hdone, hlast⟩ := Option.bind_eq_some_iff.mp hs
  simp only [Prod.mk.injEq] at hfacts
  unfold recoveredTurn at hdone
  obtain ⟨⟨history, hrun⟩, _⟩ :=
    playAll_staged (fun _ _ _ h => undisturbedTest_allowed h) askingExchange_decoded hdone
  have hstore : (Function.update (fun _ => []) sampleId done.1 sampleId).getLast? = some s := by
    rw [Function.update_self]
    exact hlast
  have hcorresponds := @ready_corresponds transparentSha256 sampleJson _ sampleId s _
    transparentSha256_collisionFree hrun hstore hfacts.1
  exact ⟨_, s, hrun, hstore, hfacts.2.1, hfacts.2.2, hcorresponds⟩

/-- Ready again after a crash between the commit of a turn and the save of its outcome. -/
@[irreducible] def forgottenTurn : Option (List DurableEpisodeState × ModelContextStore) :=
  playAll (fun _ _ _ => true) askingExchange [20, 20, 4, 20]

theorem committed_turn_forgotten : ¬ ∀ (c : ServiceConfig) (s : DurableEpisodeState),
    @ServiceRun transparentSha256 sampleJson (fun _ _ _ _ => True) c →
    (c.config.store sampleId).getLast? = some s → s.status = .readyForModel →
    @Corresponds transparentSha256 sampleJson sampleId c.world s := by
  intro hclaim
  have hstate : (forgottenTurn.bind fun done => done.1.getLast?.map fun s => (s, done.2)).map
      (fun x => (x.1.status, x.1.turns.length, (exchangesOf x.2 sampleId).length)) = some (.readyForModel, 0, 1) := by
    unfold forgottenTurn
    decide +kernel
  obtain ⟨⟨s, store⟩, hs, hfacts⟩ := Option.map_eq_some_iff.mp hstate
  obtain ⟨done, hdone, hs⟩ := Option.bind_eq_some_iff.mp hs
  obtain ⟨last, hlast, heq⟩ := Option.map_eq_some_iff.mp hs
  obtain ⟨rfl, rfl⟩ := Prod.mk.inj heq
  simp only [Prod.mk.injEq] at hfacts
  unfold forgottenTurn at hdone
  have hstaged : @ServiceStaged transparentSha256 sampleJson (fun _ _ _ _ => True) [] done.1 done.2 :=
    (playAll_staged (fun _ _ _ _ => trivial) askingExchange_decoded hdone).1
  obtain ⟨history, hrun⟩ := hstaged
  have hstore : (Function.update (fun _ => []) sampleId done.1 sampleId).getLast? = some last := by
    rw [Function.update_self]
    exact hlast
  have hcorresponds := hclaim _ last hrun hstore hfacts.1
  have hexchanges := congrArg List.length (@Corresponds.exchanges transparentSha256 sampleJson _ _ _ hcorresponds)
  rw [List.length_map, hfacts.2.1] at hexchanges
  exact absurd (hfacts.2.2.symm.trans hexchanges) (by decide)

end AlloyPort
