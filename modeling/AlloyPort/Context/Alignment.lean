import AlloyPort.Episode.Binding
import AlloyPort.Context.Ledger

/-! The reducer and the context store keep the same conversation, each in its own store. They stay
aligned along every run in which no stopped turn is continued, every rejection is explained to
the model, and no runner stops between a commit of the one and the save of the other. -/

namespace AlloyPort

open SharedStore DurableEpisodeState ContextRecordingToolGateway

variable [Sha256]

/-- The store holds the exchange of an attempt the reducer still has as dispatching. -/
def Unrecorded (store : ModelContextStore) (versions : List DurableEpisodeState) : Prop :=
  ∃ s attempt, versions.getLast? = some s ∧ s.attempts.getLast? = some attempt ∧ attempt.status = .dispatching ∧
    ∃ row ∈ store.exchanges, row.1 = attempt.id

/-- A rejection names a text that can be read, in place of no other answer, and the tool gateway
describes exactly the tools it may accept. -/
def Explained (known : String → Prop) (id : EpisodeId) (store : ModelContextStore) :
    (call : GatewayCall) → GatewayReply call → Prop
  | .validateCall call, .ok () => known call.name
  | .validateCall call, .error rejection => (∃ text, store.openText rejection.resultDigest = .ok text) ∧
      ∀ row ∈ store.pending id, row.nativeCallId = call.nativeCallId →
        row.resultDigest = none ∨ row.resultDigest = some rejection.resultDigest
  | .descriptor name, none => ¬ known name
  | _, _ => True

def undisturbed (known : String → Prop) : ServiceGuard := fun id store versions label =>
  match label with
  | .save s' => ∀ s, versions.getLast? = some s → Smooth versions.dropLast s s'
  | .call e => Explained known id store e.call e.reply
  | .refuse | .stop _ => ¬ Unrecorded store versions

/-- A run in which every runner works to the end of its program and every save is taken. -/
def crashFree : ServiceGuard := fun _ _ _ label =>
  match label with
  | .refuse => False
  | .stop finished => finished = true
  | _ => True

def completedDigest (reply : Except ToolGatewayError ToolGatewayOutcome) : Option Sha256Digest :=
  match reply with
  | .ok (.completed _ digest _ _) => some digest
  | _ => none

def eventResult (e : GatewayEvent) : Option (String × Sha256Digest) :=
  match e with
  | ⟨.validateCall call, .error rejection⟩ => some (call.nativeCallId, rejection.resultDigest)
  | ⟨.execute request, reply⟩ | ⟨.reconcile request, reply⟩ =>
    (completedDigest reply).map fun digest => (request.call.nativeCallId, digest)
  | _ => none

structure Reduced (id : EpisodeId) (front : List DurableEpisodeState) (s : DurableEpisodeState) : Prop where
  located : Located id s
  bound : Bound front s
  shape : TurnShape front s
  decoded : TurnsDecoded s
  counted : TurnsCounted s

/-- The results the reducer has for the last turn are bound in the store. -/
def Recorded (id : EpisodeId) (store : ModelContextStore) (s : DurableEpisodeState) : Prop :=
  ∀ turn, s.turns.getLast? = some turn → ∀ o ∈ s.toolOperations, o.record.turnId = turn.record.id →
    ∀ digest, o.record.resultDigest = some digest → Binds store id o.call.nativeCallId digest

variable [JsonText]

/-- Where the two stand: at the same turn, or the store one turn ahead while the runner that
committed it is about to save. -/
inductive Phase (id : EpisodeId) (store : ModelContextStore) (s : DurableEpisodeState) (log : List GatewayEvent) :
    Prop where
  | level (hq : ∀ request exchange, ⟨.invoke request, .ok (.turn exchange)⟩ ∉ log)
      (hs : Shows id store s.initialInputDigest (s.turns.map DurableTurn.entry)) (hr : Recorded id store s)
  | ahead {request exchange attempt} (he : ⟨.invoke request, .ok (.turn exchange)⟩ ∈ log)
      (hu : ∀ e ∈ log, ∀ r, e.call = .invoke r → e = ⟨.invoke request, .ok (.turn exchange)⟩)
      (hst : s.status = .modelAttemptPending) (hl : s.attempts.getLast? = some attempt)
      (ha : attempt.status = .dispatching) (hr : Requests id s attempt request)
      (hs : Shows id store s.initialInputDigest
        (s.turns.map DurableTurn.entry ++ [exchangeEntry request exchange]))

structure Account (known : String → Prop) (id : EpisodeId) (store : ModelContextStore) (s : DurableEpisodeState)
    (log : List GatewayEvent) : Prop where
  phase : Phase id store s log
  told : ∀ e ∈ log, ∀ name digest, eventResult e = some (name, digest) →
    s.status ≠ .modelAttemptPending ∧ Binds store id name digest
  accepted : ∀ call, ⟨.validateCall call, .ok ()⟩ ∈ log → known call.name
  undescribed : ∀ name, ⟨.descriptor name, none⟩ ∈ log → ¬ known name

def Aligned (known : String → Prop) (id : EpisodeId) (store : ModelContextStore)
    (versions : List DurableEpisodeState) (log : List GatewayEvent) : Prop :=
  Coherent store ∧ (versions = [] ∧ Blank id store ∨
    ∃ front s, versions = front ++ [s] ∧ Reduced id front s ∧ Account known id store s log)

variable {known : String → Prop} {id : EpisodeId} {store store' : ModelContextStore}
variable {s s' : DurableEpisodeState} {front versions : List DurableEpisodeState} {log : List GatewayEvent}

section frame

omit [JsonText] [Sha256] in
theorem Recorded.mono (h : Recorded id store s)
    (hb : ∀ name digest, Binds store id name digest → Binds store' id name digest) : Recorded id store' s :=
  fun turn ht o hm hturn digest hd => hb _ _ (h turn ht o hm hturn digest hd)

theorem Phase.frame (h : Phase id store s log) (hu : Unchanged id store store') : Phase id store' s log := by
  cases h with
  | level hq hs hr => exact .level hq (hs.frame hu) (hr.mono fun _ _ hb => hb.frame hu)
  | ahead he hunique hst hl ha hr hs => exact .ahead he hunique hst hl ha hr (hs.frame hu)

theorem Aligned.frame (h : Aligned known id store versions log) (hu : Unchanged id store store')
    (hc : Coherent store') : Aligned known id store' versions log := by
  refine ⟨hc, ?_⟩
  rcases h.2 with ⟨hnone, hblank⟩ | ⟨front, s, heq, hr, ha⟩
  · exact .inl ⟨hnone, hblank.frame hu⟩
  · refine .inr ⟨front, s, heq, hr, ha.phase.frame hu, fun e he name digest hres => ?_, ha.accepted, ha.undescribed⟩
    obtain ⟨hst, hb⟩ := ha.told e he name digest hres
    exact ⟨hst, hb.frame hu⟩

theorem Aligned.last (h : Aligned known id store (front ++ [s]) log) :
    Reduced id front s ∧ Account known id store s log := by
  rcases h.2 with ⟨hnone, _⟩ | ⟨front', s', heq, hr, ha⟩
  · simp at hnone
  · obtain ⟨rfl, hs⟩ := List.append_inj' heq rfl
    obtain rfl : s = s' := by simpa using hs
    exact ⟨hr, ha⟩

theorem Aligned.forget (h : Aligned known id store versions log) (hg : ¬ Unrecorded store versions) :
    Aligned known id store versions [] := by
  refine ⟨h.1, ?_⟩
  rcases h.2 with hblank | ⟨front, s, rfl, hr, ha⟩
  · exact .inl hblank
  · refine .inr ⟨front, s, rfl, hr, ?_, by simp, by simp, by simp⟩
    cases ha.phase with
    | level hq hs hrec => exact .level (by simp) hs hrec
    | @ahead request exchange attempt he hu hst hl hd hreq hs =>
      refine absurd ⟨s, attempt, by simp, hl, hd, ?_⟩ hg
      have hm : (request.attemptId, request.turnIndex, exchange.nativeContinuationDigest) ∈ exchangesOf store id := by
        rw [hs.exchanges]
        simp [exchangeEntry]
      obtain ⟨row, hrow, heq⟩ := List.mem_map.mp hm
      exact ⟨row, (List.mem_filter.mp hrow).1, by rw [← hreq.attemptId, ← (Prod.mk.inj heq).1]⟩

end frame

section save

omit [JsonText] in
theorem EpisodeStep.initialInput (h : EpisodeStep id s log s') : s'.initialInputDigest = s.initialInputDigest := by
  cases h <;> rfl

omit [JsonText] in
theorem Reduced.step (h : Reduced id front s) (hs : EpisodeStep id s log s') (hsm : Smooth front s s') :
    Reduced id (front ++ [s]) s' where
  located := h.located.step hs
  bound := h.bound.step h.located hs hsm.resumed
  shape := h.shape.step h.located h.bound hs hsm
  decoded := h.decoded.step hs.attemptsChange
  counted := h.counted.step hs.attemptsChange

variable {digest : Sha256Digest}

omit [JsonText] in
theorem PlannedCalls.rejected {turn : TurnRecord} {inputDigest : Sha256Digest} {index : Nat}
    {calls : List GatewayToolCall} {operations : List DurableToolOperation}
    (h : PlannedCalls id turn inputDigest log index calls operations) {o : DurableToolOperation} (hm : o ∈ operations)
    (hd : o.record.resultDigest = some digest) : Rejected log o.call digest := by
  induction h with
  | nil => simp at hm
  | cons hc _ ih =>
    rcases List.mem_cons.mp hm with rfl | hm
    · rcases hc.outcome with ⟨_, hnone⟩ | ⟨_, found, hr, hfound⟩
      · rw [hnone] at hd
        cases hd
      · rw [hfound] at hd
        cases hd
        rw [hc.called]
        exact hr
    · exact ih hm

theorem Account.binds_rejected (h : Account known id store s log) {call : GatewayToolCall}
    (hr : Rejected log call digest) : Binds store id call.nativeCallId digest := by
  cases hr with
  | invalid he => exact (h.told _ he _ _ rfl).2
  | unknown hv he => exact absurd (h.accepted call hv) (h.undescribed call.name he)

theorem Account.binds_answered (h : Account known id store s log) {invocation : ToolInvocation}
    {status : ToolOperationStatus} {receipts : List Sha256Digest} {satisfies : Bool}
    (ha : ToolAnswered log invocation (.completed status digest receipts satisfies)) :
    Binds store id invocation.call.nativeCallId digest := by
  rcases ha with he | he
  · exact (h.told _ he _ _ rfl).2
  · exact (h.told _ he _ _ rfl).2

theorem Account.recorded (h : Account known id store s log) (hs : EpisodeStep id s log s')
    (ht : s'.turns = s.turns) (hr : Recorded id store s) : Recorded id store s' := by
  intro turn hlast o hm hturn digest hd
  rw [ht] at hlast
  cases hs.operationsChange with
  | kept ho => exact hr turn hlast o (ho ▸ hm) hturn digest hd
  | planned ho _ _ _ _ _ hp =>
    rw [ho] at hm
    rcases List.mem_append.mp hm with hm | hm
    · exact hr turn hlast o hm hturn digest hd
    · exact h.binds_rejected (hp.rejected hm hd)
  | @changed index old new hg ho hc =>
    rw [ho] at hm
    rcases List.mem_or_eq_of_mem_set hm with hm | rfl
    · exact hr turn hlast o hm hturn digest hd
    · rw [hc.call]
      rcases hc.finished with ⟨hsame, _⟩ | ⟨invocation, found, receipts, satisfies, hinv, hans, hfound, _⟩
      · exact hr turn hlast old (List.mem_of_getElem? hg) (by rw [← hc.turnId]; exact hturn) digest (hsame ▸ hd)
      · rw [hfound] at hd
        cases hd
        rw [← hinv.call]
        exact h.binds_answered hans

omit [JsonText] in
theorem EpisodeStep.records {request : ModelTurnRequest} {exchange : GatewayTurnExchange}
    (h : EpisodeStep id s log s') (he : ⟨.invoke request, .ok (.turn exchange)⟩ ∈ log)
    (hu : ∀ e ∈ log, ∀ r, e.call = .invoke r → e = ⟨.invoke request, .ok (.turn exchange)⟩)
    (hst : s.status = .modelAttemptPending) : ∃ turn, s'.turns = s.turns ++ [turn] ∧ s'.status = .turnRecorded ∧
      turn.entry = exchangeEntry request exchange := by
  have hother : ∀ status, s.status = status → status = .modelAttemptPending := fun status h => h.symm.trans hst
  cases h with
  | @turned _ attempt' request' exchange' turn _ _ _ he' _ _ hd ht hm hx =>
    have heq := hu _ he' request' rfl
    cases heq
    refine ⟨turn, rfl, rfl, ?_⟩
    simp only [DurableTurn.entry, exchangeEntry, hm, hx, hd, ht]
  | refused _ _ _ he' _ ho _ =>
    have heq := hu _ he' _ rfl
    cases heq
    rcases ho with ⟨_, _, _, ho⟩ | ⟨_, _, _, _, ho⟩ | ⟨_, _, _, ho⟩ <;> cases ho
  | unknown _ _ _ he' _ _ =>
    have heq := hu _ he' _ rfl
    cases heq
  | planned hs | toolCompleted hs | toolRunning hs | toolSuspended hs => exact absurd (hother _ hs) (by simp)
  | _ => simp at he

theorem Aligned.saved (h : Aligned known id store (front ++ [s]) log) (hs : EpisodeStep id s log s')
    (hsm : Smooth front s s') : Aligned known id store (front ++ [s] ++ [s']) [] := by
  obtain ⟨hr, ha⟩ := h.last
  have hr' := hr.step hs hsm
  refine ⟨h.1, .inr ⟨front ++ [s], s', rfl, hr', ?_, by simp, by simp, by simp⟩⟩
  cases ha.phase with
  | level hq hshow hrec =>
    have ht : s'.turns = s.turns := by
      cases hs.attemptsChange with
      | kept _ ht => exact ht
      | pushed _ ht _ _ _ _ _ => exact ht
      | dispatched _ _ ht _ => exact ht
      | decoded _ _ _ _ _ _ he _ _ _ _ => exact absurd he (hq _ _)
      | ended _ _ ht _ _ _ => exact ht
    refine .level (by simp) ?_ (ha.recorded hs ht hrec)
    rw [hs.initialInput, ht]
    exact hshow
  | ahead he hu hst hl hd hreq hshow =>
    obtain ⟨turn, ht, hst', hentry⟩ := hs.records he hu hst
    refine .level (by simp) ?_ ?_
    · rw [hs.initialInput, ht, List.map_append, List.map_singleton, hentry]
      exact hshow
    · intro turn' hlast o hm hturn
      obtain ⟨found, hfound, hall⟩ := hr'.shape.unplanned (.inl hst')
      obtain rfl : found = turn' := Option.some.inj (hfound.symm.trans hlast)
      exact absurd hturn (hall o hm).1

end save

section dispatch

variable {operations : List DurableToolOperation} {rows : List PendingToolResult}

omit [Sha256] [JsonText] in
theorem rows_match {calls : List GatewayToolCall} (hc : List.Forall₂ (fun call o => o.call = call) calls operations)
    (hn : rows.map PendingToolResult.nativeCallId = calls.map GatewayToolCall.nativeCallId)
    (hd : (rows.map PendingToolResult.nativeCallId).Nodup)
    (hb : ∀ o ∈ operations, ∃ digest, o.record.resultDigest = some digest ∧
      ∃ row ∈ rows, row.nativeCallId = o.call.nativeCallId ∧ row.resultDigest = some digest) :
    List.Forall₂ (fun o row => row.resultDigest = o.record.resultDigest ∧ row.resultDigest.isSome = true)
      operations rows := by
  obtain ⟨hlen, hget⟩ := List.forall₂_iff_get.mp hc
  have hlen' : rows.length = calls.length := by
    have := congrArg List.length hn
    simpa using this
  refine List.forall₂_iff_get.mpr ⟨by omega, fun i hi hi' => ?_⟩
  obtain ⟨digest, hdigest, row, hm, hname, hresult⟩ := hb operations[i] (List.getElem_mem _)
  have hcall := hget i (by omega) hi
  have hrow : rows[i].nativeCallId = row.nativeCallId := by
    have hi'' : (rows.map PendingToolResult.nativeCallId)[i]? = (calls.map GatewayToolCall.nativeCallId)[i]? := by
      rw [hn]
    rw [List.getElem?_map, List.getElem?_map, List.getElem?_eq_getElem hi',
      List.getElem?_eq_getElem (by omega)] at hi''
    rw [hname, Option.some.inj hi'']
    exact congrArg GatewayToolCall.nativeCallId hcall.symm
  have hsame := List.inj_on_of_nodup_map hd (List.getElem_mem _) hm hrow
  simp only [List.get_eq_getElem, hsame, hresult, hdigest, Option.isSome_some, and_self]

omit [Sha256] [JsonText] in
theorem filterMap_results
    (h : List.Forall₂ (fun o row => row.resultDigest = o.record.resultDigest ∧ row.resultDigest.isSome = true)
      operations rows) :
    rows.filterMap (·.resultDigest) = operations.filterMap (·.record.resultDigest) ∧
      ∀ row ∈ rows, row.resultDigest.isSome = true := by
  induction h with
  | nil => simp
  | cons hab _ ih =>
    refine ⟨?_, fun row hm => ?_⟩
    · rw [List.filterMap_cons, List.filterMap_cons, hab.1, ih.1]
    · rcases List.mem_cons.mp hm with rfl | hm
      · exact hab.2
      · exact ih.2 row hm

theorem Shows.answered {turn : DurableTurn} {initial : Sha256Digest}
    (h : Shows id store initial (s.turns.map DurableTurn.entry)) (hr : Recorded id store s)
    (hresults : ∀ o ∈ s.toolOperations, o.record.status.isTerminal = true → o.record.resultDigest.isSome = true)
    (hlast : s.turns.getLast? = some turn)
    (hcalls : List.Forall₂ (fun call o => o.call = call) turn.semanticTurn.toolCalls (lastOperations s turn))
    (hall : ∀ o ∈ s.toolOperations, o.record.status.isTerminal = true) :
    (∀ row ∈ store.pending id, row.resultDigest.isSome = true) ∧
      pendingResultDigests (store.pending id) = turnResults s turn.record.id ∧
      (store.pending id).length = turn.semanticTurn.toolCalls.length := by
  have hnames : (store.pending id).map PendingToolResult.nativeCallId =
      turn.semanticTurn.toolCalls.map GatewayToolCall.nativeCallId := by
    rw [h.pending, List.getLast?_map, hlast]
    rfl
  have hmatch := rows_match hcalls hnames h.distinct fun o hm => by
    obtain ⟨hm, hturn⟩ := List.mem_filter.mp hm
    obtain ⟨digest, hd⟩ := Option.isSome_iff_exists.mp (hresults o hm (hall o hm))
    exact ⟨digest, hd, hr turn hlast o hm (of_decide_eq_true hturn) digest hd⟩
  obtain ⟨hsame, hsome⟩ := filterMap_results hmatch
  refine ⟨hsome, (pendingResultDigests_eq hsome).trans hsame, ?_⟩
  have hlen := congrArg List.length hnames
  simpa using hlen

structure Ready (id : EpisodeId) (store : ModelContextStore) (s : DurableEpisodeState) : Prop where
  latest : ∃ context, store.contexts id = some context ∧ context.latestInputDigest = s.nextInputDigest
  answered : ∀ row ∈ store.pending id, row.resultDigest.isSome = true
  loads : ∀ request : ModelTurnRequest, request.episodeId = id → request.inputDigest = s.nextInputDigest →
    ∃ input, store.load request = .ok input

theorem Reduced.ready (hr : Reduced id front s) (hst : Fixed s.status)
    (hs : Shows id store s.initialInputDigest (s.turns.map DurableTurn.entry)) (hrec : Recorded id store s) :
    Ready id store s := by
  have hinput : s.nextInputDigest = boundInput s := hr.bound.fixed hst
  obtain ⟨context, hc⟩ := hs.context
  rcases hr.shape.fixed hst with ⟨hnone, _⟩ | ⟨⟨turn, hlast, hne, hcalls, _⟩, hall⟩
  · simp only [hnone, List.map_nil] at hs hc
    have hinit : s.nextInputDigest = s.initialInputDigest := by simp [hinput, boundInput, hnone]
    refine ⟨⟨context, hc.row, by rw [hc.first rfl, hinit]⟩, ?_, fun request hid hi => ?_⟩
    · have hpending : store.pending id = [] := by simpa using hs.pending
      simp [hpending]
    · exact hs.load_first hid (hi.trans hinit)
  · obtain ⟨hsome, hresults, hlen⟩ := hs.answered hrec hr.shape.results hlast hcalls hall
    have hentry : (s.turns.map DurableTurn.entry).getLast? = some turn.entry := by
      rw [List.getLast?_map, hlast]
      rfl
    have hpending : store.pending id ≠ [] := by
      intro hnil
      rw [hnil] at hlen
      exact hne (List.length_eq_zero_iff.mp hlen.symm)
    have hbound : s.nextInputDigest = deriveModelContinuationInputDigest turn.entry.continuation
        (pendingResultDigests (store.pending id)) := by
      rw [hinput, boundInput, hlast, hresults]
      rfl
    have hnonempty : pendingResultDigests (store.pending id) ≠ [] := by
      rw [pendingResultDigests_eq hsome]
      obtain ⟨row, rows, heq⟩ := List.exists_cons_of_ne_nil hpending
      obtain ⟨digest, hd⟩ := Option.isSome_iff_exists.mp (hsome row (by simp [heq]))
      rw [heq]
      simp [hd]
    refine ⟨⟨context, hc.row, ?_⟩, hsome, fun request hid hi => ?_⟩
    · rw [hc.latest turn.entry hentry hnonempty, hbound]
    · exact hs.load_next hid hentry hpending hsome (hi.trans hbound)

end dispatch

section call

variable {request : ModelTurnRequest} {reply : Except ModelGatewayError ModelGatewayOutcome}
variable {inner : Except ToolGatewayError ToolGatewayOutcome} {digest initial : Sha256Digest}
variable {call : GatewayToolCall} {attempt : ModelAttemptRecord} {e : GatewayEvent}

theorem invoke_cases {sdk : ProviderTurnInput → ProviderSdkOutcome}
    (h : ProviderModelGateway.invoke store sdk request = (store', reply)) :
    (∃ bytes, store' = store.ingest bytes) ∧ (∀ exchange, reply ≠ .ok (.turn exchange)) ∨
      ∃ input exchange, sdk input = .turn exchange ∧ store' = (store.commit request exchange).1 ∧
        ((store.commit request exchange).2 = .ok () → reply = .ok (.turn exchange.gatewayExchange)) ∧
        ((store.commit request exchange).2 ≠ .ok () → ∀ x, reply ≠ .ok (.turn x)) := by
  simp only [ProviderModelGateway.invoke] at h
  split at h
  · cases h
    exact .inl ⟨⟨_, rfl⟩, by simp⟩
  · rename_i input _
    split at h
    · rename_i exchange hsdk
      refine .inr ⟨input, exchange, hsdk, ?_⟩
      split at h
      · rename_i hcommit
        cases h
        simp [hcommit]
      · rename_i error hcommit
        cases h
        simp [hcommit]
    all_goals
      cases h
      exact .inl ⟨⟨_, rfl⟩, by simp⟩

section entries

omit [JsonText]

theorem answer_cases {request : ToolInvocation} {reply : Except ToolGatewayError ToolGatewayOutcome}
    (h : answer store id inner request = (store', reply)) :
    (store' = store ∨ ∃ digest, store' = (store.recordToolResult id request.call.nativeCallId digest).1) ∧
      ∀ status digest receipts satisfies, reply = .ok (.completed status digest receipts satisfies) →
        store' = (store.recordToolResult id request.call.nativeCallId digest).1 ∧
          (store.recordToolResult id request.call.nativeCallId digest).2 = .ok () := by
  simp only [answer] at h
  split at h
  · cases h
    exact ⟨.inl rfl, by simp⟩
  · simp only [record] at h
    split at h
    · split at h
      · rename_i hrec
        cases h
        refine ⟨.inr ⟨_, by rw [hrec]⟩, ?_⟩
        rintro _ _ _ _ ⟨⟩
        simp [hrec]
      · rename_i hrec
        cases h
        exact ⟨.inr ⟨_, by rw [hrec]⟩, by simp⟩
    · rename_i hout
      cases h
      refine ⟨.inl rfl, ?_⟩
      rintro _ _ _ _ ⟨⟩
      exact absurd rfl (hout _ _ _ _)

theorem answer_binds {request : ToolInvocation} {reply : Except ToolGatewayError ToolGatewayOutcome}
    (h : answer store id inner request = (store', reply)) {name : String}
    (hd : (completedDigest reply).map (fun digest => (request.call.nativeCallId, digest)) = some (name, digest)) :
    Binds store' id name digest := by
  obtain ⟨found, hfound, hpair⟩ := Option.map_eq_some_iff.mp hd
  cases hpair
  obtain ⟨_, hreply⟩ := answer_cases h
  have hcompleted : ∃ status receipts satisfies, reply = .ok (.completed status digest receipts satisfies) := by
    simp only [completedDigest] at hfound
    split at hfound
    · cases hfound
      exact ⟨_, _, _, rfl⟩
    · cases hfound
  obtain ⟨status, receipts, satisfies, hcompleted⟩ := hcompleted
  obtain ⟨hstore, hok⟩ := hreply _ _ _ _ hcompleted
  rw [hstore]
  exact recordToolResult_binds hok

theorem validateCall_cases {inner : Except ToolInputRejection Unit} {reply : Except ToolInputRejection Unit}
    (h : validateCall store id inner call = (store', reply)) :
    store' = store ∧ reply = .ok () ∨ ∃ rejection, reply = .error rejection ∧
      store' = (store.recordToolResult id call.nativeCallId rejection.resultDigest).1 := by
  simp only [validateCall] at h
  split at h
  · cases h
    exact .inl ⟨rfl, rfl⟩
  · cases h
    exact .inr ⟨_, rfl, rfl⟩

theorem Located.attempt_derived (h : Located id s)
    (hl : s.attempts.getLast? = some attempt) : derivedModelAttemptId id (s.attempts.length - 1 + 1) = .ok attempt.id :=
  h.attempts _ attempt (by rw [← List.getLast?_eq_getElem?]; exact hl)

end entries

theorem Shows.unused (hco : Coherent store)
    (h : Shows id store initial (s.turns.map DurableTurn.entry)) (hl : Located id s) (hd : TurnsDecoded s)
    (hlast : s.attempts.getLast? = some attempt) (ha : attempt.status = .dispatching) :
    ∀ row ∈ store.exchanges, row.1 ≠ attempt.id := by
  intro row hm heq
  have hid := hl.attempt_derived hlast
  obtain ⟨n, hn⟩ := hco.owned row hm
  rw [heq] at hn
  obtain ⟨hepisode, _⟩ := derivedModelAttemptId_inj hn hid
  have hrow : (row.1, row.2.turnIndex, row.2.continuationDigest) ∈ exchangesOf store id :=
    List.mem_map.mpr ⟨row, List.mem_filter.mpr ⟨hm, decide_eq_true hepisode⟩, rfl⟩
  rw [h.exchanges, List.map_map] at hrow
  obtain ⟨turn, hturn, htuple⟩ := List.mem_map.mp hrow
  obtain ⟨j, decoded, hj, hdid, hst⟩ := hd turn hturn
  have hsame : decoded.id = attempt.id := by
    rw [hdid, ← heq]
    exact (Prod.mk.inj htuple).1
  have hindex := hl.attempts j decoded hj
  rw [hsame] at hindex
  obtain ⟨_, hpos⟩ := derivedModelAttemptId_inj hindex hid
  rw [List.getLast?_eq_getElem?] at hlast
  have hjj : j = s.attempts.length - 1 := by omega
  rw [hjj, hlast] at hj
  cases hj
  rw [ha] at hst
  cases hst

theorem Phase.logged (h : Phase id store s log) (he : ∀ request, e.call ≠ .invoke request) :
    Phase id store s (log ++ [e]) := by
  cases h with
  | level hq hs hr =>
    refine .level (fun request exchange hm => ?_) hs hr
    rcases List.mem_append.mp hm with hm | hm
    · exact hq request exchange hm
    · exact he request (by rw [← List.mem_singleton.mp hm])
  | ahead hm hu hst hl ha hr hs =>
    refine .ahead (List.mem_append_left _ hm) (fun e' hm' r hr' => ?_) hst hl ha hr hs
    rcases List.mem_append.mp hm' with hm' | hm'
    · exact hu e' hm' r hr'
    · rw [List.mem_singleton.mp hm'] at hr'
      exact absurd hr' (he r)

theorem Account.logged (h : Account known id store s log) (hp : Phase id store' s (log ++ [e]))
    (hb : s.status ≠ .modelAttemptPending → ∀ name digest, Binds store id name digest → Binds store' id name digest)
    (ht : ∀ name digest, eventResult e = some (name, digest) →
      s.status ≠ .modelAttemptPending ∧ Binds store' id name digest)
    (ha : ∀ call, e = ⟨.validateCall call, .ok ()⟩ → known call.name)
    (hu : ∀ name, e = ⟨.descriptor name, none⟩ → ¬ known name) : Account known id store' s (log ++ [e]) := by
  refine ⟨hp, fun e' hm name digest hres => ?_, fun call hm => ?_, fun name hm => ?_⟩
  · rcases List.mem_append.mp hm with hm | hm
    · obtain ⟨hst, hbinds⟩ := h.told e' hm name digest hres
      exact ⟨hst, hb hst name digest hbinds⟩
    · rw [List.mem_singleton.mp hm] at hres
      exact ht name digest hres
  · rcases List.mem_append.mp hm with hm | hm
    · exact h.accepted call hm
    · exact ha call (List.mem_singleton.mp hm).symm
  · rcases List.mem_append.mp hm with hm | hm
    · exact h.undescribed name hm
    · exact hu name (List.mem_singleton.mp hm).symm

theorem Account.level (h : Account known id store s log) (hst : s.status ≠ .modelAttemptPending) :
    Shows id store s.initialInputDigest (s.turns.map DurableTurn.entry) ∧ Recorded id store s := by
  cases h.phase with
  | level _ hs hr => exact ⟨hs, hr⟩
  | ahead _ _ hp _ _ _ _ => exact absurd hp hst

theorem Account.recording (name : String) (h : Account known id store s log)
    (hst : s.status ≠ .modelAttemptPending) (he : ∀ request, e.call ≠ .invoke request)
    (hs : store' = store ∨ ∃ digest, store' = (store.recordToolResult id name digest).1)
    (ht : ∀ name digest, eventResult e = some (name, digest) → Binds store' id name digest)
    (ha : ∀ call, e = ⟨.validateCall call, .ok ()⟩ → known call.name)
    (hu : ∀ name, e = ⟨.descriptor name, none⟩ → ¬ known name) : Account known id store' s (log ++ [e]) := by
  obtain ⟨hshow, hrec⟩ := h.level hst
  have hbinds : ∀ name digest, Binds store id name digest → Binds store' id name digest := by
    rcases hs with rfl | ⟨digest, rfl⟩
    · exact fun _ _ hb => hb
    · exact fun _ _ hb => hb.recordToolResult hshow.distinct
  have hshow' : Shows id store' s.initialInputDigest (s.turns.map DurableTurn.entry) := by
    rcases hs with rfl | ⟨digest, rfl⟩
    · exact hshow
    · exact hshow.recordToolResult
  have hphase : Phase id store' s log := by
    cases h.phase with
    | level hq _ _ => exact .level hq hshow' (hrec.mono hbinds)
    | ahead _ _ hp _ _ _ _ => exact absurd hp hst
  exact h.logged (hphase.logged he) (fun _ => hbinds) (fun name digest hres => ⟨hst, ht name digest hres⟩) ha hu

theorem Shows.records_rejection {turn : DurableTurn} (h : Shows id store initial (s.turns.map DurableTurn.entry))
    (hlast : s.turns.getLast? = some turn) (hm : call ∈ turn.semanticTurn.toolCalls)
    (htext : ∃ text, store.openText digest = .ok text)
    (hfree : ∀ row ∈ store.pending id, row.nativeCallId = call.nativeCallId →
      row.resultDigest = none ∨ row.resultDigest = some digest) :
    (store.recordToolResult id call.nativeCallId digest).2 = .ok () := by
  obtain ⟨text, htext⟩ := htext
  obtain ⟨context, hc⟩ := h.context
  have hentry : (s.turns.map DurableTurn.entry).getLast? = some turn.entry := by
    rw [List.getLast?_map, hlast]
    rfl
  have hname : call.nativeCallId ∈ (store.pending id).map PendingToolResult.nativeCallId := by
    rw [h.pending, hentry]
    exact List.mem_map.mpr ⟨call, hm, rfl⟩
  obtain ⟨found, hfound, hfoundName⟩ := List.mem_map.mp hname
  have hcont : context.continuationDigest = some turn.entry.continuation := by
    rw [hc.continuation, hentry]
    rfl
  cases hrow : (store.pending id).find? fun row => row.nativeCallId = call.nativeCallId with
  | none => exact absurd hfoundName (by simpa using List.find?_eq_none.mp hrow found hfound)
  | some row =>
    have hrowName : row.nativeCallId = call.nativeCallId := by simpa using List.find?_some hrow
    simp only [ModelContextStore.recordToolResult, htext, hrow]
    rcases hfree row (List.mem_of_find?_eq_some hrow) hrowName with hnone | hsame
    · simp only [hnone, ModelContextStore.bindResult, hc.row, hcont]
    · simp only [hsame, if_true]

theorem Account.invoked
    (hcf : Sha256.CollisionFree) (hco : Coherent store) (h : Account known id store s log) (hr : Reduced id front s)
    (hcalls : Calls id s log (.invoke request)) (ha : GatewayActs id store (.invoke request) reply store') :
    Account known id store' s (log ++ [⟨.invoke request, reply⟩]) := by
  obtain ⟨hst, ⟨attempt, hlast, hdisp, hreq⟩, hquiet⟩ := hcalls
  obtain ⟨sdk, hsdk, hinvoke⟩ := ha
  have hlevel : Shows id store s.initialInputDigest (s.turns.map DurableTurn.entry) ∧ Recorded id store s := by
    cases h.phase with
    | level _ hs hrec => exact ⟨hs, hrec⟩
    | ahead he _ _ _ _ _ _ => exact absurd rfl (hquiet _ he _)
  have hnoturn : ∀ r x, ⟨.invoke r, .ok (.turn x)⟩ ∉ log := fun r x hm => hquiet _ hm r rfl
  obtain ⟨hshow, hrec⟩ := hlevel
  have hready := hr.ready (.inr (.inr (.inl hst))) hshow hrec
  -- a pending attempt means that the log brought no result yet
  refine h.logged ?_ (fun hne => absurd hst hne) (fun name digest hres => ?_) (by simp) (by simp)
  · have hstay : Unchanged id store store' → (∀ x, reply ≠ .ok (.turn x)) →
        Phase id store' s (log ++ [⟨.invoke request, reply⟩]) := by
      intro hu hne
      refine .level (fun r x hm => ?_) (hshow.frame hu) (hrec.mono fun _ _ hb => hb.frame hu)
      rcases List.mem_append.mp hm with hm | hm
      · exact hnoturn r x hm
      · have heq := List.mem_singleton.mp hm
        cases heq
        exact hne x rfl
    rcases invoke_cases hinvoke with ⟨⟨bytes, rfl⟩, hne⟩ | ⟨input, exchange, hturn, rfl, hok, _⟩
    · exact hstay ingest_unchanged hne
    · obtain ⟨hcommit, hshow'⟩ := hshow.commit hcf hco hreq.episodeId (hsdk input exchange hturn)
        (by rw [hreq.attemptId]; exact hshow.unused hco hr.located hr.decoded hlast hdisp)
        (fun context hc => by
          obtain ⟨found, hfound, hlatest⟩ := hready.latest
          obtain rfl : context = found := Option.some.inj (hc.symm.trans hfound)
          rw [hlatest, hreq.inputDigest])
        (by rw [hreq.turnIndex]; simp)
        (fun entry hentry => by
          obtain ⟨turn, hm, rfl⟩ := List.mem_map.mp hentry
          have hle := hr.counted turn hm
          have heq : turn.entry.turnIndex = turn.record.spec.turnIndex := rfl
          rw [hreq.turnIndex, heq]
          omega)
      have hreply := hok hcommit
      subst hreply
      refine .ahead (List.mem_append_right _ (by simp)) (fun e hm r hinv => ?_) hst hlast hdisp hreq hshow'
      rcases List.mem_append.mp hm with hm | hm
      · exact absurd hinv (hquiet e hm r)
      · exact List.mem_singleton.mp hm
  · simp [eventResult] at hres

theorem Aligned.called {c : GatewayCall} {reply : GatewayReply c} (hcf : Sha256.CollisionFree)
    (h : Aligned known id store (front ++ [s]) log) (hcalls : Calls id s log c)
    (ha : GatewayActs id store c reply store') (hc : Coherent store') (hg : Explained known id store c reply) :
    Aligned known id store' (front ++ [s]) (log ++ [⟨c, reply⟩]) := by
  obtain ⟨hr, hacc⟩ := h.last
  refine ⟨hc, .inr ⟨front, s, rfl, hr, ?_⟩⟩
  cases c with
  | invoke request => exact hacc.invoked hcf h.1 hr hcalls ha
  | descriptor name =>
    obtain rfl : store' = store := ha
    refine hacc.logged (hacc.phase.logged (by simp)) (fun _ _ _ hb => hb) (by simp [eventResult]) (by simp) ?_
    rintro name' ⟨⟩
    exact hg
  | shouldCrash point =>
    obtain ⟨rfl, rfl⟩ := ha
    exact hacc.logged (hacc.phase.logged (by simp)) (fun _ _ _ hb => hb) (by simp [eventResult]) (by simp) (by simp)
  | validateCall call =>
    obtain ⟨hst, turn, hlast, hm⟩ := hcalls
    obtain ⟨inner, hinner⟩ := ha
    have hne : s.status ≠ .modelAttemptPending := by simp [hst]
    rcases validateCall_cases hinner with ⟨rfl, rfl⟩ | ⟨rejection, rfl, rfl⟩
    · refine hacc.recording call.nativeCallId hne (by simp) (.inl rfl) (by simp [eventResult]) ?_ (by simp)
      rintro call' ⟨⟩
      exact hg
    · refine hacc.recording _ hne (by simp) (.inr ⟨_, rfl⟩) ?_ (by simp) (by simp)
      rintro name digest ⟨⟩
      exact recordToolResult_binds ((hacc.level hne).1.records_rejection hlast hm hg.1 hg.2)
  | execute | reconcile =>
    obtain ⟨inner, hinner⟩ := ha
    have hne : s.status ≠ .modelAttemptPending := by simp [hcalls.1]
    exact hacc.recording _ hne (by simp) (answer_cases hinner).1 (fun _ _ hres => answer_binds hinner hres)
      (by simp) (by simp)

end call

section keeping

variable {c : GatewayCall} {userText systemPrompt : String} {tools : List CodecToolDefinition}
  {reply : GatewayReply c}

theorem GatewayActs.cases (ha : GatewayActs id store c reply store') :
    store' = store ∨ (∃ bytes, store' = store.ingest bytes) ∨
      (∃ request exchange, c = .invoke request ∧ store' = (store.commit request exchange).1) ∨
      ∃ name digest, store' = (store.recordToolResult id name digest).1 := by
  have hanswer : ∀ name, (store' = store ∨ ∃ digest, store' = (store.recordToolResult id name digest).1) →
      store' = store ∨ ∃ name digest, store' = (store.recordToolResult id name digest).1 := by
    rintro name (h | ⟨digest, h⟩)
    · exact .inl h
    · exact .inr ⟨name, digest, h⟩
  cases c with
  | invoke request =>
    obtain ⟨sdk, _, hinvoke⟩ := ha
    rcases invoke_cases hinvoke with ⟨hbytes, _⟩ | ⟨_, exchange, _, hcommit, _⟩
    · exact .inr (.inl hbytes)
    · exact .inr (.inr (.inl ⟨request, exchange, rfl, hcommit⟩))
  | descriptor name => exact .inl ha
  | shouldCrash point => exact .inl ha.2
  | validateCall call =>
    obtain ⟨inner, hinner⟩ := ha
    rcases validateCall_cases hinner with ⟨h, _⟩ | ⟨rejection, _, h⟩
    · exact .inl h
    · exact .inr (.inr (.inr ⟨_, _, h⟩))
  | execute | reconcile =>
    obtain ⟨inner, hinner⟩ := ha
    have h := hanswer _ (answer_cases hinner).1
    tauto

theorem GatewayActs.limits (ha : GatewayActs id store c reply store') :
    store'.limits = store.limits := by
  rcases ha.cases with rfl | ⟨bytes, rfl⟩ | ⟨request, exchange, rfl, rfl⟩ | ⟨name, digest, rfl⟩
  · rfl
  · exact (ingest_unchanged : Unchanged id _ _).limits
  · rcases commit_cases store request exchange with h | h | ⟨context, _, h⟩ <;> rw [h]
    · exact (ingest_unchanged : Unchanged id _ _).limits
    · exact (ingested_unchanged : Unchanged id _ _).limits
    · exact (ingested_unchanged : Unchanged id _ _).limits
  · exact (recordToolResult_global store id name digest).2.2

theorem GatewayActs.unchanged {other : EpisodeId}
    (ha : GatewayActs other store c reply store') (hcalls : Calls other s log c) (hne : id ≠ other) :
    Unchanged id store store' := by
  rcases ha.cases with rfl | ⟨bytes, rfl⟩ | ⟨request, exchange, rfl, rfl⟩ | ⟨name, digest, rfl⟩
  · exact .rfl'
  · exact ingest_unchanged
  · obtain ⟨_, ⟨attempt, _, _, hreq⟩, _⟩ := hcalls
    exact commit_unchanged (by rw [hreq.episodeId]; exact hne)
  · exact recordToolResult_unchanged hne

theorem GatewayActs.coherent (ha : GatewayActs id store c reply store')
    (hcalls : Calls id s log c) (hl : Located id s) (h : Coherent store) : Coherent store' := by
  rcases ha.cases with rfl | ⟨bytes, rfl⟩ | ⟨request, exchange, rfl, rfl⟩ | ⟨name, digest, rfl⟩
  · exact h
  · exact h.ingest
  · obtain ⟨_, ⟨attempt, hlast, _, hreq⟩, _⟩ := hcalls
    have hderived := hl.attempt_derived hlast
    rw [← hreq.episodeId, ← hreq.attemptId] at hderived
    exact h.commit ⟨_, hderived⟩
  · exact h.recordToolResult

theorem Aligned.created (h : Aligned known id store [] []) (hf : Fresh s)
    (ho : store.createEpisode id systemPrompt userText tools = (store', .ok s.initialInputDigest)) :
    Aligned known id store' [s] [] := by
  have hblank : Blank id store := by
    rcases h.2 with ⟨_, hblank⟩ | ⟨front, t, heq, _⟩
    · exact hblank
    · simp at heq
  have hc : Coherent store' := by
    have hcreated : Coherent (store.createEpisode id systemPrompt userText tools).1 := h.1.createEpisode
    rwa [ho] at hcreated
  obtain ⟨hst, hattempts, hturns, hoperations, hnext, _⟩ := hf.created
  have hinput : InputBound s := by simp [InputBound, boundInput, hturns, hnext]
  have hnone : NoTurns s := ⟨hturns, hoperations⟩
  refine ⟨hc, .inr ⟨[], s, rfl, ⟨located_fresh hf, ?_, ?_, ?_, ?_⟩, .level (by simp) ?_ ?_, by simp, by simp, by simp⟩⟩
  · exact bound_of_inputBound hinput fun hsus => absurd (hst.symm.trans hsus) (by decide)
  · exact ⟨.inl hnone, by simp [hoperations], fun _ => .inl hnone, fun _ => .inl (.inl hnone), by simp [hst],
      by simp [hst, Unplanned]⟩
  · simp [TurnsDecoded, hturns]
  · simp [TurnsCounted, hturns]
  · rw [hturns]
    exact hblank.opened ho
  · simp [Recorded, hturns]

theorem Aligned.createEpisode (h : Aligned known id store versions log) {other : EpisodeId} :
    Aligned known id (store.createEpisode other systemPrompt userText tools).1 versions log := by
  by_cases heq : id = other
  · subst heq
    rcases h.2 with ⟨hnil, hblank⟩ | ⟨front, s, _, _, ha⟩
    · exact ⟨h.1.createEpisode, .inl ⟨hnil, hblank.createEpisode⟩⟩
    · have hsame : (store.createEpisode id systemPrompt userText tools).1 = store := by
        cases ha.phase with
        | level _ hs | ahead _ _ _ _ _ _ hs => exact hs.createEpisode
      rw [hsame]
      exact h
  · exact h.frame (createEpisode_unchanged heq) h.1.createEpisode

theorem aligned_keeping (hcf : Sha256.CollisionFree) (known : String → Prop) :
    Keeping (episodeEnv fun _ _ => True) episodeProtocol contextSurroundings (undisturbed known)
      (Aligned known) where
  answered _ := trivial
  created h hf hk ho := by
    obtain ⟨systemPrompt, userText, tools, ho⟩ := ho
    subst hk
    exact h.created hf ho
  saved h hs _ hg := h.saved hs (by simpa using hg _ (by simp))
  called h hcalls ha hg :=
    h.called hcf hcalls ha (ha.coherent hcalls h.last.1.located h.1) hg
  refused h hg := h.forget hg
  stopped h hg := h.forget hg
  drifted h hd := by
    rcases hd with ⟨bytes, rfl⟩ | ⟨other, systemPrompt, userText, tools, rfl⟩
    · exact h.frame ingest_unchanged h.1.ingest
    · exact h.createEpisode
  elsewhere h hne ho := by
    obtain ⟨systemPrompt, userText, tools, ho⟩ := ho
    have hstore := congrArg Prod.fst ho
    simp only at hstore
    rw [← hstore]
    exact h.createEpisode
  aside h hne h' hcalls ha :=
    h.frame (ha.unchanged hcalls (Ne.symm hne)) (ha.coherent hcalls h'.last.1.located h'.1)

theorem aligned_empty (h : EmptyContexts store) : Aligned known id store [] [] := by
  refine ⟨⟨h.addressed, by simp [h.exchanges]⟩, .inl ⟨rfl, ?_, h.pending id, by simp [h.contexts]⟩⟩
  simp [exchangesOf, h.exchanges]

end keeping

end AlloyPort
