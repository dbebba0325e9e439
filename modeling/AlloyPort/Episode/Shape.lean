import AlloyPort.Episode.Compliance

/-! How one save changes the attempts, the turns and the tool operations of an episode. Every
invariant of the reducer is read off these shapes. -/

namespace AlloyPort

open SharedStore DurableEpisodeState

variable [Sha256] {id : EpisodeId} {s s' : DurableEpisodeState} {log : List GatewayEvent}

inductive AttemptsChange (id : EpisodeId) (s : DurableEpisodeState) (log : List GatewayEvent)
    (s' : DurableEpisodeState) : Prop where
  | kept (ha : s'.attempts = s.attempts) (ht : s'.turns = s.turns)
  | pushed {a} (ha : s'.attempts = s.attempts ++ [a]) (ht : s'.turns = s.turns) (hp : a.status = .prepared)
      (hi : derivedModelAttemptId id (s.attempts.length + 1) = .ok a.id)
      (hr : a.spec.requestDigest = s.nextInputDigest)
      (hbt : s.turns.length < s.policy.maxModelTurns) (hba : s.attempts.length < s.policy.maxModelAttempts)
  | dispatched {front a} (ha : s.attempts = front ++ [a])
      (ha' : s'.attempts = front ++ [{ a with status := .dispatching }]) (ht : s'.turns = s.turns)
      (hp : a.status = .prepared)
  | decoded {front a a' turn request exchange} (ha : s.attempts = front ++ [a]) (ha' : s'.attempts = front ++ [a'])
      (ht : s'.turns = s.turns ++ [turn]) (hs : a'.spec = a.spec) (hp : a.status = .dispatching)
      (hp' : a'.status = .decoded) (he : ⟨.invoke request, .ok (.turn exchange)⟩ ∈ log)
      (hi : derivedTurnId id (s.turns.length + 1) = .ok turn.record.id)
      (hx : turn.semanticTurn = exchange.turn) (hm : turn.record.spec.modelAttemptId = a.id)
      (hn : turn.record.spec.turnIndex = s.turns.length + 1)
  | ended {front a a'} (ha : s.attempts = front ++ [a]) (ha' : s'.attempts = front ++ [a'])
      (ht : s'.turns = s.turns) (hs : a'.spec = a.spec) (hp : a.status = .dispatching)
      (hp' : a'.status ≠ .prepared ∧ a'.status ≠ .dispatching ∧ a'.status ≠ .decoded)

omit [Sha256] in
theorem attempts_eq {a : ModelAttemptRecord} (h : s.attempts.getLast? = some a) :
    s.attempts = s.attempts.dropLast ++ [a] :=
  (List.dropLast_append_getLast? a h).symm

omit [Sha256] in
theorem afterOutcome_ends {attempt : ModelAttemptRecord} {outcome : ModelGatewayOutcome}
    (h : ∀ exchange, outcome ≠ .turn exchange) :
    (attempt.afterOutcome outcome).spec = attempt.spec ∧ (attempt.afterOutcome outcome).status ≠ .prepared ∧
      (attempt.afterOutcome outcome).status ≠ .dispatching ∧ (attempt.afterOutcome outcome).status ≠ .decoded := by
  cases outcome with
  | turn exchange => exact absurd rfl (h exchange)
  | _ => simp [ModelAttemptRecord.afterOutcome]

theorem EpisodeStep.attemptsChange (h : EpisodeStep id s log s') : AttemptsChange id s log s' := by
  cases h with
  | moved | planned | toolDispatched | toolCompleted | toolRunning | toolSuspended | toolsFinished | continued
  | resumed =>
    exact .kept rfl rfl
  | prepared hs hc ht ha hn hi hr => exact .pushed rfl rfl rfl hi hr ht ha
  | dispatched hs hl ha => exact .dispatched (attempts_eq hl) rfl rfl ha
  | recovered hs hl ha hn =>
    refine .ended (attempts_eq hl) rfl rfl rfl ha ?_
    cases s.cancellationRequested <;> simp
  | turned hs hl ha he hr hi hd ht hm hx =>
    exact .decoded (attempts_eq hl) rfl rfl rfl ha rfl he hi ht (hm.trans hr.attemptId) (hx.trans hr.turnIndex)
  | @refused _ attempt _ outcome _ hs hl ha he hr ho hn =>
    have hne : ∀ exchange, outcome ≠ .turn exchange := by
      rcases ho with ⟨_, _, _, rfl⟩ | ⟨_, _, _, _, rfl⟩ | ⟨_, _, _, rfl⟩ <;> simp
    obtain ⟨hspec, hends⟩ := afterOutcome_ends hne
    exact .ended (attempts_eq hl) rfl rfl hspec ha hends
  | unknown hs hl ha he hr hn =>
    exact .ended (attempts_eq hl) rfl rfl rfl ha (by simp [ModelAttemptRecord.afterOutcome])
  | cancelRequested ht ha ho hn =>
    rcases ha with rfl | ⟨a, hl, ha, rfl⟩
    · exact .kept rfl rfl
    · exact .ended (attempts_eq hl) rfl rfl rfl ha (by simp)

structure OperationChange (log : List GatewayEvent) (s : DurableEpisodeState) (o o' : DurableToolOperation) : Prop where
  unfinished : o.record.status.isTerminal = false
  spec : o'.record.spec = o.record.spec
  call : o'.call = o.call
  moved : o'.record.status = o.record.status ∨ o.record.status.canTransitionTo o'.record.status = true ∨
    o.record.status = .requested ∧ o'.record.status = .dispatching ∨
    o.record.status = .dispatching ∧ o'.record.status = .reconciling
  finished : o'.record.resultDigest = o.record.resultDigest ∧ o'.record.status.isTerminal = false ∨
    ∃ invocation digest receipts satisfies, Invokes s o invocation ∧
      ToolAnswered log invocation (.completed o'.record.status digest receipts satisfies) ∧
      o'.record.resultDigest = some digest ∧ o'.record.status.isTerminal = true

inductive OperationsChange (id : EpisodeId) (s : DurableEpisodeState) (log : List GatewayEvent)
    (s' : DurableEpisodeState) : Prop where
  | kept (ho : s'.toolOperations = s.toolOperations)
  | planned {turn operations} (ho : s'.toolOperations = s.toolOperations ++ operations)
      (hs : s.status = .turnRecorded) (hs' : s'.status = .toolWorkPending) (ht' : s'.turns = s.turns)
      (ht : s.turns.getLast? = some turn)
      (hb : s.toolOperations.length + turn.semanticTurn.toolCalls.length ≤ s.policy.maxTotalToolOperations)
      (hp : PlannedCalls id turn.record s.nextInputDigest log 0 turn.semanticTurn.toolCalls operations)
  | changed {index : Nat} {o o'} (hg : s.toolOperations[index]? = some o)
      (ho : s'.toolOperations = s.toolOperations.set index o') (hc : OperationChange log s o o')

omit [Sha256] in
theorem unfinished_of_canTransitionTo {status next : ToolOperationStatus}
    (h : status.canTransitionTo next = true) : status.isTerminal = false := by
  cases status <;> first | rfl | exact absurd h (by simp [ToolOperationStatus.canTransitionTo])

variable {o : DurableToolOperation}

omit [Sha256] in
theorem dispatchRecord_change {record : ToolOperationRecord}
    (h : dispatchRecord o.record = .ok record) : OperationChange log s o { o with record := record } := by
  obtain ⟨hspec, hresult, hcase⟩ := dispatchRecord_ok h
  refine ⟨?_, hspec, rfl, ?_, .inl ⟨hresult, ?_⟩⟩
  · rcases hcase with ⟨hs, _⟩ | ⟨hs | hs | hs, _⟩ | ⟨hs, _⟩ <;> rw [hs] <;> rfl
  · rcases hcase with ⟨hs, rfl⟩ | ⟨hs | hs | hs, rfl⟩ | ⟨hs, rfl⟩
    · exact .inr (.inr (.inl ⟨hs, rfl⟩))
    · exact .inr (.inr (.inr ⟨hs, rfl⟩))
    · exact .inr (.inl (by rw [hs]; rfl))
    · exact .inl (by rw [hs])
    · exact .inl rfl
  · rcases hcase with ⟨hs, rfl⟩ | ⟨hs | hs | hs, rfl⟩ | ⟨hs, rfl⟩
    · rfl
    · rfl
    · rfl
    · rfl
    · rw [hs]
      rfl

theorem EpisodeStep.operationsChange (h : EpisodeStep id s log s') : OperationsChange id s log s' := by
  cases h with
  | moved | prepared | dispatched | recovered | turned | refused | unknown | toolsFinished | continued | resumed =>
    exact .kept rfl
  | planned hs ht hb hw hp => exact .planned rfl hs rfl rfl ht hb hp
  | toolDispatched hs hg hd => exact .changed hg rfl (dispatchRecord_change hd)
  | toolCompleted hs hg he hi ht hr hc hv =>
    exact .changed hg rfl ⟨unfinished_of_canTransitionTo hc, rfl, rfl, .inr (.inl hc),
      .inr ⟨_, _, _, _, hi, he, rfl, ht⟩⟩
  | toolRunning hs hg he hi hc =>
    rcases hc with hc | hc
    · exact .changed hg rfl ⟨by rw [hc]; rfl, rfl, rfl, .inl hc.symm, .inl ⟨rfl, rfl⟩⟩
    · exact .changed hg rfl ⟨unfinished_of_canTransitionTo hc, rfl, rfl, .inr (.inl hc), .inl ⟨rfl, rfl⟩⟩
  | toolSuspended hs hg he hi hc =>
    rcases hc with ⟨hc, rfl⟩ | ⟨hc, rfl⟩
    · exact .changed hg rfl ⟨by rw [hc]; rfl, rfl, rfl, .inl hc.symm, .inl ⟨rfl, rfl⟩⟩
    · exact .changed hg rfl ⟨unfinished_of_canTransitionTo hc, rfl, rfl, .inr (.inl hc), .inl ⟨rfl, rfl⟩⟩
  | cancelRequested ht ha ho hn =>
    rcases ho with rfl | ⟨index, o, hg, hs, rfl⟩
    · exact .kept rfl
    · exact .changed hg rfl ⟨by rw [hs]; rfl, rfl, rfl, .inr (.inl (by rw [hs]; rfl)), .inl ⟨rfl, rfl⟩⟩

theorem OperationsChange.finished (h : OperationsChange id s log s')
    (hm : o ∈ s.toolOperations) (ht : o.record.status.isTerminal = true) : o ∈ s'.toolOperations := by
  cases h with
  | kept ho => exact ho ▸ hm
  | planned ho _ _ _ _ _ _ => exact ho ▸ List.mem_append_left _ hm
  | @changed index p p' hg ho hc =>
    obtain ⟨i, hi⟩ := List.mem_iff_getElem?.mp hm
    have hne : index ≠ i := by
      rintro rfl
      obtain rfl : p = o := Option.some.inj (hg.symm.trans hi)
      exact absurd ht (by simp [hc.unfinished])
    rw [ho]
    refine List.mem_of_getElem? (i := i) ?_
    rw [List.getElem?_set_ne hne]
    exact hi

theorem PlannedCalls.length {turn : TurnRecord} {inputDigest : Sha256Digest} {index : Nat}
    {calls : List GatewayToolCall} {operations : List DurableToolOperation}
    (h : PlannedCalls id turn inputDigest log index calls operations) : operations.length = calls.length := by
  induction h with
  | nil => rfl
  | cons _ _ ih => simp [ih]

end AlloyPort

/-! Episodes whose requests run one after another with fixed gateway replies. Their stores can be
computed, and every one of them is reachable. -/

namespace AlloyPort

open SharedStore

abbrev EpisodeConfig :=
  Config EpisodeId DurableEpisodeState GatewayCall EpisodeRepositoryError GatewayReply AgentLoopRuntimeError
    (AgentLoopAdvance ⊕ EpisodeStatus)

abbrev EpisodeStore := (EpisodeId → List DurableEpisodeState) × List GatewayEvent

abbrev Oracle := (c : GatewayCall) → GatewayReply c

def constantOracle (model : ModelGatewayOutcome) (descriptor : Option RuntimeToolDescriptor)
    (validation : Except ToolInputRejection Unit) (tool : ToolGatewayOutcome) : Oracle
  | .invoke _ => .ok model
  | .descriptor _ => descriptor
  | .validateCall _ => validation
  | .execute _ => .ok tool
  | .reconcile _ => .ok tool
  | .shouldCrash _ => false

def createEpisode (store : EpisodeStore) (state : DurableEpisodeState) : EpisodeStore :=
  (Function.update store.1 state.episodeId [state], store.2)

def emptyStore : EpisodeStore := (fun _ => [], [])

variable [Sha256]

def runScript (id : EpisodeId) (script : List (RunnerRequest × Oracle)) (store : EpisodeStore) : EpisodeStore :=
  runAll DurableEpisodeState.episodeId (.adapter "") (script.map fun step => (step.1.program id, step.2)) store

variable {answers : (c : GatewayCall) → GatewayReply c → Prop} {store : EpisodeStore}

def Replayed (answers : (c : GatewayCall) → GatewayReply c → Prop) (store : EpisodeStore) : Prop :=
  Reachable (episodeEnv answers) (⟨store.1, store.2, []⟩ : EpisodeConfig)

theorem replayed_empty : Replayed answers emptyStore := .refl

theorem Replayed.create {state : DurableEpisodeState} (h : Replayed answers store) (hf : Fresh state)
    (hn : store.1 state.episodeId = []) : Replayed answers (createEpisode store state) :=
  h.tail (.create state hf hn)

theorem steps_runScript (id : EpisodeId) (script : List (RunnerRequest × Oracle))
    (ha : ∀ step ∈ script, ∀ c, answers c (step.2 c)) (store : EpisodeStore) :
    Relation.ReflTransGen (Step (episodeEnv answers)) (⟨store.1, store.2, []⟩ : EpisodeConfig)
      ⟨(runScript id script store).1, (runScript id script store).2, []⟩ := by
  refine steps_runAll (fun x hx => ?_) store.1 store.2 []
  obtain ⟨step, hm, rfl⟩ := List.mem_map.mp hx
  exact ⟨⟨id, step.1, rfl⟩, ha step hm⟩

theorem Replayed.run (h : Replayed answers store) (id : EpisodeId) (script : List (RunnerRequest × Oracle))
    (ha : ∀ step ∈ script, ∀ c, answers c (step.2 c)) : Replayed answers (runScript id script store) :=
  h.trans (steps_runScript id script ha store)

theorem Replayed.frame (h : Replayed answers store) {id e : EpisodeId} (he : e ≠ id)
    {script : List (RunnerRequest × Oracle)} (ha : ∀ step ∈ script, ∀ c, answers c (step.2 c)) :
    (runScript id script store).1 e = store.1 e := by
  induction script generalizing store with
  | nil => rfl
  | cons step script ih =>
    have hstep := ha step List.mem_cons_self
    have hfirst : Replayed answers (runScript id [step] store) :=
      h.run id [step] fun x hx => List.mem_singleton.mp hx ▸ hstep
    have hrest := ih hfirst fun x hx => ha x (List.mem_cons_of_mem _ hx)
    refine hrest.trans ?_
    exact runAlone_frame hstep he (complies answers id _ ⟨step.1, rfl⟩) ((h.sound (complies answers)).keyed id)

def sampleEpisode (id : EpisodeId) : DurableEpisodeState where
  schemaVersion := durableEpisodeStateSchemaV2
  episode := ⟨1, {
    id := id
    taskId := ⟨"task", Eq.refl false⟩
    searchRunId := ⟨"search", Eq.refl false⟩
    parentCandidateId := none
    subtaskContractDigest := ⟨[1]⟩
    contextProjectionDigest := ⟨[2]⟩
    inputArtifactRootDigest := ⟨[3]⟩
    runtimeModelAlias := "model"
    resolvedModelDigest := ⟨[4]⟩
    promptRevision := "prompt"
    toolCatalogDigest := ⟨[5]⟩
    loopPolicyDigest := ⟨[6]⟩
    dataBoundaryPolicyDigest := ⟨[7]⟩
    budgetSnapshotDigest := ⟨[8]⟩ }, .created⟩
  policy := ⟨4, 8, 2, 2, 8, 1⟩
  initialInputDigest := ⟨[9]⟩
  nextInputDigest := ⟨[9]⟩
  resolvedModelDigest := ⟨[4]⟩
  deploymentDigest := ⟨[10]⟩
  modelProfileDigest := ⟨[11]⟩
  requestBudgetDigest := ⟨[12]⟩
  attempts := []
  turns := []
  toolOperations := []
  ambiguousModelAttempts := 0
  stopFeedbackTurns := 0
  subtaskSatisfied := false
  cancellationRequested := false
  grants := []

omit [Sha256] in
theorem sampleEpisode_fresh (id : EpisodeId) : Fresh (sampleEpisode id) := by
  refine ⟨(sampleEpisode id).episode.spec, ⟨(sampleEpisode id).episode, ⟨4, 8, 2, 2, 8, 1⟩, ⟨[9]⟩, ⟨[4]⟩, ⟨[10]⟩,
    ⟨[11]⟩, ⟨[12]⟩⟩, ?_, rfl⟩
  have hmodel : isBlank "model" = false := by decide
  have hprompt : isBlank "prompt" = false := by decide
  simp only [AgentEpisodeRecord.new, sampleEpisode, requireText, hmodel, hprompt]
  rfl

def sampleId : EpisodeId := ⟨"episode", by decide⟩

def sampleTurn : ModelGatewayOutcome :=
  .turn ⟨⟨["done"], [⟨"call-1", "tool", []⟩], .toolCalls, none⟩, ⟨[20]⟩, ⟨[21]⟩⟩

def sampleOracle : Oracle :=
  constantOracle sampleTurn (some ⟨"tool", "1", .readOnly, .verifiedReference⟩) (.ok ())
    (.completed .succeeded ⟨[22]⟩ [] true)

def sampleScript : List (RunnerRequest × Oracle) :=
  List.replicate 5 (.advance, sampleOracle)

@[irreducible] def sampleStore : EpisodeStore :=
  @runScript transparentSha256 sampleId sampleScript (createEpisode emptyStore (sampleEpisode sampleId))

theorem replayed_sample (id : EpisodeId) : Replayed answers (createEpisode emptyStore (sampleEpisode id)) :=
  replayed_empty.create (sampleEpisode_fresh id) rfl

theorem Replayed.runSample (h : Replayed answers store) (id : EpisodeId) (ha : ∀ c, answers c (sampleOracle c)) :
    Replayed answers (runScript id sampleScript store) := by
  refine h.run id sampleScript fun step hm => ?_
  rw [List.eq_of_mem_replicate hm]
  exact ha

omit [Sha256] in
theorem sampleStore_run (ha : ∀ c, answers c (sampleOracle c)) : @Replayed transparentSha256 answers sampleStore := by
  unfold sampleStore
  exact @Replayed.runSample transparentSha256 _ _ (@replayed_sample transparentSha256 _ sampleId) sampleId ha

def scriptedStore (script : List (RunnerRequest × Oracle)) : EpisodeStore :=
  @runScript transparentSha256 sampleId script (createEpisode emptyStore (sampleEpisode sampleId))

omit [Sha256] in
theorem scriptedStore_replayed (script : List (RunnerRequest × Oracle)) :
    @Replayed transparentSha256 (fun _ _ => True) (scriptedStore script) :=
  @Replayed.run transparentSha256 _ _ (@replayed_sample transparentSha256 _ sampleId) _ _ fun _ _ _ => trivial

/-- The entries of a list stand in a later one where they stood, the closed ones as they were; others may follow. -/
def Continues {α β : Type} (identity : α → β) (closed : α → Prop) (l l' : List α) : Prop :=
  ∀ (i : Nat) a, l[i]? = some a → ∃ a', l'[i]? = some a' ∧ identity a' = identity a ∧ (closed a → a' = a)

structure Extends (s s' : DurableEpisodeState) : Prop where
  turns : s.turns <+: s'.turns
  attempts : Continues ModelAttemptRecord.spec (fun a => a.status ≠ .prepared ∧ a.status ≠ .dispatching)
    s.attempts s'.attempts
  operations : Continues (fun o : DurableToolOperation => (o.record.spec, o.call))
    (fun o => o.record.status.isTerminal = true) s.toolOperations s'.toolOperations

section continuing

variable {α β : Type} {identity : α → β} {closed : α → Prop} {l l' l'' : List α} {a a' : α}

omit [Sha256]

theorem Continues.refl : Continues identity closed l l := fun _ a h => ⟨a, h, rfl, fun _ => rfl⟩

theorem Continues.trans (h : Continues identity closed l l') (h' : Continues identity closed l' l'') :
    Continues identity closed l l'' := by
  intro i a ha
  obtain ⟨b, hb, hsame, hkept⟩ := h i a ha
  obtain ⟨c, hc, hsame', hkept'⟩ := h' i b hb
  refine ⟨c, hc, hsame'.trans hsame, fun hclosed => ?_⟩
  obtain rfl := hkept hclosed
  exact hkept' hclosed

theorem Continues.append : Continues identity closed l (l ++ l') := fun _ a h =>
  ⟨a, List.getElem?_append_left (List.getElem?_eq_some_iff.mp h).choose ▸ h, rfl, fun _ => rfl⟩

theorem Continues.set {i : Nat} (ha : l[i]? = some a) (hopen : ¬ closed a) (hsame : identity a' = identity a) :
    Continues identity closed l (l.set i a') := by
  intro j b hb
  by_cases heq : i = j
  · subst heq
    obtain rfl : a = b := Option.some.inj (ha.symm.trans hb)
    exact ⟨a', List.getElem?_set_self (List.getElem?_eq_some_iff.mp ha).choose, hsame, fun h => absurd h hopen⟩
  · exact ⟨b, (List.getElem?_set_ne heq).trans hb, rfl, fun _ => rfl⟩

theorem Continues.last (hopen : ¬ closed a) (hsame : identity a' = identity a) :
    Continues identity closed (l ++ [a]) (l ++ [a']) := by
  have hset := Continues.set (l := l ++ [a]) (i := l.length) (by simp) hopen hsame
  simpa using hset

end continuing

variable {id : EpisodeId} {s s' : DurableEpisodeState} {log : List GatewayEvent}

theorem EpisodeStep.extends (h : EpisodeStep id s log s') : Extends s s' := by
  have hattempts : s.turns <+: s'.turns ∧ Continues ModelAttemptRecord.spec
      (fun a => a.status ≠ .prepared ∧ a.status ≠ .dispatching) s.attempts s'.attempts := by
    cases h.attemptsChange with
    | kept ha ht => exact ⟨ht ▸ List.prefix_rfl, ha ▸ .refl⟩
    | pushed ha ht => exact ⟨ht ▸ List.prefix_rfl, ha ▸ .append⟩
    | dispatched ha ha' ht hp => exact ⟨ht ▸ List.prefix_rfl, ha' ▸ ha ▸ .last (by simp [hp]) rfl⟩
    | decoded ha ha' ht hs hp => exact ⟨ht ▸ List.prefix_append _ _, ha' ▸ ha ▸ .last (by simp [hp]) hs⟩
    | ended ha ha' ht hs hp => exact ⟨ht ▸ List.prefix_rfl, ha' ▸ ha ▸ .last (by simp [hp]) hs⟩
  refine ⟨hattempts.1, hattempts.2, ?_⟩
  cases h.operationsChange with
  | kept ho => exact ho ▸ .refl
  | planned ho => exact ho ▸ .append
  | changed hg ho hc => exact ho ▸ .set hg (by simp [hc.unfinished]) (by rw [hc.spec, hc.call])

/-- Whatever the runners of an episode do, and wherever they are stopped, a later version keeps the history of an
earlier one: its turns, its attempts and operations in their places, and what has ended as it ended. -/
theorem history_only_grows {c : EpisodeConfig} (h : Reachable (episodeEnv answers) c) {m n : Nat} (hmn : m ≤ n)
    (hs : (c.store id)[m]? = some s) (hs' : (c.store id)[n]? = some s') : Extends s s' := by
  refine (h.sound (complies answers)).stable (I := Extends s) (fun t log t' hstep ht => ?_) hmn hs hs'
    ⟨List.prefix_rfl, .refl, .refl⟩
  have hnext := EpisodeStep.extends hstep
  exact ⟨ht.turns.trans hnext.turns, ht.attempts.trans hnext.attempts, ht.operations.trans hnext.operations⟩

omit [Sha256] in
theorem history_only_grows_sample : ∃ s s', (sampleStore.1 sampleId)[2]? = some s ∧
    (sampleStore.1 sampleId)[7]? = some s' ∧ Extends s s' := by
  have hlater : ((sampleStore.1 sampleId)[2]?.isSome && (sampleStore.1 sampleId)[7]?.isSome) = true := by decide +kernel
  obtain ⟨s, hs⟩ := Option.isSome_iff_exists.mp (Bool.and_elim_left hlater)
  obtain ⟨s', hs'⟩ := Option.isSome_iff_exists.mp (Bool.and_elim_right hlater)
  exact ⟨s, s', hs, hs', @history_only_grows transparentSha256 (fun _ _ => True) _ s s'
    ⟨sampleStore.1, sampleStore.2, []⟩ (sampleStore_run fun _ => trivial) 2 7 (by decide) hs hs'⟩

end AlloyPort
