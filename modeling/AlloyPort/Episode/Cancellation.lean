import AlloyPort.Library.Task
import AlloyPort.Episode.Shape

/-! What a cancelled episode may still do. As long as its tool work is not reopened with operations that
were never dispatched, nothing new is sent to a model or to a tool until the episode is resumed. -/

namespace AlloyPort

open Effect SharedStore DurableEpisodeState

def IsCancelled (s : DurableEpisodeState) : Prop :=
  s.cancellationRequested = true ∧ (s.status = .suspended ∨ s.status = .cancellationPending)

/-- The save reopens the tool work of a suspended episode with an operation that was never dispatched. -/
def ReopensRequested (s s' : DurableEpisodeState) : Prop :=
  s.status = .suspended ∧ s'.status = .toolWorkPending ∧ ∃ o ∈ s.toolOperations, o.record.status = .requested

/-- The save of a resumption: the cancellation request ends with the run it belongs to. -/
def Uncancels (s s' : DurableEpisodeState) : Prop :=
  s.cancellationRequested = true ∧ s'.cancellationRequested = false

structure Silent (s : DurableEpisodeState) : Prop where
  flagged : s.cancellationRequested = true
  status : s.status = .suspended ∨ s.status = .toolWorkPending ∨ s.status = .readyForModel ∨
    s.status = .cancellationPending ∨ s.status.isTerminal = true
  dispatched : s.status = .toolWorkPending → ∀ o ∈ s.toolOperations, o.record.status ≠ .requested

variable [Sha256] {id : EpisodeId} {s s' : DurableEpisodeState} {log : List GatewayEvent}

section steps

omit [Sha256] in
theorem not_canTransitionTo_requested (status : ToolOperationStatus) : status.canTransitionTo .requested = false := by
  cases status <;> rfl

omit [Sha256] in
theorem OperationChange.dispatched {o o' : DurableToolOperation} (h : OperationChange log s o o')
    (ho : o.record.status ≠ .requested) : o'.record.status ≠ .requested := by
  intro hr
  rcases h.moved with hm | hm | ⟨hm, _⟩ | ⟨_, hm⟩
  · exact ho (hm ▸ hr)
  · rw [hr, not_canTransitionTo_requested] at hm
    cases hm
  · exact ho hm
  · rw [hr] at hm
    cases hm

theorem OperationsChange.dispatched (h : OperationsChange id s log s') (hs : s.status ≠ .turnRecorded)
    (ho : ∀ o ∈ s.toolOperations, o.record.status ≠ .requested) :
    ∀ o ∈ s'.toolOperations, o.record.status ≠ .requested := by
  cases h with
  | kept hk => exact hk ▸ ho
  | planned _ hturned => exact absurd hturned hs
  | changed hg hset hc =>
    intro o hm
    rw [hset] at hm
    rcases List.mem_or_eq_of_mem_set hm with hm | rfl
    · exact ho o hm
    · exact hc.dispatched (ho _ (List.mem_of_getElem? hg))

omit [Sha256] in
theorem Silent.working (h : Silent s) : s.status ≠ .turnRecorded ∧ s.status ≠ .modelAttemptPending ∧
    s.status ≠ .stopReview ∧ s.status ≠ .created := by
  refine ⟨?_, ?_, ?_, ?_⟩ <;> intro heq <;> simpa [heq, EpisodeStatus.isTerminal] using h.status

theorem Silent.reopened (h : Silent s) (hs : EpisodeStep id s log s') (hne : s.status ≠ .toolWorkPending)
    (hs' : s'.status = .toolWorkPending) : s.status = .suspended ∧ s'.toolOperations = s.toolOperations := by
  obtain ⟨hrecorded, hattempt, _⟩ := h.working
  cases hs with
  | moved hm => cases hm <;> simp_all
  | planned hs => exact absurd hs hrecorded
  | dispatched hs | recovered hs | refused hs | unknown hs => exact absurd hs hattempt
  | toolDispatched hs | toolCompleted hs | toolRunning hs => exact absurd hs hne
  | cancelRequested ht ha ho hn => rcases hn with ⟨rfl, _⟩ | ⟨rfl, _⟩ <;> cases hs'
  | prepared | turned | toolSuspended | toolsFinished | continued | resumed => cases hs'

theorem Silent.step (h : Silent s) (hs : EpisodeStep id s log s') (hu : ¬ Uncancels s s')
    (hr : ¬ ReopensRequested s s') : Silent s' := by
  have hflag : s'.cancellationRequested = true := by
    by_contra hflag
    exact hu ⟨h.flagged, by simpa using hflag⟩
  obtain ⟨hrecorded, hattempt, hreview, hcreated⟩ := h.working
  have hkept := hs.operationsChange.dispatched hrecorded
  refine ⟨hflag, ?_, ?_⟩
  · cases hs with
    | moved hm => cases hm <;> simp_all [EpisodeStatus.isTerminal]
    | prepared hs hc => simp [h.flagged] at hc
    | dispatched hs | recovered hs | turned hs | refused hs | unknown hs => exact absurd hs hattempt
    | planned hs => exact absurd hs hrecorded
    | toolDispatched hs | toolCompleted hs | toolRunning hs => exact .inr (.inl hs)
    | toolSuspended hs => exact .inl rfl
    | toolsFinished hs => exact .inr (.inr (.inl rfl))
    | continued hs => exact absurd hs hreview
    | resumed hs => cases hflag
    | cancelRequested ht ha ho hn =>
      rcases hn with ⟨rfl, _⟩ | ⟨rfl, _⟩
      · exact .inl rfl
      · exact .inr (.inr (.inr (.inl rfl)))
  · intro hpending
    by_cases hs' : s.status = .toolWorkPending
    · exact hkept (h.dispatched hs')
    · have hreopened := h.reopened hs hs' hpending
      intro o hm ho
      exact hr ⟨hreopened.1, hpending, o, hreopened.2 ▸ hm, ho⟩

end steps

omit [Sha256] in
theorem IsCancelled.silent (h : IsCancelled s) : Silent s := by
  obtain ⟨hflag, hs | hs⟩ := h
  · exact ⟨hflag, .inl hs, fun hpending => by rw [hs] at hpending; cases hpending⟩
  · exact ⟨hflag, .inr (.inr (.inr (.inl hs))), fun hpending => by rw [hs] at hpending; cases hpending⟩

omit [Sha256] in
/-- What `request_cancellation` saves is cancelled. -/
theorem requestCancellation_saves :
    Performs (fun o => ∀ revision s, o = Op.save revision s →
    IsCancelled s) (AgentLoopRunner.requestCancellation id) := by
  have hstep : ∀ {α β : Type} {x : Except AgentLoopRuntimeError α} {f : α → RunnerProg β} {allowed : _ → Prop},
      (∀ a, x = .ok a → Performs allowed (f a)) → Performs allowed (.attempt x >>= f) := by
    intro α β x f allowed hf
    cases x with
    | error e => trivial
    | ok a => exact hf a rfl
  refine performs_bind ⟨nofun, fun reply => ?_⟩ fun versioned => ?_
  · cases reply <;> trivial
  · dsimp only
    split
    · trivial
    · refine hstep fun s₁ h₁ => hstep fun s₂ h₂ => hstep fun s₃ h₃ =>
        performs_bind ⟨?_, fun reply => ?_⟩ fun _ => trivial
      · obtain ⟨attempts, rfl, -⟩ := cancelLastAttempt_ok h₁
        obtain ⟨operations, rfl, -⟩ := cancelFirstDispatching_ok h₂
        obtain ⟨next, rfl, hnext⟩ := cancelStatus_ok h₃
        rintro _ _ ⟨⟩
        exact ⟨rfl, hnext.imp And.left And.left⟩
      · cases reply <;> trivial

variable {answers : (c : GatewayCall) → GatewayReply c → Prop} {c c' : EpisodeConfig}

theorem Sound.silent (h : Sound (episodeEnv answers) episodeProtocol c) {n : Nat}
    (hg : ∀ (i : Nat) s s', n ≤ i → (c.store id)[i]? = some s → (c.store id)[i + 1]? = some s' →
      ¬ Uncancels s s' ∧ ¬ ReopensRequested s s')
    (hs : (c.store id)[n]? = some s) (hc : IsCancelled s) {m : Nat} (hm : n ≤ m)
    (hs' : (c.store id)[m]? = some s') : Silent s' := by
  refine h.stableWith (I := Silent) ?_ hm hg hs hs' hc.silent
  intro t log t' hstep hguard ht
  exact ht.step hstep hguard.1 hguard.2

/-- A cancelled episode sends no model attempt and no tool operation that was not dispatched before, until it
is resumed; provided that no runner stands behind the dispatch marker of a model attempt when it is
cancelled, and that its tool work is not reopened with an operation that was never dispatched. -/
theorem cancelled_sends_nothing_new (h : Reachable (episodeEnv answers) c) (hs : (c.store id).getLast? = some s)
    (hc : IsCancelled s) (hsteps : Relation.ReflTransGen (Step (episodeEnv answers)) c c')
    (hquiet : ∀ t ∈ c.tasks, t.1 = id → ∀ request, ¬ MayCall (episodeEnv answers) (.invoke request) t.2)
    (hg : ∀ (i : Nat) s s', (c.store id).length ≤ i + 1 → (c'.store id)[i]? = some s →
      (c'.store id)[i + 1]? = some s' → ¬ Uncancels s s' ∧ ¬ ReopensRequested s s') :
    ∀ t ∈ c'.tasks, t.1 = id → (∀ request next, t.2 ≠ .op (.call (.invoke request)) next) ∧
      ∀ invocation next, t.2 = .op (.call (.execute invocation)) next → ∃ v ∈ c.store id, ∃ o ∈ v.toolOperations,
        o.record.id = invocation.operationId ∧ o.record.status = .dispatching := by
  have hcomplies := complies answers
  obtain ⟨hsound, hlate⟩ := Late.steps (h.sound hcomplies) hcomplies hsteps
  have hpos : 0 < (c.store id).length := List.length_pos_of_mem (List.mem_of_getLast? hs)
  have hcurrent : (c'.store id)[(c.store id).length - 1]? = some s := by
    rw [List.getLast?_eq_getElem?] at hs
    exact hlate.1 id _ s hs
  have hsilent : ∀ m s', (c.store id).length ≤ m + 1 → (c'.store id)[m]? = some s' → Silent s' := by
    intro m s' hm hs'
    refine Sound.silent hsound (fun i t t' hi => hg i t t' (by omega)) hcurrent hc (by omega) hs'
  rintro ⟨k, p⟩ hm hk
  obtain rfl : k = id := hk
  constructor
  · rintro request next rfl
    obtain ⟨v, r, hheld, hr, hmints, hcalls, hlater | ⟨t, ht, hk, hmay⟩⟩ := hlate.call hm rfl
    · have hv := hsilent v.revision v.state (by omega) hheld.current
      have hstatus := hv.status
      rw [hcalls.1] at hstatus
      simp [EpisodeStatus.isTerminal] at hstatus
    · exact hquiet t ht hk request hmay
  · rintro invocation next rfl
    obtain ⟨v, r, hheld, hr, hmints, hcalls, _⟩ := hlate.call hm rfl
    obtain ⟨n, hn, hreplaced⟩ := hheld.replaced r hr
    obtain ⟨i, o, ho, hrequested, hid, ho'⟩ := hmints
    by_cases hbefore : v.revision < (c.store k).length
    · -- the dispatch marker is older than the cancellation
      obtain ⟨w, hw⟩ : ∃ w, (c.store k)[v.revision]? = some w := ⟨_, List.getElem?_eq_getElem hbefore⟩
      obtain rfl : w = v.state := Option.some.inj ((hlate.1 k _ w hw).symm.trans hheld.current)
      exact ⟨v.state, List.mem_of_getElem? hw, _, List.mem_of_getElem? ho', hid, rfl⟩
    · have hr' := hsilent n r (by omega) hreplaced
      obtain ⟨log, _, hstep⟩ := hsound.linked k n r v.state hreplaced (by rw [← hn]; exact hheld.current)
      by_cases hpending : r.status = .toolWorkPending
      · exact absurd hrequested (hr'.dispatched hpending o (List.mem_of_getElem? ho))
      · have hkept := (hr'.reopened hstep hpending hcalls.1).2
        rw [hkept, ho] at ho'
        have hstatus := congrArg (fun o => o.record.status) (Option.some.inj ho')
        rw [hrequested] at hstatus
        cases hstatus

def interruptedOracle (calls : List GatewayToolCall) : Oracle
  | .invoke _ => .ok (.turn ⟨⟨["go"], calls, .toolCalls, none⟩, ⟨[20]⟩, ⟨[21]⟩⟩)
  | .descriptor _ => some ⟨"tool", "1", .readOnly, .verifiedReference⟩
  | .validateCall _ => .ok ()
  | .execute _ => .ok (.ambiguous ⟨[23]⟩)
  | .reconcile _ => .ok (.completed .succeeded ⟨[22]⟩ [] false)
  | .shouldCrash _ => false

@[irreducible] def cancelledStore (calls : List GatewayToolCall) : EpisodeStore :=
  scriptedStore (List.replicate 5 (RunnerRequest.advance, interruptedOracle calls) ++
    [(RunnerRequest.requestCancellation, interruptedOracle calls)])

@[irreducible] def resumedStore (calls : List GatewayToolCall) (advances : Nat) : EpisodeStore :=
  @runScript transparentSha256 sampleId ((.resumeReconciliation, interruptedOracle calls) ::
    List.replicate advances (.advance, interruptedOracle calls)) (cancelledStore calls)

@[irreducible] def reopenedRun (calls : List GatewayToolCall) (advances : Nat) :
    RunnerProg (AgentLoopAdvance ⊕ EpisodeStatus) × EpisodeStore :=
  runUntil DurableEpisodeState.episodeId (.adapter "") (interruptedOracle calls)
    (fun c => c matches .execute _ | .reconcile _) (@RunnerRequest.program transparentSha256 sampleId .advance)
    (resumedStore calls advances)

abbrev sampleEnv := @episodeEnv transparentSha256 fun _ _ => True

section samples

omit [Sha256]

theorem cancelledStore_replayed (calls : List GatewayToolCall) :
    @Replayed transparentSha256 (fun _ _ => True) (cancelledStore calls) := by
  unfold cancelledStore
  exact scriptedStore_replayed _

theorem reopenedRun_steps (calls : List GatewayToolCall) (advances : Nat) :
    Relation.ReflTransGen (Step sampleEnv)
      (⟨(cancelledStore calls).1, (cancelledStore calls).2, []⟩ : EpisodeConfig)
      ⟨(reopenedRun calls advances).2.1, (reopenedRun calls advances).2.2,
        [(sampleId, (reopenedRun calls advances).1)]⟩ := by
  have hreopened : Relation.ReflTransGen (Step sampleEnv)
      (⟨(cancelledStore calls).1, (cancelledStore calls).2, []⟩ : EpisodeConfig)
      ⟨(resumedStore calls advances).1, (resumedStore calls advances).2, []⟩ := by
    unfold resumedStore
    exact @steps_runScript transparentSha256 _ sampleId _ (fun _ _ _ => trivial) _
  unfold reopenedRun
  refine (hreopened.tail (.start sampleId _ ⟨.advance, rfl⟩)).trans ?_
  exact steps_runUntil (fun _ => trivial) sampleId _ _ _ [] []

def sampleCalls : List GatewayToolCall := [⟨"call-1", "tool", []⟩, ⟨"call-2", "tool", []⟩]

def executing {α : Type} : RunnerProg α → Option ToolInvocation
  | .op (.call (.execute invocation)) _ => some invocation
  | _ => none

theorem executing_eq {α : Type} {p : RunnerProg α} {invocation : ToolInvocation} (h : executing p = some invocation) :
    ∃ next, p = .op (.call (.execute invocation)) next := by
  unfold executing at h
  split at h
  · cases h
    exact ⟨_, rfl⟩
  · cases h

theorem sampleCalls_cancelled (calls : List GatewayToolCall)
    (h : ((cancelledStore calls).1 sampleId).getLast?.map (fun s => (s.cancellationRequested, s.status)) =
      some (true, .suspended)) :
    ∃ s, ((cancelledStore calls).1 sampleId).getLast? = some s ∧ IsCancelled s := by
  obtain ⟨s, hs, hstate⟩ := Option.map_eq_some_iff.mp h
  simp only [Prod.mk.injEq] at hstate
  exact ⟨s, hs, hstate.1, .inl hstate.2⟩

theorem all_drop_eight {versions : List DurableEpisodeState} {q : DurableEpisodeState → Bool}
    (h : (versions.drop 8).all q = true) (i : Nat) (s : DurableEpisodeState) (hi : 8 ≤ i) (hs : versions[i]? = some s) :
    q s = true := by
  refine List.all_eq_true.mp h s (List.mem_of_getElem? (i := i - 8) ?_)
  rw [List.getElem?_drop, Nat.add_sub_cancel' hi]
  exact hs

/-- The only call was dispatched before the cancellation, and is reconciled. -/
theorem cancelled_sends_nothing_new_sample :
    ¬ ∃ request next, (reopenedRun (sampleCalls.take 1) 0).1 = .op (.call (.invoke request)) next := by
  have hnothing : ∀ (store : EpisodeStore) (reopened : RunnerProg (AgentLoopAdvance ⊕ EpisodeStatus) × EpisodeStore),
      @Replayed transparentSha256 (fun _ _ => True) store → Relation.ReflTransGen (Step sampleEnv)
        ⟨store.1, store.2, []⟩ ⟨reopened.2.1, reopened.2.2, [(sampleId, reopened.1)]⟩ →
      ∀ s, (store.1 sampleId).getLast? = some s → IsCancelled s →
      (∀ (i : Nat) t t', (store.1 sampleId).length ≤ i + 1 → (reopened.2.1 sampleId)[i]? = some t →
        (reopened.2.1 sampleId)[i + 1]? = some t' → ¬ Uncancels t t' ∧ ¬ ReopensRequested t t') →
      ∀ request next, reopened.1 ≠ .op (.call (.invoke request)) next := by
    intro store reopened hreplayed hsteps s hs hc hcancelled
    exact (@cancelled_sends_nothing_new transparentSha256 sampleId s _ ⟨store.1, store.2, []⟩ _ hreplayed hs hc hsteps
      (fun t ht => by cases ht) hcancelled (sampleId, reopened.1) (List.mem_singleton_self _) rfl).1
  obtain ⟨⟨hlast, hlength⟩, hversions⟩ : (((cancelledStore (sampleCalls.take 1)).1 sampleId).getLast?.map (fun s =>
      (s.cancellationRequested, s.status)) = some (true, .suspended) ∧
        ((cancelledStore (sampleCalls.take 1)).1 sampleId).length = 9) ∧
      (((reopenedRun (sampleCalls.take 1) 0).2.1 sampleId).drop 8).all (fun s =>
        s.cancellationRequested && s.toolOperations.all fun o => o.record.status ≠ .requested) = true := by
    decide +kernel
  obtain ⟨s, hs, hc⟩ := sampleCalls_cancelled (sampleCalls.take 1) hlast
  rintro ⟨request, next, hinvokes⟩
  refine hnothing _ _ (cancelledStore_replayed _)
    (reopenedRun_steps (sampleCalls.take 1) 0) s hs hc ?_ request next hinvokes
  intro i t t' hi ht ht'
  rw [hlength] at hi
  have hbefore := all_drop_eight hversions i t (by omega) ht
  have hafter := all_drop_eight hversions (i + 1) t' (by omega) ht'
  simp only [Bool.and_eq_true, List.all_eq_true, decide_eq_true_eq] at hbefore hafter
  refine ⟨fun hu => ?_, fun ⟨_, _, o, ho, hrequested⟩ => hbefore.2 o ho hrequested⟩
  exact absurd (hafter.1.symm.trans hu.2) (by decide)

def dispatchedIds (store : EpisodeStore) : List ToolOperationId :=
  (store.1 sampleId).flatMap fun s =>
    (s.toolOperations.filter fun o => o.record.status = .dispatching).map (·.record.id)

theorem mem_dispatchedIds {store : EpisodeStore} {v : DurableEpisodeState} {o : DurableToolOperation}
    (hv : v ∈ store.1 sampleId) (ho : o ∈ v.toolOperations) (h : o.record.status = .dispatching) :
    o.record.id ∈ dispatchedIds store :=
  List.mem_flatMap.mpr ⟨v, hv, List.mem_map.mpr ⟨o, List.mem_filter.mpr ⟨ho, decide_eq_true h⟩, rfl⟩⟩

def secondOperationId : ToolOperationId :=
  ⟨"tool-2-sha256:657069736f64657c7475726e2d657069736f64652d317c317c746f6f6c7c317c7368613235363a7c7368613235363a3039",
    by decide +kernel⟩

/-- The sample with two calls, run once: the reopened episode is about to execute its second call, which was
never dispatched. -/
theorem reopened_executes_second :
    (((cancelledStore sampleCalls).1 sampleId).getLast?.map (fun s => (s.cancellationRequested, s.status)) =
        some (true, .suspended) ∧ ((cancelledStore sampleCalls).1 sampleId).length = 9 ∧
      secondOperationId ∉ dispatchedIds (cancelledStore sampleCalls)) ∧
    (executing (reopenedRun sampleCalls 1).1).map (·.operationId) = some secondOperationId ∧
    (((reopenedRun sampleCalls 1).2.1 sampleId).drop 8).all (·.cancellationRequested) = true := by
  decide +kernel

/-- A cancelled episode executes a call that was never dispatched. -/
theorem cancelled_executes_second :
    ¬ ∀ (c c' : EpisodeConfig) (id : EpisodeId) (s : DurableEpisodeState), Reachable sampleEnv c →
      (c.store id).getLast? = some s → IsCancelled s → Relation.ReflTransGen (Step sampleEnv) c c' → c.tasks = [] →
      (∀ (i : Nat) s s', (c.store id).length ≤ i + 1 → (c'.store id)[i]? = some s → (c'.store id)[i + 1]? = some s' →
        ¬ Uncancels s s') →
      ∀ t ∈ c'.tasks, t.1 = id → ∀ invocation next, t.2 = .op (.call (.execute invocation)) next →
        ∃ v ∈ c.store id, ∃ o ∈ v.toolOperations,
          o.record.id = invocation.operationId ∧ o.record.status = .dispatching := by
  intro hall
  have hdispatched : ∀ (store : EpisodeStore) (reopened : RunnerProg (AgentLoopAdvance ⊕ EpisodeStatus) × EpisodeStore),
      @Replayed transparentSha256 (fun _ _ => True) store → Relation.ReflTransGen (Step sampleEnv)
        ⟨store.1, store.2, []⟩ ⟨reopened.2.1, reopened.2.2, [(sampleId, reopened.1)]⟩ →
      ∀ s, (store.1 sampleId).getLast? = some s → IsCancelled s →
      (∀ (i : Nat) t t', (store.1 sampleId).length ≤ i + 1 → (reopened.2.1 sampleId)[i]? = some t →
        (reopened.2.1 sampleId)[i + 1]? = some t' → ¬ Uncancels t t') →
      ∀ invocation next, reopened.1 = .op (.call (.execute invocation)) next →
        invocation.operationId ∈ dispatchedIds store := by
    intro store reopened hreplayed hsteps s hs hc hcancelled invocation next hnext
    obtain ⟨v, hv, o, ho, hid, hdispatching⟩ := hall ⟨store.1, store.2, []⟩ _ sampleId s hreplayed hs hc hsteps rfl
      hcancelled (sampleId, reopened.1) (List.mem_singleton_self _) rfl invocation next hnext
    exact hid ▸ mem_dispatchedIds hv ho hdispatching
  obtain ⟨⟨hlast, hlength, hundispatched⟩, hexecutes, hflagged⟩ := reopened_executes_second
  obtain ⟨s, hs, hc⟩ := sampleCalls_cancelled sampleCalls hlast
  obtain ⟨invocation, hinvocation, hsecond⟩ := Option.map_eq_some_iff.mp hexecutes
  obtain ⟨next, hnext⟩ := executing_eq hinvocation
  have hcancelled : ∀ (i : Nat) t t', ((cancelledStore sampleCalls).1 sampleId).length ≤ i + 1 →
      ((reopenedRun sampleCalls 1).2.1 sampleId)[i]? = some t →
      ((reopenedRun sampleCalls 1).2.1 sampleId)[i + 1]? = some t' → ¬ Uncancels t t' := by
    intro i t t' hi _ ht' hu
    have hafter := all_drop_eight hflagged (i + 1) t' (by omega) ht'
    exact absurd (hafter.symm.trans hu.2) (by decide)
  have hmem := hdispatched _ _ (cancelledStore_replayed sampleCalls)
    (reopenedRun_steps sampleCalls 1) s hs hc hcancelled invocation next hnext
  exact hundispatched (hsecond ▸ hmem)

end samples

end AlloyPort
