import AlloyPort.Library.Task
import AlloyPort.Episode.Budget

/-! The tool operations of an episode: finished ones first, then at most one in flight, then those
that wait and those that were refused when they were planned. No program of the runner ends with an
error about its durable state. -/

namespace AlloyPort

open SharedStore DurableEpisodeState AgentLoopRunner ToolOperationStatus

def ToolOperationStatus.isInFlight : ToolOperationStatus → Bool
  | .dispatching | .running | .ambiguous | .reconciling => true
  | _ => false

def ToolOperationStatus.isPlanned : ToolOperationStatus → Bool
  | .requested | .rejectedAsInvalid => true
  | _ => false

structure Orderly (operations : List DurableToolOperation) : Prop where
  known : ∀ o ∈ operations, o.record.status.isTerminal = true ∨ o.record.status.isInFlight = true ∨
    o.record.status = .requested
  ordered : operations.Pairwise fun before after =>
    before.record.status.isTerminal = true ∨ after.record.status.isPlanned = true
  digests : ∀ o ∈ operations, o.record.resultDigest.isSome = o.record.status.isTerminal

def EpisodeStatus.hasWork : EpisodeStatus → Bool
  | .toolWorkPending | .suspensionRequested | .suspended | .cancellationPending | .cancelled => true
  | _ => false

structure Concordant (s : DurableEpisodeState) : Prop where
  orderly : Orderly s.toolOperations
  settled : s.status.hasWork = false → ∀ o ∈ s.toolOperations, o.record.status.isTerminal = true
  turned : (s.status = .turnRecorded ∨ s.status = .toolWorkPending ∨ s.status = .stopReview ∨ s.toolOperations ≠ []) →
    s.turns ≠ []
  opened : s.status = .modelAttemptPending → ∃ attempt, s.attempts.getLast? = some attempt ∧
    (attempt.status = .prepared ∨ attempt.status = .dispatching)
  decoded : s.turns.length = s.attempts.countP fun attempt => attempt.status = .decoded
  schema : s.schemaVersion = durableEpisodeStateSchemaV2

variable {operations : List DurableToolOperation} {s s' : DurableEpisodeState} {o : DurableToolOperation}

section orderly

variable {status : ToolOperationStatus} {index : Nat}

theorem isPlanned_cases (h : status.isPlanned = true) : status = .requested ∨ status = .rejectedAsInvalid := by
  cases status <;> simp [isPlanned] at h ⊢

theorem isTerminal_of_isInFlight (h : status.isInFlight = true) : status.isTerminal = false := by
  cases status <;> simp [isInFlight, isTerminal] at h ⊢

theorem inFlight_or_requested (h : Orderly operations) (hm : o ∈ operations) (ho : o.record.status.isTerminal = false) :
    o.record.status.isInFlight = true ∨ o.record.status = .requested := by
  rcases h.known o hm with ht | hk
  · rw [ho] at ht
    cases ht
  · exact hk

theorem Orderly.split (h : Orderly operations) : ∃ done inFlight waiting, operations = done ++ inFlight ++ waiting ∧
    (∀ o ∈ done, o.record.status.isTerminal = true) ∧ inFlight.length ≤ 1 ∧
    (∀ o ∈ inFlight, o.record.status.isInFlight = true) ∧ ∀ o ∈ waiting, o.record.status.isPlanned = true := by
  induction operations with
  | nil => exact ⟨[], [], [], rfl, by simp, by simp, by simp, by simp⟩
  | cons first rest ih =>
    obtain ⟨hfirst, hrest⟩ := List.pairwise_cons.mp h.ordered
    cases hterminal : first.record.status.isTerminal with
    | true =>
      obtain ⟨done, inFlight, waiting, rfl, hdone, hlength, hinFlight, hwaiting⟩ := ih
        ⟨fun o hm => h.known o (List.mem_cons_of_mem _ hm), hrest, fun o hm => h.digests o (List.mem_cons_of_mem _ hm)⟩
      exact ⟨first :: done, inFlight, waiting, rfl, by simpa [hterminal] using hdone, hlength, hinFlight, hwaiting⟩
    | false =>
      have hwaiting : ∀ o ∈ rest, o.record.status.isPlanned = true := fun o hm => by
        rcases hfirst o hm with ht | hp
        · rw [hterminal] at ht
          cases ht
        · exact hp
      rcases inFlight_or_requested h List.mem_cons_self hterminal with hf | hr
      · exact ⟨[], [first], rest, rfl, by simp, by simp, by simpa using hf, hwaiting⟩
      · exact ⟨[], [], first :: rest, rfl, by simp, by simp, by simp, by
          simpa [hr, isPlanned] using hwaiting⟩

theorem Orderly.filter (h : Orderly operations) (keep : DurableToolOperation → Bool) :
    Orderly (operations.filter keep) where
  known o hm := h.known o (List.mem_filter.mp hm).1
  ordered := h.ordered.sublist List.filter_sublist
  digests o hm := h.digests o (List.mem_filter.mp hm).1

theorem Orderly.set {o' : DurableToolOperation} (h : Orderly operations)
    (hg : operations[index]? = some o) (ho : o.record.status.isTerminal = false)
    (hb : ∀ before ∈ operations.take index, before.record.status.isTerminal = true)
    (hk : o'.record.status.isTerminal = true ∨ o'.record.status.isInFlight = true)
    (hd : o'.record.resultDigest.isSome = o'.record.status.isTerminal) : Orderly (operations.set index o') := by
  obtain ⟨hlt, hget⟩ := List.getElem?_eq_some_iff.mp hg
  have hsplit : operations = operations.take index ++ o :: operations.drop (index + 1) := by
    rw [← hget, List.getElem_cons_drop, List.take_append_drop]
  have hset : operations.set index o' = operations.take index ++ o' :: operations.drop (index + 1) :=
    List.set_eq_take_append_cons_drop .. |>.trans (if_pos hlt)
  obtain ⟨hknown, hordered, hdigests⟩ := h
  rw [hsplit] at hknown hordered hdigests
  rw [hset]
  obtain ⟨htake, hcons, hacross⟩ := List.pairwise_append.mp hordered
  obtain ⟨hafter, hdrop⟩ := List.pairwise_cons.mp hcons
  refine ⟨forall_replace hknown (hk.imp id .inl), List.pairwise_append.mpr ⟨htake, ?_, ?_⟩, forall_replace hdigests hd⟩
  · refine List.pairwise_cons.mpr ⟨fun after hm => .inr ?_, hdrop⟩
    rcases hafter after hm with ht | hp
    · rw [ho] at ht
      cases ht
    · exact hp
  · exact fun before hm _ _ => .inl (hb before hm)

theorem Orderly.before_inFlight (h : Orderly operations) (hg : operations[index]? = some o)
    (ho : o.record.status.isInFlight = true) :
    ∀ before ∈ operations.take index, before.record.status.isTerminal = true := by
  intro before hm
  obtain ⟨hlt, hget⟩ := List.getElem?_eq_some_iff.mp hg
  have hordered := h.ordered
  rw [← List.take_append_drop index operations] at hordered
  have hdrop : o ∈ operations.drop index := by
    rw [← hget, ← List.getElem_cons_drop (h := hlt)]
    exact List.mem_cons_self
  rcases (List.pairwise_append.mp hordered).2.2 before hm o hdrop with ht | hp
  · exact ht
  · rcases isPlanned_cases hp with hs | hs <;> rw [hs] at ho <;> cases ho

end orderly

section steps

variable [Sha256] {id : EpisodeId} {log : List GatewayEvent}
variable {index : Nat}

theorem PlannedCalls.planned {turn : TurnRecord} {inputDigest : Sha256Digest}
    {calls : List GatewayToolCall} {operations : List DurableToolOperation}
    (h : PlannedCalls id turn inputDigest log index calls operations) : ∀ o ∈ operations,
      o.record.status.isPlanned = true ∧ o.record.resultDigest.isSome = o.record.status.isTerminal := by
  induction h with
  | nil => simp
  | cons hc _ ih =>
    refine List.forall_mem_cons.mpr ⟨?_, ih⟩
    rcases hc.outcome with ⟨hs, hd⟩ | ⟨hs, digest, _, hd⟩
    · rw [hs, hd]
      exact ⟨rfl, rfl⟩
    · rw [hs, hd]
      exact ⟨rfl, rfl⟩

section orders

omit [Sha256]

theorem Orderly.append_planned {planned : List DurableToolOperation} (h : Orderly operations)
    (ht : ∀ o ∈ operations, o.record.status.isTerminal = true) (hp : ∀ o ∈ planned,
      o.record.status.isPlanned = true ∧ o.record.resultDigest.isSome = o.record.status.isTerminal) :
    Orderly (operations ++ planned) where
  known o hm := by
    rcases List.mem_append.mp hm with hm | hm
    · exact .inl (ht o hm)
    · rcases isPlanned_cases (hp o hm).1 with hs | hs
      · exact .inr (.inr hs)
      · exact .inl (by rw [hs]; rfl)
  ordered := by
    refine List.pairwise_append.mpr ⟨h.ordered, ?_, fun before hm _ _ => .inl (ht before hm)⟩
    exact List.pairwise_of_forall_mem_list fun _ _ after hm => .inr (hp after hm).1
  digests o hm := by
    rcases List.mem_append.mp hm with hm | hm
    · exact h.digests o hm
    · exact (hp o hm).2

theorem Orderly.inFlight_of_transition {next : ToolOperationStatus} (h : Orderly operations)
    (hg : operations[index]? = some o) (hc : o.record.status.canTransitionTo next = true)
    (hn : next ≠ .awaitingPermission ∧ next ≠ .authorized ∧ next ≠ .rejectedAsInvalid) :
    o.record.status.isInFlight = true := by
  rcases inFlight_or_requested h (List.mem_of_getElem? hg) (unfinished_of_canTransitionTo hc) with hf | hr
  · exact hf
  · rw [hr] at hc
    cases next <;> simp [canTransitionTo] at hc hn

theorem Orderly.set_inFlight {o' : DurableToolOperation} (h : Orderly operations)
    (hg : operations[index]? = some o) (ho : o.record.status.isInFlight = true)
    (hk : o'.record.status.isTerminal = true ∨ o'.record.status.isInFlight = true)
    (hd : o'.record.resultDigest.isSome = o'.record.status.isTerminal) : Orderly (operations.set index o') := by
  exact h.set hg (isTerminal_of_isInFlight ho) (h.before_inFlight hg ho) hk hd

theorem Orderly.set_status {status : ToolOperationStatus} (h : Orderly operations)
    (hg : operations[index]? = some o) (ho : o.record.status.isInFlight = true) (hs : status.isInFlight = true) :
    Orderly (operations.set index { o with record := { o.record with status := status } }) := by
  refine h.set_inFlight hg ho (.inr hs) ?_
  show o.record.resultDigest.isSome = status.isTerminal
  rw [h.digests o (List.mem_of_getElem? hg), isTerminal_of_isInFlight ho, isTerminal_of_isInFlight hs]

end orders

theorem EpisodeStep.orderly (h : EpisodeStep id s log s') (hc : Concordant s) : Orderly s'.toolOperations := by
  have ho := hc.orderly
  cases h with
  | planned hs _ _ _ hp => exact ho.append_planned (hc.settled (by rw [hs]; rfl)) hp.planned
  | @toolDispatched index o record _ hg hd hb =>
    obtain ⟨_, hresult, hcase⟩ := dispatchRecord_ok hd
    have hchange : OperationChange [] s o { o with record := record } := dispatchRecord_change hd
    have hinFlight : record.status.isInFlight = true := by
      rcases hcase with ⟨_, rfl⟩ | ⟨_, rfl⟩ | ⟨hst, rfl⟩
      · rfl
      · rfl
      · rw [hst]
        rfl
    refine ho.set hg hchange.unfinished hb (.inr hinFlight) ?_
    show record.resultDigest.isSome = record.status.isTerminal
    rw [hresult, ho.digests o (List.mem_of_getElem? hg), hchange.unfinished, isTerminal_of_isInFlight hinFlight]
  | @toolCompleted _ index o _ status _ _ _ _ hg _ _ ht hr hcan _ =>
    have hnext : status ≠ .awaitingPermission ∧ status ≠ .authorized ∧ status ≠ .rejectedAsInvalid := by
      refine ⟨?_, ?_, hr⟩
      · rintro rfl
        cases ht
      · rintro rfl
        cases ht
    exact ho.set_inFlight hg (ho.inFlight_of_transition hg hcan hnext) (.inl ht) ht.symm
  | toolRunning _ hg _ _ hcan =>
    rcases hcan with hst | hcan
    · exact ho.set_status hg (by rw [hst]; rfl) rfl
    · exact ho.set_status hg (ho.inFlight_of_transition hg hcan (by simp)) rfl
  | toolSuspended _ hg _ _ hcan =>
    rcases hcan with ⟨hst, rfl⟩ | ⟨hcan, rfl⟩
    · exact ho.set_status hg (by rw [hst]; rfl) rfl
    · exact ho.set_status hg (ho.inFlight_of_transition hg hcan (by simp)) rfl
  | cancelRequested _ _ hops _ =>
    rcases hops with rfl | ⟨index, o, hg, hst, rfl⟩
    · exact ho
    · exact ho.set_status hg (by rw [hst]; rfl) rfl
  | _ => exact ho

theorem EpisodeStep.settled (h : EpisodeStep id s log s') (hc : Concordant s) (hw : s'.status.hasWork = false) :
    ∀ o ∈ s'.toolOperations, o.record.status.isTerminal = true := by
  have hkept : ∀ status, s.status = status → status.hasWork = false →
      ∀ o ∈ s.toolOperations, o.record.status.isTerminal = true := fun status hs hw => hc.settled (by rw [hs]; exact hw)
  cases h with
  | moved hm =>
    cases hm with
    | begun hs | spent hs _ | stopped hs _ _ | overspent hs _ _ | satisfied hs _ | gaveUp hs _ _ =>
      exact hkept _ hs rfl
    | cancelledReady hs _ | cancelled hs | unresolved hs _ | cancelledSuspended hs _ _ => cases hw
    | reopened _ _ ho => exact ho
  | prepared hs | dispatched hs | recovered hs | turned hs | refused hs | unknown hs | continued hs =>
    exact hkept _ hs rfl
  | planned | toolSuspended => cases hw
  | toolDispatched hs | toolCompleted hs | toolRunning hs =>
    have hstatus : s.status.hasWork = false := hw
    rw [hs] at hstatus
    cases hstatus
  | toolsFinished _ _ ho => exact ho
  | resumed hs =>
    rcases hs with hs | hs | hs
    · exact hkept _ hs rfl
    · exact hkept _ hs rfl
    · exact hkept _ hs rfl
  | cancelRequested _ _ _ hn => rcases hn with ⟨rfl, _⟩ | ⟨rfl, _⟩ <;> cases hw

omit [Sha256] in
theorem operations_ne_nil {status : EpisodeStatus}
    (h : status = .turnRecorded ∨ status = .toolWorkPending ∨ status = .stopReview ∨ operations ≠ [])
    (hn : status ≠ .turnRecorded ∧ status ≠ .toolWorkPending ∧ status ≠ .stopReview) : operations ≠ [] := by
  rcases h with h | h | h | h
  · exact absurd h hn.1
  · exact absurd h hn.2.1
  · exact absurd h hn.2.2
  · exact h

theorem EpisodeStep.turned_nonempty (h : EpisodeStep id s log s') (hc : Concordant s)
    (hs' : s'.status = .turnRecorded ∨ s'.status = .toolWorkPending ∨ s'.status = .stopReview ∨
      s'.toolOperations ≠ []) :
    s'.turns ≠ [] := by
  have hops : s.toolOperations ≠ [] → s.turns ≠ [] := fun hne => hc.turned (.inr (.inr (.inr hne)))
  cases h with
  | moved hm =>
    cases hm with
    | begun | cancelledReady | spent | cancelled | cancelledSuspended | reopened =>
      exact hops (operations_ne_nil hs' (by simp))
    | stopped hs | overspent hs => exact hc.turned (.inl hs)
    | satisfied hs | gaveUp hs => exact hc.turned (.inr (.inr (.inl hs)))
    | unresolved _ ho =>
      obtain ⟨o, hm, _⟩ := ho
      exact hops (List.ne_nil_of_mem hm)
  | turned => exact List.append_ne_nil_of_right_ne_nil _ (List.cons_ne_nil _ _)
  | planned hs => exact hc.turned (.inl hs)
  | toolDispatched hs | toolCompleted hs | toolRunning hs | toolSuspended hs | toolsFinished hs =>
    exact hc.turned (.inr (.inl hs))
  | continued hs => exact hc.turned (.inr (.inr (.inl hs)))
  | prepared | resumed => exact hops (operations_ne_nil hs' (by simp))
  | dispatched hs => exact hops (operations_ne_nil hs' (by show s.status ≠ _ ∧ s.status ≠ _ ∧ s.status ≠ _; simp [hs]))
  | recovered _ _ _ hn =>
    refine hops (operations_ne_nil hs' ?_)
    rw [hn]
    split
    · simp
    · split <;> simp
  | refused _ _ _ _ _ _ hn => rcases hn with rfl | rfl <;> exact hops (operations_ne_nil hs' (by simp))
  | unknown _ _ _ _ _ hn =>
    refine hops (operations_ne_nil hs' ?_)
    rw [hn]
    split <;> simp
  | cancelRequested _ _ ho hn =>
    have hne := operations_ne_nil hs' (by rcases hn with ⟨rfl, _⟩ | ⟨rfl, _⟩ <;> simp)
    rcases ho with rfl | ⟨_, o, hg, _, _⟩
    · exact hops hne
    · exact hops (List.ne_nil_of_mem (List.mem_of_getElem? hg))

theorem EpisodeStep.opened (h : EpisodeStep id s log s') (hs' : s'.status = .modelAttemptPending) :
    ∃ attempt, s'.attempts.getLast? = some attempt ∧
      (attempt.status = .prepared ∨ attempt.status = .dispatching) := by
  cases h with
  | prepared => exact ⟨_, List.getLast?_concat, .inl rfl⟩
  | dispatched => exact ⟨_, List.getLast?_concat, .inr rfl⟩
  | moved hm => cases hm <;> cases hs'
  | recovered _ _ _ hn =>
    have hnext := hn.symm.trans hs'
    split at hnext
    · cases hnext
    · split at hnext <;> cases hnext
  | refused _ _ _ _ _ _ hn => rcases hn with rfl | rfl <;> cases hs'
  | unknown _ _ _ _ _ hn =>
    have hnext := hn.symm.trans hs'
    split at hnext <;> cases hnext
  | toolDispatched hs | toolCompleted hs | toolRunning hs => exact absurd (hs.symm.trans hs') (by decide)
  | cancelRequested _ _ _ hn => rcases hn with ⟨rfl, _⟩ | ⟨rfl, _⟩ <;> cases hs'
  | _ => cases hs'

theorem Concordant.step (hc : Concordant s) (h : EpisodeStep id s log s') : Concordant s' where
  orderly := h.orderly hc
  settled := h.settled hc
  turned := h.turned_nonempty hc
  opened := h.opened
  decoded := (h.attemptsChange.counts hc.decoded).1
  schema := h.schemaVersion.trans hc.schema

omit [Sha256] in
theorem Fresh.concordant (h : Fresh s) : Concordant s := by
  obtain ⟨hs, ha, ht, ho, _, hschema, _, _⟩ := h.created
  refine ⟨⟨?_, ?_, ?_⟩, fun _ => ?_, fun h => ?_, fun h => ?_, ?_, hschema⟩
  · simp [ho]
  · simp [ho]
  · simp [ho]
  · simp [ho]
  · simp [hs, ho] at h
  · simp [hs] at h
  · simp [ht, ha]

variable {answers : (c : GatewayCall) → GatewayReply c → Prop}

theorem reachable_concordant {c : EpisodeConfig} (h : Reachable (episodeEnv answers) c) {id : EpisodeId}
    (hs : s ∈ c.store id) : Concordant s := by
  refine ((h.sound (complies answers)).run id).invariant ?_ ?_ s hs
  · rintro t ⟨hf, -⟩
    exact hf.concordant
  · rintro t t' ⟨log, _, hstep⟩ ht
    exact ht.step hstep

end steps

section errors

def notSuspended : String := "only a suspended episode can resume reconciliation"

def AgentLoopRuntimeError.isIncoherent : AgentLoopRuntimeError → Bool
  | .missingTurn | .missingModelAttempt => true
  | .invalidDurableState message => message ≠ notSuspended
  | _ => false

variable {α β : Type}

def SaneResult (x : Except AgentLoopRuntimeError α) : Prop := ∀ e, x = .error e → e.isIncoherent = false

theorem SaneResult.ok {a : α} : SaneResult (.ok a) := fun _ h => by cases h

variable {x : Except AgentLoopRuntimeError α} {value revision : Nat} {versioned : VersionedEpisodeState}
variable {attempt : ModelAttemptRecord} {next : EpisodeStatus}

theorem SaneResult.bind {f : α → Except AgentLoopRuntimeError β} (hx : SaneResult x)
    (hf : ∀ a, SaneResult (f a)) : SaneResult (x >>= f) := by
  cases x with
  | error e =>
    intro e' he
    cases he
    exact hx e rfl
  | ok a => exact hf a

theorem SaneResult.mapError {ε : Type} {x : Except ε α} {f : ε → AgentLoopRuntimeError}
    (hf : ∀ e, (f e).isIncoherent = false) : SaneResult (x.mapError f) := by
  intro e he
  cases x with
  | error e' =>
    cases he
    exact hf e'
  | ok a => cases he

theorem u32TryFrom_sane : SaneResult (u32TryFrom value) := by
  intro e he
  unfold u32TryFrom at he
  split at he <;> cases he
  rfl

theorem u32Next_sane : SaneResult (u32Next value) := u32TryFrom_sane.bind fun _ => u32TryFrom_sane

theorem transition_sane : SaneResult (s.transition next) :=
  (SaneResult.mapError fun _ => rfl).bind fun _ => .ok

theorem suspend_sane : SaneResult s.suspend := transition_sane.bind fun _ => transition_sane

theorem derivedId_sane {kind : IdKind} {text : String} : SaneResult (derivedId text : Except _ (ValidatedId kind)) := by
  intro e he
  unfold derivedId at he
  split at he <;> cases he
  rfl

theorem dispatchRecord_sane {record : ToolOperationRecord}
    (h : record.status.isInFlight = true ∨ record.status = .requested) : SaneResult (dispatchRecord record) := by
  unfold dispatchRecord
  split
  · exact (SaneResult.mapError fun _ => rfl).bind fun _ => .mapError fun _ => rfl
  · exact (SaneResult.mapError fun _ => rfl).bind fun _ => .mapError fun _ => rfl
  · exact .mapError fun _ => rfl
  · exact .ok
  · exact .ok
  · rename_i hrequested hdispatching hambiguous hreconciling hrunning
    exfalso
    cases hs : record.status <;> simp_all [isInFlight]

variable [Sha256] {answers : (c : GatewayCall) → GatewayReply c → Prop} {id : EpisodeId}

/-- The program never ends with an error about its durable state. -/
def Sane (answers : (c : GatewayCall) → GatewayReply c → Prop) (p : RunnerProg α) : Prop :=
  Effect.ends (loaded (ε := AgentLoopRuntimeError) (α := AgentLoopAdvance ⊕ EpisodeStatus) (episodeEnv answers)
    fun _ s => Concordant s) () p fun _ r => SaneResult r

theorem sane_pure {a : α} : Sane answers (pure a) := SaneResult.ok

theorem sane_fail {e : AgentLoopRuntimeError} (h : e.isIncoherent = false) : Sane answers (.fail e : RunnerProg α) :=
  fun e' he => by cases he; exact h

theorem sane_attempt (h : SaneResult x) : Sane answers (.attempt x) :=
  Effect.ends_attempt.mpr h

theorem sane_bind {p : RunnerProg α} {f : α → RunnerProg β} (hp : Sane answers p) (hf : ∀ a, Sane answers (f a)) :
    Sane answers (p >>= f) := by
  refine Effect.ends_bind.mpr (Effect.ends_mono hp fun _ r hr => ?_)
  cases r with
  | ok a => exact hf a
  | error e =>
    intro e' he
    cases he
    exact hr e rfl

theorem sane_call {c : GatewayCall} : Sane answers (SharedStore.call c) :=
  ⟨trivial, fun _ _ _ => SaneResult.ok⟩

theorem sane_save : Sane answers (Runner.save revision s) := by
  refine sane_bind ⟨trivial, fun _ _ _ => SaneResult.ok⟩ fun reply => ?_
  split
  · exact sane_pure
  · exact sane_fail rfl

theorem sane_load {f : VersionedEpisodeState → RunnerProg β}
    (hf : ∀ revision s, Concordant s → Sane answers (f ⟨revision, s⟩)) : Sane answers (Runner.load id >>= f) := by
  refine ⟨trivial, fun reply g hpost => ?_⟩
  cases reply with
  | error e => exact fun e' he => by cases he; rfl
  | ok loaded =>
    obtain ⟨revision, s⟩ := loaded
    exact hf revision s hpost

theorem sane_saved {f : Nat → α} : Sane answers (Runner.save revision s >>= fun saved => pure (f saved)) :=
  sane_bind sane_save fun _ => sane_pure

theorem sane_transitioned {f : DurableEpisodeState → Nat → α} :
    Sane answers (.attempt (s.transition next) >>= fun moved =>
      Runner.save revision moved >>= fun saved => pure (f moved saved)) :=
  sane_bind (sane_attempt transition_sane) fun _ => sane_saved

theorem sane_crashIf {point : AgentRuntimeFaultPoint} : Sane answers (Runner.crashIf point) := by
  refine sane_bind sane_call fun crash => ?_
  split
  · exact sane_fail rfl
  · exact sane_pure

theorem sane_transitionOnly : Sane answers (transitionOnly versioned next) :=
  sane_transitioned

theorem sane_prepareAttempt : Sane answers (prepareAttempt id versioned) := by
  unfold prepareAttempt
  dsimp only
  split
  · exact sane_transitionOnly
  · split
    · exact sane_transitionOnly
    · refine sane_bind (sane_attempt u32Next_sane) fun _ => sane_bind (sane_attempt derivedId_sane) fun _ => ?_
      refine sane_bind (sane_attempt (.mapError fun _ => rfl)) fun _ => ?_
      exact sane_transitioned

theorem sane_recoverDispatching : Sane answers (recoverDispatching versioned attempt) := by
  refine sane_bind (sane_attempt (.mapError fun _ => rfl)) fun _ => sane_bind (sane_attempt u32TryFrom_sane) fun _ => ?_
  dsimp only
  split
  · exact sane_bind (sane_attempt suspend_sane) fun _ => sane_saved
  · exact sane_transitioned

theorem sane_afterFailedDispatch {retry : ModelTransportRetryHint} {repeated : Bool} :
    Sane answers (afterFailedDispatch versioned retry repeated) := by
  unfold afterFailedDispatch
  split
  · exact sane_transitioned
  · exact sane_transitioned

theorem sane_recordModelOutcome {request : ModelTurnRequest} {outcome : ModelGatewayOutcome} :
    Sane answers (recordModelOutcome id versioned attempt request outcome) := by
  unfold recordModelOutcome
  cases outcome with refine sane_bind (sane_attempt (.mapError fun _ => rfl)) fun _ => ?_
  | turn exchange =>
    refine sane_bind (sane_attempt (.mapError fun _ => rfl)) fun _ => ?_
    refine sane_bind (sane_attempt derivedId_sane) fun _ => sane_bind (sane_attempt u32TryFrom_sane) fun _ => ?_
    refine sane_bind (sane_attempt (.mapError fun _ => rfl)) fun _ => ?_
    refine sane_bind (sane_attempt transition_sane) fun _ => sane_bind sane_save fun _ => ?_
    exact sane_bind sane_crashIf fun _ => sane_pure
  | confirmedNotSent => exact sane_afterFailedDispatch
  | rejected => exact sane_bind (sane_attempt (.mapError fun _ => rfl)) fun _ => sane_afterFailedDispatch
  | decodeFailed =>
    refine sane_bind (sane_attempt (.mapError fun _ => rfl)) fun _ => ?_
    exact sane_transitioned
  | ambiguous => exact sane_transitioned

theorem sane_driveModel (hc : Concordant s) (hs : s.status = .modelAttemptPending) :
    Sane answers (driveModel id ⟨revision, s⟩) := by
  obtain ⟨attempt, hlast, hopen⟩ := hc.opened hs
  unfold driveModel
  simp only [hlast]
  split
  · exact sane_recoverDispatching
  · rename_i hdispatching
    split
    · rename_i hprepared
      rcases hopen with h | h
      · exact absurd h hprepared
      · exact absurd h hdispatching
    · refine sane_bind (sane_attempt u32Next_sane) fun _ =>
        sane_bind (sane_attempt (.mapError fun _ => rfl)) fun _ => ?_
      refine sane_bind sane_save fun _ => sane_bind sane_crashIf fun _ => ?_
      refine sane_bind (sane_bind sane_call fun _ => sane_attempt (.mapError fun _ => rfl)) fun _ => ?_
      exact sane_bind sane_crashIf fun _ => sane_recordModelOutcome

theorem sane_planCalls {turn : TurnRecord} {inputDigest : Sha256Digest} (calls : List GatewayToolCall) :
    ∀ index, Sane answers (planCalls id turn inputDigest index calls) := by
  induction calls with
  | nil => exact fun _ => sane_pure
  | cons call calls ih =>
    intro index
    refine sane_bind sane_call fun _ => sane_bind (sane_attempt derivedId_sane) fun _ => ?_
    refine sane_bind (sane_attempt (.mapError fun _ => rfl)) fun _ => sane_bind sane_call fun validated => ?_
    dsimp only
    cases validated with
    | error rejection =>
      exact sane_bind (sane_attempt (.mapError fun _ => rfl)) fun _ => sane_bind (ih (index + 1)) fun _ => sane_pure
    | ok =>
      refine sane_bind sane_call fun _ => ?_
      split
      · exact sane_bind (sane_attempt (.mapError fun _ => rfl)) fun _ => sane_bind (ih (index + 1)) fun _ => sane_pure
      · exact sane_bind sane_pure fun _ => sane_bind (ih (index + 1)) fun _ => sane_pure

theorem sane_planTurnTools (hc : Concordant s) (hs : s.status = .turnRecorded) :
    Sane answers (planTurnTools id ⟨revision, s⟩) := by
  unfold planTurnTools
  dsimp only
  split
  · rename_i hnone
    exact absurd (List.getLast?_eq_none_iff.mp hnone) (hc.turned (.inl hs))
  · split
    · exact sane_transitioned
    · refine sane_bind (sane_attempt u32TryFrom_sane) fun _ => ?_
      split
      · exact sane_transitioned
      · split
        · exact sane_transitioned
        · refine sane_bind (sane_planCalls _ 0) fun _ => sane_bind (sane_attempt transition_sane) fun _ => ?_
          exact sane_bind sane_save fun _ => sane_bind sane_crashIf fun _ => sane_pure

theorem sane_recordToolOutcome {index : Nat} {operation : DurableToolOperation}
    {outcome : ToolGatewayOutcome} : Sane answers (recordToolOutcome versioned index operation outcome) := by
  unfold recordToolOutcome
  cases outcome with
  | completed status resultDigest receiptDigests satisfiesSubtask =>
    dsimp only
    split
    · exact sane_fail rfl
    · split
      · exact sane_fail rfl
      · refine sane_bind (sane_attempt (.mapError fun _ => rfl)) fun _ => sane_bind sane_save fun _ => ?_
        exact sane_bind sane_crashIf fun _ => sane_pure
  | pending =>
    dsimp only
    split
    · exact sane_bind (sane_attempt (.mapError fun _ => rfl)) fun _ => sane_saved
    · exact sane_bind sane_pure fun _ => sane_saved
  | ambiguous =>
    dsimp only
    split
    · refine sane_bind (sane_attempt (.mapError fun _ => rfl)) fun _ => ?_
      exact sane_bind (sane_attempt suspend_sane) fun _ => sane_saved
    · refine sane_bind sane_pure fun _ => ?_
      exact sane_bind (sane_attempt suspend_sane) fun _ => sane_saved

theorem sane_driveTools (hc : Concordant s) (hs : s.status = .toolWorkPending) :
    Sane answers (driveTools ⟨revision, s⟩) := by
  unfold driveTools
  dsimp only
  split
  · unfold finishTools
    dsimp only
    split
    · rename_i hnone
      exact absurd (List.getLast?_eq_none_iff.mp hnone) (hc.turned (.inr (.inl hs)))
    · exact sane_transitioned
  · rename_i index hfirst
    have hopen : (s.toolOperations.get index).record.status.isTerminal = false := by
      simpa using (List.findFinIdx?_eq_some_iff.mp hfirst).1
    refine sane_bind (sane_attempt (dispatchRecord_sane ?_)) fun _ => sane_bind sane_save fun _ => ?_
    · exact inFlight_or_requested hc.orderly (List.get_mem _ _) hopen
    · refine sane_bind sane_crashIf fun _ => ?_
      split
      · refine sane_bind (sane_bind sane_call fun _ => sane_attempt (.mapError fun _ => rfl)) fun _ => ?_
        exact sane_bind sane_crashIf fun _ => sane_recordToolOutcome
      · refine sane_bind (sane_bind sane_call fun _ => sane_attempt (.mapError fun _ => rfl)) fun _ => ?_
        exact sane_bind sane_crashIf fun _ => sane_recordToolOutcome

theorem sane_reviewStop (hc : Concordant s) (hs : s.status = .stopReview) :
    Sane answers (reviewStop ⟨revision, s⟩) := by
  unfold reviewStop
  dsimp only
  split
  · exact sane_transitionOnly
  · split
    · split
      · rename_i hnone
        exact absurd (List.getLast?_eq_none_iff.mp hnone) (hc.turned (.inr (.inr (.inl hs))))
      · exact sane_transitionOnly
    · exact sane_transitionOnly

theorem sane_advance : Sane answers (advance id) := by
  refine sane_load fun revision s hc => ?_
  cases hs : s.status with
  | created | cancellationPending => exact sane_transitionOnly
  | readyForModel => exact sane_prepareAttempt
  | modelAttemptPending => exact sane_driveModel hc hs
  | turnRecorded => exact sane_planTurnTools hc hs
  | toolWorkPending => exact sane_driveTools hc hs
  | stopReview => exact sane_reviewStop hc hs
  | suspended | suspensionRequested | succeeded | incomplete | cancelled | budgetExhausted | failed => exact sane_pure

omit [Sha256] in
theorem validateTurns_sane (turns : List DurableTurn) : SaneResult (validateTurns turns) := by
  induction turns with
  | nil => exact .ok
  | cons turn turns ih => exact (SaneResult.mapError fun _ => rfl).bind fun _ => ih

omit [Sha256] in
theorem policy_sane {policy : AgentLoopPolicy} : SaneResult policy.validate := by
  intro e he
  unfold AgentLoopPolicy.validate at he
  split at he <;> cases he
  rfl

omit [Sha256] in
theorem validateRecovered_sane (hc : Concordant s) : SaneResult s.validateRecovered := by
  have hturns : ¬ s.turns.length > s.attempts.length := by
    have hle := List.countP_le_length (p := fun attempt : ModelAttemptRecord => decide (attempt.status = .decoded))
      (l := s.attempts)
    rw [hc.decoded]
    omega
  unfold validateRecovered
  simp only [hc.schema, hturns, ne_eq, not_true_eq_false, if_false]
  exact policy_sane.bind fun _ => validateTurns_sane _

theorem sane_resume {granted : EpisodeAllowance} : Sane answers (resume id granted) := by
  refine sane_load fun revision s hc => sane_bind (sane_attempt (validateRecovered_sane hc)) fun _ => ?_
  dsimp only
  split
  · exact sane_pure
  · refine sane_bind (sane_attempt (.mapError fun _ => rfl)) fun _ => sane_bind (sane_attempt policy_sane) fun _ => ?_
    exact sane_saved

omit [Sha256] in
theorem cancelLastAttempt_sane : SaneResult (cancelLastAttempt s) := by
  unfold cancelLastAttempt
  split
  · split
    · exact (SaneResult.mapError fun _ => rfl).bind fun _ => .ok
    · exact .ok
  · exact .ok

omit [Sha256] in
theorem cancelFirstDispatching_sane : SaneResult (cancelFirstDispatching s) := by
  unfold cancelFirstDispatching
  split
  · exact (SaneResult.mapError fun _ => rfl).bind fun _ => .ok
  · exact .ok

omit [Sha256] in
theorem cancelStatus_sane {ambiguous : Bool} : SaneResult (cancelStatus s ambiguous) := by
  unfold cancelStatus
  split
  · split
    · exact suspend_sane
    · exact .ok
  · split
    · exact transition_sane
    · exact .ok

theorem sane_requestCancellation : Sane answers (requestCancellation id) := by
  refine sane_load fun revision s hc => ?_
  dsimp only
  split
  · exact sane_pure
  · refine sane_bind (sane_attempt cancelLastAttempt_sane) fun _ => sane_bind (sane_attempt ?_) fun _ => ?_
    · split
      · exact cancelFirstDispatching_sane
      · exact .ok
    · exact sane_bind (sane_attempt cancelStatus_sane) fun _ => sane_saved

theorem sane_resumeReconciliation : Sane answers (resumeReconciliation id) := by
  refine sane_load fun revision s hc => ?_
  dsimp only
  split
  · exact sane_fail (by decide)
  · exact sane_transitioned

theorem sane_program (request : RunnerRequest) : Sane answers (request.program id) := by
  cases request with
  | advance => exact sane_bind sane_advance fun _ => sane_pure
  | resume => exact sane_bind sane_resume fun _ => sane_pure
  | requestCancellation => exact sane_bind sane_requestCancellation fun _ => sane_pure
  | resumeReconciliation => exact sane_bind sane_resumeReconciliation fun _ => sane_pure

end errors

variable [Sha256] {answers : (c : GatewayCall) → GatewayReply c → Prop} {c : EpisodeConfig}

/-- No operation of any runner ends with an error about its durable state, but for the reconciliation of an
episode that is not suspended. -/
theorem reachable_sane (h : Reachable (episodeEnv answers) c) {id : EpisodeId} {e : AgentLoopRuntimeError}
    (hm : (id, .fail e) ∈ c.tasks) : e.isIncoherent = false := by
  have hends := h.ends (I := fun _ s => Concordant s) (Q := fun _ r => SaneResult r)
    (fun c hc id s hs => reachable_concordant hc hs) ?_ _ hm
  · exact hends e rfl
  · rintro id p ⟨request, rfl⟩
    exact sane_program request

/-- In every persisted state the operations, those of the current turn included, are finished ones, then at most
one in flight, then those still as they were planned (requested, or refused as invalid); results are on the
finished ones; outside tool work, suspension and cancellation all are finished. The errors for an impossible
state are never returned. -/
theorem operations_orderly (h : Reachable (episodeEnv answers) c) :
    (∀ id, ∀ s ∈ c.store id, ∀ keep : DurableToolOperation → Bool,
      (∃ done inFlight waiting, s.toolOperations.filter keep = done ++ inFlight ++ waiting ∧
        (∀ o ∈ done, o.record.status.isTerminal = true) ∧ inFlight.length ≤ 1 ∧
        (∀ o ∈ inFlight, o.record.status.isInFlight = true) ∧ ∀ o ∈ waiting, o.record.status.isPlanned = true) ∧
      (∀ o ∈ s.toolOperations, o.record.resultDigest.isSome = o.record.status.isTerminal) ∧
      (s.status = .readyForModel ∨ s.status = .modelAttemptPending ∨ s.status = .turnRecorded ∨
          s.status = .stopReview → ∀ o ∈ s.toolOperations, o.record.status.isTerminal = true)) ∧
    ∀ id e, (id, .fail e) ∈ c.tasks → e ≠ .missingTurn ∧ e ≠ .missingModelAttempt ∧
      ∀ message, e = .invalidDurableState message → message = "only a suspended episode can resume reconciliation" := by
  refine ⟨fun id s hs keep => ?_, fun id e hm => ?_⟩
  · have hc := reachable_concordant h hs
    refine ⟨(hc.orderly.filter keep).split, hc.orderly.digests, fun hst => hc.settled ?_⟩
    rcases hst with hst | hst | hst | hst <;> rw [hst] <;> rfl
  · have hsane := reachable_sane h hm
    refine ⟨?_, ?_, ?_⟩
    · rintro rfl
      cases hsane
    · rintro rfl
      cases hsane
    · rintro message rfl
      exact of_not_not (of_decide_eq_false hsane)

def mixedOracle : Oracle
  | .invoke _ => .ok (.turn ⟨⟨["go"], [⟨"call-1", "tool", []⟩, ⟨"call-2", "tool", []⟩], .toolCalls, none⟩, ⟨[20]⟩,
    ⟨[21]⟩⟩)
  | .descriptor _ => some ⟨"tool", "1", .readOnly, .verifiedReference⟩
  | .validateCall call => if call.nativeCallId = "call-2" then .error ⟨⟨[23]⟩, "invalid"⟩ else .ok ()
  | .execute _ => .ok (.completed .succeeded ⟨[22]⟩ [] false)
  | .reconcile _ => .ok (.completed .succeeded ⟨[22]⟩ [] false)
  | .shouldCrash _ => false

@[irreducible] def mixedStore : EpisodeStore :=
  @runScript transparentSha256 sampleId (List.replicate 4 (.advance, mixedOracle))
    (createEpisode emptyStore (sampleEpisode sampleId))

section samples

omit [Sha256]

theorem mixedStore_replayed : @Replayed transparentSha256 (fun _ _ => True) mixedStore := by
  unfold mixedStore
  exact @Replayed.run transparentSha256 _ _ (@replayed_sample transparentSha256 _ sampleId) _ _ fun _ _ _ => trivial

theorem mixedStore_statuses : (mixedStore.1 sampleId).getLast?.map (fun s =>
    (s.status, s.toolOperations.map (·.record.status))) =
    some (.toolWorkPending, [.requested, .rejectedAsInvalid]) := by
  decide +kernel

theorem operations_orderly_sample : ∃ s ∈ mixedStore.1 sampleId, s.status = .toolWorkPending ∧
    ∃ done inFlight waiting, s.toolOperations.filter (fun _ => true) = done ++ inFlight ++ waiting ∧
      (∀ o ∈ done, o.record.status.isTerminal = true) ∧ inFlight.length ≤ 1 ∧
      (∀ o ∈ inFlight, o.record.status.isInFlight = true) ∧ ∀ o ∈ waiting, o.record.status.isPlanned = true := by
  have horderly := fun (store : EpisodeStore) (hreplayed : @Replayed transparentSha256 (fun _ _ => True) store) s
      (hm : s ∈ store.1 sampleId) =>
    ((@operations_orderly transparentSha256 _ ⟨store.1, store.2, []⟩ hreplayed).1 sampleId s hm fun _ => true).1
  obtain ⟨s, hs, hst⟩ := Option.map_eq_some_iff.mp mixedStore_statuses
  have hm := List.mem_of_getLast? hs
  exact ⟨s, hm, congrArg Prod.fst hst, horderly mixedStore mixedStore_replayed s hm⟩

/-- A refused call may stand behind a requested one. -/
theorem refused_behind_requested : ¬ ∀ c : EpisodeConfig, Reachable (@episodeEnv transparentSha256 fun _ _ => True) c →
    ∀ id, ∀ s ∈ c.store id, ∃ done inFlight waiting, s.toolOperations = done ++ inFlight ++ waiting ∧
      (∀ o ∈ done, o.record.status.isTerminal = true) ∧ inFlight.length ≤ 1 ∧
      (∀ o ∈ inFlight, o.record.status.isInFlight = true) ∧ ∀ o ∈ waiting, o.record.status = .requested := by
  intro hall
  have hsplit := fun (store : EpisodeStore) (hreplayed : @Replayed transparentSha256 (fun _ _ => True) store) s
      (hm : s ∈ store.1 sampleId) => hall ⟨store.1, store.2, []⟩ hreplayed sampleId s hm
  obtain ⟨s, hs, hst⟩ := Option.map_eq_some_iff.mp mixedStore_statuses
  obtain ⟨done, inFlight, waiting, heq, hdone, _, hinFlight, hwaiting⟩ :=
    hsplit mixedStore mixedStore_replayed s (List.mem_of_getLast? hs)
  have hstatuses : s.toolOperations.map (·.record.status) = [.requested, .rejectedAsInvalid] := congrArg Prod.snd hst
  rw [heq] at hstatuses
  cases done with
  | cons o done =>
    have hterminal := hdone o List.mem_cons_self
    rw [show o.record.status = .requested from (List.cons.inj hstatuses).1] at hterminal
    cases hterminal
  | nil =>
    cases inFlight with
    | cons o inFlight =>
      have hflight := hinFlight o List.mem_cons_self
      rw [show o.record.status = .requested from (List.cons.inj hstatuses).1] at hflight
      cases hflight
    | nil =>
      have hlast : ToolOperationStatus.rejectedAsInvalid ∈ waiting.map (·.record.status) := by
        rw [show waiting.map (·.record.status) = _ from hstatuses]
        simp
      obtain ⟨o, hm, hrejected⟩ := List.mem_map.mp hlast
      rw [hwaiting o hm] at hrejected
      cases hrejected

end samples

end AlloyPort
