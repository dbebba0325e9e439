import AlloyPort.Episode.Shape

/-! Success is reached only through a verified tool result that said so. -/

namespace AlloyPort

open SharedStore DurableEpisodeState

/-- The operation is finished with verified authority, and the gateway outcome it was finished
with satisfied the subtask. -/
structure VerifiedCompletion (history : List GatewayEvent) (o : DurableToolOperation) : Prop where
  terminal : o.record.status.isTerminal = true
  authority : o.record.resultAuthority = .verifiedReference
  answered : ∃ invocation digest receipts, invocation.operationId = o.record.id ∧
    o.record.resultDigest = some digest ∧
    ToolAnswered history invocation (.completed o.record.status digest receipts true)

structure SatisfiedByTool (history : List GatewayEvent) (s : DurableEpisodeState) : Prop where
  succeeded : s.status = .succeeded → s.subtaskSatisfied = true
  satisfied : s.subtaskSatisfied = true → ∃ o ∈ s.toolOperations, VerifiedCompletion history o

variable [Sha256] {id : EpisodeId} {s s' : DurableEpisodeState} {log history : List GatewayEvent}

omit [Sha256] in
theorem ToolAnswered.mono {invocation : ToolInvocation} {outcome : ToolGatewayOutcome}
    (h : ToolAnswered log invocation outcome) (hl : ∀ e ∈ log, e ∈ history) :
    ToolAnswered history invocation outcome :=
  h.imp (hl _) (hl _)

theorem EpisodeStep.satisfied (h : EpisodeStep id s log s') (hl : ∀ e ∈ log, e ∈ history) :
    s'.subtaskSatisfied = s.subtaskSatisfied ∨ ∃ o ∈ s'.toolOperations, VerifiedCompletion history o := by
  cases h with
  | @toolCompleted _ index o invocation status digest receipts satisfies hs hg he hi ht hr hc hv =>
    cases satisfies with
    | false => exact .inl (Bool.or_false _)
    | true =>
      refine .inr ⟨_, List.mem_of_getElem? (List.getElem?_set_self (List.getElem?_eq_some_iff.mp hg).choose), ?_⟩
      exact ⟨ht, hv rfl, invocation, digest, receipts, hi.operationId, rfl, he.mono hl⟩
  | _ => exact .inl rfl

theorem EpisodeStep.succeeded (h : EpisodeStep id s log s') (hs : s'.status = .succeeded) :
    s'.subtaskSatisfied = true := by
  cases h with
  | moved hm =>
    cases hm with
    | satisfied _ hb => exact hb
    | _ => cases hs
  | dispatched hp | toolDispatched hp | toolCompleted hp | toolRunning hp =>
    exact absurd (hp.symm.trans hs) (by decide)
  | recovered _ _ _ hn =>
    have hnext := hn.symm.trans hs
    split at hnext
    · cases hnext
    · split at hnext <;> cases hnext
  | refused _ _ _ _ _ _ hn => rcases hn with rfl | rfl <;> cases hs
  | unknown _ _ _ _ _ hn =>
    have hnext := hn.symm.trans hs
    split at hnext <;> cases hnext
  | cancelRequested _ _ _ hn => rcases hn with ⟨rfl, _⟩ | ⟨rfl, _⟩ <;> cases hs
  | _ => cases hs

theorem SatisfiedByTool.step (h : SatisfiedByTool history s) (hs : EpisodeStep id s log s')
    (hl : ∀ e ∈ log, e ∈ history) : SatisfiedByTool history s' := by
  refine ⟨fun hst => hs.succeeded hst, fun hsat => ?_⟩
  rcases hs.satisfied hl with heq | hverified
  · obtain ⟨o, ho, hv⟩ := h.satisfied (heq ▸ hsat)
    exact ⟨o, hs.operationsChange.finished ho hv.terminal, hv⟩
  · exact hverified

variable {answers : (c : GatewayCall) → GatewayReply c → Prop}

theorem reachable_satisfiedByTool {c : EpisodeConfig} (h : Reachable (episodeEnv answers) c)
    (hs : s ∈ c.store id) : SatisfiedByTool c.history s := by
  refine ((h.sound (complies answers)).run id).invariant ?_ ?_ s hs
  · rintro t ⟨hf, -⟩
    obtain ⟨hst, _, _, _, _, _, _, hsat⟩ := hf.created
    exact ⟨fun h => absurd (hst.symm.trans h) (by decide), fun h => absurd (hsat.symm.trans h) (by decide)⟩
  · rintro t t' ⟨log, hlog, hstep⟩ ht
    exact ht.step hstep fun e he => (hlog e he).1

/-- A succeeded episode holds a finished operation with verified authority whose gateway outcome
satisfied the subtask, whatever the model, the tools, the operators and the crashes did. -/
theorem succeeded_has_verified_completion {c : EpisodeConfig} (h : Reachable (episodeEnv answers) c)
    (hs : s ∈ c.store id) (hst : s.status = .succeeded) :
    ∃ o ∈ s.toolOperations, o.record.status.isTerminal = true ∧ o.record.resultAuthority = .verifiedReference ∧
      ∃ invocation digest receipts, invocation.operationId = o.record.id ∧ o.record.resultDigest = some digest ∧
        ToolAnswered c.history invocation (.completed o.record.status digest receipts true) := by
  have hsat := reachable_satisfiedByTool h hs
  obtain ⟨o, ho, hv⟩ := hsat.satisfied (hsat.succeeded hst)
  exact ⟨o, ho, hv.terminal, hv.authority, hv.answered⟩

def stoppingOracle : Oracle :=
  constantOracle (.turn ⟨⟨["done"], [], .stop, none⟩, ⟨[30]⟩, ⟨[31]⟩⟩) none (.ok ()) (.pending ⟨[]⟩)

@[irreducible] def succeededStore : EpisodeStore :=
  @runScript transparentSha256 sampleId (List.replicate 6 (.advance, stoppingOracle)) sampleStore

omit [Sha256] in
theorem succeededStore_replayed : @Replayed transparentSha256 (fun _ _ => True) succeededStore := by
  have hsample : @Replayed transparentSha256 (fun _ _ => True) sampleStore := sampleStore_run fun _ => trivial
  unfold succeededStore
  exact @Replayed.run transparentSha256 _ _ hsample _ _ fun _ _ _ => trivial

omit [Sha256] in
theorem succeeded_has_verified_completion_sample :
    ∃ s ∈ succeededStore.1 sampleId, s.status = .succeeded ∧ ∃ o ∈ s.toolOperations,
      o.record.status.isTerminal = true ∧ o.record.resultAuthority = .verifiedReference := by
  have hsome : (succeededStore.1 sampleId).getLast?.map (·.status) = some .succeeded := by decide +kernel
  obtain ⟨s, hs, hst⟩ := Option.map_eq_some_iff.mp hsome
  have hm := List.mem_of_getLast? hs
  obtain ⟨o, ho, ht, hauth, _⟩ := @succeeded_has_verified_completion transparentSha256 sampleId s _
    ⟨succeededStore.1, succeededStore.2, []⟩ succeededStore_replayed hm hst
  exact ⟨s, hm, hst, o, ho, ht, hauth⟩

end AlloyPort
