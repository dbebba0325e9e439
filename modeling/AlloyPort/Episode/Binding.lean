import AlloyPort.Episode.Place

/-! The input of the next model attempt is bound to the answers of the last turn, except after a
resumption that reopens an episode whose last turn was never answered. -/

namespace AlloyPort

open SharedStore DurableEpisodeState

variable [Sha256] {id : EpisodeId} {s s' : DurableEpisodeState} {log : List GatewayEvent}

/-- The digest the next attempt must carry: the initial input before any turn, else the last turn's
continuation with the results of that turn's operations in call order. -/
def boundInput (s : DurableEpisodeState) : Sha256Digest :=
  match s.turns.getLast? with
  | none => s.initialInputDigest
  | some turn => deriveModelContinuationInputDigest turn.record.nativeContinuationDigest
      (turnResults s turn.record.id)

def InputBound (s : DurableEpisodeState) : Prop := s.nextInputDigest = boundInput s

/-- Some version was reopened from `incomplete`, or from the `budgetExhausted` that planning a
recorded turn had ended in. -/
def StaleResume (versions : List DurableEpisodeState) : Prop :=
  ∃ (n : Nat) (s s' : DurableEpisodeState), versions[n]? = some s ∧ versions[n + 1]? = some s' ∧
    s'.status = .readyForModel ∧ (s.status = .incomplete ∨ s.status = .budgetExhausted ∧
      ∃ (m : Nat) (r : DurableEpisodeState), n = m + 1 ∧ versions[m]? = some r ∧ r.status = .turnRecorded)

omit [Sha256] in
theorem StaleResume.mono {versions versions' : List DurableEpisodeState} (h : StaleResume versions)
    (he : ∀ (i : Nat) t, versions[i]? = some t → versions'[i]? = some t) : StaleResume versions' := by
  obtain ⟨n, t, t', ht, ht', hready, hcase⟩ := h
  refine ⟨n, t, t', he _ _ ht, he _ _ ht', hready, ?_⟩
  rcases hcase with hst | ⟨hst, m, r, hn, hr, hturn⟩
  · exact .inl hst
  · exact .inr ⟨hst, m, r, hn, he _ _ hr, hturn⟩

def Fixed (status : EpisodeStatus) : Prop :=
  status = .created ∨ status = .readyForModel ∨ status = .modelAttemptPending ∨ status = .failed

structure Bound (before : List DurableEpisodeState) (s : DurableEpisodeState) : Prop where
  fixed : Fixed s.status → InputBound s
  spent : s.status = .budgetExhausted → InputBound s ∨ ∃ r, before.getLast? = some r ∧ r.status = .turnRecorded
  suspended : s.status = .suspended → s.cancellationRequested = true ∨
    ∃ o ∈ s.toolOperations, o.record.status.isTerminal = false

theorem Located.turnResults_eq_nil (h : Located id s) (hu : Unplanned s.status) {turn : DurableTurn}
    (ht : s.turns.getLast? = some turn) : turnResults s turn.record.id = [] := by
  obtain ⟨places, hplaced, _, _, hunplanned⟩ := h.operations
  rw [List.getLast?_eq_getElem?] at ht
  have hlast := h.turns _ turn ht
  have hnone : (s.toolOperations.filter fun o => o.record.turnId = turn.record.id) = [] := by
    refine List.filter_eq_nil_iff.mpr fun o hm heq => ?_
    obtain ⟨place, hplace, hp⟩ : ∃ place ∈ places, Placed id o place := by
      obtain ⟨i, hi, rfl⟩ := List.getElem_of_mem hm
      obtain ⟨hlen, hget⟩ := List.forall₂_iff_get.mp hplaced
      exact ⟨places[i], List.getElem_mem _, hget i hi (hlen ▸ hi)⟩
    have hturn := hp.1
    rw [of_decide_eq_true heq] at hturn
    have hn := derivedTurnId_inj hturn hlast
    have hlt := hunplanned hu place hplace
    omega
  rw [turnResults, hnone]
  rfl

theorem inputBound_of_eq (hn : s'.nextInputDigest = s.nextInputDigest)
    (hi : s'.initialInputDigest = s.initialInputDigest) (ht : s'.turns = s.turns)
    (ho : s'.toolOperations = s.toolOperations) (h : InputBound s) : InputBound s' := by
  have hb : boundInput s' = boundInput s := by
    simp only [boundInput, turnResults, hi, ht, ho]
  rw [InputBound, hn, hb]
  exact h

variable {before : List DurableEpisodeState}

theorem bound_of_status {status : EpisodeStatus} (hs : s.status = status)
    (hf : ¬ Fixed status) (hb : status ≠ .budgetExhausted) (hsus : status ≠ .suspended) : Bound before s :=
  ⟨fun h => absurd (hs ▸ h) hf, fun h => absurd (hs.symm.trans h) hb, fun h => absurd (hs.symm.trans h) hsus⟩

theorem bound_of_inputBound (h : InputBound s)
    (hs : s.status = .suspended → s.cancellationRequested = true) : Bound before s :=
  ⟨fun _ => h, fun _ => .inl h, fun hst => .inl (hs hst)⟩

theorem Bound.moved {next : EpisodeStatus} (h : Bound before s)
    (hm : Moves s next) : Bound (before ++ [s]) (s.withStatus next) := by
  have hkeep : Fixed s.status → InputBound (s.withStatus next) :=
    fun hf => inputBound_of_eq rfl rfl rfl rfl (h.fixed hf)
  cases hm with
  | begun hs => exact bound_of_inputBound (hkeep (.inl hs)) (by simp)
  | spent hs _ => exact bound_of_inputBound (hkeep (.inr (.inl hs))) (by simp)
  | overspent hs _ _ => exact ⟨by simp [Fixed], fun _ => .inr ⟨s, by simp, hs⟩, by simp⟩
  | reopened hs hc ho =>
    rcases h.suspended hs with hreq | ⟨o, hm, ht⟩
    · rw [hc] at hreq
      cases hreq
    · rw [ho o hm] at ht
      cases ht
  | _ => exact bound_of_status rfl (by simp [Fixed]) (by simp) (by simp)

theorem Bound.resumed (h : Bound before s)
    (hs : s.status = .failed ∨ s.status = .incomplete ∨ s.status = .budgetExhausted)
    (hr : s.status ≠ .incomplete ∧
      (s.status = .budgetExhausted → ∀ r, before.getLast? = some r → r.status ≠ .turnRecorded)) : InputBound s := by
  rcases hs with hs | hs | hs
  · exact h.fixed (.inr (.inr (.inr hs)))
  · exact absurd hs hr.1
  · rcases h.spent hs with hb | ⟨r, hlast, hturn⟩
    · exact hb
    · exact absurd hturn (hr.2 hs r hlast)

theorem Bound.step (h : Bound before s) (hl : Located id s) (hs : EpisodeStep id s log s')
    (hr : s'.status = .readyForModel → s.status ≠ .incomplete ∧
      (s.status = .budgetExhausted → ∀ r, before.getLast? = some r → r.status ≠ .turnRecorded)) :
    Bound (before ++ [s]) s' := by
  -- the model side changes attempts only, so the input stays bound while an attempt is pending
  have hpending : s.status = .modelAttemptPending → InputBound s :=
    fun hst => h.fixed (.inr (.inr (.inl hst)))
  have htools : ∀ t : DurableEpisodeState, s.status = .toolWorkPending → t.status = s.status →
      Bound (before ++ [s]) t :=
    fun t hst heq => bound_of_status (heq.trans hst) (by simp [Fixed]) (by simp) (by simp)
  cases hs with
  | moved hm => exact h.moved hm
  | prepared hst _ _ _ _ _ _ =>
    exact bound_of_inputBound (inputBound_of_eq rfl rfl rfl rfl (h.fixed (.inr (.inl hst)))) (by simp)
  | dispatched hst _ _ =>
    refine bound_of_inputBound (inputBound_of_eq rfl rfl rfl rfl (hpending hst)) fun hsus => ?_
    exact absurd (hst.symm.trans hsus) (by decide)
  | recovered hst _ _ hn =>
    refine bound_of_inputBound (inputBound_of_eq rfl rfl rfl rfl (hpending hst)) fun hsus => ?_
    rw [withStatus_status, hn] at hsus
    by_cases hc : s.cancellationRequested = true
    · exact hc
    · rw [if_neg hc] at hsus
      split at hsus <;> cases hsus
  | turned | planned => exact bound_of_status rfl (by simp [Fixed]) (by simp) (by simp)
  | refused hst _ _ _ _ _ hn =>
    refine bound_of_inputBound (inputBound_of_eq rfl rfl rfl rfl (hpending hst)) fun hsus => ?_
    rcases hn with rfl | rfl <;> cases hsus
  | unknown hst _ _ _ _ hn =>
    refine bound_of_inputBound (inputBound_of_eq rfl rfl rfl rfl (hpending hst)) fun hsus => ?_
    rw [withStatus_status, hn] at hsus
    split at hsus <;> cases hsus
  | toolDispatched hst | toolCompleted hst | toolRunning hst => exact htools _ hst rfl
  | @toolSuspended _ index o invocation digest next _ hg _ _ hc =>
    refine ⟨by simp [Fixed], by simp, fun _ => .inr ⟨_, List.mem_of_getElem?
      (List.getElem?_set_self (List.getElem?_eq_some_iff.mp hg).choose), ?_⟩⟩
    rcases hc with ⟨_, rfl⟩ | ⟨_, rfl⟩ <;> rfl
  | @toolsFinished turn _ ht _ =>
    refine bound_of_inputBound ?_ (by simp)
    simp only [InputBound, boundInput, withStatus_turns, withStatus_nextInputDigest, ht]
    rfl
  | @continued turn hst ht _ _ =>
    refine bound_of_inputBound ?_ (by simp)
    have hnil := hl.turnResults_eq_nil (.inr hst) ht
    simp only [InputBound, boundInput, withStatus_turns, withStatus_nextInputDigest, ht]
    exact congrArg _ hnil.symm
  | resumed hst _ _ =>
    have hb := h.resumed hst (hr rfl)
    exact bound_of_inputBound (inputBound_of_eq rfl rfl rfl rfl hb) (by simp)
  | cancelRequested _ _ _ hn =>
    rcases hn with ⟨rfl, _⟩ | ⟨rfl, _⟩
    · exact ⟨by simp [Fixed], by simp, fun _ => .inl rfl⟩
    · exact bound_of_status rfl (by simp [Fixed]) (by simp) (by simp)

omit [Sha256] in
theorem not_staleResume_last (h : ¬ StaleResume (before ++ [s] ++ [s'])) :
    ¬ StaleResume (before ++ [s]) ∧ (s'.status = .readyForModel → s.status ≠ .incomplete ∧
      (s.status = .budgetExhausted → ∀ r, before.getLast? = some r → r.status ≠ .turnRecorded)) := by
  have hextend : ∀ (i : Nat) t, (before ++ [s])[i]? = some t → (before ++ [s] ++ [s'])[i]? = some t := by
    intro i t ht
    rw [List.getElem?_append_left (List.getElem?_eq_some_iff.mp ht).choose]
    exact ht
  have hs : (before ++ [s] ++ [s'])[before.length]? = some s :=
    hextend _ _ List.getElem?_concat_length
  have hs' : (before ++ [s] ++ [s'])[before.length + 1]? = some s' := by
    have hlen : before.length + 1 = (before ++ [s]).length := by simp
    rw [hlen, List.getElem?_concat_length]
  refine ⟨fun hstale => h (hstale.mono hextend), fun hready => ⟨fun hst => ?_, fun hst r hr hturn => ?_⟩⟩
  · exact h ⟨before.length, s, s', hs, hs', hready, .inl hst⟩
  · rw [List.getLast?_eq_getElem?] at hr
    have hpos : before.length ≠ 0 := by
      intro hzero
      rw [List.length_eq_zero_iff.mp hzero] at hr
      simp at hr
    refine h ⟨before.length, s, s', hs, hs', hready, .inr ⟨hst, before.length - 1, r, by omega, ?_, hturn⟩⟩
    refine hextend _ _ ?_
    rw [List.getElem?_append_left (by omega)]
    exact hr

theorem reachable_bound {answers : (c : GatewayCall) → GatewayReply c → Prop} {c : EpisodeConfig}
    (h : Reachable (episodeEnv answers) c) {n : Nat} (hs : (c.store id)[n]? = some s) :
    Located id s ∧ (¬ StaleResume ((c.store id).take (n + 1)) → Bound ((c.store id).take (n + 1)).dropLast s) := by
  refine ((h.sound (complies answers)).run id).invariant_upto (J := fun versions s =>
    Located id s ∧ (¬ StaleResume versions → Bound versions.dropLast s)) ?_ ?_ n s hs
  · rintro t ⟨hf, _⟩
    obtain ⟨hst, _, hturns, _, hnext, _⟩ := hf.created
    refine ⟨located_fresh hf, fun _ => bound_of_inputBound ?_ fun hsus => absurd (hst.symm.trans hsus) (by decide)⟩
    simp [InputBound, boundInput, hturns, hnext]
  · rintro before t t' ⟨hl, hb⟩ ⟨log, _, hstep⟩
    refine ⟨hl.step hstep, fun hn => ?_⟩
    obtain ⟨hn, hr⟩ := not_staleResume_last hn
    have hbt := hb hn
    simp only [List.dropLast_concat] at hbt ⊢
    exact hbt.step hl hstep hr

/-- Without a stale resumption every version that is ready for the model is bound to the answers of
the last turn. -/
theorem ready_input_bound {answers : (c : GatewayCall) → GatewayReply c → Prop} {c : EpisodeConfig}
    (h : Reachable (episodeEnv answers) c) (hr : ¬ StaleResume (c.store id)) (hs : s ∈ c.store id)
    (hst : s.status = .readyForModel) : s.nextInputDigest = boundInput s := by
  obtain ⟨n, hn⟩ := List.mem_iff_getElem?.mp hs
  have hprefix : ¬ StaleResume ((c.store id).take (n + 1)) := by
    refine fun hstale => hr (hstale.mono fun i u hu => ?_)
    rw [List.getElem?_take] at hu
    split at hu
    · exact hu
    · cases hu
  exact ((reachable_bound h hn).2 hprefix).fixed (.inr (.inl hst))

@[irreducible] def answeredStore : EpisodeStore :=
  @runScript transparentSha256 sampleId [(.advance, sampleOracle)] sampleStore

section samples

omit [Sha256]

theorem answeredStore_replayed : @Replayed transparentSha256 (fun _ _ => True) answeredStore := by
  have hsample : @Replayed transparentSha256 (fun _ _ => True) sampleStore := sampleStore_run fun _ => trivial
  unfold answeredStore
  exact @Replayed.run transparentSha256 _ _ hsample _ _ fun _ _ _ => trivial

theorem ready_input_bound_sample :
    ∃ s ∈ answeredStore.1 sampleId, s.status = .readyForModel ∧ s.turns.length = 1 ∧
      s.nextInputDigest = @boundInput transparentSha256 s := by
  have hfresh : ∀ s ∈ answeredStore.1 sampleId, s.status ≠ .incomplete ∧ s.status ≠ .budgetExhausted := by
    decide +kernel
  have hnot : ¬ StaleResume (answeredStore.1 sampleId) := by
    rintro ⟨n, s, s', hs, _, _, hcase⟩
    obtain ⟨hi, hb⟩ := hfresh s (List.mem_of_getElem? hs)
    rcases hcase with hst | ⟨hst, _⟩
    · exact hi hst
    · exact hb hst
  have hsome : (answeredStore.1 sampleId).getLast?.map (fun s => (s.status, s.turns.length)) =
      some (.readyForModel, 1) := by
    decide +kernel
  have hbound := fun (store : EpisodeStore) (hreplayed : @Replayed transparentSha256 (fun _ _ => True) store)
      (hnot : ¬ StaleResume (store.1 sampleId)) s (hm : s ∈ store.1 sampleId) =>
    @ready_input_bound transparentSha256 sampleId s _ ⟨store.1, store.2, []⟩ hreplayed hnot hm
  obtain ⟨s, hs, hst⟩ := Option.map_eq_some_iff.mp hsome
  obtain ⟨hst, hturns⟩ := Prod.mk.inj hst
  have hm := List.mem_of_getLast? hs
  exact ⟨s, hm, hst, hturns, hbound answeredStore answeredStore_replayed hnot s hm hst⟩

def firstStop : Oracle :=
  constantOracle (.turn ⟨⟨["one"], [], .stop, none⟩, ⟨[30]⟩, ⟨[31]⟩⟩) none (.ok ()) (.pending ⟨[]⟩)

def secondStop : Oracle :=
  constantOracle (.turn ⟨⟨["two"], [], .stop, none⟩, ⟨[40]⟩, ⟨[41]⟩⟩) none (.ok ()) (.pending ⟨[]⟩)

@[irreducible] def reopenedStore : EpisodeStore :=
  @runScript transparentSha256 sampleId (List.replicate 5 (RunnerRequest.advance, firstStop) ++
    List.replicate 4 (RunnerRequest.advance, secondStop) ++ [(RunnerRequest.resume ⟨4, 8, 8⟩, secondStop)])
    (createEpisode emptyStore (sampleEpisode sampleId))

theorem reopenedStore_replayed : @Replayed transparentSha256 (fun _ _ => True) reopenedStore := by
  unfold reopenedStore
  exact @Replayed.run transparentSha256 _ _ (@replayed_sample transparentSha256 _ sampleId) _ _ fun _ _ _ => trivial

/-- Reopened from `incomplete`, the episode is ready with the digest of the turn before the last. -/
theorem reopened_input_unbound :
    ¬ ∀ (c : EpisodeConfig), Reachable (@episodeEnv transparentSha256 fun _ _ => True) c →
      ∀ id, ∀ s ∈ c.store id, s.status = .readyForModel → s.nextInputDigest = @boundInput transparentSha256 s := by
  intro hall
  have hlast : (reopenedStore.1 sampleId).getLast?.map (fun s =>
      (s.status, decide (s.nextInputDigest = @boundInput transparentSha256 s))) = some (.readyForModel, false) := by
    decide +kernel
  obtain ⟨s, hs, hst⟩ := Option.map_eq_some_iff.mp hlast
  obtain ⟨hst, hne⟩ := Prod.mk.inj hst
  have hb := hall ⟨reopenedStore.1, reopenedStore.2, []⟩ reopenedStore_replayed sampleId s
    (List.mem_of_getLast? hs) hst
  exact of_decide_eq_false hne hb

end samples

end AlloyPort

namespace AlloyPort

open SharedStore DurableEpisodeState

variable [Sha256] {id : EpisodeId} {s s' : DurableEpisodeState} {log : List GatewayEvent}

def lastOperations (s : DurableEpisodeState) (turn : DurableTurn) : List DurableToolOperation :=
  s.toolOperations.filter fun o => o.record.turnId = turn.record.id

def NoTurns (s : DurableEpisodeState) : Prop := s.turns = [] ∧ s.toolOperations = []

def Unanswered (s : DurableEpisodeState) : Prop :=
  ∃ turn, s.turns.getLast? = some turn ∧
    ∀ o ∈ s.toolOperations, o.record.turnId ≠ turn.record.id ∧ o.record.status.isTerminal = true

def Planned (s : DurableEpisodeState) : Prop :=
  ∃ turn, s.turns.getLast? = some turn ∧ turn.semanticTurn.toolCalls ≠ [] ∧
    List.Forall₂ (fun call o => o.call = call) turn.semanticTurn.toolCalls (lastOperations s turn) ∧
    ∀ o ∈ s.toolOperations, o.record.turnId ≠ turn.record.id → o.record.status.isTerminal = true

def Answered (s : DurableEpisodeState) : Prop :=
  NoTurns s ∨ Planned s ∧ ∀ o ∈ s.toolOperations, o.record.status.isTerminal = true

structure TurnShape (before : List DurableEpisodeState) (s : DurableEpisodeState) : Prop where
  shaped : NoTurns s ∨ Unanswered s ∨ Planned s
  results : ∀ o ∈ s.toolOperations, o.record.status.isTerminal = true → o.record.resultDigest.isSome = true
  fixed : Fixed s.status → Answered s
  spent : s.status = .budgetExhausted → Answered s ∨ ∃ r, before.getLast? = some r ∧ r.status = .turnRecorded
  tools : s.status = .toolWorkPending → Planned s
  unplanned : Unplanned s.status → Unanswered s

variable {before : List DurableEpisodeState} {o o' : DurableToolOperation} {index : Nat}
variable {inputDigest : Sha256Digest} {calls : List GatewayToolCall} {operations : List DurableToolOperation}
  {turn : TurnRecord}

section operations

omit [Sha256]

theorem TurnShape.kept {before' : List DurableEpisodeState} (h : TurnShape before s)
    (ht : s'.turns = s.turns) (ho : s'.toolOperations = s.toolOperations) (hf : Fixed s'.status → Answered s)
    (hb : s'.status = .budgetExhausted → Answered s ∨ ∃ r, before'.getLast? = some r ∧ r.status = .turnRecorded)
    (hw : s'.status = .toolWorkPending → Planned s) (hu : Unplanned s'.status → Unanswered s) :
    TurnShape before' s' := by
  have hn : NoTurns s' = NoTurns s := by simp only [NoTurns, ht, ho]
  have hun : Unanswered s' = Unanswered s := by simp only [Unanswered, ht, ho]
  have hp : Planned s' = Planned s := by simp only [Planned, lastOperations, ht, ho]
  have ha : Answered s' = Answered s := by simp only [Answered, hn, hp, ho]
  refine ⟨?_, ?_, ?_, ?_, ?_, ?_⟩
  · rw [hn, hun, hp]
    exact h.shaped
  · rw [ho]
    exact h.results
  · rw [ha]
    exact hf
  · rw [ha]
    exact hb
  · rw [hp]
    exact hw
  · rw [hun]
    exact hu

theorem forall₂_filter_set {A B : Type} {r : B → A → Prop} {p : A → Bool} {as : List A} {bs : List B} {i : Nat}
    {a a' : A} (h : List.Forall₂ r bs (as.filter p)) (hi : as[i]? = some a) (hp : p a' = p a)
    (hr : ∀ b, r b a → r b a') : List.Forall₂ r bs ((as.set i a').filter p) := by
  induction as generalizing bs i with
  | nil => simp at hi
  | cons x xs ih =>
    cases i with
    | zero =>
      obtain rfl : x = a := by simpa using hi
      rw [List.set_cons_zero]
      cases hx : p x with
      | false =>
        rw [List.filter_cons_of_neg (by simp [hx])] at h
        rw [List.filter_cons_of_neg (by simp [hp, hx])]
        exact h
      | true =>
        rw [List.filter_cons_of_pos hx] at h
        rw [List.filter_cons_of_pos (by rw [hp, hx])]
        cases h with
        | cons hab hrest => exact .cons (hr _ hab) hrest
    | succ i =>
      rw [List.set_cons_succ]
      have hi' : xs[i]? = some a := by simpa using hi
      cases hx : p x with
      | false =>
        rw [List.filter_cons_of_neg (by simp [hx])] at h ⊢
        exact ih h hi'
      | true =>
        rw [List.filter_cons_of_pos hx] at h ⊢
        cases h with
        | cons hab hrest => exact .cons hab (ih hrest hi')

theorem OperationChange.turnId (h : OperationChange log s o o') : o'.record.turnId = o.record.turnId := by
  simp only [ToolOperationRecord.turnId, h.spec]

theorem Planned.changed (h : Planned s) (ht : s'.turns = s.turns)
    (hg : s.toolOperations[index]? = some o) (ho : s'.toolOperations = s.toolOperations.set index o')
    (hc : OperationChange log s o o') : Planned s' := by
  obtain ⟨turn, hlast, hne, hcalls, hearlier⟩ := h
  refine ⟨turn, ht ▸ hlast, hne, ?_, ?_⟩
  · rw [lastOperations, ho]
    refine forall₂_filter_set hcalls hg (by rw [hc.turnId]) fun call hcall => ?_
    rw [hc.call]
    exact hcall
  · intro x hx hturn
    rw [ho] at hx
    rcases List.mem_or_eq_of_mem_set hx with hx | rfl
    · exact hearlier x hx hturn
    · have hopen := hearlier o (List.mem_of_getElem? hg) (by rw [← hc.turnId]; exact hturn)
      rw [hc.unfinished] at hopen
      cases hopen

theorem TurnShape.planned_of_open (h : TurnShape before s) (hm : o ∈ s.toolOperations)
    (ho : o.record.status.isTerminal = false) : Planned s := by
  rcases h.shaped with ⟨_, hnone⟩ | ⟨_, _, hall⟩ | hp
  · simp [hnone] at hm
  · rw [(hall o hm).2] at ho
    cases ho
  · exact hp

end operations

theorem PlannedCalls.results (h : PlannedCalls id turn inputDigest log index calls operations) :
    ∀ o ∈ operations, o.record.status.isTerminal = true → o.record.resultDigest.isSome = true := by
  induction h with
  | nil => simp
  | cons hc _ ih =>
    intro o hm ht
    rcases List.mem_cons.mp hm with rfl | hm
    · rcases hc.outcome with ⟨hst, _⟩ | ⟨_, digest, _, hd⟩
      · rw [hst] at ht
        cases ht
      · simp [hd]
    · exact ih o hm ht

theorem EpisodeStep.results (h : EpisodeStep id s log s')
    (hr : ∀ o ∈ s.toolOperations, o.record.status.isTerminal = true → o.record.resultDigest.isSome = true) :
    ∀ o ∈ s'.toolOperations, o.record.status.isTerminal = true → o.record.resultDigest.isSome = true := by
  cases h.operationsChange with
  | kept ho =>
    rw [ho]
    exact hr
  | @planned turn operations ho _ _ _ _ _ hp =>
    rw [ho]
    intro o hm ht
    rcases List.mem_append.mp hm with hm | hm
    · exact hr o hm ht
    · exact hp.results o hm ht
  | @changed index o o' hg ho hc =>
    rw [ho]
    intro x hx ht
    rcases List.mem_or_eq_of_mem_set hx with hx | rfl
    · exact hr x hx ht
    · rcases hc.finished with ⟨_, hopen⟩ | ⟨_, _, _, _, _, _, hd, _⟩
      · rw [hopen] at ht
        cases ht
      · simp [hd]

theorem Located.turnId_ne (h : Located id s) {turn : TurnId} (ht : derivedTurnId id (s.turns.length + 1) = .ok turn) :
    ∀ o ∈ s.toolOperations, o.record.turnId ≠ turn := by
  obtain ⟨places, hplaced, _, hbound, _⟩ := h.operations
  rintro o hm rfl
  obtain ⟨i, hi, rfl⟩ := List.getElem_of_mem hm
  obtain ⟨hlen, hget⟩ := List.forall₂_iff_get.mp hplaced
  have hp : derivedTurnId id (places[i].1 + 1) = _ := (hget i hi (hlen ▸ hi)).1
  have heq := derivedTurnId_inj hp ht
  have hlt := hbound places[i] (List.getElem_mem _)
  omega

omit [Sha256] in
theorem Answered.all (h : Answered s) : ∀ o ∈ s.toolOperations, o.record.status.isTerminal = true := by
  rcases h with ⟨_, hnone⟩ | ⟨_, hall⟩
  · simp [hnone]
  · exact hall

theorem PlannedCalls.called (h : PlannedCalls id turn inputDigest log index calls operations) :
    List.Forall₂ (fun call o => o.call = call) calls operations ∧ ∀ o ∈ operations, o.record.turnId = turn.id := by
  induction h with
  | nil => exact ⟨.nil, by simp⟩
  | cons hc _ ih =>
    obtain ⟨_, _, _, _, hspec⟩ := hc.derived
    refine ⟨.cons hc.called ih.1, fun o hm => ?_⟩
    rcases List.mem_cons.mp hm with rfl | hm
    · simp only [ToolOperationRecord.turnId, hspec, plannedSpec]
    · exact ih.2 o hm

theorem Unanswered.planned {turn : DurableTurn}
    (h : Unanswered s) (ht : s.turns.getLast? = some turn) (hne : turn.semanticTurn.toolCalls ≠ [])
    (hp : PlannedCalls id turn.record inputDigest log 0 turn.semanticTurn.toolCalls operations)
    (ht' : s'.turns = s.turns) (ho : s'.toolOperations = s.toolOperations ++ operations) : Planned s' := by
  obtain ⟨turn', hlast, hall⟩ := h
  obtain rfl : turn = turn' := Option.some.inj (ht.symm.trans hlast)
  obtain ⟨hcalls, hturns⟩ := hp.called
  have hold : s.toolOperations.filter (fun o => o.record.turnId = turn.record.id) = [] :=
    List.filter_eq_nil_iff.mpr fun o hm => by simpa using (hall o hm).1
  have hnew : operations.filter (fun o => o.record.turnId = turn.record.id) = operations :=
    List.filter_eq_self.mpr fun o hm => by simpa using hturns o hm
  refine ⟨turn, ht' ▸ ht, hne, ?_, ?_⟩
  · rw [lastOperations, ho, List.filter_append, hold, hnew, List.nil_append]
    exact hcalls
  · intro o hm hturn
    rw [ho] at hm
    rcases List.mem_append.mp hm with hm | hm
    · exact (hall o hm).2
    · exact absurd (hturns o hm) hturn

/-- What a guard on the saves excludes: a stopped turn continued, or a stale resumption. -/
structure Smooth (before : List DurableEpisodeState) (s s' : DurableEpisodeState) : Prop where
  reviewed : s.status = .stopReview → s'.status ≠ .readyForModel
  resumed : s'.status = .readyForModel → s.status ≠ .incomplete ∧
    (s.status = .budgetExhausted → ∀ r, before.getLast? = some r → r.status ≠ .turnRecorded)

theorem TurnShape.moved {next : EpisodeStatus} (h : TurnShape before s)
    (hb : Bound before s) (hm : Moves s next) : TurnShape (before ++ [s]) (s.withStatus next) := by
  cases hm with
  | begun hs => exact h.kept rfl rfl (fun _ => h.fixed (.inl hs)) (by simp) (by simp) (by simp [Unplanned])
  | spent hs _ =>
    exact h.kept rfl rfl (by simp [Fixed]) (fun _ => .inl (h.fixed (.inr (.inl hs)))) (by simp) (by simp [Unplanned])
  | stopped hs _ _ =>
    exact h.kept rfl rfl (by simp [Fixed]) (by simp) (by simp) fun _ => h.unplanned (.inl hs)
  | overspent hs _ _ =>
    exact h.kept rfl rfl (by simp [Fixed]) (fun _ => .inr ⟨s, by simp, hs⟩) (by simp) (by simp [Unplanned])
  | unresolved hs ho =>
    obtain ⟨o, hm, hopen⟩ := ho
    exact h.kept rfl rfl (by simp [Fixed]) (by simp) (fun _ => h.planned_of_open hm hopen) (by simp [Unplanned])
  | reopened hs hc ho =>
    rcases hb.suspended hs with hreq | ⟨o, hm, hopen⟩
    · rw [hc] at hreq
      cases hreq
    · rw [ho o hm] at hopen
      cases hopen
  | _ => exact h.kept rfl rfl (by simp [Fixed]) (by simp) (by simp) (by simp [Unplanned])

theorem TurnShape.moved_operation {status : EpisodeStatus} (h : TurnShape before s)
    (hs : EpisodeStep id s log s') (ht : s'.turns = s.turns) (hst : s'.status = status) (hf : ¬ Fixed status)
    (hb : status ≠ .budgetExhausted) (hu : ¬ Unplanned status)
    (hw : status = .toolWorkPending → s.status = .toolWorkPending) : TurnShape (before ++ [s]) s' := by
  subst hst
  cases hs.operationsChange with
  | kept ho =>
    exact h.kept ht ho (fun h => absurd h hf) (fun h => absurd h hb) (fun hst => h.tools (hw hst)) fun h => absurd h hu
  | planned _ hst hst' _ _ _ _ =>
    have hcontra := hst.symm.trans (hw hst')
    cases hcontra
  | changed hg ho hc =>
    have hp := (h.planned_of_open (List.mem_of_getElem? hg) hc.unfinished).changed ht hg ho hc
    exact ⟨.inr (.inr hp), hs.results h.results, fun h => absurd h hf, fun h => absurd h hb, fun _ => hp,
      fun h => absurd h hu⟩

theorem TurnShape.step (h : TurnShape before s) (hl : Located id s)
    (hb : Bound before s) (hs : EpisodeStep id s log s') (hsm : Smooth before s s') :
    TurnShape (before ++ [s]) s' := by
  have hpending : s.status = .modelAttemptPending → Answered s := fun hst => h.fixed (.inr (.inr (.inl hst)))
  -- the model side leaves turns and operations alone until a turn is decoded
  have hmodel : Answered s → s'.turns = s.turns → s'.toolOperations = s.toolOperations →
      s'.status ≠ .toolWorkPending → ¬ Unplanned s'.status → TurnShape (before ++ [s]) s' :=
    fun ha ht ho hw hu => h.kept ht ho (fun _ => ha) (fun _ => .inl ha) (fun h => absurd h hw) fun h => absurd h hu
  have hstep := hs
  cases hs with
  | moved hm => exact h.moved hb hm
  | prepared hst _ _ _ _ _ _ =>
    exact hmodel (h.fixed (.inr (.inl hst))) rfl rfl (by simp) (by simp [Unplanned])
  | dispatched hst _ _ =>
    have hst' : ∀ a, (s.setLastAttempt a).status = .modelAttemptPending := fun _ => hst
    exact hmodel (hpending hst) rfl rfl (by rw [hst']; simp) (by rw [hst']; simp [Unplanned])
  | recovered hst _ _ hn =>
    refine hmodel (hpending hst) rfl rfl ?_ ?_ <;> rw [withStatus_status, hn]
    · split
      · simp
      · split <;> simp
    · split
      · simp [Unplanned]
      · split <;> simp [Unplanned]
  | @turned _ attempt request exchange turn hst _ _ _ _ hi _ _ _ _ =>
    have hun : Unanswered (withStatus { s.setLastAttempt (attempt.afterOutcome (.turn exchange)) with
        turns := s.turns ++ [turn] } .turnRecorded) :=
      ⟨turn, by simp, fun o hm => ⟨hl.turnId_ne hi o hm, (hpending hst).all o hm⟩⟩
    exact ⟨.inr (.inl hun), h.results, by simp [Fixed], by simp, by simp, fun _ => hun⟩
  | refused hst _ _ _ _ _ hn =>
    refine hmodel (hpending hst) rfl rfl ?_ ?_ <;> rcases hn with rfl | rfl <;> simp [Unplanned]
  | unknown hst _ _ _ _ hn =>
    refine hmodel (hpending hst) rfl rfl ?_ ?_ <;> rw [withStatus_status, hn]
    · split <;> simp
    · split <;> simp [Unplanned]
  | @planned _ turn operations hst ht _ _ hp hne =>
    have hplanned : Planned (withStatus { s with toolOperations := s.toolOperations ++ operations } .toolWorkPending) :=
      (h.unplanned (.inl hst)).planned ht hne hp rfl rfl
    exact ⟨.inr (.inr hplanned), hstep.results h.results, by simp [Fixed], by simp, fun _ => hplanned,
      by simp [Unplanned]⟩
  | toolDispatched hst | toolCompleted hst | toolRunning hst =>
    exact h.moved_operation hstep rfl hst (by simp [Fixed]) (by simp) (by simp [Unplanned]) fun _ => hst
  | toolSuspended _ _ _ _ _ =>
    exact h.moved_operation hstep rfl rfl (by simp [Fixed]) (by simp) (by simp [Unplanned]) (by simp)
  | toolsFinished hst _ ho =>
    exact hmodel (.inr ⟨h.tools hst, ho⟩) rfl rfl (by simp) (by simp [Unplanned])
  | continued hst _ _ _ => exact absurd rfl (hsm.reviewed hst)
  | resumed hst _ _ =>
    have hready := hsm.resumed rfl
    have ha : Answered s := by
      rcases hst with hst | hst | hst
      · exact h.fixed (.inr (.inr (.inr hst)))
      · exact absurd hst hready.1
      · rcases h.spent hst with ha | ⟨r, hlast, hturn⟩
        · exact ha
        · exact absurd hturn (hready.2 hst r hlast)
    exact hmodel ha rfl rfl (by simp) (by simp [Unplanned])
  | cancelRequested _ _ _ hn =>
    rcases hn with ⟨rfl, _⟩ | ⟨rfl, _⟩
    · exact h.moved_operation hstep rfl rfl (by simp [Fixed]) (by simp) (by simp [Unplanned]) (by simp)
    · exact h.moved_operation hstep rfl rfl (by simp [Fixed]) (by simp) (by simp [Unplanned]) (by simp)

/-- Every turn was decoded by an attempt of its own. -/
def TurnsDecoded (s : DurableEpisodeState) : Prop :=
  ∀ turn ∈ s.turns, ∃ (i : Nat) (attempt : ModelAttemptRecord), s.attempts[i]? = some attempt ∧
    attempt.id = turn.record.spec.modelAttemptId ∧ attempt.status = .decoded

omit [Sha256] in
theorem TurnsDecoded.replaceLast {front : List ModelAttemptRecord} {a a' : ModelAttemptRecord} (h : TurnsDecoded s)
    (ha : s.attempts = front ++ [a]) (ha' : s'.attempts = front ++ [a']) (hne : a.status ≠ .decoded)
    (turn : DurableTurn) (hm : turn ∈ s.turns) : ∃ (i : Nat) (attempt : ModelAttemptRecord),
      s'.attempts[i]? = some attempt ∧ attempt.id = turn.record.spec.modelAttemptId ∧ attempt.status = .decoded := by
  obtain ⟨i, attempt, hi, hid, hst⟩ := h turn hm
  have hlt : i < front.length := by
    have hlen := (List.getElem?_eq_some_iff.mp hi).choose
    rw [ha, List.length_append, List.length_singleton] at hlen
    by_contra hge
    obtain rfl : i = front.length := by omega
    rw [ha, List.getElem?_concat_length] at hi
    cases hi
    exact hne hst
  rw [ha, List.getElem?_append_left hlt] at hi
  exact ⟨i, attempt, by rw [ha', List.getElem?_append_left hlt]; exact hi, hid, hst⟩

omit [Sha256] in
theorem TurnsDecoded.step (h : TurnsDecoded s) (hs : AttemptsChange id s log s') : TurnsDecoded s' := by
  intro turn hm
  cases hs with
  | kept ha ht =>
    rw [ht] at hm
    rw [ha]
    exact h turn hm
  | pushed ha ht _ _ _ _ _ =>
    rw [ht] at hm
    obtain ⟨i, attempt, hi, hid, hst⟩ := h turn hm
    refine ⟨i, attempt, ?_, hid, hst⟩
    rw [ha, List.getElem?_append_left (List.getElem?_eq_some_iff.mp hi).choose]
    exact hi
  | dispatched ha ha' ht hp | ended ha ha' ht _ hp =>
    rw [ht] at hm
    exact h.replaceLast ha ha' (by simp [hp]) turn hm
  | @decoded front a a' turn' _ _ ha ha' ht hspec hp hp' _ _ _ hid _ =>
    rw [ht] at hm
    rcases List.mem_append.mp hm with hm | hm
    · exact h.replaceLast ha ha' (by simp [hp]) turn hm
    · rw [List.mem_singleton.mp hm]
      refine ⟨front.length, a', by rw [ha', List.getElem?_concat_length], ?_, hp'⟩
      rw [hid, ModelAttemptRecord.id, hspec]
      rfl

def TurnsCounted (s : DurableEpisodeState) : Prop :=
  ∀ turn ∈ s.turns, turn.record.spec.turnIndex ≤ s.turns.length

omit [Sha256] in
theorem TurnsCounted.step (h : TurnsCounted s) (hs : AttemptsChange id s log s') : TurnsCounted s' := by
  have hkept : s'.turns = s.turns → TurnsCounted s' := fun ht => by
    simp only [TurnsCounted, ht]
    exact h
  cases hs with
  | kept _ ht | pushed _ ht | dispatched _ _ ht | ended _ _ ht => exact hkept ht
  | decoded _ _ ht _ _ _ _ _ _ _ hn =>
    intro turn hm
    rw [ht, List.length_append, List.length_singleton]
    rw [ht] at hm
    rcases List.mem_append.mp hm with hm | hm
    · have := h turn hm
      omega
    · rw [List.mem_singleton.mp hm, hn]

end AlloyPort
