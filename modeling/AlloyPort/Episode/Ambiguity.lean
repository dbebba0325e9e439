import AlloyPort.Episode.Shape

/-! The counter of ambiguous model attempts. It counts them, and none is opened beyond its bound, as
long as no cancellation meets a dispatch and no episode is resumed beyond the bound. -/

namespace AlloyPort

open SharedStore DurableEpisodeState EpisodeStatus ModelAttemptStatus

def ModelAttemptStatus.isAmbiguous : ModelAttemptStatus → Bool
  | .ambiguous | .cancelledAmbiguous => true
  | _ => false

def DurableEpisodeState.ambiguousCount (s : DurableEpisodeState) : Nat :=
  s.attempts.countP fun attempt => attempt.status.isAmbiguous

/-- The save requests the cancellation of an episode whose last attempt is being dispatched. -/
def CancelsDispatch (s s' : DurableEpisodeState) : Prop :=
  s.cancellationRequested = false ∧ s'.cancellationRequested = true ∧
    ∃ attempt, s.attempts.getLast? = some attempt ∧ attempt.status = .dispatching

/-- The save resumes an episode with more ambiguous attempts than its rules allow. -/
def ResumesExhausted (s s' : DurableEpisodeState) : Prop :=
  s.status.isTerminal = true ∧ s'.status.isTerminal = false ∧
    s.policy.maxAmbiguousModelAttempts < s.ambiguousCount

def OpensAttempt (s s' : DurableEpisodeState) : Prop :=
  ∃ (i : Nat) (attempt : ModelAttemptRecord), s'.attempts[i]? = some attempt ∧
    (attempt.status = .prepared ∨ attempt.status = .dispatching) ∧ s.attempts[i]? ≠ some attempt

structure Accounted (s : DurableEpisodeState) : Prop where
  counted : s.ambiguousModelAttempts = s.ambiguousCount
  bounded : s.status.isTerminal = false → s.ambiguousCount ≤ s.policy.maxAmbiguousModelAttempts
  dispatching : ∀ attempt, s.attempts.getLast? = some attempt → attempt.status = .dispatching →
    s.status = .modelAttemptPending
  quiet : s.cancellationRequested = true → s.status ≠ .modelAttemptPending

variable [Sha256] {id : EpisodeId} {s s' : DurableEpisodeState} {log : List GatewayEvent} {attempt : ModelAttemptRecord}

section steps

omit [Sha256]

theorem ambiguousCount_eq (h : s'.attempts = s.attempts) : s'.ambiguousCount = s.ambiguousCount := by
  unfold ambiguousCount
  rw [h]

variable {a : ModelAttemptRecord}

theorem ambiguousCount_last (hl : s.attempts.getLast? = some attempt)
    (ha : attempt.status.isAmbiguous = false) (h : s'.attempts = s.attempts.dropLast ++ [a]) :
    s'.ambiguousCount = s.ambiguousCount + if a.status.isAmbiguous then 1 else 0 := by
  unfold ambiguousCount
  rw [h, attempts_eq hl, List.dropLast_concat, List.countP_append, List.countP_append]
  simp [List.countP_singleton, ha]

theorem Accounted.same (h : Accounted s) (ha : s'.attempts = s.attempts)
    (hn : s'.ambiguousModelAttempts = s.ambiguousModelAttempts) (hp : s'.policy = s.policy)
    (ht : s.status.isTerminal = false) (hs : s.status ≠ .modelAttemptPending) (hs' : s'.status ≠ .modelAttemptPending) :
    Accounted s' where
  counted := by rw [hn, h.counted, ambiguousCount_eq ha]
  bounded _ := by
    rw [ambiguousCount_eq ha, hp]
    exact h.bounded ht
  dispatching attempt hl hd := absurd (h.dispatching attempt (ha ▸ hl) hd) hs
  quiet _ := hs'

theorem Accounted.settled (h : Accounted s) (hs : s.status = .modelAttemptPending)
    (hl : s.attempts.getLast? = some attempt) (hd : attempt.status = .dispatching)
    (ha : s'.attempts = s.attempts.dropLast ++ [a]) (ho : a.status.isAmbiguous = false) (hk : a.status ≠ .dispatching)
    (hn : s'.ambiguousModelAttempts = s.ambiguousModelAttempts) (hp : s'.policy = s.policy)
    (hs' : s'.status ≠ .modelAttemptPending) : Accounted s' := by
  have hcount : s'.ambiguousCount = s.ambiguousCount := by
    simpa [ho] using ambiguousCount_last hl (by simp [hd, isAmbiguous]) ha
  constructor
  · rw [hn, hcount, h.counted]
  · intro _
    rw [hcount, hp]
    exact h.bounded (by simp [hs, isTerminal])
  · intro attempt' hl' hd'
    rw [ha, List.getLast?_concat] at hl'
    exact absurd (Option.some.inj hl' ▸ hd') hk
  · exact fun _ => hs'

theorem Accounted.unknown (h : Accounted s)
    (hl : s.attempts.getLast? = some attempt) (hd : attempt.status = .dispatching)
    (ha : s'.attempts = s.attempts.dropLast ++ [a]) (ho : a.status = .ambiguous)
    (hn : s'.ambiguousModelAttempts = s.ambiguousModelAttempts + 1) (hp : s'.policy = s.policy)
    (hs' : s'.status = if s.ambiguousModelAttempts + 1 > s.policy.maxAmbiguousModelAttempts then .budgetExhausted
      else .readyForModel) : Accounted s' := by
  have hcount : s'.ambiguousCount = s.ambiguousCount + 1 := by
    simpa [ho, isAmbiguous] using
      ambiguousCount_last hl (by simp [hd, isAmbiguous]) ha
  constructor
  · rw [hn, hcount, h.counted]
  · intro hopen
    rw [hs'] at hopen
    rw [hcount, hp, ← h.counted]
    by_cases hbound : s.ambiguousModelAttempts + 1 > s.policy.maxAmbiguousModelAttempts
    · rw [if_pos hbound] at hopen
      cases hopen
    · omega
  · intro attempt' hl' hd'
    rw [ha, List.getLast?_concat] at hl'
    rw [← Option.some.inj hl', ho] at hd'
    cases hd'
  · intro _
    rw [hs']
    split <;> simp

theorem Accounted.moved {next : EpisodeStatus} (h : Accounted s) (hm : Moves s next) :
    Accounted (s.withStatus next) := by
  have hstatus : s.status.isTerminal = false ∧ s.status ≠ .modelAttemptPending ∧ next ≠ .modelAttemptPending := by
    cases hm <;> simp_all [isTerminal]
  exact h.same rfl rfl rfl hstatus.1 hstatus.2.1 hstatus.2.2

theorem Accounted.prepared (h : Accounted s) (hs : s.status = .readyForModel)
    (hc : s.cancellationRequested = false) (ha : a.status = .prepared) :
    Accounted (withStatus { s with attempts := s.attempts ++ [a] } .modelAttemptPending) := by
  have hcount : (withStatus { s with attempts := s.attempts ++ [a] } .modelAttemptPending).ambiguousCount =
      s.ambiguousCount := by
    simp [ambiguousCount, List.countP_append, ha, isAmbiguous]
  constructor
  · exact h.counted.trans hcount.symm
  · intro _
    rw [hcount]
    exact h.bounded (by simp [hs, isTerminal])
  · exact fun _ _ _ => rfl
  · intro hflag
    exact absurd (hc.symm.trans hflag) (by decide)

theorem Accounted.dispatched (h : Accounted s) (hs : s.status = .modelAttemptPending)
    (hl : s.attempts.getLast? = some attempt) (ha : attempt.status = .prepared) :
    Accounted (s.setLastAttempt { attempt with status := .dispatching }) := by
  have hcount : (s.setLastAttempt { attempt with status := .dispatching }).ambiguousCount = s.ambiguousCount := by
    have hattempts : (s.setLastAttempt { attempt with status := .dispatching }).attempts =
        s.attempts.dropLast ++ [{ attempt with status := .dispatching }] := rfl
    have hlast := ambiguousCount_last hl (by simp [ha, isAmbiguous]) hattempts
    simpa [isAmbiguous] using hlast
  constructor
  · exact h.counted.trans hcount.symm
  · intro ht
    rw [hcount]
    exact h.bounded ht
  · exact fun _ _ _ => hs
  · exact h.quiet

theorem Accounted.resumed {granted : EpisodeAllowance} {grants : List AllowanceGrant} (h : Accounted s)
    (hs : s.status.isTerminal = true) (hg : s.ambiguousCount ≤ s.policy.maxAmbiguousModelAttempts) :
    Accounted (withStatus { s with
      policy := s.policy.withAllowance granted, grants := grants, cancellationRequested := false } .readyForModel) where
  counted := h.counted
  bounded _ := hg
  dispatching attempt hl hd := by
    rw [h.dispatching attempt hl hd] at hs
    cases hs
  quiet hflag := by cases hflag

theorem Accounted.cancelRequested {operations : List DurableToolOperation} {attempts : List ModelAttemptRecord}
    {next : EpisodeStatus} (h : Accounted s) (ht : s.status.isTerminal = false)
    (ha : attempts = s.attempts ∨ ∃ attempt, s.attempts.getLast? = some attempt ∧
      attempt.status = .dispatching ∧ attempts = s.attempts.dropLast ++
        [{ attempt with diagnosticDigest := none, status := .cancelledAmbiguous }])
    (hn : next = .suspended ∨ next = .cancellationPending)
    (hg : ∀ attempt, s.attempts.getLast? = some attempt → attempt.status ≠ .dispatching) :
    Accounted (withStatus { s with
      cancellationRequested := true, attempts := attempts, toolOperations := operations } next) := by
  obtain rfl : attempts = s.attempts := by
    rcases ha with ha | ⟨attempt, hl, hd, _⟩
    · exact ha
    · exact absurd hd (hg attempt hl)
  constructor
  · exact h.counted
  · exact fun _ => h.bounded ht
  · exact fun attempt hl hd => absurd hd (hg attempt hl)
  · intro _
    rcases hn with rfl | rfl <;> simp

theorem accounted_fresh (h : Fresh s) : Accounted s := by
  obtain ⟨hstatus, hattempts, _⟩ := h.created
  have hnew : s.ambiguousModelAttempts = 0 ∧ s.cancellationRequested = false := by
    obtain ⟨_, spec, _, hnew⟩ := h
    simp only [DurableEpisodeState.new, Effect.bind_eq_ok] at hnew
    obtain ⟨_, _, hnew⟩ := hnew
    cases hnew
    exact ⟨rfl, rfl⟩
  have hcount : s.ambiguousCount = 0 := by simp [ambiguousCount, hattempts]
  constructor
  · rw [hnew.1, hcount]
  · intro _
    omega
  · simp [hattempts]
  · simp [hnew.2]

end steps

theorem Accounted.step (h : Accounted s) (hs : EpisodeStep id s log s') (hc : ¬ CancelsDispatch s s')
    (hr : ¬ ResumesExhausted s s') : Accounted s' := by
  cases hs with
  | moved hm => exact h.moved hm
  | prepared hs hflag => exact h.prepared hs hflag rfl
  | dispatched hs hl ha => exact h.dispatched hs hl ha
  | @recovered attempt next hs hl ha hn =>
    have hflag : s.cancellationRequested = false := by
      cases hflag : s.cancellationRequested with
      | false => rfl
      | true => exact absurd hs (h.quiet hflag)
    rw [if_neg (by simp [hflag])] at hn
    exact h.unknown hl ha rfl (by simp [hflag]) rfl rfl hn
  | turned hs hl ha => exact h.settled hs hl ha rfl rfl (by simp [ModelAttemptRecord.afterOutcome]) rfl rfl (by simp)
  | refused hs hl ha he hr ho hn =>
    have hnext : ∀ next : EpisodeStatus, next = .failed ∨ next = .readyForModel → next ≠ .modelAttemptPending := by
      rintro _ (rfl | rfl) <;> simp
    rcases ho with ⟨_, _, _, rfl⟩ | ⟨_, _, _, _, rfl⟩ | ⟨_, _, _, rfl⟩ <;>
      exact h.settled hs hl ha rfl rfl (by simp [ModelAttemptRecord.afterOutcome]) rfl rfl (hnext _ hn)
  | unknown hs hl ha he hr hn => exact h.unknown hl ha rfl rfl rfl rfl hn
  | planned hs => exact h.same rfl rfl rfl (by simp [hs, isTerminal]) (by simp [hs]) (by simp)
  | toolDispatched hs | toolCompleted hs | toolRunning hs =>
    have hpending : s.status ≠ .modelAttemptPending := by simp [hs]
    exact h.same rfl rfl rfl (by simp [hs, isTerminal]) hpending hpending
  | toolSuspended hs | toolsFinished hs | continued hs =>
    exact h.same rfl rfl rfl (by simp [hs, isTerminal]) (by simp [hs]) (by simp)
  | resumed hs =>
    have hterminal : s.status.isTerminal = true := by
      rcases hs with hs | hs | hs <;> simp [hs, isTerminal]
    refine h.resumed hterminal (Nat.le_of_not_lt fun hlt => hr ⟨hterminal, rfl, hlt⟩)
  | cancelRequested ht ha ho hn =>
    refine h.cancelRequested ht ha (hn.imp And.left And.left) fun attempt hl hd => ?_
    cases hflag : s.cancellationRequested with
    | false => exact hc ⟨hflag, rfl, attempt, hl, hd⟩
    | true => exact h.quiet hflag (h.dispatching attempt hl hd)

theorem EpisodeStep.opensAttempt (h : EpisodeStep id s log s') (ho : OpensAttempt s s') :
    s.status.isTerminal = false := by
  cases h with
  | moved hm => cases hm <;> simp_all [isTerminal]
  | resumed hs =>
    obtain ⟨i, attempt, hnew, _, hold⟩ := ho
    exact absurd hnew hold
  | cancelRequested ht => exact ht
  | prepared hs | dispatched hs | recovered hs | turned hs | refused hs | unknown hs | planned hs | toolDispatched hs
    | toolCompleted hs | toolRunning hs | toolSuspended hs | toolsFinished hs | continued hs =>
    simp [hs, isTerminal]

variable {answers : (c : GatewayCall) → GatewayReply c → Prop}

theorem reachable_accounted {c : EpisodeConfig} (h : Reachable (episodeEnv answers) c)
    (hg : ∀ (i : Nat) s s', (c.store id)[i]? = some s → (c.store id)[i + 1]? = some s' →
      ¬ CancelsDispatch s s' ∧ ¬ ResumesExhausted s s') : ∀ s ∈ c.store id, Accounted s := by
  refine ((h.sound (complies answers)).runWith id hg).invariant (fun s hs => accounted_fresh hs.1) ?_
  rintro s s' ⟨⟨log, _, hstep⟩, hcancel, hresume⟩ hs
  exact hs.step hstep hcancel hresume

/-- In an episode that is never cancelled while an attempt is being dispatched and never resumed beyond
the bound, the counter is the number of ambiguous attempts, and no attempt is opened beyond the bound. -/
theorem ambiguous_attempts_counted {c : EpisodeConfig} (h : Reachable (episodeEnv answers) c)
    (hg : ∀ (i : Nat) s s', (c.store id)[i]? = some s → (c.store id)[i + 1]? = some s' →
      ¬ CancelsDispatch s s' ∧ ¬ ResumesExhausted s s') :
    (∀ s ∈ c.store id, s.ambiguousModelAttempts = s.ambiguousCount) ∧
      ∀ (i : Nat) s s', (c.store id)[i]? = some s → (c.store id)[i + 1]? = some s' → OpensAttempt s s' →
        s.ambiguousCount ≤ s.policy.maxAmbiguousModelAttempts := by
  have haccounted := reachable_accounted h hg
  refine ⟨fun s hs => (haccounted s hs).counted, ?_⟩
  intro i s s' hs hs' ho
  obtain ⟨log, _, hstep⟩ := (h.sound (complies answers)).linked id i s s' hs hs'
  exact (haccounted s (List.mem_of_getElem? hs)).bounded (hstep.opensAttempt ho)

def unknownOracle : Oracle :=
  constantOracle (.ambiguous "timeout" none .never) none (.ok ()) (.pending ⟨[22]⟩)

def lostOracle : Oracle
  | .shouldCrash point => decide (point = .afterModelDispatchCommit)
  | call => unknownOracle call

@[irreducible] def retriedStore : EpisodeStore :=
  scriptedStore (List.replicate 3 (RunnerRequest.advance, unknownOracle) ++
    List.replicate 2 (RunnerRequest.advance, sampleOracle))

section samples

omit [Sha256]

theorem retriedStore_replayed : @Replayed transparentSha256 (fun _ _ => True) retriedStore := by
  unfold retriedStore
  exact scriptedStore_replayed _

theorem retriedStore_calm : ∀ s ∈ retriedStore.1 sampleId, s.cancellationRequested = false ∧
    s.status.isTerminal = false := by
  have hcalm : (retriedStore.1 sampleId).all (fun s => !s.cancellationRequested && !s.status.isTerminal) = true := by
    decide +kernel
  simpa using hcalm

theorem ambiguous_attempts_counted_sample :
    (retriedStore.1 sampleId).getLast?.map (·.attempts.map (·.status)) = some [.ambiguous, .decoded] ∧
      ∀ s ∈ retriedStore.1 sampleId, s.ambiguousModelAttempts = s.ambiguousCount := by
  refine ⟨by decide +kernel, ?_⟩
  refine (@ambiguous_attempts_counted transparentSha256 sampleId _ ⟨retriedStore.1, retriedStore.2, []⟩
    retriedStore_replayed ?_).1
  intro i s s' hs hs'
  have hcalm := retriedStore_calm s (List.mem_of_getElem? hs)
  have hcalm' := retriedStore_calm s' (List.mem_of_getElem? hs')
  refine ⟨fun hcancel => ?_, fun hresume => ?_⟩
  · rw [hcancel.2.1] at hcalm'
    cases hcalm'.1
  · rw [hresume.1] at hcalm
    cases hcalm.2

@[irreducible] def lostStore : EpisodeStore :=
  scriptedStore (List.replicate 3 (RunnerRequest.advance, lostOracle) ++
    [(RunnerRequest.requestCancellation, lostOracle)])

@[irreducible] def exhaustedStore : EpisodeStore :=
  scriptedStore (List.replicate 7 (RunnerRequest.advance, unknownOracle) ++
    [(RunnerRequest.resume ⟨4, 8, 8⟩, unknownOracle), (RunnerRequest.advance, unknownOracle)])

/-- A cancelled dispatch is not counted, and a resumed episode prepares beyond the bound. -/
theorem ambiguous_attempts_miscounted :
    (¬ ∀ c : EpisodeConfig, Reachable (@episodeEnv transparentSha256 fun _ _ => True) c → ∀ id, ∀ s ∈ c.store id,
        s.ambiguousModelAttempts = s.ambiguousCount) ∧
      ¬ ∀ c : EpisodeConfig, Reachable (@episodeEnv transparentSha256 fun _ _ => True) c → ∀ id,
        ∀ (i : Nat) s s', (c.store id)[i]? = some s → (c.store id)[i + 1]? = some s' → OpensAttempt s s' →
          s.ambiguousCount ≤ s.policy.maxAmbiguousModelAttempts := by
  constructor
  · intro hall
    have hlost : (lostStore.1 sampleId).all (fun s => s.ambiguousModelAttempts = s.ambiguousCount) = false := by
      decide +kernel
    have hreplayed : @Replayed transparentSha256 (fun _ _ => True) lostStore := by
      unfold lostStore
      exact scriptedStore_replayed _
    rw [List.all_eq_false] at hlost
    obtain ⟨s, hs, hne⟩ := hlost
    exact hne (decide_eq_true (hall ⟨lostStore.1, lostStore.2, []⟩ hreplayed sampleId s hs))
  · intro hall
    have hreplayed : @Replayed transparentSha256 (fun _ _ => True) exhaustedStore := by
      unfold exhaustedStore
      exact scriptedStore_replayed _
    have hbefore : (exhaustedStore.1 sampleId)[11]?.map (fun s => (s.attempts.length, s.ambiguousCount,
        s.policy.maxAmbiguousModelAttempts)) = some (3, 3, 2) := by
      decide +kernel
    have hafter : (exhaustedStore.1 sampleId)[12]?.bind (fun s => s.attempts[3]?.map (·.status)) = some .prepared := by
      decide +kernel
    obtain ⟨s, hs, hcounts⟩ := Option.map_eq_some_iff.mp hbefore
    obtain ⟨s', hs', hattempt⟩ := Option.bind_eq_some_iff.mp hafter
    obtain ⟨attempt, hattempt, hprepared⟩ := Option.map_eq_some_iff.mp hattempt
    simp only [Prod.mk.injEq] at hcounts
    have hbound := hall ⟨exhaustedStore.1, exhaustedStore.2, []⟩ hreplayed sampleId 11 s s' hs hs'
      ⟨3, attempt, hattempt, .inl hprepared, by simp [List.getElem?_eq_none (by omega : s.attempts.length ≤ 3)]⟩
    omega

end samples

end AlloyPort
