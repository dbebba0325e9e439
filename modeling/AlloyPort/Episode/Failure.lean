import AlloyPort.Episode.Shape

/-! What a dispatch that failed does to the episode. The failure is compared with the last one that any attempt has
recorded, however long ago. -/

namespace AlloyPort

open SharedStore DurableEpisodeState

/-- The diagnostic and the retry hint of a dispatch that produced no turn, and may be tried again. -/
def ModelGatewayOutcome.dispatchFailure : ModelGatewayOutcome → Option (Option Sha256Digest × ModelTransportRetryHint)
  | .confirmedNotSent _ digest retry => some (digest, retry)
  | .rejected _ _ digest retry => some (digest, retry)
  | .turn _ | .decodeFailed .. | .ambiguous .. => none

def saveThen (revision : Nat) (state : DurableEpisodeState) (advance : AgentLoopAdvance) :
    RunnerProg AgentLoopAdvance := do
  let _ ← Runner.save revision state
  return advance

def EndsFailed (revision : Nat) (program : RunnerProg AgentLoopAdvance) : Prop :=
  ∃ state : DurableEpisodeState, state.status = .failed ∧ program = saveThen revision state (.terminal .failed)

/-- The attempt directly before has recorded the same diagnostic. -/
def FailedAlike (history : List ModelAttemptRecord) (digest : Option Sha256Digest) : Prop :=
  ∃ previous diagnostic, history.getLast? = some previous ∧ previous.diagnosticDigest = some diagnostic ∧
    digest = some diagnostic

def lastDiagnostic (history : List ModelAttemptRecord) : Option Sha256Digest :=
  history.reverse.findSome? ModelAttemptRecord.diagnosticDigest

def ModelAttemptStatus.isSilent : ModelAttemptStatus → Bool
  | .prepared | .dispatching | .decoded => true
  | _ => false

/-- Attempts that have not failed have no diagnostic. -/
def Undiagnosed (s : DurableEpisodeState) : Prop :=
  ∀ attempt ∈ s.attempts, attempt.status.isSilent = true → attempt.diagnosticDigest = none

section outcomes

variable {s s' : DurableEpisodeState} {history : List ModelAttemptRecord} {attempt : ModelAttemptRecord}
variable {digest : Option Sha256Digest} {retry : ModelTransportRetryHint} {repeated : Bool} {revision : Nat}

theorem saveThen_inj {advance advance' : AgentLoopAdvance}
    (h : saveThen revision s advance = saveThen revision s' advance') : s = s' := by
  have hsave := (Effect.Prog.op.inj h).1
  cases hsave
  rfl

theorem afterFailedDispatch_eq (hs : s.status = .modelAttemptPending) :
    afterFailedDispatch ⟨revision, s⟩ retry repeated =
      if retry = .never ∨ repeated = true then saveThen revision (s.withStatus .failed) (.terminal .failed)
      else saveThen revision (s.withStatus .readyForModel) (.progressedAfter .readyForModel (match retry with
        | .afterMillis millis => millis
        | _ => backoffMillis (failedAttempts s))) := by
  unfold afterFailedDispatch
  by_cases hlast : retry = .never ∨ repeated = true
  · rw [if_pos hlast, if_pos hlast]
    have hfailed : s.transition .failed = .ok (s.withStatus .failed) := transition_ok.mpr ⟨by rw [hs]; rfl, rfl⟩
    dsimp only
    rw [hfailed]
    rfl
  · rw [if_neg hlast, if_neg hlast]
    have hready : s.transition .readyForModel = .ok (s.withStatus .readyForModel) :=
      transition_ok.mpr ⟨by rw [hs]; rfl, rfl⟩
    dsimp only
    rw [hready]
    rfl

theorem afterFailedDispatch_ends (hs : s.status = .modelAttemptPending) (hretry : retry ≠ .never) :
    EndsFailed revision (afterFailedDispatch ⟨revision, s⟩ retry repeated) ↔ repeated = true := by
  rw [afterFailedDispatch_eq hs]
  cases repeated with
  | true =>
    rw [if_pos (.inr rfl)]
    exact ⟨fun _ => rfl, fun _ => ⟨_, rfl, rfl⟩⟩
  | false =>
    rw [if_neg (by simp [hretry])]
    refine ⟨?_, nofun⟩
    rintro ⟨state, hstate, heq⟩
    rw [← saveThen_inj heq] at hstate
    cases hstate

theorem recordModelOutcome_refused [Sha256] {id : EpisodeId} {request : ModelTurnRequest}
    {outcome : ModelGatewayOutcome}
    (ha : attempt.status = .dispatching) (hfailure : outcome.dispatchFailure = some (digest, retry)) :
    recordModelOutcome id ⟨revision, s⟩ attempt request outcome =
      afterFailedDispatch ⟨revision, s.setLastAttempt (attempt.afterOutcome outcome)⟩ retry
        (repeatsTheLastFailure s digest) := by
  cases outcome with
  | confirmedNotSent diagnostic digest retry =>
    cases hfailure
    have hfinish : attempt.finishWithoutResponse .confirmedNotSent digest = .ok (attempt.afterOutcome
        (.confirmedNotSent diagnostic digest retry)) := ModelAttemptRecord.finishWithoutResponse_ok.mpr ⟨ha, rfl, rfl⟩
    simp only [recordModelOutcome, hfinish]
    rfl
  | rejected response diagnostic digest retry =>
    cases hfailure
    have hrecord : attempt.recordResponse response none none = .ok _ :=
      ModelAttemptRecord.recordResponse_ok.mpr ⟨ha, rfl⟩
    simp only [recordModelOutcome, hrecord]
    rfl
  | turn | decodeFailed | ambiguous => cases hfailure

theorem repeats_iff (hattempts : s.attempts = history ++ [attempt]) (hnone : attempt.diagnosticDigest = none) :
    repeatsTheLastFailure s digest = true ↔ digest ≠ none ∧ lastDiagnostic history = digest := by
  cases digest with
  | none => simp [repeatsTheLastFailure]
  | some diagnostic => simp [repeatsTheLastFailure, lastDiagnostic, hattempts, hnone]

theorem lastDiagnostic_recorded {previous : ModelAttemptRecord} {diagnostic : Sha256Digest}
    (hlast : history.getLast? = some previous) (h : previous.diagnosticDigest = some diagnostic) :
    lastDiagnostic history = some diagnostic := by
  have hsplit := List.dropLast_append_getLast? previous hlast
  rw [lastDiagnostic, ← hsplit, List.reverse_append, List.reverse_singleton, List.singleton_append,
    List.findSome?_cons, h]

/-- The search finds what the attempt directly before has recorded just when that recorded anything, or when nothing
was recorded earlier that is alike. -/
theorem repeats_alike_iff (hattempts : s.attempts = history ++ [attempt]) (hnone : attempt.diagnosticDigest = none) :
    (repeatsTheLastFailure s digest = true ↔ FailedAlike history digest) ↔
      (∃ previous, history.getLast? = some previous ∧ previous.diagnosticDigest ≠ none) ∨
        digest = none ∨ lastDiagnostic history ≠ digest := by
  rw [repeats_iff hattempts hnone]
  constructor
  · intro h
    by_cases hdigest : digest = none
    · exact .inr (.inl hdigest)
    · by_cases hfound : lastDiagnostic history = digest
      · obtain ⟨previous, diagnostic, hlast, hrecorded, -⟩ := h.mp ⟨hdigest, hfound⟩
        exact .inl ⟨previous, hlast, by rw [hrecorded]; exact nofun⟩
      · exact .inr (.inr hfound)
  · intro hcondition
    constructor
    · rintro ⟨hdigest, hfound⟩
      rcases hcondition with ⟨previous, hlast, hrecorded⟩ | hnone | hother
      · obtain ⟨diagnostic, hdiagnostic⟩ := Option.ne_none_iff_exists'.mp hrecorded
        exact ⟨previous, diagnostic, hlast, hdiagnostic, hfound.symm.trans (lastDiagnostic_recorded hlast hdiagnostic)⟩
      · exact absurd hnone hdigest
      · exact absurd hfound hother
    · rintro ⟨previous, diagnostic, hlast, hrecorded, rfl⟩
      exact ⟨nofun, lastDiagnostic_recorded hlast hrecorded⟩

theorem Undiagnosed.last {a : ModelAttemptRecord} (h : Undiagnosed s) (ha : s'.attempts = s.attempts.dropLast ++ [a])
    (hnew : a.status.isSilent = true → a.diagnosticDigest = none) : Undiagnosed s' := by
  intro other hother
  rw [ha] at hother
  rcases List.mem_append.mp hother with hother | hother
  · exact h other ((List.dropLast_sublist _).subset hother)
  · exact List.mem_singleton.mp hother ▸ hnew

end outcomes

variable [Sha256] {id : EpisodeId} {s s' : DurableEpisodeState} {log : List GatewayEvent}

theorem Undiagnosed.step (h : Undiagnosed s) (hs : EpisodeStep id s log s') : Undiagnosed s' := by
  cases hs with
  | prepared =>
    intro other hother
    rcases List.mem_append.mp hother with hother | hother
    · exact h other hother
    · exact List.mem_singleton.mp hother ▸ fun _ => rfl
  | @dispatched attempt hs hl ha | @turned _ attempt _ _ _ hs hl ha =>
    have hnone := h attempt (List.mem_of_getLast? hl) (by rw [ha]; rfl)
    exact h.last rfl fun _ => hnone
  | recovered => exact h.last rfl fun _ => rfl
  | refused hs hl ha he hr ho hn =>
    rcases ho with ⟨_, _, _, rfl⟩ | ⟨_, _, _, _, rfl⟩ | ⟨_, _, _, rfl⟩ <;> exact h.last rfl nofun
  | unknown => exact h.last rfl nofun
  | cancelRequested ht ha =>
    rcases ha with rfl | ⟨attempt, hl, ha, rfl⟩
    · exact h
    · exact h.last rfl nofun
  | _ => exact h

variable {answers : (c : GatewayCall) → GatewayReply c → Prop}

theorem reachable_undiagnosed {c : EpisodeConfig} (h : Reachable (episodeEnv answers) c) (hs : s ∈ c.store id) :
    Undiagnosed s := by
  refine ((h.sound (complies answers)).run id).invariant ?_ ?_ s hs
  · rintro t ⟨hfresh, -⟩
    obtain ⟨-, hattempts, -⟩ := hfresh.created
    intro attempt hattempt
    rw [hattempts] at hattempt
    cases hattempt
  · rintro t t' ⟨log, -, hstep⟩ ht
    exact ht.step hstep

/-- From every state that an episode can be in, a failed dispatch that may be tried again ends the episode just as the
attempt directly before says, unless that attempt recorded nothing and an earlier one recorded the same. -/
theorem failed_dispatch_ends_iff {c : EpisodeConfig} (h : Reachable (episodeEnv answers) c) (hs : s ∈ c.store id)
    (hpending : s.status = .modelAttemptPending) {history : List ModelAttemptRecord} {attempt : ModelAttemptRecord}
    (hattempts : s.attempts = history ++ [attempt]) (ha : attempt.status = .dispatching)
    {outcome : ModelGatewayOutcome} {digest : Option Sha256Digest} {retry : ModelTransportRetryHint}
    (hfailure : outcome.dispatchFailure = some (digest, retry)) (hretry : retry ≠ .never) (revision : Nat)
    (request : ModelTurnRequest) :
    (EndsFailed revision (recordModelOutcome id ⟨revision, s⟩ attempt request outcome) ↔ FailedAlike history digest) ↔
      (∃ previous, history.getLast? = some previous ∧ previous.diagnosticDigest ≠ none) ∨
        digest = none ∨ lastDiagnostic history ≠ digest := by
  have hmem : attempt ∈ s.attempts := by
    rw [hattempts]
    exact List.mem_append_right _ List.mem_cons_self
  have hnone := reachable_undiagnosed h hs attempt hmem (by rw [ha]; rfl)
  rw [recordModelOutcome_refused ha hfailure, afterFailedDispatch_ends (s := s.setLastAttempt _) hpending hretry]
  exact repeats_alike_iff hattempts hnone

def busyOutcome : ModelGatewayOutcome := .rejected ⟨[40]⟩ "busy" (some ⟨[41]⟩) .newAttempt

def busyOracle : Oracle := constantOracle busyOutcome none (.ok ()) (.pending ⟨[]⟩)

def tellingOracle : Oracle :=
  constantOracle (.turn ⟨⟨["done"], [], .stop, none⟩, ⟨[30]⟩, ⟨[31]⟩⟩) none (.ok ()) (.pending ⟨[]⟩)

/-- An attempt is rejected, the next one gives a turn, and the one after that is rejected as the first one was. -/
@[irreducible] def rejectedStore : EpisodeStore :=
  scriptedStore (List.replicate 3 (RunnerRequest.advance, busyOracle) ++
    List.replicate 5 (RunnerRequest.advance, tellingOracle) ++ [(RunnerRequest.advance, busyOracle)])

section samples

omit [Sha256]

theorem rejectedStore_replayed : @Replayed transparentSha256 (fun _ _ => True) rejectedStore := by
  unfold rejectedStore
  exact scriptedStore_replayed _

theorem rejectedStore_dispatching : ∃ s ∈ rejectedStore.1 sampleId, s.status = .modelAttemptPending ∧
    ∃ first second attempt : ModelAttemptRecord, s.attempts = [first, second] ++ [attempt] ∧
      first.diagnosticDigest = some ⟨[41]⟩ ∧ second.diagnosticDigest = none ∧ attempt.status = .dispatching ∧
      attempt.diagnosticDigest = none := by
  have hversion : (rejectedStore.1 sampleId)[11]?.any (fun s => s.status = .modelAttemptPending &&
      s.attempts.map (fun attempt => (attempt.status, attempt.diagnosticDigest)) =
        [(.failed, some ⟨[41]⟩), (.decoded, none), (.dispatching, none)]) = true := by
    decide +kernel
  obtain ⟨s, hs, hversion⟩ := (Option.any_eq_true _ _).mp hversion
  obtain ⟨hstatus, hattempts⟩ := Bool.and_eq_true_iff.mp hversion
  have hattempts := of_decide_eq_true hattempts
  obtain ⟨first, rest, hfirst, hone, hattempts⟩ := List.map_eq_cons_iff.mp hattempts
  obtain ⟨second, rest', hsecond, htwo, hattempts⟩ := List.map_eq_cons_iff.mp hattempts
  obtain ⟨attempt, hlast, hthree⟩ := List.map_eq_singleton_iff.mp hattempts
  refine ⟨s, List.mem_of_getElem? hs, of_decide_eq_true hstatus, first, second, attempt, ?_, congrArg Prod.snd hone,
    congrArg Prod.snd htwo, congrArg Prod.fst hthree, congrArg Prod.snd hthree⟩
  rw [hfirst, hsecond, hlast]
  rfl

theorem failed_dispatch_ends_sample : ∃ (s : DurableEpisodeState) (history : List ModelAttemptRecord)
    (attempt : ModelAttemptRecord), s ∈ rejectedStore.1 sampleId ∧ s.attempts = history ++ [attempt] ∧
      ((EndsFailed 11 (@recordModelOutcome transparentSha256 sampleId ⟨11, s⟩ attempt
          ⟨attempt.id, sampleId, 2, s.nextInputDigest⟩ busyOutcome) ↔ FailedAlike history (some ⟨[41]⟩)) ↔
        (∃ previous, history.getLast? = some previous ∧ previous.diagnosticDigest ≠ none) ∨
          (some ⟨[41]⟩ : Option Sha256Digest) = none ∨ lastDiagnostic history ≠ some ⟨[41]⟩) := by
  obtain ⟨s, hs, hpending, first, second, attempt, hattempts, -, -, ha, -⟩ := rejectedStore_dispatching
  exact ⟨s, _, attempt, hs, hattempts, @failed_dispatch_ends_iff transparentSha256 sampleId s _
    ⟨rejectedStore.1, rejectedStore.2, []⟩ rejectedStore_replayed hs hpending _ attempt hattempts ha busyOutcome
    (some ⟨[41]⟩) .newAttempt rfl nofun 11 _⟩

/-- The turn in between does not keep the third attempt from ending the episode. -/
theorem failed_dispatch_forgets_turn : ∃ (c : EpisodeConfig) (s : DurableEpisodeState)
    (history : List ModelAttemptRecord)
    (attempt : ModelAttemptRecord), Reachable (@episodeEnv transparentSha256 fun _ _ => True) c ∧ s ∈ c.store sampleId ∧
      s.status = .modelAttemptPending ∧ s.attempts = history ++ [attempt] ∧ attempt.status = .dispatching ∧
      ¬ FailedAlike history (some ⟨[41]⟩) ∧ ∀ revision request, EndsFailed revision
        (@recordModelOutcome transparentSha256 sampleId ⟨revision, s⟩ attempt request busyOutcome) := by
  obtain ⟨s, hs, hpending, first, second, attempt, hattempts, hfirst, hsecond, ha, hnone⟩ := rejectedStore_dispatching
  refine ⟨⟨rejectedStore.1, rejectedStore.2, []⟩, s, _, attempt, rejectedStore_replayed, hs, hpending, hattempts, ha,
    ?_, ?_⟩
  · rintro ⟨previous, diagnostic, hprevious, hrecorded, -⟩
    have hprevious : second = previous := Option.some.inj hprevious
    rw [← hprevious, hsecond] at hrecorded
    cases hrecorded
  · intro revision request
    have hrepeats : repeatsTheLastFailure s (some ⟨[41]⟩) = true := by
      refine (repeats_iff hattempts hnone).mpr ⟨nofun, ?_⟩
      simp [lastDiagnostic, hfirst, hsecond]
    have hretry : ModelTransportRetryHint.newAttempt ≠ .never := nofun
    rw [@recordModelOutcome_refused s attempt (some ⟨[41]⟩) .newAttempt revision transparentSha256 _ _ _ ha rfl,
      afterFailedDispatch_ends (s := s.setLastAttempt _) hpending hretry]
    exact hrepeats

end samples

end AlloyPort
