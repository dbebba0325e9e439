import AlloyPort.Episode.Transition

/-! A success is the last thing that a runner saves, and the runner reports it. -/

namespace AlloyPort

open Effect DurableEpisodeState Runner

def modest : SharedStore.Op EpisodeId DurableEpisodeState GatewayCall → Prop
  | .save _ s => s.status ≠ .succeeded
  | .load _ | .call _ => True

abbrev Reserved {α : Type} (p : RunnerProg α) : Prop := Performs modest p

section reserved

variable {α : Type} {s : DurableEpisodeState} {versioned : VersionedEpisodeState} {revision : Nat}

theorem reserved_attempt {β : Type} {x : Except AgentLoopRuntimeError β} {f : β → RunnerProg α}
    (h : ∀ b, x = .ok b → Reserved (f b)) : Reserved (.attempt x >>= f) := by
  cases x with
  | error e => trivial
  | ok b => exact h b rfl

theorem reserved_load {id : EpisodeId} : Reserved (load id) := by
  refine performs_bind ⟨trivial, fun reply => trivial⟩ fun reply => ?_
  cases reply with
  | error e => trivial
  | ok loaded => trivial

theorem reserved_save (hs : s.status ≠ .succeeded) : Reserved (save revision s) := by
  refine performs_bind ⟨hs, fun reply => trivial⟩ fun reply => ?_
  cases reply with
  | error e => trivial
  | ok revision' => trivial

theorem reserved_call {c : GatewayCall} : Reserved (SharedStore.call c) := ⟨trivial, fun _ => trivial⟩

theorem reserved_crashIf {point : AgentRuntimeFaultPoint} : Reserved (crashIf point) := by
  refine performs_bind reserved_call fun crash => ?_
  cases crash with
  | true => trivial
  | false => trivial

theorem reserved_moved {next : EpisodeStatus} {f : Nat → RunnerProg α} (hnext : next ≠ .succeeded)
    (hf : ∀ revision', Reserved (f revision')) :
    Reserved (.attempt (s.transition next) >>= fun state => save revision state >>= f) := by
  refine reserved_attempt fun state hstate => performs_bind (reserved_save ?_) hf
  rw [(transition_ok.mp hstate).2]
  exact hnext

theorem reserved_transitionOnly {next : EpisodeStatus} (hnext : next ≠ .succeeded) :
    Reserved (transitionOnly versioned next) := reserved_moved hnext fun _ => trivial

theorem suspend_status {state : DurableEpisodeState} (h : s.suspend = .ok state) : state.status ≠ .succeeded := by
  rw [(suspend_ok.mp h).2]
  exact nofun

theorem afterAmbiguous_ne : afterAmbiguous s ≠ .succeeded := by
  unfold afterAmbiguous
  by_cases hspent : s.ambiguousModelAttempts > s.policy.maxAmbiguousModelAttempts
  · simp [hspent]
  · simp [hspent]

theorem reserved_afterFailedDispatch {retry : ModelTransportRetryHint} {repeated : Bool} :
    Reserved (afterFailedDispatch versioned retry repeated) := by
  unfold afterFailedDispatch
  by_cases hlast : retry = .never ∨ repeated = true
  · rw [if_pos hlast]
    exact reserved_moved nofun fun _ => trivial
  · rw [if_neg hlast]
    exact reserved_moved nofun fun _ => trivial

variable {attempt : ModelAttemptRecord}

theorem reserved_recoverDispatching : Reserved (recoverDispatching versioned attempt) := by
  refine reserved_attempt fun _ _ => reserved_attempt fun _ _ => ?_
  dsimp only
  split
  · exact reserved_attempt fun state hstate => performs_bind (reserved_save (suspend_status hstate)) fun _ => trivial
  · exact reserved_moved afterAmbiguous_ne fun _ => trivial

theorem reserved_recordToolOutcome {index : Nat} {operation : DurableToolOperation} {outcome : ToolGatewayOutcome}
    (hs : versioned.state.status ≠ .succeeded) : Reserved (recordToolOutcome versioned index operation outcome) := by
  unfold recordToolOutcome
  cases outcome with
  | completed status resultDigest receiptDigests satisfiesSubtask =>
    dsimp only
    by_cases hopen : (!status.isTerminal || status == .rejectedAsInvalid) = true
    · rw [if_pos hopen]
      trivial
    · rw [if_neg hopen]
      by_cases huntrusted : (satisfiesSubtask && operation.record.resultAuthority != .verifiedReference) = true
      · rw [if_pos huntrusted]
        trivial
      · rw [if_neg huntrusted]
        refine reserved_attempt fun _ _ => performs_bind (reserved_save hs) fun _ => ?_
        exact performs_bind reserved_crashIf fun _ => trivial
  | pending =>
    dsimp only
    by_cases hrunning : operation.record.status ≠ .running
    · rw [if_pos hrunning]
      exact reserved_attempt fun _ _ => performs_bind (reserved_save hs) fun _ => trivial
    · rw [if_neg hrunning]
      exact performs_bind performs_pure fun _ => performs_bind (reserved_save hs) fun _ => trivial
  | ambiguous =>
    dsimp only
    have hsuspend : ∀ record, Reserved (do
        let state ← .attempt ({ versioned.state with
          toolOperations := versioned.state.toolOperations.set index { operation with record := record } }).suspend
        let _ ← save versioned.revision state
        return AgentLoopAdvance.suspended) := by
      intro record
      exact reserved_attempt fun state hstate => performs_bind (reserved_save (suspend_status hstate)) fun _ => trivial
    by_cases hreconciling : operation.record.status ≠ .reconciling
    · rw [if_pos hreconciling]
      exact reserved_attempt fun record _ => hsuspend record
    · rw [if_neg hreconciling]
      exact performs_bind performs_pure fun record => hsuspend record

theorem reserved_prepareAttempt {id : EpisodeId} : Reserved (prepareAttempt id versioned) := by
  unfold prepareAttempt
  dsimp only
  by_cases hcancelled : versioned.state.cancellationRequested = true
  · rw [if_pos hcancelled]
    exact reserved_transitionOnly nofun
  · rw [if_neg hcancelled]
    by_cases hspent : versioned.state.turns.length ≥ versioned.state.policy.maxModelTurns ∨
        versioned.state.attempts.length ≥ versioned.state.policy.maxModelAttempts
    · rw [if_pos hspent]
      exact reserved_transitionOnly nofun
    · rw [if_neg hspent]
      refine reserved_attempt fun _ _ => reserved_attempt fun _ _ => reserved_attempt fun _ _ => ?_
      exact reserved_moved nofun fun _ => trivial

theorem reserved_resume {id : EpisodeId} {granted : EpisodeAllowance} :
    Reserved (AgentLoopRunner.resume id granted) := by
  refine performs_bind reserved_load fun versioned => reserved_attempt fun _ _ => ?_
  dsimp only
  by_cases hopen : (!versioned.state.status.isTerminal) = true
  · rw [if_pos hopen]
    trivial
  · rw [if_neg hopen]
    refine reserved_attempt fun episode hepisode => reserved_attempt fun _ _ => ?_
    refine performs_bind (reserved_save ?_) fun _ => trivial
    have hready := (AgentEpisodeRecord.resume_ok.mp (mapError_eq_ok.mp hepisode)).2
    rw [hready]
    exact nofun

variable [Sha256] {id : EpisodeId}

theorem reserved_recordModelOutcome {request : ModelTurnRequest}
    {outcome : ModelGatewayOutcome} : Reserved (recordModelOutcome id versioned attempt request outcome) := by
  unfold recordModelOutcome
  cases outcome with
  | turn exchange =>
    refine reserved_attempt fun _ _ => reserved_attempt fun _ _ => reserved_attempt fun _ _ => ?_
    refine reserved_attempt fun _ _ => reserved_attempt fun _ _ => ?_
    exact reserved_moved nofun fun _ => performs_bind reserved_crashIf fun _ => trivial
  | confirmedNotSent => exact reserved_attempt fun _ _ => reserved_afterFailedDispatch
  | rejected => exact reserved_attempt fun _ _ => reserved_attempt fun _ _ => reserved_afterFailedDispatch
  | decodeFailed =>
    exact reserved_attempt fun _ _ => reserved_attempt fun _ _ => reserved_moved nofun fun _ => trivial
  | ambiguous => exact reserved_attempt fun _ _ => reserved_moved afterAmbiguous_ne fun _ => trivial

theorem reserved_driveModel (hs : versioned.state.status ≠ .succeeded) : Reserved (driveModel id versioned) := by
  unfold driveModel
  dsimp only
  cases hlast : versioned.state.attempts.getLast? with
  | none => trivial
  | some attempt =>
    dsimp only
    by_cases hdispatching : attempt.status = .dispatching
    · rw [if_pos hdispatching]
      exact reserved_recoverDispatching
    · rw [if_neg hdispatching]
      by_cases hprepared : attempt.status ≠ .prepared
      · rw [if_pos hprepared]
        trivial
      · rw [if_neg hprepared]
        refine reserved_attempt fun _ _ => reserved_attempt fun _ _ => performs_bind (reserved_save hs) fun _ => ?_
        refine performs_bind reserved_crashIf fun _ => ?_
        refine performs_bind (performs_bind reserved_call fun _ => performs_attempt) fun _ => ?_
        exact performs_bind reserved_crashIf fun _ => reserved_recordModelOutcome

theorem reserved_planCalls {turn : TurnRecord} {inputDigest : Sha256Digest} (calls : List GatewayToolCall)
    (index : Nat) : Reserved (planCalls id turn inputDigest index calls) := by
  induction calls generalizing index with
  | nil => trivial
  | cons call calls ih =>
    refine performs_bind reserved_call fun _ => reserved_attempt fun _ _ => reserved_attempt fun record _ => ?_
    refine performs_bind reserved_call fun validated => ?_
    have hrest : ∀ record : ToolOperationRecord, Reserved (do
        let operations ← planCalls id turn inputDigest (index + 1) calls
        return (⟨record, call⟩ :: operations : List DurableToolOperation)) :=
      fun record => performs_bind (ih (index + 1)) fun _ => trivial
    cases validated with
    | error rejection => exact reserved_attempt fun record _ => hrest record
    | ok =>
      refine performs_bind reserved_call fun declared => ?_
      cases declared with
      | none => exact reserved_attempt fun record _ => hrest record
      | some descriptor => exact hrest record

theorem reserved_planTurnTools : Reserved (planTurnTools id versioned) := by
  unfold planTurnTools
  dsimp only
  cases hlast : versioned.state.turns.getLast? with
  | none => trivial
  | some turn =>
    dsimp only
    by_cases hempty : turn.semanticTurn.toolCalls.isEmpty = true
    · rw [if_pos hempty]
      exact reserved_moved nofun fun _ => trivial
    · rw [if_neg hempty]
      refine reserved_attempt fun callCount _ => ?_
      by_cases htotal : versioned.state.toolOperations.length + turn.semanticTurn.toolCalls.length >
          versioned.state.policy.maxTotalToolOperations
      · rw [if_pos htotal]
        exact reserved_moved nofun fun _ => trivial
      · rw [if_neg htotal]
        by_cases hmany : callCount > versioned.state.policy.maxToolCallsPerTurn
        · rw [if_pos hmany]
          exact reserved_moved nofun fun _ => trivial
        · rw [if_neg hmany]
          refine performs_bind (reserved_planCalls _ 0) fun _ => ?_
          exact reserved_moved nofun fun _ => performs_bind reserved_crashIf fun _ => trivial

theorem reserved_finishTools : Reserved (finishTools versioned) := by
  unfold finishTools
  dsimp only
  cases hlast : versioned.state.turns.getLast? with
  | none => trivial
  | some turn => exact reserved_moved nofun fun _ => trivial

theorem reserved_driveTools (hs : versioned.state.status ≠ .succeeded) : Reserved (driveTools versioned) := by
  unfold driveTools
  dsimp only
  cases hopen : versioned.state.toolOperations.findFinIdx? fun operation => !operation.record.status.isTerminal with
  | none => exact reserved_finishTools
  | some index =>
    refine reserved_attempt fun record _ => performs_bind (reserved_save hs) fun revision => ?_
    refine performs_bind reserved_crashIf fun _ => ?_
    have hrest : ∀ recording : VersionedEpisodeState, recording.state.status ≠ .succeeded →
      ∀ operation outcome, Reserved (do
        crashIf .afterToolOutcomeBeforeCommit
        recordToolOutcome recording index operation outcome) :=
      fun recording hrecording operation outcome => performs_bind reserved_crashIf fun _ =>
        reserved_recordToolOutcome hrecording
    by_cases hreconciling : isReconciling record.status = true
    · rw [if_pos hreconciling]
      exact performs_bind (performs_bind reserved_call fun _ => performs_attempt) (hrest _ (by exact hs) _)
    · rw [if_neg hreconciling]
      exact performs_bind (performs_bind reserved_call fun _ => performs_attempt) (hrest _ (by exact hs) _)

end reserved

/-- Nothing is done once a success has been saved; the ghost says whether one has. -/
def verdictContract : Contract (SharedStore.Op EpisodeId DurableEpisodeState GatewayCall)
    (SharedStore.Reply EpisodeRepositoryError GatewayReply) Bool where
  pre settled _ := settled = false
  post
    | _, .save _ s, .ok _, settled' => settled' = decide (s.status = .succeeded)
    | settled, .save _ _, .error _, settled' => settled' = settled
    | settled, .load _, _, settled' => settled' = settled
    | settled, .call _, _, settled' => settled' = settled

section settles

variable {α : Type} {p : RunnerProg α} {versioned : VersionedEpisodeState} {id : EpisodeId}

theorem Reserved.unsettled (hp : Reserved p) : ends verdictContract false p fun settled _ => settled = false := by
  induction p with
  | ret a => rfl
  | fail e => rfl
  | op o next ih =>
    refine ⟨rfl, fun reply settled hpost => ?_⟩
    have hstill : settled = false := by
      cases o with
      | load k => exact hpost
      | call c => exact hpost
      | save revision s => cases reply with
        | error e => exact hpost
        | ok revision' => exact hpost.trans (decide_eq_false hp.1)
    rw [hstill]
    exact ih reply (hp.2 reply)

def Settles (p : RunnerProg AgentLoopAdvance) : Prop :=
  ends verdictContract false p fun settled r => settled = true → r = .ok (.terminal .succeeded)

theorem Reserved.settles {p : RunnerProg AgentLoopAdvance} (hp : Reserved p) : Settles p := by
  refine ends_mono hp.unsettled fun settled r hfalse htrue => ?_
  rw [hfalse] at htrue
  cases htrue

theorem settles_succeeded : Settles (transitionOnly versioned .succeeded) := by
  unfold transitionOnly
  cases hmove : versioned.state.transition .succeeded with
  | error e => exact nofun
  | ok state =>
    refine ⟨rfl, fun reply settled hpost => ?_⟩
    cases reply with
    | error e =>
      have hstill : settled = false := hpost
      rw [hstill]
      exact nofun
    | ok revision => exact fun _ => rfl

variable [Sha256]

theorem settles_reviewStop : Settles (reviewStop versioned) := by
  unfold reviewStop
  dsimp only
  by_cases hsatisfied : versioned.state.subtaskSatisfied = true
  · rw [if_pos hsatisfied]
    exact settles_succeeded
  · rw [if_neg hsatisfied]
    refine Reserved.settles ?_
    by_cases hmore : versioned.state.stopFeedbackTurns < versioned.state.policy.maxStopFeedbackTurns
    · rw [if_pos hmore]
      cases hlast : versioned.state.turns.getLast? with
      | none => trivial
      | some turn => exact reserved_transitionOnly nofun
    · rw [if_neg hmore]
      exact reserved_transitionOnly nofun

theorem settles_advance : Settles (AgentLoopRunner.advance id) := by
  refine ends_bind.mpr (ends_mono (Reserved.unsettled reserved_load) fun settled r hstill => ?_)
  rw [hstill]
  cases r with
  | error e => exact nofun
  | ok versioned =>
    dsimp only
    cases hstatus : versioned.state.status with
    | created => exact (@reserved_transitionOnly versioned .readyForModel nofun).settles
    | readyForModel => exact reserved_prepareAttempt.settles
    | modelAttemptPending => exact (reserved_driveModel (by rw [hstatus]; exact nofun)).settles
    | turnRecorded => exact reserved_planTurnTools.settles
    | toolWorkPending => exact (reserved_driveTools (by rw [hstatus]; exact nofun)).settles
    | stopReview => exact settles_reviewStop
    | cancellationPending => exact (@reserved_transitionOnly versioned .cancelled nofun).settles
    | _ => exact nofun

end settles

end AlloyPort
