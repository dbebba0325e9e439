import AlloyPort.Episode.Transition

/-! Every program of the runner keeps to the episode protocol: each save is an episode step, and
a model or tool dispatch is made only behind its own dispatch marker. -/

namespace AlloyPort

open Effect SharedStore DurableEpisodeState AgentLoopRunner ModelAttemptRecord

def Fresh (state : DurableEpisodeState) : Prop :=
  ∃ episodeSpec spec, AgentEpisodeRecord.new episodeSpec = .ok spec.episode ∧
    DurableEpisodeState.new spec = .ok state

variable {s state state' : DurableEpisodeState} {n index value revision : Nat} {versioned : VersionedEpisodeState}
variable {attempt : ModelAttemptRecord} {log log' : List GatewayEvent} {call : GatewayToolCall}
variable {inputDigest : Sha256Digest} {operation : DurableToolOperation}

theorem Fresh.created (h : Fresh s) : s.status = .created ∧ s.attempts = [] ∧
    s.turns = [] ∧ s.toolOperations = [] ∧ s.nextInputDigest = s.initialInputDigest ∧
    s.schemaVersion = durableEpisodeStateSchemaV2 ∧ s.policy.validate = .ok () ∧ s.subtaskSatisfied = false := by
  obtain ⟨episodeSpec, spec, hepisode, hnew⟩ := h
  simp only [DurableEpisodeState.new, bind_eq_ok] at hnew
  obtain ⟨_, hp, hnew⟩ := hnew
  cases hnew
  simp only [AgentEpisodeRecord.new, bind_eq_ok] at hepisode
  obtain ⟨_, _, _, _, hepisode⟩ := hepisode
  refine ⟨?_, rfl, rfl, rfl, rfl, rfl, hp, rfl⟩
  simp only [DurableEpisodeState.status]
  rw [← Except.ok.inj hepisode]

variable [Sha256]

/-- Any number of runners over one repository, with gateways whose replies meet `answers`. -/
def episodeEnv (answers : (c : GatewayCall) → GatewayReply c → Prop) :
    Environment EpisodeId DurableEpisodeState GatewayCall EpisodeRepositoryError GatewayReply
      AgentLoopRuntimeError (AgentLoopAdvance ⊕ EpisodeStatus) where
  key := DurableEpisodeState.episodeId
  fresh := Fresh
  answers := answers
  start id p := ∃ request, p = RunnerRequest.program id request

abbrev EpisodeView := View DurableEpisodeState GatewayCall GatewayReply

variable {answers : (c : GatewayCall) → GatewayReply c → Prop} {id : EpisodeId}

abbrev Upholds (answers : (c : GatewayCall) → GatewayReply c → Prop) (id : EpisodeId) {α : Type}
    (v : Option EpisodeView) (p : RunnerProg α) (Q : Option EpisodeView → α → Prop) : Prop :=
  wp (contract (episodeEnv answers) episodeProtocol id) v p Q

theorem keeps_load {Q : Option EpisodeView → VersionedEpisodeState → Prop}
    (h : ∀ revision state, state.episodeId = id → Q (some ⟨revision, state, none, []⟩) ⟨revision, state⟩) :
    Upholds answers id none (Runner.load id) Q := by
  simp only [Upholds, Runner.load, wp_bind, wp_load]
  exact ⟨⟨trivial, trivial⟩, fun e => trivial, fun revision state hs => h revision state hs⟩

variable {v : EpisodeView}

theorem keeps_save {Q : Option EpisodeView → Nat → Prop} (hr : revision = v.revision) (hk : state.episodeId = id)
    (hs : EpisodeStep id v.state v.log state)
    (h : Q (some ⟨revision + 1, state, some v.state, []⟩) (revision + 1)) :
    Upholds answers id (some v) (Runner.save revision state) Q := by
  simp only [Upholds, Runner.save, wp_bind]
  exact wp_save hr hk hs (fun e => trivial) h

def EpisodeView.logged (v : EpisodeView) (e : GatewayEvent) : EpisodeView :=
  { v with log := v.log ++ [e] }

def EpisodeView.spent (v : EpisodeView) (e : GatewayEvent) : EpisodeView :=
  { v with replaced := none, log := v.log ++ [e] }

theorem keeps_call {c : GatewayCall} (hc : ¬ episodeProtocol.linear c)
    {Q : Option EpisodeView → GatewayReply c → Prop} (hcalls : Calls id v.state v.log c)
    (h : ∀ reply, answers c reply → Q (some (v.logged ⟨c, reply⟩)) reply) :
    Upholds answers id (some v) (SharedStore.call c) Q := by
  refine wp_call hcalls (fun hl => absurd hl hc) fun reply ha => ?_
  rw [if_neg hc]
  exact h reply ha

theorem keeps_linear {c : GatewayCall} (hc : episodeProtocol.linear c)
    {Q : Option EpisodeView → GatewayReply c → Prop} (hcalls : Calls id v.state v.log c)
    (hs : v.replaced = some s) (hm : Mints s v.state c)
    (h : ∀ reply, answers c reply → Q (some (v.spent ⟨c, reply⟩)) reply) :
    Upholds answers id (some v) (SharedStore.call c) Q := by
  refine wp_call hcalls (fun _ => ⟨s, hs, hm⟩) fun reply ha => ?_
  rw [if_pos hc]
  exact h reply ha

theorem keeps_crashIf {point : AgentRuntimeFaultPoint} {Q : Option EpisodeView → Unit → Prop}
    (h : Q (some (v.logged ⟨.shouldCrash point, false⟩)) ()) :
    Upholds answers id (some v) (Runner.crashIf point) Q := by
  simp only [Upholds, Runner.crashIf, wp_bind]
  refine keeps_call (c := .shouldCrash point) (by simp [episodeProtocol]) trivial fun crash _ => ?_
  cases crash with
  | true => trivial
  | false => exact h

theorem keeps_transitionOnly {next : EpisodeStatus}
    (hr : versioned.revision = v.revision) (hk : versioned.state.episodeId = id)
    (hs : EpisodeStep id v.state v.log (versioned.state.withStatus next)) :
    Upholds answers id (some v) (transitionOnly versioned next) fun _ _ => True := by
  simp only [Upholds, transitionOnly, wp_bind, wp_attempt, transition_ok]
  rintro state ⟨_, rfl⟩
  exact keeps_save hr hk hs trivial

omit [Sha256] in
theorem u32TryFrom_ok : u32TryFrom value = .ok n ↔ value < 2 ^ 32 ∧ n = value := by
  simp only [u32TryFrom]
  split
  · rename_i h
    exact ⟨fun he => ⟨h, (Except.ok.inj he).symm⟩, fun he => congrArg _ he.2.symm⟩
  · rename_i h
    exact ⟨fun he => (by cases he), fun he => absurd he.1 h⟩

omit [Sha256] in
theorem u32Next_ok : u32Next value = .ok n ↔ value + 1 < 2 ^ 32 ∧ n = value + 1 := by
  simp only [u32Next, bind_eq_ok, u32TryFrom_ok]
  constructor
  · rintro ⟨_, ⟨_, rfl⟩, h, rfl⟩
    exact ⟨h, rfl⟩
  · rintro ⟨h, rfl⟩
    exact ⟨value, ⟨by omega, rfl⟩, h, rfl⟩

theorem keeps_prepareAttempt (hk : state.episodeId = id) (hs : state.status = .readyForModel) :
    Upholds answers id (some ⟨revision, state, none, []⟩) (prepareAttempt id ⟨revision, state⟩) fun _ _ => True := by
  simp only [prepareAttempt]
  split
  · rename_i hc
    exact keeps_transitionOnly rfl hk (.moved (.cancelledReady hs hc))
  · rename_i hc
    split
    · rename_i hb
      exact keeps_transitionOnly rfl hk (.moved (.spent hs hb))
    · rename_i hb
      simp only [not_or, ge_iff_le, not_le] at hb
      simp only [Upholds, wp_bind, wp_attempt, u32Next_ok, mapError_eq_ok, new_ok, transition_ok]
      rintro attemptNumber ⟨_, rfl⟩ attemptId hi attempt ⟨_, rfl⟩ state' ⟨_, rfl⟩
      refine keeps_save rfl hk (.prepared hs ?_ hb.1 hb.2 rfl hi rfl) trivial
      simpa using hc

theorem keeps_recoverDispatching (hk : state.episodeId = id) (hs : state.status = .modelAttemptPending)
    (hl : state.attempts.getLast? = some attempt) :
    Upholds answers id (some ⟨revision, state, none, []⟩) (recoverDispatching ⟨revision, state⟩ attempt)
      fun _ _ => True := by
  simp only [Upholds, recoverDispatching, wp_bind, wp_attempt, mapError_eq_ok,
    finishWithoutResponse_ok, u32TryFrom_ok]
  rintro attempt' ⟨ha, _, rfl⟩ ambiguous ⟨_, rfl⟩
  have hstep := @EpisodeStep.recovered _ id state attempt _ hs hl ha rfl
  by_cases hc : state.cancellationRequested = true
  · simp only [setLastAttempt, if_pos hc, wp_bind, wp_attempt, suspend_ok] at hstep ⊢
    rintro state' ⟨_, rfl⟩
    exact keeps_save rfl hk hstep trivial
  · simp only [setLastAttempt, if_neg hc, wp_bind, wp_attempt, transition_ok] at hstep ⊢
    rintro state' ⟨_, rfl⟩
    exact keeps_save rfl hk hstep trivial

theorem keeps_afterFailedDispatch
    {retry : ModelTransportRetryHint} {repeated : Bool} (hr : versioned.revision = v.revision)
    (hk : versioned.state.episodeId = id)
    (hs : ∀ next, next = .failed ∨ next = .readyForModel →
      EpisodeStep id v.state v.log (versioned.state.withStatus next)) :
    Upholds answers id (some v) (afterFailedDispatch versioned retry repeated) fun _ _ => True := by
  simp only [afterFailedDispatch]
  split
  · simp only [Upholds, wp_bind, wp_attempt, transition_ok]
    rintro state' ⟨_, rfl⟩
    exact keeps_save hr hk (hs _ (.inl rfl)) trivial
  · simp only [Upholds, wp_bind, wp_attempt, transition_ok]
    rintro state' ⟨_, rfl⟩
    exact keeps_save hr hk (hs _ (.inr rfl)) trivial

theorem keeps_recordModelOutcome {request : ModelTurnRequest}
    {outcome : ModelGatewayOutcome} (hk : v.state.episodeId = id) (hs : v.state.status = .modelAttemptPending)
    (hl : v.state.attempts.getLast? = some attempt) (ha : attempt.status = .dispatching)
    (hr : Requests id v.state attempt request) (he : ⟨.invoke request, .ok outcome⟩ ∈ v.log) :
    Upholds answers id (some v) (recordModelOutcome id ⟨v.revision, v.state⟩ attempt request outcome)
      fun _ _ => True := by
  have hu := fun next ho hn => @EpisodeStep.refused _ id v.state v.log attempt request outcome next hs hl ha he hr ho hn
  cases outcome with simp only [Upholds, recordModelOutcome, wp_bind, wp_attempt, mapError_eq_ok, TurnRecord.new_ok,
    recordResponse_ok, finishWithoutResponse_ok, markDecoded_ok,
    markResponseFailed, markDecodeFailed, markResponded_ok,
    transition_ok]
  | turn exchange =>
    rintro attempt' ⟨_, rfl⟩ attempt'' ⟨_, rfl⟩ turnId hi count _ record ⟨_, rfl⟩ state' ⟨_, rfl⟩
    rw [hr.turnIndex] at hi
    have hturn := fun turn => @EpisodeStep.turned _ id v.state v.log attempt request exchange turn hs hl ha he hr
    exact keeps_save rfl hk (hturn ⟨_, exchange.turn⟩ hi rfl rfl rfl rfl) (keeps_crashIf trivial)
  | confirmedNotSent diagnostic digest retry =>
    rintro attempt' ⟨_, _, rfl⟩
    exact keeps_afterFailedDispatch rfl hk fun next hn => hu next (.inl ⟨_, _, _, rfl⟩) hn
  | rejected response diagnostic digest retry =>
    rintro attempt' ⟨_, rfl⟩ attempt'' ⟨_, rfl⟩
    exact keeps_afterFailedDispatch rfl hk fun next hn => hu next (.inr (.inl ⟨_, _, _, _, rfl⟩)) hn
  | decodeFailed response diagnostic digest =>
    rintro attempt' ⟨_, rfl⟩ attempt'' ⟨_, rfl⟩ state' ⟨_, rfl⟩
    exact keeps_save rfl hk (hu _ (.inr (.inr ⟨_, _, _, rfl⟩)) (.inl rfl)) trivial
  | ambiguous diagnostic digest retry =>
    rintro attempt' ⟨_, _, rfl⟩ state' ⟨_, rfl⟩
    exact keeps_save rfl hk (.unknown hs hl ha he hr rfl) trivial

omit [Sha256] in
theorem getElem?_dropLast_append {α : Type} {l : List α} {a b : α} (h : l.getLast? = some a) :
    l[l.length - 1]? = some a ∧ (l.dropLast ++ [b])[l.length - 1]? = some b := by
  refine ⟨by rw [← List.getLast?_eq_getElem?]; exact h, ?_⟩
  have hl : l.length - 1 = l.dropLast.length := by simp
  rw [hl, List.getElem?_concat_length]

theorem keeps_driveModel (hk : state.episodeId = id) (hs : state.status = .modelAttemptPending) :
    Upholds answers id (some ⟨revision, state, none, []⟩) (driveModel id ⟨revision, state⟩) fun _ _ => True := by
  simp only [driveModel]
  split
  · trivial
  · rename_i attempt hl
    split
    · exact keeps_recoverDispatching hk hs hl
    · split
      · trivial
      · rename_i ha
        rw [ne_eq, not_not] at ha
        simp only [Upholds, wp_bind, wp_attempt, u32Next_ok, mapError_eq_ok, markDispatching_ok]
        rintro turnIndex ⟨_, rfl⟩ attempt' ⟨_, rfl⟩
        refine keeps_save rfl hk (.dispatched hs hl ha) (keeps_crashIf ?_)
        obtain ⟨hg, hg'⟩ := getElem?_dropLast_append (b := { attempt with status := .dispatching }) hl
        simp only [Runner.invoke, wp_bind, wp_attempt, mapError_eq_ok]
        refine keeps_linear (by simp [episodeProtocol]) ⟨hs, ⟨_, ?_, rfl, rfl, rfl, rfl, rfl⟩, ?_⟩ rfl
          ⟨_, attempt, hg, ha, rfl, hg'⟩ fun reply _ => ?_
        · simp [EpisodeView.logged, setLastAttempt]
        · simp [EpisodeView.logged]
        rintro outcome rfl
        refine keeps_crashIf (keeps_recordModelOutcome hk hs ?_ rfl ⟨rfl, rfl, rfl, rfl⟩ ?_)
        · simp [EpisodeView.logged, EpisodeView.spent, setLastAttempt]
        · simp [EpisodeView.logged, EpisodeView.spent]

theorem Rejected.mono {digest : Sha256Digest}
    (h : Rejected log call digest) (hl : ∀ e ∈ log, e ∈ log') : Rejected log' call digest := by
  cases h with
  | invalid he => exact .invalid (hl _ he)
  | unknown hv he => exact .unknown (hl _ hv) (hl _ he)

theorem PlannedCall.mono {turn : TurnRecord}
    (h : PlannedCall id turn inputDigest log index call operation) (hl : ∀ e ∈ log, e ∈ log') :
    PlannedCall id turn inputDigest log' index call operation where
  derived := by
    obtain ⟨operationId, declared, hd, hi, hs⟩ := h.derived
    exact ⟨operationId, declared, hl _ hd, hi, hs⟩
  called := h.called
  outcome := by
    rcases h.outcome with ho | ⟨hs, digest, hr, hd⟩
    · exact .inl ho
    · exact .inr ⟨hs, digest, hr.mono hl, hd⟩

theorem keeps_planCalls {turn : TurnRecord} {calls : List GatewayToolCall}
    {Q : Option EpisodeView → List DurableToolOperation → Prop} (hs : v.state.status = .turnRecorded)
    (hm : ∃ last, v.state.turns.getLast? = some last ∧ ∀ call ∈ calls, call ∈ last.semanticTurn.toolCalls)
    (h : ∀ v' : EpisodeView, ∀ operations, v'.revision = v.revision → v'.state = v.state →
      (∀ e ∈ v.log, e ∈ v'.log) → PlannedCalls id turn inputDigest v'.log index calls operations →
      Q (some v') operations) :
    Upholds answers id (some v) (planCalls id turn inputDigest index calls) Q := by
  induction calls generalizing index v Q with
  | nil => exact h v [] rfl rfl (fun _ he => he) .nil
  | cons call calls ih =>
    obtain ⟨last, hlast, hcalls⟩ := hm
    simp only [Upholds, planCalls, wp_bind, wp_attempt, mapError_eq_ok, ToolOperationRecord.new_ok]
    refine keeps_call (by simp [episodeProtocol]) trivial fun declared _ => ?_
    rintro operationId hi record ⟨_, rfl⟩
    refine keeps_call (by simp [episodeProtocol]) ⟨hs, last, hlast, hcalls call (by simp)⟩ fun validated _ => ?_
    -- what is left once the record of this call is settled
    have hrest : ∀ (w : EpisodeView) (record : ToolOperationRecord), w.revision = v.revision → w.state = v.state →
        (∀ e ∈ v.log, e ∈ w.log) → PlannedCall id turn inputDigest w.log index call ⟨record, call⟩ →
        Upholds answers id (some w) (planCalls id turn inputDigest (index + 1) calls)
          fun g operations => Q g (⟨record, call⟩ :: operations) := by
      intro w record hr hw hlog hp
      refine ih (hw ▸ hs) ⟨last, hw ▸ hlast, fun c hc => hcalls c (by simp [hc])⟩
        fun v' operations hr' hw' hlog' hp' => ?_
      exact h v' _ (hr'.trans hr) (hw'.trans hw) (fun e he => hlog' e (hlog e he)) (.cons (hp.mono hlog') hp')
    cases validated with
    | error rejection =>
      simp only [wp_bind, wp_attempt, wp_pure, mapError_eq_ok, ToolOperationRecord.finish_ok]
      rintro record ⟨_, _, rfl⟩
      refine hrest _ _ rfl rfl (fun e he => by simp [EpisodeView.logged, he]) ⟨?_, rfl, .inr ⟨rfl, _, ?_, rfl⟩⟩
      · exact ⟨operationId, declared, by simp [EpisodeView.logged], hi, rfl⟩
      · exact .invalid (by simp [EpisodeView.logged])
    | ok u =>
      simp only [wp_bind]
      refine keeps_call (by simp [episodeProtocol]) trivial fun redeclared _ => ?_
      cases redeclared with
      | none =>
        simp only [Option.isNone_none, if_true, wp_bind, wp_attempt, wp_pure, mapError_eq_ok,
          ToolOperationRecord.finish_ok]
        rintro record ⟨_, _, rfl⟩
        refine hrest _ _ rfl rfl (fun e he => by simp [EpisodeView.logged, he]) ⟨?_, rfl, .inr ⟨rfl, _, ?_, rfl⟩⟩
        · exact ⟨operationId, declared, by simp [EpisodeView.logged], hi, rfl⟩
        · exact .unknown (by simp [EpisodeView.logged]) (by simp [EpisodeView.logged])
      | some descriptor =>
        simp only [Option.isNone_some, Bool.false_eq_true, if_false, wp_bind, wp_pure]
        refine hrest _ _ rfl rfl (fun e he => by simp [EpisodeView.logged, he]) ⟨?_, rfl, .inl ⟨rfl, rfl⟩⟩
        exact ⟨operationId, declared, by simp [EpisodeView.logged], hi, rfl⟩

theorem keeps_planTurnTools (hk : state.episodeId = id) (hs : state.status = .turnRecorded) :
    Upholds answers id (some ⟨revision, state, none, []⟩) (planTurnTools id ⟨revision, state⟩) fun _ _ => True := by
  simp only [planTurnTools]
  split
  · trivial
  · rename_i turn ht
    split
    · rename_i hempty
      simp only [Upholds, wp_bind, wp_attempt, transition_ok]
      rintro state' ⟨_, rfl⟩
      exact keeps_save rfl hk (.moved (.stopped hs ht (.inl (by simpa using hempty)))) trivial
    · rename_i hempty
      simp only [Upholds, wp_bind, wp_attempt, u32TryFrom_ok]
      rintro count ⟨_, rfl⟩
      split
      · rename_i hb
        simp only [wp_bind, wp_attempt, transition_ok]
        rintro state' ⟨_, rfl⟩
        exact keeps_save rfl hk (.moved (.overspent hs ht hb)) trivial
      · rename_i hb
        split
        · rename_i hw
          simp only [wp_bind, wp_attempt, transition_ok]
          rintro state' ⟨_, rfl⟩
          exact keeps_save rfl hk (.moved (.stopped hs ht (.inr hw))) trivial
        · rename_i hw
          simp only [wp_bind, wp_attempt, transition_ok]
          refine keeps_planCalls hs ⟨turn, ht, fun _ hc => hc⟩ fun v' operations hr hst _ hp => ?_
          rintro state' ⟨_, rfl⟩
          refine keeps_save hr.symm hk ?_ (keeps_crashIf trivial)
          rw [hst]
          exact .planned hs ht (not_lt.mp hb) (not_lt.mp hw) hp (by simpa using hempty)

theorem keeps_finishTools (hk : state.episodeId = id) (hs : state.status = .toolWorkPending)
    (ho : ∀ operation ∈ state.toolOperations, operation.record.status.isTerminal = true) :
    Upholds answers id (some ⟨revision, state, none, []⟩) (finishTools ⟨revision, state⟩) fun _ _ => True := by
  simp only [finishTools]
  split
  · trivial
  · rename_i turn ht
    simp only [Upholds, wp_bind, wp_attempt, transition_ok]
    rintro state' ⟨_, rfl⟩
    exact keeps_save rfl hk (.toolsFinished hs ht ho) trivial

theorem keeps_recordToolOutcome
    {invocation : ToolInvocation} {outcome : ToolGatewayOutcome} (hk : v.state.episodeId = id)
    (hs : v.state.status = .toolWorkPending) (hg : v.state.toolOperations[index]? = some operation)
    (hi : Invokes v.state operation invocation) (he : ToolAnswered v.log invocation outcome) :
    Upholds answers id (some v) (recordToolOutcome ⟨v.revision, v.state⟩ index operation outcome)
      fun _ _ => True := by
  cases outcome with
  | completed status digest receipts satisfies =>
    simp only [recordToolOutcome]
    split
    · trivial
    · rename_i ht
      split
      · trivial
      · rename_i hv
        simp only [Upholds, wp_bind, wp_attempt, mapError_eq_ok, ToolOperationRecord.finish_ok]
        rintro record ⟨hterm, hc, rfl⟩
        refine keeps_save rfl hk (.toolCompleted hs hg he hi hterm ?_ hc ?_) (keeps_crashIf trivial)
        · rintro rfl
          simp at ht
        · rintro rfl
          simpa using hv
  | pending digest =>
    simp only [recordToolOutcome]
    split
    · simp only [Upholds, wp_bind, wp_attempt, mapError_eq_ok, ToolOperationRecord.transition_ok]
      rintro record ⟨_, hc, rfl⟩
      exact keeps_save rfl hk (.toolRunning hs hg he hi (.inr hc)) trivial
    · rename_i hrun
      rw [ne_eq, not_not] at hrun
      simp only [Upholds, wp_bind, wp_pure]
      have hstep : EpisodeStep id v.state v.log _ := .toolRunning hs hg he hi (.inl hrun)
      rw [← hrun] at hstep
      exact keeps_save rfl hk hstep trivial
  | ambiguous digest =>
    simp only [recordToolOutcome]
    split
    · simp only [Upholds, wp_bind, wp_attempt, mapError_eq_ok, ToolOperationRecord.transition_ok, suspend_ok]
      rintro record ⟨_, hc, rfl⟩ state' ⟨_, rfl⟩
      exact keeps_save rfl hk (.toolSuspended hs hg he hi (.inr ⟨hc, rfl⟩)) trivial
    · rename_i hrec
      rw [ne_eq, not_not] at hrec
      simp only [Upholds, wp_bind, wp_pure, wp_attempt, suspend_ok]
      rintro state' ⟨_, rfl⟩
      have hstep : EpisodeStep id v.state v.log _ := .toolSuspended hs hg he hi (.inl ⟨hrec, rfl⟩)
      rw [← hrec] at hstep
      exact keeps_save rfl hk hstep trivial

omit [Sha256] in
theorem dispatchRecord_ok {record record' : ToolOperationRecord} (h : dispatchRecord record = .ok record') :
    record'.spec = record.spec ∧ record'.resultDigest = record.resultDigest ∧
      (record.status = .requested ∧ record' = { record with status := .dispatching } ∨
        (record.status = .dispatching ∨ record.status = .ambiguous ∨ record.status = .reconciling) ∧
          record' = { record with status := .reconciling } ∨
        record.status = .running ∧ record' = record) := by
  simp only [dispatchRecord] at h
  split at h
  · rename_i hs
    simp only [bind_eq_ok, mapError_eq_ok, ToolOperationRecord.transition_ok] at h
    obtain ⟨_, ⟨_, _, rfl⟩, _, _, rfl⟩ := h
    exact ⟨rfl, rfl, .inl ⟨hs, rfl⟩⟩
  · rename_i hs
    simp only [bind_eq_ok, mapError_eq_ok, ToolOperationRecord.transition_ok] at h
    obtain ⟨_, ⟨_, _, rfl⟩, _, _, rfl⟩ := h
    exact ⟨rfl, rfl, .inr (.inl ⟨.inl hs, rfl⟩)⟩
  · rename_i hs
    simp only [mapError_eq_ok, ToolOperationRecord.transition_ok] at h
    obtain ⟨_, _, rfl⟩ := h
    exact ⟨rfl, rfl, .inr (.inl ⟨.inr (.inl hs), rfl⟩)⟩
  · rename_i hs
    cases h
    exact ⟨rfl, rfl, .inr (.inl ⟨.inr (.inr hs), by rw [← hs]⟩)⟩
  · rename_i hs
    cases h
    exact ⟨rfl, rfl, .inr (.inr ⟨hs, rfl⟩)⟩
  · cases h

theorem keeps_driveTools (hk : state.episodeId = id) (hs : state.status = .toolWorkPending) :
    Upholds answers id (some ⟨revision, state, none, []⟩) (driveTools ⟨revision, state⟩) fun _ _ => True := by
  simp only [driveTools]
  split
  · rename_i hnone
    refine keeps_finishTools hk hs fun operation hm => ?_
    simpa using List.findFinIdx?_eq_none_iff.mp hnone operation hm
  · rename_i index hfirst
    have hb : ∀ before ∈ state.toolOperations.take index, before.record.status.isTerminal = true := by
      intro before hm
      obtain ⟨i, hi, rfl⟩ := List.getElem_of_mem hm
      rw [List.length_take] at hi
      rw [List.getElem_take]
      simpa using (List.findFinIdx?_eq_some_iff.mp hfirst).2 ⟨i, by omega⟩ (by show i < index; omega)
    have hg : state.toolOperations[(index : Nat)]? = some (state.toolOperations.get index) := by simp
    generalize state.toolOperations.get index = operation at hg ⊢
    simp only [Upholds, wp_bind, wp_attempt]
    intro record hd
    obtain ⟨hspec, -, hcase⟩ := dispatchRecord_ok hd
    refine keeps_save rfl hk (.toolDispatched hs hg hd hb) (keeps_crashIf ?_)
    have hg' : (state.toolOperations.set index { operation with record := record })[(index : Nat)]? =
        some { operation with record := record } := by
      rw [List.getElem?_set_self (List.getElem?_eq_some_iff.mp hg).choose]
    have hi : Invokes (state.setOperation index { operation with record := record })
        { operation with record := record } ⟨record.id, operation.call, state.nextInputDigest⟩ := ⟨rfl, rfl, rfl⟩
    have hopen : record.status.isTerminal = false := by
      rcases hcase with ⟨_, rfl⟩ | ⟨_, rfl⟩ | ⟨hst, rfl⟩
      · rfl
      · rfl
      · rw [hst]
        rfl
    have hcalls : state.status = .toolWorkPending ∧
        ∃ o ∈ state.toolOperations.set index { operation with record := record },
        o.record.status.isTerminal = false ∧ Invokes (state.setOperation index { operation with record := record }) o
          ⟨record.id, operation.call, state.nextInputDigest⟩ :=
      ⟨hs, _, List.mem_of_getElem? hg', hopen, hi⟩
    split
    · simp only [Runner.reconcile, wp_bind, wp_attempt, mapError_eq_ok]
      refine keeps_call (by simp [episodeProtocol]) hcalls fun reply _ => ?_
      rintro outcome rfl
      refine keeps_crashIf (keeps_recordToolOutcome hk hs hg' hi (.inr ?_))
      simp [EpisodeView.logged]
    · rename_i hrec
      simp only [Runner.execute, wp_bind, wp_attempt, mapError_eq_ok]
      have hmint : operation.record.status = .requested ∧
        record = { operation.record with status := .dispatching } := by
        rcases hcase with h | ⟨_, rfl⟩ | ⟨hst, rfl⟩
        · exact h
        · exact absurd rfl hrec
        · exact absurd (by rw [hst]; rfl) hrec
      refine keeps_linear (by simp [episodeProtocol]) hcalls rfl ?_ fun reply _ => ?_
      · refine ⟨index, operation, hg, hmint.1, ?_, ?_⟩
        · simp only [ToolOperationRecord.id, hspec]
        · rw [← hmint.2]
          exact hg'
      · rintro outcome rfl
        refine keeps_crashIf (keeps_recordToolOutcome hk hs hg' hi (.inl ?_))
        simp [EpisodeView.logged, EpisodeView.spent]

theorem keeps_reviewStop (hk : state.episodeId = id) (hs : state.status = .stopReview) :
    Upholds answers id (some ⟨revision, state, none, []⟩) (reviewStop ⟨revision, state⟩) fun _ _ => True := by
  simp only [reviewStop]
  split
  · rename_i hb
    exact keeps_transitionOnly rfl hk (.moved (.satisfied hs hb))
  · rename_i hb
    rw [Bool.not_eq_true] at hb
    split
    · rename_i hf
      split
      · trivial
      · rename_i turn ht
        exact keeps_transitionOnly rfl hk (.continued hs ht hb hf)
    · rename_i hf
      exact keeps_transitionOnly rfl hk (.moved (.gaveUp hs hb (not_lt.mp hf)))

theorem keeps_advance : Upholds answers id none (advance id) fun _ _ => True := by
  simp only [Upholds, advance, wp_bind]
  refine keeps_load fun revision state hk => ?_
  cases hs : state.status with
  | created => exact keeps_transitionOnly rfl hk (.moved (.begun hs))
  | readyForModel => exact keeps_prepareAttempt hk hs
  | modelAttemptPending => exact keeps_driveModel hk hs
  | turnRecorded => exact keeps_planTurnTools hk hs
  | toolWorkPending => exact keeps_driveTools hk hs
  | stopReview => exact keeps_reviewStop hk hs
  | cancellationPending => exact keeps_transitionOnly rfl hk (.moved (.cancelled hs))
  | suspended => trivial
  | suspensionRequested => trivial
  | succeeded => trivial
  | incomplete => trivial
  | cancelled => trivial
  | budgetExhausted => trivial
  | failed => trivial

theorem keeps_resume {granted : EpisodeAllowance} :
    Upholds answers id none (resume id granted) fun _ _ => True := by
  simp only [Upholds, resume, wp_bind]
  refine keeps_load fun revision state hk => ?_
  simp only [wp_attempt]
  intro _ hr
  split
  · trivial
  · simp only [wp_bind, wp_attempt, mapError_eq_ok, AgentEpisodeRecord.resume_ok]
    rintro episode ⟨hs, rfl⟩ _ hp
    exact keeps_save rfl hk (.resumed hs hr hp) trivial

theorem keeps_resumeReconciliation :
    Upholds answers id none (resumeReconciliation id) fun _ _ => True := by
  simp only [Upholds, resumeReconciliation, wp_bind]
  refine keeps_load fun revision state hk => ?_
  split
  · trivial
  · rename_i hs
    rw [ne_eq, not_not] at hs
    simp only [wp_bind, wp_attempt, transition_ok]
    rintro state' ⟨_, rfl⟩
    refine keeps_save rfl hk (.moved ?_) trivial
    split
    · rename_i ho
      refine .unresolved hs ?_
      simpa using ho
    · rename_i ho
      have ho' : ∀ operation ∈ state.toolOperations, operation.record.status.isTerminal = true := by
        simpa using ho
      split
      · rename_i hc
        exact .cancelledSuspended hs hc ho'
      · rename_i hc
        exact .reopened hs (by simpa using hc) ho'

omit [Sha256] in
theorem cancelLastAttempt_ok (h : cancelLastAttempt state = .ok state') :
    ∃ attempts, state' = { state with attempts := attempts } ∧
      (attempts = state.attempts ∨ ∃ attempt, state.attempts.getLast? = some attempt ∧
        attempt.status = .dispatching ∧ attempts = state.attempts.dropLast ++
          [{ attempt with diagnosticDigest := none, status := .cancelledAmbiguous }]) := by
  simp only [cancelLastAttempt] at h
  split at h
  · rename_i attempt hl
    split at h
    · simp only [bind_eq_ok, mapError_eq_ok, finishWithoutResponse_ok] at h
      obtain ⟨attempt', ⟨ha, _, rfl⟩, h⟩ := h
      cases h
      exact ⟨_, rfl, .inr ⟨attempt, hl, ha, rfl⟩⟩
    · cases h
      exact ⟨_, rfl, .inl rfl⟩
  · cases h
    exact ⟨_, rfl, .inl rfl⟩

omit [Sha256] in
theorem cancelFirstDispatching_ok {tool : Bool}
    (h : (if tool then cancelFirstDispatching state else .ok state) = .ok state') :
    ∃ operations, state' = { state with toolOperations := operations } ∧
      (operations = state.toolOperations ∨ ∃ (index : Nat) (operation : DurableToolOperation),
        state.toolOperations[index]? = some operation ∧ operation.record.status = .dispatching ∧
        operations = state.toolOperations.set index
          { operation with record := { operation.record with status := .ambiguous } }) := by
  simp only [cancelFirstDispatching] at h
  split at h
  · split at h
    · rename_i index hf
      simp only [bind_eq_ok, mapError_eq_ok, ToolOperationRecord.transition_ok] at h
      obtain ⟨record, ⟨_, _, rfl⟩, h⟩ := h
      cases h
      refine ⟨_, rfl, .inr ⟨index, state.toolOperations.get index, by simp, ?_, rfl⟩⟩
      simpa using (List.findFinIdx?_eq_some_iff.mp hf).1
    · cases h
      exact ⟨_, rfl, .inl rfl⟩
  · cases h
    exact ⟨_, rfl, .inl rfl⟩

omit [Sha256] in
theorem cancelStatus_ok {ambiguous : Bool} (h : cancelStatus state ambiguous = .ok state') :
    ∃ next, state' = state.withStatus next ∧
      (next = .suspended ∧ (state.status = .suspended ∨ state.status.canTransitionTo .suspensionRequested = true) ∨
        next = .cancellationPending ∧
          (state.status = .cancellationPending ∨ state.status.canTransitionTo .cancellationPending = true)) := by
  have hself : state = state.withStatus state.status := rfl
  simp only [cancelStatus] at h
  split at h
  · split at h
    · obtain ⟨hc, rfl⟩ := suspend_ok.mp h
      exact ⟨_, rfl, .inl ⟨rfl, .inr hc⟩⟩
    · rename_i hs
      rw [ne_eq, not_not] at hs
      cases h
      exact ⟨state.status, hself, .inl ⟨hs, .inl hs⟩⟩
  · split at h
    · obtain ⟨hc, rfl⟩ := transition_ok.mp h
      exact ⟨_, rfl, .inr ⟨rfl, .inr hc⟩⟩
    · rename_i hs
      rw [ne_eq, not_not] at hs
      cases h
      exact ⟨state.status, hself, .inr ⟨hs, .inl hs⟩⟩

theorem keeps_requestCancellation :
    Upholds answers id none (requestCancellation id) fun _ _ => True := by
  simp only [Upholds, requestCancellation, wp_bind]
  refine keeps_load fun revision state hk => ?_
  split
  · trivial
  · rename_i ht
    rw [Bool.not_eq_true] at ht
    simp only [wp_bind, wp_attempt]
    intro state₁ h₁ state₂ h₂ state₃ h₃
    obtain ⟨attempts, rfl, ha⟩ := cancelLastAttempt_ok h₁
    obtain ⟨operations, rfl, ho⟩ := cancelFirstDispatching_ok h₂
    obtain ⟨next, rfl, hn⟩ := cancelStatus_ok h₃
    exact keeps_save rfl hk (.cancelRequested ht ha ho hn) trivial

theorem complies (answers : (c : GatewayCall) → GatewayReply c → Prop) :
    Complies (episodeEnv answers) episodeProtocol := by
  rintro id p ⟨request, rfl⟩
  cases request with simp only [RunnerRequest.program, wp_bind]
  | advance => exact wp_mono keeps_advance fun _ _ _ => trivial
  | resume granted => exact wp_mono keeps_resume fun _ _ _ => trivial
  | requestCancellation => exact wp_mono keeps_requestCancellation fun _ _ _ => trivial
  | resumeReconciliation => exact wp_mono keeps_resumeReconciliation fun _ _ _ => trivial

end AlloyPort
