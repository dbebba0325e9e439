import AlloyPort.Attempts.Visibility
import AlloyPort.Oracle.Evaluation
import AlloyPort.Candidate.Assembly

/-! The two gate tools over the attempts that they have named. Their `reconcile` prepares a request again and looks
at what is stored of it. -/

namespace AlloyPort.Attempts

open Candidate Framing Oracle Database Transaction SqliteControlRepository

def ReductionCorrectnessError.display : ReductionCorrectnessError → String
  | .invalidObservation => "invalid reduction observation"
  | .invalidRunContext => "invalid reduction run context"
  | .duplicateObservation => "duplicate reduction observation"
  | .referenceRoleRequired => "CUDA reference run is required"
  | .experimentIdentityMismatch => "correctness experiment identity mismatch"
  | .invalidCorpus => "invalid reduction correctness corpus"
  | .invalidExecutionSource => "invalid reduction execution source"
  | .invalidExecutionBundle => "invalid reduction execution bundle"
  | .noiseFloorUnavailable => "the reference run carries no second summation order, so this task's own numeric " ++
      "spread was never measured"

section oracle

variable [Sha256] [AttemptJson]

structure ReadPair where
  reference : ReductionRunReceipt
  candidate : ReductionRunReceipt
  referenceBundle : ReductionExecutionBundle
  candidateBundle : ReductionExecutionBundle

def readPair (referenceBundle candidateBundle reference candidate : List UInt8) : Except String ReadPair := do
  let referenceRun ← (AttemptJson.parseRun reference).mapError fun error =>
    s!"invalid CUDA reference run receipt: {error}"
  let candidateRun ← (AttemptJson.parseRun candidate).mapError fun error =>
    s!"invalid Ascend candidate run receipt: {error}"
  let referenceInput ← (AttemptJson.parseBundle referenceBundle).mapError fun error =>
    s!"invalid reduction execution bundle: {error}"
  let candidateInput ← (AttemptJson.parseBundle candidateBundle).mapError fun error =>
    s!"invalid reduction execution bundle: {error}"
  return ⟨referenceRun, candidateRun, referenceInput, candidateInput⟩

def ReadPair.Binds (pair : ReadPair) (experiment : ReductionCorrectnessExperiment) : Prop :=
  pair.referenceBundle.experiment = experiment ∧ pair.candidateBundle.experiment = experiment ∧
    pair.referenceBundle.role = .cudaReference ∧ pair.candidateBundle.role = .ascendCandidate ∧
    pair.reference.implementationDigest = pair.referenceBundle.implementationDigest ∧
    pair.candidate.implementationDigest = pair.candidateBundle.implementationDigest

instance (pair : ReadPair) (experiment : ReductionCorrectnessExperiment) : Decidable (pair.Binds experiment) :=
  inferInstanceAs (Decidable (_ ∧ _ ∧ _ ∧ _ ∧ _ ∧ _))

variable [OracleJson]

def judgePair (plan : ReductionTolerancePlan) (corpus : ReductionCorpus) (experiment : ReductionCorrectnessExperiment)
    (pair : ReadPair) : Except String CorrectnessJudgement :=
  if pair.Binds experiment then do
    let calibration ← (calibrateReductionOracle pair.reference.toReductionRun plan corpus).mapError
      ReductionCorrectnessError.display
    let receipt ← (evaluateReductionCorrectness experiment pair.reference.toReductionRun pair.candidate.toReductionRun
      plan corpus calibration).mapError ReductionCorrectnessError.display
    return ⟨OracleJson.documentBytes (.calibration calibration), OracleJson.documentBytes (.receipt receipt),
      receipt.verdict⟩
  else .error "correctness run receipt does not bind the assigned implementation bundle"

@[reducible] def reductionOracle (plan : ReductionTolerancePlan) (corpus : ReductionCorpus) : CorrectnessOracle where
  judge experiment referenceBundle candidateBundle reference candidate := do
    let pair ← readPair referenceBundle candidateBundle reference candidate
    judgePair plan corpus experiment pair

end oracle

section tools

variable [Sha256] [GatewayJson] [AttemptJson] (config : CandidateToolConfig) (db : ControlDatabase)

def reconcileBuild (policy : CandidateBuildToolConfig) (adapter : WorkerBuildAttemptAdapter)
    (enqueued : Except EnqueueError Unit × ControlDatabase) (operationId : ToolOperationId)
    (arguments : RequestAscendBuildArguments) : GatewayAction Candidate.ToolGatewayOutcome := do
  let preparation ← prepareBuild config policy operationId arguments
  match preparation with
  | .candidateRejected resultDigest => return candidateRejected resultDigest
  | .ready bundle assignment => do
    let s ← read
    let observation ← attempt ((adapter.reconcile s.artifacts enqueued db assignment).mapError fun error =>
      .adapter (.attempt error))
    observeBuild bundle assignment observation

def reconcileCorrectness [OracleJson] (plan : ReductionTolerancePlan) (policy : CandidateCorrectnessToolConfig)
    (adapter : WorkerCorrectnessAttemptAdapter) (enqueued : Except EnqueueError Unit × Except EnqueueError Unit)
    (arguments : RequestReductionCorrectnessArguments) : GatewayAction Candidate.ToolGatewayOutcome := do
  let spec ← prepareCorrectness config policy arguments
  let s ← read
  let observation ← attempt ((adapter.dispatchOrObserve s.artifacts enqueued db spec).mapError fun error =>
    .adapter (.attempt error))
  @observeCorrectness _ _ (reductionOracle plan policy.corpus) spec observation

end tools

/-- A request is pending until its attempts are over, and completed from then on. -/
def Settles (ended : Prop) (reflects : Candidate.ToolOperationStatus → Prop)
    (result : Except Candidate.ToolGatewayError Candidate.ToolGatewayOutcome) : Prop :=
  (¬ ended → ∃ digest, result = .ok (.pending digest)) ∧
    (ended → ∃ completed, result = .ok (.completed completed) ∧ reflects completed.status)

theorem not_settles {ended : Prop} {reflects : Candidate.ToolOperationStatus → Prop}
    {error : Candidate.ToolGatewayError} : ¬ Settles ended reflects (.error error) := by
  intro h
  by_cases hended : ended
  · obtain ⟨_, hresult, _⟩ := h.2 hended
    cases hresult
  · obtain ⟨_, hresult⟩ := h.1 hended
    cases hresult

section conforming

variable [Sha256] {artifacts : ArtifactStore} {descriptor : ArtifactDescriptor} {maximum : Nat} {bytes : List UInt8}

structure Holds (artifacts : ArtifactStore) (descriptor : ArtifactDescriptor) (maximum : Nat) (bytes : List UInt8) :
    Prop where
  stored : artifacts.openArtifact descriptor.digest = some bytes
  sized : bytes.length = descriptor.sizeBytes
  nonempty : descriptor.sizeBytes ≠ 0
  bounded : descriptor.sizeBytes ≤ maximum

structure ReceiptConforms (receipt : WorkerReceipt) (schema : Nat) (assignment : AssignmentContract)
    (finished : FinishedObservation) : Prop where
  fields : receipt.Matches schema assignment finished
  bundle : Sha256Digest.fromStr receipt.bundleDigest = .ok assignment.execution.bundle.digest
  image : Sha256Digest.fromStr receipt.imageDigest = .ok assignment.execution.image.digest

variable [AttemptJson]

/-- The receipt of a build, if there is one, is in the store and agrees with the report. -/
def BuildConforms (artifacts : ArtifactStore) (bundle : CandidateBuildBundle) (assignment : AssignmentContract)
    (finished : FinishedObservation) : Prop :=
  ∀ descriptor, finished.receipt = some descriptor →
    ∃ bytes projection, Holds artifacts descriptor MAX_WORKER_RECEIPT_BYTES bytes ∧
    AttemptJson.parseBuildReceipt bytes = .ok projection ∧
      ReceiptConforms projection.toWorkerReceipt 2 assignment finished ∧
    projection.environment.isComplete = true ∧ projection.environment.architecture = bundle.targetArchitecture

structure RunBinds (experiment : ReductionCorrectnessExperiment) (side : ReductionRunRole)
    (bundle : ReductionExecutionBundle) (run : ReductionRunReceipt) : Prop where
  role : run.role = side
  experimentDigest : run.experimentDigest = experiment.experimentDigest
  candidateId : run.candidateId = side.candidate experiment
  corpusDigest : run.corpusDigest = experiment.corpusDigest
  implementationDigest : run.implementationDigest = bundle.implementationDigest

/-- The receipt and the run of a successful execution, if both are there, are in the store and agree with the report. -/
def RunConforms (artifacts : ArtifactStore) (experiment : ReductionCorrectnessExperiment) (role : ReductionRunRole)
    (bundle : ReductionExecutionBundle) (assignment : AssignmentContract) (finished : FinishedObservation) : Prop :=
  finished.outcome = .succeeded → finished.exitCode = some 0 → ∀ receipt stdout, finished.receipt = some receipt →
    finished.stdout = some stdout →
    (∃ bytes projection schema, Holds artifacts receipt MAX_WORKER_RECEIPT_BYTES bytes ∧
      AttemptJson.parseRunReceipt bytes = .ok projection ∧
      expectedSchema assignment.execution.executorKind = some schema ∧
      ReceiptConforms projection.toWorkerReceipt schema assignment finished ∧ projection.stdoutDigest = stdout.digest) ∧
    ∃ bytes run, Holds artifacts stdout MAX_RUN_RECEIPT_BYTES bytes ∧ AttemptJson.parseRun bytes = .ok run ∧
      RunBinds experiment role bundle run

omit [AttemptJson] in
theorem readDescribed_holds {failure : AdapterFailure} {s : GatewayState}
    (h : Holds s.artifacts descriptor maximum bytes) : readDescribed descriptor maximum failure s = (.ok bytes, s) := by
  have hsmall : ¬ (descriptor.sizeBytes = 0 ∨ descriptor.sizeBytes > maximum) := by
    have hnonempty := h.nonempty
    have hbounded := h.bounded
    omega
  have hread : readBounded descriptor.digest maximum s = (.ok bytes, s) := by
    have hlong : ¬ bytes.length > maximum := by
      rw [h.sized]
      exact not_lt.mpr h.bounded
    rw [readBounded, bind_ok (t := Transaction.read) rfl, h.stored]
    simp only [if_neg hlong]
    rfl
  rw [readDescribed, if_neg hsmall, bind_ok hread, if_pos ⟨h.sized, openArtifact_digest h.stored⟩]
  rfl

theorem openArtifact_holds (h : Holds artifacts descriptor maximum bytes) :
    openArtifact artifacts descriptor.digest = .ok bytes := by
  rw [openArtifact, h.stored]

theorem readJsonArtifact_holds {α : Type} {parse : List UInt8 → Except String α} {value : α}
    (h : Holds artifacts descriptor maximum bytes) (hparse : parse bytes = .ok value) :
    readJsonArtifact parse artifacts descriptor maximum = .ok value := by
  have hsmall : ¬ (descriptor.sizeBytes = 0 ∨ descriptor.sizeBytes > maximum) := by
    have hnonempty := h.nonempty
    have hbounded := h.bounded
    omega
  rw [readJsonArtifact, if_neg hsmall, openArtifact_holds h]
  change (if bytes.length ≠ descriptor.sizeBytes then _ else _) = _
  rw [if_neg (not_not.mpr h.sized), if_neg (not_not.mpr (openArtifact_digest h.stored)), hparse]
  rfl

theorem readWorkerReceipt_holds {projection : BuildReceiptProjection}
    (h : Holds artifacts descriptor MAX_WORKER_RECEIPT_BYTES bytes)
    (hparse : AttemptJson.parseBuildReceipt bytes = .ok projection) :
    readWorkerReceipt artifacts descriptor = .ok projection := by
  have hfits : ¬ (bytes.length ≠ descriptor.sizeBytes ∨ descriptor.sizeBytes > MAX_WORKER_RECEIPT_BYTES) := by
    have hsized := h.sized
    have hbounded := h.bounded
    omega
  rw [readWorkerReceipt, openArtifact_holds h]
  change (if bytes.length ≠ descriptor.sizeBytes ∨ descriptor.sizeBytes > MAX_WORKER_RECEIPT_BYTES then _ else _) = _
  rw [if_neg hfits, if_neg (not_not.mpr (openArtifact_digest h.stored)), hparse]
  rfl

omit [Sha256] [AttemptJson] in
theorem validateWorkerReceipt_conforms {receipt : WorkerReceipt} {schema : Nat} {assignment : AssignmentContract}
    {finished : FinishedObservation} {also : Bool} {mismatch : String}
    (h : ReceiptConforms receipt schema assignment finished)
    (halso : also = true) : validateWorkerReceipt receipt schema assignment finished also mismatch = .ok () := by
  rw [validateWorkerReceipt, h.bundle, h.image]
  change (if _ then _ else _) = _
  exact if_pos ⟨h.fields, rfl, rfl, halso⟩

end conforming

/-! When a gate request comes to an end. A build does once it has a receipt, whatever has become of it; a pair does
only when both of its runs have succeeded. -/

variable [Sha256] [GatewayJson] [AttemptJson] {log : List ControlEvent} {db : ControlDatabase}
  {config : CandidateToolConfig} {s s' : GatewayState}

section build

variable {policy : CandidateBuildToolConfig} {adapter : WorkerBuildAttemptAdapter} {operationId : ToolOperationId}
  {arguments : RequestAscendBuildArguments} {enqueued : Except EnqueueError Unit × ControlDatabase}
  {bundle : CandidateBuildBundle} {assignment : AssignmentContract} {row : AssignmentRow}
  {finished : FinishedObservation}
  {state : AttemptState}

def buildOutcomeStatus (finished : FinishedObservation) : Candidate.ToolOperationStatus :=
  match finished.outcome with
  | .succeeded => if finished.exitCode = some 0 then .succeeded else .infraFailed
  | .candidateFailed => .candidateFailed
  | .timedOut => .timedOut
  | .cancelled => .cancelled
  | .infraError | .integrityViolation => .infraFailed

/-- The attempt can still be heard of, or has been. -/
def NotGivenUp (state : AttemptState) : Prop := state ≠ .rejected ∧ state ≠ .cancelled ∧ state ≠ .leaseExpired

omit [Sha256] [GatewayJson] [AttemptJson] in
theorem notGivenUp_of_open (h : state.isSettled = false) : NotGivenUp state := by
  cases state <;> simp [AttemptState.isSettled, NotGivenUp] at h ⊢

omit [Sha256] [GatewayJson] [AttemptJson] in
theorem notGivenUp_iff_finished (h : state.isSettled = true) : NotGivenUp state ↔ state = .finished := by
  cases state <;> simp [AttemptState.isSettled, NotGivenUp] at h ⊢

def resultOf (db : ControlDatabase) (assignment : AssignmentContract) :
    Except RepositoryError (Option FinishedObservation) :=
  ((finishedObservation assignment.attemptId.text).run db).2

omit [GatewayJson] [AttemptJson] in
theorem buildAssignment_names {artifact : ArtifactDescriptor}
    (h : buildAssignment policy operationId bundle artifact = .ok assignment) :
    assignment.candidateId = bundle.candidateId ∧ assignment.taskId = bundle.taskId := by
  unfold buildAssignment at h
  dsimp only at h
  split at h
  · cases h
    exact ⟨rfl, rfl⟩
  · cases h

omit [AttemptJson] in
theorem prepareBuild_assigns (h : prepareBuild config policy operationId arguments s =
    (.ok (.ready bundle assignment), s')) :
    assignment.candidateId = bundle.candidateId ∧ assignment.taskId = bundle.taskId := by
  have hwp : (prepareBuild config policy operationId arguments).wp s (fun preparation _ => ∀ bundle assignment,
      preparation = .ready bundle assignment →
        assignment.candidateId = bundle.candidateId ∧ assignment.taskId = bundle.taskId) fun _ _ => True := by
    simp only [prepareBuild, wp_bind]
    refine wp_mono wp_trivial (fun manifest _ _ => ?_) fun _ _ _ => trivial
    simp only [wp_ite, wp_raise, wp_bind]
    split
    · refine wp_mono wp_trivial (fun sources _ _ => ?_) fun _ _ _ => trivial
      refine wp_mono wp_trivial (fun rejected _ _ => ?_) fun _ _ _ => trivial
      cases rejected with
      | some digest =>
        intro bundle assignment heq
        cases heq
      | none =>
        simp only [wp_bind, wp_attempt]
        refine ⟨fun built _ => ?_, fun _ _ => trivial⟩
        refine wp_mono wp_trivial (fun _ _ _ => ?_) fun _ _ _ => trivial
        refine ⟨fun assigned hassigned bundle assignment heq => ?_, fun _ _ => trivial⟩
        cases heq
        exact buildAssignment_names hassigned
    · trivial
  exact wp_ok hwp h bundle assignment rfl

theorem reconcileBuild_ready (h : prepareBuild config policy operationId arguments s =
    (.ok (.ready bundle assignment), s')) : (reconcileBuild config db policy adapter enqueued operationId arguments) s =
      (do
        let observation ← attempt ((adapter.reconcile s'.artifacts enqueued db assignment).mapError fun error =>
          .adapter (.attempt error))
        observeBuild bundle assignment observation : GatewayAction Candidate.ToolGatewayOutcome) s' := by
  rw [reconcileBuild, bind_ok h]
  rfl

open WorkerBuildAttemptAdapter

omit [GatewayJson] in
theorem terminal_conforms (hreceipt : finished.receipt.isSome = true)
    (h : BuildConforms s.artifacts bundle assignment finished) :
    ∃ projection, terminal s.artifacts assignment finished =
        .ok (.finished (buildTerminal assignment finished projection)) ∧
      projection.environment.isComplete = true ∧ projection.environment.architecture = bundle.targetArchitecture := by
  obtain ⟨descriptor, hdescriptor⟩ := Option.isSome_iff_exists.mp hreceipt
  obtain ⟨bytes, projection, hholds, hparse, hconforms, henvironment⟩ := h descriptor hdescriptor
  have hread := readWorkerReceipt_holds hholds hparse
  have hvalid : validateWorkerReceipt projection.toWorkerReceipt 2 assignment finished true
      "worker receipt does not match the terminal build observation" = .ok () :=
        validateWorkerReceipt_conforms hconforms rfl
  refine ⟨projection, ?_, henvironment⟩
  simp only [terminal, hdescriptor, hread, hvalid, Bind.bind, Except.bind, Pure.pure, Except.pure]

omit [GatewayJson] in
theorem terminal_lacks_receipt (hreceipt : finished.receipt.isSome = false) :
    terminal s.artifacts assignment finished =
      .error (.integrity "build attempt lacks worker receipt") := by
  have hnone : finished.receipt = none := by simpa using hreceipt
  rw [terminal, hnone]

omit [AttemptJson] in
theorem observeBuild_finished {projection : BuildReceiptProjection}
    (hcomplete : projection.environment.isComplete = true)
    (harchitecture : projection.environment.architecture = bundle.targetArchitecture)
    (hassigned : assignment.candidateId = bundle.candidateId ∧ assignment.taskId = bundle.taskId) :
    ∃ completed, (observeBuild bundle assignment
        (.finished (buildTerminal assignment finished projection)) s).1 = .ok (.completed completed) ∧
      completed.status = buildOutcomeStatus finished := by
  have hsame : assignment.assignmentId = (buildTerminal assignment finished projection).assignmentId ∧
      assignment.attemptId = (buildTerminal assignment finished projection).attemptId ∧
      assignment.candidateId = bundle.candidateId ∧ assignment.taskId = bundle.taskId := ⟨rfl, rfl, hassigned⟩
  have henvironment : (buildTerminal assignment finished projection).environment.isComplete = true ∧
      (buildTerminal assignment finished projection).environment.architecture =
        bundle.targetArchitecture := ⟨hcomplete, harchitecture⟩
  obtain ⟨receipt, hnew, houtcome, hpassed⟩ : ∃ receipt, AscendBuildReceipt.new bundle assignment
      (buildTerminal assignment finished projection) = .ok receipt ∧
      receipt.document.outcome = finished.outcome ∧
      (receipt.passed = true ↔ finished.outcome = .succeeded ∧ finished.exitCode = some 0) := by
    rw [AscendBuildReceipt.new, dif_pos hsame, dif_pos henvironment]
    refine ⟨_, rfl, rfl, ?_⟩
    simp [AscendBuildReceipt.passed, buildTerminal]
    tauto
  refine ⟨_, by rw [observeBuild, hnew]; rfl, ?_⟩
  change buildStatus receipt = _
  by_cases hsucceeded : finished.outcome = .succeeded ∧ finished.exitCode = some 0
  · rw [buildStatus, if_pos (hpassed.mpr hsucceeded)]
    simp [buildOutcomeStatus, hsucceeded]
  · rw [buildStatus, if_neg (fun hp => hsucceeded (hpassed.mp hp)), houtcome, buildOutcomeStatus]
    cases hcase : finished.outcome with
    | succeeded => simp [show finished.exitCode ≠ some 0 from fun hexit => hsucceeded ⟨hcase, hexit⟩]
    | _ => rfl

theorem reconcileBuild_error {error : AttemptError}
    (h : prepareBuild config policy operationId arguments s = (.ok (.ready bundle assignment), s'))
    (hanswer : adapter.reconcile s'.artifacts enqueued db assignment = .error error) :
    (reconcileBuild config db policy adapter enqueued operationId arguments s).1 =
      .error (.adapter (.attempt error)) := by
  rw [reconcileBuild_ready h, hanswer]
  rfl

theorem reconcileBuild_ok {observation : AscendBuildAttemptObservation}
    (h : prepareBuild config policy operationId arguments s = (.ok (.ready bundle assignment), s'))
    (hanswer : adapter.reconcile s'.artifacts enqueued db assignment = .ok observation) :
    (reconcileBuild config db policy adapter enqueued operationId arguments s).1 =
      (observeBuild bundle assignment observation s').1 := by
  rw [reconcileBuild_ready h, hanswer]
  rfl

def BuildReflects (db : ControlDatabase) (assignment : AssignmentContract) (status : Candidate.ToolOperationStatus) :
    Prop :=
  ∃ finished, resultOf db assignment = .ok (some finished) ∧ status = buildOutcomeStatus finished

omit [Sha256] [GatewayJson] [AttemptJson] in
theorem resultOf_unfinished {workerId : String} (own : OwnAttempt db workerId assignment row)
    (hs : row.state ≠ .finished) : resultOf db assignment = .ok none := finishedObservation_unfinished own.stored hs

theorem build_settles_iff (h : ControlRun log db)
    (hprepared : prepareBuild config policy operationId arguments s = (.ok (.ready bundle assignment), s'))
    (own : OwnAttempt db adapter.workerId assignment row)
    (hconforms : ∀ finished, resultOf db assignment = .ok (some finished) →
      BuildConforms s'.artifacts bundle assignment finished) :
    Settles (row.state.isSettled = true) (BuildReflects db assignment)
        (reconcileBuild config db policy adapter enqueued operationId arguments s).1 ↔
      NotGivenUp row.state ∧ ∀ finished, resultOf db assignment = .ok (some finished) →
        finished.receipt.isSome = true := by
  have hwatched : BuildWatched (adapter.reconcile s'.artifacts enqueued db assignment) s'.artifacts db assignment row :=
    build_watched h own
  by_cases hopen : row.state.isSettled = false
  · have hanswer := reconcileBuild_ok hprepared (hwatched.waiting hopen)
    have hunfinished : row.state ≠ .finished := by
      intro hs
      rw [hs] at hopen
      cases hopen
    constructor
    · intro _
      refine ⟨notGivenUp_of_open hopen, fun finished hresult => ?_⟩
      rw [resultOf_unfinished own hunfinished] at hresult
      cases hresult
    · intro _
      rw [hanswer]
      exact ⟨fun _ => ⟨_, rfl⟩, fun hover => by rw [hopen] at hover; cases hover⟩
  · by_cases hfinished : row.state = .finished
    · obtain ⟨finished, hresult, hanswer⟩ := hwatched.finished hfinished
      have hunique : ∀ other, resultOf db assignment = .ok (some other) → other = finished := by
        intro other hother
        exact Option.some.inj (Except.ok.inj (hother.symm.trans hresult))
      have hover : row.state.isSettled = true := by rw [hfinished]; rfl
      by_cases hreceipt : finished.receipt.isSome = true
      · obtain ⟨projection, hterminal, hcomplete, harchitecture⟩ :=
          terminal_conforms hreceipt (hconforms finished hresult)
        obtain ⟨completed, hcompleted, hstatus⟩ := observeBuild_finished hcomplete harchitecture
          (prepareBuild_assigns hprepared)
        rw [reconcileBuild_ok hprepared (hanswer.trans hterminal), hcompleted]
        constructor
        · intro _
          refine ⟨(notGivenUp_iff_finished hover).mpr hfinished, fun other hother => ?_⟩
          rw [hunique other hother]
          exact hreceipt
        · intro _
          exact ⟨fun hopen => absurd hover hopen, fun _ => ⟨completed, rfl, finished, hresult, hstatus⟩⟩
      · rw [reconcileBuild_error hprepared (hanswer.trans (terminal_lacks_receipt (Bool.eq_false_iff.mpr hreceipt)))]
        exact ⟨fun hsettles => absurd hsettles not_settles, fun hall => absurd (hall.2 finished hresult) hreceipt⟩
    · have herror : ∃ error, adapter.reconcile s'.artifacts enqueued db assignment = .error error := by
        cases hs : row.state with
        | finished => exact absurd hs hfinished
        | rejected => exact ⟨_, hwatched.failed (.inl hs)⟩
        | cancelled => exact ⟨_, hwatched.failed (.inr hs)⟩
        | leaseExpired => exact ⟨_, hwatched.expired hs⟩
        | _ => exact absurd (by rw [hs]; rfl) hopen
      obtain ⟨error, herror⟩ := herror
      rw [reconcileBuild_error hprepared herror]
      have hover : row.state.isSettled = true := Bool.ne_false_iff.mp hopen
      exact ⟨fun hsettles => absurd hsettles not_settles,
        fun hall => absurd ((notGivenUp_iff_finished hover).mp hall.1) hfinished⟩

end build

end AlloyPort.Attempts
