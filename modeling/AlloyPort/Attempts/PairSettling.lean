import AlloyPort.Attempts.Settling
import AlloyPort.Candidate.Provenance

/-! When a pair of correctness attempts settles. Whatever the two of them report but a delivered run, the request
gets an error for it. -/

namespace AlloyPort.Attempts

open Candidate Framing Oracle Database Transaction SqliteControlRepository GatewayJson AttemptJson

section settling

variable [Sha256] [GatewayJson] {log : List ControlEvent} {db : ControlDatabase} {config : CandidateToolConfig}
  {policy : CandidateCorrectnessToolConfig} {arguments : RequestReductionCorrectnessArguments} {s s' : GatewayState}
  {spec : ReductionCorrectnessAttemptSpec} {artifacts : ArtifactStore}

section bundles

variable {role : ReductionRunRole} {bundle : ReductionExecutionBundle} {descriptor : ArtifactDescriptor}

def Derived (file : ReductionExecutionFile) : Prop := ReductionExecutionFile.new file.path file.contents = .ok file

structure AssignedBundle (artifacts : ArtifactStore) (config : CandidateToolConfig)
    (policy : CandidateCorrectnessToolConfig)
    (arguments : RequestReductionCorrectnessArguments) (side : ReductionRunRole) (descriptor : ArtifactDescriptor)
    (bundle : ReductionExecutionBundle) : Prop where
  assembled : ∃ files, (∀ file ∈ files, Derived file) ∧ executionBundle config policy arguments side files = .ok bundle
  described : descriptor = describeBytes (GatewayJson.documentBytes (.executionBundle bundle))
    REDUCTION_EXECUTION_BUNDLE_MEDIA_TYPE
  stored : artifacts.openArtifact descriptor.digest = some (GatewayJson.documentBytes (.executionBundle bundle))

theorem AssignedBundle.side (h : AssignedBundle artifacts config policy arguments role descriptor bundle) :
    bundle.role = role ∧ bundle.experiment = correctnessExperiment config policy arguments := by
  obtain ⟨files, _, hbundle⟩ := h.assembled
  have hnew := Effect.mapError_eq_ok.mp hbundle
  unfold ReductionExecutionBundle.new at hnew
  split at hnew
  · cases hnew
    exact ⟨rfl, rfl⟩
  · cases hnew

omit [GatewayJson] in
theorem executionFiles_derived {sources : Sources} {files : List ReductionExecutionFile}
    (h : executionFiles sources = .ok files) : ∀ file ∈ files, Derived file := by
  induction sources generalizing files with
  | nil =>
    cases h
    intro file hfile
    cases hfile
  | cons source rest ih =>
    obtain ⟨path, bytes⟩ := source
    rw [executionFiles] at h
    cases htext : fromUtf8 bytes with
    | none =>
      rw [htext] at h
      cases h
    | some contents =>
      rw [htext] at h
      obtain ⟨file, hfile, h⟩ := Effect.bind_eq_ok.mp h
      obtain ⟨others, hothers, h⟩ := Effect.bind_eq_ok.mp h
      cases h
      have hnew := Effect.mapError_eq_ok.mp hfile
      have hderived : Derived file := by
        unfold ReductionExecutionFile.new at hnew
        split at hnew
        · cases hnew
        · rename_i hfits
          cases hnew
          exact if_neg hfits
      intro other hother
      rcases List.mem_cons.mp hother with rfl | hrest
      · exact hderived
      · exact ih hothers other hrest

structure PreparedPair (config : CandidateToolConfig) (policy : CandidateCorrectnessToolConfig)
    (arguments : RequestReductionCorrectnessArguments) (spec : ReductionCorrectnessAttemptSpec) (s : GatewayState) :
    Prop where
  experiment : spec.experiment = correctnessExperiment config policy arguments
  reference : ∃ bundle, AssignedBundle s.artifacts config policy arguments .cudaReference spec.referenceBundle bundle
  candidate : ∃ bundle, AssignedBundle s.artifacts config policy arguments .ascendCandidate spec.candidateBundle bundle

theorem ingestExecutionBundle_wp (hcf : Sha256.CollisionFree) : (ingestExecutionBundle bundle).wp s
    (fun descriptor s' => (∀ digest bytes, s.artifacts.openArtifact digest = some bytes →
        s'.artifacts.openArtifact digest = some bytes) ∧
      descriptor = describeBytes (documentBytes (.executionBundle bundle)) REDUCTION_EXECUTION_BUNDLE_MEDIA_TYPE ∧
      s'.artifacts.openArtifact descriptor.digest = some (documentBytes (.executionBundle bundle)))
    fun _ _ => True := by
  simp only [ingestExecutionBundle, ingestBytes, wp_bind, wp_write, wp_pure]
  exact ⟨fun _ _ h => openArtifact_ingest h, trivial, openArtifact_ingested hcf⟩

theorem prepareCorrectness_prepared (hcf : Sha256.CollisionFree)
    (hreference : ∀ file ∈ policy.referenceFiles, Derived file)
    (h : prepareCorrectness config policy arguments s = (.ok spec, s')) :
    PreparedPair config policy arguments spec s' := by
  have hwp : (prepareCorrectness config policy arguments).wp s (PreparedPair config policy arguments)
    fun _ _ => True := by
    simp only [prepareCorrectness, wp_bind]
    refine wp_mono wp_trivial (fun receipt _ _ => ?_) fun _ _ _ => trivial
    refine wp_mono wp_trivial (fun manifest _ _ => ?_) fun _ _ _ => trivial
    simp only [wp_ite, wp_raise, wp_bind]
    split
    · refine wp_mono wp_trivial (fun sources s₁ _ => ?_) fun _ _ _ => trivial
      simp only [wp_attempt]
      refine ⟨fun files hfiles => ⟨fun first hfirst => ⟨fun second hsecond => ?_, fun _ _ => trivial⟩,
        fun _ _ => trivial⟩, fun _ _ => trivial⟩
      refine wp_mono (ingestExecutionBundle_wp hcf) ?_ fun _ _ _ => trivial
      rintro descriptor s₂ ⟨_, hdescribed, hstored⟩
      refine wp_mono (ingestExecutionBundle_wp hcf) ?_ fun _ _ _ => trivial
      rintro descriptor' s₃ ⟨hkept, hdescribed', hstored'⟩
      exact ⟨rfl, ⟨first, ⟨_, hreference, hfirst⟩, hdescribed, hkept _ _ hstored⟩,
        second, ⟨files, executionFiles_derived hfiles, hsecond⟩, hdescribed', hstored'⟩
    · trivial
  exact wp_ok hwp h

omit [GatewayJson] in
theorem correctnessAssignment_ok {target : CorrectnessWorkerTarget} {assignment : AssignmentContract}
    (h : correctnessAssignment spec role descriptor target = .ok assignment) :
    descriptor.sizeBytes ≠ 0 ∧ descriptor.sizeBytes ≤ MAX_EXECUTION_BUNDLE_BYTES := by
  unfold correctnessAssignment at h
  split at h
  · cases h
  · omega

omit [GatewayJson] in
theorem assignments_ok {adapter : WorkerCorrectnessAttemptAdapter}
    {assignments : AssignmentContract × AssignmentContract} (h : adapter.assignments spec = .ok assignments) :
    (spec.referenceBundle.sizeBytes ≠ 0 ∧ spec.referenceBundle.sizeBytes ≤ MAX_EXECUTION_BUNDLE_BYTES) ∧
      spec.candidateBundle.sizeBytes ≠ 0 ∧ spec.candidateBundle.sizeBytes ≤ MAX_EXECUTION_BUNDLE_BYTES := by
  obtain ⟨reference, hreference, h⟩ := Effect.bind_eq_ok.mp h
  obtain ⟨candidate, hcandidate, _⟩ := Effect.bind_eq_ok.mp h
  exact ⟨correctnessAssignment_ok hreference, correctnessAssignment_ok hcandidate⟩

theorem AssignedBundle.holds
    (h : AssignedBundle artifacts config policy arguments role descriptor bundle) (hnonempty : descriptor.sizeBytes ≠ 0)
    (hbounded : descriptor.sizeBytes ≤ MAX_EXECUTION_BUNDLE_BYTES) :
    Holds artifacts descriptor MAX_EXECUTION_BUNDLE_BYTES (documentBytes (.executionBundle bundle)) where
  stored := h.stored
  sized := by rw [h.described]; rfl
  nonempty := hnonempty
  bounded := hbounded

end bundles

section runs

variable [AttemptJson] {assignment : AssignmentContract} {role : ReductionRunRole} {finished : FinishedObservation}
  {bundle : ReductionExecutionBundle} {descriptor : ArtifactDescriptor}

structure Delivered (finished : FinishedObservation) : Prop where
  succeeded : finished.outcome = .succeeded
  exit : finished.exitCode = some 0
  receipt : finished.receipt.isSome = true
  stdout : finished.stdout.isSome = true

open WorkerCorrectnessAttemptAdapter (terminalRun)

omit [GatewayJson] in
theorem terminalRun_error (h : ¬ Delivered finished) :
    ∃ error, terminalRun artifacts spec assignment role descriptor finished = .error error := by
  rw [terminalRun]
  by_cases hfailed : finished.outcome ≠ .succeeded ∨ finished.exitCode ≠ some 0
  · rw [if_pos hfailed]
    split <;> exact ⟨_, rfl⟩
  · rw [if_neg hfailed]
    obtain ⟨hsucceeded, hexit⟩ := not_or.mp hfailed
    cases hreceipt : finished.receipt with
    | none => exact ⟨_, rfl⟩
    | some receipt =>
      cases hstdout : finished.stdout with
      | none => exact ⟨_, rfl⟩
      | some stdout =>
        exact absurd ⟨not_not.mp hsucceeded, not_not.mp hexit, by rw [hreceipt]; rfl, by rw [hstdout]; rfl⟩ h

theorem terminalRun_delivered (h : Delivered finished)
    (hconforms : RunConforms artifacts spec.experiment role bundle assignment finished)
    (hside : bundle.role = role ∧ bundle.experiment = spec.experiment)
    (hholds : Holds artifacts descriptor MAX_EXECUTION_BUNDLE_BYTES (documentBytes (.executionBundle bundle)))
    (hread : parseBundle (documentBytes (.executionBundle bundle)) = .ok bundle) :
    ∃ stdout bytes run, finished.stdout = some stdout ∧
      terminalRun artifacts spec assignment role descriptor finished = .ok stdout ∧
      Holds artifacts stdout MAX_RUN_RECEIPT_BYTES bytes ∧ parseRun bytes = .ok run ∧
      RunBinds spec.experiment role bundle run := by
  obtain ⟨receipt, hreceipt⟩ := Option.isSome_iff_exists.mp h.receipt
  obtain ⟨stdout, hstdout⟩ := Option.isSome_iff_exists.mp h.stdout
  obtain ⟨⟨receiptBytes, projection, schema, hreceiptHolds, hparse, hschema, hmatches, hdigest⟩, bytes, run, hrunHolds,
    hrun, hbinds⟩ := hconforms h.succeeded h.exit receipt stdout hreceipt hstdout
  have hworker := readJsonArtifact_holds hreceiptHolds hparse
  have hinput := readJsonArtifact_holds hholds hread
  have houtput := readJsonArtifact_holds hrunHolds hrun
  have hvalid : validateRunReceipt projection assignment finished stdout = .ok () := by
    rw [validateRunReceipt, hschema]
    exact validateWorkerReceipt_conforms hmatches (decide_eq_true hdigest)
  have hstructured : validateStructuredRun spec role bundle run = .ok () := by
    rw [validateStructuredRun, if_neg]
    push Not
    exact ⟨hside.1, hside.2, hbinds.role, hbinds.experimentDigest, hbinds.candidateId, hbinds.corpusDigest,
      hbinds.implementationDigest⟩
  have hsucceeded : ¬ (finished.outcome ≠ .succeeded ∨ finished.exitCode ≠ some 0) := by
    push Not
    exact ⟨h.succeeded, h.exit⟩
  refine ⟨stdout, bytes, run, hstdout, ?_, hrunHolds, hrun, hbinds⟩
  rw [terminalRun, if_neg hsucceeded]
  simp only [hreceipt, hstdout, hworker, hvalid, hinput, houtput, hstructured, Bind.bind, Except.bind, Pure.pure,
    Except.pure]

end runs

section judged

variable [AttemptJson] {plan : ReductionTolerancePlan} {pair : ReadPair}
  {referenceRun candidateRun : ArtifactDescriptor} {first second firstBundle secondBundle : List UInt8}

structure StoredPair (artifacts : ArtifactStore) (spec : ReductionCorrectnessAttemptSpec)
    (referenceRun candidateRun : ArtifactDescriptor) (first second firstBundle secondBundle : List UInt8) : Prop where
  reference : Holds artifacts referenceRun MAX_RUN_RECEIPT_BYTES first
  candidate : Holds artifacts candidateRun MAX_RUN_RECEIPT_BYTES second
  referenceBundle : Holds artifacts spec.referenceBundle MAX_EXECUTION_BUNDLE_BYTES firstBundle
  candidateBundle : Holds artifacts spec.candidateBundle MAX_EXECUTION_BUNDLE_BYTES secondBundle

omit [AttemptJson] in
theorem observeCorrectness_refused [CorrectnessOracle] {detail : String}
    (h : StoredPair s.artifacts spec referenceRun candidateRun first second firstBundle secondBundle)
    (hjudge : CorrectnessOracle.judge spec.experiment firstBundle secondBundle first second = .error detail) :
    (observeCorrectness spec (.finished referenceRun candidateRun) s).1 = .error (.adapter (.oracle detail)) := by
  rw [observeCorrectness, bind_ok (readDescribed_holds h.reference), bind_ok (readDescribed_holds h.candidate),
    bind_ok (readDescribed_holds h.referenceBundle), bind_ok (readDescribed_holds h.candidateBundle), hjudge]
  rfl

omit [AttemptJson] in
theorem observeCorrectness_judged [CorrectnessOracle] {judgement : CorrectnessJudgement}
    (h : StoredPair s.artifacts spec referenceRun candidateRun first second firstBundle secondBundle)
    (hjudge : CorrectnessOracle.judge spec.experiment firstBundle secondBundle first second = .ok judgement) :
    ∃ completed, (observeCorrectness spec (.finished referenceRun candidateRun) s).1 = .ok (.completed completed) ∧
      completed.status = correctnessStatus judgement.verdict := by
  rw [observeCorrectness, bind_ok (readDescribed_holds h.reference), bind_ok (readDescribed_holds h.candidate),
    bind_ok (readDescribed_holds h.referenceBundle), bind_ok (readDescribed_holds h.candidateBundle), hjudge]
  exact ⟨_, rfl, rfl⟩

variable [OracleJson]

structure Configured (plan : ReductionTolerancePlan) (policy : CandidateCorrectnessToolConfig) : Prop where
  plan : documentDigest (.plan plan) = policy.tolerancePlanDigest
  corpus : documentDigest (.corpus policy.corpus) = corpusDigest policy.corpus
  referenceFiles : ∀ file ∈ policy.referenceFiles, Derived file

omit [AttemptJson] in
theorem judgePair_ok_iff (hconfigured : Configured plan policy)
    (hbinds : pair.Binds (correctnessExperiment config policy arguments))
    (hreference : RunBinds (correctnessExperiment config policy arguments) .cudaReference pair.referenceBundle
      pair.reference)
    (hcandidate : RunBinds (correctnessExperiment config policy arguments) .ascendCandidate pair.candidateBundle
      pair.candidate) :
    (∃ judgement, judgePair plan policy.corpus (correctnessExperiment config policy arguments) pair = .ok judgement) ↔
      SpreadFits plan pair.reference.toReductionRun policy.corpus := by
  have hcorpus : documentDigest (.corpus policy.corpus) = pair.reference.corpusDigest :=
    hconfigured.corpus.trans hreference.corpusDigest.symm
  have hvalid : validateExperimentRuns (correctnessExperiment config policy arguments) pair.reference.toReductionRun
      pair.candidate.toReductionRun plan policy.corpus = .ok () := by
    rw [validateExperimentRuns, if_neg]
    push Not
    exact ⟨hreference.role, hcandidate.role, hcandidate.candidateId, hreference.experimentDigest,
      hcandidate.experimentDigest, hreference.corpusDigest, hcandidate.corpusDigest, hconfigured.plan,
      hconfigured.corpus⟩
  rw [← oracle_judges_iff hreference.role hcorpus hvalid, judgePair, if_pos hbinds]
  constructor
  · rintro ⟨judgement, h⟩
    obtain ⟨calibration, hcalibration, h⟩ := Effect.bind_eq_ok.mp h
    obtain ⟨receipt, hreceipt, _⟩ := Effect.bind_eq_ok.mp h
    exact ⟨calibration, receipt, Effect.mapError_eq_ok.mp hcalibration, Effect.mapError_eq_ok.mp hreceipt⟩
  · rintro ⟨calibration, receipt, hcalibration, hreceipt⟩
    rw [hcalibration]
    change ∃ judgement, ((evaluateReductionCorrectness _ _ _ _ _ calibration).mapError _ >>= fun _ => _) = .ok judgement
    rw [hreceipt]
    exact ⟨_, rfl⟩

end judged

section pair

variable [AttemptJson] [OracleJson] {plan : ReductionTolerancePlan} {adapter : WorkerCorrectnessAttemptAdapter}
  {enqueued : Except EnqueueError Unit × Except EnqueueError Unit}
  {assignments : AssignmentContract × AssignmentContract}
  {reference candidate : AssignmentRow} {first second : FinishedObservation} {row : AssignmentRow}

open WorkerCorrectnessAttemptAdapter (terminalRun)

/-- What JSON promises: a bundle that has been written reads as itself. -/
def ReadsBundles (artifacts : ArtifactStore) (policy : CandidateCorrectnessToolConfig) : Prop :=
  ∀ config arguments role files bundle, (∀ file ∈ files, Derived file) →
    executionBundle config policy arguments role files = .ok bundle →
      GatewayJson.documentBytes (.executionBundle bundle) ∈ artifacts →
        AttemptJson.parseBundle (GatewayJson.documentBytes (.executionBundle bundle)) = .ok bundle

omit [OracleJson] in
theorem AssignedBundle.reads {role : ReductionRunRole} {descriptor : ArtifactDescriptor}
    {bundle : ReductionExecutionBundle}
    (h : AssignedBundle artifacts config policy arguments role descriptor bundle)
    (hreads : ReadsBundles artifacts policy) : parseBundle (documentBytes (.executionBundle bundle)) = .ok bundle := by
  obtain ⟨files, hderived, hbundle⟩ := h.assembled
  exact hreads _ _ _ files bundle hderived hbundle (openArtifact_mem h.stored)

structure PairConforms (artifacts : ArtifactStore) (db : ControlDatabase) (config : CandidateToolConfig)
    (policy : CandidateCorrectnessToolConfig) (arguments : RequestReductionCorrectnessArguments)
    (spec : ReductionCorrectnessAttemptSpec) (assignments : AssignmentContract × AssignmentContract) : Prop where
  reference : ∀ finished bundle, resultOf db assignments.1 = .ok (some finished) →
    AssignedBundle artifacts config policy arguments .cudaReference spec.referenceBundle bundle →
      RunConforms artifacts spec.experiment .cudaReference bundle assignments.1 finished
  candidate : ∀ finished bundle, resultOf db assignments.2 = .ok (some finished) →
    AssignedBundle artifacts config policy arguments .ascendCandidate spec.candidateBundle bundle →
      RunConforms artifacts spec.experiment .ascendCandidate bundle assignments.2 finished

def runOf (artifacts : ArtifactStore) (finished : FinishedObservation) : Option ReductionRunReceipt := do
  let stdout ← finished.stdout
  let bytes ← artifacts.openArtifact stdout.digest
  (AttemptJson.parseRun bytes).toOption

def failureStatus (finished : FinishedObservation) : Candidate.ToolOperationStatus :=
  match finished.outcome with
  | .candidateFailed => .candidateFailed
  | .timedOut => .timedOut
  | .cancelled => .cancelled
  | .succeeded | .infraError | .integrityViolation => .infraFailed

/-- The status that two results amount to: a verdict on both runs, or the failure of one. -/
structure PairReflects (plan : ReductionTolerancePlan) (corpus : ReductionCorpus) (artifacts : ArtifactStore)
    (experiment : ReductionCorrectnessExperiment) (first second : FinishedObservation)
    (status : Candidate.ToolOperationStatus) : Prop where
  judged : Delivered first → Delivered second → ∃ pair judgement, runOf artifacts first = some pair.reference ∧
    runOf artifacts second = some pair.candidate ∧ judgePair plan corpus experiment pair = .ok judgement ∧
      status = correctnessStatus judgement.verdict
  failed : ¬ (Delivered first ∧ Delivered second) → ∃ finished, (finished = first ∨ finished = second) ∧
    ¬ Delivered finished ∧ status = failureStatus finished

omit [Sha256] [GatewayJson] [AttemptJson] [OracleJson] in
theorem rejectTerminalState_ok_iff : rejectTerminalState row.record = .ok () ↔ NotGivenUp row.state := by
  have hstate : row.record.state = row.state := rfl
  simp only [rejectTerminalState, hstate]
  cases row.state <;> simp [NotGivenUp]

omit [GatewayJson] [OracleJson] in
theorem pairResult_undelivered (h : ¬ (Delivered first ∧ Delivered second)) :
    ∃ error, pairResult artifacts spec assignments first second = .error error := by
  unfold pairResult
  by_cases hfirst : Delivered first
  · have hsecond : ¬ Delivered second := fun hsecond => h ⟨hfirst, hsecond⟩
    obtain ⟨error, herror⟩ : ∃ error, terminalRun artifacts spec assignments.2 .ascendCandidate spec.candidateBundle
        second = .error error := terminalRun_error hsecond
    cases terminalRun artifacts spec assignments.1 .cudaReference spec.referenceBundle first with
    | error other => exact ⟨other, rfl⟩
    | ok run =>
      rw [herror]
      exact ⟨error, rfl⟩
  · obtain ⟨error, herror⟩ : ∃ error, terminalRun artifacts spec assignments.1 .cudaReference spec.referenceBundle
        first = .error error := terminalRun_error hfirst
    rw [herror]
    exact ⟨error, rfl⟩

theorem reconcileCorrectness_prepared (h : prepareCorrectness config policy arguments s = (.ok spec, s')) :
    reconcileCorrectness config db plan policy adapter enqueued arguments s =
      (do
        let observation ← attempt ((adapter.dispatchOrObserve s'.artifacts enqueued db spec).mapError fun error =>
          .adapter (.attempt error))
        @observeCorrectness _ _ (reductionOracle plan policy.corpus) spec observation :
          GatewayAction Candidate.ToolGatewayOutcome) s' := by
  rw [reconcileCorrectness, bind_ok h]
  rfl

theorem reconcileCorrectness_error {error : AttemptError}
    (h : prepareCorrectness config policy arguments s = (.ok spec, s'))
    (hanswer : adapter.dispatchOrObserve s'.artifacts enqueued db spec = .error error) :
    (reconcileCorrectness config db plan policy adapter enqueued arguments s).1 =
      .error (.adapter (.attempt error)) := by
  rw [reconcileCorrectness_prepared h, hanswer]
  rfl

theorem reconcileCorrectness_ok {observation : ReductionCorrectnessAttemptObservation}
    (h : prepareCorrectness config policy arguments s = (.ok spec, s'))
    (hanswer : adapter.dispatchOrObserve s'.artifacts enqueued db spec = .ok observation) :
    (reconcileCorrectness config db plan policy adapter enqueued arguments s).1 =
      (@observeCorrectness _ _ (reductionOracle plan policy.corpus) spec observation s').1 := by
  rw [reconcileCorrectness_prepared h, hanswer]
  rfl

omit [GatewayJson] [OracleJson] in
theorem dispatchOrObserve_refused (h : enqueued ≠ (.ok (), .ok ())) :
    ∃ error, adapter.dispatchOrObserve artifacts enqueued db spec = .error error := by
  unfold WorkerCorrectnessAttemptAdapter.dispatchOrObserve
  cases adapter.assignments spec with
  | error error => exact ⟨error, rfl⟩
  | ok assignments =>
    obtain ⟨enqueued, enqueued'⟩ := enqueued
    cases enqueued with
    | error error => exact ⟨_, rfl⟩
    | ok u =>
      cases enqueued' with
      | error error => exact ⟨_, rfl⟩
      | ok u' => exact absurd rfl h

omit [Sha256] [GatewayJson] [OracleJson] in
theorem readPair_ok {pair : ReadPair} {firstBundle secondBundle first second : List UInt8}
    (hreference : parseRun first = .ok pair.reference) (hcandidate : parseRun second = .ok pair.candidate)
    (hfirst : parseBundle firstBundle = .ok pair.referenceBundle)
    (hsecond : parseBundle secondBundle = .ok pair.candidateBundle) :
    readPair firstBundle secondBundle first second = .ok pair := by
  simp only [readPair, hreference, hcandidate, hfirst, hsecond]
  rfl

omit [Sha256] [GatewayJson] [OracleJson] in
theorem runOf_read [Sha256] {stdout : ArtifactDescriptor} {bytes : List UInt8} {run : ReductionRunReceipt}
    (hstdout : first.stdout = some stdout) (hholds : Holds artifacts stdout MAX_RUN_RECEIPT_BYTES bytes)
    (hparse : parseRun bytes = .ok run) : runOf artifacts first = some run := by
  simp only [runOf, hstdout, Option.bind_eq_bind, Option.bind_some, hholds.stored, hparse]
  rfl

def RunFits (plan : ReductionTolerancePlan) (corpus : ReductionCorpus) (artifacts : ArtifactStore)
    (finished : FinishedObservation) : Prop :=
  ∀ run, runOf artifacts finished = some run → SpreadFits plan run.toReductionRun corpus

theorem delivered_observed (hconfigured : Configured plan policy) (hreads : ReadsBundles s.artifacts policy)
    (hprepared : PreparedPair config policy arguments spec s) (hnamed : adapter.assignments spec = .ok assignments)
    (hfirst : Delivered first) (hsecond : Delivered second)
    (hreference : ∀ bundle, AssignedBundle s.artifacts config policy arguments .cudaReference spec.referenceBundle
      bundle → RunConforms s.artifacts spec.experiment .cudaReference bundle assignments.1 first)
    (hcandidate : ∀ bundle, AssignedBundle s.artifacts config policy arguments .ascendCandidate spec.candidateBundle
      bundle → RunConforms s.artifacts spec.experiment .ascendCandidate bundle assignments.2 second) :
    ∃ observation, pairResult s.artifacts spec assignments first second = .ok observation ∧
      (RunFits plan policy.corpus s.artifacts first → ∃ completed,
        (@observeCorrectness _ _ (reductionOracle plan policy.corpus) spec observation s).1 =
          .ok (.completed completed) ∧
          PairReflects plan policy.corpus s.artifacts spec.experiment first second completed.status) ∧
      (¬ RunFits plan policy.corpus s.artifacts first → ∃ error,
        (@observeCorrectness _ _ (reductionOracle plan policy.corpus) spec observation s).1 = .error error) := by
  obtain ⟨hreferenceSize, hcandidateSize⟩ := assignments_ok hnamed
  obtain ⟨referenceBundle, hassigned⟩ := hprepared.reference
  obtain ⟨candidateBundle, hassigned'⟩ := hprepared.candidate
  have hholds := hassigned.holds hreferenceSize.1 hreferenceSize.2
  have hholds' := hassigned'.holds hcandidateSize.1 hcandidateSize.2
  have hside := hprepared.experiment ▸ hassigned.side
  have hside' := hprepared.experiment ▸ hassigned'.side
  have hread := hassigned.reads hreads
  have hread' := hassigned'.reads hreads
  obtain ⟨stdout, bytes, run, hstdout, hterminal, hrunHolds, hrun, hbinds⟩ :=
    terminalRun_delivered hfirst (hreference _ hassigned) hside hholds hread
  obtain ⟨stdout', bytes', run', hstdout', hterminal', hrunHolds', hrun', hbinds'⟩ :=
    terminalRun_delivered hsecond (hcandidate _ hassigned') hside' hholds' hread'
  have hobserved : pairResult s.artifacts spec assignments first second = .ok (.finished stdout stdout') := by
    rw [pairResult, hterminal]
    change (terminalRun _ _ _ _ _ second >>= fun _ => _) = _
    rw [hterminal']
    rfl
  have hstored : StoredPair s.artifacts spec stdout stdout' bytes bytes' _ _ := ⟨hrunHolds, hrunHolds', hholds, hholds'⟩
  have hpair : readPair (documentBytes (.executionBundle referenceBundle))
      (documentBytes (.executionBundle candidateBundle)) bytes bytes' =
        .ok ⟨run, run', referenceBundle, candidateBundle⟩ := readPair_ok hrun hrun' hread hread'
  have hrunOf := runOf_read hstdout hrunHolds hrun
  have hrunOf' := runOf_read hstdout' hrunHolds' hrun'
  have hpairBinds : ReadPair.Binds ⟨run, run', referenceBundle, candidateBundle⟩ spec.experiment :=
    ⟨hside.2, hside'.2, hside.1, hside'.1, hbinds.implementationDigest, hbinds'.implementationDigest⟩
  have hjudged : (∃ judgement, judgePair plan policy.corpus spec.experiment ⟨run, run', referenceBundle,
      candidateBundle⟩ = .ok judgement) ↔ SpreadFits plan run.toReductionRun policy.corpus := by
    rw [hprepared.experiment] at hpairBinds hbinds hbinds' ⊢
    exact judgePair_ok_iff hconfigured hpairBinds hbinds hbinds'
  have hfits : RunFits plan policy.corpus s.artifacts first ↔ SpreadFits plan run.toReductionRun policy.corpus := by
    unfold RunFits
    rw [hrunOf]
    simp
  refine ⟨.finished stdout stdout', hobserved, ?_⟩
  rw [hfits, ← hjudged]
  let _ : CorrectnessOracle := reductionOracle plan policy.corpus
  have hjudge : CorrectnessOracle.judge spec.experiment (documentBytes (.executionBundle referenceBundle))
      (documentBytes (.executionBundle candidateBundle)) bytes bytes' =
        judgePair plan policy.corpus spec.experiment ⟨run, run', referenceBundle, candidateBundle⟩ := by
    change (readPair _ _ _ _ >>= _) = _
    rw [hpair]
    rfl
  constructor
  · rintro ⟨judgement, hok⟩
    obtain ⟨completed, hcompleted, hstatus⟩ := observeCorrectness_judged hstored (hjudge.trans hok)
    exact ⟨completed, hcompleted, fun _ _ => ⟨_, judgement, hrunOf, hrunOf', hok, hstatus⟩,
      fun hfailed => absurd ⟨hfirst, hsecond⟩ hfailed⟩
  · intro hnone
    cases herror : judgePair plan policy.corpus spec.experiment ⟨run, run', referenceBundle, candidateBundle⟩ with
    | ok judgement => exact absurd ⟨judgement, herror⟩ hnone
    | error detail => exact ⟨_, observeCorrectness_refused hstored (hjudge.trans herror)⟩

omit [Sha256] [GatewayJson] [AttemptJson] [OracleJson] in
theorem settled_of_finished (h : row.state = .finished) : row.state.isSettled = true := by
  rw [h]
  rfl

omit [GatewayJson] [OracleJson] in
theorem given_up_failed {answer : Except AttemptError ReductionCorrectnessAttemptObservation}
    (h : PairWatched answer artifacts db spec assignments reference candidate)
    (hup : ¬ (NotGivenUp reference.state ∧ NotGivenUp candidate.state)) : ∃ error, answer = .error error := by
  cases hreference : rejectTerminalState reference.record with
  | error error => exact ⟨error, h.referenceFailed error hreference⟩
  | ok u =>
    cases hcandidate : rejectTerminalState candidate.record with
    | error error => exact ⟨error, h.candidateFailed error hreference hcandidate⟩
    | ok u' =>
      exact absurd ⟨rejectTerminalState_ok_iff.mp hreference, rejectTerminalState_ok_iff.mp hcandidate⟩ hup

def PairSettles (db : ControlDatabase) (plan : ReductionTolerancePlan) (corpus : ReductionCorpus)
    (artifacts : ArtifactStore) (assignments : AssignmentContract × AssignmentContract) : Prop :=
  ∀ first second, resultOf db assignments.1 = .ok (some first) → resultOf db assignments.2 = .ok (some second) →
    Delivered first ∧ Delivered second ∧ RunFits plan corpus artifacts first

def PairReflected (db : ControlDatabase) (plan : ReductionTolerancePlan) (corpus : ReductionCorpus)
    (artifacts : ArtifactStore)
    (experiment : ReductionCorrectnessExperiment) (assignments : AssignmentContract × AssignmentContract)
    (status : Candidate.ToolOperationStatus) : Prop :=
  ∃ first second, resultOf db assignments.1 = .ok (some first) ∧ resultOf db assignments.2 = .ok (some second) ∧
    PairReflects plan corpus artifacts experiment first second status

theorem finished_pair_settles (hconfigured : Configured plan policy) (hreads : ReadsBundles s.artifacts policy)
    (hprepared : PreparedPair config policy arguments spec s) (hnamed : adapter.assignments spec = .ok assignments)
    (hconforms : PairConforms s.artifacts db config policy arguments spec assignments)
    (hfirst : resultOf db assignments.1 = .ok (some first)) (hsecond : resultOf db assignments.2 = .ok (some second)) :
    (PairSettles db plan policy.corpus s.artifacts assignments → ∃ observation completed,
        pairResult s.artifacts spec assignments first second = .ok observation ∧
        (@observeCorrectness _ _ (reductionOracle plan policy.corpus) spec observation s).1 =
          .ok (.completed completed) ∧
        PairReflected db plan policy.corpus s.artifacts spec.experiment assignments completed.status) ∧
      (¬ PairSettles db plan policy.corpus s.artifacts assignments →
        (∃ error, pairResult s.artifacts spec assignments first second = .error error) ∨
        ∃ observation error, pairResult s.artifacts spec assignments first second = .ok observation ∧
          (@observeCorrectness _ _ (reductionOracle plan policy.corpus) spec observation s).1 = .error error) := by
  have hdelivered : Delivered first → Delivered second → _ := fun hfirstDelivered hsecondDelivered =>
    delivered_observed hconfigured hreads hprepared hnamed hfirstDelivered hsecondDelivered
      (fun bundle => hconforms.reference first bundle hfirst) fun bundle => hconforms.candidate second bundle hsecond
  constructor
  · intro hsettles
    obtain ⟨hfirstDelivered, hsecondDelivered, hfits⟩ := hsettles first second hfirst hsecond
    obtain ⟨observation, hresult, hjudged, _⟩ := hdelivered hfirstDelivered hsecondDelivered
    obtain ⟨completed, hcompleted, hreflects⟩ := hjudged hfits
    exact ⟨observation, completed, hresult, hcompleted, first, second, hfirst, hsecond, hreflects⟩
  · intro hnot
    by_cases hboth : Delivered first ∧ Delivered second
    · obtain ⟨observation, hresult, _, hrefused⟩ := hdelivered hboth.1 hboth.2
      have hunfit : ¬ RunFits plan policy.corpus s.artifacts first := by
        intro hfits
        refine hnot fun other other' hother hother' => ?_
        cases hother.symm.trans hfirst
        cases hother'.symm.trans hsecond
        exact ⟨hboth.1, hboth.2, hfits⟩
      obtain ⟨error, herror⟩ := hrefused hunfit
      exact .inr ⟨observation, error, hresult, herror⟩
    · exact .inl (pairResult_undelivered hboth)

theorem pair_settles_iff (h : ControlRun log db) (hcf : Sha256.CollisionFree) (hconfigured : Configured plan policy)
    (hreads : ReadsBundles s'.artifacts policy)
    (hprepared : prepareCorrectness config policy arguments s = (.ok spec, s'))
    (own : OwnPair adapter db spec assignments reference candidate)
    (hconforms : PairConforms s'.artifacts db config policy arguments spec assignments) :
    Settles (reference.state.isSettled = true ∧ candidate.state.isSettled = true)
        (PairReflected db plan policy.corpus s'.artifacts spec.experiment assignments)
        (reconcileCorrectness config db plan policy adapter enqueued arguments s).1 ↔
      enqueued = (.ok (), .ok ()) ∧ NotGivenUp reference.state ∧ NotGivenUp candidate.state ∧
        PairSettles db plan policy.corpus s'.artifacts assignments := by
  by_cases henqueued : enqueued = (.ok (), .ok ())
  · subst henqueued
    have hpair := prepareCorrectness_prepared hcf hconfigured.referenceFiles hprepared
    have hwatched : PairWatched (adapter.dispatchOrObserve s'.artifacts (.ok (), .ok ()) db spec) s'.artifacts db spec
      assignments reference candidate := pair_watched h own
    by_cases hup : NotGivenUp reference.state ∧ NotGivenUp candidate.state
    · by_cases hboth : reference.state = .finished ∧ candidate.state = .finished
      · obtain ⟨first, second, hfirst, hsecond, hanswer⟩ := hwatched.finished hboth.1 hboth.2
        obtain ⟨hsettles, hfails⟩ := finished_pair_settles hconfigured hreads hpair own.named hconforms hfirst hsecond
        have hover : reference.state.isSettled = true ∧ candidate.state.isSettled = true :=
          ⟨settled_of_finished hboth.1, settled_of_finished hboth.2⟩
        by_cases hall : PairSettles db plan policy.corpus s'.artifacts assignments
        · obtain ⟨observation, completed, hresult, hcompleted, hreflects⟩ := hsettles hall
          rw [reconcileCorrectness_ok hprepared (hanswer.trans hresult), hcompleted]
          exact ⟨fun _ => ⟨rfl, hup.1, hup.2, hall⟩,
            fun _ => ⟨fun hopen => absurd hover hopen, fun _ => ⟨completed, rfl, hreflects⟩⟩⟩
        · have herror : ∃ error, (reconcileCorrectness config db plan policy adapter (.ok (), .ok ()) arguments s).1 =
              .error error := by
            rcases hfails hall with ⟨error, hresult⟩ | ⟨observation, error, hresult, herror⟩
            · exact ⟨_, reconcileCorrectness_error hprepared (hanswer.trans hresult)⟩
            · exact ⟨error, (reconcileCorrectness_ok hprepared (hanswer.trans hresult)).trans herror⟩
          obtain ⟨error, herror⟩ := herror
          rw [herror]
          exact ⟨fun hsettles => absurd hsettles not_settles, fun hcondition => absurd hcondition.2.2.2 hall⟩
      · have hanswer := hwatched.waiting (rejectTerminalState_ok_iff.mpr hup.1)
          (rejectTerminalState_ok_iff.mpr hup.2) hboth
        have hopen : ¬ (reference.state.isSettled = true ∧ candidate.state.isSettled = true) := by
          intro hover
          exact hboth ⟨(notGivenUp_iff_finished hover.1).mp hup.1, (notGivenUp_iff_finished hover.2).mp hup.2⟩
        have hunfinished : PairSettles db plan policy.corpus s'.artifacts assignments := by
          intro first second hfirst hsecond
          by_cases hr : reference.state = .finished
          · rw [resultOf_unfinished own.candidate fun hc => hboth ⟨hr, hc⟩] at hsecond
            cases hsecond
          · rw [resultOf_unfinished own.reference hr] at hfirst
            cases hfirst
        rw [reconcileCorrectness_ok hprepared hanswer]
        exact ⟨fun _ => ⟨rfl, hup.1, hup.2, hunfinished⟩, fun _ => ⟨fun _ => ⟨_, rfl⟩, fun hover => absurd hover hopen⟩⟩
    · obtain ⟨error, herror⟩ := given_up_failed hwatched hup
      rw [reconcileCorrectness_error hprepared herror]
      exact ⟨fun hsettles => absurd hsettles not_settles, fun hall => absurd ⟨hall.2.1, hall.2.2.1⟩ hup⟩
  · obtain ⟨error, herror⟩ : ∃ error, adapter.dispatchOrObserve s'.artifacts enqueued db spec = .error error :=
      dispatchOrObserve_refused henqueued
    rw [reconcileCorrectness_error hprepared herror]
    exact ⟨fun hsettles => absurd hsettles not_settles, fun hall => absurd hall.1 henqueued⟩

end pair

/-- In every state of every run: a build request settles exactly if its attempt is not given up and ends with a receipt,
a correctness request exactly if neither attempt is given up and both deliver a run whose spread can be widened. -/
theorem gate_requests_settle_iff [AttemptJson] [OracleJson] (h : ControlRun log db) :
    (∀ config policy adapter enqueued operationId arguments (s s' : GatewayState) bundle assignment row,
      prepareBuild config policy operationId arguments s = (.ok (.ready bundle assignment), s') →
      OwnAttempt db adapter.workerId assignment row →
      (∀ finished, resultOf db assignment = .ok (some finished) →
        BuildConforms s'.artifacts bundle assignment finished) →
      (Settles (row.state.isSettled = true) (BuildReflects db assignment)
          (reconcileBuild config db policy adapter enqueued operationId arguments s).1 ↔
        NotGivenUp row.state ∧ ∀ finished, resultOf db assignment = .ok (some finished) →
          finished.receipt.isSome = true)) ∧
    ∀ config plan policy (adapter : WorkerCorrectnessAttemptAdapter) enqueued arguments
        (s s' : GatewayState) spec assignments reference candidate,
      Sha256.CollisionFree → Configured plan policy → ReadsBundles s'.artifacts policy →
      prepareCorrectness config policy arguments s = (.ok spec, s') →
      OwnPair adapter db spec assignments reference candidate →
      PairConforms s'.artifacts db config policy arguments spec assignments →
      (Settles (reference.state.isSettled = true ∧ candidate.state.isSettled = true)
          (PairReflected db plan policy.corpus s'.artifacts spec.experiment assignments)
          (reconcileCorrectness config db plan policy adapter enqueued arguments s).1 ↔
        enqueued = (.ok (), .ok ()) ∧ NotGivenUp reference.state ∧ NotGivenUp candidate.state ∧
          PairSettles db plan policy.corpus s'.artifacts assignments) :=
  ⟨fun _ _ _ _ _ _ _ _ _ _ _ hprepared own hconforms => build_settles_iff h hprepared own hconforms,
    fun _ _ _ _ _ _ _ _ _ _ _ _ hcf hconfigured hreads hprepared own hconforms =>
      pair_settles_iff h hcf hconfigured hreads hprepared own hconforms⟩

end settling

section sample

def pairImage : ArtifactDescriptor := ⟨⟨List.replicate 32 9⟩, 1, "image"⟩

def pairDigest : Sha256Digest := ⟨List.replicate 32 10⟩

def pairTexts : List (List UInt8) := sumTexts ++ [[5],
  utf8 "alloyport-reduction-correctness-experiment-v1" ++ 0 :: utf8 "task" ++ utf8 "candidate-02" ++ [1, 4, 6, 5, 6, 8],
  utf8 "alloyport-correctness-assignment-v1" ++ 0 :: 9 :: utf8 "cuda-reference" ++ pairDigest.bytes ++
    pairImage.digest.bytes,
  utf8 "alloyport-correctness-assignment-v1" ++ 0 :: 9 :: utf8 "ascend-candidate" ++ [255, 1, 11] ++
    pairImage.digest.bytes,
  [20], [21]]

@[reducible] def pairSha256 : Sha256 :=
  ⟨fun bytes => if bytes = [10] then pairDigest else (tableSha256 pairTexts).digestBytes bytes⟩

attribute [local instance] pairSha256

def pairPolicy : CandidateCorrectnessToolConfig where
  tolerancePlanDigest := ⟨[8]⟩
  callable := ⟨"sum", "reference", "candidate"⟩
  corpus := sampleCorpus
  referenceFiles := [⟨⟨"input/k.cu", Eq.refl true⟩, Sha256.digestBytes (utf8 "k"), 1, "k"⟩]

def pairArguments : RequestReductionCorrectnessArguments := ⟨sumReceipt.candidateId, ⟨[4]⟩, ⟨[6]⟩, ⟨[5]⟩⟩

def pairCandidateFiles : List ReductionExecutionFile :=
  (executionFiles ((honestBundle.files.insertionSort byPath).map fun file =>
    (file.path, utf8 file.contents))).toOption.getD []

@[reducible] def pairJsonOf (reference candidate : Option ReductionExecutionBundle) : GatewayJson where
  toCandidateJson := sumCandidateJson sumManifest
  documentBytes
    | .buildReceipt _ => [2]
    | .executionBundle bundle => if some bundle = reference then [10] else if some bundle = candidate then [11]
      else [12]
    | _ => [3]
  parseBuildReceipt bytes := if bytes = [2] then some sumReceipt else none
  buildReceiptError _ := "invalid JSON"

def pairBundle (role : ReductionRunRole) (files : List ReductionExecutionFile) : Option ReductionExecutionBundle :=
  (@executionBundle _ (pairJsonOf none none) sumConfig pairPolicy pairArguments role files).toOption

def pairReferenceBundle : Option ReductionExecutionBundle := pairBundle .cudaReference pairPolicy.referenceFiles

def pairCandidateBundle : Option ReductionExecutionBundle := pairBundle .ascendCandidate pairCandidateFiles

@[reducible] def pairJson : GatewayJson := pairJsonOf pairReferenceBundle pairCandidateBundle

attribute [local instance] pairJson sumOracle

def pairState : GatewayState :=
  (honestCalls ++ [Candidate.GatewayEvent.stored [20], Candidate.GatewayEvent.stored [21]]).foldl (fun s event =>
    (serve { sumGateway with correctness := some pairPolicy } event s).2) ⟨[], []⟩

def pairSpec : ReductionCorrectnessAttemptSpec where
  experiment := correctnessExperiment sumConfig pairPolicy pairArguments
  referenceBundle := ⟨pairDigest, 1, REDUCTION_EXECUTION_BUNDLE_MEDIA_TYPE⟩
  candidateBundle := ⟨⟨[255, 1, 11]⟩, 1, REDUCTION_EXECUTION_BUNDLE_MEDIA_TYPE⟩

def pairTarget (workerId : String) : CorrectnessWorkerTarget := ⟨workerId, pairImage, ⟨1, 1, 1, 1, 1, 0, .disabled⟩, 1⟩

def pairAdapter : WorkerCorrectnessAttemptAdapter := ⟨pairTarget "cuda", pairTarget "ascend", by decide⟩

def pairExecution (kind : ExecutionKind) (bundle : ArtifactDescriptor) : ExecutionContract :=
  ⟨kind, [RUNNER_ARGV], ".", [], 1, bundle, pairImage, some ⟨1, 1, 1, 1, 1, 0, .disabled⟩⟩

def pairReferenceContract : AssignmentContract where
  assignmentId := ⟨"assignment-cuda-reference-0a", by decide⟩
  attemptId := ⟨"attempt-cuda-reference-0a", by decide⟩
  attemptNumber := 1
  idempotencyKey := "reduction-correctness:cuda-reference:sha256:09"
  taskId := sumConfig.taskId
  candidateId := sumReceipt.candidateId
  execution := pairExecution .cudaCorrectness pairSpec.referenceBundle
  requiredFeatures := [CUDA_REDUCTION_CORRECTNESS_FEATURE]

def pairCandidateContract : AssignmentContract where
  assignmentId := ⟨"assignment-ascend-candidate-0b", by decide⟩
  attemptId := ⟨"attempt-ascend-candidate-0b", by decide⟩
  attemptNumber := 1
  idempotencyKey := "reduction-correctness:ascend-candidate:sha256:09"
  taskId := sumConfig.taskId
  candidateId := sumReceipt.candidateId
  execution := pairExecution .ascendCorrectness pairSpec.candidateBundle
  requiredFeatures := [ASCEND_REDUCTION_CORRECTNESS_FEATURE]

def pairAssignments : AssignmentContract × AssignmentContract := (pairReferenceContract, pairCandidateContract)

def pairFirst : FinishedObservation :=
  ⟨.succeeded, some 0, 5, some ⟨⟨[12]⟩, 1, "receipt"⟩, some ⟨⟨[13]⟩, 1, "run"⟩, none, "measured"⟩

def pairSecond : FinishedObservation := ⟨.candidateFailed, some 1, 5, none, none, none, "crashed"⟩

def endsAttempt (workerId : String) (contract : AssignmentContract) (finished : FinishedObservation) :
    List ControlOperation :=
  let attemptId := contract.attemptId.text
  [.storeAssignment workerId contract 10, .markAssignmentDispatchable attemptId workerId 11,
    .registerWorker ⟨workerId, ""⟩ ⟨workerId, workerId, "boot", 12⟩,
    .prepareAssignmentDelivery ⟨⟨workerId, 2, attemptId, workerId, .assignment, some attemptId⟩, attemptId, 1, 0, 20,
      30⟩,
    .observeAttempt ⟨contract.assignmentId, contract.attemptId, workerId, 25, .accepted false⟩,
    .observeAttempt ⟨contract.assignmentId, contract.attemptId, workerId, 26, .finished finished⟩]

@[irreducible] def pairControl : ControlDatabase :=
  executeAll (endsAttempt "cuda" pairReferenceContract pairFirst ++
    endsAttempt "ascend" pairCandidateContract pairSecond) .empty

def pairRun : ReductionRunReceipt where
  experimentDigest := pairSpec.experiment.experimentDigest
  role := .cudaReference
  candidateId := none
  implementationDigest := (pairReferenceBundle.map ReductionExecutionBundle.implementationDigest).getD ⟨[]⟩
  corpusDigest := pairSpec.experiment.corpusDigest
  environmentDigest := ⟨[16]⟩
  implementationInvoked := true
  synchronized := true
  observations := [⟨"sum", 1, 1, ⟨[17]⟩, 1, none, none⟩]
  nonempty := by decide
  candidate := by decide
  checked := by decide

def pairReceipt : RunReceiptProjection where
  schemaVersion := 3
  assignmentId := pairReferenceContract.assignmentId.text
  attemptId := pairReferenceContract.attemptId.text
  taskId := pairReferenceContract.taskId.text
  candidateId := pairReferenceContract.candidateId.text
  bundleDigest := toString pairDigest
  imageDigest := toString pairImage.digest
  outcome := AttemptOutcome.asStrName pairFirst.outcome
  exitCode := pairFirst.exitCode
  elapsedMs := pairFirst.elapsedMs
  stdoutDigest := ⟨[13]⟩

@[reducible] def pairAttemptJson : AttemptJson where
  parseBuildReceipt _ := .error "no receipt"
  parseRunReceipt bytes := if bytes = [20] then .ok pairReceipt else .error "no receipt"
  parseBundle bytes :=
    if bytes = [10] then pairReferenceBundle.elim (.error "no bundle") .ok
    else pairCandidateBundle.elim (.error "no bundle") .ok
  parseRun bytes := if bytes = [21] then .ok pairRun else .error "no run"
  missing _ := "not stored"

@[reducible] def pairOracleJson : OracleJson where
  documentBytes
    | .plan _ => [5]
    | .corpus _ => [3]
    | _ => [6]

attribute [local instance] pairAttemptJson pairOracleJson

@[irreducible] def pairPreparation : Except Candidate.ToolGatewayError ReductionCorrectnessAttemptSpec × GatewayState :=
  prepareCorrectness sumConfig pairPolicy pairArguments pairState

def pairPrepared : PLift (pairPreparation.1.toOption = some pairSpec ∧
    [[12], [13], pairDigest.bytes].map (fun digest => pairPreparation.2.artifacts.openArtifact ⟨digest⟩) =
      [some [20], some [21], some [10]] ∧ [12] ∉ pairPreparation.2.artifacts) where
  down := by
    unfold pairPreparation
    decide +kernel

theorem pairAssignments_ok : pairAdapter.assignments pairSpec = .ok pairAssignments := by decide +kernel

theorem pairControl_run : ∃ log, ControlRun log pairControl := by
  unfold pairControl
  exact ControlRun.empty.executeAll _

theorem pairControl_rows : [pairReferenceContract, pairCandidateContract].map (fun contract =>
    (pairControl.assignments.lookup contract.attemptId.text).map fun row => (row.workerId, row.contract, row.state)) =
      [some ("cuda", pairReferenceContract, .finished), some ("ascend", pairCandidateContract, .finished)] := by
  unfold pairControl
  decide

theorem pairControl_results : resultOf pairControl pairReferenceContract = .ok (some pairFirst) ∧
    resultOf pairControl pairCandidateContract = .ok (some pairSecond) := by
  unfold pairControl
  decide

theorem pair_prepared : prepareCorrectness sumConfig pairPolicy pairArguments pairState =
    (.ok pairSpec, pairPreparation.2) := by
  have hok := pairPrepared.down.1
  unfold pairPreparation at hok ⊢
  cases hprepare : prepareCorrectness sumConfig pairPolicy pairArguments pairState with
  | mk answer s' =>
    rw [hprepare] at hok
    cases answer with
    | error error => cases hok
    | ok spec => rw [Option.some.inj hok]

theorem pairSha256_collisionFree : Sha256.CollisionFree := by
  have hother : ∀ bytes, (tableSha256 pairTexts).digestBytes bytes ≠ pairDigest := by
    intro bytes heq
    have hbytes : tableBytes pairTexts bytes = pairDigest.bytes := congrArg Sha256Digest.bytes heq
    unfold tableBytes at hbytes
    split at hbytes
    · cases congrArg List.length hbytes
    · cases hbytes
  intro a b h
  by_cases ha : a = [10]
  · by_cases hb : b = [10]
    · rw [ha, hb]
    · simp only [Sha256.digestBytes, if_pos ha, if_neg hb] at h
      exact absurd h.symm (hother b)
  · by_cases hb : b = [10]
    · simp only [Sha256.digestBytes, if_neg ha, if_pos hb] at h
      exact absurd h (hother a)
    · simp only [Sha256.digestBytes, if_neg ha, if_neg hb] at h
      exact tableSha256_collisionFree (by decide) h

theorem pair_configured : Configured samplePlan pairPolicy where
  plan := by decide +kernel
  corpus := rfl
  referenceFiles := by
    intro file hfile
    obtain rfl := List.mem_singleton.mp hfile
    unfold Derived
    decide

theorem pair_reads : ReadsBundles pairPreparation.2.artifacts pairPolicy := by
  intro config arguments role files bundle _ _ hmem
  by_cases hreference : some bundle = pairReferenceBundle
  · have hbytes : documentBytes (.executionBundle bundle) = [10] := if_pos hreference
    have hparse : parseBundle [10] = pairReferenceBundle.elim (.error "no bundle") .ok := if_pos rfl
    rw [hbytes, hparse, ← hreference]
    rfl
  · by_cases hcandidate : some bundle = pairCandidateBundle
    · have hbytes : documentBytes (.executionBundle bundle) = [11] :=
        (if_neg hreference).trans (if_pos hcandidate)
      have hparse : parseBundle [11] = pairCandidateBundle.elim (.error "no bundle") .ok := if_neg (by decide)
      rw [hbytes, hparse, ← hcandidate]
      rfl
    · have hbytes : documentBytes (.executionBundle bundle) = [12] :=
        (if_neg hreference).trans (if_neg hcandidate)
      rw [hbytes] at hmem
      exact absurd hmem pairPrepared.down.2.2

theorem pair_attempts : ∃ reference candidate,
    OwnPair pairAdapter pairControl pairSpec pairAssignments reference candidate ∧
    reference.state = .finished ∧ candidate.state = .finished := by
  have hrows := pairControl_rows
  simp only [List.map_cons, List.map_nil, List.cons.injEq, and_true] at hrows
  obtain ⟨reference, hreference, hrow⟩ := Option.map_eq_some_iff.mp hrows.1
  obtain ⟨candidate, hcandidate, hrow'⟩ := Option.map_eq_some_iff.mp hrows.2
  simp only [Prod.mk.injEq] at hrow hrow'
  exact ⟨reference, candidate, ⟨pairAssignments_ok, ⟨hreference, hrow.1, hrow.2.1⟩, ⟨hcandidate, hrow'.1, hrow'.2.1⟩⟩,
    hrow.2.2, hrow'.2.2⟩

theorem pairReceipt_conforms : ReceiptConforms pairReceipt.toWorkerReceipt 3 pairReferenceContract pairFirst where
  fields := by decide
  bundle := Sha256Digest.fromStr_toString rfl
  image := Sha256Digest.fromStr_toString rfl

theorem pair_conforms :
    PairConforms pairPreparation.2.artifacts pairControl sumConfig pairPolicy pairArguments pairSpec
    pairAssignments where
  reference := by
    intro finished bundle hresult hassigned
    obtain rfl : pairFirst = finished := Option.some.inj (Except.ok.inj (pairControl_results.1.symm.trans hresult))
    intro _ _ receipt stdout hreceipt hstdout
    cases hreceipt
    cases hstdout
    obtain ⟨_, hstored, _⟩ := pairPrepared.down
    simp only [List.map_cons, List.map_nil, List.cons.injEq, and_true] at hstored
    have hbundle : some bundle = pairReferenceBundle := by
      have hdigest : Sha256.digestBytes (documentBytes (.executionBundle bundle)) = Sha256.digestBytes [10] :=
        (congrArg ArtifactDescriptor.digest hassigned.described).symm
      have hbytes := pairSha256_collisionFree hdigest
      by_contra hother
      by_cases hcandidate : some bundle = pairCandidateBundle
      · cases hbytes.symm.trans ((if_neg hother).trans (if_pos hcandidate))
      · cases hbytes.symm.trans ((if_neg hother).trans (if_neg hcandidate))
    refine ⟨⟨[20], pairReceipt, 3, ⟨hstored.1, rfl, by decide, by decide⟩, rfl, rfl, pairReceipt_conforms, rfl⟩,
      [21], pairRun, ⟨hstored.2.1, rfl, by decide, by decide⟩, rfl, rfl, rfl, rfl, rfl, ?_⟩
    change (pairReferenceBundle.map ReductionExecutionBundle.implementationDigest).getD ⟨[]⟩ = _
    rw [← hbundle]
    rfl
  candidate := by
    intro finished bundle hresult _ hsucceeded
    obtain rfl : pairSecond = finished := Option.some.inj (Except.ok.inj (pairControl_results.2.symm.trans hresult))
    cases hsucceeded

theorem pairSecond_undelivered : ¬ Delivered pairSecond := by
  intro hdelivered
  cases hdelivered.succeeded

def buildPolicy : CandidateBuildToolConfig := ⟨imageDescriptor, 1, ⟨1, 1, 1, 1, 1, 0, .disabled⟩⟩

@[irreducible] def buildPreparation : Except Candidate.ToolGatewayError BuildPreparation × GatewayState :=
  prepareBuild sumConfig buildPolicy ⟨"build", Eq.refl false⟩ ⟨⟨[4]⟩, ⟨[6]⟩⟩ pairState

def assigned : BuildPreparation → Option AssignmentContract
  | .ready _ assignment => some assignment
  | .candidateRejected _ => none

theorem build_prepared : ∃ bundle, buildPreparation = (.ok (.ready bundle sumAssignment), buildPreparation.2) := by
  have hassigned : buildPreparation.1.toOption.bind assigned = some sumAssignment := by
    unfold buildPreparation
    decide +kernel
  revert hassigned
  rcases buildPreparation with ⟨_ | _ | _, s'⟩
  · exact fun h => by cases h
  · exact fun h => ⟨_, by rw [Option.some.inj h]⟩
  · exact fun h => by cases h

def buildControl : ControlDatabase := executeAll [.storeAssignment "ascend" sumAssignment 10] .empty

theorem buildControl_row : (buildControl.assignments.lookup sumAssignment.attemptId.text).map (fun row =>
    (row.workerId, row.contract, row.state)) = some ("ascend", sumAssignment, .preparing) := by
  decide +kernel

theorem gate_requests_settle_iff_sample : (∃ row, OwnAttempt buildControl "ascend" sumAssignment row ∧
      Settles (row.state.isSettled = true) (BuildReflects buildControl sumAssignment)
        (reconcileBuild sumConfig buildControl buildPolicy ⟨"ascend"⟩ (.ok (), buildControl) ⟨"build", Eq.refl false⟩
          ⟨⟨[4]⟩, ⟨[6]⟩⟩ pairState).1) ∧
    ∃ reference candidate, OwnPair pairAdapter pairControl pairSpec pairAssignments reference candidate ∧
      ¬ Settles (reference.state.isSettled = true ∧ candidate.state.isSettled = true)
        (PairReflected pairControl samplePlan pairPolicy.corpus pairPreparation.2.artifacts pairSpec.experiment
          pairAssignments)
        (reconcileCorrectness sumConfig pairControl samplePlan pairPolicy pairAdapter (.ok (), .ok ()) pairArguments
          pairState).1 := by
  constructor
  · obtain ⟨log, hrun⟩ : ∃ log, ControlRun log buildControl := ControlRun.empty.executeAll _
    obtain ⟨bundle, hprepared⟩ := build_prepared
    unfold buildPreparation at hprepared
    obtain ⟨row, hstored, hrow⟩ := Option.map_eq_some_iff.mp buildControl_row
    simp only [Prod.mk.injEq] at hrow
    have hown : OwnAttempt buildControl "ascend" sumAssignment row := ⟨hstored, hrow.1, hrow.2.1⟩
    have hopen : row.state.isSettled = false := by
      rw [hrow.2.2]
      rfl
    have hunfinished : ∀ finished, resultOf buildControl sumAssignment ≠ .ok (some finished) := by
      intro finished hresult
      rw [resultOf_unfinished hown (by rw [hrow.2.2]; decide)] at hresult
      cases hresult
    have hiff := (gate_requests_settle_iff hrun).1 sumConfig buildPolicy ⟨"ascend"⟩ (.ok (),
      buildControl) _ _ pairState _
      bundle sumAssignment row hprepared hown fun finished h => absurd h (hunfinished finished)
    exact ⟨row, hown, hiff.mpr ⟨notGivenUp_of_open hopen, fun finished h => absurd h (hunfinished finished)⟩⟩
  · obtain ⟨log, hrun⟩ := pairControl_run
    obtain ⟨reference, candidate, hown, _⟩ := pair_attempts
    refine ⟨reference, candidate, hown, fun hsettles => ?_⟩
    have hiff := (gate_requests_settle_iff hrun).2 sumConfig samplePlan pairPolicy pairAdapter (.ok (),
      .ok ()) pairArguments
      pairState pairPreparation.2 pairSpec pairAssignments reference candidate pairSha256_collisionFree pair_configured
      pair_reads pair_prepared hown pair_conforms
    obtain ⟨_, _, _, hall⟩ := hiff.mp hsettles
    exact pairSecond_undelivered (hall _ _ pairControl_results.1 pairControl_results.2).2.1

/-- The reference has run, the candidate has crashed, and the request has neither an outcome nor a wait: every look at
it is an error. -/
theorem crashed_candidate_never_settles : (∃ log, ControlRun log pairControl) ∧
    (∃ reference candidate, OwnPair pairAdapter pairControl pairSpec pairAssignments reference candidate ∧
      reference.state = .finished ∧ candidate.state = .finished) ∧
    PairConforms pairPreparation.2.artifacts pairControl sumConfig pairPolicy pairArguments pairSpec pairAssignments ∧
    resultOf pairControl pairReferenceContract = .ok (some pairFirst) ∧ Delivered pairFirst ∧
    resultOf pairControl pairCandidateContract = .ok (some pairSecond) ∧ pairSecond.outcome = .candidateFailed ∧
    prepareCorrectness sumConfig pairPolicy pairArguments pairState = (.ok pairSpec, pairPreparation.2) ∧
    ∀ s s', prepareCorrectness sumConfig pairPolicy pairArguments s = (.ok pairSpec, s') → ∀ enqueued, ∃ error,
      (reconcileCorrectness sumConfig pairControl samplePlan pairPolicy pairAdapter enqueued pairArguments s).1 =
        .error (.adapter (.attempt error)) := by
  obtain ⟨log, hrun⟩ := pairControl_run
  obtain ⟨reference, candidate, hown, hreference, hcandidate⟩ := pair_attempts
  refine ⟨⟨log, hrun⟩, ⟨reference, candidate, hown, hreference, hcandidate⟩, pair_conforms, pairControl_results.1,
    ⟨rfl, rfl, rfl, rfl⟩, pairControl_results.2, rfl, pair_prepared, ?_⟩
  intro s s' hprepared enqueued
  by_cases henqueued : enqueued = (.ok (), .ok ())
  · subst henqueued
    have hwatched : PairWatched (pairAdapter.dispatchOrObserve s'.artifacts (.ok (), .ok ()) pairControl pairSpec)
      s'.artifacts pairControl pairSpec pairAssignments reference candidate := pair_watched hrun hown
    obtain ⟨first, second, _, hsecond, hanswer⟩ := hwatched.finished hreference hcandidate
    obtain rfl : pairSecond = second := Option.some.inj (Except.ok.inj (pairControl_results.2.symm.trans hsecond))
    obtain ⟨error, herror⟩ : ∃ error, pairResult s'.artifacts pairSpec pairAssignments first pairSecond =
      .error error :=
      pairResult_undelivered fun hboth => pairSecond_undelivered hboth.2
    exact ⟨error, reconcileCorrectness_error hprepared (hanswer.trans herror)⟩
  · obtain ⟨error, herror⟩ : ∃ error, pairAdapter.dispatchOrObserve s'.artifacts enqueued pairControl pairSpec =
        .error error := dispatchOrObserve_refused henqueued
    exact ⟨error, reconcileCorrectness_error hprepared herror⟩

end sample

end AlloyPort.Attempts
