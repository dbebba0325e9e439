import AlloyPort.Attempts.Adapter
import AlloyPort.Control.Preparation

/-! What a requester sees of its attempts. It looks at the attempts that it has named, and at no attempt that the
control plane puts in their place. -/

namespace AlloyPort.Attempts

open Candidate Oracle Database Transaction SqliteControlRepository Relation WorkerBuildAttemptAdapter

variable {log : List ControlEvent} {db db' : ControlDatabase} {e : ControlEvent} {attemptId : String}
  {row : AssignmentRow}

section results

def AttemptRows.Finished (rows : AttemptRows) : Prop := ∃ row, rows.1 = some row ∧ row.state = .finished

variable {rows rows' : AttemptRows} {finished : FinishedObservation} {cause : Cause} {nowMs : Nat}

theorem finishes_change
    (h : AttemptChange nowMs cause attemptId rows rows') (hf : AttemptRows.Finished rows') :
    AttemptRows.Finished rows ∨ cause.observes attemptId .finished := by
  obtain ⟨row', hrow', hstate⟩ := hf
  cases h with
  | stored hs _ _ =>
    cases hrow'
    rw [hs] at hstate
    cases hstate
  | @moved row _ _ hs _ =>
    cases hrow'
    rw [hstate] at hs
    generalize row.state = before at hs
    cases hs with
    | observed ho _ => exact .inr ho
  | @expired row _ at_ =>
    obtain ⟨before, hbefore, rfl⟩ := Option.map_eq_some_iff.mp hrow'
    refine .inl ⟨before, hbefore, ?_⟩
    by_cases hleased : before.state.isLeased = true
    · rw [expiredRow, if_pos hleased] at hstate
      cases hstate
    · rwa [expiredRow, if_neg hleased] at hstate
  | renewed _ _ _ _ => exact .inl ⟨row', hrow', hstate⟩
  | @delivered row _ _ _ _ _ hs' _ _ _ =>
    cases hrow'
    rw [hs'] at hstate
    by_cases hd : row.state = .dispatchable
    · rw [if_pos hd] at hstate
      cases hstate
    · rw [if_neg hd] at hstate
      exact .inl ⟨row, rfl, hstate⟩

theorem finishes_changes
    (h : AttemptChanges nowMs cause attemptId rows rows') (hf : AttemptRows.Finished rows') :
    AttemptRows.Finished rows ∨ cause.observes attemptId .finished := by
  induction h with
  | refl => exact .inl hf
  | tail _ hc ih =>
    rcases finishes_change hc hf with hbefore | ho
    · exact ih hbefore
    · exact .inr ho

theorem finishes_recorded (h : ControlStep db e db') (hf : AttemptRows.Finished (db'.attempt attemptId))
    (hbefore : ¬ AttemptRows.Finished (db.attempt attemptId)) : ∃ finished, RecordsFinished e attemptId finished := by
  have hobserves := (finishes_changes (h.changes attemptId) hf).resolve_left hbefore
  cases h with
  | failed operation error _ => exact absurd hf hbefore
  | interrupted => cases hobserves
  | ran operation =>
    cases operation with
    | observeAttempt observation =>
      obtain ⟨rfl, htarget⟩ := hobserves
      rcases run_cases observeAttempt_recorded with ⟨disposition, hreply, _⟩ | ⟨error, _, hd⟩
      · obtain ⟨finished, hfinished⟩ : ∃ finished, observation.observation = .finished finished := by
          cases hobservation : observation.observation with
          | finished finished => exact ⟨finished, rfl⟩
          | _ => rw [hobservation] at htarget; cases htarget
        refine ⟨finished, ?_⟩
        rw [ControlOperation.execute, hreply]
        exact ⟨_, List.mem_singleton_self _, rfl, by rw [ObservationRow.finished?, hfinished]⟩
      · rw [ControlOperation.execute, hd] at hf
        exact absurd hf hbefore
    | _ => cases hobserves

theorem lastFinished_recorded (h : ControlStep db e db')
    (hr : RecordsFinished e attemptId finished) : ∃ last, lastFinished db' attemptId = some last := by
  obtain ⟨row, hrow, hid, hfinished⟩ := hr
  have hmem : row ∈ (db'.observations.filter fun row => row.attemptId = attemptId).reverse := by
    rw [List.mem_reverse, List.mem_filter, h.observations]
    exact ⟨List.mem_append_right _ hrow, decide_eq_true hid⟩
  have hsome : (lastFinished db' attemptId).isSome = true := by
    rw [lastFinished, List.findSome?_isSome_iff]
    exact ⟨row, hmem, by rw [hfinished]; rfl⟩
  exact Option.isSome_iff_exists.mp hsome

theorem lastFinished_kept (h : ControlStep db e db')
    (hlast : lastFinished db attemptId = some finished) : ∃ last, lastFinished db' attemptId = some last := by
  by_cases hr : ∃ found, RecordsFinished e attemptId found
  · obtain ⟨found, hfound⟩ := hr
    exact lastFinished_recorded h hfound
  · exact ⟨finished, (lastFinished_step h hlast).mpr fun found hfound => absurd ⟨found, hfound⟩ hr⟩

theorem finished_has_result (h : ControlRun log db) (hf : AttemptRows.Finished (db.attempt attemptId)) :
    ∃ finished, lastFinished db attemptId = some finished := by
  induction h with
  | empty =>
    obtain ⟨row, hrow, _⟩ := hf
    cases hrow
  | @step log db e db' _ hs ih =>
    by_cases hbefore : AttemptRows.Finished (db.attempt attemptId)
    · obtain ⟨finished, hlast⟩ := ih hbefore
      exact lastFinished_kept hs hlast
    · obtain ⟨finished, hr⟩ := finishes_recorded hs hf hbefore
      exact lastFinished_recorded hs hr

end results

section reading

open WorkerBuildAttemptAdapter

def storedResult (db : ControlDatabase) (attemptId : String) (row : AssignmentRow) : Option FinishedObservation :=
  if row.state = .finished then lastFinished db attemptId else none

theorem finishedObservation_unfinished (hrow : db.assignments.lookup attemptId = some row)
    (hs : row.state ≠ .finished) : ((finishedObservation attemptId).run db).2 = .ok none := by
  simp [finishedObservation, Transaction.run, runKeeping, Bind.bind, Transaction.read, Pure.pure, hrow, hs]

theorem assignment_read : ((assignment attemptId).run db).2 =
    .ok ((db.assignments.lookup attemptId).map AssignmentRow.record) := rfl

theorem stored_eq (h : ControlRun log db) (hrow : db.assignments.lookup attemptId = some row) :
    stored attemptId db = .ok (some row.record, storedResult db attemptId row) := by
  by_cases hs : row.state = .finished
  · obtain ⟨finished, hlast⟩ := finished_has_result h ⟨row, hrow, hs⟩
    have hread := (finishedObservation_of_finished hrow hs).mpr hlast
    rw [stored, assignment_read, hread, hrow, storedResult, if_pos hs, hlast]
    rfl
  · rw [stored, assignment_read, finishedObservation_unfinished hrow hs, hrow, storedResult, if_neg hs]
    rfl

end reading

structure OwnAttempt (db : ControlDatabase) (workerId : String) (assignment : AssignmentContract)
    (row : AssignmentRow) : Prop where
  stored : db.assignments.lookup assignment.attemptId.text = some row
  worker : row.workerId = workerId
  contract : row.contract = assignment

section own

variable {workerId replacement : String} {assignment : AssignmentContract}

theorem OwnAttempt.steps (h : ControlRun log db) (own : OwnAttempt db workerId assignment row)
    (hs : ControlSteps db db') : (∃ log', ControlRun log' db') ∧ ∃ row', OwnAttempt db' workerId assignment row' ∧
      (row.state.isSettled = true → row'.state = row.state) := by
  induction hs with
  | refl => exact ⟨⟨log, h⟩, row, own, fun _ => rfl⟩
  | tail _ hstep ih =>
    obtain ⟨e, hstep⟩ := hstep
    obtain ⟨⟨log', hrun⟩, before, hown, hsettled⟩ := ih
    obtain ⟨after, hafter, hsame, hstays⟩ := hrun.row_stays hstep hown.stored
    refine ⟨⟨_, hrun.step hstep⟩, after, ?_, fun hstate => ?_⟩
    · exact ⟨hafter, hsame.workerId.trans hown.worker, hsame.contract.trans hown.contract⟩
    · have hbefore := hsettled hstate
      exact (hstays (by rw [hbefore, hstate])).trans hbefore

theorem OwnAttempt.expired (h : ControlRun log db) (own : OwnAttempt db workerId assignment row)
    (hr : ReplacedBy db assignment.attemptId.text replacement) : row.state = .leaseExpired := by
  obtain ⟨found, hfound, _⟩ := hr
  obtain ⟨source, _, hreplaced⟩ := h.reassigned.ends _ _ hfound
  have hsource := hreplaced.stored
  rw [own.stored] at hsource
  cases hsource
  exact hreplaced.expired

theorem lookup_own (h : ControlRun log db)
    (own : OwnAttempt db workerId assignment row) : WorkerCorrectnessAttemptAdapter.lookup db assignment workerId =
      .ok (some (row.record, storedResult db assignment.attemptId.text row)) := by
  have hsame : ¬ (row.record.workerId ≠ workerId ∨ row.record.contract ≠ assignment) := by
    rintro (hworker | hcontract)
    · exact hworker own.worker
    · exact hcontract own.contract
  rw [WorkerCorrectnessAttemptAdapter.lookup, stored_eq h own.stored]
  change (if row.record.workerId ≠ workerId ∨ row.record.contract ≠ assignment then _ else _) = _
  rw [if_neg hsame]
  rfl

theorem rejectTerminalState_finished (hs : row.state = .finished) : rejectTerminalState row.record = .ok () := by
  have hstate : row.record.state = row.state := rfl
  simp only [rejectTerminalState, hstate, hs]

end own

section build

variable [Sha256] [AttemptJson] {adapter : WorkerBuildAttemptAdapter} {artifacts : ArtifactStore}
  {assignment : AssignmentContract} {enqueued : Except EnqueueError Unit × ControlDatabase}

/-- The answer follows the attempt that was named: its result, its failure, or nothing yet. -/
structure BuildWatched (answer : Except AttemptError AscendBuildAttemptObservation) (artifacts : ArtifactStore)
    (db : ControlDatabase) (assignment : AssignmentContract) (row : AssignmentRow) : Prop where
  finished : row.state = .finished → ∃ finished,
    ((finishedObservation assignment.attemptId.text).run db).2 = .ok (some finished) ∧
      answer = WorkerBuildAttemptAdapter.terminal artifacts assignment finished
  failed : row.state = .rejected ∨ row.state = .cancelled →
    answer = .error (.rejected s!"build attempt became {row.state.debug}")
  expired : row.state = .leaseExpired → answer = .error (.unavailable "build attempt lease expired")
  waiting : row.state.isSettled = false → answer = .ok (.pending (WorkerBuildAttemptAdapter.pendingDigest row.record))

theorem reconcile_own (h : ControlRun log db) (own : OwnAttempt db adapter.workerId assignment row) :
    adapter.reconcile artifacts enqueued db assignment = observeStored artifacts assignment
      row.record (storedResult db assignment.attemptId.text row) := by
  have hvalid : adapter.validateRecord row.record assignment = .ok () := by
    rw [validateRecord, if_neg]
    rintro (hworker | hcontract)
    · exact hworker own.worker
    · exact hcontract own.contract
  have hlookup : adapter.lookup db assignment =
    .ok (some (row.record, storedResult db assignment.attemptId.text row)) := by
    rw [lookup, stored_eq h own.stored]
    change (adapter.validateRecord row.record assignment >>= fun _ => _) = _
    rw [hvalid]
    rfl
  rw [reconcile, hlookup]
  rfl

theorem build_watched (h : ControlRun log db) (own : OwnAttempt db adapter.workerId assignment row) :
    BuildWatched (adapter.reconcile artifacts enqueued db assignment) artifacts db assignment row := by
  rw [reconcile_own h own]
  have hstate : row.record.state = row.state := rfl
  constructor
  · intro hfinished
    obtain ⟨finished, hlast⟩ := finished_has_result h ⟨row, own.stored, hfinished⟩
    refine ⟨finished, (finishedObservation_of_finished own.stored hfinished).mpr hlast, ?_⟩
    simp only [storedResult, if_true, hlast, observeStored, hstate, hfinished]
  · rintro (hfailed | hfailed) <;> simp only [observeStored, hstate, hfailed]
  · intro hexpired
    simp only [observeStored, hstate, hexpired]
  · intro hopen
    simp only [observeStored, hstate]
    generalize row.state = state at hopen
    cases state <;> first | rfl | cases hopen

theorem build_replacement_unseen {replacement : String} (h : ControlRun log db)
    (own : OwnAttempt db adapter.workerId assignment row) (hr : ReplacedBy db assignment.attemptId.text replacement)
    (hs : ControlSteps db db') :
    adapter.reconcile artifacts enqueued db' assignment = .error (.unavailable "build attempt lease expired") := by
  have hexpired := own.expired h hr
  obtain ⟨⟨log', hrun⟩, row', hown, hsettled⟩ := own.steps h hs
  exact (build_watched hrun hown).expired ((hsettled (by rw [hexpired]; rfl)).trans hexpired)

end build

section pair

variable [Sha256] [AttemptJson] {adapter : WorkerCorrectnessAttemptAdapter} {artifacts : ArtifactStore}
  {spec : ReductionCorrectnessAttemptSpec} {reference candidate : AssignmentRow}
  {assignments : AssignmentContract × AssignmentContract}

open WorkerCorrectnessAttemptAdapter (terminalRun observeRecords)

structure OwnPair (adapter : WorkerCorrectnessAttemptAdapter) (db : ControlDatabase)
    (spec : ReductionCorrectnessAttemptSpec) (assignments : AssignmentContract × AssignmentContract)
    (reference candidate : AssignmentRow) : Prop where
  named : adapter.assignments spec = .ok assignments
  reference : OwnAttempt db adapter.cuda.workerId assignments.1 reference
  candidate : OwnAttempt db adapter.ascend.workerId assignments.2 candidate

def pairResult (artifacts : ArtifactStore) (spec : ReductionCorrectnessAttemptSpec)
    (assignments : AssignmentContract × AssignmentContract) (reference candidate : FinishedObservation) :
    Except AttemptError ReductionCorrectnessAttemptObservation := do
  let referenceRun ← terminalRun artifacts spec assignments.1 .cudaReference spec.referenceBundle reference
  let candidateRun ← terminalRun artifacts spec assignments.2 .ascendCandidate spec.candidateBundle candidate
  return .finished referenceRun candidateRun

/-- The answer follows the two attempts that were named, the reference before the candidate. -/
structure PairWatched (answer : Except AttemptError ReductionCorrectnessAttemptObservation) (artifacts : ArtifactStore)
    (db : ControlDatabase) (spec : ReductionCorrectnessAttemptSpec)
    (assignments : AssignmentContract × AssignmentContract) (reference candidate : AssignmentRow) : Prop where
  finished : reference.state = .finished → candidate.state = .finished → ∃ referenceFinished candidateFinished,
    ((finishedObservation assignments.1.attemptId.text).run db).2 = .ok (some referenceFinished) ∧
      ((finishedObservation assignments.2.attemptId.text).run db).2 = .ok (some candidateFinished) ∧
        answer = pairResult artifacts spec assignments referenceFinished candidateFinished
  referenceFailed : ∀ error, rejectTerminalState reference.record = .error error → answer = .error error
  candidateFailed : ∀ error, rejectTerminalState reference.record = .ok () →
    rejectTerminalState candidate.record = .error error → answer = .error error
  waiting : rejectTerminalState reference.record = .ok () → rejectTerminalState candidate.record = .ok () →
    ¬ (reference.state = .finished ∧ candidate.state = .finished) →
      answer = .ok (.pending (pairPendingDigest reference.record candidate.record))

theorem pair_own (h : ControlRun log db) (own : OwnPair adapter db spec assignments reference candidate) :
    adapter.dispatchOrObserve artifacts (.ok (), .ok ()) db spec = observeRecords artifacts spec assignments
      (reference.record, storedResult db assignments.1.attemptId.text reference)
      (candidate.record, storedResult db assignments.2.attemptId.text candidate) := by
  rw [WorkerCorrectnessAttemptAdapter.dispatchOrObserve, own.named]
  change adapter.observePair artifacts db spec assignments = _
  rw [WorkerCorrectnessAttemptAdapter.observePair, lookup_own h own.reference]
  change (WorkerCorrectnessAttemptAdapter.lookup db assignments.2 adapter.ascend.workerId >>= fun _ => _) = _
  rw [lookup_own h own.candidate]
  rfl

variable {first second : AssignmentRecord × Option FinishedObservation}

theorem observeRecords_rejected {error : AttemptError}
    (hr : rejectTerminalState first.1 = .error error) :
    observeRecords artifacts spec assignments first second = .error error := by
  rw [observeRecords, hr]
  rfl

theorem observeRecords_accepted
    (hr : rejectTerminalState first.1 = .ok ()) (hc : rejectTerminalState second.1 = .ok ()) :
    observeRecords artifacts spec assignments first second = match first.2, second.2 with
      | some referenceFinished, some candidateFinished =>
        if first.1.state = .finished ∧ second.1.state = .finished then
          pairResult artifacts spec assignments referenceFinished candidateFinished
        else .ok (.pending (pairPendingDigest first.1 second.1))
      | _, _ => .ok (.pending (pairPendingDigest first.1 second.1)) := by
  rw [observeRecords, hr, hc]
  rfl

theorem pair_watched (h : ControlRun log db) (own : OwnPair adapter db spec assignments reference candidate) :
    PairWatched (adapter.dispatchOrObserve artifacts (.ok (), .ok ()) db spec) artifacts db spec assignments
      reference candidate := by
  rw [pair_own h own]
  constructor
  · intro hr hc
    obtain ⟨first, hfirst⟩ := finished_has_result h ⟨reference, own.reference.stored, hr⟩
    obtain ⟨second, hsecond⟩ := finished_has_result h ⟨candidate, own.candidate.stored, hc⟩
    refine ⟨first, second, (finishedObservation_of_finished own.reference.stored hr).mpr hfirst,
      (finishedObservation_of_finished own.candidate.stored hc).mpr hsecond, ?_⟩
    rw [observeRecords_accepted (rejectTerminalState_finished hr) (rejectTerminalState_finished hc)]
    simp only [storedResult, hr, hc, if_true, hfirst, hsecond]
    exact if_pos ⟨hr, hc⟩
  · exact fun error hr => observeRecords_rejected hr
  · intro error hr hc
    rw [observeRecords, hr, hc]
    rfl
  · intro hr hc hopen
    rw [observeRecords_accepted hr hc]
    split
    · exact if_neg hopen
    · rfl

theorem pair_replacement_unseen {replacement : String} (h : ControlRun log db)
    (own : OwnPair adapter db spec assignments reference candidate) (hs : ControlSteps db db')
    (hr : ReplacedBy db assignments.1.attemptId.text replacement ∨
      ReplacedBy db assignments.2.attemptId.text replacement) :
    ∃ error, adapter.dispatchOrObserve artifacts (.ok (), .ok ()) db' spec = .error error := by
  obtain ⟨⟨log', hrun⟩, reference', hreference, hsettled⟩ := own.reference.steps h hs
  obtain ⟨_, candidate', hcandidate, hsettled'⟩ := own.candidate.steps h hs
  have hown : OwnPair adapter db' spec assignments reference' candidate' := ⟨own.named, hreference, hcandidate⟩
  have hwatched : PairWatched (adapter.dispatchOrObserve artifacts (.ok (), .ok ()) db' spec) artifacts db' spec
      assignments reference' candidate' := pair_watched hrun hown
  have hexpired : ∀ {row : AssignmentRow}, row.state = .leaseExpired →
      rejectTerminalState row.record = .error (.unavailable "correctness attempt lease expired") := by
    intro row hrow
    have hstate : row.record.state = row.state := rfl
    simp only [rejectTerminalState, hstate, hrow]
  rcases hr with hr | hr
  · have hstate := own.reference.expired h hr
    have hstays := (hsettled (by rw [hstate]; rfl)).trans hstate
    exact ⟨_, hwatched.referenceFailed _ (hexpired hstays)⟩
  · have hstate := own.candidate.expired h hr
    have hstays := (hsettled' (by rw [hstate]; rfl)).trans hstate
    cases hreject : rejectTerminalState reference'.record with
    | error error => exact ⟨error, hwatched.referenceFailed error hreject⟩
    | ok u => exact ⟨_, hwatched.candidateFailed _ hreject (hexpired hstays)⟩

end pair

/-- In every state of every run, a requester answers from the attempts that it has named: with their results once they
have finished, with a failure while one of them is rejected, cancelled or expired, and so for ever after it is
replaced. -/
theorem requester_watches_own_attempts [Sha256] [AttemptJson] (h : ControlRun log db) :
    (∀ (adapter : WorkerBuildAttemptAdapter) (artifacts : ArtifactStore) (assignment : AssignmentContract)
      (row : AssignmentRow), OwnAttempt db adapter.workerId assignment row →
      (∀ enqueued, BuildWatched (adapter.reconcile artifacts enqueued db assignment) artifacts db assignment row) ∧
      ∀ replacement, ReplacedBy db assignment.attemptId.text replacement → ∀ db', ControlSteps db db' → ∀ enqueued,
        adapter.reconcile artifacts enqueued db' assignment = .error (.unavailable "build attempt lease expired")) ∧
    ∀ (adapter : WorkerCorrectnessAttemptAdapter) (artifacts : ArtifactStore) (spec : ReductionCorrectnessAttemptSpec)
      (assignments : AssignmentContract × AssignmentContract) (reference candidate : AssignmentRow),
      OwnPair adapter db spec assignments reference candidate →
      PairWatched (adapter.dispatchOrObserve artifacts (.ok (), .ok ()) db spec) artifacts db spec assignments
        reference candidate ∧
      ∀ replacement, ReplacedBy db assignments.1.attemptId.text replacement ∨
          ReplacedBy db assignments.2.attemptId.text replacement → ∀ db', ControlSteps db db' →
        ∃ error, adapter.dispatchOrObserve artifacts (.ok (), .ok ()) db' spec = .error error :=
  ⟨fun _ _ _ _ own => ⟨fun _ => build_watched h own, fun _ hr _ hs _ => build_replacement_unseen h own hr hs⟩,
    fun _ _ _ _ _ _ own => ⟨pair_watched h own, fun _ hr _ hs => pair_replacement_unseen h own hs hr⟩⟩

section sample

attribute [local instance] transparentSha256

@[reducible] def sampleAttemptJson : AttemptJson where
  parseBuildReceipt _ := .error "no receipt"
  parseRunReceipt _ := .error "no receipt"
  parseBundle _ := .error "no bundle"
  parseRun _ := .error "no run"
  missing _ := "not stored"

attribute [local instance] sampleAttemptJson

def sampleBuildContract : AssignmentContract :=
  { sampleContract with execution := { sampleContract.execution with executorKind := .ascendBuild } }

def sampleReassignedBuild : List ControlOperation :=
  [.storeAssignment "worker" sampleBuildContract 10, .markAssignmentDispatchable "attempt" "worker" 11,
    .registerWorker ⟨"worker", ""⟩ ⟨"connection-1", "worker", "boot", 12⟩,
    .prepareAssignmentDelivery ⟨⟨"connection-1", 2, "assignment:attempt", "worker", .assignment, some "attempt"⟩,
      "lease-1", 1, 0, 20, 30⟩,
    .expireLeases 80, .reassignExpired "attempt" "worker" "attempt-2" 90,
      .markAssignmentDispatchable "attempt-2" "worker" 91,
    .prepareAssignmentDelivery ⟨⟨"connection-1", 3, "assignment:attempt-2", "worker", .assignment, some "attempt-2"⟩,
      "lease-2", 1, 0, 92, 30⟩,
    .observeAttempt ⟨⟨"assignment", Eq.refl false⟩, ⟨"attempt-2", Eq.refl false⟩, "worker", 95, .accepted false⟩,
    .observeAttempt ⟨⟨"assignment", Eq.refl false⟩, ⟨"attempt-2", Eq.refl false⟩, "worker", 96,
      .finished (sampleFinished "built")⟩]

@[irreducible] def reassignedBuildSample : ControlDatabase := executeAll sampleReassignedBuild .empty

theorem reassignedBuild_run : ∃ log, ControlRun log reassignedBuildSample := by
  unfold reassignedBuildSample
  exact ControlRun.empty.executeAll _

theorem reassignedBuild_replaced : ReplacedBy reassignedBuildSample "attempt" "attempt-2" := by
  have hrow : (reassignedBuildSample.reassignments.lookup "attempt").map ReassignmentRow.replacementAttemptId =
      some "attempt-2" := by
    unfold reassignedBuildSample
    decide +kernel
  exact Option.map_eq_some_iff.mp hrow

theorem reassignedBuild_finished : ((finishedObservation "attempt-2").run reassignedBuildSample).2 =
    .ok (some (sampleFinished "built")) := by
  unfold reassignedBuildSample
  decide +kernel

theorem reassignedBuild_own : ∃ row, OwnAttempt reassignedBuildSample "worker" sampleBuildContract row := by
  have hrow : (reassignedBuildSample.assignments.lookup "attempt").map (fun row => (row.workerId, row.contract)) =
      some ("worker", sampleBuildContract) := by
    unfold reassignedBuildSample
    decide +kernel
  obtain ⟨row, hrow, hsame⟩ := Option.map_eq_some_iff.mp hrow
  exact ⟨row, hrow, congrArg Prod.fst hsame, congrArg Prod.snd hsame⟩

theorem requester_watches_own_attempts_sample :
    WorkerBuildAttemptAdapter.reconcile ⟨"worker"⟩ [] (.ok (),
      reassignedBuildSample) reassignedBuildSample sampleBuildContract =
      .error (.unavailable "build attempt lease expired") := by
  obtain ⟨log, hrun⟩ := reassignedBuild_run
  obtain ⟨row, hown⟩ := reassignedBuild_own
  exact ((requester_watches_own_attempts hrun).1 ⟨"worker"⟩ [] _ row hown).2 _ reassignedBuild_replaced _ .refl _

/-- A replacement has finished its work, and the requester is told that its attempt has expired. -/
theorem finished_replacement_unseen : (∃ log, ControlRun log reassignedBuildSample) ∧
    ReplacedBy reassignedBuildSample "attempt" "attempt-2" ∧
    ((finishedObservation "attempt-2").run reassignedBuildSample).2 = .ok (some (sampleFinished "built")) ∧
    ∀ artifacts enqueued, WorkerBuildAttemptAdapter.reconcile ⟨"worker"⟩ artifacts enqueued reassignedBuildSample
      sampleBuildContract = .error (.unavailable "build attempt lease expired") := by
  obtain ⟨log, hrun⟩ := reassignedBuild_run
  obtain ⟨row, hown⟩ := reassignedBuild_own
  exact ⟨⟨log, hrun⟩, reassignedBuild_replaced, reassignedBuild_finished,
    fun _ _ => build_replacement_unseen hrun hown reassignedBuild_replaced .refl⟩

end sample

end AlloyPort.Attempts
