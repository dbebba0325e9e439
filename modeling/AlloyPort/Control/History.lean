import AlloyPort.Control.Attempt

/-! The tables that only grow: the observations of the attempts and the reassignments. Each is
written by one operation. -/

namespace AlloyPort

open Database Transaction ControlDatabase SqliteControlRepository

variable {db db' : ControlDatabase} {e : ControlEvent} {attemptId workerId : String} {atMs : Nat}

section blind

/-- The projection sees no lease, and nothing of an assignment that its operations rewrite, save a cancellation. -/
structure Blind {γ : Type} (π : ControlDatabase → γ) : Prop where
  assignments : ∀ attemptId f db, (∀ row : AssignmentRow, (f row).cancellationReason = row.cancellationReason) →
    π (updateAssignment attemptId f db) = π db
  leases : ∀ db rows, π { db with leases := rows } = π db
  rest : ∀ db db', db'.ledger = db.ledger → π db' = π db

variable {γ : Type} {π : ControlDatabase → γ}

theorem Blind.of_keeps {α : Type} {t : ControlTransaction α} (hπ : Blind π) (h : Keeps ledger t) : Keeps π t :=
  fun db => hπ.rest _ _ (h db)

theorem Blind.updateLease (hπ : Blind π) {f : LeaseRow → LeaseRow} : π (updateLease attemptId f db) = π db := by
  unfold ControlDatabase.updateLease
  split
  · rfl
  · exact hπ.leases db _

theorem findAssignment_keeps : Keeps π (findAssignment attemptId) := by
  apply keeps_bind keeps_read
  intro db
  split
  · exact keeps_raise
  · exact keeps_pure

theorem assignmentIdentity_keeps {assignmentId : Option String} :
    Keeps π (assignmentIdentity attemptId workerId assignmentId) :=
  keeps_bind findAssignment_keeps fun _ => keeps_ite keeps_raise keeps_pure

theorem Blind.expireOne (hπ : Blind π) : Keeps π (expireOne attemptId atMs) := by
  apply keeps_bind keeps_attempt
  intro now
  apply keeps_bind (keeps_write fun _ => hπ.updateLease)
  intro _
  apply keeps_write
  intro db
  apply hπ.assignments
  intro row
  split <;> rfl

theorem Blind.markAssignmentDispatchable (hπ : Blind π) :
    Keeps π (markAssignmentDispatchable attemptId workerId atMs) := by
  apply keeps_bind assignmentIdentity_keeps
  intro state
  apply keeps_ite
  · apply keeps_bind keeps_attempt
    intro now
    exact keeps_bind (keeps_write fun _ => hπ.assignments _ _ _ fun _ => rfl) fun _ => keeps_pure
  · exact keeps_pure

theorem Blind.deferAssignmentPreparation (hπ : Blind π) :
    Keeps π (deferAssignmentPreparation attemptId workerId atMs) := by
  apply keeps_bind keeps_attempt
  intro retry
  apply keeps_bind keeps_read
  intro db
  split
  · exact keeps_pure
  · apply keeps_ite
    · exact keeps_bind (keeps_write fun _ => hπ.assignments _ _ _ fun _ => rfl) fun _ => keeps_pure
    · exact keeps_pure

theorem Blind.rejectExpiredLease (hπ : Blind π) : Keeps π (rejectExpiredLease attemptId atMs) := by
  apply keeps_bind keeps_read
  intro db
  split
  · exact keeps_pure
  · apply keeps_ite
    · exact keeps_bind hπ.expireOne fun _ => keeps_raise
    · exact keeps_pure

variable {preparation : AssignmentDeliveryPreparation} {state : AttemptState}

theorem Blind.grantDelivery (hπ : Blind π) {contract : AssignmentContract}
    : Keeps π (grantDelivery preparation attemptId contract state) := by
  apply keeps_bind keeps_attempt
  intro now
  apply keeps_bind
  · exact keeps_write fun _ => hπ.assignments _ _ _ fun _ => rfl
  intro _
  apply keeps_bind keeps_attempt
  intro expires
  apply keeps_bind (keeps_write fun db => hπ.leases db _)
  intro _
  apply keeps_bind (hπ.of_keeps insertServerFrame_keeps)
  intro _
  apply keeps_bind (hπ.of_keeps advanceConnection_keeps)
  intro _
  exact keeps_bind (keeps_write fun _ => hπ.rest _ _ updateWorker_ledger) fun _ => keeps_pure

theorem Blind.prepare (hπ : Blind π) : Keeps π (prepare preparation) := by
  unfold SqliteControlRepository.prepare
  split
  · exact keeps_raise
  · apply keeps_ite keeps_raise
    apply keeps_bind
    · unfold loadAssignment
      apply keeps_bind findAssignment_keeps
      exact fun _ => keeps_ite keeps_raise keeps_pure
    · intro loaded
      apply keeps_ite keeps_raise
      exact keeps_bind hπ.rejectExpiredLease fun _ => hπ.grantDelivery

theorem Blind.renewLease (hπ : Blind π) {leaseDurationMs : Nat} :
    Keeps π (renewLease workerId atMs leaseDurationMs attemptId) := by
  apply keeps_bind assignmentIdentity_keeps
  intro state
  apply keeps_ite keeps_pure
  apply keeps_bind keeps_read
  intro db
  split
  · exact keeps_pure
  · apply keeps_ite hπ.expireOne
    apply keeps_bind keeps_attempt
    intro renewed
    apply keeps_bind keeps_attempt
    exact fun _ => keeps_write fun _ => hπ.updateLease

theorem Blind.expireLeases (hπ : Blind π) : Keeps π (expireLeases atMs) := by
  apply keeps_bind keeps_attempt
  intro now
  apply keeps_bind keeps_read
  intro db
  exact keeps_bind (keeps_forEach (fun _ => hπ.expireOne) _) fun _ => keeps_pure

theorem Blind.applyObservation (hπ : Blind π) {leaseExpiry : Option Nat}
    {target : Option AttemptState} : Keeps π (applyObservation attemptId state leaseExpiry atMs target) := by
  unfold SqliteControlRepository.applyObservation
  split
  · split
    all_goals first | exact keeps_pure | exact keeps_raise
  · apply keeps_ite
    · exact keeps_bind hπ.expireOne fun _ => keeps_pure
    · apply keeps_ite keeps_pure
      apply keeps_ite
      · apply keeps_bind keeps_attempt
        intro now
        exact keeps_bind (keeps_write fun _ => hπ.assignments _ _ _ fun _ => rfl) fun _ => keeps_pure
      · exact keeps_raise

end blind

@[simp] theorem updateAssignment_history {f : AssignmentRow → AssignmentRow} :
    (updateAssignment attemptId f db).history = db.history := by
  unfold updateAssignment
  split <;> rfl

theorem blind_history : Blind history where
  assignments _ _ _ _ := updateAssignment_history
  leases _ _ := rfl
  rest _ _ h := congrArg Prod.snd h

theorem storeAssignment_keeps {contract : AssignmentContract} :
    Keeps history (storeAssignment workerId contract atMs) := by
  apply keeps_bind keeps_read
  intro db
  split
  · exact keeps_ite keeps_pure keeps_raise
  · apply keeps_bind keeps_attempt
    exact fun _ => keeps_bind (keeps_write fun _ => rfl) fun _ => keeps_pure

theorem requestCancellation_keeps {reason : String} : Keeps history (requestCancellation attemptId reason atMs) := by
  apply keeps_bind findAssignment_keeps
  intro row
  apply keeps_ite keeps_pure
  apply keeps_bind keeps_attempt
  intro now
  exact keeps_bind (keeps_write fun _ => updateAssignment_history) fun _ => keeps_pure

def ControlOperation.isHistorical : ControlOperation → Bool
  | observeAttempt _ | reassignExpired _ _ _ _ => true
  | _ => false

def ControlOperation.isRecording : ControlOperation → Bool
  | storeAssignment _ _ _ | observeAttempt _ | reassignExpired _ _ _ _ | requestCancellation _ _ _ => true
  | _ => false

theorem ControlStep.unseen {γ : Type} {π : ControlDatabase → γ} (hπ : Blind π) (h : ControlStep db e db')
    (ho : e.call.isRecording = false) : π db' = π db := by
  cases h with
  | failed operation error _ => rfl
  | interrupted => exact (hπ.of_keeps updateSequences_keeps).run db
  | ran operation =>
    cases operation with
    | storeAssignment => cases ho
    | reassignExpired => cases ho
    | observeAttempt => cases ho
    | requestCancellation => cases ho
    | markAssignmentDispatchable => exact hπ.markAssignmentDispatchable.run db
    | deferAssignmentPreparation => exact hπ.deferAssignmentPreparation.run db
    | prepareAssignmentDelivery => exact hπ.prepare.runKeeping _ db
    | renewActiveLeases => exact (keeps_forEach (fun _ => hπ.renewLease) _).run db
    | expireLeases => exact hπ.expireLeases.run db
    | registerWorker => exact (hπ.of_keeps registerWorker_keeps).run db
    | updateConnectionSequences => exact hπ.rest _ _ updateConnectionSequences_keeps
    | disconnect => exact (hπ.of_keeps disconnect_keeps).run db
    | recordServerFrame => exact (hπ.of_keeps insertServerFrame_keeps).run db
    | compactServerFrames => exact (hπ.of_keeps compactServerFrames_keeps).run db
    | pruneOrphanedServerFrames => exact (hπ.of_keeps pruneOrphanedServerFrames_keeps).run db
    | assignment => rfl
    | replayableAssignments => rfl

theorem ControlStep.history (h : ControlStep db e db') (ho : e.call.isHistorical = false) :
    db'.history = db.history := by
  by_cases hr : e.call.isRecording = false
  · exact h.unseen blind_history hr
  · cases h with
    | failed operation error _ => rfl
    | interrupted => exact absurd rfl hr
    | ran operation =>
      cases operation with
      | storeAssignment => exact storeAssignment_keeps.run db
      | requestCancellation => exact requestCancellation_keeps.run db
      | observeAttempt | reassignExpired => cases ho
      | _ => exact absurd rfl hr

section observations

def recorded : ControlEvent → List ObservationRow
  | ⟨.observeAttempt observation, .ok disposition⟩ =>
    [⟨observation.attemptId.text, observation.workerId, observation.observedAtMs, disposition, observation.observation⟩]
  | _ => []

variable {observation : ObservedAttempt} {expired replacement : String} {target : AttemptState}

theorem observeAttempt_recorded : (observeAttempt observation).wp db
    (fun disposition db' => db'.observations = db.observations ++
        recorded ⟨.observeAttempt observation, .ok disposition⟩ ∧ db'.reassignments = db.reassignments)
      fun _ _ => True := by
  unfold observeAttempt
  refine wp_bind.mpr (assignmentIdentity_wp (fun row hrow _ => ?_) fun _ => trivial)
  simp only [wp_bind, wp_read]
  refine wp_mono blind_history.applyObservation.wp (fun disposition db' h => ?_) fun _ _ _ => trivial
  simp only [wp_attempt, wp_write, wp_pure]
  refine ⟨fun now hnow => ?_, fun _ _ => trivial⟩
  rw [toI64_eq hnow]
  obtain ⟨hobservations, hreassignments⟩ := Prod.mk.inj h
  exact ⟨by rw [← hobservations]; rfl, hreassignments⟩

theorem insertReassignment_observations {original : AssignmentRecord} :
    Keeps ControlDatabase.observations (insertReassignment original expired workerId replacement atMs) := by
  apply keeps_bind keeps_read
  intro db
  apply keeps_ite keeps_raise
  split
  · exact keeps_raise
  · apply keeps_bind keeps_attempt
    intro now
    apply keeps_bind
    · exact keeps_write fun _ => rfl
    intro _
    apply keeps_ite keeps_raise
    exact keeps_bind (keeps_write fun _ => rfl) fun _ => keeps_pure

theorem existingReassignment_keeps {γ : Type} {π : ControlDatabase → γ} :
    Keeps π (existingReassignment expired workerId replacement) := by
  apply keeps_bind keeps_read
  intro db
  split
  · exact keeps_pure
  · apply keeps_ite keeps_raise
    exact keeps_bind findAssignment_keeps fun _ => keeps_pure

theorem reassignExpired_observations :
    Keeps ControlDatabase.observations (reassignExpired expired workerId replacement atMs) := by
  apply keeps_bind existingReassignment_keeps
  intro found
  cases found with
  | some assignment => exact keeps_pure
  | none =>
    apply keeps_bind findAssignment_keeps
    intro original
    apply keeps_ite keeps_raise
    apply keeps_ite keeps_raise
    exact keeps_bind insertReassignment_observations fun _ => keeps_pure

theorem ControlStep.observations (h : ControlStep db e db') : db'.observations = db.observations ++ recorded e := by
  by_cases ho : e.call.isHistorical = false
  · have hrecorded : recorded e = [] := by
      obtain ⟨call, reply⟩ := e
      cases call <;> first | rfl | cases ho
    rw [hrecorded, List.append_nil]
    exact congrArg Prod.fst (h.history ho)
  · cases h with
    | failed operation error _ => simp [recorded]
    | interrupted => exact absurd rfl ho
    | ran operation =>
      cases operation with
      | observeAttempt observation =>
        rcases run_cases observeAttempt_recorded with ⟨disposition, hreply, hq, _⟩ | ⟨error, hreply, hd⟩
        · rw [ControlOperation.execute, hreply]
          exact hq
        · rw [ControlOperation.execute, hreply, hd]
          exact (List.append_nil _).symm
      | reassignExpired expired workerId replacement atMs =>
        exact (reassignExpired_observations.run db).trans (List.append_nil _).symm
      | _ => exact absurd rfl ho

theorem applyObservation_applied {row : AssignmentRow} {leaseExpiry : Option Nat}
    (hrow : db.assignments.lookup attemptId = some row) :
    (applyObservation attemptId row.state leaseExpiry atMs (some target)).wp db
      (fun disposition db' => disposition = .applied →
        ∃ row', db'.assignments.lookup attemptId = some row' ∧ row'.state = target) fun _ _ => True := by
  unfold applyObservation
  simp only [wp_ite, wp_bind, wp_attempt, wp_write, wp_pure, wp_raise]
  split
  · exact wp_mono blind_history.expireOne.wp (fun _ _ _ h => by cases h) fun _ _ _ => trivial
  · split
    · exact fun h => by cases h
    · split
      · refine ⟨fun now _ _ => ?_, fun _ _ => trivial⟩
        simp [updateAssignment, hrow]
      · trivial

theorem observeAttempt_applied
    (ht : observation.observation.targetState = some target) : (observeAttempt observation).wp db
      (fun disposition db' => disposition = .applied →
        ∃ row, db'.assignments.lookup observation.attemptId.text = some row ∧ row.state = target) fun _ _ => True := by
  unfold observeAttempt
  refine wp_bind.mpr (assignmentIdentity_wp (fun row hrow _ => ?_) fun _ => trivial)
  simp only [wp_bind, wp_read, ht]
  refine wp_mono (applyObservation_applied hrow) (fun disposition db' h => ?_) fun _ _ _ => trivial
  simp only [wp_attempt, wp_write, wp_pure]
  exact ⟨fun _ _ => h, fun _ _ => trivial⟩

theorem ControlStep.applied (h : ControlStep db ⟨.observeAttempt observation, .ok .applied⟩ db')
    (ht : observation.observation.targetState = some target) :
    ∃ row, db'.assignments.lookup observation.attemptId.text = some row ∧ row.state = target := by
  have happlied := h.answered rfl (observeAttempt_applied ht)
  exact happlied rfl

end observations

section finished

inductive ControlTrace : ControlDatabase → List (ControlEvent × ControlDatabase) → Prop where
  | nil (db : ControlDatabase) : ControlTrace db []
  | cons {db e db' rest} (h : ControlStep db e db') (ht : ControlTrace db' rest) : ControlTrace db ((e, db') :: rest)

def RecordsFinished (e : ControlEvent) (attemptId : String) (finished : FinishedObservation) : Prop :=
  ∃ row ∈ recorded e, row.attemptId = attemptId ∧ row.finished? = some finished

def lastFinished (db : ControlDatabase) (attemptId : String) : Option FinishedObservation :=
  (db.observations.filter fun row => row.attemptId = attemptId).reverse.findSome? ObservationRow.finished?

theorem finishedObservation_of_finished {row : AssignmentRow} {finished : FinishedObservation}
    (hrow : db.assignments.lookup attemptId = some row) (hs : row.state = .finished) :
    ((finishedObservation attemptId).run db).2 = .ok (some finished) ↔ lastFinished db attemptId = some finished := by
  unfold finishedObservation lastFinished
  cases hlast : (db.observations.filter fun row => row.attemptId = attemptId).reverse.findSome?
      ObservationRow.finished? with
  | none => simp [Transaction.run, runKeeping, Bind.bind, Transaction.read, raise, hrow, hs, hlast]
  | some found => simp [Transaction.run, runKeeping, Bind.bind, Transaction.read, Pure.pure, hrow, hs, hlast]

theorem recorded_cases (e : ControlEvent) : recorded e = [] ∨ ∃ row, recorded e = [row] := by
  unfold recorded
  split
  · exact .inr ⟨_, rfl⟩
  · exact .inl rfl

theorem lastFinished_step {finished : FinishedObservation} (h : ControlStep db e db')
    (hlast : lastFinished db attemptId = some finished) :
    lastFinished db' attemptId = some finished ↔ ∀ found, RecordsFinished e attemptId found → found = finished := by
  unfold lastFinished at hlast ⊢
  rw [h.observations, List.filter_append, List.reverse_append, List.findSome?_append]
  rcases recorded_cases e with hnone | ⟨row, hrow⟩
  · simp [RecordsFinished, hnone, hlast]
  · by_cases ha : row.attemptId = attemptId
    · cases hfound : row.finished? with
      | none => simp [RecordsFinished, hrow, ha, hfound, hlast]
      | some found => simp [RecordsFinished, hrow, ha, hfound]
    · simp [RecordsFinished, hrow, ha, hlast]

theorem ControlTrace.finished {log : List ControlEvent} {steps : List (ControlEvent × ControlDatabase)}
    {row : AssignmentRow} {finished : FinishedObservation} (h : ControlRun log db) (ht : ControlTrace db steps)
    (hrow : db.assignments.lookup attemptId = some row) (hs : row.state = .finished)
    (hlast : lastFinished db attemptId = some finished) :
    (∀ s ∈ steps, ((finishedObservation attemptId).run s.2).2 = .ok (some finished)) ↔
      ∀ s ∈ steps, ∀ found, RecordsFinished s.1 attemptId found → found = finished := by
  induction ht generalizing log row with
  | nil => simp
  | @cons db e db' rest hstep _ ih =>
    have hkept := ((hstep.changes attemptId).kept (h.held attemptId)).2.settled row hrow (by rw [hs]; rfl)
    obtain ⟨row', hrow', hs'⟩ := hkept
    simp only [List.forall_mem_cons, finishedObservation_of_finished hrow' (hs'.trans hs)]
    rw [lastFinished_step hstep hlast]
    refine and_congr_right fun hsame => ih (h.step hstep) hrow' (hs'.trans hs) ?_
    exact (lastFinished_step hstep hlast).mpr hsame

/-- Once a result was applied, its attempt answers with it at every later step exactly when every
result recorded from there on is the same. -/
theorem finished_observation_first_applied {log : List ControlEvent} {observation : ObservedAttempt}
    {finished : FinishedObservation} {applied : ControlDatabase} {steps : List (ControlEvent × ControlDatabase)}
    (h : ControlRun log db) (hstep : ControlStep db ⟨.observeAttempt observation, .ok .applied⟩ applied)
    (hf : observation.observation = .finished finished) (ht : ControlTrace applied steps) :
    ((finishedObservation observation.attemptId.text).run applied).2 = .ok (some finished) ∧
      ((∀ s ∈ steps, ((finishedObservation observation.attemptId.text).run s.2).2 = .ok (some finished)) ↔
        ∀ s ∈ steps, ∀ found, RecordsFinished s.1 observation.attemptId.text found → found = finished) := by
  have hlast : lastFinished applied observation.attemptId.text = some finished := by
    unfold lastFinished
    rw [hstep.observations, List.filter_append, List.reverse_append, List.findSome?_append]
    simp [recorded, ObservationRow.finished?, hf]
  obtain ⟨row, hrow, hs⟩ : ∃ row, applied.assignments.lookup observation.attemptId.text = some row ∧
      row.state = .finished := hstep.applied (by rw [hf]; rfl)
  refine ⟨(finishedObservation_of_finished hrow hs).mpr hlast, ?_⟩
  exact ht.finished (h.step hstep) hrow hs hlast

theorem ControlStep.executed {operation : ControlOperation} {reply : operation.Reply}
    (h : (operation.execute db).2 = reply) : ControlStep db ⟨operation, reply⟩ (operation.execute db).1 :=
  h ▸ .ran operation

def sampleObserve (atMs : Nat) (observation : AttemptObservation) : ObservedAttempt :=
  ⟨⟨"assignment", Eq.refl false⟩, ⟨"attempt", Eq.refl false⟩, "worker", atMs, observation⟩

@[irreducible] def acceptedSample : ControlDatabase :=
  executeAll (sampleDelivery ++ [ControlOperation.observeAttempt (sampleObserve 21 (.accepted false))]) .empty

@[irreducible] def finishedSample : ControlDatabase :=
  ((ControlOperation.observeAttempt (sampleObserve 22 (.finished (sampleFinished "first")))).execute acceptedSample).1

theorem acceptedSample_run : ∃ log, ControlRun log acceptedSample := by
  unfold acceptedSample
  exact ControlRun.empty.executeAll _

theorem finishedSample_step : ControlStep acceptedSample
    ⟨.observeAttempt (sampleObserve 22 (.finished (sampleFinished "first"))), .ok .applied⟩ finishedSample := by
  have hreply : ((SqliteControlRepository.observeAttempt (sampleObserve 22 (.finished (sampleFinished "first")))).run
      acceptedSample).2 = .ok .applied := by
    unfold acceptedSample
    decide
  unfold finishedSample
  exact .executed hreply

theorem finishedSample_trace (detail : String) (hreply : ((SqliteControlRepository.observeAttempt
      (sampleObserve 23 (.finished (sampleFinished detail)))).run finishedSample).2 = .ok .duplicate) :
    ControlTrace finishedSample [(⟨.observeAttempt (sampleObserve 23 (.finished (sampleFinished detail))),
      .ok .duplicate⟩, ((ControlOperation.observeAttempt (sampleObserve 23 (.finished (sampleFinished detail)))).execute
        finishedSample).1)] :=
  .cons (.executed hreply) (.nil _)

theorem finished_observation_first_applied_sample :
    ((finishedObservation "attempt").run finishedSample).2 = .ok (some (sampleFinished "first")) ∧
      ((finishedObservation "attempt").run ((ControlOperation.observeAttempt
        (sampleObserve 23 (.finished (sampleFinished "first")))).execute finishedSample).1).2 =
        .ok (some (sampleFinished "first")) := by
  obtain ⟨log, hrun⟩ := acceptedSample_run
  have hreply : ((SqliteControlRepository.observeAttempt (sampleObserve 23 (.finished (sampleFinished "first")))).run
      finishedSample).2 = .ok .duplicate := by
    unfold finishedSample acceptedSample
    decide
  obtain ⟨hfirst, hiff⟩ := finished_observation_first_applied hrun finishedSample_step rfl
    (finishedSample_trace "first" hreply)
  refine ⟨hfirst, hiff.mpr ?_ _ (List.mem_singleton_self _)⟩
  rintro s hs found ⟨row, hrow, _, hfound⟩
  obtain rfl := List.mem_singleton.mp hs
  obtain rfl := List.mem_singleton.mp hrow
  exact (Option.some.inj hfound).symm

/-- A second result, recorded as a duplicate, takes the place of the one that was applied. -/
theorem duplicate_replaces_applied_result : ∃ log db applied steps,
    ControlRun log db ∧
    ControlStep db ⟨.observeAttempt (sampleObserve 22 (.finished (sampleFinished "first"))), .ok .applied⟩ applied ∧
    ControlTrace applied steps ∧
    (∀ s ∈ steps, s.1 = ⟨.observeAttempt (sampleObserve 23 (.finished (sampleFinished "second"))), .ok .duplicate⟩) ∧
    ∃ s ∈ steps, ((finishedObservation "attempt").run s.2).2 = .ok (some (sampleFinished "second")) := by
  obtain ⟨log, hrun⟩ := acceptedSample_run
  have hreply : ((SqliteControlRepository.observeAttempt (sampleObserve 23 (.finished (sampleFinished "second")))).run
      finishedSample).2 = .ok .duplicate := by
    unfold finishedSample acceptedSample
    decide
  refine ⟨log, _, _, _, hrun, finishedSample_step, finishedSample_trace "second" hreply, ?_, _,
    List.mem_singleton_self _, ?_⟩
  · intro s hs
    rw [List.mem_singleton.mp hs]
  · unfold finishedSample acceptedSample
    decide

end finished

end AlloyPort
