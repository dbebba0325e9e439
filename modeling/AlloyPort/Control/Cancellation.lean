import AlloyPort.Control.Reassignment

/-! What becomes of a cancelled attempt. A cancellation that was accepted stays in the attempt's row
whatever happens to it later, also when its lease expires; a reassignment reads the state alone. -/

namespace AlloyPort

open Database Transaction ControlDatabase SqliteControlRepository

def ControlDatabase.cancelled (db : ControlDatabase) (attemptId : String) : Bool :=
  (db.assignments.lookup attemptId).any fun row => row.cancellationReason.isSome

def Cancels : ControlEvent → String → Prop
  | ⟨.requestCancellation attemptId _ _, .ok record⟩, other =>
    attemptId = other ∧ record.outcome ∈ [.requested, .duplicate, .cancelledBeforeSend]
  | _, _ => False

def Replaces : ControlEvent → String → ReassignmentRow → Prop
  | ⟨.reassignExpired expired workerId replacement atMs, .ok record⟩, attemptId, row =>
    expired = attemptId ∧ row = ⟨replacement, workerId, atMs⟩ ∧ record.outcome = .inserted
  | _, _, _ => False

structure Replaceable (db : ControlDatabase) (expired replacement : String) (atMs : Nat) : Prop where
  unknown : db.reassignments.lookup expired = none
  ended : ∃ source, db.assignments.lookup expired = some source ∧ source.state = .leaseExpired
  named : isBlank replacement = false
  absent : db.assignments.lookup replacement = none
  unused : ∀ other, ¬ ReplacedBy db other replacement
  timed : toI64 atMs = .ok atMs

/-- An attempt that is replaced has no cancellation recorded. -/
def Heeds (db : ControlDatabase) : ControlOperation → Prop
  | .reassignExpired expired _ replacement atMs =>
    Replaceable db expired replacement atMs → db.cancelled expired = false
  | _ => True

inductive HeedingRun : List ControlEvent → ControlDatabase → Prop where
  | empty : HeedingRun [] .empty
  | step {log : List ControlEvent} {db : ControlDatabase} {e : ControlEvent} {db' : ControlDatabase}
      (h : HeedingRun log db) (hs : ControlStep db e db') (hh : Heeds db e.call) : HeedingRun (log ++ [e]) db'

variable {log : List ControlEvent} {db db' : ControlDatabase} {e : ControlEvent}
variable {attemptId expired workerId replacement reason : String} {atMs : Nat}

theorem HeedingRun.run (h : HeedingRun log db) : ControlRun log db := by
  induction h with
  | empty => exact .empty
  | step _ hs _ ih => exact ih.step hs

section recorded

theorem cancelled_updateAssignment {f : AssignmentRow → AssignmentRow}
    (hf : ∀ row, (f row).cancellationReason = row.cancellationReason) :
    (updateAssignment attemptId f db).cancelled = db.cancelled := by
  funext other
  unfold ControlDatabase.cancelled updateAssignment
  cases hrow : db.assignments.lookup attemptId with
  | none => rfl
  | some row =>
    by_cases heq : other = attemptId
    · subst heq
      simp [hrow, hf]
    · simp [AList.lookup_insert_ne heq]

theorem blind_cancelled : Blind ControlDatabase.cancelled where
  assignments attemptId f db hf := cancelled_updateAssignment hf
  leases db rows := rfl
  rest db db' h := by
    have hattempt : db'.attempt = db.attempt := congrArg Prod.fst h
    funext attemptId
    have hrow : db'.assignments.lookup attemptId = db.assignments.lookup attemptId :=
      congrArg Prod.fst (congrFun hattempt attemptId)
    unfold ControlDatabase.cancelled
    rw [hrow]

theorem cancelled_added {row : AssignmentRow} (hrow : db.assignments.lookup attemptId = none)
    (hadded : db'.assignments = db.assignments.insert attemptId row) (hr : row.cancellationReason = none) :
    db'.cancelled = db.cancelled := by
  funext other
  unfold ControlDatabase.cancelled
  rw [hadded]
  by_cases heq : other = attemptId
  · subst heq
    simp [hrow, hr]
  · rw [AList.lookup_insert_ne heq]

theorem storeAssignment_cancelled {contract : AssignmentContract} : (storeAssignment workerId contract atMs).wp db
    (fun _ db' => db'.cancelled = db.cancelled) fun _ _ => True := by
  unfold storeAssignment
  simp only [wp_bind, wp_read]
  split
  · simp only [wp_ite, wp_pure, wp_raise]
    split <;> trivial
  · simp only [wp_bind, wp_attempt, wp_write, wp_pure]
    exact ⟨fun now _ => cancelled_added ‹_› rfl rfl, fun _ _ => trivial⟩

theorem observeAttempt_cancelled {observation : ObservedAttempt} :
    Keeps ControlDatabase.cancelled (observeAttempt observation) := by
  apply keeps_bind assignmentIdentity_keeps
  intro state
  apply keeps_bind keeps_read
  intro db
  apply keeps_bind blind_cancelled.applyObservation
  intro disposition
  apply keeps_bind keeps_attempt
  intro now
  exact keeps_bind (keeps_write fun _ => rfl) fun _ => keeps_pure

theorem requestCancellation_cancelled : (requestCancellation attemptId reason atMs).wp db
    (fun record db' => ∀ other, db'.cancelled other = true ↔ db.cancelled other = true ∨
      attemptId = other ∧ record.outcome ∈ [.requested, .duplicate, .cancelledBeforeSend]) fun _ _ => True := by
  unfold requestCancellation
  refine wp_bind.mpr (findAssignment_wp (fun row hrow => ?_) fun _ => trivial)
  simp only [wp_ite, wp_bind, wp_attempt, wp_write, wp_pure]
  split
  · rename_i hover
    intro other
    simp [hover]
  · rename_i haccepted
    have hmem : (cancelledState row.state).2 ∈ [CancellationStoreOutcome.requested, .duplicate,
      .cancelledBeforeSend] := by
      cases hs : row.state <;> simp [hs, cancelledState] at haccepted ⊢
    refine ⟨fun now _ other => ?_, fun _ _ => trivial⟩
    unfold ControlDatabase.cancelled updateAssignment
    by_cases heq : other = attemptId
    · subst heq
      simp [hrow] at hmem ⊢
      exact .inr hmem
    · have hne : attemptId ≠ other := fun h => heq h.symm
      simp [hrow, AList.lookup_insert_ne heq, hne]

theorem ControlStep.cancelled (h : ControlStep db e db') :
    db'.cancelled attemptId = true ↔ db.cancelled attemptId = true ∨ Cancels e attemptId := by
  have hsame : ¬ Cancels e attemptId → db'.cancelled = db.cancelled →
      (db'.cancelled attemptId = true ↔ db.cancelled attemptId = true ∨ Cancels e attemptId) := by
    intro hnot heq
    simp [hnot, heq]
  by_cases hr : e.call.isRecording = false
  · refine hsame ?_ (h.unseen blind_cancelled hr)
    obtain ⟨call, reply⟩ := e
    cases call <;> first | exact id | cases hr
  · cases h with
    | failed operation error _ => exact hsame (by cases operation <;> exact id) rfl
    | interrupted => exact absurd rfl hr
    | ran operation =>
      cases operation with
      | storeAssignment workerId contract atMs =>
        apply hsame id
        have hstored : (storeAssignment workerId contract atMs).wp db (fun _ db' => db'.cancelled = db.cancelled)
            fun _ _ => True := storeAssignment_cancelled
        rcases run_cases hstored with ⟨_, _, hq⟩ | ⟨_, _, hd⟩
        · exact hq
        · rw [ControlOperation.execute, hd]
      | observeAttempt observation => exact hsame id (observeAttempt_cancelled.run db)
      | reassignExpired expired workerId replacement atMs =>
        apply hsame id
        rcases run_cases reassignExpired_wp with ⟨record, _, hreplay | ⟨source, newId, hnew⟩⟩ | ⟨_, _, hd⟩
        · rw [ControlOperation.execute, hreplay.unchanged]
        · exact cancelled_added hnew.absent hnew.added rfl
        · rw [ControlOperation.execute, hd]
      | requestCancellation other reason atMs =>
        rcases run_cases requestCancellation_cancelled with ⟨record, hreply, hq⟩ | ⟨error, hreply, hd⟩
        · rw [ControlOperation.execute, hreply]
          exact hq attemptId
        · rw [ControlOperation.execute, hreply, hd]
          exact (or_iff_left id).symm
      | _ => exact absurd rfl hr

theorem ControlRun.cancelled (h : ControlRun log db) :
    db.cancelled attemptId = true ↔ ∃ e ∈ log, Cancels e attemptId := by
  induction h with
  | empty => simp [ControlDatabase.cancelled, ControlDatabase.empty]
  | step _ hs ih => simp [hs.cancelled, ih, or_comm, or_and_right, exists_or]

end recorded

section replaced

theorem NewReassignment.replaceable {source : AssignmentRow} {newId : AttemptId} {record : ReassignmentRecord}
    (h : NewReassignment db expired workerId replacement atMs source newId record db') (ht : toI64 atMs = .ok atMs) :
    Replaceable db expired replacement atMs where
  unknown := h.unknown
  ended := ⟨source, h.stored, h.ended⟩
  named := h.named ▸ newId.nonblank
  absent := h.absent
  unused := h.unused
  timed := ht

theorem reassignExpired_timed : (reassignExpired expired workerId replacement atMs).wp db
    (fun record _ => record.outcome = .inserted → toI64 atMs = .ok atMs) fun _ _ => True := by
  unfold reassignExpired
  refine wp_bind.mpr (wp_mono existingReassignment_wp ?_ fun _ _ _ => trivial)
  rintro found _ _
  cases found with
  | some record => exact fun h => by cases h
  | none =>
    refine wp_bind.mpr (findAssignment_wp (fun source _ => ?_) fun _ => trivial)
    unfold insertReassignment
    simp only [wp_ite, wp_raise, wp_bind, wp_pure, wp_read]
    split
    · trivial
    · split
      · trivial
      · split
        · trivial
        · split
          · trivial
          · simp only [wp_bind, wp_attempt, wp_write, wp_ite, wp_raise, wp_pure]
            refine ⟨fun now hnow => ?_, fun _ _ => trivial⟩
            split
            · trivial
            · exact fun _ => by rw [hnow, toI64_eq hnow]

theorem ControlStep.replaced (h : ControlStep db e db') {row : ReassignmentRow}
    (hrow : db'.reassignments.lookup attemptId = some row) : db.reassignments.lookup attemptId = some row ∨
      Replaces e attemptId row ∧ e.call = .reassignExpired attemptId row.replacementWorkerId row.replacementAttemptId
        row.createdAtMs ∧ Replaceable db attemptId row.replacementAttemptId row.createdAtMs := by
  by_cases ho : e.call.isHistorical = false
  · have hsame : db'.reassignments = db.reassignments := congrArg Prod.snd (h.history ho)
    exact .inl (hsame ▸ hrow)
  · cases h with
    | failed operation error _ => exact .inl hrow
    | interrupted => exact absurd rfl ho
    | ran operation =>
      cases operation with
      | observeAttempt observation =>
        rcases run_cases observeAttempt_recorded with ⟨_, _, _, hq⟩ | ⟨_, _, hd⟩
        · rw [ControlOperation.execute, hq] at hrow
          exact .inl hrow
        · rw [ControlOperation.execute, hd] at hrow
          exact .inl hrow
      | reassignExpired expired workerId replacement atMs =>
        rcases run_cases (wp_mono (wp_and reassignExpired_wp reassignExpired_timed) (fun _ _ h => h)
          fun _ _ _ => trivial) with ⟨record, hreply, hreplay | ⟨source, newId, hnew⟩, htimed⟩ | ⟨_, _, hd⟩
        · rw [ControlOperation.execute, hreplay.unchanged] at hrow
          exact .inl hrow
        · have hinserted : record.outcome = .inserted := by rw [hnew.answered]
          rw [ControlOperation.execute, hnew.reassigned] at hrow
          by_cases heq : attemptId = expired
          · subst heq
            rw [AList.lookup_insert] at hrow
            cases hrow
            refine .inr ⟨?_, rfl, hnew.replaceable (htimed hinserted)⟩
            rw [ControlOperation.execute, hreply]
            exact ⟨rfl, rfl, hinserted⟩
          · rw [AList.lookup_insert_ne heq] at hrow
            exact .inl hrow
        · rw [ControlOperation.execute, hd] at hrow
          exact .inl hrow
      | _ => exact absurd rfl ho

theorem Replaceable.inserted (h : Replaceable db expired replacement atMs) : ∃ record : ReassignmentRecord,
    record.outcome = .inserted ∧ ((reassignExpired expired workerId replacement atMs).run db).2 = .ok record ∧
      ((reassignExpired expired workerId replacement atMs).run db).1.reassignments.lookup expired =
        some ⟨replacement, workerId, atMs⟩ := by
  obtain ⟨source, hsource, hended⟩ := h.ended
  have hne : replacement ≠ expired := by
    rintro rfl
    rw [h.absent] at hsource
    cases hsource
  have hnonempty : replacement ≠ "" := by
    rintro rfl
    cases h.named
  have hparsed : (ValidatedId.tryFrom replacement : Option AttemptId) = some ⟨replacement, h.named⟩ :=
    dif_neg (by simp [h.named])
  have hunused : (db.reassignments.entries.any fun row => row.2.replacementAttemptId = replacement) = false := by
    rw [List.any_eq_false]
    intro row hrow
    have hlookup : db.reassignments.lookup row.1 = some row.2 := AList.mem_lookup_iff.mpr hrow
    have hother : row.2.replacementAttemptId ≠ replacement := fun heq => h.unused row.1 ⟨row.2, hlookup, heq⟩
    simpa using hother
  simp [reassignExpired, existingReassignment, insertReassignment, insertAssignment, findAssignment, Transaction.run,
    runKeeping, Bind.bind, Pure.pure, Transaction.read, Transaction.attempt, Transaction.write, h.unknown, h.absent,
    h.timed, hsource, hended, hne, hnonempty, hparsed, hunused]

theorem ControlRun.unheeded (h : ControlRun log db) {operation : ControlOperation} (hh : ¬ Heeds db operation) :
    ∃ attemptId row, Replaces ⟨operation, (operation.execute db).2⟩ attemptId row ∧
      (operation.execute db).1.reassignments.lookup attemptId = some row ∧ ∃ c ∈ log, Cancels c attemptId := by
  cases operation with
  | reassignExpired expired workerId replacement atMs =>
    obtain ⟨hreplaceable, hcancelled⟩ := Classical.not_imp.mp hh
    obtain ⟨record, hinserted, hreply, hrow⟩ := @Replaceable.inserted db expired workerId replacement atMs hreplaceable
    refine ⟨expired, ⟨replacement, workerId, atMs⟩, ?_, hrow, h.cancelled.mp (by simpa using hcancelled)⟩
    rw [ControlOperation.execute, hreply]
    exact ⟨rfl, rfl, hinserted⟩
  | _ => exact absurd trivial hh

end replaced

/-- In a run whose reassignments all heed the cancellations, every row of the reassignments was written
when no cancellation of the attempt it replaces had been accepted; the first one that does not heed them
replaces a cancelled attempt. -/
theorem cancelled_attempts_not_replaced (h : HeedingRun log db) :
    (∀ attemptId row, db.reassignments.lookup attemptId = some row → ∃ before e after, log = before ++ e :: after ∧
      Replaces e attemptId row ∧ ∀ c ∈ before, ¬ Cancels c attemptId) ∧
    ∀ operation, ¬ Heeds db operation → ∃ attemptId row, Replaces ⟨operation, (operation.execute db).2⟩ attemptId row ∧
      (operation.execute db).1.reassignments.lookup attemptId = some row ∧ ∃ c ∈ log, Cancels c attemptId := by
  refine ⟨fun attemptId row hrow => ?_, fun operation hh => h.run.unheeded hh⟩
  induction h with
  | empty => simp [ControlDatabase.empty] at hrow
  | @step log db e db' hrun hs hh ih =>
    rcases hs.replaced hrow with hold | ⟨hreplaces, hcall, hreplaceable⟩
    · obtain ⟨before, found, after, rfl, hfound, hnone⟩ := ih hold
      exact ⟨before, found, after ++ [e], by simp, hfound, hnone⟩
    · refine ⟨log, e, [], rfl, hreplaces, fun c hc hcancels => ?_⟩
      rw [hcall] at hh
      have hclear : db.cancelled attemptId = false := hh hreplaceable
      have hset : db.cancelled attemptId = true := hrun.run.cancelled.mpr ⟨c, hc, hcancels⟩
      rw [hclear] at hset
      cases hset

section samples

theorem HeedingRun.executeAll (h : HeedingRun log db) (operations : List ControlOperation)
    (hh : ∀ operation ∈ operations, ∀ db, Heeds db operation) : ∃ log', HeedingRun log' (executeAll operations db) := by
  induction operations generalizing log db with
  | nil => exact ⟨log, h⟩
  | cons operation operations ih =>
    have hfirst : Heeds db operation := hh operation (List.mem_cons_self ..) db
    exact ih (h.step (.ran operation) hfirst) fun later hlater => hh later (List.mem_cons_of_mem _ hlater)

theorem expiredSample_heeding : ∃ log, HeedingRun log expiredSample := by
  unfold expiredSample
  exact HeedingRun.empty.executeAll _ (by simp [sampleDelivery, Heeds])

@[irreducible] def cancelledSample : ControlDatabase :=
  executeAll (sampleDelivery ++ [ControlOperation.requestCancellation "attempt" "no longer needed" 25,
    .expireLeases 80]) .empty

theorem cancelledSample_run : ∃ log, ControlRun log cancelledSample := by
  unfold cancelledSample
  exact ControlRun.empty.executeAll _

end samples

theorem cancelled_attempts_not_replaced_sample : ∃ log db row, HeedingRun log db ∧
    db.reassignments.lookup "attempt" = some row ∧ ∃ before e after, log = before ++ e :: after ∧
      Replaces e "attempt" row ∧ ∀ c ∈ before, ¬ Cancels c "attempt" := by
  obtain ⟨log, hrun⟩ := expiredSample_heeding
  have hsample : expiredSample.cancelled "attempt" = false ∧
      ((SqliteControlRepository.reassignExpired "attempt" "worker-2" "attempt-2" 90).run
        expiredSample).1.reassignments.lookup "attempt" = some ⟨"attempt-2", "worker-2", 90⟩ := by
    unfold expiredSample
    decide +kernel
  obtain ⟨hclear, hrow⟩ := hsample
  have hlast := hrun.step (.ran (.reassignExpired "attempt" "worker-2" "attempt-2" 90)) fun _ => hclear
  exact ⟨_, _, _, hlast, hrow, (cancelled_attempts_not_replaced hlast).1 _ _ hrow⟩

/-- Once its lease has expired, a cancelled attempt is run again. -/
theorem cancelled_attempt_replaced : ∃ before e db row, ControlRun (before ++ [e]) db ∧
    db.reassignments.lookup "attempt" = some row ∧ Replaces e "attempt" row ∧ ∃ c ∈ before, Cancels c "attempt" := by
  obtain ⟨log, hrun⟩ := cancelledSample_run
  have hsample : cancelledSample.cancelled "attempt" = true ∧
      ((SqliteControlRepository.reassignExpired "attempt" "worker-2" "attempt-2" 90).run
        cancelledSample).1.reassignments.lookup "attempt" = some ⟨"attempt-2", "worker-2", 90⟩ ∧
      ((SqliteControlRepository.reassignExpired "attempt" "worker-2" "attempt-2" 90).run cancelledSample).2 =
        .ok ⟨.inserted, sampleReplacement⟩ := by
    unfold cancelledSample
    decide +kernel
  obtain ⟨hcancelled, hrow, hreply⟩ := hsample
  refine ⟨log, ⟨.reassignExpired "attempt" "worker-2" "attempt-2" 90, .ok ⟨.inserted, sampleReplacement⟩⟩, _, _,
    hrun.step (.executed hreply), hrow, ⟨rfl, rfl, rfl⟩, hrun.cancelled.mp hcancelled⟩

end AlloyPort
