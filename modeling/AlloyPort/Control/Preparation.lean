import AlloyPort.Control.Reassignment

/-! The assignments that a registration replays. An attempt becomes replayable by its dispatch alone, and
it is listed under the worker it is assigned to. -/

namespace AlloyPort

open Database Transaction ControlDatabase SqliteControlRepository AttemptState

/-- The attempt is assigned to the worker and would be replayed to it. -/
def AttemptRows.Replayable (rows : AttemptRows) (workerId : String) : Prop :=
  ∃ row, rows.1 = some row ∧ row.workerId = workerId ∧ row.state.isReplayable = true

def ControlDatabase.Replayable (db : ControlDatabase) (workerId attemptId : String) : Prop :=
  AttemptRows.Replayable (db.attempt attemptId) workerId

def Marks : ControlEvent → String → String → Prop
  | ⟨.markAssignmentDispatchable attemptId workerId _, .ok marked⟩, worker, other =>
    marked = true ∧ workerId = worker ∧ attemptId = other
  | _, _, _ => False

variable {log : List ControlEvent} {db db' : ControlDatabase} {e : ControlEvent} {nowMs : Nat} {cause : Cause}
variable {attemptId workerId : String} {rows rows' : AttemptRows}

theorem StateChange.replayable {s s' : AttemptState} (h : StateChange cause attemptId s s')
    (hs' : s'.isReplayable = true) : s.isReplayable = true ∨ cause.dispatches attemptId := by
  cases h with
  | deferred => cases hs'
  | dispatchable hd => exact .inr hd
  | cancelledBeforeSend hs => cases hs'
  | cancelRequested hs => cases s <;> simp [isLeased, isReplayable] at hs ⊢
  | observed _ hs =>
    cases s <;> cases s' <;> simp [transitionAllowed, isReplayable] at hs hs' ⊢

theorem AttemptChange.replayable (h : AttemptChange nowMs cause attemptId rows rows')
    (hr : rows'.Replayable workerId) : rows.Replayable workerId ∨ cause.dispatches attemptId := by
  obtain ⟨row', hrow', hworker, hstate⟩ := hr
  cases h with
  | stored hs _ _ =>
    cases hrow'
    rw [hs] at hstate
    cases hstate
  | @moved row _ _ hs hc =>
    cases hrow'
    exact (hs.replayable hstate).imp_left fun hbefore => ⟨row, rfl, hc.workerId ▸ hworker, hbefore⟩
  | @expired row _ at_ =>
    obtain ⟨before, hbefore, rfl⟩ := Option.map_eq_some_iff.mp hrow'
    refine .inl ⟨before, hbefore, (expiredRow_sameContract before at_).workerId ▸ hworker, ?_⟩
    unfold expiredRow at hstate
    split at hstate
    · cases hstate
    · exact hstate
  | renewed _ _ _ _ => exact .inl ⟨row', hrow', hworker, hstate⟩
  | @delivered row _ _ _ _ hs _ hc _ _ =>
    cases hrow'
    exact .inl ⟨row, rfl, hc.workerId ▸ hworker, hs⟩

theorem AttemptChanges.replayable (h : AttemptChanges nowMs cause attemptId rows rows')
    (hr : rows'.Replayable workerId) : rows.Replayable workerId ∨ cause.dispatches attemptId := by
  induction h with
  | refl => exact .inl hr
  | tail _ hc ih =>
    rcases hc.replayable hr with hr | hd
    · exact ih hr
    · exact .inr hd

theorem markAssignmentDispatchable_worker {atMs : Nat}
    (h : ((markAssignmentDispatchable attemptId workerId atMs).run db).2 = .ok true) :
    ∃ row, db.assignments.lookup attemptId = some row ∧ row.workerId = workerId := by
  have hwp : (markAssignmentDispatchable attemptId workerId atMs).wp db
      (fun _ _ => ∃ row, db.assignments.lookup attemptId = some row ∧ row.workerId = workerId) fun _ _ => True := by
    unfold markAssignmentDispatchable
    refine wp_bind.mpr (assignmentIdentity_wp (fun row hrow hworker => ?_) fun _ => trivial)
    simp only [wp_ite, wp_bind, wp_attempt, wp_write, wp_pure]
    split
    · exact ⟨fun _ _ => ⟨row, hrow, hworker⟩, fun _ _ => trivial⟩
    · exact ⟨row, hrow, hworker⟩
  rcases run_cases hwp with ⟨_, _, hrow⟩ | ⟨error, herror, _⟩
  · exact hrow
  · rw [h] at herror
    cases herror

theorem ControlStep.replayable (h : ControlStep db e db') (hr : db'.Replayable workerId attemptId) :
    db.Replayable workerId attemptId ∨ Marks e workerId attemptId := by
  rcases (h.changes attemptId).replayable hr with hbefore | hd
  · exact .inl hbefore
  · refine .inr ?_
    obtain ⟨row', hrow', hworker, _⟩ := hr
    have hchanges := h.changes attemptId
    cases h with
    | failed operation error _ => cases operation <;> exact hd.elim
    | interrupted => exact hd.elim
    | ran operation =>
      cases operation with
      | markAssignmentDispatchable marked worker atMs =>
        cases hreply : ((markAssignmentDispatchable marked worker atMs).run db).2 with
        | error error =>
          simp only [ControlOperation.execute, hreply, eventCause, Dispatches] at hd
        | ok done =>
          simp only [ControlOperation.execute, hreply, eventCause, Dispatches, Marks] at hd ⊢
          obtain ⟨rfl, rfl⟩ := hd
          obtain ⟨row, hrow, hsame⟩ := markAssignmentDispatchable_worker hreply
          obtain ⟨found, hfound, hcontract⟩ := hchanges.sameContract hrow
          obtain rfl : found = row' := Option.some.inj (hfound.symm.trans hrow')
          exact ⟨rfl, by rw [← hsame, ← hworker, hcontract.workerId], rfl⟩
      | _ => exact hd.elim

theorem ControlRun.keyed (h : ControlRun log db) {row : AssignmentRow}
    (hrow : db.assignments.lookup attemptId = some row) : row.contract.attemptId.text = attemptId := by
  have hchanged : ∀ {nowMs cause rows rows'}, AttemptChanges nowMs cause attemptId rows rows' →
      (∀ row, rows.1 = some row → row.contract.attemptId.text = attemptId) →
      ∀ row, rows'.1 = some row → row.contract.attemptId.text = attemptId := by
    intro nowMs cause rows rows' hc hrows
    induction hc with
    | refl => exact hrows
    | tail _ hc ih =>
      intro row hrow
      cases hc with
      | stored _ ha _ =>
        cases hrow
        exact ha
      | moved _ hc | delivered _ _ _ hc =>
        cases hrow
        rw [hc.contract]
        exact ih _ rfl
      | expired at_ =>
        obtain ⟨before, hbefore, rfl⟩ := Option.map_eq_some_iff.mp hrow
        rw [(expiredRow_sameContract before at_).contract]
        exact ih _ hbefore
      | renewed _ _ _ _ => exact ih _ hrow
  induction h generalizing row with
  | empty => cases hrow
  | step _ hs ih => exact hchanged (hs.changes attemptId) (fun row hrow => ih hrow) row hrow

theorem ControlRun.replays (h : ControlRun log db) {records : List AssignmentRecord}
    (hr : ((replayableAssignments workerId).run db).2 = .ok records) (ha : db.Replayable workerId attemptId) :
    attemptId ∈ records.map (·.contract.attemptId.text) := by
  obtain ⟨row, hrow, hworker, hstate⟩ := ha
  cases hr
  refine List.mem_map.mpr ⟨row.record, (List.mergeSort_perm _ _).mem_iff.mpr ?_, h.keyed hrow⟩
  refine List.mem_map.mpr ⟨⟨attemptId, row⟩, List.mem_filter.mpr ⟨?_, by simp [hworker, hstate]⟩, rfl⟩
  exact AList.mem_lookup_iff.mp hrow

theorem ControlRun.prepares (h : ControlRun log db) {preparation : AssignmentDeliveryPreparation}
    {contract : AssignmentContract} (hr : ((prepare preparation).runKeeping commitsExpiry db).2 = .ok contract)
    (ha : preparation.frame.attemptId = some attemptId) : contract.attemptId.text = attemptId := by
  have hwp : (prepare preparation).wp db
      (fun answered _ => ∃ row, db.assignments.lookup attemptId = some row ∧ answered = row.contract)
      fun _ _ => True := by
    unfold prepare
    rw [ha]
    refine wp_ite.mpr ?_
    split
    · trivial
    · unfold loadAssignment
      refine wp_bind.mpr (wp_bind.mpr (findAssignment_wp (fun row hrow => ?_) fun _ => trivial))
      simp only [wp_ite, wp_raise, wp_pure]
      split
      · trivial
      · split
        · trivial
        · refine wp_bind.mpr (rejectExpiredLease_wp (fun _ => ?_) (fun _ _ _ => trivial) fun _ _ => trivial)
          unfold grantDelivery
          simp only [wp_bind, wp_attempt, wp_write, wp_pure]
          refine ⟨fun _ _ => ⟨fun _ _ => ?_, fun _ _ => trivial⟩, fun _ _ => trivial⟩
          refine insertServerFrame_wp (fun rows => ?_) fun _ _ => trivial
          exact advanceConnection_wp (fun f => ⟨row, hrow, rfl⟩) fun _ _ => trivial
  rcases runKeeping_cases hwp with ⟨answered, heq, row, hrow, rfl⟩ | ⟨error, herror, _⟩
  · rw [hr] at heq
    rw [Except.ok.inj heq]
    exact h.keyed hrow
  · rw [hr] at herror
    cases herror

end AlloyPort
