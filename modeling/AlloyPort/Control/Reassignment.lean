import AlloyPort.Control.History

/-! Reassignment chains. An expired attempt has at most one replacement, a replacement stands in for
one attempt only, and no chain returns to an attempt it has left. -/

namespace AlloyPort

open Database Transaction ControlDatabase SqliteControlRepository

def ReplacedBy (db : ControlDatabase) (attemptId replacement : String) : Prop :=
  ∃ row, db.reassignments.lookup attemptId = some row ∧ row.replacementAttemptId = replacement

def AssignmentContract.isSuccessor (source replacement : AssignmentContract) : Prop :=
  replacement = { source with
    attemptId := replacement.attemptId, attemptNumber := min (source.attemptNumber + 1) (2 ^ 32 - 1) }

structure Replaced (db : ControlDatabase) (attemptId : String) (row : ReassignmentRow)
    (source replacement : AssignmentRow) : Prop where
  stored : db.assignments.lookup attemptId = some source
  expired : source.state = .leaseExpired
  replacing : db.assignments.lookup row.replacementAttemptId = some replacement
  worker : replacement.workerId = row.replacementWorkerId
  named : replacement.contract.attemptId.text = row.replacementAttemptId
  contract : source.contract.isSuccessor replacement.contract

structure Reassigned (db : ControlDatabase) : Prop where
  ends : ∀ attemptId row, db.reassignments.lookup attemptId = some row →
    ∃ source replacement, Replaced db attemptId row source replacement
  injective : ∀ attemptId attemptId' replacement, ReplacedBy db attemptId replacement →
    ReplacedBy db attemptId' replacement → attemptId = attemptId'
  acyclic : ∀ attemptId, ¬ Relation.TransGen (ReplacedBy db) attemptId attemptId

variable {log : List ControlEvent} {db db' : ControlDatabase} {e : ControlEvent} {nowMs : Nat} {cause : Cause}
variable {attemptId expired replacement workerId : String} {atMs : Nat}

section rows

theorem AssignmentRow.SameContract.refl (row : AssignmentRow) : row.SameContract row := ⟨rfl, rfl, rfl⟩

variable {row : AssignmentRow}

theorem AssignmentRow.SameContract.trans {row' row'' : AssignmentRow} (h : row.SameContract row')
    (h' : row'.SameContract row'') : row.SameContract row'' :=
  ⟨h'.assignmentId.trans h.assignmentId, h'.workerId.trans h.workerId, h'.contract.trans h.contract⟩

theorem expiredRow_sameContract (row : AssignmentRow) (at_ : Nat) : row.SameContract (expiredRow row at_) := by
  unfold expiredRow
  split
  · exact ⟨rfl, rfl, rfl⟩
  · exact .refl row

theorem AttemptChanges.sameContract {rows rows' : AttemptRows} (h : AttemptChanges nowMs cause attemptId rows rows')
    (hrow : rows.1 = some row) : ∃ row', rows'.1 = some row' ∧ row.SameContract row' := by
  induction h with
  | refl => exact ⟨row, hrow, .refl row⟩
  | tail _ hc ih =>
    obtain ⟨row₁, hrow₁, hsame⟩ := ih
    cases hc with
    | stored _ _ _ => cases hrow₁
    | moved _ hc | delivered _ _ _ hc =>
      cases hrow₁
      exact ⟨_, rfl, hsame.trans hc⟩
    | expired at_ =>
      obtain rfl : _ = some row₁ := hrow₁
      exact ⟨_, rfl, hsame.trans (expiredRow_sameContract row₁ at_)⟩
    | renewed _ _ _ _ => exact ⟨row₁, hrow₁, hsame⟩

theorem ControlRun.row_stays (h : ControlRun log db) (hs : ControlStep db e db')
    (hrow : db.assignments.lookup attemptId = some row) : ∃ row', db'.assignments.lookup attemptId = some row' ∧
      row.SameContract row' ∧ (row.state.isSettled = true → row'.state = row.state) := by
  obtain ⟨row', hrow', hsame⟩ := (hs.changes attemptId).sameContract hrow
  refine ⟨row', hrow', hsame, fun hsettled => ?_⟩
  obtain ⟨found, hfound, heq⟩ := ((hs.changes attemptId).kept (h.held attemptId)).2.settled row hrow hsettled
  obtain rfl : row' = found := Option.some.inj (hrow'.symm.trans hfound)
  exact heq

theorem Replaced.step {row : ReassignmentRow} {source target : AssignmentRow} (h : ControlRun log db)
    (hs : ControlStep db e db') (hr : Replaced db attemptId row source target) :
    ∃ source' target', Replaced db' attemptId row source' target' := by
  obtain ⟨source', hsource, hsame, hsettled⟩ := h.row_stays hs hr.stored
  obtain ⟨target', htarget, hsame', _⟩ := h.row_stays hs hr.replacing
  refine ⟨source', target', hsource, ?_, htarget, hsame'.workerId.trans hr.worker, ?_, ?_⟩
  · rw [hsettled (by rw [hr.expired]; rfl), hr.expired]
  · rw [hsame'.contract, hr.named]
  · rw [hsame'.contract, hsame.contract]
    exact hr.contract

end rows

section reassignment

/-- What a reassignment answers: a replay changes nothing, a new one adds a row to both tables. -/
structure ReassignmentReplay (db : ControlDatabase) (expired workerId replacement : String)
    (record : ReassignmentRecord) (db' : ControlDatabase) : Prop where
  unchanged : db' = db
  known : ∃ row, db.reassignments.lookup expired = some row ∧ row.replacementAttemptId = replacement ∧
    row.replacementWorkerId = workerId
  found : ∃ row, db.assignments.lookup replacement = some row ∧ record = ⟨.duplicate, row.record⟩

structure NewReassignment (db : ControlDatabase) (expired workerId replacement : String) (atMs : Nat)
    (source : AssignmentRow) (attemptId : AttemptId) (record : ReassignmentRecord) (db' : ControlDatabase) : Prop where
  unknown : db.reassignments.lookup expired = none
  stored : db.assignments.lookup expired = some source
  ended : source.state = .leaseExpired
  named : attemptId.text = replacement
  absent : db.assignments.lookup replacement = none
  unused : ∀ other, ¬ ReplacedBy db other replacement
  added : db'.assignments = db.assignments.insert replacement ⟨source.contract.assignmentId.text, workerId,
    { source.contract with
      attemptId := attemptId, attemptNumber := min (source.contract.attemptNumber + 1) (2 ^ 32 - 1) },
    .preparing, atMs, atMs, none, none⟩
  reassigned : db'.reassignments = db.reassignments.insert expired ⟨replacement, workerId, atMs⟩
  answered : record = ⟨.inserted, ⟨workerId,
    { source.contract with
      attemptId := attemptId, attemptNumber := min (source.contract.attemptNumber + 1) (2 ^ 32 - 1) },
    .preparing, atMs, atMs, none⟩⟩

theorem existingReassignment_wp : (existingReassignment expired workerId replacement).wp db
    (fun found db' => db' = db ∧ match found with
      | none => db.reassignments.lookup expired = none
      | some record => (∃ row, db.reassignments.lookup expired = some row ∧ row.replacementAttemptId = replacement ∧
          row.replacementWorkerId = workerId) ∧
          ∃ row, db.assignments.lookup replacement = some row ∧ record = row.record) fun _ _ => True := by
  unfold existingReassignment
  simp only [wp_bind, wp_read]
  split
  · exact ⟨rfl, ‹_›⟩
  · rename_i row hrow
    simp only [wp_ite, wp_raise, wp_bind, wp_pure]
    split
    · trivial
    · rename_i hsame
      have hboth := not_or.mp hsame
      refine findAssignment_wp (fun found hfound => ?_) fun _ => trivial
      exact ⟨rfl, ⟨row, hrow, not_not.mp hboth.1, not_not.mp hboth.2⟩, found, hfound, rfl⟩

theorem reassignExpired_wp : (reassignExpired expired workerId replacement atMs).wp db
    (fun record db' => ReassignmentReplay db expired workerId replacement record db' ∨ ∃ source attemptId,
      NewReassignment db expired workerId replacement atMs source attemptId record db') fun _ _ => True := by
  unfold reassignExpired
  refine wp_bind.mpr (wp_mono existingReassignment_wp ?_ fun _ _ _ => trivial)
  rintro found _ ⟨rfl, hfound⟩
  cases found with
  | some record =>
    obtain ⟨hknown, row, hrow, rfl⟩ := hfound
    exact .inl ⟨rfl, hknown, row, hrow, rfl⟩
  | none =>
    refine wp_bind.mpr (findAssignment_wp (fun source hsource => ?_) fun _ => trivial)
    simp only [wp_ite, wp_raise, wp_bind, wp_pure]
    split
    · trivial
    · rename_i hexpired
      split
      · trivial
      · unfold insertReassignment
        simp only [wp_bind, wp_read, wp_ite, wp_raise]
        split
        · trivial
        · rename_i habsent
          split
          · trivial
          · rename_i attemptId hid
            simp only [wp_bind, wp_attempt, wp_write, wp_ite, wp_raise, wp_pure]
            refine ⟨fun now hnow => ?_, fun _ _ => trivial⟩
            split
            · trivial
            · rename_i hunused
              rw [toI64_eq hnow]
              refine .inr ⟨source, attemptId, hfound, hsource, not_not.mp hexpired, ValidatedId.tryFrom_text hid,
                by simpa using habsent, ?_, rfl, rfl, rfl⟩
              rintro other ⟨row, hrow, heq⟩
              refine hunused (List.any_eq_true.mpr ⟨⟨other, row⟩, AList.mem_lookup_iff.mp hrow, ?_⟩)
              simpa using heq

theorem ControlStep.reassigned (h : ControlStep db e db') : db'.reassignments = db.reassignments ∨
    ∃ expired workerId replacement atMs source attemptId record,
      NewReassignment db expired workerId replacement atMs source attemptId record db' := by
  by_cases ho : e.call.isHistorical = false
  · exact .inl (congrArg Prod.snd (h.history ho))
  · cases h with
    | failed operation error _ => exact .inl rfl
    | interrupted => exact absurd rfl ho
    | ran operation =>
      cases operation with
      | observeAttempt observation =>
        rcases run_cases observeAttempt_recorded with ⟨_, _, _, hq⟩ | ⟨_, _, hd⟩
        · exact .inl hq
        · exact .inl (by rw [ControlOperation.execute, hd])
      | reassignExpired expired workerId replacement atMs =>
        rcases run_cases reassignExpired_wp with ⟨record, _, hreplay | ⟨source, attemptId, hnew⟩⟩ | ⟨_, _, hd⟩
        · exact .inl (by rw [ControlOperation.execute, hreplay.unchanged])
        · exact .inr ⟨expired, workerId, replacement, atMs, source, attemptId, record, hnew⟩
        · exact .inl (by rw [ControlOperation.execute, hd])
      | _ => exact absurd rfl ho

end reassignment

section chains

variable {source : AssignmentRow} {newId : AttemptId} {record : ReassignmentRecord}
variable {a b : String}

theorem NewReassignment.replacedBy (h : NewReassignment db expired workerId replacement atMs source newId record
    db') : ReplacedBy db' a b ↔ ReplacedBy db a b ∨ a = expired ∧ b = replacement := by
  unfold ReplacedBy
  rw [h.reassigned]
  by_cases ha : a = expired
  · subst ha
    simp [h.unknown, eq_comm]
  · simp [AList.lookup_insert_ne ha, ha]

theorem Reassigned.source_stored (h : Reassigned db) (hr : ReplacedBy db a b) :
    ∃ row, db.assignments.lookup a = some row := by
  obtain ⟨row, hrow, _⟩ := hr
  obtain ⟨source, _, hreplaced⟩ := h.ends a row hrow
  exact ⟨source, hreplaced.stored⟩

theorem NewReassignment.sink (hr : Reassigned db)
    (h : NewReassignment db expired workerId replacement atMs source newId record db') :
    ¬ ReplacedBy db' replacement b := by
  intro hb
  rcases h.replacedBy.mp hb with hold | ⟨heq, _⟩
  · obtain ⟨row, hrow⟩ := hr.source_stored hold
    rw [h.absent] at hrow
    cases hrow
  · have hstored := h.stored
    rw [← heq, h.absent] at hstored
    cases hstored

theorem NewReassignment.chain (hr : Reassigned db)
    (h : NewReassignment db expired workerId replacement atMs source newId record db')
    (hab : Relation.TransGen (ReplacedBy db') a b) : b = replacement ∨ Relation.TransGen (ReplacedBy db) a b := by
  induction hab with
  | single hedge =>
    rcases h.replacedBy.mp hedge with hold | ⟨_, heq⟩
    · exact .inr (.single hold)
    · exact .inl heq
  | tail _ hedge ih =>
    rcases ih with rfl | hchain
    · exact absurd hedge (h.sink hr)
    · rcases h.replacedBy.mp hedge with hold | ⟨_, heq⟩
      · exact .inr (hchain.tail hold)
      · exact .inl heq

theorem Reassigned.added (hr : Reassigned db) (hrun : ControlRun log db) (hs : ControlStep db e db')
    (h : NewReassignment db expired workerId replacement atMs source newId record db') : Reassigned db' where
  ends := by
    intro a row hrow
    rw [h.reassigned] at hrow
    by_cases ha : a = expired
    · subst ha
      rw [AList.lookup_insert] at hrow
      cases hrow
      have hne : a ≠ replacement := by
        rintro rfl
        have hstored := h.stored
        rw [h.absent] at hstored
        cases hstored
      have hstored : db'.assignments.lookup a = some source := by
        rw [h.added, AList.lookup_insert_ne hne]
        exact h.stored
      have hadded := (congrArg (AList.lookup replacement) h.added).trans (AList.lookup_insert _)
      exact ⟨source, _, hstored, h.ended, hadded, rfl, h.named, rfl⟩
    · rw [AList.lookup_insert_ne ha] at hrow
      obtain ⟨source', target, hreplaced⟩ := hr.ends a row hrow
      exact hreplaced.step hrun hs
  injective := by
    intro a a' b hab hab'
    rcases h.replacedBy.mp hab with hold | ⟨rfl, rfl⟩
    · rcases h.replacedBy.mp hab' with hold' | ⟨rfl, rfl⟩
      · exact hr.injective a a' b hold hold'
      · exact absurd hold (h.unused a)
    · rcases h.replacedBy.mp hab' with hold' | ⟨rfl, _⟩
      · exact absurd hold' (h.unused a')
      · rfl
  acyclic := by
    intro a hcycle
    rcases h.chain hr hcycle with rfl | hold
    · obtain ⟨b, hedge, _⟩ := Relation.TransGen.head'_iff.mp hcycle
      exact h.sink hr hedge
    · exact hr.acyclic a hold

theorem Reassigned.step (hr : Reassigned db) (hrun : ControlRun log db) (hs : ControlStep db e db') :
    Reassigned db' := by
  rcases hs.reassigned with hsame | ⟨expired, workerId, replacement, atMs, source, newId, record, hnew⟩
  · have hiff : ReplacedBy db' = ReplacedBy db := by
      unfold ReplacedBy
      rw [hsame]
    refine ⟨fun a row hrow => ?_, ?_, ?_⟩
    · rw [hsame] at hrow
      obtain ⟨source, target, hreplaced⟩ := hr.ends a row hrow
      exact hreplaced.step hrun hs
    · rw [hiff]
      exact hr.injective
    · rw [hiff]
      exact hr.acyclic
  · exact hr.added hrun hs hnew

theorem reassigned_empty : Reassigned .empty := by
  have hnone : ∀ a row, (ControlDatabase.empty.reassignments.lookup a) ≠ some row := by
    simp [ControlDatabase.empty]
  refine ⟨fun a row h => absurd h (hnone a row), ?_, ?_⟩
  · rintro a a' b ⟨row, h, _⟩
    exact absurd h (hnone a row)
  · intro a h
    obtain ⟨b, ⟨row, hrow, _⟩, _⟩ := Relation.TransGen.head'_iff.mp h
    exact absurd hrow (hnone a row)

theorem ControlRun.reassigned (h : ControlRun log db) : Reassigned db := by
  induction h with
  | empty => exact reassigned_empty
  | step hrun hs ih => exact ih.step hrun hs

end chains

section replays

theorem reassignExpired_replay {row : ReassignmentRow} {found : AssignmentRow}
    (hrow : db.reassignments.lookup expired = some row) (hr : row.replacementAttemptId = replacement)
    (hw : row.replacementWorkerId = workerId) (hfound : db.assignments.lookup replacement = some found) :
    (reassignExpired expired workerId replacement atMs).run db = (db, .ok ⟨.duplicate, found.record⟩) := by
  simp [reassignExpired, existingReassignment, findAssignment, Transaction.run, runKeeping, Bind.bind, Pure.pure,
    Transaction.read, hrow, hr, hw, hfound]

def ReassignedTo (db : ControlDatabase) (expired workerId replacement : String) (contract : AssignmentContract) :
    Prop :=
  ∃ row found, db.reassignments.lookup expired = some row ∧ row.replacementAttemptId = replacement ∧
    row.replacementWorkerId = workerId ∧ db.assignments.lookup replacement = some found ∧
    found.workerId = workerId ∧ found.contract = contract

variable {contract : AssignmentContract}

theorem ReassignedTo.step (h : ReassignedTo db expired workerId replacement contract) (hrun : ControlRun log db)
    (hs : ControlStep db e db') : ReassignedTo db' expired workerId replacement contract := by
  obtain ⟨row, found, hrow, hr, hw, hfound, hworker, hcontract⟩ := h
  obtain ⟨found', hfound', hsame, _⟩ := hrun.row_stays hs hfound
  refine ⟨row, found', ?_, hr, hw, hfound', hsame.workerId.trans hworker, hsame.contract.trans hcontract⟩
  rcases hs.reassigned with hkept | ⟨other, _, _, _, _, _, _, hnew⟩
  · rw [hkept]
    exact hrow
  · rw [hnew.reassigned]
    have hne : expired ≠ other := by
      rintro rfl
      rw [hnew.unknown] at hrow
      cases hrow
    rw [AList.lookup_insert_ne hne]
    exact hrow

theorem ReassignedTo.steps (h : ReassignedTo db expired workerId replacement contract)
    (hrun : ControlRun log db) (hs : ControlSteps db db') : ReassignedTo db' expired workerId replacement contract := by
  have hall : (∃ log', ControlRun log' db') ∧ ReassignedTo db' expired workerId replacement contract := by
    induction hs with
    | refl => exact ⟨⟨log, hrun⟩, h⟩
    | tail _ hstep ih =>
      obtain ⟨⟨log', hrun'⟩, hto⟩ := ih
      obtain ⟨e, hstep⟩ := hstep
      exact ⟨⟨_, hrun'.step hstep⟩, hto.step hrun' hstep⟩
  exact hall.2

theorem ControlStep.reassignedTo {record : ReassignmentRecord} (hrun : ControlRun log db)
    (h : ControlStep db ⟨.reassignExpired expired workerId replacement atMs, .ok record⟩ db') :
    ReassignedTo db' expired workerId replacement record.assignment.contract := by
  rcases h.answered rfl reassignExpired_wp with hreplay | ⟨source, newId, hnew⟩
  · obtain ⟨row, hrow, hto, hworker⟩ := hreplay.known
    obtain ⟨target, htarget, hrecord⟩ := hreplay.found
    rw [hreplay.unchanged]
    obtain ⟨_, found, hreplaced⟩ := hrun.reassigned.ends expired row hrow
    have hsame : found = target := Option.some.inj (hreplaced.replacing.symm.trans (hto ▸ htarget))
    refine ⟨row, target, hrow, hto, hworker, htarget, ?_, ?_⟩
    · rw [← hsame, hreplaced.worker, hworker]
    · rw [hrecord]
      rfl
  · have hrow := (congrArg (AList.lookup expired) hnew.reassigned).trans (AList.lookup_insert _)
    have hadded := (congrArg (AList.lookup replacement) hnew.added).trans (AList.lookup_insert _)
    exact ⟨_, _, hrow, rfl, rfl, hadded, rfl, by rw [hnew.answered]⟩

end replays

/-- Over every run, reassignment is an injective and acyclic partial function from expired attempts to
their successors, and once answered it is answered the same way again without a change. -/
theorem reassignments_form_chains (h : ControlRun log db) : Reassigned db ∧
    ∀ expired workerId replacement atMs record db',
      ControlStep db ⟨.reassignExpired expired workerId replacement atMs, .ok record⟩ db' →
      ∀ db'', ControlSteps db' db'' → ∀ again, ∃ found,
        (ControlOperation.reassignExpired expired workerId replacement again).execute db'' =
          (db'', .ok ⟨.duplicate, found⟩) ∧
        found.workerId = workerId ∧ found.contract = record.assignment.contract := by
  refine ⟨h.reassigned, fun expired workerId replacement atMs record db' hs db'' hlater again => ?_⟩
  obtain ⟨row, found, hrow, hr, hw, hfound, hworker, hcontract⟩ := (hs.reassignedTo h).steps (h.step hs) hlater
  exact ⟨found.record, reassignExpired_replay hrow hr hw hfound, hworker, hcontract⟩

def sampleReplacement : AssignmentRecord where
  workerId := "worker-2"
  contract := { sampleContract with attemptId := ⟨"attempt-2", by decide⟩, attemptNumber := 2 }
  state := .preparing
  createdAtMs := 90
  updatedAtMs := 90
  cancellationReason := none

theorem reassignments_form_chains_sample : ∃ log db db', ControlRun log db ∧ Reassigned db ∧
    ControlStep db ⟨.reassignExpired "attempt" "worker-2" "attempt-2" 90, .ok ⟨.inserted, sampleReplacement⟩⟩ db' ∧
    ∀ db'', ControlSteps db' db'' → ∃ found,
      (ControlOperation.reassignExpired "attempt" "worker-2" "attempt-2" 95).execute db'' =
        (db'', .ok ⟨.duplicate, found⟩) ∧
      found.workerId = "worker-2" ∧ found.contract = sampleReplacement.contract := by
  have hrun : ∃ log, ControlRun log expiredSample := by
    unfold expiredSample
    exact ControlRun.empty.executeAll _
  have hreply : ((SqliteControlRepository.reassignExpired "attempt" "worker-2" "attempt-2" 90).run expiredSample).2 =
      .ok ⟨.inserted, sampleReplacement⟩ := by
    unfold expiredSample
    decide +kernel
  have hstep : ControlStep expiredSample ⟨.reassignExpired "attempt" "worker-2" "attempt-2" 90,
      .ok ⟨.inserted, sampleReplacement⟩⟩ _ := .executed hreply
  obtain ⟨log, hrun⟩ := hrun
  obtain ⟨hchains, hreplay⟩ := reassignments_form_chains hrun
  exact ⟨log, _, _, hrun, hchains, hstep, fun db'' hlater => hreplay _ _ _ _ _ _ hstep db'' hlater 95⟩

end AlloyPort
