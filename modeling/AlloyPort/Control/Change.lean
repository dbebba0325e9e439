import AlloyPort.Control.Repository

/-! What the repository's operations can do to one attempt, its assignment row and its lease. Every
committed operation is a sequence of these changes. -/

namespace AlloyPort

open Database Transaction ControlDatabase SqliteControlRepository

abbrev AttemptRows := Option AssignmentRow × Option LeaseRow

def ControlDatabase.attempt (db : ControlDatabase) (attemptId : String) : AttemptRows :=
  (db.assignments.lookup attemptId, db.leases.lookup attemptId)

def ControlDatabase.history (db : ControlDatabase) :
    List ObservationRow × AList fun _ : String => ReassignmentRow :=
  (db.observations, db.reassignments)

def ControlDatabase.ledger (db : ControlDatabase) :
    (String → AttemptRows) × List ObservationRow × AList fun _ : String => ReassignmentRow :=
  (db.attempt, db.history)

structure Cause where
  delivers : String → Prop
  dispatches : String → Prop
  observes : String → AttemptState → Prop

def Cause.none : Cause := ⟨fun _ => False, fun _ => False, fun _ _ => False⟩

inductive StateChange (cause : Cause) (attemptId : String) : AttemptState → AttemptState → Prop where
  | deferred : StateChange cause attemptId .preparing .preparing
  | dispatchable (hd : cause.dispatches attemptId) : StateChange cause attemptId .preparing .dispatchable
  | cancelledBeforeSend {s} (hs : s = .preparing ∨ s = .dispatchable) : StateChange cause attemptId s .cancelled
  | cancelRequested {s} (hs : s.isLeased = true) : StateChange cause attemptId s .cancelRequested
  | observed {s target} (ho : cause.observes attemptId target) (hs : transitionAllowed s target = true) :
      StateChange cause attemptId s target

structure AssignmentRow.SameContract (row row' : AssignmentRow) : Prop where
  assignmentId : row'.assignmentId = row.assignmentId
  workerId : row'.workerId = row.workerId
  contract : row'.contract = row.contract

def expiredRow (row : AssignmentRow) (nowMs : Nat) : AssignmentRow :=
  if row.state.isLeased then { row with state := .leaseExpired, updatedAtMs := nowMs } else row

def expiredLease (lease : LeaseRow) (nowMs : Nat) : LeaseRow :=
  { lease with expiredAtMs := some (lease.expiredAtMs.getD nowMs) }

/-- One change of an operation at time `now`; only a delivery may deliver. -/
inductive AttemptChange (nowMs : Nat) (cause : Cause) (attemptId : String) : AttemptRows → AttemptRows → Prop where
  | stored {lease row} (hs : row.state = .preparing) (ha : row.contract.attemptId.text = attemptId)
      (hi : row.assignmentId = row.contract.assignmentId.text) :
      AttemptChange nowMs cause attemptId (none, lease) (some row, lease)
  | moved {row row' lease} (hs : StateChange cause attemptId row.state row'.state) (hc : row.SameContract row') :
      AttemptChange nowMs cause attemptId (some row, lease) (some row', lease)
  | expired {row lease} (at_ : Nat) :
      AttemptChange nowMs cause attemptId (row, lease) (row.map (expiredRow · at_), lease.map (expiredLease · at_))
  | renewed {row lease} (renewedAtMs expiresAtMs : Nat) (hn : lease.expiredAtMs = none)
      (hd : nowMs < lease.expiresAtMs) :
      AttemptChange nowMs cause attemptId (some row, some lease)
        (some row, some { lease with renewedAtMs := renewedAtMs, expiresAtMs := expiresAtMs })
  | delivered {row row' lease lease'} (hd : cause.delivers attemptId) (hs : row.state.isReplayable = true)
      (hs' : row'.state = if row.state = .dispatchable then .sent else row.state) (hc : row.SameContract row')
      (hl : ∀ l, lease = some l → nowMs < l.expiresAtMs) (hn : lease'.expiredAtMs = none) :
      AttemptChange nowMs cause attemptId (some row, lease) (some row', some lease')

abbrev AttemptChanges (nowMs : Nat) (cause : Cause) (attemptId : String) : AttemptRows → AttemptRows → Prop :=
  Relation.ReflTransGen (AttemptChange nowMs cause attemptId)

def Changes (nowMs : Nat) (cause : Cause) (db db' : ControlDatabase) : Prop :=
  ∀ attemptId, AttemptChanges nowMs cause attemptId (db.attempt attemptId) (db'.attempt attemptId)

variable {nowMs : Nat} {cause : Cause} {db db' db'' : ControlDatabase} {attemptId other : String}

def deliveryCause (preparation : AssignmentDeliveryPreparation) : Cause :=
  { Cause.none with delivers := fun attemptId => preparation.frame.attemptId = some attemptId }

def dispatchCause (attemptId : String) (marked : Bool) : Cause :=
  { Cause.none with dispatches := fun other => marked = true ∧ other = attemptId }

def observationCause (observation : ObservedAttempt) : Cause :=
  { Cause.none with observes := fun attemptId target =>
      attemptId = observation.attemptId.text ∧ observation.observation.targetState = some target }

theorem Changes.refl (db : ControlDatabase) : Changes nowMs cause db db := fun _ => .refl

theorem Changes.trans (h : Changes nowMs cause db db') (h' : Changes nowMs cause db' db'') :
    Changes nowMs cause db db'' := fun attemptId => (h attemptId).trans (h' attemptId)

theorem Changes.of_eq (h : ∀ attemptId, db'.attempt attemptId = db.attempt attemptId) :
    Changes nowMs cause db db' := fun attemptId => by rw [h attemptId]

theorem Changes.single (attemptId : String) (h : AttemptChanges nowMs cause attemptId (db.attempt attemptId)
    (db'.attempt attemptId))
    (hother : ∀ other, other ≠ attemptId → db'.attempt other = db.attempt other) : Changes nowMs cause db db' := by
  intro other
  by_cases heq : other = attemptId
  · rw [heq]
    exact h
  · rw [hother other heq]

section writes

variable {f : AssignmentRow → AssignmentRow} {workerId connectionId : String} {row : AssignmentRow}

theorem updateAssignment_attempt :
    (updateAssignment attemptId f db).attempt attemptId =
    ((db.attempt attemptId).1.map f, (db.attempt attemptId).2) := by
  unfold updateAssignment ControlDatabase.attempt
  cases h : db.assignments.lookup attemptId <;> simp [h]

theorem updateAssignment_other (hne : other ≠ attemptId) :
    (updateAssignment attemptId f db).attempt other = db.attempt other := by
  unfold updateAssignment ControlDatabase.attempt
  cases h : db.assignments.lookup attemptId <;> simp [AList.lookup_insert_ne hne]

theorem updateLease_attempt {f : LeaseRow → LeaseRow} :
    (updateLease attemptId f db).attempt attemptId = ((db.attempt attemptId).1, (db.attempt attemptId).2.map f) := by
  unfold updateLease ControlDatabase.attempt
  cases h : db.leases.lookup attemptId <;> simp [h]

theorem updateLease_other {f : LeaseRow → LeaseRow} (hne : other ≠ attemptId) :
    (updateLease attemptId f db).attempt other = db.attempt other := by
  unfold updateLease ControlDatabase.attempt
  cases h : db.leases.lookup attemptId <;> simp [AList.lookup_insert_ne hne]

@[simp] theorem updateConnection_attempt {f : ConnectionRow → ConnectionRow} :
    (updateConnection connectionId f db).attempt attemptId = db.attempt attemptId := by
  unfold updateConnection
  split <;> rfl

@[simp] theorem updateWorker_attempt {f : WorkerRow → WorkerRow} :
    (updateWorker workerId f db).attempt attemptId = db.attempt attemptId := by
  unfold updateWorker
  split <;> rfl

@[simp] theorem updateConnection_ledger {f : ConnectionRow → ConnectionRow} :
    (updateConnection connectionId f db).ledger = db.ledger := by
  unfold updateConnection
  split <;> rfl

@[simp] theorem updateWorker_ledger {f : WorkerRow → WorkerRow} :
    (updateWorker workerId f db).ledger = db.ledger := by
  unfold updateWorker
  split <;> rfl

theorem Changes.of_updateAssignment
    (hrow : db.assignments.lookup attemptId = some row) (hs : StateChange cause attemptId row.state (f row).state)
    (hc : row.SameContract (f row)) : Changes nowMs cause db (updateAssignment attemptId f db) := by
  refine .single attemptId ?_ fun other hne => updateAssignment_other hne
  rw [updateAssignment_attempt, ControlDatabase.attempt, hrow]
  exact .single (.moved hs hc)

theorem Changes.of_insertAssignment (hrow : db.assignments.lookup attemptId = none)
    (hs : row.state = .preparing) (ha : row.contract.attemptId.text = attemptId)
    (hi : row.assignmentId = row.contract.assignmentId.text) :
    Changes nowMs cause db (insertAssignment attemptId row db) := by
  refine .single attemptId ?_ fun other hne => ?_
  · have hafter : (insertAssignment attemptId row db).attempt attemptId =
        (some row, (db.attempt attemptId).2) := by
      simp [ControlDatabase.attempt, insertAssignment]
    rw [hafter, ControlDatabase.attempt, hrow]
    exact .single (.stored hs ha hi)
  · simp [ControlDatabase.attempt, insertAssignment, AList.lookup_insert_ne hne]

end writes

section operations

abbrev Changing {α : Type} (nowMs : Nat) (cause : Cause) (t : ControlTransaction α) (db : ControlDatabase) :
    Prop :=
  t.wp db (fun _ db' => Changes nowMs cause db db') fun _ db' => Changes nowMs cause db db'

variable {E : RepositoryError → ControlDatabase → Prop} {worker expired workerId replacement : String}
variable {atMs leaseDurationMs : Nat}

theorem findAssignment_wp {Q : AssignmentRow → ControlDatabase → Prop}
    (hq : ∀ row, db.assignments.lookup attemptId = some row → Q row db) (he : ∀ e, E e db) :
    (findAssignment attemptId).wp db Q E := by
  unfold findAssignment
  simp only [wp_bind, wp_read]
  split
  · exact he _
  · exact hq _ ‹_›

theorem assignmentIdentity_wp {assignmentId : Option String} {Q : AttemptState → ControlDatabase → Prop}
    (hq : ∀ row, db.assignments.lookup attemptId = some row → row.workerId = workerId → Q row.state db)
    (he : ∀ e, E e db) : (assignmentIdentity attemptId workerId assignmentId).wp db Q E := by
  unfold assignmentIdentity
  refine wp_bind.mpr (findAssignment_wp (fun row hrow => ?_) he)
  simp only [wp_ite, wp_raise, wp_pure]
  split
  · exact he _
  · rename_i hsame
    exact hq row hrow (not_not.mp (not_or.mp hsame).1)

theorem expireOne_changing : Changing nowMs cause (expireOne attemptId nowMs) db := by
  unfold expireOne
  simp only [wp_bind, wp_attempt, wp_write]
  refine ⟨fun now _ => ?_, fun _ _ => .refl db⟩
  refine .single attemptId ?_ fun other hne => ?_
  · rw [updateAssignment_attempt, updateLease_attempt]
    exact .single (.expired now)
  · rw [updateAssignment_other hne, updateLease_other hne]

theorem storeAssignment_changing {contract : AssignmentContract} :
    Changing nowMs cause (storeAssignment workerId contract atMs) db := by
  unfold storeAssignment
  simp only [wp_bind, wp_read]
  split
  · simp only [wp_ite, wp_pure, wp_raise, ite_self]
    exact .refl db
  · simp only [wp_bind, wp_attempt, wp_write, wp_pure]
    exact ⟨fun now _ => .of_insertAssignment ‹_› rfl rfl rfl, fun _ _ => .refl db⟩

theorem markAssignmentDispatchable_changing : (markAssignmentDispatchable attemptId workerId atMs).wp db
      (fun marked db' => Changes nowMs (dispatchCause attemptId marked) db db') fun _ _ => True := by
  unfold markAssignmentDispatchable
  refine wp_bind.mpr (assignmentIdentity_wp (fun row hrow _ => ?_) fun _ => trivial)
  simp only [wp_ite, wp_bind, wp_attempt, wp_write, wp_pure]
  split
  · rename_i hs
    refine ⟨fun now _ => .of_updateAssignment hrow ?_ ⟨rfl, rfl, rfl⟩, fun _ _ => trivial⟩
    exact hs ▸ .dispatchable ⟨rfl, rfl⟩
  · exact .refl db

theorem deferAssignmentPreparation_changing {retryAtMs : Nat} :
    Changing nowMs cause (deferAssignmentPreparation attemptId workerId retryAtMs) db := by
  unfold deferAssignmentPreparation
  simp only [wp_bind, wp_attempt, wp_read]
  refine ⟨fun retry _ => ?_, fun _ _ => .refl db⟩
  split
  · exact .refl db
  · rename_i row hrow
    simp only [wp_ite, wp_bind, wp_write, wp_pure]
    split
    · rename_i hs
      exact .of_updateAssignment hrow (by simpa [hs.2] using StateChange.deferred) ⟨rfl, rfl, rfl⟩
    · exact .refl db

theorem requestCancellation_changing {reason : String} :
    Changing nowMs cause (requestCancellation attemptId reason atMs) db := by
  unfold requestCancellation
  refine wp_bind.mpr (findAssignment_wp (fun row hrow => ?_) fun _ => .refl db)
  simp only [wp_ite, wp_bind, wp_attempt, wp_write, wp_pure]
  split
  · exact .refl db
  · rename_i hout
    refine ⟨fun now _ => .of_updateAssignment hrow ?_ ⟨rfl, rfl, rfl⟩, fun _ _ => .refl db⟩
    simp only
    cases hs : row.state <;> simp only [hs, cancelledState, not_true] at hout ⊢
    · exact .cancelledBeforeSend (.inl rfl)
    · exact .cancelledBeforeSend (.inr rfl)
    all_goals exact .cancelRequested rfl

theorem applyObservation_changing {row : AssignmentRow} {leaseExpiry : Option Nat} {target : Option AttemptState}
    (hrow : db.assignments.lookup attemptId = some row) (ho : ∀ s, target = some s → cause.observes attemptId s) :
    Changing nowMs cause (applyObservation attemptId row.state leaseExpiry nowMs target) db := by
  unfold applyObservation
  split
  · split
    all_goals exact .refl db
  · simp only [wp_ite, wp_bind, wp_attempt, wp_write, wp_pure, wp_raise]
    split
    · exact wp_mono expireOne_changing (fun _ _ h => h) fun _ _ h => h
    · split
      · exact .refl db
      · split
        · rename_i hallowed
          exact ⟨fun now _ => .of_updateAssignment hrow (.observed (ho _ rfl) hallowed) ⟨rfl, rfl, rfl⟩,
            fun _ _ => .refl db⟩
        · exact .refl db

theorem observeAttempt_changing {observation : ObservedAttempt} :
    Changing observation.observedAtMs (observationCause observation) (observeAttempt observation) db := by
  unfold observeAttempt
  refine wp_bind.mpr (assignmentIdentity_wp (fun row hrow _ => ?_) fun _ => .refl db)
  simp only [wp_bind, wp_read]
  have happlied : ∀ leaseExpiry, Changing observation.observedAtMs (observationCause observation)
      (applyObservation observation.attemptId.text row.state leaseExpiry observation.observedAtMs
        observation.observation.targetState) db :=
    fun _ => applyObservation_changing hrow fun _ h => ⟨rfl, h⟩
  refine wp_mono (happlied _) (fun disposition db' h => ?_) fun _ _ h => h
  simp only [wp_attempt, wp_write, wp_pure]
  exact ⟨fun now _ => h.trans (.of_eq fun _ => rfl), fun _ _ => h⟩

theorem renewLease_changing : Changing nowMs cause (renewLease workerId nowMs leaseDurationMs attemptId) db := by
  unfold renewLease
  refine wp_bind.mpr (assignmentIdentity_wp (fun row hrow _ => ?_) fun _ => .refl db)
  simp only [wp_ite, wp_pure, wp_bind, wp_read]
  split
  · exact .refl db
  · split
    · exact .refl db
    · rename_i lease hlease
      simp only [wp_ite, wp_bind, wp_attempt, wp_write]
      split
      · exact expireOne_changing
      · rename_i hlive
        refine ⟨fun renewed _ => ⟨fun expires _ => ?_, fun _ _ => .refl db⟩, fun _ _ => .refl db⟩
        refine .single attemptId ?_ fun other hne => updateLease_other hne
        rw [updateLease_attempt, ControlDatabase.attempt, hrow, hlease]
        exact .single (.renewed renewed expires (by simpa using (not_or.mp hlive).1) (by omega))

theorem renewActiveLeases_changing {attemptIds : List String} :
    Changing nowMs cause (renewActiveLeases workerId attemptIds nowMs leaseDurationMs) db :=
  wp_forEach Changes.refl Changes.trans (fun _ _ => renewLease_changing) attemptIds

theorem expireLeases_changing : Changing nowMs cause (expireLeases nowMs) db := by
  unfold expireLeases
  simp only [wp_bind, wp_attempt, wp_read, wp_pure]
  refine ⟨fun now _ => ?_, fun _ _ => .refl db⟩
  exact wp_forEach Changes.refl Changes.trans (fun _ _ => expireOne_changing) _

theorem insertReassignment_changing {original : AssignmentRecord} :
    Changing nowMs cause (insertReassignment original expired worker replacement atMs) db := by
  unfold insertReassignment
  simp only [wp_bind, wp_read, wp_ite, wp_raise]
  split
  · exact .refl db
  · rename_i habsent
    split
    · exact .refl db
    · rename_i attemptId hid
      have hattempt : attemptId.text = replacement := ValidatedId.tryFrom_text hid
      simp only [wp_bind, wp_attempt, wp_write, wp_ite, wp_raise, wp_pure]
      refine ⟨fun now _ => ?_, fun _ _ => .refl db⟩
      have hinsert : ∀ row : AssignmentRow, row.state = .preparing →
          row.contract.attemptId.text = replacement → row.assignmentId = row.contract.assignmentId.text →
          Changes nowMs cause db (insertAssignment replacement row db) :=
        fun row hs => .of_insertAssignment (by simpa using habsent) hs
      split
      · exact hinsert _ rfl hattempt rfl
      · exact (hinsert _ rfl hattempt rfl).trans (.of_eq fun _ => rfl)

theorem reassignExpired_changing : Changing nowMs cause (reassignExpired expired worker replacement atMs) db := by
  have hexisting : (existingReassignment expired worker replacement).wp db (fun _ db' => db' = db)
      fun _ db' => db' = db := by
    unfold existingReassignment
    simp only [wp_bind, wp_read]
    split
    · rfl
    · refine wp_ite.mpr ?_
      split
      · exact Eq.refl db
      · exact wp_bind.mpr (findAssignment_wp (fun _ _ => rfl) fun _ => rfl)
  unfold reassignExpired
  refine wp_bind.mpr (wp_mono hexisting ?_ fun _ _ h => .of_eq fun _ => by rw [h])
  rintro found _ rfl
  cases found with
  | some assignment => exact .refl _
  | none =>
    refine wp_bind.mpr (findAssignment_wp (fun original _ => ?_) fun _ => .refl _)
    simp only [wp_ite, wp_raise, wp_bind, wp_pure]
    split
    · exact .refl _
    · split
      · exact .refl _
      · exact wp_mono insertReassignment_changing (fun _ _ h => h) fun _ _ h => h

end operations

section delivery

variable {preparation : AssignmentDeliveryPreparation} {row : AssignmentRow}

def expiredDatabase (attemptId : String) (nowMs : Nat) (db : ControlDatabase) : ControlDatabase :=
  updateAssignment attemptId (expiredRow · nowMs) (updateLease attemptId (expiredLease · nowMs) db)

/-- A lease that was due when the delivery was prepared, and its expiry. -/
def ExpiryFound (preparation : AssignmentDeliveryPreparation) (db db' : ControlDatabase) : Prop :=
  ∃ attemptId lease, preparation.frame.attemptId = some attemptId ∧ db.leases.lookup attemptId = some lease ∧
    lease.expiresAtMs ≤ preparation.nowMs ∧ db' = expiredDatabase attemptId preparation.nowMs db

theorem Changes.delivery (f : AssignmentRow → AssignmentRow) (granted : LeaseRow)
    (ha : preparation.frame.attemptId = some attemptId) (hrow : db.assignments.lookup attemptId = some row)
    (hs : row.state.isReplayable = true)
    (hl : ∀ lease, db.leases.lookup attemptId = some lease → preparation.nowMs < lease.expiresAtMs)
    (hf : (f row).state = if row.state = .dispatchable then .sent else row.state) (hc : row.SameContract (f row))
    (hn : granted.expiredAtMs = none) :
    Changes preparation.nowMs (deliveryCause preparation) db
      (upsertLease attemptId granted (updateAssignment attemptId f db)) := by
  refine .single attemptId ?_ fun other hne => ?_
  · have hafter : ∃ lease : LeaseRow, lease.expiredAtMs = none ∧
        (upsertLease attemptId granted (updateAssignment attemptId f db)).attempt attemptId =
        (some (f row), some lease) := by
      have hassignment : (updateAssignment attemptId f db).assignments.lookup attemptId = some (f row) := by
        simp [updateAssignment, hrow]
      simp only [upsertLease, ControlDatabase.attempt, hassignment, AList.lookup_insert]
      refine ⟨_, ?_, rfl⟩
      split
      · exact hn
      · rfl
    obtain ⟨lease, hlease, hafter⟩ := hafter
    rw [hafter, ControlDatabase.attempt, hrow]
    exact .single (.delivered ha hs hf hc hl hlease)
  · refine Eq.trans ?_ (updateAssignment_other (f := f) hne)
    simp [upsertLease, ControlDatabase.attempt, AList.lookup_insert_ne hne]

theorem toI64_eq {value stored : Nat} (h : toI64 value = .ok stored) : stored = value := by
  unfold toI64 at h
  split at h
  · cases h
    rfl
  · cases h

theorem toI64_not_committed {value : Nat} {e : RepositoryError} (h : toI64 value = .error e) :
    commitsExpiry e = false := by
  unfold toI64 at h
  split at h
  · cases h
  · cases h
    rfl

variable {Q : Unit → ControlDatabase → Prop} {E : RepositoryError → ControlDatabase → Prop}

theorem rejectExpiredLease_wp
    (hq : (∀ lease, db.leases.lookup attemptId = some lease → nowMs < lease.expiresAtMs) → Q () db)
    (hx : ∀ lease, db.leases.lookup attemptId = some lease → lease.expiresAtMs ≤ nowMs →
      E (.invalidTransition .leaseExpired .sent) (expiredDatabase attemptId nowMs db))
    (he : ∀ e, commitsExpiry e = false → E e db) : (rejectExpiredLease attemptId nowMs).wp db Q E := by
  unfold rejectExpiredLease
  simp only [wp_bind, wp_read]
  split
  · rename_i hnone
    exact hq fun lease h => by simp [hnone] at h
  · rename_i lease hlease
    simp only [wp_ite, wp_bind, wp_raise, wp_pure]
    split
    · rename_i hdue
      unfold expireOne
      simp only [wp_bind, wp_attempt, wp_write]
      refine ⟨fun now hnow => ?_, fun e h => he e (toI64_not_committed h)⟩
      rw [toI64_eq hnow]
      exact hx lease hlease hdue
    · rename_i hlive
      refine hq fun found hfound => ?_
      obtain rfl : lease = found := Option.some.inj (hlease.symm.trans hfound)
      omega

theorem insertServerFrame_wp {frame : ServerOutboxFrame}
    (hq : ∀ rows, Q () { db with outbox := rows }) (he : ∀ e, commitsExpiry e = false → E e db) :
    (insertServerFrame frame nowMs).wp db Q E := by
  unfold insertServerFrame
  simp only [wp_bind, wp_attempt, wp_read, wp_ite, wp_raise, wp_write]
  refine ⟨fun _ _ => ⟨fun now _ => ?_, fun e h => he e (toI64_not_committed h)⟩,
    fun e h => he e (toI64_not_committed h)⟩
  split
  · exact he _ rfl
  · exact hq _

theorem advanceConnection_wp (hq : ∀ f, Q () (updateConnection preparation.frame.connectionId f db))
    (he : ∀ e, commitsExpiry e = false → E e db) : (advanceConnection preparation).wp db Q E := by
  unfold advanceConnection
  simp only [wp_bind, wp_attempt, wp_read, wp_ite, wp_raise, wp_write]
  refine ⟨fun _ _ => ⟨fun _ _ => ⟨fun _ _ => ?_, ?_⟩, ?_⟩, ?_⟩
  · split
    · exact hq _
    · exact he _ rfl
  all_goals exact fun e h => he e (toI64_not_committed h)

theorem grantDelivery_wp {contract : AssignmentContract}
    (ha : preparation.frame.attemptId = some attemptId) (hrow : db.assignments.lookup attemptId = some row)
    (hs : row.state.isReplayable = true)
    (hl : ∀ lease, db.leases.lookup attemptId = some lease → preparation.nowMs < lease.expiresAtMs) :
    (grantDelivery preparation attemptId contract row.state).wp db
      (fun _ db' => Changes preparation.nowMs (deliveryCause preparation) db db')
      fun e _ => commitsExpiry e = false := by
  unfold grantDelivery
  simp only [wp_bind, wp_attempt, wp_write]
  refine ⟨fun now _ => ⟨fun expires _ => ?_, fun _ => toI64_not_committed⟩, fun _ => toI64_not_committed⟩
  refine insertServerFrame_wp (fun rows => ?_) fun _ h => h
  refine advanceConnection_wp (fun f => ?_) fun _ h => h
  have hdelivery := Changes.delivery (fun stored => { stored with
    state := if row.state = .dispatchable then .sent else row.state, updatedAtMs := now, lastSentAtMs := some now })
    ⟨preparation.leaseId, preparation.frame.workerId, now, now, expires, none⟩ ha hrow hs hl rfl ⟨rfl, rfl, rfl⟩ rfl
  refine hdelivery.trans (.of_eq fun other => ?_)
  rw [updateWorker_attempt, updateConnection_attempt]
  rfl

theorem prepare_wp : (prepare preparation).wp db
    (fun _ db' => Changes preparation.nowMs (deliveryCause preparation) db db')
    (fun e db' => commitsExpiry e = true → db' = db ∨ ExpiryFound preparation db db') := by
  unfold prepare
  split
  · exact fun _ => .inl rfl
  · rename_i attemptId hattempt
    refine wp_ite.mpr ?_
    split
    · exact fun _ => .inl rfl
    · refine wp_bind.mpr ?_
      unfold loadAssignment
      refine wp_bind.mpr (findAssignment_wp (fun row hrow => ?_) fun _ _ => .inl rfl)
      simp only [wp_ite, wp_raise, wp_pure]
      split
      · exact fun _ => .inl trivial
      · split
        · exact fun _ => .inl trivial
        · rename_i hreplayable
          refine wp_bind.mpr (rejectExpiredLease_wp (fun hlive => ?_) (fun lease hlease hdue _ => ?_)
            fun _ _ _ => .inl rfl)
          · refine wp_mono (grantDelivery_wp hattempt hrow (by simpa using hreplayable) hlive) (fun _ _ h => h) ?_
            intro e _ hrolled hk
            rw [hrolled] at hk
            cases hk
          · exact .inr ⟨attemptId, lease, hattempt, hlease, hdue, rfl⟩

end delivery

section unrelated

theorem Changing.of_keeps {α : Type} {t : ControlTransaction α} (h : Keeps ledger t) : Changing nowMs cause t db :=
  wp_mono h.wp (fun _ _ hl => .of_eq (congrFun (congrArg Prod.fst hl))) fun _ _ hl =>
    .of_eq (congrFun (congrArg Prod.fst hl))

variable {atMs lastServer lastWorker acknowledged : Nat} {connectionId : String}

theorem insertServerFrame_keeps {frame : ServerOutboxFrame} : Keeps ledger (insertServerFrame frame atMs) := by
  apply keeps_bind keeps_attempt
  intro _
  apply keeps_bind keeps_attempt
  intro _
  apply keeps_bind keeps_read
  exact fun _ => keeps_ite keeps_raise (keeps_write fun _ => rfl)

theorem advanceConnection_keeps : Keeps ledger (advanceConnection preparation) := by
  apply keeps_bind keeps_attempt
  intro _
  apply keeps_bind keeps_attempt
  intro _
  apply keeps_bind keeps_attempt
  intro _
  apply keeps_bind keeps_read
  exact fun _ => keeps_ite (keeps_write fun _ => updateConnection_ledger) keeps_raise

theorem registerWorker_keeps {registration : WorkerRegistration} {connection : ConnectionRegistration} :
    Keeps ledger (registerWorker registration connection) := by
  apply keeps_bind keeps_attempt
  intro now
  apply keeps_bind
  · exact keeps_write fun _ => rfl
  intro _
  apply keeps_bind keeps_read
  intro db
  exact keeps_ite keeps_raise (keeps_ite keeps_raise (keeps_write fun _ => rfl))

theorem updateSequences_keeps : Keeps ledger (updateSequences connectionId lastWorker lastServer acknowledged) := by
  apply keeps_bind keeps_attempt
  intro _
  apply keeps_bind keeps_attempt
  intro _
  apply keeps_bind keeps_attempt
  exact fun _ => keeps_write fun _ => updateConnection_ledger

theorem touchWorker_keeps : Keeps ledger (touchWorker connectionId atMs) := by
  apply keeps_bind keeps_attempt
  intro now
  apply keeps_bind keeps_read
  intro db
  split
  · exact keeps_pure
  · exact keeps_write fun _ => updateWorker_ledger

theorem disconnect_keeps : Keeps ledger (disconnect connectionId atMs) := by
  apply keeps_bind keeps_attempt
  exact fun _ => keeps_write fun _ => updateConnection_ledger

theorem compactServerFrames_keeps {through : Nat} : Keeps ledger (compactServerFrames connectionId through atMs) := by
  apply keeps_bind keeps_attempt
  intro _
  apply keeps_bind keeps_attempt
  intro _
  apply keeps_bind
  · exact keeps_write fun _ => rfl
  intro _
  apply keeps_bind keeps_read
  intro db
  exact keeps_bind (keeps_write fun _ => rfl) fun _ => keeps_pure

theorem pruneOrphanedServerFrames_keeps : Keeps ledger (pruneOrphanedServerFrames atMs) := by
  apply keeps_bind keeps_attempt
  intro _
  apply keeps_bind keeps_read
  intro db
  exact keeps_bind (keeps_write fun _ => rfl) fun _ => keeps_pure

theorem updateConnectionSequences_keeps :
    (updateConnectionSequences connectionId lastWorker lastServer acknowledged atMs db).1.ledger = db.ledger := by
  have hfirst := updateSequences_keeps.run (t := updateSequences connectionId lastWorker lastServer acknowledged) db
  unfold updateConnectionSequences
  split
  · rename_i heq
    rwa [heq] at hfirst
  · rename_i heq
    rw [heq] at hfirst
    exact (touchWorker_keeps.run _).trans hfirst

end unrelated

end AlloyPort
