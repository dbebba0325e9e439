import AlloyPort.Worker.Journal

/-! What the journal's operations can do to an attempt, its device lease and its preflight, and what
follows for whole histories of the journal. -/

namespace AlloyPort

open Database Transaction JournalDatabase SqliteAttemptStore

structure LocalEntry where
  attempt : Option LocalAttemptRow
  lease : Option DeviceLeaseRow
  preflight : Option DeviceObservation

def JournalDatabase.entry (db : JournalDatabase) (attemptId : String) : LocalEntry :=
  ⟨db.attempts.lookup attemptId, db.deviceLeases.lookup attemptId, db.devicePreflights.lookup attemptId⟩

structure LeaseCause where
  acquires : String → Prop
  releases : String → Prop

def LeaseCause.none : LeaseCause := ⟨fun _ => False, fun _ => False⟩

inductive LocalChange (db : JournalDatabase) (cause : LeaseCause) (attemptId : String) :
    LocalEntry → LocalEntry → Prop where
  | admitted {lease preflight} (row : LocalAttemptRow) (hp : row.phase = .accepted) (hf : row.finished = none)
      (ha : row.assignment.attemptId.text = attemptId) (hi : row.assignmentId = row.assignment.assignmentId.text) :
      LocalChange db cause attemptId ⟨none, lease, preflight⟩ ⟨some row, lease, preflight⟩
  | running {row lease preflight} (atMs : Nat) (hp : row.phase = .accepted) :
      LocalChange db cause attemptId ⟨some row, lease, preflight⟩
        ⟨some { row with phase := .running, updatedAtMs := atMs }, lease, preflight⟩
  | finished {row lease preflight} (result : StoredFinished) (atMs : Nat) (hp : row.phase ≠ .finished) :
      LocalChange db cause attemptId ⟨some row, lease, preflight⟩
        ⟨some { row with phase := .finished, updatedAtMs := atMs, finished := some result }, lease, preflight⟩
  | acquired {row lease preflight} (deviceId : String) (atMs : Nat) (he : cause.acquires attemptId)
      (hp : row.phase ≠ .finished) (hl : ∀ held, lease = some held → held.deviceId = deviceId ∧
        held.releasedAtMs ≠ none)
      (ho : db.deviceOwner deviceId = none) :
      LocalChange db cause attemptId ⟨some row, lease, preflight⟩ ⟨some row, some ⟨deviceId, atMs, none⟩, preflight⟩
  | released {row lease preflight} (atMs : Nat) (he : cause.releases attemptId) (hl : lease.releasedAtMs = none) :
      LocalChange db cause attemptId ⟨row, some lease, preflight⟩
        ⟨row, some { lease with releasedAtMs := some atMs }, preflight⟩
  | preflighted {row lease} (observation : DeviceObservation) (hl : lease.deviceId = observation.deviceId) :
      LocalChange db cause attemptId ⟨some row, some lease, none⟩ ⟨some row, some lease, some observation⟩

inductive LocalStep (db : JournalDatabase) (cause : LeaseCause) (db' : JournalDatabase) : Prop where
  | same (h : db'.entry = db.entry)
  | changed (attemptId : String) (h : LocalChange db cause attemptId (db.entry attemptId) (db'.entry attemptId))
      (hother : ∀ other, other ≠ attemptId → db'.entry other = db.entry other)

variable {db db' db'' : JournalDatabase} {cause : LeaseCause} {e : JournalEvent} {attemptId other : String}

section writes

variable {f : LocalAttemptRow → LocalAttemptRow} {row : DeviceLeaseRow}

theorem updateAttempt_entry : (updateAttempt attemptId f db).entry attemptId =
      { db.entry attemptId with attempt := (db.entry attemptId).attempt.map f } := by
  unfold updateAttempt entry
  cases h : db.attempts.lookup attemptId <;> simp [h]

theorem updateAttempt_other (hne : other ≠ attemptId) :
    (updateAttempt attemptId f db).entry other = db.entry other := by
  unfold updateAttempt entry
  cases h : db.attempts.lookup attemptId <;> simp [AList.lookup_insert_ne hne]

theorem putDeviceLease_entry :
    (putDeviceLease attemptId row db).entry attemptId = { db.entry attemptId with lease := some row } := by
  simp [putDeviceLease, entry]

theorem putDeviceLease_other (hne : other ≠ attemptId) :
    (putDeviceLease attemptId row db).entry other = db.entry other := by
  simp [putDeviceLease, entry, AList.lookup_insert_ne hne]

end writes

section operations

variable {atMs admittedAtMs : Nat} {deviceId connectionId : String} {row : LocalAttemptRow}
variable {assignment : StoredAssignment} {finished : StoredFinished}

theorem enqueueOutboxTransaction_keeps {message : WorkerOutboxMessage} :
    Keeps entry (enqueueOutboxTransaction message atMs) := by
  refine keeps_bind keeps_read fun db => ?_
  split
  · exact keeps_ite keeps_raise keeps_pure
  · refine keeps_bind keeps_attempt fun now => keeps_bind (keeps_write fun _ => rfl) fun _ => keeps_pure

theorem deleteMessages_keeps (messageIds : List String) : Keeps entry (deleteMessages messageIds) := by
  induction messageIds with
  | nil => exact keeps_pure
  | cons messageId rest ih =>
    exact keeps_bind keeps_read fun _ => keeps_bind (keeps_write fun _ => rfl) fun _ =>
      keeps_bind ih fun _ => keeps_pure

theorem acknowledgeOutbox_keeps {through : Nat} : Keeps entry (acknowledgeOutbox connectionId through) :=
  keeps_bind keeps_attempt fun _ => keeps_bind keeps_read fun _ => deleteMessages_keeps _

theorem recordOutboxDelivery_keeps {messageId : String} {sequence : Nat} :
    Keeps entry (recordOutboxDelivery connectionId sequence messageId atMs) := by
  refine keeps_bind keeps_attempt fun _ => keeps_bind keeps_attempt fun _ => keeps_bind keeps_read fun _ => ?_
  exact keeps_ite keeps_raise (keeps_ite keeps_raise (keeps_write fun _ => rfl))

theorem pruneOutboxDeliveries_keeps {olderThanMs : Nat} : Keeps entry (pruneOutboxDeliveries olderThanMs) :=
  keeps_bind keeps_attempt fun _ => keeps_bind keeps_read fun _ =>
    keeps_bind (keeps_write fun _ => rfl) fun _ => keeps_pure

theorem bindWorker_keeps {workerId : String} : Keeps entry (bindWorker workerId) := by
  refine keeps_bind keeps_read fun db => ?_
  split
  · exact keeps_ite keeps_raise keeps_pure
  · exact keeps_write fun _ => rfl

def Local (cause : LeaseCause) {α : Type} (t : JournalTransaction α) (db : JournalDatabase) : Prop :=
  t.wp db (fun _ db' => LocalStep db cause db') fun _ _ => True

theorem LocalStep.same_after (h : LocalStep db cause db') (heq : db''.entry = db'.entry) : LocalStep db cause db'' := by
  cases h with
  | same hd => exact .same (heq.trans hd)
  | changed attemptId hc hother =>
    refine .changed attemptId ?_ fun other hne => ?_
    · rw [heq]
      exact hc
    · rw [heq]
      exact hother other hne

theorem Local.bind {α β : Type} {t : JournalTransaction α} {f : α → JournalTransaction β} (h : Local cause t db)
    (hf : ∀ a, Keeps entry (f a)) : Local cause (t >>= f) db := by
  refine wp_bind.mpr (wp_mono h (fun a db' hd => ?_) fun _ _ _ => trivial)
  exact wp_mono (hf a).wp (fun _ _ heq => hd.same_after heq) fun _ _ _ => trivial

theorem wp_findAttempt {Q : LocalAttemptRow → JournalDatabase → Prop} {E : AttemptStoreError → JournalDatabase → Prop}
    (hs : ∀ row, db.attempts.lookup attemptId = some row → Q row db)
    (hn : db.attempts.lookup attemptId = none → E (.notFound attemptId) db) : (findAttempt attemptId).wp db Q E := by
  unfold findAttempt
  rw [wp_bind, wp_read]
  cases h : db.attempts.lookup attemptId with
  | none => exact hn h
  | some row => exact hs row h

theorem durableIdentity_keeps : Keeps entry (durableIdentity row attemptId) := by
  unfold durableIdentity
  split
  · exact keeps_raise
  · split
    · exact keeps_raise
    · exact keeps_pure

theorem announce_keeps {message : AssignmentId → AttemptId → WorkerOutboxMessage} :
    Keeps entry (announce row attemptId message atMs) :=
  keeps_bind durableIdentity_keeps fun _ => keeps_bind enqueueOutboxTransaction_keeps fun _ => keeps_pure

section frames

variable {γ : Type} {π : JournalDatabase → γ}

theorem findAttempt_keeps : Keeps π (findAttempt attemptId) := by
  refine keeps_bind keeps_read fun db => ?_
  split
  · exact keeps_raise
  · exact keeps_pure

variable {atMs : Nat}

theorem markRunning_keeps (hupdate : ∀ f db, π (updateAttempt attemptId f db) = π db)
    (hannounce : ∀ row message, Keeps π (announce row attemptId message atMs)) :
    Keeps π (markRunning attemptId atMs) := by
  refine keeps_bind findAttempt_keeps fun row => keeps_bind ?_ fun _ => hannounce row _
  unfold enterRunning
  split
  · exact keeps_bind keeps_attempt fun _ => keeps_write (hupdate _)
  · exact keeps_pure
  · exact keeps_raise

theorem markFinished_keeps {finished : StoredFinished} (hupdate : ∀ f db, π (updateAttempt attemptId f db) = π db)
    (hannounce : ∀ row message, Keeps π (announce row attemptId message atMs)) :
    Keeps π (markFinished attemptId finished atMs) := by
  refine keeps_bind findAttempt_keeps fun row => keeps_bind ?_ fun _ => hannounce row _
  refine keeps_ite ?_ (keeps_bind keeps_attempt fun _ => keeps_write (hupdate _))
  split
  · exact keeps_raise
  · exact keeps_ite keeps_raise keeps_pure

theorem acquireDeviceLease_keeps {attemptId : AttemptId} {deviceId : String}
    (hput : ∀ row db, π (putDeviceLease attemptId.text row db) = π db) :
    Keeps π (acquireDeviceLease attemptId deviceId atMs) := by
  have hgrant : ∀ db, Keeps π (acquireDeviceLease.grant attemptId deviceId atMs db) := by
    intro db
    unfold acquireDeviceLease.grant
    split
    · exact keeps_raise
    · exact keeps_bind keeps_attempt fun _ => keeps_bind (keeps_write (hput _)) fun _ => keeps_pure
  refine keeps_ite keeps_raise (keeps_bind findAttempt_keeps fun row =>
    keeps_ite keeps_raise (keeps_bind keeps_read fun db => ?_))
  split
  · exact keeps_ite keeps_pure (keeps_ite keeps_raise (hgrant db))
  · exact hgrant db

theorem releaseDeviceLease_keeps {attemptId : AttemptId}
    (hput : ∀ row db, π (putDeviceLease attemptId.text row db) = π db) :
    Keeps π (releaseDeviceLease attemptId atMs) := by
  refine keeps_bind keeps_read fun db => ?_
  split
  · exact keeps_raise
  · refine keeps_ite keeps_pure (keeps_bind keeps_attempt fun _ => ?_)
    exact keeps_bind (keeps_write (hput _)) fun _ => keeps_pure

theorem recordDevicePreflight_keeps {attemptId : AttemptId} {observation : DeviceObservation}
    (hput : ∀ db, π (putDevicePreflight attemptId.text observation db) = π db) :
    Keeps π (recordDevicePreflight attemptId observation) := by
  refine keeps_bind keeps_read fun db => ?_
  split
  · exact keeps_ite keeps_pure keeps_raise
  · split
    · refine keeps_ite keeps_raise (keeps_ite keeps_raise (keeps_ite keeps_raise ?_))
      exact keeps_bind (keeps_write hput) fun _ => keeps_pure
    · exact keeps_raise

end frames

theorem LocalStep.of_updateAttempt {f : LocalAttemptRow → LocalAttemptRow}
    (hrow : db.attempts.lookup attemptId = some row)
    (hc : ∀ lease preflight, LocalChange db cause attemptId ⟨some row, lease, preflight⟩ ⟨some (f row), lease,
      preflight⟩) :
    LocalStep db cause (updateAttempt attemptId f db) := by
  refine .changed attemptId ?_ fun other hne => updateAttempt_other hne
  rw [updateAttempt_entry, entry, hrow]
  exact hc _ _

theorem LocalStep.of_putDeviceLease {row : DeviceLeaseRow}
    (hc : LocalChange db cause attemptId (db.entry attemptId) { db.entry attemptId with lease := some row }) :
    LocalStep db cause (putDeviceLease attemptId row db) := by
  refine .changed attemptId ?_ fun other hne => putDeviceLease_other hne
  rw [putDeviceLease_entry]
  exact hc

theorem admissionOutcome_local : Local cause (admissionOutcome assignment admittedAtMs) db := by
  unfold Local admissionOutcome
  rw [wp_bind, wp_read]
  cases h : db.attempts.lookup assignment.attemptId.text with
  | some existing =>
    simp only [wp_ite, wp_raise, wp_pure]
    split
    · trivial
    · exact .same rfl
  | none =>
    simp only [wp_bind, wp_attempt, wp_write, wp_pure]
    refine ⟨fun now _ => ?_, fun _ _ => trivial⟩
    refine .changed assignment.attemptId.text ?_ fun other hne => ?_
    · simp only [entry, insertAttempt, AList.lookup_insert, h]
      exact .admitted _ rfl rfl rfl rfl
    · simp [entry, insertAttempt, AList.lookup_insert_ne hne]

theorem admit_local : Local cause (admitAttempt assignment admittedAtMs) db :=
  admissionOutcome_local.bind fun _ => keeps_bind enqueueOutboxTransaction_keeps fun _ => keeps_pure

theorem enterRunning_local (hrow : db.attempts.lookup attemptId = some row) :
    Local cause (enterRunning row attemptId atMs) db := by
  unfold Local enterRunning
  cases hphase : row.phase with
  | finished => trivial
  | running => exact .same rfl
  | accepted =>
    simp only [wp_bind, wp_attempt, wp_write]
    refine ⟨fun now _ => ?_, fun _ _ => trivial⟩
    exact .of_updateAttempt hrow fun _ _ => .running now hphase

theorem markRunning_local : Local cause (markRunning attemptId atMs) db := by
  refine wp_bind.mpr (wp_findAttempt (fun row hrow => ?_) fun _ => trivial)
  exact (enterRunning_local hrow).bind fun _ => announce_keeps

theorem enterFinished_local
    (hrow : db.attempts.lookup attemptId = some row) : Local cause (enterFinished row attemptId finished atMs) db := by
  unfold Local enterFinished
  rw [wp_ite]
  split
  · cases row.finished with
    | none => trivial
    | some existing =>
      simp only [wp_ite, wp_raise, wp_pure]
      split
      · trivial
      · exact .same rfl
  · rename_i hphase
    simp only [wp_bind, wp_attempt, wp_write]
    refine ⟨fun now _ => ?_, fun _ _ => trivial⟩
    exact .of_updateAttempt hrow fun _ _ => .finished finished now hphase

theorem markFinished_local : Local cause (markFinished attemptId finished atMs) db := by
  refine wp_bind.mpr (wp_findAttempt (fun row hrow => ?_) fun _ => trivial)
  exact (enterFinished_local hrow).bind fun _ => announce_keeps

def acquireCause (attemptId : AttemptId) : LeaseCause :=
  { LeaseCause.none with acquires := fun other => other = attemptId.text }

def releaseCause (attemptId : AttemptId) : LeaseCause :=
  { LeaseCause.none with releases := fun other => other = attemptId.text }

theorem grant_local {attemptId : AttemptId}
    (hrow : db.attempts.lookup attemptId.text = some row) (hp : row.phase ≠ .finished)
    (hl : ∀ held, db.deviceLeases.lookup attemptId.text = some held →
      held.deviceId = deviceId ∧ held.releasedAtMs ≠ none) :
    Local (acquireCause attemptId) (acquireDeviceLease.grant attemptId deviceId atMs db) db := by
  unfold Local acquireDeviceLease.grant
  cases ho : db.deviceOwner deviceId with
  | some owner => trivial
  | none =>
    simp only [wp_bind, wp_attempt, wp_write, wp_pure]
    refine ⟨fun now _ => .of_putDeviceLease ?_, fun _ _ => trivial⟩
    rw [entry, hrow]
    exact .acquired deviceId now rfl hp hl ho

/-- A device is acquired only for an attempt that has not finished. -/
theorem acquireDeviceLease_spec {attemptId : AttemptId} :
    (acquireDeviceLease attemptId deviceId atMs).wp db (fun _ db' => LocalStep db (acquireCause attemptId) db' ∧
      ∃ row, db.attempts.lookup attemptId.text = some row ∧ row.phase ≠ .finished) fun _ _ => True := by
  unfold acquireDeviceLease
  rw [wp_ite]
  split
  · trivial
  · refine wp_bind.mpr (wp_findAttempt (fun row hrow => ?_) fun _ => trivial)
    rw [wp_ite]
    split
    · trivial
    · rename_i hp
      refine wp_mono (Q := fun _ db' => LocalStep db (acquireCause attemptId) db') (E := fun _ _ => True) ?_
        (fun _ _ hstep => ⟨hstep, row, hrow, hp⟩) fun _ _ _ => trivial
      rw [wp_bind, wp_read]
      cases hl : db.deviceLeases.lookup attemptId.text with
      | none => exact grant_local hrow hp fun held hheld => by rw [hl] at hheld; cases hheld
      | some existing =>
        simp only [wp_ite, wp_raise, wp_pure]
        split
        · exact .same rfl
        · rename_i hactive
          split
          · trivial
          · rename_i hdevice
            refine grant_local hrow hp fun held hheld => ?_
            rw [hl] at hheld
            cases hheld
            have hdevice := not_not.mp hdevice
            exact ⟨hdevice, fun hnone => hactive ⟨hdevice, hnone⟩⟩

theorem releaseDeviceLease_local {attemptId : AttemptId} :
    Local (releaseCause attemptId) (releaseDeviceLease attemptId atMs) db := by
  unfold Local releaseDeviceLease
  rw [wp_bind, wp_read]
  cases hl : db.deviceLeases.lookup attemptId.text with
  | none => trivial
  | some lease =>
    simp only [wp_ite, wp_bind, wp_attempt, wp_write, wp_pure]
    split
    · exact .same rfl
    · rename_i hactive
      refine ⟨fun now _ => .of_putDeviceLease ?_, fun _ _ => trivial⟩
      rw [entry, hl]
      exact .released now rfl (not_not.mp hactive)

theorem recordDevicePreflight_local {attemptId : AttemptId} {observation : DeviceObservation} :
    Local cause (recordDevicePreflight attemptId observation) db := by
  unfold Local recordDevicePreflight
  rw [wp_bind, wp_read]
  cases hp : db.devicePreflights.lookup attemptId.text with
  | some existing =>
    simp only [wp_ite, wp_raise, wp_pure]
    split
    · exact .same rfl
    · trivial
  | none =>
    cases hrow : db.attempts.lookup attemptId.text with
    | none => trivial
    | some row =>
      cases hl : db.deviceLeases.lookup attemptId.text with
      | none => trivial
      | some lease =>
        simp only [wp_ite, wp_raise, wp_bind, wp_write, wp_pure]
        split
        · trivial
        · split
          · trivial
          · split
            · trivial
            · rename_i hdevice
              refine .changed attemptId.text ?_ fun other hne => ?_
              · simp only [entry, putDevicePreflight, AList.lookup_insert, hrow, hl, hp]
                exact .preflighted observation (not_not.mp hdevice)
              · simp [entry, putDevicePreflight, AList.lookup_insert_ne hne]

end operations

section steps

def Acquires : JournalEvent → String → Prop
  | ⟨.acquireDeviceLease attemptId _ _, .ok _⟩, other => other = attemptId.text
  | _, _ => False

def Releases : JournalEvent → String → Prop
  | ⟨.releaseDeviceLease attemptId _, .ok _⟩, other => other = attemptId.text
  | _, _ => False

def leaseCause (e : JournalEvent) : LeaseCause := ⟨Acquires e, Releases e⟩

theorem Local.run {α : Type} {t : JournalTransaction α} (h : Local cause t db) : LocalStep db cause (t.run db).1 := by
  rcases run_cases h with ⟨_, _, hq⟩ | ⟨_, _, hd⟩
  · exact hq
  · exact .same (by rw [hd])

theorem acquireDeviceLease_step {attemptId : AttemptId} {deviceId : String} {atMs : Nat} :
    LocalStep db (leaseCause ⟨.acquireDeviceLease attemptId deviceId atMs,
        ((acquireDeviceLease attemptId deviceId atMs).run db).2⟩)
      ((acquireDeviceLease attemptId deviceId atMs).run db).1 := by
  rcases run_cases (acquireDeviceLease_spec : (acquireDeviceLease attemptId deviceId atMs).wp db _ _) with
    ⟨_, hreply, hq⟩ | ⟨_, _, hd⟩
  · rw [hreply]
    exact hq.1
  · exact .same (by rw [hd])

theorem releaseDeviceLease_step {attemptId : AttemptId} {atMs : Nat} :
    LocalStep db (leaseCause ⟨.releaseDeviceLease attemptId atMs, ((releaseDeviceLease attemptId atMs).run db).2⟩)
      ((releaseDeviceLease attemptId atMs).run db).1 := by
  rcases run_cases (releaseDeviceLease_local : Local _ (releaseDeviceLease attemptId atMs) db) with
    ⟨_, hreply, hq⟩ | ⟨_, _, hd⟩
  · rw [hreply]
    exact hq
  · exact .same (by rw [hd])

theorem JournalStep.local (h : JournalStep db e db') : LocalStep db (leaseCause e) db' := by
  cases h with
  | failed => exact .same rfl
  | ran operation =>
    cases operation with
    | bindWorker => exact .same (bindWorker_keeps.run db)
    | admitAttempt => exact admit_local.run
    | markRunning => exact markRunning_local.run
    | markFinished => exact markFinished_local.run
    | enqueueOutbox => exact .same (enqueueOutboxTransaction_keeps.run db)
    | recordOutboxDelivery => exact .same (recordOutboxDelivery_keeps.run db)
    | acknowledgeOutbox => exact .same (acknowledgeOutbox_keeps.run db)
    | pruneOutboxDeliveries => exact .same (pruneOutboxDeliveries_keeps.run db)
    | acquireDeviceLease => exact acquireDeviceLease_step
    | releaseDeviceLease => exact releaseDeviceLease_step
    | recordDevicePreflight => exact recordDevicePreflight_local.run
    | attempt | attempts | pendingOutbox | outboxLen | devicePreflight => exact .same rfl
    | activeDeviceLeases => exact .same (Keeps.run (fun _ => rfl) db)

theorem JournalStep.acquires_open (h : JournalStep db e db') (ha : Acquires e attemptId) :
    ∃ row, db.attempts.lookup attemptId = some row ∧ row.phase ≠ .finished := by
  cases h with
  | failed operation => cases operation <;> exact ha.elim
  | ran operation =>
    cases operation with
    | acquireDeviceLease acquired deviceId atMs =>
      rcases run_cases (acquireDeviceLease_spec : (acquireDeviceLease acquired deviceId atMs).wp db _ _) with
        ⟨_, hreply, hq⟩ | ⟨_, hreply, _⟩
      · have ha : Acquires ⟨.acquireDeviceLease acquired deviceId atMs, .ok _⟩ attemptId := hreply ▸ ha
        rw [show attemptId = acquired.text from ha]
        exact hq.2
      · exact (show Acquires ⟨.acquireDeviceLease acquired deviceId atMs, .error _⟩ attemptId from hreply ▸ ha).elim
    | _ => exact ha.elim

end steps

section histories

/-- A phase is only ever left for a later one; an attempt may finish before it runs. -/
inductive LocalAttemptPhase.Moves : LocalAttemptPhase → LocalAttemptPhase → Prop where
  | started : Moves .accepted .running
  | finishedUnstarted : Moves .accepted .finished
  | finished : Moves .running .finished

def JournalDatabase.Exclusive (db : JournalDatabase) : Prop :=
  ∀ a b held held', db.deviceLeases.lookup a = some held → db.deviceLeases.lookup b = some held' →
    held.releasedAtMs = none → held'.releasedAtMs = none → held.deviceId = held'.deviceId → a = b

def JournalDatabase.Filed (db : JournalDatabase) : Prop :=
  ∀ attemptId row, (db.entry attemptId).attempt = some row → row.assignment.attemptId.text = attemptId

def JournalDatabase.Leased (db : JournalDatabase) : Prop :=
  ∀ attemptId, (db.entry attemptId).lease ≠ none → (db.entry attemptId).attempt ≠ none

def JournalDatabase.Preflighted (db : JournalDatabase) : Prop :=
  ∀ attemptId observation, db.devicePreflights.lookup attemptId = some observation →
    ∃ lease, db.deviceLeases.lookup attemptId = some lease ∧ lease.deviceId = observation.deviceId

/-- What the journal keeps of an attempt for ever: what was assigned, a finished attempt with its
result, the device of its lease and its preflight. -/
structure LocalEntry.Endures (x y : LocalEntry) : Prop where
  attempt : ∀ row, x.attempt = some row →
    ∃ row', y.attempt = some row' ∧ row'.assignment = row.assignment ∧ (row.phase = .finished → row' = row)
  lease : ∀ lease, x.lease = some lease → ∃ lease', y.lease = some lease' ∧ lease'.deviceId = lease.deviceId
  preflight : ∀ observation, x.preflight = some observation → y.preflight = some observation

theorem LocalEntry.Endures.refl (x : LocalEntry) : x.Endures x :=
  ⟨fun row h => ⟨row, h, rfl, fun _ => rfl⟩, fun lease h => ⟨lease, h, rfl⟩, fun _ h => h⟩

variable {x y : LocalEntry} {lease : DeviceLeaseRow} {row' : LocalAttemptRow}

theorem LocalEntry.Endures.trans {z : LocalEntry} (h : x.Endures y) (h' : y.Endures z) : x.Endures z := by
  refine ⟨fun row hrow => ?_, fun lease hlease => ?_, fun observation ho => ?_⟩
  · obtain ⟨row', hrow', hassigned, hfrozen⟩ := h.attempt row hrow
    obtain ⟨row'', hrow'', hassigned', hfrozen'⟩ := h'.attempt row' hrow'
    refine ⟨row'', hrow'', hassigned'.trans hassigned, fun hp => ?_⟩
    have heq := hfrozen hp
    rw [hfrozen' (by rw [heq]; exact hp), heq]
  · obtain ⟨lease', hlease', hdevice⟩ := h.lease lease hlease
    obtain ⟨lease'', hlease'', hdevice'⟩ := h'.lease lease' hlease'
    exact ⟨lease'', hlease'', hdevice'.trans hdevice⟩
  · exact h'.preflight observation (h.preflight observation ho)

theorem LocalChange.endures (h : LocalChange db cause attemptId x y) : x.Endures y := by
  cases h with
  | admitted =>
    refine ⟨fun row h => ?_, fun lease h => ⟨lease, h, rfl⟩, fun _ h => h⟩
    cases h
  | running _ hp =>
    refine ⟨fun row h => ?_, fun lease h => ⟨lease, h, rfl⟩, fun _ h => h⟩
    cases h
    exact ⟨_, rfl, rfl, fun hfinished => by rw [hp] at hfinished; cases hfinished⟩
  | finished _ _ hp =>
    refine ⟨fun row h => ?_, fun lease h => ⟨lease, h, rfl⟩, fun _ h => h⟩
    cases h
    exact ⟨_, rfl, rfl, fun hfinished => absurd hfinished hp⟩
  | acquired deviceId atMs _ _ hl _ =>
    refine ⟨fun row h => ⟨row, h, rfl, fun _ => rfl⟩, fun lease h => ⟨_, rfl, ?_⟩, fun _ h => h⟩
    exact (hl lease h).1.symm
  | released atMs _ _ =>
    refine ⟨fun row h => ⟨row, h, rfl, fun _ => rfl⟩, fun lease h => ?_, fun _ h => h⟩
    cases h
    exact ⟨_, rfl, rfl⟩
  | preflighted observation _ =>
    refine ⟨fun row h => ⟨row, h, rfl, fun _ => rfl⟩, fun lease h => ⟨lease, h, rfl⟩, fun observation h => ?_⟩
    cases h

theorem LocalStep.endures (h : LocalStep db cause db') (attemptId : String) :
    (db.entry attemptId).Endures (db'.entry attemptId) := by
  cases h with
  | same heq => rw [heq]; exact .refl _
  | changed changed hc hother =>
    by_cases heq : attemptId = changed
    · rw [heq]
      exact hc.endures
    · rw [hother attemptId heq]
      exact .refl _

theorem deviceOwner_none {deviceId : String} (h : db.deviceOwner deviceId = none)
    (hl : db.deviceLeases.lookup attemptId = some lease) (hr : lease.releasedAtMs = none) :
    lease.deviceId ≠ deviceId := by
  intro hd
  unfold deviceOwner at h
  have hfind := List.find?_eq_none.mp (Option.map_eq_none_iff.mp h) ⟨attemptId, lease⟩ (AList.mem_lookup_iff.mp hl)
  exact hfind (by simp [hd, hr])

theorem LocalChange.lease_cases (h : LocalChange db cause attemptId x y) :
    y.lease = x.lease ∨ (∃ lease atMs, x.lease = some lease ∧ cause.releases attemptId ∧
        y.lease = some { lease with releasedAtMs := some atMs }) ∨
      ∃ deviceId atMs, y.lease = some ⟨deviceId, atMs, none⟩ ∧ db.deviceOwner deviceId = none ∧
        ∀ held, x.lease = some held → held.releasedAtMs ≠ none := by
  cases h with
  | admitted | running | finished | preflighted => exact .inl rfl
  | acquired deviceId atMs _ _ hl ho => exact .inr (.inr ⟨deviceId, atMs, rfl, ho, fun held h => (hl held h).2⟩)
  | released atMs he _ => exact .inr (.inl ⟨_, atMs, rfl, he, rfl⟩)

theorem LocalStep.active_cases (h : LocalStep db cause db')
    (hl : db'.deviceLeases.lookup attemptId = some lease) (hr : lease.releasedAtMs = none) :
    db.deviceLeases.lookup attemptId = some lease ∨ db.deviceOwner lease.deviceId = none ∧
      ∀ other, other ≠ attemptId → db'.deviceLeases.lookup other = db.deviceLeases.lookup other := by
  have hlease : (db'.entry attemptId).lease = some lease := hl
  cases h with
  | same heq =>
    rw [heq] at hlease
    exact .inl hlease
  | changed changed hc hother =>
    by_cases heq : attemptId = changed
    · subst heq
      rcases hc.lease_cases with hsame | ⟨held, atMs, _, _, hreleased⟩ | ⟨deviceId, atMs, hacquired, ho, _⟩
      · rw [hsame] at hlease
        exact .inl hlease
      · rw [hreleased] at hlease
        cases hlease
        cases hr
      · rw [hacquired] at hlease
        cases hlease
        exact .inr ⟨ho, fun other hne => congrArg LocalEntry.lease (hother other hne)⟩
    · rw [hother attemptId heq] at hlease
      exact .inl hlease

theorem LocalStep.exclusive (h : LocalStep db cause db') (hx : db.Exclusive) : db'.Exclusive := by
  intro a b held held' ha hb hra hrb hdevice
  by_contra hne
  rcases h.active_cases ha hra with hda | ⟨hoa, hothera⟩
  · rcases h.active_cases hb hrb with hdb | ⟨hob, hotherb⟩
    · exact hne (hx a b held held' hda hdb hra hrb hdevice)
    · exact deviceOwner_none hob hda hra hdevice
  · have hdb := (hothera b (Ne.symm hne)).symm.trans hb
    exact deviceOwner_none hoa hdb hrb hdevice.symm

theorem LocalStep.preflighted (h : LocalStep db cause db') (hp : db.Preflighted) : db'.Preflighted := by
  intro attemptId observation ho
  have hkept : ∀ lease, db.deviceLeases.lookup attemptId = some lease → lease.deviceId = observation.deviceId →
      ∃ lease', db'.deviceLeases.lookup attemptId = some lease' ∧ lease'.deviceId = observation.deviceId := by
    intro lease hl hdevice
    obtain ⟨lease', hl', hdevice'⟩ := (h.endures attemptId).lease lease hl
    exact ⟨lease', hl', hdevice'.trans hdevice⟩
  cases hold : db.devicePreflights.lookup attemptId with
  | some old =>
    have hsame : db'.devicePreflights.lookup attemptId = some old := (h.endures attemptId).preflight old hold
    rw [ho] at hsame
    cases hsame
    obtain ⟨lease, hl, hdevice⟩ := hp attemptId observation hold
    exact hkept lease hl hdevice
  | none =>
    have hpreflight : (db'.entry attemptId).preflight = some observation := ho
    have hnone : (db.entry attemptId).preflight = none := hold
    cases h with
    | same heq =>
      rw [heq, hnone] at hpreflight
      cases hpreflight
    | changed changed hc hother =>
      by_cases heq : attemptId = changed
      · subst heq
        generalize hx : db.entry attemptId = x at hc hnone
        generalize hy : db'.entry attemptId = y at hc hpreflight
        cases hc with
        | preflighted recorded hdevice =>
          cases hpreflight
          exact hkept _ (congrArg LocalEntry.lease hx) hdevice
        | _ => rw [show _ = none from hnone] at hpreflight; cases hpreflight
      · rw [hother attemptId heq, hnone] at hpreflight
        cases hpreflight

theorem LocalStep.keyed (h : LocalStep db cause db') (hk : db.Filed) : db'.Filed := by
  intro id row hrow
  cases h with
  | same h => exact hk id row (by rwa [← h])
  | changed changed hc hother =>
    by_cases hid : id = changed
    · subst hid
      have hold : ∀ row, (db.entry id).attempt = some row → row.assignment.attemptId.text = id := hk id
      revert hrow hold
      generalize db.entry id = x at hc
      generalize db'.entry id = y at hc
      intro hrow hold
      cases hc with
      | admitted _ _ _ ha =>
        cases hrow
        exact ha
      | released | acquired | preflighted => exact hold _ hrow
      | running | finished =>
        have hassigned := hold _ rfl
        cases hrow
        exact hassigned
    · rw [hother id hid] at hrow
      exact hk id row hrow

theorem LocalStep.leased (h : LocalStep db cause db') (hl : db.Leased) : db'.Leased := by
  intro id hlease
  cases h with
  | same h =>
    rw [h] at hlease ⊢
    exact hl id hlease
  | changed changed hc hother =>
    by_cases hid : id = changed
    · subst hid
      have hold := hl id
      revert hlease hold
      generalize db.entry id = x at hc
      generalize db'.entry id = y at hc
      intro hlease hold
      cases hc with
      | admitted | running | finished | acquired | preflighted => exact nofun
      | released => exact hold nofun
    · rw [hother id hid] at hlease ⊢
      exact hl id hlease

theorem LocalChange.moves (h : LocalChange db cause attemptId x y)
    (hy : y.attempt = some row') : x.attempt = none ∧ row'.phase = .accepted ∨
      ∃ row, x.attempt = some row ∧ (row'.phase = row.phase ∨ row.phase.Moves row'.phase) := by
  cases h with
  | admitted row hp =>
    cases hy
    exact .inl ⟨rfl, hp⟩
  | running _ hp =>
    cases hy
    refine .inr ⟨_, rfl, .inr ?_⟩
    rw [hp]
    exact .started
  | @finished row _ _ result atMs hp =>
    cases hy
    refine .inr ⟨_, rfl, .inr ?_⟩
    cases hphase : row.phase with
    | accepted => exact .finishedUnstarted
    | running => exact .finished
    | finished => exact absurd hphase hp
  | acquired | released | preflighted => exact .inr ⟨row', hy, .inl rfl⟩

theorem JournalStep.moves (h : JournalStep db e db') (hrow' : db'.attempts.lookup attemptId = some row') :
    db.attempts.lookup attemptId = none ∧ row'.phase = .accepted ∨
      ∃ row, db.attempts.lookup attemptId = some row ∧ (row'.phase = row.phase ∨ row.phase.Moves row'.phase) := by
  have hnew : (db'.entry attemptId).attempt = some row' := hrow'
  cases h.local with
  | same heq =>
    rw [heq] at hnew
    exact .inr ⟨row', hnew, .inl rfl⟩
  | changed changed hc hother =>
    by_cases heq : attemptId = changed
    · subst heq
      exact hc.moves hnew
    · rw [hother attemptId heq] at hnew
      exact .inr ⟨row', hnew, .inl rfl⟩

theorem JournalStep.holds (h : JournalStep db e db')
    (hl : db.deviceLeases.lookup attemptId = some lease) (hr : lease.releasedAtMs = none)
    (he : ¬ Releases e attemptId) : db'.deviceLeases.lookup attemptId = some lease := by
  have hlease : (db.entry attemptId).lease = some lease := hl
  show (db'.entry attemptId).lease = some lease
  cases h.local with
  | same heq => rw [heq]; exact hlease
  | changed changed hc hother =>
    by_cases heq : attemptId = changed
    · subst heq
      rcases hc.lease_cases with hsame | ⟨_, _, _, hreleases, _⟩ | ⟨_, _, _, _, hheld⟩
      · exact hsame.trans hlease
      · exact absurd hreleases he
      · exact absurd hr (hheld lease hlease)
    · rw [hother attemptId heq]
      exact hlease

variable {log : List JournalEvent}

theorem JournalRun.endures (h : JournalRun db log db') (attemptId : String) :
    (db.entry attemptId).Endures (db'.entry attemptId) := by
  induction h with
  | start => exact .refl _
  | step _ hs ih => exact ih.trans (hs.local.endures attemptId)

theorem JournalRun.holds (h : JournalRun db log db')
    (hl : db.deviceLeases.lookup attemptId = some lease) (hr : lease.releasedAtMs = none)
    (he : ∀ e ∈ log, ¬ Releases e attemptId) : db'.deviceLeases.lookup attemptId = some lease := by
  induction h with
  | start => exact hl
  | step _ hs ih =>
    have hbefore := ih fun e hmem => he e (List.mem_append_left _ hmem)
    exact hs.holds hbefore hr (he _ (List.mem_append_right _ (List.mem_singleton_self _)))

theorem JournalRun.exclusive (h : JournalRun .empty log db) : db.Exclusive := by
  induction h with
  | start => exact fun _ _ _ _ ha => by cases ha
  | step _ hs ih => exact hs.local.exclusive ih

theorem JournalRun.filed (h : JournalRun .empty log db) : db.Filed := by
  induction h with
  | start => exact fun _ _ ha => by cases ha
  | step _ hs ih => exact hs.local.keyed ih

theorem JournalRun.leased (h : JournalRun .empty log db) : db.Leased := by
  induction h with
  | start => exact fun _ hl => absurd rfl hl
  | step _ hs ih => exact hs.local.leased ih

theorem JournalRun.preflighted (h : JournalRun .empty log db) : db.Preflighted := by
  induction h with
  | start => exact fun _ _ ha => by cases ha
  | step _ hs ih => exact hs.local.preflighted ih

/-- The contract of the journal after any history: devices are exclusive and preflights name the leased
device; whatever comes later keeps what was assigned, the device of an attempt, its preflight and a
finished attempt with its result, and a lease until it is released; one more operation takes no device
for a finished attempt, moves a phase only forward, and changes nothing when it fails. -/
theorem JournalRun.keeps_contract (h : JournalRun .empty log db) :
    (db.Exclusive ∧ db.Preflighted) ∧
    (∀ log' db', JournalRun db log' db' → ∀ attemptId,
      (db.entry attemptId).Endures (db'.entry attemptId) ∧
      ∀ lease, db.deviceLeases.lookup attemptId = some lease → lease.releasedAtMs = none →
        (∀ e ∈ log', ¬ Releases e attemptId) → db'.deviceLeases.lookup attemptId = some lease) ∧
    ∀ e db', JournalStep db e db' →
      (∀ attemptId row, db.attempts.lookup attemptId = some row → row.phase = .finished → ¬ Acquires e attemptId) ∧
      (∀ attemptId row', db'.attempts.lookup attemptId = some row' →
        db.attempts.lookup attemptId = none ∧ row'.phase = .accepted ∨
        ∃ row, db.attempts.lookup attemptId = some row ∧ (row'.phase = row.phase ∨ row.phase.Moves row'.phase)) ∧
      ((∃ error, e.reply = .error error) → db' = db) := by
  refine ⟨⟨h.exclusive, h.preflighted⟩, fun log' db' h' attemptId => ⟨h'.endures attemptId, ?_⟩, fun e db' hs => ?_⟩
  · exact fun lease hl hr he => h'.holds hl hr he
  · refine ⟨fun attemptId row hrow hp ha => ?_, fun attemptId row' hrow' => hs.moves hrow', ?_⟩
    · obtain ⟨row', hrow', hopen⟩ := hs.acquires_open ha
      rw [hrow] at hrow'
      cases hrow'
      exact hopen hp
    · rintro ⟨error, hreply⟩
      obtain ⟨operation, reply⟩ := e
      replace hreply : reply = .error error := hreply
      subst hreply
      exact hs.rolledBack

def preflightSample : DeviceObservation := ⟨"3", .ready, 0, 0, 0, 0, 0, 0, 12, ""⟩

@[irreducible] def finishedAttemptSample : JournalDatabase :=
  executeJournal [.admitAttempt sampleContract 10, .acquireDeviceLease sampleContract.attemptId "3" 11,
    .recordDevicePreflight sampleContract.attemptId preflightSample, .markRunning "attempt" 13,
    .markFinished "attempt" (sampleFinished "done") 14] .empty

/-- The device of the finished sample attempt stays leased whatever comes, but for a release. -/
theorem JournalRun.keeps_contract_sample :
    finishedAttemptSample.deviceLeases.lookup "attempt" = some ⟨"3", 11, none⟩ ∧
    ∀ log' db', JournalRun finishedAttemptSample log' db' → (∀ e ∈ log', ¬ Releases e "attempt") →
      db'.deviceLeases.lookup "attempt" = some ⟨"3", 11, none⟩ := by
  have hlease : finishedAttemptSample.deviceLeases.lookup "attempt" = some ⟨"3", 11, none⟩ := by
    unfold finishedAttemptSample
    decide
  have hrun : ∃ log, JournalRun .empty log finishedAttemptSample := by
    unfold finishedAttemptSample
    exact JournalRun.executeJournal _ _
  obtain ⟨log, hrun⟩ := hrun
  refine ⟨hlease, fun log' db' h he => ?_⟩
  exact (hrun.keeps_contract.2.1 log' db' h "attempt").2 _ hlease rfl he

@[irreducible] def admittedSample : JournalDatabase := executeJournal [.admitAttempt sampleContract 10] .empty

/-- An attempt may go from accepted to finished in one operation. -/
theorem journal_finishes_unstarted :
    ∃ log db e db' row row', JournalRun .empty log db ∧ JournalStep db e db' ∧
      db.attempts.lookup "attempt" = some row ∧ db'.attempts.lookup "attempt" = some row' ∧
      row.phase = .accepted ∧ row'.phase = .finished := by
  obtain ⟨log, hrun⟩ : ∃ log, JournalRun .empty log admittedSample := by
    unfold admittedSample
    exact JournalRun.executeJournal _ _
  have hrow : admittedSample.attempts.lookup "attempt" =
      some ⟨"assignment", sampleContract, .accepted, 10, 10, none⟩ := by
    unfold admittedSample
    decide
  have hrow' : ((JournalOperation.markFinished "attempt" (sampleFinished "done") 11).execute
      admittedSample).1.attempts.lookup "attempt" =
      some ⟨"assignment", sampleContract, .finished, 10, 11, some (sampleFinished "done")⟩ := by
    unfold admittedSample
    decide
  exact ⟨log, admittedSample, _, _, _, _, hrun, .ran _, hrow, hrow', rfl, rfl⟩

end histories

end AlloyPort
