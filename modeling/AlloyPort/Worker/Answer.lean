import AlloyPort.Library.Interleaving
import AlloyPort.Worker.Lease

/-! What the journal answers about an attempt, and what a successful operation leaves of it. An operation
leaves all attempts alone but the one it names. -/

namespace AlloyPort

open Database Transaction JournalDatabase SqliteAttemptStore

variable {db db' : JournalDatabase} {attemptId other : String}

def JournalOperation.target : JournalOperation → Option String
  | .admitAttempt assignment _ => some assignment.attemptId.text
  | .markRunning attemptId _ | .markFinished attemptId _ _ => some attemptId
  | .acquireDeviceLease attemptId _ _ | .releaseDeviceLease attemptId _ | .recordDevicePreflight attemptId _ =>
    some attemptId.text
  | _ => none

section elsewhere

def Spares {α : Type} (other : String) (t : JournalTransaction α) : Prop := Keeps (fun db => db.entry other) t

theorem Spares.of_keeps {α : Type} {t : JournalTransaction α} (h : Keeps entry t) : Spares other t :=
  fun db => congrFun (h db) other

theorem admitAttempt_spares {assignment : StoredAssignment} {atMs : Nat} (hne : other ≠ assignment.attemptId.text) :
    Spares other (admitAttempt assignment atMs) := by
  refine keeps_bind (keeps_bind keeps_read fun db => ?_) fun _ => ?_
  · split
    · exact keeps_ite keeps_raise keeps_pure
    · refine keeps_bind keeps_attempt fun now => keeps_bind (keeps_write fun db => ?_) fun _ => keeps_pure
      simp [entry, insertAttempt, AList.lookup_insert_ne hne]
  · exact keeps_bind (Spares.of_keeps enqueueOutboxTransaction_keeps) fun _ => keeps_pure

theorem JournalStep.elsewhere {e : JournalEvent} (h : JournalStep db e db') (hne : e.call.target ≠ some other) :
    db'.entry other = db.entry other := by
  have hne' : ∀ id, e.call.target = some id → other ≠ id := fun id hid heq => hne (heq ▸ hid)
  cases h with
  | failed => rfl
  | ran operation =>
    cases operation with
    | bindWorker => exact (Spares.of_keeps bindWorker_keeps).run db
    | admitAttempt => exact (admitAttempt_spares (hne' _ rfl)).run db
    | markRunning =>
      exact (markRunning_keeps (fun _ _ => updateAttempt_other (hne' _ rfl)) fun _ _ => Spares.of_keeps announce_keeps :
        Spares other _).run db
    | markFinished =>
      exact (markFinished_keeps (fun _ _ => updateAttempt_other (hne' _ rfl)) fun _ _ =>
        Spares.of_keeps announce_keeps :
        Spares other _).run db
    | enqueueOutbox => exact (Spares.of_keeps enqueueOutboxTransaction_keeps).run db
    | recordOutboxDelivery => exact (Spares.of_keeps recordOutboxDelivery_keeps).run db
    | acknowledgeOutbox => exact (Spares.of_keeps acknowledgeOutbox_keeps).run db
    | pruneOutboxDeliveries => exact (Spares.of_keeps pruneOutboxDeliveries_keeps).run db
    | acquireDeviceLease =>
      exact (acquireDeviceLease_keeps fun _ _ => putDeviceLease_other (hne' _ rfl) : Spares other _).run db
    | releaseDeviceLease =>
      exact (releaseDeviceLease_keeps fun _ _ => putDeviceLease_other (hne' _ rfl) : Spares other _).run db
    | recordDevicePreflight attemptId =>
      refine (recordDevicePreflight_keeps fun db => ?_ : Spares other _).run db
      simp [entry, putDevicePreflight, AList.lookup_insert_ne (hne' attemptId.text rfl)]
    | attempt | attempts | pendingOutbox | outboxLen | devicePreflight => rfl
    | activeDeviceLeases => exact (Spares.of_keeps (fun _ => rfl)).run db

end elsewhere

section answers

variable {operation : JournalOperation} {E : AttemptStoreError → JournalDatabase → Prop}
variable {leases : List DeviceLease} {atMs : Nat} {Q : operation.Result → JournalDatabase → Prop}
  {result : operation.Result} {deviceId : String}

theorem JournalStep.meets
    (h : JournalStep db ⟨operation, .ok result⟩ db') (hwp : operation.transaction.wp db Q E) : Q result db' := by
  generalize hreply : (.ok result : operation.Reply) = reply at h
  cases h with
  | failed => cases hreply
  | ran =>
    unfold Transaction.wp at hwp
    unfold JournalOperation.execute Transaction.run Transaction.runKeeping at hreply ⊢
    split at hwp
    · rename_i heq
      rw [heq] at hreply
      cases hreply
      exact hwp
    · rename_i heq
      rw [heq] at hreply
      cases hreply

theorem JournalStep.read_answer
    (h : JournalStep db ⟨operation, .ok result⟩ db') (f : JournalDatabase → operation.Reply)
    (hop : operation.transaction = fun db => (f db, db)) : db' = db ∧ f db = .ok result := by
  have hwp : operation.transaction.wp db (fun result db' => db' = db ∧ f db = .ok result) fun _ _ => True := by
    rw [hop]
    unfold Transaction.wp
    cases hf : f db <;> simp [hf]
  exact h.meets hwp

theorem JournalStep.attempt_answer {result : Option LocalAttemptRecord}
    (h : JournalStep db ⟨.attempt attemptId, .ok result⟩ db') :
    db' = db ∧ (db.entry attemptId).attempt.map LocalAttemptRow.record = result := by
  obtain ⟨hdb, hread⟩ := h.read_answer (fun db => .ok (SqliteAttemptStore.attempt db attemptId)) rfl
  exact ⟨hdb, Except.ok.inj hread⟩

theorem JournalStep.devicePreflight_answer {attemptId : AttemptId} {result : Option DeviceObservation}
    (h : JournalStep db ⟨.devicePreflight attemptId, .ok result⟩ db') :
    db' = db ∧ (db.entry attemptId.text).preflight = result := by
  obtain ⟨hdb, hread⟩ := h.read_answer (fun db => .ok (SqliteAttemptStore.devicePreflight db attemptId)) rfl
  exact ⟨hdb, Except.ok.inj hread⟩

theorem forall₂_of_mapM {ε α β : Type} {f : α → Except ε β} {l : List α} {r : List β} (h : l.mapM f = .ok r) :
    List.Forall₂ (fun a b => f a = .ok b) l r := by
  induction l generalizing r with
  | nil =>
    cases h
    exact .nil
  | cons a l ih =>
    rw [List.mapM_cons] at h
    obtain ⟨b, hb, h⟩ := Effect.bind_eq_ok.mp h
    obtain ⟨rest, hrest, h⟩ := Effect.bind_eq_ok.mp h
    cases h
    exact .cons hb (ih hrest)

structure ShowsLeases (db : JournalDatabase) (leases : List DeviceLease) : Prop where
  held : ∀ lease ∈ leases, ∃ row, (db.entry lease.attemptId.text).lease = some row ∧ row.deviceId = lease.deviceId ∧
    row.releasedAtMs = none
  all : ∀ attemptId row, (db.entry attemptId).lease = some row → row.releasedAtMs = none →
    ∃ lease ∈ leases, lease.attemptId.text = attemptId ∧ lease.deviceId = row.deviceId

theorem activeDeviceLeases_rows (h : activeDeviceLeases db = .ok leases) :
    List.Forall₂ (fun (row : (_ : String) × DeviceLeaseRow) lease =>
        lease.attemptId.text = row.1 ∧ lease.deviceId = row.2.deviceId)
      ((db.deviceLeases.entries.filter fun row => row.2.releasedAtMs = none).insertionSort leasedBefore) leases := by
  refine (forall₂_of_mapM h).imp fun row lease hlease => ?_
  split at hlease
  · cases hlease
  · rename_i hid
    cases hlease
    exact ⟨ValidatedId.tryFrom_text hid, rfl⟩

theorem activeDeviceLeases_shows (h : activeDeviceLeases db = .ok leases) : ShowsLeases db leases := by
  have hrows := activeDeviceLeases_rows h
  constructor
  · intro lease hmem
    obtain ⟨i, hi⟩ := List.mem_iff_getElem?.mp hmem
    obtain ⟨row, hget, hid, hdevice⟩ := Interleaving.forall₂_getElem? hrows.flip hi
    have hfilter := (List.mem_insertionSort _).mp (List.mem_of_getElem? hget)
    obtain ⟨hentry, hactive⟩ := List.mem_filter.mp hfilter
    refine ⟨row.2, ?_, hdevice.symm, by simpa using hactive⟩
    rw [hid]
    exact AList.mem_lookup_iff.mpr hentry
  · intro attemptId row hlookup hactive
    have hentry : (⟨attemptId, row⟩ : (_ : String) × DeviceLeaseRow) ∈ db.deviceLeases.entries :=
      AList.mem_lookup_iff.mp hlookup
    have hfilter : ⟨attemptId, row⟩ ∈ db.deviceLeases.entries.filter fun row => row.2.releasedAtMs = none :=
      List.mem_filter.mpr ⟨hentry, by simpa using hactive⟩
    have hsorted := (List.mem_insertionSort leasedBefore).mpr hfilter
    obtain ⟨i, hi⟩ := List.mem_iff_getElem?.mp hsorted
    obtain ⟨lease, hget, hid, hdevice⟩ := Interleaving.forall₂_getElem? hrows hi
    exact ⟨lease, List.mem_of_getElem? hget, hid, hdevice⟩

theorem JournalStep.activeDeviceLeases_answer
    (h : JournalStep db ⟨.activeDeviceLeases, .ok leases⟩ db') : db' = db ∧ ShowsLeases db leases := by
  obtain ⟨hdb, hread⟩ := h.read_answer SqliteAttemptStore.activeDeviceLeases rfl
  exact ⟨hdb, activeDeviceLeases_shows hread⟩

theorem entry_with_lease {row : DeviceLeaseRow} (h : db.deviceLeases.lookup attemptId = some row) :
    db.entry attemptId = { db.entry attemptId with lease := some row } := by
  simp [entry, h]

theorem JournalStep.acquired {attemptId : AttemptId} {result : DeviceLeaseOutcome}
    (h : JournalStep db ⟨.acquireDeviceLease attemptId deviceId atMs, .ok result⟩ db') :
    ∃ lease, db'.entry attemptId.text = { db.entry attemptId.text with lease := some lease } ∧
      lease.deviceId = deviceId ∧ lease.releasedAtMs = none ∧ ¬ isBlank deviceId = true ∧
      ∀ held, (db.entry attemptId.text).lease = some held → held.deviceId = deviceId := by
  let Q : DeviceLeaseOutcome → JournalDatabase → Prop := fun _ db' =>
    ∃ lease, db'.entry attemptId.text = { db.entry attemptId.text with lease := some lease } ∧
      lease.deviceId = deviceId ∧ lease.releasedAtMs = none ∧ ¬ isBlank deviceId = true ∧
      ∀ held, (db.entry attemptId.text).lease = some held → held.deviceId = deviceId
  have hgrant : ¬ isBlank deviceId = true →
      (∀ held, (db.entry attemptId.text).lease = some held → held.deviceId = deviceId) →
      (acquireDeviceLease.grant attemptId deviceId atMs db).wp db Q fun _ _ => True := by
    intro hblank hheld
    unfold acquireDeviceLease.grant
    cases db.deviceOwner deviceId with
    | some owner => trivial
    | none =>
      simp only [wp_bind, wp_attempt, wp_write, wp_pure]
      exact ⟨fun now _ => ⟨⟨deviceId, now, none⟩, putDeviceLease_entry, rfl, rfl, hblank, hheld⟩, fun _ _ => trivial⟩
  suffices hwp : (acquireDeviceLease attemptId deviceId atMs).wp db Q fun _ _ => True from h.meets hwp
  unfold acquireDeviceLease
  rw [wp_ite]
  split
  · trivial
  · rename_i hblank
    refine wp_bind.mpr (wp_findAttempt (fun row _ => ?_) fun _ => trivial)
    rw [wp_ite]
    split
    · trivial
    · rw [wp_bind, wp_read]
      cases hl : db.deviceLeases.lookup attemptId.text with
      | none => exact hgrant hblank fun held hheld => by cases hl.symm.trans hheld
      | some existing =>
        have hheld : existing.deviceId = deviceId →
            ∀ held, (db.entry attemptId.text).lease = some held → held.deviceId = deviceId := by
          intro hdevice held hheld
          cases hl.symm.trans hheld
          exact hdevice
        simp only [wp_ite, wp_raise, wp_pure]
        split
        · rename_i hactive
          exact ⟨existing, entry_with_lease hl, hactive.1, hactive.2, hblank, hheld hactive.1⟩
        · split
          · trivial
          · rename_i hdevice
            exact hgrant hblank (hheld (not_not.mp hdevice))

theorem JournalStep.fails {error : AttemptStoreError}
    (h : JournalStep db ⟨operation, .error error⟩ db') (hstorage : error.isStorage = false)
    (hwp : operation.transaction.wp db Q E) : ∃ db'', E error db'' := by
  generalize hreply : (.error error : operation.Reply) = reply at h
  cases h with
  | failed _ e he =>
    cases hreply
    cases hstorage.symm.trans he
  | ran =>
    unfold Transaction.wp at hwp
    unfold JournalOperation.execute Transaction.run Transaction.runKeeping at hreply
    split at hwp
    · rename_i heq
      rw [heq] at hreply
      cases hreply
    · rename_i heq
      rw [heq] at hreply
      cases hreply
      exact ⟨_, hwp⟩

theorem JournalStep.acquire_conflicts {attemptId : AttemptId} {id held : String}
    (h : JournalStep db ⟨.acquireDeviceLease attemptId deviceId atMs, .error (.conflictingDeviceLease id held)⟩ db') :
    isBlank deviceId = true ∨ ∃ lease, (db.entry attemptId.text).lease = some lease ∧ lease.deviceId ≠ deviceId := by
  let E : AttemptStoreError → JournalDatabase → Prop := fun error _ => ∀ id held,
    error = .conflictingDeviceLease id held →
      isBlank deviceId = true ∨ ∃ lease, (db.entry attemptId.text).lease = some lease ∧ lease.deviceId ≠ deviceId
  have hgrant : (acquireDeviceLease.grant attemptId deviceId atMs db).wp db (fun _ _ => True) E := by
    unfold acquireDeviceLease.grant
    cases db.deviceOwner deviceId with
    | some owner => exact fun _ _ heq => by cases heq
    | none =>
      simp only [wp_bind, wp_attempt, wp_write, wp_pure]
      refine ⟨fun _ _ => trivial, fun error herror _ _ heq => ?_⟩
      unfold SqliteAttemptStore.toI64 at herror
      split at herror
      · cases herror
      · cases herror
        cases heq
  suffices hwp : (acquireDeviceLease attemptId deviceId atMs).wp db (fun _ _ => True) E by
    obtain ⟨_, hfailed⟩ := h.fails rfl hwp
    exact hfailed id held rfl
  unfold acquireDeviceLease
  rw [wp_ite]
  split
  · rename_i hblank
    exact fun _ _ _ => .inl hblank
  · refine wp_bind.mpr (wp_findAttempt (fun row _ => ?_) fun _ => fun _ _ heq => by cases heq)
    rw [wp_ite]
    split
    · exact fun _ _ heq => by cases heq
    · rw [wp_bind, wp_read]
      cases hl : db.deviceLeases.lookup attemptId.text with
      | none => exact hgrant
      | some existing =>
        simp only [wp_ite, wp_raise, wp_pure]
        split
        · trivial
        · split
          · rename_i hdevice
            exact fun _ _ _ => .inr ⟨existing, hl, hdevice⟩
          · exact hgrant

theorem JournalStep.released {attemptId : AttemptId} {result : DeviceReleaseOutcome}
    (h : JournalStep db ⟨.releaseDeviceLease attemptId atMs, .ok result⟩ db') :
    ∃ lease lease', (db.entry attemptId.text).lease = some lease ∧
      db'.entry attemptId.text = { db.entry attemptId.text with lease := some lease' } ∧
      lease'.deviceId = lease.deviceId := by
  let Q : DeviceReleaseOutcome → JournalDatabase → Prop := fun _ db' =>
    ∃ lease lease', (db.entry attemptId.text).lease = some lease ∧
      db'.entry attemptId.text = { db.entry attemptId.text with lease := some lease' } ∧
      lease'.deviceId = lease.deviceId
  suffices hwp : (releaseDeviceLease attemptId atMs).wp db Q fun _ _ => True from h.meets hwp
  unfold releaseDeviceLease
  rw [wp_bind, wp_read]
  cases hl : db.deviceLeases.lookup attemptId.text with
  | none => trivial
  | some lease =>
    simp only [wp_ite, wp_bind, wp_attempt, wp_write, wp_pure]
    split
    · exact ⟨lease, lease, hl, entry_with_lease hl, rfl⟩
    · exact ⟨fun now _ => ⟨lease, _, hl, putDeviceLease_entry, rfl⟩, fun _ _ => trivial⟩

theorem JournalStep.preflighted {attemptId : AttemptId} {observation : DeviceObservation}
    {result : DevicePreflightOutcome}
    (h : JournalStep db ⟨.recordDevicePreflight attemptId observation, .ok result⟩ db') :
    db'.entry attemptId.text = { db.entry attemptId.text with preflight := some observation } ∧
      ((db.entry attemptId.text).preflight = some observation ∨
        ∃ lease, (db.entry attemptId.text).lease = some lease ∧ lease.deviceId = observation.deviceId) := by
  let Q : DevicePreflightOutcome → JournalDatabase → Prop := fun _ db' =>
    db'.entry attemptId.text = { db.entry attemptId.text with preflight := some observation } ∧
      ((db.entry attemptId.text).preflight = some observation ∨
        ∃ lease, (db.entry attemptId.text).lease = some lease ∧ lease.deviceId = observation.deviceId)
  suffices hwp : (recordDevicePreflight attemptId observation).wp db Q fun _ _ => True from h.meets hwp
  unfold recordDevicePreflight
  rw [wp_bind, wp_read]
  cases hp : db.devicePreflights.lookup attemptId.text with
  | some existing =>
    simp only [wp_ite, wp_raise, wp_pure]
    split
    · rename_i heq
      subst heq
      exact ⟨by simp [entry, hp], .inl hp⟩
    · trivial
  | none =>
    cases hrow : db.attempts.lookup attemptId.text with
    | none => trivial
    | some row =>
      cases hl : db.deviceLeases.lookup attemptId.text with
      | none => trivial
      | some lease =>
        simp only [wp_ite, wp_raise, wp_bind, wp_write, wp_pure]
        split
        · trivial
        · split
          · trivial
          · split
            · trivial
            · rename_i hdevice
              exact ⟨by simp [entry, putDevicePreflight], .inr ⟨lease, hl, not_not.mp hdevice⟩⟩

theorem announce_wp {row : LocalAttemptRow} {message : AssignmentId → AttemptId → WorkerOutboxMessage}
    {Q : JournalDatabase → Prop} (hq : ∀ db', db'.entry = db.entry → Q db') :
    (announce row attemptId message atMs).wp db (fun _ => Q) fun _ _ => True :=
  wp_mono announce_keeps.wp (fun _ db' heq => hq db' heq) fun _ _ _ => trivial

theorem JournalStep.markedRunning {result : Unit} (h : JournalStep db ⟨.markRunning attemptId atMs, .ok result⟩ db') :
    ∃ row row', (db.entry attemptId).attempt = some row ∧ (row.phase ≠ .accepted → row' = row) ∧
      db'.entry attemptId = { db.entry attemptId with attempt := some row' } ∧ row'.phase = .running := by
  let Q : JournalDatabase → Prop := fun db' => ∃ row row', (db.entry attemptId).attempt = some row ∧
    (row.phase ≠ .accepted → row' = row) ∧ db'.entry attemptId = { db.entry attemptId with attempt := some row' } ∧
    row'.phase = .running
  suffices hwp : (markRunning attemptId atMs).wp db (fun _ => Q) fun _ _ => True from h.meets hwp
  refine wp_bind.mpr (wp_findAttempt (fun row hrow => wp_bind.mpr ?_) fun _ => trivial)
  unfold enterRunning
  cases hphase : row.phase with
  | finished => trivial
  | running =>
    refine announce_wp fun db' heq => ⟨row, row, hrow, fun _ => rfl, ?_, hphase⟩
    rw [heq]
    simp [entry, hrow]
  | accepted =>
    simp only [wp_bind, wp_attempt, wp_write]
    refine ⟨fun now _ => announce_wp fun db' heq => ?_, fun _ _ => trivial⟩
    refine ⟨row, { row with phase := .running, updatedAtMs := now }, hrow, fun hn => absurd hphase hn, ?_, rfl⟩
    rw [heq, updateAttempt_entry]
    simp only [entry, hrow, Option.map_some]

theorem JournalStep.markedFinished {finished : StoredFinished} {result : Unit}
    (h : JournalStep db ⟨.markFinished attemptId finished atMs, .ok result⟩ db') :
    ∃ row row', (db.entry attemptId).attempt = some row ∧ (row.phase = .finished → row' = row) ∧
      db'.entry attemptId = { db.entry attemptId with attempt := some row' } ∧ row'.phase = .finished ∧
      row'.finished = some finished := by
  let Q : JournalDatabase → Prop := fun db' => ∃ row row', (db.entry attemptId).attempt = some row ∧
    (row.phase = .finished → row' = row) ∧ db'.entry attemptId = { db.entry attemptId with attempt := some row' } ∧
    row'.phase = .finished ∧ row'.finished = some finished
  suffices hwp : (markFinished attemptId finished atMs).wp db (fun _ => Q) fun _ _ => True from h.meets hwp
  refine wp_bind.mpr (wp_findAttempt (fun row hrow => wp_bind.mpr ?_) fun _ => trivial)
  unfold enterFinished
  rw [wp_ite]
  split
  · rename_i hphase
    cases hexisting : row.finished with
    | none => trivial
    | some existing =>
      simp only [wp_ite, wp_raise, wp_pure]
      split
      · trivial
      · rename_i hsame
        refine announce_wp fun db' heq => ⟨row, row, hrow, fun _ => rfl, ?_, hphase, hexisting.trans ?_⟩
        · rw [heq]
          simp [entry, hrow]
        · rw [not_not.mp hsame]
  · rename_i hphase
    simp only [wp_bind, wp_attempt, wp_write]
    refine ⟨fun now _ => announce_wp fun db' heq => ?_, fun _ _ => trivial⟩
    refine ⟨row, { row with phase := .finished, updatedAtMs := now, finished := some finished }, hrow,
      fun hf => absurd hf hphase, ?_, rfl, rfl⟩
    rw [heq, updateAttempt_entry]
    simp only [entry, hrow, Option.map_some]

theorem JournalStep.admitted {assignment : StoredAssignment} {result : StoreAdmissionOutcome}
    (h : JournalStep db ⟨.admitAttempt assignment atMs, .ok result⟩ db') :
    db'.entry assignment.attemptId.text = db.entry assignment.attemptId.text ∨
      (db.entry assignment.attemptId.text).attempt = none ∧ ∃ row, row.phase = .accepted ∧
        db'.entry assignment.attemptId.text = { db.entry assignment.attemptId.text with attempt := some row } := by
  let Q : JournalDatabase → Prop := fun db' =>
    db'.entry assignment.attemptId.text = db.entry assignment.attemptId.text ∨
      (db.entry assignment.attemptId.text).attempt = none ∧ ∃ row, row.phase = .accepted ∧
        db'.entry assignment.attemptId.text = { db.entry assignment.attemptId.text with attempt := some row }
  suffices hwp : (admitAttempt assignment atMs).wp db (fun _ => Q) fun _ _ => True from h.meets hwp
  have hrest : ∀ (db'' : JournalDatabase) (outcome : StoreAdmissionOutcome), Q db'' →
      (do
        let _ ← enqueueOutboxTransaction (acceptedMessage assignment (outcome = .duplicate)) atMs
        return outcome : JournalTransaction StoreAdmissionOutcome).wp db'' (fun _ => Q) fun _ _ => True := by
    intro db'' outcome hq
    refine wp_bind.mpr (wp_mono enqueueOutboxTransaction_keeps.wp (fun _ db' heq => ?_) fun _ _ _ => trivial)
    show Q db'
    have hentry : db'.entry = db''.entry := heq
    simpa only [Q, hentry] using hq
  have houtcome : (admissionOutcome assignment atMs).wp db (fun _ => Q) fun _ _ => True := by
    unfold admissionOutcome
    rw [wp_bind, wp_read]
    cases hl : db.attempts.lookup assignment.attemptId.text with
    | some existing =>
      simp only [wp_ite, wp_raise, wp_pure]
      split
      · trivial
      · exact .inl rfl
    | none =>
      simp only [wp_bind, wp_attempt, wp_write, wp_pure]
      refine ⟨fun now _ => .inr ⟨hl, ⟨assignment.assignmentId.text, assignment, .accepted, now, now, none⟩, rfl, ?_⟩,
        fun _ _ => trivial⟩
      simp [entry, insertAttempt]
  exact wp_bind.mpr (wp_mono houtcome (fun outcome db'' hq => hrest db'' outcome hq) fun _ _ _ => trivial)

end answers

end AlloyPort
