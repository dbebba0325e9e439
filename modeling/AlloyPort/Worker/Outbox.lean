import AlloyPort.Worker.Lease

/-! What the journal's operations can do to the outbox and its deliveries, and the order in which the
messages of an attempt are listed. -/

namespace AlloyPort

open Database Transaction JournalDatabase SqliteAttemptStore

/-- The attempt, the message id and the time of the message an operation enqueues. -/
def JournalOperation.enqueues : JournalOperation → Option (String × String × Nat)
  | .admitAttempt assignment admittedAtMs =>
    some (assignment.attemptId.text, s!"assignment-accepted:{assignment.attemptId}", admittedAtMs)
  | .markRunning attemptId atMs => some (attemptId, s!"execution-started:{attemptId}", atMs)
  | .markFinished attemptId _ atMs => some (attemptId, s!"execution-finished:{attemptId}", atMs)
  | .enqueueOutbox message atMs => some (message.attemptId, message.messageId, atMs)
  | _ => none

def OutboxMessageRow.of (message : WorkerOutboxMessage) (createdAtMs : Nat) : OutboxMessageRow :=
  ⟨message.messageId, message.attemptId, message.payload, createdAtMs⟩

def JournalDatabase.acknowledged (db : JournalDatabase) (connectionId : String) (through : Nat) : List String :=
  (db.deliveries.filter fun row => row.connectionId = connectionId ∧ row.sequence ≤ through).map
    OutboxDeliveryRow.messageId

inductive Announced (db db' : JournalDatabase) : JournalOperation → OutboxMessageRow → Prop where
  | accepted (assignment : StoredAssignment) (atMs : Nat) (alreadyKnown : Bool)
      (hk : alreadyKnown = (db.attempts.lookup assignment.attemptId.text).isSome)
      (ha : ∃ row, db'.attempts.lookup assignment.attemptId.text = some row ∧ row.assignment = assignment) :
      Announced db db' (.admitAttempt assignment atMs) (.of (acceptedMessage assignment alreadyKnown) atMs)
  | started (attemptId : String) (atMs : Nat) (row row' : LocalAttemptRow) (assignmentId : AssignmentId)
      (durableAttemptId : AttemptId) (ha : assignmentId.text = row.assignmentId)
      (hd : durableAttemptId.text = attemptId)
      (hrow : db.attempts.lookup attemptId = some row) (hrow' : db'.attempts.lookup attemptId = some row')
      (hp : row.phase ≠ .finished) (hp' : row'.phase = .running) :
      Announced db db' (.markRunning attemptId atMs)
        (.of (startedMessage attemptId assignmentId durableAttemptId) atMs)
  | finished (attemptId : String) (result : StoredFinished) (atMs : Nat) (row row' : LocalAttemptRow)
      (assignmentId : AssignmentId) (durableAttemptId : AttemptId) (ha : assignmentId.text = row.assignmentId)
      (hd : durableAttemptId.text = attemptId) (hrow : db.attempts.lookup attemptId = some row)
      (hrow' : db'.attempts.lookup attemptId = some row') (hp' : row'.phase = .finished)
      (hf : row'.finished = some result) :
      Announced db db' (.markFinished attemptId result atMs)
        (.of (finishedMessage attemptId result assignmentId durableAttemptId) atMs)
  | notice (message : WorkerOutboxMessage) (atMs : Nat) :
      Announced db db' (.enqueueOutbox message atMs) (.of message atMs)

inductive OutboxStep (db : JournalDatabase) (operation : JournalOperation) (db' : JournalDatabase) : Prop where
  | kept (ho : db'.outbox = db.outbox) (hd : db'.deliveries = db.deliveries)
      (he : ∀ attemptId messageId atMs, operation.enqueues = some (attemptId, messageId, atMs) →
        db.findMessage messageId ≠ none)
  | enqueued (row : OutboxMessageRow) (ha : Announced db db' operation row) (hn : db.findMessage row.messageId = none)
      (ho : db'.outbox = db.outbox ++ [row]) (hd : db'.deliveries = db.deliveries)
  | delivered (row : OutboxDeliveryRow)
      (hop : operation = .recordOutboxDelivery row.connectionId row.sequence row.messageId row.deliveredAtMs)
      (hm : db.findMessage row.messageId ≠ none)
      (hu : ∀ other ∈ db.deliveries, other.connectionId = row.connectionId → other.sequence ≠ row.sequence)
      (ho : db'.outbox = db.outbox) (hd : db'.deliveries = db.deliveries ++ [row])
  | acknowledged (connectionId : String) (through : Nat) (hop : operation = .acknowledgeOutbox connectionId through)
      (ho : db'.outbox = db.outbox.filter fun row => row.messageId ∉ db.acknowledged connectionId through)
      (hd : db'.deliveries = db.deliveries.filter fun row => row.messageId ∉ db.acknowledged connectionId through)
  | pruned (limit : Nat) (hop : operation = .pruneOutboxDeliveries limit) (ho : db'.outbox = db.outbox)
      (hd : db'.deliveries = db.deliveries.filter fun row => ¬ row.deliveredAtMs < limit)

variable {db db' : JournalDatabase} {attemptId : String} {operation : JournalOperation}

section operations

theorem toI64_journal {value stored : Nat} (h : SqliteAttemptStore.toI64 value = .ok stored) : stored = value := by
  unfold SqliteAttemptStore.toI64 at h
  split at h
  · cases h
    rfl
  · cases h

variable {message : WorkerOutboxMessage} {atMs admittedAtMs : Nat} {E : AttemptStoreError → JournalDatabase → Prop}
variable {assignment : StoredAssignment} {f : LocalAttemptRow → LocalAttemptRow} {row : LocalAttemptRow}
  {connectionId : String}

theorem wp_enqueueOutboxTransaction {Q : StoreOutboxOutcome → JournalDatabase → Prop}
    (hold : ∀ existing, db.findMessage message.messageId = some existing → Q .duplicate db)
    (hnew : db.findMessage message.messageId = none → Q .inserted (insertMessage (.of message atMs) db))
    (herror : ∀ error, E error db) : (enqueueOutboxTransaction message atMs).wp db Q E := by
  unfold enqueueOutboxTransaction
  rw [wp_bind, wp_read]
  cases h : db.findMessage message.messageId with
  | some existing =>
    simp only [wp_ite, wp_raise, wp_pure]
    split
    · exact herror _
    · exact hold existing h
  | none =>
    simp only [wp_bind, wp_attempt, wp_write, wp_pure]
    refine ⟨fun now hnow => ?_, fun error _ => herror error⟩
    rw [toI64_journal hnow]
    exact hnew h

theorem wp_admissionOutcome {Q : StoreAdmissionOutcome → JournalDatabase → Prop}
    (hold : ∀ row, db.attempts.lookup assignment.attemptId.text = some row → row.assignment = assignment →
      Q .duplicate db)
    (hnew : db.attempts.lookup assignment.attemptId.text = none →
      Q .inserted (insertAttempt assignment.attemptId.text
        ⟨assignment.assignmentId.text, assignment, .accepted, admittedAtMs, admittedAtMs, none⟩ db))
    (herror : ∀ error, E error db) : (admissionOutcome assignment admittedAtMs).wp db Q E := by
  unfold admissionOutcome
  rw [wp_bind, wp_read]
  cases h : db.attempts.lookup assignment.attemptId.text with
  | some existing =>
    simp only [wp_ite, wp_raise, wp_pure]
    split
    · exact herror _
    · rename_i hsame
      exact hold existing h (not_not.mp hsame)
  | none =>
    simp only [wp_bind, wp_attempt, wp_write, wp_pure]
    refine ⟨fun now hnow => ?_, fun error _ => herror error⟩
    rw [toI64_journal hnow]
    exact hnew h

theorem enqueue_outboxStep {db₀ : JournalDatabase} (ho : db.outbox = db₀.outbox) (hd : db.deliveries = db₀.deliveries)
    (he : operation.enqueues = some (message.attemptId, message.messageId, atMs))
    (ha : Announced db₀ (insertMessage (.of message atMs) db) operation (.of message atMs)) :
    (enqueueOutboxTransaction message atMs).wp db (fun _ db' => OutboxStep db₀ operation db') fun _ _ => True := by
  have hfind : db₀.findMessage message.messageId = db.findMessage message.messageId := by
    unfold findMessage
    rw [ho]
  refine wp_enqueueOutboxTransaction (fun existing h => ?_) (fun h => ?_) fun _ => trivial
  · refine .kept ho hd fun a id t heq => ?_
    rw [he] at heq
    cases heq
    rw [hfind, h]
    exact Option.some_ne_none existing
  · refine .enqueued (.of message atMs) ha (hfind.trans h) ?_ hd
    rw [← ho]
    rfl

theorem admit_outbox :
    (admitAttempt assignment admittedAtMs).wp db (fun _ db' =>
      OutboxStep db (.admitAttempt assignment admittedAtMs) db') fun _ _ => True := by
  unfold admitAttempt
  refine wp_bind.mpr (wp_admissionOutcome (fun row hrow hsame => ?_) (fun hnone => ?_) fun _ => trivial)
  · refine wp_bind.mpr (enqueue_outboxStep rfl rfl rfl (.accepted assignment admittedAtMs _ ?_ ⟨row, hrow, hsame⟩))
    rw [hrow]
    rfl
  · have hrow := AList.lookup_insert (b := (⟨assignment.assignmentId.text, assignment, .accepted, admittedAtMs,
      admittedAtMs, none⟩ : LocalAttemptRow)) (a := assignment.attemptId.text) db.attempts
    refine wp_bind.mpr (enqueue_outboxStep rfl rfl rfl (.accepted assignment admittedAtMs _ ?_ ⟨_, hrow, rfl⟩))
    rw [hnone]
    rfl

theorem updateAttempt_outbox :
    (updateAttempt attemptId f db).outbox = db.outbox ∧ (updateAttempt attemptId f db).deliveries = db.deliveries := by
  unfold updateAttempt
  split <;> exact ⟨rfl, rfl⟩

theorem updateAttempt_lookup (h : db.attempts.lookup attemptId = some row) :
    (updateAttempt attemptId f db).attempts.lookup attemptId = some (f row) := by
  simp only [updateAttempt, h, AList.lookup_insert]

theorem wp_announce {message : AssignmentId → AttemptId → WorkerOutboxMessage}
    {Q : Unit → JournalDatabase → Prop}
    (h : ∀ assignmentId durableAttemptId, assignmentId.text = row.assignmentId → durableAttemptId.text = attemptId →
      (enqueueOutboxTransaction (message assignmentId durableAttemptId) atMs).wp db (fun _ db' => Q () db') E)
    (herror : ∀ error, E error db) : (announce row attemptId message atMs).wp db Q E := by
  unfold announce durableIdentity
  rw [wp_bind]
  split
  · exact herror _
  · rename_i assignmentId hassignment
    split
    · exact herror _
    · rename_i durableAttemptId hattempt
      rw [wp_pure, wp_bind]
      exact h assignmentId durableAttemptId (ValidatedId.tryFrom_text hassignment) (ValidatedId.tryFrom_text hattempt)

theorem markRunning_outbox :
    (markRunning attemptId atMs).wp db (fun _ db' => OutboxStep db (.markRunning attemptId atMs) db')
      fun _ _ => True := by
  unfold markRunning
  refine wp_bind.mpr (wp_findAttempt (fun row hrow => ?_) fun _ => trivial)
  unfold enterRunning
  have hannounce : ∀ db' row', db'.outbox = db.outbox → db'.deliveries = db.deliveries →
      db'.attempts.lookup attemptId = some row' → row.phase ≠ .finished → row'.phase = .running →
      (announce row attemptId (startedMessage attemptId) atMs).wp db'
        (fun _ db'' => OutboxStep db (.markRunning attemptId atMs) db'') fun _ _ => True := by
    intro db' row' ho hd hrow' hp hp'
    refine wp_announce (fun assignmentId durableAttemptId ha hda => ?_) fun _ => trivial
    exact enqueue_outboxStep ho hd rfl
      (.started attemptId atMs row row' assignmentId durableAttemptId ha hda hrow hrow' hp hp')
  cases hphase : row.phase with
  | finished => exact wp_bind.mpr trivial
  | running => exact wp_bind.mpr (hannounce db row rfl rfl hrow (by simp [hphase]) hphase)
  | accepted =>
    simp only [wp_bind, wp_attempt, wp_write]
    refine ⟨fun now _ => ?_, fun _ _ => trivial⟩
    exact hannounce _ _ updateAttempt_outbox.1 updateAttempt_outbox.2 (updateAttempt_lookup hrow) (by simp [hphase]) rfl

theorem markFinished_outbox {result : StoredFinished} :
    (markFinished attemptId result atMs).wp db (fun _ db' => OutboxStep db (.markFinished attemptId result atMs) db')
      fun _ _ => True := by
  unfold markFinished
  refine wp_bind.mpr (wp_findAttempt (fun row hrow => ?_) fun _ => trivial)
  unfold enterFinished
  have hannounce : ∀ db' row', db'.outbox = db.outbox → db'.deliveries = db.deliveries →
      db'.attempts.lookup attemptId = some row' → row'.phase = .finished → row'.finished = some result →
      (announce row attemptId (finishedMessage attemptId result) atMs).wp db'
        (fun _ db'' => OutboxStep db (.markFinished attemptId result atMs) db'') fun _ _ => True := by
    intro db' row' ho hd hrow' hp' hf
    refine wp_announce (fun assignmentId durableAttemptId ha hda => ?_) fun _ => trivial
    exact enqueue_outboxStep ho hd rfl
      (.finished attemptId result atMs row row' assignmentId durableAttemptId ha hda hrow hrow' hp' hf)
  rw [wp_bind, wp_ite]
  split
  · rename_i hphase
    cases hfinished : row.finished with
    | none => trivial
    | some existing =>
      simp only [wp_ite, wp_raise, wp_pure]
      split
      · trivial
      · rename_i hsame
        refine hannounce db row rfl rfl hrow hphase ?_
        rw [hfinished, not_not.mp hsame]
  · simp only [wp_bind, wp_attempt, wp_write]
    refine ⟨fun now _ => ?_, fun _ _ => trivial⟩
    exact hannounce _ _ updateAttempt_outbox.1 updateAttempt_outbox.2 (updateAttempt_lookup hrow) rfl rfl

theorem recordOutboxDelivery_outbox {messageId : String} {sequence : Nat} :
    (recordOutboxDelivery connectionId sequence messageId atMs).wp db
      (fun _ db' => OutboxStep db (.recordOutboxDelivery connectionId sequence messageId atMs) db')
        fun _ _ => True := by
  unfold recordOutboxDelivery
  simp only [wp_bind, wp_attempt, wp_read, wp_ite, wp_raise, wp_write]
  refine ⟨fun stored hstored => ⟨fun now hnow => ?_, fun _ _ => trivial⟩, fun _ _ => trivial⟩
  rw [toI64_journal hstored, toI64_journal hnow]
  split
  · trivial
  · rename_i hunique
    split
    · trivial
    · rename_i hmessage
      refine .delivered ⟨connectionId, sequence, messageId, atMs⟩ rfl hmessage
        (fun other hmem hc hs => hunique ?_) rfl rfl
      exact List.any_eq_true.mpr ⟨other, hmem, by simp [hc, hs]⟩

theorem deleteMessages_wp (messageIds : List String) {Q : Nat → JournalDatabase → Prop}
    (h : ∀ deleted, Q deleted { db with
      outbox := db.outbox.filter fun row => row.messageId ∉ messageIds
      deliveries := db.deliveries.filter fun row => row.messageId ∉ messageIds }) :
    (deleteMessages messageIds).wp db Q fun _ _ => True := by
  induction messageIds generalizing db Q with
  | nil =>
    have hdeleted := h 0
    simp only [List.not_mem_nil, not_false_eq_true, decide_true, List.filter_true] at hdeleted
    exact hdeleted
  | cons messageId rest ih =>
    simp only [deleteMessages, wp_bind, wp_read, wp_write]
    refine ih fun deleted => wp_pure.mpr ?_
    have hdeleted := h ((db.outbox.countP fun row => row.messageId = messageId) + deleted)
    simp only [deleteMessage, List.filter_filter]
    simpa only [List.mem_cons, not_or, Bool.decide_and, Bool.and_comm] using hdeleted

theorem acknowledgeOutbox_outbox {through : Nat} :
    (acknowledgeOutbox connectionId through).wp db
      (fun _ db' => OutboxStep db (.acknowledgeOutbox connectionId through) db') fun _ _ => True := by
  unfold acknowledgeOutbox
  simp only [wp_bind, wp_attempt, wp_read]
  refine ⟨fun stored hstored => ?_, fun _ _ => trivial⟩
  rw [toI64_journal hstored]
  exact deleteMessages_wp _ fun _ => .acknowledged connectionId through rfl rfl rfl

theorem pruneOutboxDeliveries_outbox {olderThanMs : Nat} :
    (pruneOutboxDeliveries olderThanMs).wp db (fun _ db' => OutboxStep db (.pruneOutboxDeliveries olderThanMs) db')
      fun _ _ => True := by
  unfold pruneOutboxDeliveries
  simp only [wp_bind, wp_attempt, wp_read, wp_write, wp_pure]
  refine ⟨fun stored hstored => ?_, fun _ _ => trivial⟩
  rw [toI64_journal hstored]
  exact .pruned olderThanMs rfl rfl rfl

def JournalDatabase.messages (db : JournalDatabase) : List OutboxMessageRow × List OutboxDeliveryRow :=
  (db.outbox, db.deliveries)

theorem bindWorker_messages {workerId : String} : Keeps messages (bindWorker workerId) := by
  refine keeps_bind keeps_read fun db => ?_
  split
  · exact keeps_ite keeps_raise keeps_pure
  · exact keeps_write fun _ => rfl

theorem OutboxStep.of_keeps {α : Type} {t : JournalTransaction α} (h : Keeps messages t)
    (he : operation.enqueues = none) : t.wp db (fun _ db' => OutboxStep db operation db') fun _ _ => True := by
  refine wp_mono h.wp (fun _ db' hd => ?_) fun _ _ _ => trivial
  obtain ⟨ho, hd⟩ := Prod.mk.inj hd
  exact .kept ho hd fun _ _ _ heq => by rw [he] at heq; cases heq

theorem JournalOperation.outbox (operation : JournalOperation) :
    operation.transaction.wp db (fun _ db' => OutboxStep db operation db') fun _ _ => True := by
  cases operation with
  | bindWorker => exact OutboxStep.of_keeps bindWorker_messages rfl
  | admitAttempt => exact admit_outbox
  | markRunning => exact markRunning_outbox
  | markFinished => exact markFinished_outbox
  | enqueueOutbox message atMs => exact enqueue_outboxStep rfl rfl rfl (.notice message atMs)
  | recordOutboxDelivery => exact recordOutboxDelivery_outbox
  | acknowledgeOutbox => exact acknowledgeOutbox_outbox
  | pruneOutboxDeliveries => exact pruneOutboxDeliveries_outbox
  | acquireDeviceLease => exact OutboxStep.of_keeps (acquireDeviceLease_keeps fun _ _ => rfl) rfl
  | releaseDeviceLease => exact OutboxStep.of_keeps (releaseDeviceLease_keeps fun _ _ => rfl) rfl
  | recordDevicePreflight => exact OutboxStep.of_keeps (recordDevicePreflight_keeps fun _ => rfl) rfl
  | attempt | attempts | pendingOutbox | outboxLen | activeDeviceLeases | devicePreflight =>
    exact OutboxStep.of_keeps (fun _ => rfl) rfl

end operations

variable {e : JournalEvent}

theorem JournalStep.outbox (h : JournalStep db e db') :
    (∃ error, e.reply = .error error) ∧ db' = db ∨ (∃ result, e.reply = .ok result) ∧ OutboxStep db e.call db' := by
  cases h with
  | failed operation error _ => exact .inl ⟨⟨error, rfl⟩, rfl⟩
  | ran operation =>
    rcases run_cases (operation.outbox : operation.transaction.wp db _ _) with
      ⟨result, hreply, hq⟩ | ⟨error, hreply, hd⟩
    · exact .inr ⟨⟨result, hreply⟩, hq⟩
    · exact .inl ⟨⟨error, hreply⟩, hd⟩

end AlloyPort
