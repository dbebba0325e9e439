import AlloyPort.Worker.Outbox

/-! The order in which `pending_outbox` lists the messages of an attempt. The query sorts by the time
of a message and then by its id, so it agrees with the order of enqueueing exactly as long as every
message comes after those of its attempt that are still pending. -/

namespace AlloyPort

open Database JournalDatabase SqliteAttemptStore

/-- The messages of an attempt are listed in the order in which they were enqueued. -/
def PendingInOrder (db : JournalDatabase) (attemptId : String) : Prop :=
  (pendingOutbox db).filter (fun message => message.attemptId = attemptId) =
    (db.outbox.filter fun row => row.attemptId = attemptId).map OutboxMessageRow.message

def EnqueuesInOrder (db : JournalDatabase) (e : JournalEvent) : Prop :=
  (∃ result, e.reply = .ok result) → ∀ attemptId messageId atMs,
    e.call.enqueues = some (attemptId, messageId, atMs) → db.findMessage messageId = none →
    ∀ row ∈ db.outbox, row.attemptId = attemptId →
      row.createdAtMs < atMs ∨ row.createdAtMs = atMs ∧ row.messageId ≤ messageId

inductive JournalRunWith (guard : JournalDatabase → JournalEvent → JournalDatabase → Prop) :
    List JournalEvent → JournalDatabase → Prop where
  | start : JournalRunWith guard [] .empty
  | step {log db e db'} (h : JournalRunWith guard log db) (hs : JournalStep db e db') (hg : guard db e db') :
      JournalRunWith guard (log ++ [e]) db'

def WorkerOutboxPayload.isNotice : WorkerOutboxPayload → Bool
  | .assignmentRejected _ _ _ _ | .cancellationAcknowledged _ _ _ => true
  | _ => false

/-- Besides the lifecycle operations the worker enqueues rejections and cancellation notices only. -/
def JournalOperation.isWorkers : JournalOperation → Bool
  | .enqueueOutbox message _ => message.payload.isNotice
  | _ => true

/-- The first acceptance comes before the start and the result of an attempt, its start before its result. -/
def WorkerOutboxPayload.causes : WorkerOutboxPayload → WorkerOutboxPayload → Bool
  | .assignmentAccepted _ _ false, .executionStarted _ _ => true
  | .assignmentAccepted _ _ false, .executionFinished _ _ _ => true
  | .executionStarted _ _, .executionFinished _ _ _ => true
  | _, _ => false

/-- No message of an attempt stands before one that comes before it. -/
def Causal (attemptId : String) (rows : List OutboxMessageRow) : Prop :=
  rows.Pairwise fun x y => x.attemptId = attemptId → y.attemptId = attemptId → y.payload.causes x.payload = false

variable {db db' : JournalDatabase} {e : JournalEvent} {log : List JournalEvent} {attemptId : String}
variable {guard guard' : JournalDatabase → JournalEvent → JournalDatabase → Prop}

section query

instance : Std.Total OutboxMessageRow.Before where
  total a b := by
    rcases Nat.lt_trichotomy a.createdAtMs b.createdAtMs with h | h | h
    · exact .inl (.inl h)
    · rcases String.le_total a.messageId b.messageId with hid | hid
      · exact .inl (.inr ⟨h, hid⟩)
      · exact .inr (.inr ⟨h.symm, hid⟩)
    · exact .inr (.inl h)

instance : IsTrans OutboxMessageRow OutboxMessageRow.Before where
  trans a b c := by
    rintro (hab | ⟨hab, hidab⟩) (hbc | ⟨hbc, hidbc⟩)
    · exact .inl (hab.trans hbc)
    · exact .inl (hbc ▸ hab)
    · exact .inl (hab ▸ hbc)
    · exact .inr ⟨hab.trans hbc, String.le_trans hidab hidbc⟩

def JournalDatabase.Keyed (db : JournalDatabase) : Prop := (db.outbox.map OutboxMessageRow.messageId).Nodup

theorem filter_insertionSort {α : Type} {r : α → α → Prop} [DecidableRel r] {p : α → Bool} {l : List α}
    (h : (l.filter p).Pairwise r) : (l.insertionSort r).filter p = l.filter p := by
  have hsub := (List.sublist_insertionSort h List.filter_sublist).filter p
  rw [List.filter_filter] at hsub
  simp only [Bool.and_self] at hsub
  exact (hsub.eq_of_length ((List.perm_insertionSort r l).filter p).length_eq.symm).symm

theorem pendingOutbox_filter : (pendingOutbox db).filter (fun message => message.attemptId = attemptId) =
    ((db.outbox.insertionSort OutboxMessageRow.Before).filter fun row => row.attemptId = attemptId).map
      OutboxMessageRow.message := by
  unfold pendingOutbox
  rw [List.filter_map]
  rfl

theorem map_injOn {α β : Type} {f : α → β} {l l' s : List α} (h : l.map f = l'.map f) (hl : l ⊆ s) (hl' : l' ⊆ s)
    (hf : ∀ x ∈ s, ∀ y ∈ s, f x = f y → x = y) : l = l' := by
  induction l generalizing l' with
  | nil => exact (List.map_eq_nil_iff.mp h.symm).symm
  | cons a l ih =>
    cases l' with
    | nil => cases h
    | cons b l' =>
      obtain ⟨hab, hrest⟩ := List.cons.inj h
      rw [hf a (hl List.mem_cons_self) b (hl' List.mem_cons_self) hab,
        ih hrest (fun x hx => hl (List.mem_cons_of_mem a hx)) fun x hx => hl' (List.mem_cons_of_mem b hx)]

theorem pendingInOrder_iff (hkeys : db.Keyed) : PendingInOrder db attemptId ↔
    (db.outbox.filter fun row => row.attemptId = attemptId).Pairwise OutboxMessageRow.Before := by
  unfold PendingInOrder
  rw [pendingOutbox_filter]
  constructor
  · intro h
    have heq := map_injOn (s := db.outbox) h (fun x hx => (List.mem_insertionSort _).mp (List.mem_filter.mp hx).1)
      (fun x hx => (List.mem_filter.mp hx).1)
      fun x hx y hy hxy => List.inj_on_of_nodup_map hkeys hx hy (congrArg WorkerOutboxMessage.messageId hxy)
    rw [← heq]
    exact (List.pairwise_insertionSort _ db.outbox).sublist List.filter_sublist
  · intro h
    rw [filter_insertionSort h]

end query

section steps

theorem findMessage_none {messageId : String} (h : db.findMessage messageId = none) :
    ∀ row ∈ db.outbox, row.messageId ≠ messageId := by
  intro row hmem
  have hfind := List.find?_eq_none.mp h row hmem
  simpa using hfind

theorem Announced.enqueues {operation : JournalOperation} {row : OutboxMessageRow}
    (h : Announced db db' operation row) :
    operation.enqueues = some (row.attemptId, row.messageId, row.createdAtMs) := by
  cases h <;> rfl

theorem JournalStep.outbox_cases (h : JournalStep db e db') :
    (∃ row, db'.outbox = db.outbox ++ [row] ∧ Announced db db' e.call row ∧ (∃ result, e.reply = .ok result) ∧
      db.findMessage row.messageId = none) ∨ db'.outbox.Sublist db.outbox ∧ EnqueuesInOrder db e := by
  rcases h.outbox with ⟨⟨error, herror⟩, rfl⟩ | ⟨hreply, hstep⟩
  · refine .inr ⟨.refl _, fun ⟨result, hresult⟩ => ?_⟩
    rw [herror] at hresult
    cases hresult
  · have hnone : e.call.enqueues = none → EnqueuesInOrder db e := fun hnone _ _ _ _ heq => by
      rw [hnone] at heq
      cases heq
    cases hstep with
    | enqueued row ha hn ho => exact .inl ⟨row, ho, ha, hreply, hn⟩
    | kept ho _ he => exact .inr ⟨ho ▸ .refl _, fun _ a id t heq hn => absurd hn (he a id t heq)⟩
    | delivered _ hop _ _ ho | pruned _ hop ho => exact .inr ⟨ho ▸ .refl _, hnone (by rw [hop]; rfl)⟩
    | acknowledged _ _ hop ho => exact .inr ⟨ho ▸ List.filter_sublist, hnone (by rw [hop]; rfl)⟩

theorem JournalStep.keyed (h : JournalStep db e db') (hkeys : db.Keyed) : db'.Keyed := by
  unfold Keyed at hkeys ⊢
  rcases h.outbox_cases with ⟨row, ho, _, _, hn⟩ | ⟨hsub, _⟩
  · rw [ho, List.map_append]
    refine hkeys.append (List.nodup_singleton _) fun messageId hmem hnew => ?_
    obtain ⟨other, hother, hid⟩ := List.mem_map.mp hmem
    rw [List.map_singleton, List.mem_singleton] at hnew
    exact findMessage_none hn other hother (hid.trans hnew)
  · exact hkeys.sublist (hsub.map _)

theorem JournalRunWith.keyed (h : JournalRunWith guard log db) : db.Keyed := by
  induction h with
  | start => exact List.nodup_nil
  | step _ hs _ ih => exact hs.keyed ih

def JournalDatabase.Ordered (db : JournalDatabase) : Prop :=
  ∀ attemptId, (db.outbox.filter fun row => row.attemptId = attemptId).Pairwise OutboxMessageRow.Before

theorem JournalStep.ordered (h : JournalStep db e db') (ho : db.Ordered) : EnqueuesInOrder db e ↔ db'.Ordered := by
  rcases h.outbox_cases with ⟨row, heq, ha, hreply, hn⟩ | ⟨hsub, horder⟩
  · have hlast : db'.Ordered ↔ ∀ other ∈ db.outbox, other.attemptId = row.attemptId → other.Before row := by
      constructor
      · intro hordered other hmem hattempt
        have hrows := hordered row.attemptId
        rw [heq, List.filter_append, List.pairwise_append] at hrows
        exact hrows.2.2 other (List.mem_filter.mpr ⟨hmem, by simpa using hattempt⟩) row (by simp)
      · intro hbefore attemptId
        rw [heq, List.filter_append, List.pairwise_append]
        refine ⟨ho attemptId, List.pairwise_singleton _ row |>.sublist List.filter_sublist, fun x hx y hy => ?_⟩
        obtain ⟨hx, hxa⟩ := List.mem_filter.mp hx
        obtain ⟨hy, hya⟩ := List.mem_filter.mp hy
        rw [List.mem_singleton] at hy
        subst hy
        exact hbefore x hx ((of_decide_eq_true hxa).trans (of_decide_eq_true hya).symm)
    rw [hlast]
    constructor
    · exact fun horder other hmem hattempt => horder hreply _ _ _ ha.enqueues hn other hmem hattempt
    · intro hbefore _ attemptId messageId atMs henqueues _ other hmem hattempt
      rw [ha.enqueues] at henqueues
      cases henqueues
      exact hbefore other hmem hattempt
  · refine ⟨fun _ attemptId => ?_, fun _ => horder⟩
    exact (ho attemptId).sublist (hsub.filter _)

theorem JournalRunWith.ordered (h : JournalRunWith (fun db e _ => EnqueuesInOrder db e) log db) : db.Ordered := by
  induction h with
  | start => exact fun _ => .nil
  | step _ hs hg ih => exact (hs.ordered ih).mp hg

theorem JournalRunWith.mono (h : JournalRunWith guard log db) (hg : ∀ db e db', guard db e db' → guard' db e db') :
    JournalRunWith guard' log db := by
  induction h with
  | start => exact .start
  | step _ hs hguard ih => exact .step ih hs (hg _ _ _ hguard)

theorem JournalRunWith.inOrder_iff : JournalRunWith (fun db e _ => EnqueuesInOrder db e) log db ↔
    JournalRunWith (fun _ _ db' => ∀ attemptId, PendingInOrder db' attemptId) log db := by
  constructor
  · intro h
    induction h with
    | start => exact .start
    | step h hs hg ih =>
      refine .step ih hs fun attemptId => (pendingInOrder_iff (hs.keyed h.keyed)).mpr ?_
      exact (hs.ordered h.ordered).mp hg attemptId
  · intro h
    induction h with
    | start => exact .start
    | step h hs hg ih =>
      refine .step ih hs ((hs.ordered ih.ordered).mpr fun attemptId => ?_)
      exact (pendingInOrder_iff (hs.keyed h.keyed)).mp (hg attemptId)

end steps

section causality

/-- A start or a result is announced for an attempt that the journal holds, a result for a finished one. -/
def JournalDatabase.Announces (db : JournalDatabase) : Prop :=
  ∀ row ∈ db.outbox, match row.payload with
    | .executionStarted _ _ => ∃ held, db.attempts.lookup row.attemptId = some held
    | .executionFinished _ _ _ => ∃ held, db.attempts.lookup row.attemptId = some held ∧ held.phase = .finished
    | _ => True

theorem JournalStep.announces (h : JournalStep db e db') (hw : e.call.isWorkers = true) (ha : db.Announces) :
    db'.Announces := by
  have hkept : ∀ row ∈ db.outbox, match row.payload with
      | .executionStarted _ _ => ∃ held, db'.attempts.lookup row.attemptId = some held
      | .executionFinished _ _ _ => ∃ held, db'.attempts.lookup row.attemptId = some held ∧ held.phase = .finished
      | _ => True := by
    intro row hmem
    have hrow := ha row hmem
    have hendures := (h.local.endures row.attemptId).attempt
    split
    · rename_i heq
      rw [heq] at hrow
      obtain ⟨held, hheld⟩ := hrow
      obtain ⟨held', hheld', _⟩ := hendures held hheld
      exact ⟨held', hheld'⟩
    · rename_i heq
      rw [heq] at hrow
      obtain ⟨held, hheld, hp⟩ := hrow
      obtain ⟨held', hheld', _, hsame⟩ := hendures held hheld
      exact ⟨held', hheld', by rw [hsame hp]; exact hp⟩
    · trivial
  intro row hmem
  rcases h.outbox_cases with ⟨new, ho, hnew, _, _⟩ | ⟨hsub, _⟩
  · rw [ho] at hmem
    rcases List.mem_append.mp hmem with hmem | hmem
    · exact hkept row hmem
    · rw [List.mem_singleton] at hmem
      subst hmem
      generalize e.call = operation at hnew hw
      cases hnew with
      | accepted => trivial
      | started _ _ _ row' _ _ _ _ _ hrow' => exact ⟨row', hrow'⟩
      | finished _ _ _ _ row' _ _ _ _ _ hrow' hp' => exact ⟨row', hrow', hp'⟩
      | notice message =>
        have hnotice : message.payload.isNotice = true := hw
        cases hpayload : message.payload <;> simp only [OutboxMessageRow.of, hpayload]
        all_goals
          rw [hpayload] at hnotice
          cases hnotice
  · exact hkept row (hsub.subset hmem)

theorem Announced.causes_none {operation : JournalOperation} {row other : OutboxMessageRow}
    (h : Announced db db' operation row) (hw : operation.isWorkers = true) (ha : db.Announces)
    (hmem : other ∈ db.outbox)
    (hattempt : other.attemptId = row.attemptId) : row.payload.causes other.payload = false := by
  have hother := ha other hmem
  rw [hattempt] at hother
  cases h with
  | accepted assignment atMs alreadyKnown hk =>
    cases alreadyKnown with
    | true => rfl
    | false =>
      have hnone : db.attempts.lookup assignment.attemptId.text = none := by
        rwa [eq_comm, Option.isSome_eq_false_iff, Option.isNone_iff_eq_none] at hk
      cases hpayload : other.payload <;> rw [hpayload] at hother
      case executionStarted => 
        obtain ⟨held, hheld⟩ := hother
        cases hnone.symm.trans hheld
      case executionFinished =>
        obtain ⟨held, hheld, _⟩ := hother
        cases hnone.symm.trans hheld
      all_goals rfl
  | started _ _ held _ _ _ _ _ hheld _ hp =>
    cases hpayload : other.payload <;> rw [hpayload] at hother
    case executionFinished =>
      obtain ⟨held', hheld', hp'⟩ := hother
      cases hheld.symm.trans hheld'
      exact absurd hp' hp
    all_goals rfl
  | finished => rfl
  | notice message =>
    have hnotice : message.payload.isNotice = true := hw
    show message.payload.causes other.payload = false
    cases hpayload : message.payload <;> rw [hpayload] at hnotice
    all_goals first | rfl | cases hnotice

theorem JournalStep.causal (h : JournalStep db e db') (hw : e.call.isWorkers = true) (ha : db.Announces)
    (hc : Causal attemptId db.outbox) : Causal attemptId db'.outbox := by
  unfold Causal at hc ⊢
  rcases h.outbox_cases with ⟨row, ho, hnew, _, _⟩ | ⟨hsub, _⟩
  · rw [ho, List.pairwise_append]
    refine ⟨hc, List.pairwise_singleton _ row, fun other hmem last hlast hother hrow => ?_⟩
    rw [List.mem_singleton] at hlast
    subst hlast
    exact hnew.causes_none hw ha hmem (hother.trans hrow.symm)
  · exact hc.sublist hsub

theorem JournalRunWith.causal (h : JournalRunWith guard log db)
    (hw : ∀ db e db', guard db e db' → e.call.isWorkers = true) :
    db.Announces ∧ ∀ attemptId, Causal attemptId db.outbox := by
  induction h with
  | start => exact ⟨fun _ h => (by cases h), fun _ => .nil⟩
  | step _ hs hg ih =>
    have hworkers := hw _ _ _ hg
    exact ⟨hs.announces hworkers ih.1, fun attemptId => hs.causal hworkers ih.1 (ih.2 attemptId)⟩

end causality

/-- A history lists every attempt's messages in the order of their enqueueing, in each of its states, if
and only if all its steps enqueue in order; the worker's histories then list no result before its
start and neither before the first acceptance. -/
theorem pendingOutbox_lists_in_order (log : List JournalEvent) (db : JournalDatabase) :
    (JournalRunWith (fun db e _ => EnqueuesInOrder db e) log db ↔
      JournalRunWith (fun _ _ db' => ∀ attemptId, PendingInOrder db' attemptId) log db) ∧
    (JournalRunWith (fun db e _ => EnqueuesInOrder db e ∧ e.call.isWorkers = true) log db → ∀ attemptId,
      ((pendingOutbox db).filter fun message => message.attemptId = attemptId).Pairwise
        fun first second => second.payload.causes first.payload = false) := by
  refine ⟨JournalRunWith.inOrder_iff, fun h attemptId => ?_⟩
  have hordered := (h.mono fun _ _ _ hg => hg.1 : JournalRunWith (fun db e _ => EnqueuesInOrder db e) log db).ordered
  have hpending : PendingInOrder db attemptId := (pendingInOrder_iff h.keyed).mpr (hordered attemptId)
  have hcausal := (h.causal fun _ _ _ hg => hg.2).2 attemptId
  rw [hpending, List.pairwise_map, List.pairwise_filter]
  exact hcausal.imp fun hxy hx hy => hxy (of_decide_eq_true hx) (of_decide_eq_true hy)

def sampleLifecycle (startedAtMs finishedAtMs : Nat) : JournalDatabase :=
  executeJournal [.admitAttempt sampleContract 10, .markRunning "attempt" startedAtMs,
    .markFinished "attempt" (sampleFinished "done") finishedAtMs] .empty

theorem sampleLifecycle_run {startedAtMs finishedAtMs : Nat}
    (hg : ∀ db operation db', operation.isWorkers = true →
      (∀ attemptId messageId atMs, operation.enqueues = some (attemptId, messageId, atMs) →
        ∀ row ∈ db.outbox, row.createdAtMs < atMs) → guard db ⟨operation, (operation.execute db).2⟩ db')
    (hstarted : ∀ row ∈ (executeJournal [.admitAttempt sampleContract 10] .empty).outbox, row.createdAtMs < startedAtMs)
    (hfinished : ∀ row ∈ (executeJournal [.admitAttempt sampleContract 10,
      .markRunning "attempt" startedAtMs] .empty).outbox, row.createdAtMs < finishedAtMs) :
    ∃ log, JournalRunWith guard log (sampleLifecycle startedAtMs finishedAtMs) := by
  refine ⟨_, .step (.step (.step .start (.ran (.admitAttempt sampleContract 10)) ?_)
    (.ran (.markRunning "attempt" startedAtMs)) ?_)
    (.ran (.markFinished "attempt" (sampleFinished "done") finishedAtMs)) ?_⟩
  · refine hg _ _ _ rfl fun attemptId messageId atMs _ row hmem => ?_
    cases hmem
  · refine hg _ _ _ rfl fun attemptId messageId atMs henqueues row hmem => ?_
    cases henqueues
    exact hstarted row hmem
  · refine hg _ _ _ rfl fun attemptId messageId atMs henqueues row hmem => ?_
    cases henqueues
    exact hfinished row hmem

theorem pendingOutbox_lists_in_order_sample :
    (∃ log, JournalRunWith (fun db e _ => EnqueuesInOrder db e ∧ e.call.isWorkers = true) log (sampleLifecycle 11 12)) ∧
      ((pendingOutbox (sampleLifecycle 11 12)).filter fun message => message.attemptId = "attempt").Pairwise
        fun first second => second.payload.causes first.payload = false := by
  obtain ⟨log, hrun⟩ : ∃ log, JournalRunWith (fun db e _ => EnqueuesInOrder db e ∧ e.call.isWorkers = true) log
      (sampleLifecycle 11 12) := by
    refine sampleLifecycle_run (fun db operation db' hworkers hlater => ⟨?_, hworkers⟩) (by decide)
      (by decide)
    exact fun _ attemptId messageId atMs henqueues _ row hmem _ =>
      .inl (hlater attemptId messageId atMs henqueues row hmem)
  exact ⟨⟨log, hrun⟩, (pendingOutbox_lists_in_order log _).2 hrun "attempt"⟩

/-- A result in the millisecond of its start is listed before it. -/
theorem pendingOutbox_lists_result_first :
    ∃ log db, JournalRunWith (fun _ e _ => e.call.isWorkers = true) log db ∧
      db.outbox.map OutboxMessageRow.messageId =
        ["assignment-accepted:attempt", "execution-started:attempt", "execution-finished:attempt"] ∧
      (pendingOutbox db).map WorkerOutboxMessage.messageId =
        ["assignment-accepted:attempt", "execution-finished:attempt", "execution-started:attempt"] := by
  refine ⟨_, sampleLifecycle 11 11, .step (.step (.step .start (.ran (.admitAttempt sampleContract 10)) rfl)
    (.ran (.markRunning "attempt" 11)) rfl) (.ran (.markFinished "attempt" (sampleFinished "done") 11)) rfl, ?_, ?_⟩
  · decide
  · decide

end AlloyPort
