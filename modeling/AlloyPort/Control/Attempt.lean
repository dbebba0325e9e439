import AlloyPort.Library.SharedStore
import AlloyPort.Control.Change

/-! Runs of the control repository. Finished, rejected, expired and cancelled attempts stay so, an
expiry is never taken back, and a lease is only ever held by an attempt that was delivered. -/

namespace AlloyPort

open Database Transaction ControlDatabase SqliteControlRepository AttemptState

abbrev ControlEvent := SharedStore.Event ControlOperation ControlOperation.Reply

def RepositoryError.isStorage : RepositoryError → Bool
  | .storage _ | .lockPoisoned => true
  | _ => false

/-- An operation runs to its end or its storage fails. A failure leaves nothing behind, except for the
first statement of `update_connection_sequences`, which is committed on its own. -/
inductive ControlStep (db : ControlDatabase) : ControlEvent → ControlDatabase → Prop where
  | ran (operation : ControlOperation) :
      ControlStep db ⟨operation, (operation.execute db).2⟩ (operation.execute db).1
  | failed (operation : ControlOperation) (e : RepositoryError) (he : e.isStorage = true) :
      ControlStep db ⟨operation, .error e⟩ db
  | interrupted (connectionId : String) (lastWorker lastServer acknowledged observedAtMs : Nat)
      (e : RepositoryError) (he : e.isStorage = true) :
      ControlStep db ⟨.updateConnectionSequences connectionId lastWorker lastServer acknowledged observedAtMs, .error e⟩
        ((updateSequences connectionId lastWorker lastServer acknowledged).run db).1

inductive ControlRun : List ControlEvent → ControlDatabase → Prop where
  | empty : ControlRun [] .empty
  | step {log db e db'} (h : ControlRun log db) (hs : ControlStep db e db') : ControlRun (log ++ [e]) db'

abbrev ControlSteps : ControlDatabase → ControlDatabase → Prop :=
  Relation.ReflTransGen fun db db' => ∃ e, ControlStep db e db'

def ControlOperation.nowMs : ControlOperation → Nat
  | prepareAssignmentDelivery preparation => preparation.nowMs
  | observeAttempt observation => observation.observedAtMs
  | renewActiveLeases _ _ nowMs _ => nowMs
  | expireLeases nowMs => nowMs
  | _ => 0

def Delivers : ControlEvent → String → Prop
  | ⟨.prepareAssignmentDelivery preparation, .ok _⟩, attemptId => preparation.frame.attemptId = some attemptId
  | _, _ => False

def Dispatches : ControlEvent → String → Prop
  | ⟨.markAssignmentDispatchable attemptId _ _, .ok marked⟩, other => marked = true ∧ other = attemptId
  | _, _ => False

def Observes : ControlEvent → String → AttemptState → Prop
  | ⟨.observeAttempt observation, _⟩, attemptId, target =>
    attemptId = observation.attemptId.text ∧ observation.observation.targetState = some target
  | _, _, _ => False

def eventCause (e : ControlEvent) : Cause := ⟨Delivers e, Dispatches e, Observes e⟩

variable {log : List ControlEvent} {db db' : ControlDatabase} {e : ControlEvent} {nowMs : Nat}
variable {attemptId : String} {operation : ControlOperation}

theorem ControlStep.ran_or_failed {reply : operation.Reply}
    (h : ControlStep db ⟨operation, reply⟩ db') :
    operation.execute db = (db', reply) ∨ ∃ e : RepositoryError, e.isStorage = true ∧ reply = .error e := by
  generalize hevent : (⟨operation, reply⟩ : ControlEvent) = event at h
  cases h with
  | ran ran =>
    obtain ⟨rfl, hreply⟩ := SharedStore.Event.mk.inj hevent
    exact .inl (Prod.ext rfl (eq_of_heq hreply).symm)
  | failed failed e he | interrupted _ _ _ _ _ e he =>
    obtain ⟨rfl, hreply⟩ := SharedStore.Event.mk.inj hevent
    exact .inr ⟨e, he, eq_of_heq hreply⟩

theorem ControlStep.ok {a : operation.Result}
    (h : ControlStep db ⟨operation, .ok a⟩ db') : operation.execute db = (db', .ok a) :=
  h.ran_or_failed.resolve_right nofun

theorem ControlStep.answered {operation : ControlOperation} {a : operation.Result}
    {t : ControlTransaction operation.Result} {Q : operation.Result → ControlDatabase → Prop}
    (h : ControlStep db ⟨operation, .ok a⟩ db') (ht : operation.execute db = t.run db)
    (hwp : t.wp db Q fun _ _ => True) : Q a db' := by
  have hrun := ht.symm.trans h.ok
  rcases run_cases hwp with ⟨found, hfound, hq⟩ | ⟨error, herror, -⟩
  · rw [hrun] at hfound hq
    exact Except.ok.inj hfound ▸ hq
  · rw [hrun] at herror
    cases herror

section changes

theorem Changing.run {α : Type} {cause : Cause} {t : ControlTransaction α} (h : Changing nowMs cause t db) :
    Changes nowMs cause db (t.run db).1 := by
  rcases run_cases (wp_mono h (fun _ _ hq => hq) fun _ _ _ => trivial) with ⟨_, _, hq⟩ | ⟨_, _, hd⟩
  · exact hq
  · rw [hd]
    exact .refl db

variable {preparation : AssignmentDeliveryPreparation}

theorem prepare_failed {error : RepositoryError}
    (h : ((prepare preparation).runKeeping commitsExpiry db).2 = .error error) :
    ((prepare preparation).runKeeping commitsExpiry db).1 = db ∨
      ExpiryFound preparation db ((prepare preparation).runKeeping commitsExpiry db).1 := by
  rcases runKeeping_cases (prepare_wp : (prepare preparation).wp db _ _) with
    ⟨_, ha, _⟩ | ⟨e, _, ⟨_, hd⟩ | ⟨hk, he⟩⟩
  · rw [h] at ha
    cases ha
  · exact .inl hd
  · exact he hk

theorem ExpiryFound.changes {cause : Cause} (h : ExpiryFound preparation db db') : Changes nowMs cause db db' := by
  obtain ⟨attemptId, lease, _, _, _, rfl⟩ := h
  refine .single attemptId ?_ fun other hne => ?_
  · rw [expiredDatabase, updateAssignment_attempt, updateLease_attempt]
    exact .single (.expired preparation.nowMs)
  · rw [expiredDatabase, updateAssignment_other hne, updateLease_other hne]

theorem prepare_changes : Changes preparation.nowMs (eventCause ⟨.prepareAssignmentDelivery preparation,
        ((prepare preparation).runKeeping commitsExpiry db).2⟩) db
      ((prepare preparation).runKeeping commitsExpiry db).1 := by
  cases hreply : ((prepare preparation).runKeeping commitsExpiry db).2 with
  | ok contract =>
    rcases runKeeping_cases (prepare_wp : (prepare preparation).wp db _ _) with ⟨_, _, hq⟩ | ⟨e, he, _⟩
    · exact hq
    · rw [hreply] at he
      cases he
  | error error =>
    rcases prepare_failed hreply with hd | hx
    · rw [hd]
      exact .refl db
    · exact hx.changes

theorem markAssignmentDispatchable_changes {workerId : String} {atMs : Nat} :
    Changes nowMs (eventCause ⟨.markAssignmentDispatchable attemptId workerId atMs,
        ((markAssignmentDispatchable attemptId workerId atMs).run db).2⟩) db
      ((markAssignmentDispatchable attemptId workerId atMs).run db).1 := by
  have hmarked := @markAssignmentDispatchable_changing nowMs db attemptId workerId atMs
  rcases run_cases hmarked with ⟨marked, hreply, hq⟩ | ⟨_, hreply, hd⟩
  · rw [hreply]
    exact hq
  · rw [hd]
    exact .refl db

theorem ControlStep.changes (h : ControlStep db e db') : Changes e.call.nowMs (eventCause e) db db' := by
  cases h with
  | failed operation error _ => exact .refl db
  | interrupted => exact (Changing.of_keeps updateSequences_keeps).run
  | ran operation =>
    cases operation with
    | storeAssignment => exact storeAssignment_changing.run
    | markAssignmentDispatchable => exact markAssignmentDispatchable_changes
    | deferAssignmentPreparation => exact deferAssignmentPreparation_changing.run
    | reassignExpired => exact reassignExpired_changing.run
    | prepareAssignmentDelivery => exact prepare_changes
    | observeAttempt => exact observeAttempt_changing.run
    | renewActiveLeases => exact renewActiveLeases_changing.run
    | expireLeases => exact expireLeases_changing.run
    | requestCancellation => exact requestCancellation_changing.run
    | registerWorker => exact (Changing.of_keeps registerWorker_keeps).run
    | updateConnectionSequences =>
      exact .of_eq (congrFun (congrArg Prod.fst updateConnectionSequences_keeps))
    | disconnect => exact (Changing.of_keeps disconnect_keeps).run
    | recordServerFrame => exact (Changing.of_keeps insertServerFrame_keeps).run
    | compactServerFrames => exact (Changing.of_keeps compactServerFrames_keeps).run
    | pruneOrphanedServerFrames => exact (Changing.of_keeps pruneOrphanedServerFrames_keeps).run
    | assignment | replayableAssignments => exact .refl db

end changes

section invariant

def AttemptState.isSettled : AttemptState → Bool
  | .finished | .rejected | .leaseExpired | .cancelled => true
  | _ => false

/-- A lease belongs to an attempt that was sent, and an expired one to an attempt that is over. -/
def LeaseHeld (rows : AttemptRows) : Prop :=
  ∀ lease, rows.2 = some lease → ∃ row, rows.1 = some row ∧ row.state ≠ .preparing ∧ row.state ≠ .dispatchable ∧
    (lease.expiredAtMs.isSome = true → row.state.isSettled = true)

structure LeaseRow.Stays (lease lease' : LeaseRow) : Prop where
  renewed : lease'.renewedAtMs = lease.renewedAtMs
  expires : lease'.expiresAtMs = lease.expiresAtMs
  expired : ∀ at_, lease.expiredAtMs = some at_ → lease'.expiredAtMs = some at_

/-- What an attempt keeps: a settled state, and a lease that stays or was still live. -/
structure Kept (nowMs : Nat) (rows rows' : AttemptRows) : Prop where
  settled : ∀ row, rows.1 = some row → row.state.isSettled = true →
    ∃ row', rows'.1 = some row' ∧ row'.state = row.state
  lease : ∀ lease, rows.2 = some lease → ∃ lease', rows'.2 = some lease' ∧
    (lease.Stays lease' ∨ lease.expiredAtMs = none ∧ nowMs < lease.expiresAtMs)

variable {cause : Cause} {rows rows' rows'' : AttemptRows}
variable {s s' : AttemptState} {row : AssignmentRow} {at_ : Nat}

theorem StateChange.open_ (h : StateChange cause attemptId s s') : s.isSettled = false := by
  cases h with
  | deferred | dispatchable _ => rfl
  | cancelledBeforeSend hs => rcases hs with rfl | rfl <;> rfl
  | cancelRequested hs => cases s <;> simp [isLeased, isSettled] at hs ⊢
  | observed _ hs => cases s <;> simp [transitionAllowed, isSettled] at hs ⊢

theorem StateChange.stays_sent (h : StateChange cause attemptId s s') (hp : s ≠ .preparing)
    (hd : s ≠ .dispatchable) : s' ≠ .preparing ∧ s' ≠ .dispatchable := by
  cases h with
  | deferred | dispatchable _ => exact absurd rfl hp
  | cancelledBeforeSend hs => rcases hs with rfl | rfl <;> contradiction
  | cancelRequested hs => simp
  | observed _ hs => constructor <;> rintro rfl <;> cases s <;> simp [transitionAllowed] at hs

theorem expiredRow_settled (hp : row.state ≠ .preparing)
    (hd : row.state ≠ .dispatchable) : (expiredRow row at_).state.isSettled = true := by
  unfold expiredRow
  split
  · rfl
  · rename_i hleased
    cases hs : row.state <;> simp_all [isLeased, isSettled]

theorem expiredRow_state (h : row.state.isSettled = true) :
    (expiredRow row at_).state = row.state := by
  unfold expiredRow
  split
  · cases hs : row.state <;> simp_all [isLeased, isSettled]
  · rfl

theorem not_sent_of_settled (h : s.isSettled = true) : s ≠ .preparing ∧ s ≠ .dispatchable := by
  cases s <;> simp [isSettled] at h ⊢

theorem AttemptChange.held (h : AttemptChange nowMs cause attemptId rows rows') (hl : LeaseHeld rows) :
    LeaseHeld rows' := by
  intro lease hlease
  cases h with
  | stored hs =>
    obtain ⟨row, hrow, _⟩ := hl lease hlease
    cases hrow
  | @moved row row' _ hs =>
    obtain ⟨_, ⟨⟩, hp, hd, hx⟩ := hl lease hlease
    obtain ⟨hp', hd'⟩ := hs.stays_sent hp hd
    refine ⟨row', rfl, hp', hd', fun hexp => ?_⟩
    have hopen := hs.open_
    rw [hx hexp] at hopen
    cases hopen
  | @expired row lease₀ at_ =>
    obtain ⟨old, hold, _⟩ := Option.map_eq_some_iff.mp hlease
    obtain ⟨row, hrow, hp, hd, _⟩ := hl old hold
    obtain rfl : _ = some row := hrow
    have hsettled : (expiredRow row at_).state.isSettled = true := expiredRow_settled hp hd
    exact ⟨_, rfl, (not_sent_of_settled hsettled).1, (not_sent_of_settled hsettled).2, fun _ => hsettled⟩
  | renewed _ _ hn _ =>
    cases hlease
    obtain ⟨_, ⟨⟩, hp, hd, hx⟩ := hl _ rfl
    exact ⟨_, rfl, hp, hd, hx⟩
  | @delivered row row' _ lease' _ hs hs' _ _ hn =>
    cases hlease
    refine ⟨row', rfl, ?_, ?_, fun hexp => by simp [hn] at hexp⟩
    all_goals
      rw [hs']
      cases hstate : row.state <;> simp [hstate, isReplayable] at hs ⊢

theorem AttemptChange.kept (h : AttemptChange nowMs cause attemptId rows rows') (hl : LeaseHeld rows) :
    Kept nowMs rows rows' := by
  have hsame : ∀ lease : LeaseRow, lease.Stays lease := fun _ => ⟨rfl, rfl, fun _ h => h⟩
  cases h with
  | stored hs => exact ⟨fun _ h => (by cases h), fun lease h => ⟨lease, h, .inl (hsame lease)⟩⟩
  | moved hs =>
    refine ⟨fun row hrow hsettled => ?_, fun lease h => ⟨lease, h, .inl (hsame lease)⟩⟩
    cases hrow
    rw [hs.open_] at hsettled
    cases hsettled
  | expired at_ =>
    refine ⟨fun row hrow hsettled => ?_, fun lease hlease => ?_⟩
    · obtain rfl : _ = some row := hrow
      exact ⟨_, rfl, expiredRow_state hsettled⟩
    · obtain rfl : _ = some lease := hlease
      refine ⟨_, rfl, .inl ⟨rfl, rfl, fun at' h => ?_⟩⟩
      simp [expiredLease, h]
  | renewed _ _ hn hd =>
    refine ⟨fun row hrow _ => ⟨row, hrow, rfl⟩, fun lease hlease => ?_⟩
    cases hlease
    exact ⟨_, rfl, .inr ⟨hn, hd⟩⟩
  | @delivered row row' _ lease' _ hs hs' _ hlive hn =>
    have hopen : row.state.isSettled = false := by
      cases hstate : row.state <;> simp [hstate, isReplayable, isSettled] at hs ⊢
    refine ⟨fun row hrow hsettled => ?_, fun lease hlease => ⟨lease', rfl, .inr ⟨?_, hlive lease hlease⟩⟩⟩
    · cases hrow
      rw [hopen] at hsettled
      cases hsettled
    · obtain ⟨_, ⟨⟩, _, _, hx⟩ := hl lease hlease
      rw [hopen] at hx
      simpa using hx

theorem Kept.trans (h : Kept nowMs rows rows') (h' : Kept nowMs rows' rows'') : Kept nowMs rows rows'' where
  settled row hrow hs := by
    obtain ⟨row', hrow', heq⟩ := h.settled row hrow hs
    obtain ⟨row'', hrow'', heq'⟩ := h'.settled row' hrow' (by rw [heq]; exact hs)
    exact ⟨row'', hrow'', heq'.trans heq⟩
  lease lease hlease := by
    obtain ⟨lease', hlease', hcase⟩ := h.lease lease hlease
    obtain ⟨lease'', hlease'', hcase'⟩ := h'.lease lease' hlease'
    refine ⟨lease'', hlease'', ?_⟩
    rcases hcase with hstay | hlive
    · rcases hcase' with hstay' | ⟨hn, hd⟩
      · exact .inl ⟨hstay'.renewed.trans hstay.renewed, hstay'.expires.trans hstay.expires,
          fun at_ hat => hstay'.expired at_ (hstay.expired at_ hat)⟩
      · refine .inr ⟨?_, hstay.expires ▸ hd⟩
        cases hat : lease.expiredAtMs with
        | none => rfl
        | some at_ =>
          rw [hstay.expired at_ hat] at hn
          cases hn
    · exact .inr hlive

theorem AttemptChanges.kept (h : AttemptChanges nowMs cause attemptId rows rows') (hl : LeaseHeld rows) :
    LeaseHeld rows' ∧ Kept nowMs rows rows' := by
  induction h with
  | refl => exact ⟨hl, fun row hrow _ => ⟨row, hrow, rfl⟩, fun lease h => ⟨lease, h, .inl ⟨rfl, rfl, fun _ h => h⟩⟩⟩
  | tail _ hc ih => exact ⟨hc.held ih.1, ih.2.trans (hc.kept ih.1)⟩

theorem AttemptChanges.leased (h : AttemptChanges nowMs cause attemptId rows rows') (hl : rows'.2.isSome = true) :
    rows.2.isSome = true ∨ cause.delivers attemptId := by
  induction h with
  | refl => exact .inl hl
  | tail _ hc ih =>
    cases hc with
    | stored _ | moved _ => exact ih hl
    | expired _ => exact ih (by simpa using hl)
    | renewed _ _ _ _ => exact ih rfl
    | delivered hd _ _ _ _ => exact .inr hd

end invariant

theorem ControlRun.held (h : ControlRun log db) : ∀ attemptId, LeaseHeld (db.attempt attemptId) := by
  induction h with
  | empty => exact fun _ lease hlease => by simp [ControlDatabase.attempt, ControlDatabase.empty] at hlease
  | step _ hs ih => exact fun attemptId => ((hs.changes attemptId).kept (ih attemptId)).1

theorem ControlRun.delivered (h : ControlRun log db) (hl : (db.leases.lookup attemptId).isSome = true) :
    ∃ e ∈ log, Delivers e attemptId := by
  induction h with
  | empty => simp [ControlDatabase.empty] at hl
  | @step log db e db' _ hs ih =>
    rcases (hs.changes attemptId).leased hl with hbefore | hd
    · obtain ⟨e, he, hd⟩ := ih hbefore
      exact ⟨e, List.mem_append_left _ he, hd⟩
    · exact ⟨e, List.mem_append_right _ (List.mem_singleton_self e), hd⟩

structure Absorbed (rows rows' : AttemptRows) : Prop where
  settled : ∀ row, rows.1 = some row → row.state.isSettled = true →
    ∃ row', rows'.1 = some row' ∧ row'.state = row.state
  expired : ∀ lease at_, rows.2 = some lease → lease.expiredAtMs = some at_ →
    ∃ lease', rows'.2 = some lease' ∧ lease'.expiredAtMs = some at_

theorem Kept.absorbed {rows rows' : AttemptRows} (h : Kept nowMs rows rows') : Absorbed rows rows' where
  settled := h.settled
  expired lease at_ hlease hat := by
    obtain ⟨lease', hlease', hstay | ⟨hn, _⟩⟩ := h.lease lease hlease
    · exact ⟨lease', hlease', hstay.expired at_ hat⟩
    · rw [hat] at hn
      cases hn

theorem Absorbed.trans {rows rows' rows'' : AttemptRows} (h : Absorbed rows rows') (h' : Absorbed rows' rows'') :
    Absorbed rows rows'' where
  settled row hrow hs := by
    obtain ⟨row', hrow', heq⟩ := h.settled row hrow hs
    obtain ⟨row'', hrow'', heq'⟩ := h'.settled row' hrow' (by rw [heq]; exact hs)
    exact ⟨row'', hrow'', heq'.trans heq⟩
  expired lease at_ hlease hat := by
    obtain ⟨lease', hlease', hat'⟩ := h.expired lease at_ hlease hat
    exact h'.expired lease' at_ hlease' hat'

theorem ControlRun.absorbed (h : ControlRun log db) (hs : ControlSteps db db') :
    (∃ log', ControlRun log' db') ∧ ∀ attemptId, Absorbed (db.attempt attemptId) (db'.attempt attemptId) := by
  induction hs with
  | refl => exact ⟨⟨log, h⟩, fun _ => ⟨fun row hrow _ => ⟨row, hrow, rfl⟩, fun lease at_ hl ha => ⟨lease, hl, ha⟩⟩⟩
  | tail _ hstep ih =>
    obtain ⟨e, hstep⟩ := hstep
    obtain ⟨⟨log', hrun⟩, habsorbed⟩ := ih
    refine ⟨⟨_, hrun.step hstep⟩, fun attemptId => (habsorbed attemptId).trans ?_⟩
    exact ((hstep.changes attemptId).kept (hrun.held attemptId)).2.absorbed

/-- Over every run of the repository: settled attempts and expiries stay, an expired lease is not
renewed, only delivered attempts have a lease, and a failed delivery changes nothing but an expiry. -/
theorem control_attempts_settle (h : ControlRun log db) :
    (∀ db', ControlSteps db db' → ∀ attemptId, Absorbed (db.attempt attemptId) (db'.attempt attemptId)) ∧
    (∀ e db', ControlStep db e db' → ∀ attemptId lease lease', db.leases.lookup attemptId = some lease →
      db'.leases.lookup attemptId = some lease' →
      lease.expiredAtMs.isSome = true ∨ lease.expiresAtMs ≤ e.call.nowMs →
      lease'.renewedAtMs = lease.renewedAtMs ∧ lease'.expiresAtMs = lease.expiresAtMs) ∧
    (∀ attemptId lease, db.leases.lookup attemptId = some lease → ∃ e ∈ log, Delivers e attemptId) ∧
    (∀ preparation error db', ControlStep db ⟨.prepareAssignmentDelivery preparation, .error error⟩ db' →
      db' = db ∨ ExpiryFound preparation db db') := by
  refine ⟨fun db' hs => (h.absorbed hs).2, fun e db' hs attemptId lease lease' hl hl' hx => ?_,
    fun attemptId lease hl => h.delivered (by simp [hl]), fun preparation error db' hs => ?_⟩
  · obtain ⟨found, hfound, hstay | ⟨hn, hd⟩⟩ := ((hs.changes attemptId).kept (h.held attemptId)).2.lease lease hl
    · obtain rfl : lease' = found := Option.some.inj (hl'.symm.trans hfound)
      exact ⟨hstay.renewed, hstay.expires⟩
    · rcases hx with hx | hx
      · simp [hn] at hx
      · omega
  · generalize hevent : (⟨.prepareAssignmentDelivery preparation, .error error⟩ : ControlEvent) = e at hs
    cases hs with
    | failed _ _ _ => exact .inl rfl
    | interrupted _ _ _ _ _ _ _ => cases hevent
    | ran operation =>
      cases operation with
      | prepareAssignmentDelivery preparation' =>
        obtain ⟨hcall, hreply⟩ := SharedStore.Event.mk.inj hevent
        cases hcall
        exact prepare_failed (eq_of_heq hreply).symm
      | _ => cases congrArg SharedStore.Event.call hevent

def executeAll (operations : List ControlOperation) (db : ControlDatabase) : ControlDatabase :=
  operations.foldl (fun db operation => (operation.execute db).1) db

theorem ControlRun.executeAll (h : ControlRun log db) (operations : List ControlOperation) :
    ∃ log', ControlRun log' (executeAll operations db) := by
  induction operations generalizing log db with
  | nil => exact ⟨log, h⟩
  | cons operation operations ih => exact ih (h.step (.ran operation))

def sampleDelivery : List ControlOperation :=
  [.storeAssignment "worker" sampleContract 10,
    .markAssignmentDispatchable "attempt" "worker" 11,
    .registerWorker ⟨"worker", ""⟩ ⟨"connection-1", "worker", "boot", 12⟩,
    .prepareAssignmentDelivery ⟨⟨"connection-1", 2, "assignment:attempt", "worker", .assignment, some "attempt"⟩,
      "lease-1", 1, 0, 20, 30⟩]

@[irreducible] def expiredSample : ControlDatabase :=
  executeAll (sampleDelivery ++ [ControlOperation.renewActiveLeases "worker" ["attempt"] 40 30, .expireLeases 80])
    .empty

theorem control_attempts_settle_sample : ∃ log db, ControlRun log db ∧ (∃ e ∈ log, Delivers e "attempt") ∧
    ∀ db', ControlSteps db db' → (∃ row, db'.assignments.lookup "attempt" = some row ∧ row.state = .leaseExpired) ∧
      ∃ lease, db'.leases.lookup "attempt" = some lease ∧ lease.expiredAtMs = some 80 := by
  have hrow : (expiredSample.assignments.lookup "attempt").map AssignmentRow.state = some .leaseExpired := by
    unfold expiredSample
    decide +kernel
  have hlease : (expiredSample.leases.lookup "attempt").map LeaseRow.expiredAtMs = some (some 80) := by
    unfold expiredSample
    decide +kernel
  have hrun : ∃ log, ControlRun log expiredSample := by
    unfold expiredSample
    exact ControlRun.empty.executeAll _
  obtain ⟨row, hrow, hstate⟩ := Option.map_eq_some_iff.mp hrow
  obtain ⟨lease, hlease, hexpired⟩ := Option.map_eq_some_iff.mp hlease
  obtain ⟨log, hrun⟩ := hrun
  obtain ⟨habsorbed, _, hdelivered, _⟩ := control_attempts_settle hrun
  refine ⟨log, _, hrun, hdelivered "attempt" lease hlease, fun db' hs => ⟨?_, ?_⟩⟩
  · obtain ⟨row', hrow', heq⟩ := (habsorbed db' hs "attempt").settled row hrow (by rw [hstate]; rfl)
    exact ⟨row', hrow', heq.trans hstate⟩
  · exact (habsorbed db' hs "attempt").expired lease 80 hlease hexpired

end AlloyPort
