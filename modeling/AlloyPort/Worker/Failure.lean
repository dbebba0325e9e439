import AlloyPort.Library.Machine
import AlloyPort.Worker.Engagement
import AlloyPort.Worker.Heartbeat
import AlloyPort.Worker.Order

/-! The process of a worker: its journal, one control session at a time, and the executions that go on beside it. What
the network, the clock, the devices and the execution backends do is up to the one who acts. A restart forgets all but
the journal. -/

namespace AlloyPort

open Effect

inductive BackendFailureClass where
  | retryable
  | terminal
  | policy
  | integrity
  deriving DecidableEq

inductive BackendError where
  | retryable (detail : String)
  | terminal (detail : String)
  | policy (detail : String)
  | integrity (detail : String)

namespace BackendError

def failureClass : BackendError → BackendFailureClass
  | retryable _ => .retryable
  | terminal _ => .terminal
  | policy _ => .policy
  | integrity _ => .integrity

def detail : BackendError → String
  | retryable detail | terminal detail | policy detail | integrity detail => detail

end BackendError

/-- An execution that is registered; `begun` once the task has its permit and has called `execute`. -/
structure ActiveExecution where
  attemptId : String
  token : Nat
  begun : Bool

/-- The updates are those that the receiver of the session has still before it, once it has subscribed. -/
structure WorkerProcess where
  db : JournalDatabase
  session : Option (WorkerProgram SessionFailure Unit)
  active : List ActiveExecution
  tokens : Nat
  updates : Option (List ExecutionUpdate)

inductive Answer where
  | done
  | refused (error : AttemptStoreError)
  | time (nowUnixMs : Nat)
  | connected (result : Except WorkerError Unit)
  | response (result : Except WorkerError String)
  | frame (message : Option (Except Status ServerToWorker))
  | tick
  | update
  | lagged
  | sent (accepted : Bool)
  | published (result : Except String Unit)
  | devices (result : Except Unit (List DeviceObservation))
  | cleaned (operations : List JournalOperation)

inductive ProcessAction where
  | openSession (turns : Nat)
  | answer (answer : Answer)
  | closeSession
  | begin (attemptId : String)
  | work (attemptId : String) (operation : JournalOperation) (refused : Option AttemptStoreError)
  | observe (attemptId : String) (observation : ExecutionObservation)
  | finish (attemptId : String) (result : Except BackendError Unit)
  | restart

def JournalOperation.releases (attemptId : String) : JournalOperation → Bool
  | .releaseDeviceLease released _ => released.text = attemptId
  | _ => false

namespace WorkerProcess

def start : WorkerProcess := ⟨.empty, none, [], 0, none⟩

variable (process : WorkerProcess)

def isActive (attemptId : String) : Bool := process.active.any fun execution => execution.attemptId = attemptId

def isExecuting (attemptId : String) : Bool :=
  process.active.any fun execution => execution.attemptId = attemptId ∧ execution.begun = true

def execute (operation : JournalOperation) (refused : Option AttemptStoreError) :
    Option (operation.Reply × WorkerProcess) :=
  match refused with
  | none => some ((operation.execute process.db).2, { process with db := (operation.execute process.db).1 })
  | some error => if error.isStorage = true then some (.error error, process) else none

def publish (update : ExecutionUpdate) : WorkerProcess :=
  { process with updates := process.updates.map (· ++ [update]) }

def receiveUpdate : Option (ExecutionUpdate × WorkerProcess) :=
  match process.updates with
  | some (update :: rest) => some (update, { process with updates := some rest })
  | _ => none

/-- The body of `ensure_execution` under the lock of the active executions. -/
def engage (attemptId : String) : Nat × WorkerProcess :=
  match process.active.find? fun execution => execution.attemptId = attemptId with
  | some execution => (execution.token, process)
  | none => (process.tokens, { process with
      active := ⟨attemptId, process.tokens, false⟩ :: process.active
      tokens := process.tokens + 1 })

def answer : (o : WorkerOp) → Answer → Option (o.Reply × WorkerProcess)
  | .journal operation, .done => process.execute operation none
  | .journal operation, .refused error => process.execute operation (some error)
  | .nowUnixMs, .time nowUnixMs => some (nowUnixMs, process)
  | .connect, .connected (.ok ()) => some (.ok (), { process with updates := some [] })
  | .connect, .connected (.error error) => some (.error error, process)
  | .openControlStream .., .done => some ((), process)
  | .response, .response result => some (result, process)
  | .receive _, .frame message => some (message, process)
  | .select _, .frame message => some (.incoming message, process)
  | .select _, .tick => some (.heartbeat, process)
  | .select _, .update => process.receiveUpdate.map fun (update, process) => (.update (.ok update), process)
  | .select _, .lagged => process.receiveUpdate.map fun (_, process) => (.update (.error .lagged), process)
  | .send .., .sent accepted => some (accepted, process)
  | .publish .., .published result => some (result, process)
  | .retryTerminalCleanup _ attemptId, .cleaned operations =>
    if operations.all (JournalOperation.releases attemptId) = true then
      some ((), { process with db := executeJournal operations process.db })
    else none
  | .deviceSnapshot, .devices result => some (result, process)
  | .engage attemptId, .done => some (process.engage attemptId)
  | .cancelExecution _, .done => some ((), process)
  | _, _ => none

def frameOf : WorkerOp → Answer → Option WorkerToServer
  | .send _ frame, .sent true => some frame
  | _, _ => none

variable (worker : OutboundWorker)

def act : ProcessAction → Option (WorkerProcess × Option WorkerToServer)
  | .openSession turns => match process.session with
    | none => some ({ process with session := some (worker.runSession turns) }, none)
    | some _ => none
  | .answer answer => match process.session with
    | some (.op o next) => (process.answer o answer).map fun (reply, process) =>
      ({ process with session := some (next reply) }, frameOf o answer)
    | _ => none
  | .closeSession => match process.session with
    | some (.ret _) | some (.fail _) => some ({ process with session := none, updates := none }, none)
    | _ => none
  | .begin attemptId =>
    if process.isActive attemptId && !process.isExecuting attemptId then
      some ({ process with active := process.active.map fun execution =>
        if execution.attemptId = attemptId then { execution with begun := true } else execution }, none)
    else none
  | .work attemptId operation refused =>
    if process.isExecuting attemptId = true ∧ operation.target.all (· = attemptId) = true then
      (process.execute operation refused).map fun (_, process) => (process, none)
    else none
  | .observe attemptId observation =>
    if process.isExecuting attemptId = true then some (process.publish (.observation attemptId observation), none)
      else none
  | .finish attemptId result =>
    if process.isExecuting attemptId = true then
      some (({ process with active := process.active.filter fun execution => execution.attemptId ≠ attemptId }.publish
        (.completed attemptId (result.mapError BackendError.detail))), none)
    else none
  | .restart => some ({ process with session := none, active := [], updates := none }, none)

end WorkerProcess

open WorkerProcess

open Machine

def workerMachine (worker : OutboundWorker) : System WorkerProcess ProcessAction (Option WorkerToServer) where
  initial := .start
  act := fun process action => process.act worker action

abbrev ProcessHistory := History ProcessAction (Option WorkerToServer)

/-! What becomes of an attempt whose execution has failed for good. Nothing that follows the return of `execute` writes
the result to the journal; an attempt is ended by such a failure just where its execution has marked it
finished itself. -/

open Database Transaction JournalDatabase SqliteAttemptStore

section journal

variable {db db' : JournalDatabase} {e : JournalEvent} {attemptId : String}

def JournalDatabase.Finished (db : JournalDatabase) (attemptId : String) : Prop :=
  ∃ row, db.attempts.lookup attemptId = some row ∧ row.phase = .finished

def JournalDatabase.FinishedWithout (db : JournalDatabase) (attemptId : String) : Prop :=
  ∃ row result, db.attempts.lookup attemptId = some row ∧ row.phase = .finished ∧ row.finished = some result ∧
    result.outcome ≠ .succeeded

def JournalDatabase.OwesResult (db : JournalDatabase) (attemptId : String) : Prop :=
  ∃ row ∈ db.outbox, row.messageId = s!"execution-finished:{attemptId}"

theorem JournalDatabase.FinishedWithout.finished (h : db.FinishedWithout attemptId) : db.Finished attemptId := by
  obtain ⟨row, _, hrow, hphase, _⟩ := h
  exact ⟨row, hrow, hphase⟩

theorem JournalRun.keeps_finishedWithout {log : List JournalEvent} (h : JournalRun db log db')
    (hfinished : db.FinishedWithout attemptId) : db'.FinishedWithout attemptId := by
  obtain ⟨row, result, hrow, hphase, hresult⟩ := hfinished
  obtain ⟨row', hrow', _, hsame⟩ := (h.endures attemptId).attempt row hrow
  rw [hsame hphase] at hrow'
  exact ⟨row, result, hrow', hphase, hresult⟩

theorem JournalStep.owes {finished : StoredFinished} {atMs : Nat} {result : Unit}
    (h : JournalStep db ⟨.markFinished attemptId finished atMs, .ok result⟩ db') : db'.OwesResult attemptId := by
  have hfound : ∀ db : JournalDatabase, db.findMessage s!"execution-finished:{attemptId}" ≠ none →
      db.OwesResult attemptId := by
    intro db hfound
    obtain ⟨row, hrow⟩ := Option.ne_none_iff_exists'.mp hfound
    exact ⟨row, List.mem_of_find?_eq_some hrow, by simpa using List.find?_some hrow⟩
  rcases h.outbox with ⟨⟨error, herror⟩, _⟩ | ⟨_, hstep⟩
  · cases herror
  · cases hstep with
    | kept ho _ he =>
      obtain ⟨row, hrow, hid⟩ := hfound db (he attemptId _ atMs rfl)
      exact ⟨row, by rw [ho]; exact hrow, hid⟩
    | enqueued row ha _ ho =>
      have hid : row.messageId = s!"execution-finished:{attemptId}" := by
        have henqueues := ha.enqueues
        simp only [JournalOperation.enqueues, Option.some.injEq, Prod.mk.injEq] at henqueues
        exact henqueues.2.1.symm
      exact ⟨row, by rw [ho]; exact List.mem_append_right _ List.mem_cons_self, hid⟩
    | delivered _ hop | acknowledged _ _ hop | pruned _ hop => cases hop

theorem JournalStep.finishes (h : JournalStep db e db') (hfinished : db'.Finished attemptId) :
    db.Finished attemptId ∨ db'.OwesResult attemptId := by
  obtain ⟨row', hrow', hphase'⟩ := hfinished
  have hkept : db'.attempts = db.attempts → db.Finished attemptId ∨ db'.OwesResult attemptId := by
    intro heq
    rw [heq] at hrow'
    exact .inl ⟨row', hrow', hphase'⟩
  by_cases htarget : e.call.target = some attemptId
  · cases h with
    | failed => exact hkept rfl
    | ran operation =>
      cases hreply : (operation.execute db).2 with
      | error error =>
        have hsame : JournalStep db ⟨operation, .error error⟩ (operation.execute db).1 := .executed hreply
        exact hkept (by rw [hsame.rolledBack])
      | ok result =>
        have hstep : JournalStep db ⟨operation, .ok result⟩ (operation.execute db).1 := .executed hreply
        cases operation with
        | markFinished id finished atMs =>
          cases htarget
          exact .inr hstep.owes
        | markRunning id atMs =>
          cases htarget
          obtain ⟨_, row, _, _, hentry, hphase⟩ := hstep.markedRunning
          have hnow : some row' = some row := hrow'.symm.trans (congrArg LocalEntry.attempt hentry)
          cases hnow
          rw [hphase'] at hphase
          cases hphase
        | admitAttempt assignment atMs =>
          cases htarget
          rcases hstep.admitted with hentry | ⟨_, row, hphase, hentry⟩
          · have hsame : (db.entry assignment.attemptId.text).attempt = some row' :=
              (congrArg LocalEntry.attempt hentry).symm.trans hrow'
            exact .inl ⟨row', hsame, hphase'⟩
          · have hnow : some row' = some row := hrow'.symm.trans (congrArg LocalEntry.attempt hentry)
            cases hnow
            rw [hphase'] at hphase
            cases hphase
        | acquireDeviceLease => exact hkept ((acquireDeviceLease_keeps fun _ _ => rfl).run db)
        | releaseDeviceLease => exact hkept ((releaseDeviceLease_keeps fun _ _ => rfl).run db)
        | recordDevicePreflight => exact hkept ((recordDevicePreflight_keeps fun _ => rfl).run db)
        | bindWorker | attempt | attempts | enqueueOutbox | pendingOutbox | recordOutboxDelivery | acknowledgeOutbox
        | pruneOutboxDeliveries | outboxLen | activeDeviceLeases | devicePreflight => cases htarget
  · have hentry := h.elsewhere htarget
    have hsame : (db.entry attemptId).attempt = some row' := (congrArg LocalEntry.attempt hentry).symm.trans hrow'
    exact .inl ⟨row', hsame, hphase'⟩

theorem JournalStep.files {finished : StoredFinished} {atMs : Nat} {result : Unit}
    (h : JournalStep db ⟨.markFinished attemptId finished atMs, .ok result⟩ db')
    (hwithout : finished.outcome ≠ .succeeded) : db'.FinishedWithout attemptId := by
  obtain ⟨_, row, _, _, hentry, hphase, hfinished⟩ := h.markedFinished
  exact ⟨row, finished, congrArg LocalEntry.attempt hentry, hphase, hfinished, hwithout⟩

theorem executeJournal_attempts {owner : String} {operations : List JournalOperation}
    (h : operations.all (JournalOperation.releases owner) = true) (db : JournalDatabase) :
    (executeJournal operations db).attempts = db.attempts := by
  induction operations generalizing db with
  | nil => rfl
  | cons operation operations ih =>
    simp only [List.all_cons, Bool.and_eq_true] at h
    have hone : (operation.execute db).1.attempts = db.attempts := by
      cases operation with
      | releaseDeviceLease => exact (releaseDeviceLease_keeps fun _ _ => rfl).run db
      | _ => cases h.1
    rw [← hone]
    exact ih h.2 _

end journal

section process

variable {worker : OutboundWorker} {process process' : WorkerProcess} {frame : Option WorkerToServer}
variable {action : ProcessAction} {attemptId other : String}

/-- The journal of a process goes on, and whoever finishes leaves its result in the outbox. -/
structure Onwards (db db' : JournalDatabase) : Prop where
  run : ∃ log, JournalRun db log db'
  finishes : ∀ attemptId, db'.Finished attemptId → db.Finished attemptId ∨ db'.OwesResult attemptId

theorem Onwards.refl (db : JournalDatabase) : Onwards db db := ⟨⟨[], .start⟩, fun _ h => .inl h⟩

theorem Onwards.of_step {db db' : JournalDatabase} {e : JournalEvent} (h : JournalStep db e db') : Onwards db db' :=
  ⟨⟨_, .step .start h⟩, fun _ hfinished => h.finishes hfinished⟩

theorem Onwards.of_attempts {db db' : JournalDatabase} {log : List JournalEvent} (h : JournalRun db log db')
    (hattempts : db'.attempts = db.attempts) : Onwards db db' := by
  refine ⟨⟨log, h⟩, fun attemptId hfinished => .inl ?_⟩
  obtain ⟨row, hrow, hphase⟩ := hfinished
  rw [hattempts] at hrow
  exact ⟨row, hrow, hphase⟩

theorem execute_spec {operation : JournalOperation} (refused : Option AttemptStoreError) {reply : operation.Reply}
    (h : process.execute operation refused = some (reply, process')) :
    JournalStep process.db ⟨operation, reply⟩ process'.db ∧ process'.active = process.active ∧
      process'.session = process.session := by
  cases refused with
  | none =>
    cases h
    exact ⟨.ran operation, rfl, rfl⟩
  | some error =>
    by_cases hstorage : error.isStorage = true
    · rw [execute, if_pos hstorage] at h
      cases h
      exact ⟨.failed operation error hstorage, rfl, rfl⟩
    · rw [execute, if_neg hstorage] at h
      cases h

theorem receiveUpdate_spec {update : ExecutionUpdate} (h : process.receiveUpdate = some (update, process')) :
    process'.db = process.db ∧ process'.active = process.active := by
  rw [receiveUpdate] at h
  split at h
  · cases h
    exact ⟨rfl, rfl⟩
  · cases h

theorem engage_active (h : (process.engage attemptId).2.isActive other = true) :
    process.isActive other = true ∨ other = attemptId := by
  rw [engage] at h
  cases hfind : process.active.find? fun execution => execution.attemptId = attemptId with
  | some execution =>
    rw [hfind] at h
    exact .inl h
  | none =>
    rw [hfind] at h
    simp only [isActive, List.any_cons, Bool.or_eq_true, decide_eq_true_eq] at h
    rcases h with h | h
    · exact .inr h.symm
    · exact .inl h

theorem engage_db : (process.engage attemptId).2.db = process.db := by
  rw [engage]
  split <;> rfl

theorem answer_spec {o : WorkerOp} {given : Answer} {reply : o.Reply}
    (h : process.answer o given = some (reply, process')) : Onwards process.db process'.db ∧
      ∀ attemptId, process'.isActive attemptId = true → process.isActive attemptId = true ∨ o = .engage attemptId := by
  have hsame : process'.db = process.db → process'.active = process.active → Onwards process.db process'.db ∧
      ∀ attemptId, process'.isActive attemptId = true → process.isActive attemptId = true ∨ o = .engage attemptId := by
    intro hdb hactive
    refine ⟨hdb ▸ .refl _, fun attemptId hactive' => .inl ?_⟩
    rw [isActive, hactive] at hactive'
    exact hactive'
  cases o with
  | journal operation =>
    have hstep : JournalStep process.db ⟨operation, reply⟩ process'.db ∧ process'.active = process.active ∧
        process'.session = process.session := by
      cases given with
      | done => exact execute_spec none h
      | refused error => exact execute_spec (some error) h
      | _ => cases h
    refine ⟨.of_step hstep.1, fun attemptId hactive => .inl ?_⟩
    rw [isActive, hstep.2.1] at hactive
    exact hactive
  | retryTerminalCleanup executor owner =>
    cases given with
    | cleaned operations =>
      simp only [answer] at h
      by_cases hall : operations.all (JournalOperation.releases owner) = true
      · rw [if_pos hall] at h
        cases h
        obtain ⟨log, hrun⟩ := JournalRun.executeJournal operations process.db
        exact ⟨.of_attempts hrun (executeJournal_attempts hall process.db), fun _ hactive => .inl hactive⟩
      · rw [if_neg hall] at h
        cases h
    | _ => cases h
  | engage owner =>
    cases given with
    | done =>
      have hengaged : process.engage owner = (reply, process') := Option.some.inj h
      have hprocess : process' = (process.engage owner).2 := (congrArg Prod.snd hengaged).symm
      subst hprocess
      refine ⟨?_, fun attemptId hactive => ?_⟩
      · rw [engage_db]
        exact .refl _
      · rcases engage_active hactive with hbefore | rfl
        · exact .inl hbefore
        · exact .inr rfl
    | _ => cases h
  | select stream =>
    cases given with
    | frame | tick =>
      cases h
      exact hsame rfl rfl
    | update | lagged =>
      simp only [answer, Option.map_eq_some_iff] at h
      obtain ⟨⟨update, next⟩, hnext, h⟩ := h
      cases h
      exact hsame (receiveUpdate_spec hnext).1 (receiveUpdate_spec hnext).2
    | _ => cases h
  | connect =>
    cases given with
    | connected result =>
      cases result with
      | ok | error =>
        cases h
        exact hsame rfl rfl
    | _ => cases h
  | nowUnixMs | openControlStream | response | receive | send | publish | deviceSnapshot | cancelExecution =>
    cases given
    all_goals first
      | cases h; done
      | (cases h; exact hsame rfl rfl)

/-- What an action may do to the journal, to the active executions and to the session. -/
theorem act_spec (h : process.act worker action = some (process', frame)) :
    Onwards process.db process'.db ∧ (∀ attemptId, process'.isActive attemptId = true →
      process.isActive attemptId = true ∨
      ∃ given next, action = .answer given ∧ process.session = some (.op (.engage attemptId) next)) ∧
    (process'.session = process.session ∨ process'.session = none ∨
      (∃ turns, process'.session = some (worker.runSession turns)) ∨
      ∃ given o next reply answered, action = .answer given ∧ process.session = some (.op o next) ∧
        process.answer o given = some (reply, answered) ∧ process'.session = some (next reply)) := by
  cases action with simp only [act] at h
  | openSession turns =>
    split at h
    · cases h
      exact ⟨.refl _, fun _ hactive => .inl hactive, .inr (.inr (.inl ⟨turns, rfl⟩))⟩
    · cases h
  | answer given =>
    split at h
    · rename_i o next hsession
      obtain ⟨⟨reply, answered⟩, hanswer, h⟩ := Option.map_eq_some_iff.mp h
      cases h
      obtain ⟨honwards, hactive⟩ := answer_spec hanswer
      refine ⟨honwards, fun attemptId hactive' => ?_,
        .inr (.inr (.inr ⟨given, o, next, reply, answered, rfl, hsession, hanswer, rfl⟩))⟩
      rcases hactive attemptId hactive' with hbefore | rfl
      · exact .inl hbefore
      · exact .inr ⟨given, next, rfl, hsession⟩
    · cases h
  | closeSession =>
    split at h
    · cases h
      exact ⟨.refl _, fun _ hactive => .inl hactive, .inr (.inl rfl)⟩
    · cases h
      exact ⟨.refl _, fun _ hactive => .inl hactive, .inr (.inl rfl)⟩
    · cases h
  | begin owner =>
    split at h
    · cases h
      refine ⟨.refl _, fun attemptId hactive => .inl ?_, .inl rfl⟩
      simp only [isActive, List.any_map, List.any_eq_true, Function.comp_apply,
        decide_eq_true_eq] at hactive ⊢
      obtain ⟨execution, hmem, hid⟩ := hactive
      by_cases howner : execution.attemptId = owner
      · rw [if_pos howner] at hid
        exact ⟨execution, hmem, hid⟩
      · rw [if_neg howner] at hid
        exact ⟨execution, hmem, hid⟩
    · cases h
  | work owner operation refused =>
    split at h
    · simp only [Option.map_eq_some_iff] at h
      obtain ⟨⟨reply, executed⟩, hexecute, h⟩ := h
      cases h
      obtain ⟨hstep, hactive, hsession⟩ := execute_spec refused hexecute
      refine ⟨.of_step hstep, fun attemptId hactive' => .inl ?_, .inl hsession⟩
      rw [isActive, hactive] at hactive'
      exact hactive'
    · cases h
  | observe owner observation =>
    split at h
    · cases h
      exact ⟨.refl _, fun _ hactive => .inl hactive, .inl rfl⟩
    · cases h
  | finish owner result =>
    split at h
    · cases h
      refine ⟨.refl _, fun attemptId hactive => .inl ?_, .inl rfl⟩
      simp only [isActive, publish, List.any_eq_true] at hactive ⊢
      obtain ⟨execution, hmem, hid⟩ := hactive
      exact ⟨execution, List.mem_of_mem_filter hmem, hid⟩
    · cases h
  | restart =>
    cases h
    exact ⟨.refl _, fun _ hactive => (by cases hactive), .inr (.inl rfl)⟩

theorem answer_session {o : WorkerOp} {given : Answer} {reply : o.Reply}
    (h : process.answer o given = some (reply, process'))
    (hread : o.readUnfinished reply = some attemptId) : ¬ process.db.Finished attemptId := by
  unfold WorkerOp.readUnfinished at hread
  split at hread
  · rename_i read record
    split at hread
    · cases hread
    · rename_i hunfinished
      cases hread
      have hstep : JournalStep process.db ⟨.attempt attemptId, .ok (some record)⟩ process'.db := by
        cases given with
        | done => exact (execute_spec none h).1
        | refused error => exact (execute_spec (some error) h).1
        | _ => cases h
      rintro ⟨row, hrow, hphase⟩
      have hrecord : (process.db.entry attemptId).attempt.map LocalAttemptRow.record = some record :=
        hstep.attempt_answer.2
      have hentry : (process.db.entry attemptId).attempt = some row := hrow
      rw [hentry] at hrecord
      cases hrecord
      exact hunfinished hphase
  · cases hread

theorem work_db {operation : JournalOperation}
    (h : process.act worker (.work attemptId operation none) = some (process', frame)) :
    process'.db = (operation.execute process.db).1 := by
  simp only [act] at h
  split at h
  · cases h
    rfl
  · cases h

theorem begin_active (h : process.act worker (.begin attemptId) = some (process', frame)) :
    process.isActive attemptId = true := by
  simp only [act] at h
  split at h
  case isTrue hactive =>
    rw [Bool.and_eq_true] at hactive
    exact hactive.1
  case isFalse => cases h

theorem finish_inactive {result : Except BackendError Unit}
    (h : process.act worker (.finish attemptId result) = some (process', frame)) :
    process'.db = process.db ∧ process'.isActive attemptId = false := by
  simp only [act] at h
  split at h
  · cases h
    refine ⟨rfl, ?_⟩
    rw [isActive, List.any_eq_false]
    intro execution hmem
    have hother : execution.attemptId ≠ attemptId := by simpa using (List.mem_filter.mp hmem).2
    simpa using hother
  · cases h

end process

section runs

variable (worker : OutboundWorker)

/-- An execution of the attempt has marked it finished, with a result other than success. -/
def FiledByExecution (log : ProcessHistory) (attemptId : String) : Prop :=
  ∃ earlier before later finished atMs, Run (workerMachine worker) anything earlier before ∧
    log.map Prod.fst = earlier.map Prod.fst ++ .work attemptId (.markFinished attemptId finished atMs) none :: later ∧
    ((JournalOperation.markFinished attemptId finished atMs).execute before.db).2 = .ok () ∧
      finished.outcome ≠ .succeeded

/-- An `execute` fails for good after it has marked the attempt finished, and does not return while the session is
between its look at the record of the attempt and its look at the active executions. -/
def FailsLate : Guard WorkerProcess ProcessAction (Option WorkerToServer) := fun log process action =>
  match action with
  | .finish attemptId (.error error) => error.failureClass ≠ .retryable →
    FiledByExecution worker log attemptId ∧ ∀ next, process.session ≠ some (.op (.engage attemptId) next)
  | _ => True

def ResultEnqueued (log : ProcessHistory) (attemptId : String) : Prop :=
  ∃ log' process', log' <+: log ∧ Run (workerMachine worker) anything log' process' ∧ process'.db.OwesResult attemptId

def FailedForGood (log : ProcessHistory) (attemptId : String) : Prop :=
  ∃ error frame, (ProcessAction.finish attemptId (.error error), frame) ∈ log ∧ error.failureClass ≠ .retryable

def BegunAfterFailure (log : ProcessHistory) (attemptId : String) : Prop :=
  ∃ earlier error frame later frame', log = earlier ++ (ProcessAction.finish attemptId (.error error), frame) :: later ∧
    error.failureClass ≠ .retryable ∧ (ProcessAction.begin attemptId, frame') ∈ later

structure EndedForGood (log : ProcessHistory) (process : WorkerProcess) (attemptId : String) : Prop where
  filed : process.db.FinishedWithout attemptId
  enqueued : ResultEnqueued worker log attemptId
  never_again : ¬ BegunAfterFailure log attemptId
  listed : ∀ active ∈ (SqliteAttemptStore.attempts process.db).map LocalAttemptRecord.active,
    active.attemptId = attemptId → active.phase = LocalAttemptPhase.finished.toI32

variable {worker} {log : ProcessHistory} {process process' : WorkerProcess} {attemptId : String}
variable {event : ProcessAction × Option WorkerToServer} {action : ProcessAction} {frame : Option WorkerToServer}

theorem ResultEnqueued.later (h : ResultEnqueued worker log attemptId) :
    ResultEnqueued worker (log ++ [event]) attemptId := by
  obtain ⟨log', process', hprefix, hrun, howes⟩ := h
  exact ⟨log', process', hprefix.trans (List.prefix_append _ _), hrun, howes⟩

theorem BegunAfterFailure.failed (h : BegunAfterFailure log attemptId) : FailedForGood log attemptId := by
  obtain ⟨earlier, error, frame, later, _, rfl, hclass, _⟩ := h
  exact ⟨error, frame, by simp, hclass⟩

theorem BegunAfterFailure.last (h : BegunAfterFailure (log ++ [event]) attemptId) :
    BegunAfterFailure log attemptId ∨ FailedForGood log attemptId ∧ event.1 = .begin attemptId := by
  obtain ⟨earlier, error, frame, later, frame', heq, hclass, hmem⟩ := h
  rcases List.eq_nil_or_concat later with rfl | ⟨later, last, rfl⟩
  · cases hmem
  · have hsplit : log ++ [event] =
        (earlier ++ (ProcessAction.finish attemptId (.error error), frame) :: later) ++ [last] := by
      rw [heq]
      simp
    obtain ⟨hlog, hlast⟩ := List.append_inj' hsplit rfl
    have hevent : event = last := List.cons.inj hlast |>.1
    rw [List.concat_eq_append, List.mem_append, List.mem_singleton] at hmem
    rcases hmem with hmem | hmem
    · exact .inl ⟨earlier, error, frame, later, frame', hlog, hclass, hmem⟩
    · refine .inr ⟨⟨error, frame, ?_, hclass⟩, ?_⟩
      · rw [hlog]
        simp
      · rw [hevent, ← hmem]

theorem FailedForGood.last (h : FailedForGood (log ++ [event]) attemptId) :
    FailedForGood log attemptId ∨ ∃ error, event.1 = .finish attemptId (.error error) ∧
    error.failureClass ≠ .retryable := by
  obtain ⟨error, frame, hmem, hclass⟩ := h
  rw [List.mem_append, List.mem_singleton] at hmem
  rcases hmem with hmem | hmem
  · exact .inl ⟨error, frame, hmem, hclass⟩
  · exact .inr ⟨error, by rw [← hmem], hclass⟩

theorem FiledByExecution.last (h : FiledByExecution worker (log ++ [event]) attemptId) :
    FiledByExecution worker log attemptId ∨ ∃ earlier before finished atMs, Run
      (workerMachine worker) anything earlier before ∧
      log.map Prod.fst = earlier.map Prod.fst ∧ event.1 = .work attemptId (.markFinished attemptId finished atMs) none ∧
      ((JournalOperation.markFinished attemptId finished atMs).execute before.db).2 = .ok () ∧
      finished.outcome ≠ .succeeded := by
  obtain ⟨earlier, before, later, finished, atMs, hrun, hlog, hreply, houtcome⟩ := h
  rw [List.map_append, List.map_singleton] at hlog
  rcases List.eq_nil_or_concat later with rfl | ⟨later, last, rfl⟩
  · obtain ⟨hlog, hevent⟩ := List.append_inj' hlog rfl
    exact .inr ⟨earlier, before, finished, atMs, hrun, hlog, (List.cons.inj hevent).1, hreply, houtcome⟩
  · rw [List.concat_eq_append, ← List.cons_append, ← List.append_assoc] at hlog
    exact .inl ⟨earlier, before, later, finished, atMs, hrun, (List.append_inj' hlog rfl).1, hreply, houtcome⟩

/-- What a run keeps: results are enqueued as they are filed, who has failed for good is finished and not registered,
and a session that is about to look up the active executions does so for an attempt that has not failed. -/
structure FailuresEnded (worker : OutboundWorker) (log : ProcessHistory) (process : WorkerProcess) : Prop where
  run : Run (workerMachine worker) anything log process
  journal : ∃ events, JournalRun .empty events process.db
  enqueued : ∀ attemptId, process.db.Finished attemptId → ResultEnqueued worker log attemptId
  filed : ∀ attemptId, FiledByExecution worker log attemptId → process.db.FinishedWithout attemptId
  waits : ∀ p, process.session = some p → ∃ read, ends engaging read p (fun _ _ => True) ∧
    ∀ attemptId next, p = .op (.engage attemptId) next → ¬ FailedForGood log attemptId
  ended : ∀ attemptId, FailedForGood log attemptId → process.db.FinishedWithout attemptId ∧
    process.isActive attemptId = false ∧ ¬ BegunAfterFailure log attemptId

theorem FailuresEnded.start : FailuresEnded worker [] .start where
  run := .start
  journal := ⟨[], .start⟩
  enqueued attemptId hfinished := by
    obtain ⟨row, hrow, _⟩ := hfinished
    cases hrow
  filed attemptId hfiled := by
    obtain ⟨_, _, _, _, _, _, hlog, _⟩ := hfiled
    simp at hlog
  waits _ hsession := by cases hsession
  ended attemptId hfailed := by
    obtain ⟨_, _, hmem, _⟩ := hfailed
    cases hmem

theorem FailuresEnded.keeps_filed
    (h : FailuresEnded worker log process) (hact : process.act worker action = some (process', frame))
    (hfiled : FiledByExecution worker (log ++ [(action, frame)]) attemptId) :
    process'.db.FinishedWithout attemptId := by
  rcases hfiled.last with hfiled | ⟨earlier, before, finished, atMs, hrun, hlog, haction, hreply, houtcome⟩
  · obtain ⟨more, hmore⟩ := (act_spec hact).1.run
    exact hmore.keeps_finishedWithout (h.filed attemptId hfiled)
  · -- the machine has come to one state only by what was done before
    obtain rfl : process = before := h.run.unique hrun hlog
    cases haction
    rw [work_db hact]
    have hstep : JournalStep process.db ⟨.markFinished attemptId finished atMs, .ok ()⟩ _ := .executed hreply
    exact hstep.files houtcome

theorem FailuresEnded.keeps_waiting
    (h : FailuresEnded worker log process) (hallowed : FailsLate worker log process action)
    (hact : process.act worker action = some (process', frame)) {p : WorkerProgram SessionFailure Unit}
    (hsession : process'.session = some p) : ∃ read, ends engaging read p (fun _ _ => True) ∧
      ∀ attemptId next, p = .op (.engage attemptId) next → ¬ FailedForGood (log ++ [(action, frame)]) attemptId := by
  rcases (act_spec hact).2.2 with hsame | hnone | ⟨turns, hopened⟩ |
    ⟨given, o, next, reply, answered, rfl, hbefore, hanswer, hnext⟩
  · obtain ⟨read, hends, hout⟩ := h.waits p (hsame ▸ hsession)
    refine ⟨read, hends, fun attemptId next hp hfailed => ?_⟩
    rcases hfailed.last with hfailed | ⟨error, rfl, hclass⟩
    · exact hout attemptId next hp hfailed
    · exact (hallowed hclass).2 next (by rw [← hsame, hsession, hp])
  · rw [hnone] at hsession
    cases hsession
  · cases hopened.symm.trans hsession
    refine ⟨none, OutboundWorker.engages_runSession none, fun attemptId next hp => ?_⟩
    have hfirst : ends engaging none (.op (.engage attemptId) next) fun _ _ => True :=
      hp ▸ OutboundWorker.engages_runSession none
    cases hfirst.1
  · cases hnext.symm.trans hsession
    obtain ⟨read, ⟨_, hends⟩, _⟩ := h.waits _ hbefore
    refine ⟨o.readUnfinished reply, hends reply _ rfl, fun attemptId rest hp hfailed => ?_⟩
    have hlook : ends engaging (o.readUnfinished reply) (.op (.engage attemptId) rest) fun _ _ => True :=
      hp ▸ hends reply _ rfl
    rcases hfailed.last with hfailed | ⟨_, haction, _⟩
    · exact answer_session hanswer hlook.1 (h.ended attemptId hfailed).1.finished
    · cases haction

theorem FailuresEnded.step (h : FailuresEnded worker log process)
    (hallowed : FailsLate worker log process action) (hact : process.act worker action = some (process', frame)) :
    FailuresEnded worker (log ++ [(action, frame)]) process' := by
  obtain ⟨honwards, hactive, -⟩ := act_spec hact
  have hrun : Run (workerMachine worker) anything (log ++ [(action, frame)]) process' := .step h.run trivial hact
  obtain ⟨events, hjournal⟩ := h.journal
  obtain ⟨more, hmore⟩ := honwards.run
  refine ⟨hrun, ⟨_, hjournal.trans hmore⟩, fun attemptId hfinished => ?_, fun _ => h.keeps_filed hact,
    fun _ => h.keeps_waiting hallowed hact, fun attemptId hfailed => ?_⟩
  · rcases honwards.finishes attemptId hfinished with hbefore | howes
    · exact (h.enqueued attemptId hbefore).later
    · exact ⟨_, process', List.prefix_rfl, hrun, howes⟩
  · -- who had failed before stays out: no session looks it up, and none begins that is not registered
    by_cases hold : FailedForGood log attemptId
    · obtain ⟨hfiled, hout, hnever⟩ := h.ended attemptId hold
      refine ⟨hmore.keeps_finishedWithout hfiled, ?_, fun hbegun => ?_⟩
      · rw [← Bool.not_eq_true]
        intro hin
        rcases hactive attemptId hin with hbefore | ⟨given, next, rfl, hsession⟩
        · rw [hout] at hbefore
          cases hbefore
        · obtain ⟨_, _, hlooks⟩ := h.waits _ hsession
          exact hlooks attemptId next rfl hold
      · rcases hbegun.last with hbegun | ⟨_, haction⟩
        · exact hnever hbegun
        · cases haction
          rw [begin_active hact] at hout
          cases hout
    · rcases hfailed.last with hfailed | ⟨error, haction, hclass⟩
      · exact absurd hfailed hold
      · cases haction
        obtain ⟨hdb, hout⟩ := finish_inactive hact
        refine ⟨by rw [hdb]; exact h.filed attemptId (hallowed hclass).1, hout, fun hbegun => ?_⟩
        rcases hbegun.last with hbegun | ⟨_, haction⟩
        · exact hold hbegun.failed
        · cases haction

theorem Run.failures_ended (h : Run (workerMachine worker) (FailsLate worker) log process) :
    FailuresEnded worker log process :=
  h.invariant FailuresEnded.start fun _ _ _ _ _ hinv hallowed hact => hinv.step hallowed hact

end runs

section samples

def containerWorker : OutboundWorker where
  hello := ⟨1, 7, "worker", "boot", "0.1.0", [], none, "registration"⟩
  policy := ⟨false, 0, none⟩
  backends := some [.container]
  admissionOnly := false
  publishesArtifacts := false
  probesDevices := false

def containerAssignment : AssignmentContract :=
  { sampleContract with execution := { sampleExecution with
    bundle := ⟨⟨List.replicate 32 1⟩, 1, "application/octet-stream"⟩
    image := ⟨⟨List.replicate 32 2⟩, 1, "application/octet-stream"⟩ } }

def welcomed (connectionId : String) : List ProcessAction :=
  [.openSession 3, .answer .done, .answer (.connected (.ok ())), .answer .done, .answer .done,
    .answer (.response (.ok connectionId)),
    .answer (.frame (some (.ok ⟨1, 0, "", some (.welcome ⟨connectionId, 1, 7, 1000, 1000⟩)⟩))), .answer .done,
      .answer (.time 1),
    .answer .done, .answer .done]

def assigned (acknowledges : Nat) : ProcessAction :=
  .answer (.frame (some (.ok ⟨2, acknowledges, "assignment:attempt", some (.assignment containerAssignment)⟩)))

def assignedFirst : List ProcessAction :=
  [assigned 1, .answer (.time 2), .answer .done, .answer .done, .answer .done, .answer (.time 3), .answer .done,
    .answer (.sent true), .answer .done, .answer .done, .answer .done]

/-- In the next session the announcement is sent again, and the assignment is replayed. -/
def assignedAgain : List ProcessAction :=
  [.answer (.time 5), .answer .done, .answer (.sent true), assigned 2, .answer (.time 6), .answer .done, .answer .done,
    .answer .done, .answer .done, .answer .done, .answer .done]

def failedExecution : List ProcessAction :=
  [.finish "attempt" (.error (.terminal "container exited")), .answer .update, .closeSession]

def finishedExecution : List ProcessAction :=
  [.work "attempt" (.markRunning "attempt" 4) none,
    .work "attempt" (.markFinished "attempt" ⟨.infraError, none, 1, none, none, none, "container exited"⟩ 5) none]

def filesAt (worker : OutboundWorker) (attemptId : String) (actions : List ProcessAction) (i : Nat) : Bool :=
  match actions.drop i with
  | .work owner (.markFinished id finished atMs) none :: _ => owner = attemptId && id = attemptId &&
      decide (finished.outcome ≠ .succeeded) && (play (workerMachine worker) (actions.take i)).any fun end_ =>
        (((JournalOperation.markFinished attemptId finished atMs).execute end_.2.db).2 : Except _ Unit).isOk
  | _ => false

def FailsLate.test (worker : OutboundWorker) (log : ProcessHistory) (process : WorkerProcess) : ProcessAction → Bool
  | .finish attemptId (.error _) => (List.range log.length).any (filesAt worker attemptId (log.map Prod.fst)) &&
    match process.session with
    | some (.op (.engage other) _) => other ≠ attemptId
    | _ => true
  | _ => true

variable {log : ProcessHistory} {attemptId : String}

theorem FiledByExecution.of_filesAt {worker : OutboundWorker} {i : Nat}
    (h : filesAt worker attemptId (log.map Prod.fst) i = true) : FiledByExecution worker log attemptId := by
  unfold filesAt at h
  split at h
  · rename_i owner id finished atMs later hdrop
    simp only [Bool.and_eq_true, decide_eq_true_eq, Option.any_eq_true] at h
    obtain ⟨⟨⟨rfl, rfl⟩, houtcome⟩, ⟨earlier, before⟩, hplay, hok⟩ := h
    refine ⟨earlier, before, later, finished, atMs, play_run (fun _ _ _ _ => trivial) (allowedFrom_true _ _ _) hplay,
      ?_, ?_, houtcome⟩
    · have hactions : earlier.map Prod.fst = (log.map Prod.fst).take i := playFrom_actions hplay
      rw [hactions, ← hdrop, List.take_append_drop]
    · dsimp only at hok
      cases hreply : ((JournalOperation.markFinished id finished atMs).execute before.db).2 with
      | ok => rfl
      | error =>
        rw [hreply] at hok
        cases hok
  · cases h

theorem FailsLate.test_sound {worker : OutboundWorker} {process : WorkerProcess} {action : ProcessAction}
    (h : FailsLate.test worker log process action = true) : FailsLate worker log process action := by
  cases action with
  | finish attemptId result =>
    cases result with
    | ok => trivial
    | error error =>
      intro _
      obtain ⟨hfiled, hsession⟩ := Bool.and_eq_true_iff.mp h
      obtain ⟨i, _, hfiles⟩ := List.any_eq_true.mp hfiled
      refine ⟨.of_filesAt hfiles, fun next hnext => ?_⟩
      simp [hnext] at hsession
  | _ => trivial

theorem FailedForGood.of_actions (error : BackendError)
    (hmem : ProcessAction.finish attemptId (.error error) ∈ log.map Prod.fst)
    (hclass : error.failureClass ≠ .retryable) : FailedForGood log attemptId := by
  obtain ⟨⟨action, frame⟩, hmem, rfl⟩ := List.mem_map.mp hmem
  exact ⟨error, frame, hmem, hclass⟩

theorem BegunAfterFailure.of_actions (error : BackendError)
    (earlier later : List ProcessAction)
    (hlog : log.map Prod.fst = earlier ++ .finish attemptId (.error error) :: later)
    (hclass : error.failureClass ≠ .retryable) (hmem : ProcessAction.begin attemptId ∈ later) :
    BegunAfterFailure log attemptId := by
  obtain ⟨log₁, log₂, rfl, rfl, hlog₂⟩ := List.map_eq_append_iff.mp hlog
  obtain ⟨⟨action, frame⟩, log₃, rfl, haction, rfl⟩ := List.map_eq_cons_iff.mp hlog₂
  obtain ⟨⟨begun, frame'⟩, hmem, hbegun⟩ := List.mem_map.mp hmem
  cases haction
  cases hbegun
  exact ⟨log₁, error, frame, log₃, frame', rfl, hclass, hmem⟩

end samples

end AlloyPort
