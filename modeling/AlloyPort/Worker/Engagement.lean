import AlloyPort.Worker.Control

/-! A session registers an execution in two steps: it reads the record of the attempt, and when that is not finished it
looks the attempt up among the active executions. -/

namespace AlloyPort

open Effect WorkerProgram

/-- The attempt whose record has just been read and was not finished. -/
def WorkerOp.readUnfinished : (o : WorkerOp) → o.Reply → Option String
  | .journal (.attempt attemptId), .ok (some record) => if record.phase = .finished then none else some attemptId
  | _, _ => none

def engaging : Contract WorkerOp WorkerOp.Reply (Option String) where
  pre
    | read, .engage attemptId => read = some attemptId
    | _, _ => True
  post _ o reply read' := read' = o.readUnfinished reply

def WorkerOp.IsQuiet : WorkerOp → Prop
  | .engage _ => False
  | _ => True

/-- Neither on the stream of the session nor on its outbox or the active executions. -/
def WorkerOp.IsLocal : WorkerOp → Prop
  | .response | .journal .pendingOutbox | .select _ | .send .. | .engage _ => False
  | _ => True

/-- Whatever has been read before, an attempt is looked up only where it was found unfinished. -/
def Engages {ε α : Type} (p : WorkerProgram ε α) : Prop := ∀ read, ends engaging read p fun _ _ => True

section programs

variable {ε ε' α β : Type} {p : WorkerProgram ε α}

theorem engages_quiet (h : Performs WorkerOp.IsQuiet p) : Engages p := fun read => by
  have hquiet : ∀ o : WorkerOp, o.IsQuiet → ∀ read : Option String, engaging.pre read o ∧
      ∀ reply read', engaging.post read o reply read' → True := by
    intro o ho read
    refine ⟨?_, fun _ _ _ => trivial⟩
    cases o with
    | engage => exact ho.elim
    | _ => trivial
  exact ends_mono (h.ends (r := fun _ _ => True) (fun _ => trivial) (fun _ _ => trivial) hquiet) fun _ _ _ => trivial

theorem engages_bind {f : α → WorkerProgram ε β} (hp : Engages p) (hf : ∀ a, Engages (f a)) : Engages (p >>= f) :=
  fun read => ends_bind_cases (hp read) (fun _ _ _ => trivial) fun read' a _ => hf a read'

theorem engages_mapError {f : ε → ε'} (hp : Engages p) : Engages (p.mapError f) := fun read =>
  ends_mapError.mpr (hp read)

theorem quiet_local (h : Performs WorkerOp.IsLocal p) : Performs WorkerOp.IsQuiet p :=
  performs_mono h fun o ho => by cases o <;> trivial

variable {allowed : WorkerOp → Prop} {operation : JournalOperation} {o : WorkerOp}

theorem performs_journal (h : allowed (.journal operation)) : Performs allowed (journal operation) :=
  ⟨h, fun _ => performs_attempt⟩

theorem performs_operate (h : allowed o) : Performs allowed (operate o : WorkerProgram ε o.Reply) :=
  ⟨h, fun _ => trivial⟩

theorem performs_ite {c : Prop} [Decidable c] {q : WorkerProgram ε α} (hp : Performs allowed p)
    (hq : Performs allowed q) : Performs allowed (if c then p else q) := by
  split
  · exact hp
  · exact hq

theorem local_journalNow {call : Nat → WorkerProgram WorkerError α} (h : ∀ now, Performs WorkerOp.IsLocal (call now)) :
    Performs WorkerOp.IsLocal (journalNow call) := ⟨trivial, h⟩

end programs

namespace OutboundWorker

variable {worker : OutboundWorker} {attemptId reason connectionId outbound : String} {acknowledged turns : Nat}
variable {registers : Registers} {assignment : AssignmentContract}

theorem local_enqueueLifecycle (payload : WorkerOutboxPayload) :
    Performs WorkerOp.IsLocal (WorkerState.enqueueLifecycle payload) :=
  performs_bind (local_journalNow fun _ => performs_journal trivial) fun _ => trivial

theorem local_recordAdmission : Performs WorkerOp.IsLocal (worker.recordAdmission assignment) := by
  have hreject : ∀ reason detail, Performs WorkerOp.IsLocal (recordAdmission.reject assignment reason detail) :=
    fun _ _ => performs_bind (local_enqueueLifecycle _) fun _ => trivial
  refine performs_bind ?_ fun admission => ?_
  · split
    · refine performs_result (performs_bind performs_attempt fun _ => performs_bind performs_attempt fun _ => ?_)
      exact local_journalNow fun _ => performs_journal trivial
    · trivial
  · split
    · trivial
    · exact hreject _ _
    · exact hreject _ _
    · exact hreject _ _
    · trivial

theorem local_announcePhase : Performs WorkerOp.IsLocal (announcePhase attemptId) := by
  refine performs_bind (performs_journal trivial) fun attempt => ?_
  cases attempt with
  | none => trivial
  | some attempt =>
    dsimp only
    split
    · exact local_journalNow fun _ => performs_journal trivial
    · exact local_journalNow fun _ => performs_journal trivial
    · trivial
    · trivial

theorem local_acknowledgeCancellation : Performs WorkerOp.IsLocal (acknowledgeCancellation attemptId) := by
  refine performs_bind (performs_journal trivial) fun attempt => ?_
  cases attempt with
  | none => trivial
  | some attempt => exact performs_bind (local_enqueueLifecycle _) fun _ => trivial

theorem local_availableSlots {usableDevices : Nat} : Performs WorkerOp.IsLocal (worker.availableSlots usableDevices) :=
  performs_bind (performs_journal trivial) fun _ => trivial

theorem local_activeAttempts : Performs WorkerOp.IsLocal activeAttempts :=
  performs_bind (performs_journal trivial) fun _ => trivial

theorem local_buildHeartbeat : Performs WorkerOp.IsLocal worker.buildHeartbeat := by
  refine performs_bind local_activeAttempts fun _ => performs_bind ?_ fun probed => ?_
  · unfold probe
    split
    · refine performs_bind (performs_operate trivial) fun devices => ?_
      cases devices <;> trivial
    · trivial
  · refine performs_bind (performs_journal trivial) fun _ => performs_bind (performs_journal trivial) fun _ => ?_
    refine performs_bind (performs_ite local_availableSlots trivial) fun _ => ?_
    exact performs_bind local_availableSlots fun _ => trivial

theorem local_publishPending {pending : List WorkerOutboxMessage} :
    Performs WorkerOp.IsLocal (publishPending pending) := by
  induction pending with
  | nil => trivial
  | cons entry rest ih =>
    unfold publishPending
    split
    · refine performs_bind (performs_operate trivial) fun published => ?_
      cases published with
      | ok => exact ih
      | error => trivial
    · exact ih

theorem local_retryCleanups {attempts : List LocalAttemptRecord} :
    Performs WorkerOp.IsLocal (worker.retryCleanups attempts) := by
  induction attempts with
  | nil => trivial
  | cons attempt rest ih => exact performs_bind (performs_ite (performs_operate trivial) trivial) fun _ => ih

theorem local_retryTerminalCudaCleanup : Performs WorkerOp.IsLocal worker.retryTerminalCudaCleanup := by
  unfold retryTerminalCudaCleanup
  split
  · trivial
  · exact performs_bind (performs_journal trivial) fun _ => local_retryCleanups

theorem quiet_sendPending (pending : List WorkerOutboxMessage) (registers : Registers) :
    Performs WorkerOp.IsQuiet (sendPending connectionId outbound acknowledged pending registers) := by
  induction pending generalizing registers with
  | nil => trivial
  | cons entry rest ih =>
    unfold sendPending
    split
    · exact ih registers
    · refine performs_bind (quiet_local (local_journalNow fun _ => performs_journal trivial)) fun _ => ?_
      exact performs_bind (performs_operate trivial) fun _ => performs_ite (ih _) trivial

theorem quiet_sendPendingOutbox :
    Performs WorkerOp.IsQuiet (sendPendingOutbox connectionId outbound acknowledged registers) :=
  performs_bind (performs_journal trivial) fun pending => quiet_sendPending pending registers

theorem engages_ensureExecution : Engages (worker.ensureExecution attemptId) := by
  intro read
  unfold ensureExecution
  split
  · trivial
  · refine ends_bind.mpr ⟨trivial, fun reply read' hread => ends_attempt.mpr ?_⟩
    subst hread
    cases reply with
    | error error => trivial
    | ok attempt =>
      cases attempt with
      | none => trivial
      | some attempt =>
        show ends engaging _ (if attempt.phase = .finished then _ else _) _
        split
        · trivial
        · rename_i hunfinished
          dsimp only
          split
          · exact ⟨if_neg hunfinished, fun _ _ _ => trivial⟩
          · trivial

theorem engages_handleAssignment :
    Engages (worker.handleAssignment assignment connectionId outbound acknowledged registers) := by
  refine engages_bind (engages_quiet (quiet_local local_recordAdmission)) fun admitted => ?_
  refine engages_bind ?_ fun _ => ?_
  · split
    · exact engages_quiet (quiet_local local_announcePhase)
    · exact engages_quiet trivial
  refine engages_bind (engages_quiet quiet_sendPendingOutbox) fun _ => engages_bind ?_ fun _ => ?_
  · split
    · exact engages_ensureExecution
    · exact engages_quiet trivial
  · exact engages_quiet trivial

theorem engages_handleCancel :
    Engages (worker.handleCancel attemptId reason connectionId outbound acknowledged registers) := by
  refine engages_bind (engages_quiet (quiet_local local_acknowledgeCancellation)) fun terminal => ?_
  split
  · exact engages_quiet quiet_sendPendingOutbox
  · split
    · refine engages_quiet (performs_bind (quiet_local (local_journalNow fun _ => performs_journal trivial))
        fun _ => ?_)
      refine performs_bind (performs_journal trivial) fun attempt => ?_
      split
      · exact trivial
      · exact quiet_sendPendingOutbox
    · refine engages_bind engages_ensureExecution fun cancellation => engages_quiet ?_
      cases cancellation with
      | none => exact trivial
      | some cancellation =>
        refine performs_bind quiet_sendPendingOutbox fun _ => performs_bind (performs_operate trivial) fun _ => ?_
        exact trivial

theorem engages_receiveFrame (incoming : Option (Except Status ServerToWorker)) (session : ControlSession) :
    Engages (worker.receiveFrame incoming session) := by
  unfold receiveFrame
  split
  · exact engages_quiet trivial
  · exact engages_quiet trivial
  · refine engages_bind (engages_mapError (engages_quiet performs_attempt)) fun _ => engages_bind ?_ fun handled => ?_
    · unfold handleServerMessage
      split
      · split
        · exact engages_quiet trivial
        · exact engages_quiet trivial
      · exact engages_bind (engages_mapError engages_handleAssignment) fun _ => engages_quiet trivial
      · exact engages_quiet trivial
      · exact engages_bind (engages_mapError engages_handleCancel) fun _ => engages_quiet trivial
      · exact engages_quiet trivial
      · exact engages_quiet trivial
    · obtain ⟨ended, registers⟩ := handled
      cases ended with
      | true => exact engages_quiet trivial
      | false =>
        exact engages_quiet (performs_bind (performs_mapError (performs_journal trivial)) fun _ => trivial)

theorem quiet_sendEphemeral (message : WorkerMessage) (registers : Registers) :
    Performs WorkerOp.IsQuiet (sendEphemeral outbound acknowledged message registers) :=
  performs_bind (performs_operate trivial) fun _ => performs_ite trivial trivial

theorem quiet_sendChunks {stderr : Bool} {byteOffset : Nat} (chunks : List (Nat × List UInt8)) (registers : Registers) :
    Performs WorkerOp.IsQuiet (sendChunks attemptId stderr byteOffset outbound acknowledged chunks registers) := by
  induction chunks generalizing registers with
  | nil => exact trivial
  | cons chunk rest ih => exact performs_bind (quiet_sendEphemeral _ registers) fun registers => ih registers

theorem quiet_handleExecutionReceive (update : Except RecvError ExecutionUpdate) :
    Performs WorkerOp.IsQuiet (handleExecutionReceive update connectionId outbound acknowledged registers) := by
  unfold handleExecutionReceive
  split
  · unfold handleExecutionUpdate
    split
    · exact quiet_sendPendingOutbox
    · exact quiet_sendChunks _ registers
    · exact trivial
    · exact quiet_sendPendingOutbox
  · exact quiet_sendPendingOutbox
  · exact trivial

theorem engages_controlLoop (session : ControlSession) : Engages (worker.controlLoop turns session) := by
  induction turns generalizing session with
  | zero => exact engages_quiet trivial
  | succ turns ih =>
    refine engages_bind (engages_quiet ⟨trivial, fun _ => trivial⟩) fun input => engages_bind ?_ fun next => ?_
    · cases input with
      | incoming message => exact engages_receiveFrame message session
      | heartbeat =>
        refine engages_quiet (performs_bind (performs_mapError (quiet_local local_buildHeartbeat)) fun _ => ?_)
        exact performs_bind (performs_mapError (quiet_sendEphemeral _ _)) fun _ => trivial
      | update update =>
        refine engages_quiet (performs_bind (performs_mapError (quiet_handleExecutionReceive update)) fun _ => ?_)
        exact trivial
    · cases next with
      | none => exact engages_quiet trivial
      | some session => exact ih session

theorem quiet_openSession : Performs WorkerOp.IsQuiet worker.openSession := by
  refine performs_bind (performs_operate trivial) fun _ => performs_bind performs_attempt fun _ => ?_
  refine performs_bind (quiet_local local_activeAttempts) fun _ => performs_bind (performs_operate trivial) fun _ => ?_
  refine performs_bind (performs_operate trivial) fun _ => performs_bind performs_attempt fun outbound => ?_
  refine performs_bind (performs_operate trivial) fun frame => ?_
  split
  · trivial
  · trivial
  · refine performs_bind performs_attempt fun _ => performs_bind performs_attempt fun identity => ?_
    refine performs_bind ?_ fun _ => trivial
    refine performs_bind (performs_journal trivial) fun _ => ?_
    exact performs_bind (quiet_local (local_journalNow fun _ => performs_journal trivial))
      fun _ => quiet_sendPendingOutbox

theorem quiet_publishPendingTerminalArtifacts : Performs WorkerOp.IsQuiet worker.publishPendingTerminalArtifacts :=
  performs_ite (performs_bind (performs_journal trivial) fun _ => quiet_local local_publishPending) trivial

theorem engages_runSession : Engages (worker.runSession turns) := by
  refine engages_bind (engages_mapError (engages_quiet quiet_publishPendingTerminalArtifacts)) fun _ => ?_
  refine engages_bind (engages_mapError (engages_quiet (quiet_local local_retryTerminalCudaCleanup))) fun _ => ?_
  exact engages_bind (engages_mapError (engages_quiet quiet_openSession)) fun session => engages_controlLoop session

end OutboundWorker

end AlloyPort
