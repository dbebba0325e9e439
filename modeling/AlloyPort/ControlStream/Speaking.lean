import AlloyPort.ControlStream.World
import AlloyPort.Worker.Engagement

/-! The frames that a session has taken on to send. It takes them on where it reads its outbox, and with a heartbeat or
an output chunk, and sends them all before it reads from the stream again. -/

namespace AlloyPort.ControlStream

open Effect Interleaving WorkerProgram OutboundWorker

/-- The stream a session speaks on, the messages it has delivered there, and what it has still to send of what it has
taken on: for every frame whether it is to be acknowledged. -/
structure Burden where
  stream : Option String
  delivered : List String
  owes : List Bool

namespace Burden

def idle : Burden := ⟨none, [], []⟩

def undelivered (b : Burden) (pending : List WorkerOutboxMessage) : Nat :=
  pending.countP fun entry => entry.messageId ∉ b.delivered

def after (b : Burden) : (o : WorkerOp) → o.Reply → Burden
  | .response, .ok stream => { b with stream := some stream }
  | .journal .pendingOutbox, .ok pending =>
    if b.stream.isSome then { b with owes := List.replicate (b.undelivered pending) true } else b
  | .select _, .heartbeat => { b with owes := [false] }
  | .select _, .update (.ok (.observation _ (.output _ _ bytes))) =>
    { b with owes := List.replicate (boundedPreviewChunks bytes bytes.length 0).length false }
  | .send _ frame, true =>
    { b with
      owes := b.owes.tail
      delivered := if isDurable frame then frame.messageId :: b.delivered else b.delivered }
  | _, _ => b

/-- The session speaks on the stream, and its registers know what it has delivered. -/
structure Speaks (outbound : String) (registers : Registers) (b : Burden) : Prop where
  stream : b.stream = some outbound
  delivered : registers.deliveredMessageIds = b.delivered

end Burden

open Burden

def speaking : Contract WorkerOp WorkerOp.Reply Burden where
  pre
    | b, .send stream frame => b.stream = some stream ∧ ∃ rest, b.owes = isDurable frame :: rest
    | b, .select stream => b.stream = some stream
    | _, _ => True
  post b o r b' := b' = b.after o r

def IsQuiet : WorkerOp → Prop
  | .response | .journal .pendingOutbox | .select _ | .send .. => False
  | _ => True

section programs

variable {ε α β : Type} {b : Burden} {outbound connectionId : String} {acknowledged : Nat} {registers : Registers}
  {o : WorkerOp}

theorem speaking_quiet (ho : IsQuiet o) (b : Burden) :
    speaking.pre b o ∧ ∀ r b', speaking.post b o r b' → b = b' := by
  cases o with
  | response | select | send => exact ho.elim
  | journal operation =>
    refine ⟨trivial, fun r b' h => ?_⟩
    cases operation <;> first | exact ho.elim | exact h.symm
  | _ => exact ⟨trivial, fun r b' h => h.symm⟩

variable {p : WorkerProgram ε α} {entry : WorkerOutboxMessage}
variable {pending : List WorkerOutboxMessage} {attemptId : String} {assignment : AssignmentContract}
variable {session : ControlSession}

theorem ends_quiet (hp : Performs IsQuiet p) : ends speaking b p fun b' _ => b = b' :=
  hp.ends (fun _ => rfl) Eq.trans fun _ ho b => speaking_quiet ho b

theorem ends_quiet_bind {f : α → WorkerProgram ε β} {R : Burden → Except ε β → Prop}
    (hp : Performs IsQuiet p) (herror : ∀ e, R b (.error e)) (h : ∀ a, ends speaking b (f a) R) :
    ends speaking b (p >>= f) R := by
  refine ends_bind.mpr (ends_mono (ends_quiet hp) fun b' r hsame => ?_)
  subst hsame
  cases r with
  | error e => exact herror e
  | ok a => exact h a

theorem quiet_of_local (h : Performs WorkerOp.IsLocal p) : Performs IsQuiet p := by
  refine performs_mono h fun o ho => ?_
  cases o with
  | journal operation => cases operation <;> trivial
  | _ => trivial

theorem isDurable_outboxToWire {sequence acknowledges : Nat} {messageId : String} {payload : WorkerOutboxPayload} :
    isDurable ⟨sequence, acknowledges, messageId, some (outboxToWire payload)⟩ = true := by
  cases payload <;> rfl

def Spoke (outbound : String) (b' : Burden) (r : Except ε Registers) : Prop :=
  ∀ registers, r = .ok registers → Speaks outbound registers b'

theorem undelivered_skip
    (h : entry.messageId ∈ b.delivered) : b.undelivered (entry :: pending) = b.undelivered pending := by
  rw [undelivered, List.countP_cons_of_neg (by simpa using h)]
  rfl

theorem undelivered_deliver (pending : List WorkerOutboxMessage)
    (h : entry.messageId ∉ b.delivered) (b' : Burden) (hb' : b'.delivered = entry.messageId :: b.delivered) :
    b'.undelivered pending < b.undelivered (entry :: pending) := by
  have hle : b'.undelivered pending ≤ b.undelivered pending := by
    refine List.countP_mono_left fun other _ hother => ?_
    rw [hb', decide_eq_true_eq, List.mem_cons, not_or] at hother
    exact decide_eq_true hother.2
  have hcons : b.undelivered (entry :: pending) = b.undelivered pending + 1 :=
    List.countP_cons_of_pos (by simpa using h)
  omega

theorem says_sendPending {k : Nat} (hb : Speaks outbound registers b)
    (howes : b.owes = List.replicate k true) (hk : b.undelivered pending ≤ k) :
    ends speaking b (sendPending connectionId outbound acknowledged pending registers)
      fun b' r => Spoke outbound b' r := by
  induction pending generalizing b registers k with
  | nil =>
    rintro registers' h
    cases h
    exact hb
  | cons entry rest ih =>
    rw [sendPending]
    by_cases hdelivered : entry.messageId ∈ registers.deliveredMessageIds
    · rw [if_pos hdelivered]
      rw [hb.delivered] at hdelivered
      rw [undelivered_skip hdelivered] at hk
      exact ih hb howes hk
    · rw [if_neg hdelivered]
      rw [hb.delivered] at hdelivered
      have hfresh := undelivered_deliver rest hdelivered
        { b with delivered := entry.messageId :: b.delivered } rfl
      obtain ⟨k, rfl⟩ : ∃ n, k = n + 1 := ⟨k - 1, by omega⟩
      rw [List.replicate_succ] at howes
      refine ends_quiet_bind (quiet_of_local (local_journalNow fun _ => performs_journal trivial))
        (fun e registers h => by cases h) fun _ => ?_
      refine ends_bind.mpr ⟨⟨hb.stream, _, by rw [howes, isDurable_outboxToWire]⟩, fun sent b' hb' => ?_⟩
      obtain rfl : b' = _ := hb'
      cases sent with
      | false =>
        rintro registers' h
        cases h
      | true =>
        refine ih (k := k) ⟨hb.stream, ?_⟩ ?_ ?_
        · rw [after, if_pos isDurable_outboxToWire, hb.delivered]
        · rw [after, howes]
          rfl
        · rw [after, if_pos isDurable_outboxToWire]
          exact Nat.le_of_lt_succ (Nat.lt_of_lt_of_le hfresh hk)

theorem says_sendPendingOutbox (hb : Speaks outbound registers b) :
    ends speaking b (sendPendingOutbox connectionId outbound acknowledged registers) fun b' r =>
    Spoke outbound b' r := by
  refine ends_bind.mpr ⟨trivial, fun reply b' hb' => ?_⟩
  obtain rfl : b' = _ := hb'
  cases reply with
  | error e =>
    rintro registers' h
    cases h
  | ok pending =>
    have hafter : b.after (.journal .pendingOutbox) (.ok pending) =
        { b with owes := List.replicate (b.undelivered pending) true } := by
      rw [after, if_pos (by rw [hb.stream]; rfl)]
    refine says_sendPending (k := b.undelivered pending) ?_ ?_ ?_
    · rw [hafter]
      exact ⟨hb.stream, hb.delivered⟩
    · rw [hafter]
    · rw [hafter]
      exact Nat.le_refl _

theorem says_sendEphemeral {message : WorkerMessage} {rest : List Bool} (hb : Speaks outbound registers b)
    (hmessage : expectedWorkerMessageId (some message) = none) (howes : b.owes = false :: rest) :
    ends speaking b (sendEphemeral outbound acknowledged message registers) fun b' r =>
      ∀ registers', r = .ok registers' → Speaks outbound registers' b' ∧ b'.owes = rest := by
  have hkind : ∀ {sequence : Nat}, isDurable ⟨sequence, acknowledged, "", some message⟩ = false := by
    intro sequence
    rw [isDurable, hmessage]
    rfl
  refine ends_bind.mpr ⟨⟨hb.stream, rest, by rw [howes, hkind]⟩, fun sent b' hb' => ?_⟩
  obtain rfl : b' = _ := hb'
  cases sent with
  | false =>
    rintro registers' h
    cases h
  | true =>
    rintro registers' h
    cases h
    rw [after, hkind, howes]
    exact ⟨⟨hb.stream, hb.delivered⟩, rfl⟩

theorem says_sendChunks {stderr : Bool} {byteOffset : Nat} {chunks : List (Nat × List UInt8)}
    (hb : Speaks outbound registers b) (howes : b.owes = List.replicate chunks.length false) :
    ends speaking b (sendChunks attemptId stderr byteOffset outbound acknowledged chunks registers)
      fun b' r => Spoke outbound b' r := by
  induction chunks generalizing b registers with
  | nil =>
    rintro registers' h
    cases h
    exact hb
  | cons chunk rest ih =>
    refine ends_bind.mpr (ends_mono (says_sendEphemeral hb rfl howes) fun b' r hr => ?_)
    cases r with
    | error e =>
      rintro registers' h
      cases h
    | ok registers' => exact ih (hr registers' rfl).1 (hr registers' rfl).2

variable {worker : OutboundWorker} {turns : Nat}

theorem quiet_ensureExecution : Performs IsQuiet (worker.ensureExecution attemptId) := by
  unfold ensureExecution
  split
  · trivial
  · refine performs_bind (performs_journal trivial) fun found => ?_
    cases found with
    | none => trivial
    | some attempt =>
      dsimp only
      split
      · trivial
      · split
        · exact performs_bind (performs_operate trivial) fun _ => trivial
        · trivial

theorem says_handleAssignment (hb : Speaks outbound registers b) :
    ends speaking b (worker.handleAssignment assignment connectionId outbound acknowledged registers)
      fun b' r => Spoke outbound b' r := by
  have herror : ∀ (b' : Burden) (e : WorkerError), Spoke outbound b' (.error e : Except WorkerError Registers) :=
    fun _ _ _ h => by cases h
  refine ends_quiet_bind (quiet_of_local local_recordAdmission) (herror b) fun admitted => ?_
  refine ends_quiet_bind ?_ (herror b) fun _ => ?_
  · split
    · exact quiet_of_local local_announcePhase
    · trivial
  · refine ends_bind_cases (says_sendPendingOutbox hb) (fun b' e _ => herror b' e) fun b' _ hr => ?_
    refine ends_quiet_bind ?_ (herror b') fun _ => ?_
    · split
      · exact quiet_ensureExecution
      · trivial
    · rintro _ h
      cases h
      exact hr _ rfl

theorem says_handleCancel {reason : String} (hb : Speaks outbound registers b) :
    ends speaking b (worker.handleCancel attemptId reason connectionId outbound acknowledged registers)
      fun b' r => Spoke outbound b' r := by
  have herror : ∀ (b' : Burden) (e : WorkerError), Spoke outbound b' (.error e : Except WorkerError Registers) :=
    fun _ _ _ h => by cases h
  refine ends_quiet_bind (quiet_of_local local_acknowledgeCancellation) (herror b) fun alreadyTerminal => ?_
  · split
    · exact says_sendPendingOutbox hb
    · split
      · refine ends_quiet_bind (quiet_of_local (local_journalNow fun _ => performs_journal trivial)) (herror b)
          fun _ => ?_
        refine ends_quiet_bind (performs_journal trivial) (herror b) fun found => ?_
        split
        · exact herror b _
        · exact says_sendPendingOutbox hb
      · refine ends_quiet_bind quiet_ensureExecution (herror b) fun cancellation => ?_
        cases cancellation with
        | none => exact herror b _
        | some cancellation =>
          refine ends_bind_cases (says_sendPendingOutbox hb) (fun b' e _ => herror b' e) fun b' _ hr => ?_
          refine ends_quiet_bind (performs_operate trivial) (herror b') fun _ => ?_
          rintro _ h
          cases h
          exact hr _ rfl

theorem says_handleExecutionReceive {update : Except RecvError ExecutionUpdate} (hb : Speaks outbound registers b)
    (howes : ∀ attemptId stderr byteOffset bytes,
      update = .ok (.observation attemptId (.output stderr byteOffset bytes)) →
      b.owes = List.replicate (boundedPreviewChunks bytes bytes.length 0).length false) :
    ends speaking b (handleExecutionReceive update connectionId outbound acknowledged registers)
      fun b' r => Spoke outbound b' r := by
  rcases update with error | update
  · cases error with
    | closed =>
      rintro registers' h
      cases h
    | lagged => exact says_sendPendingOutbox hb
  · rcases update with ⟨attemptId, _ | ⟨stderr, byteOffset, bytes⟩⟩ | ⟨attemptId, detail | u⟩
    · exact says_sendPendingOutbox hb
    · exact says_sendChunks hb (howes _ _ _ _ rfl)
    · rintro registers' h
      cases h
    · exact says_sendPendingOutbox hb

def Wakes (b : Burden) : SessionInput → Prop
  | .heartbeat => b.owes = [false]
  | .update (.ok (.observation _ (.output _ _ bytes))) =>
    b.owes = List.replicate (boundedPreviewChunks bytes bytes.length 0).length false
  | _ => True

def Turned (b' : Burden) (r : Except ε (Option ControlSession)) : Prop :=
  ∀ session, r = .ok (some session) → Speaks session.outbound session.registers b'

theorem says_receiveFrame {incoming : Option (Except Status ServerToWorker)}
    (hb : Speaks session.outbound session.registers b) :
    ends speaking b (worker.receiveFrame incoming session) fun b' r => Turned b' r := by
  have herror : ∀ (b' : Burden) (e : SessionFailure), Turned b' (.error e : Except SessionFailure _) :=
    fun _ _ _ h => by cases h
  rcases incoming with _ | status | message
  · exact herror b _
  · exact herror b _
  · refine ends_quiet_bind (performs_mapError performs_attempt) (herror b) fun _ => ?_
    have hhandled : ends speaking b (worker.handleServerMessage message.message session.connectionId session.outbound
        message.sequence session.registers) fun b' r => ∀ ended registers, r = .ok (ended, registers) →
          Speaks session.outbound registers b' := by
      have hend : ∀ (b' : Burden) (e : SessionFailure) (ended : Bool) (registers : Registers),
          Except.error e = .ok (ended, registers) → Speaks session.outbound registers b' := by
        intro b' e ended registers h
        cases h
      have hsaid : ∀ {p : WorkerProgram WorkerError Registers} {f : WorkerError → SessionFailure},
          (ends speaking b p fun b' r => Spoke session.outbound b' r) →
          ends speaking b (p.mapError f >>= fun registers => pure (false, registers)) fun b' r =>
            ∀ ended registers, r = .ok (ended, registers) → Speaks session.outbound registers b' := by
        intro p f hp
        refine ends_bind_mapError hp (fun b' _ _ => hend b' _) fun _ _ hr => ?_
        rintro ended _ h
        cases h
        exact hr _ rfl
      have hstill : ∀ ended registers, (.ok (false, session.registers) : Except SessionFailure (Bool × Registers)) =
          .ok (ended, registers) → Speaks session.outbound registers b := by
        rintro ended registers h
        cases h
        exact hb
      unfold handleServerMessage
      split
      · split
        · exact hend b _
        · exact hstill
      · exact hsaid (says_handleAssignment hb)
      · rintro ended registers h
        cases h
        exact hb
      · exact hsaid (says_handleCancel hb)
      · exact hstill
      · exact hend b _
    refine ends_bind.mpr (ends_mono hhandled fun b' r hr => ?_)
    rcases r with e | ⟨ended, registers⟩
    · exact herror b' e
    · cases ended with
      | true =>
        rintro session' h
        cases h
      | false =>
        refine ends_quiet_bind (performs_mapError (performs_journal trivial)) (herror b') fun _ => ?_
        rintro session' h
        cases h
        exact hr _ _ rfl

theorem says_takeTurn {input : SessionInput}
    (hb : Speaks session.outbound session.registers b) (hwakes : Wakes b input) :
    ends speaking b (worker.takeTurn input session) fun b' r => Turned b' r := by
  have herror : ∀ (b' : Burden) (e : SessionFailure), Turned b' (.error e : Except SessionFailure _) :=
    fun _ _ _ h => by cases h
  cases input with
  | incoming message => exact says_receiveFrame hb
  | heartbeat =>
    refine ends_quiet_bind (performs_mapError (quiet_of_local local_buildHeartbeat)) (herror b) fun heartbeat => ?_
    refine ends_bind_mapError (says_sendEphemeral hb rfl hwakes) (fun b' _ _ => herror b' _) fun _ registers hr => ?_
    rintro session' h
    cases h
    exact (hr registers rfl).1
  | update update =>
    refine ends_bind.mpr (ends_mapError.mpr (ends_mono (says_handleExecutionReceive hb fun _ _ _ _ h => ?_)
      fun b' r hr => ?_))
    · subst h
      exact hwakes
    · cases r with
      | error e => exact herror b' _
      | ok registers =>
        rintro session' h
        cases h
        exact hr registers rfl

theorem says_controlLoop (hb : Speaks session.outbound session.registers b) :
    ends speaking b (worker.controlLoop turns session) fun _ _ => True := by
  induction turns generalizing b session with
  | zero => trivial
  | succ turns ih =>
    refine ends_bind.mpr ⟨hb.stream, fun input b' hb' => ?_⟩
    obtain rfl : b' = _ := hb'
    refine ends_bind.mpr (ends_mono (says_takeTurn ?_ ?_) fun b' r hr => ?_)
    · rcases input with message | _ | error | ⟨attemptId, _ | ⟨stderr, byteOffset, bytes⟩⟩ | completed
      all_goals exact ⟨hb.stream, hb.delivered⟩
    · rcases input with message | _ | error | ⟨attemptId, _ | ⟨stderr, byteOffset, bytes⟩⟩ | completed
      all_goals trivial
    · rcases r with e | _ | session'
      · trivial
      · trivial
      · exact ih (hr session' rfl)

theorem says_publishPendingTerminalArtifacts :
    ends speaking .idle worker.publishPendingTerminalArtifacts fun b' _ => b' = .idle := by
  unfold publishPendingTerminalArtifacts
  split
  · refine ends_bind.mpr ⟨trivial, fun reply b' hb' => ?_⟩
    cases reply with
    | error e => exact hb'
    | ok pending =>
      obtain rfl : b' = .idle := hb'
      show ends speaking .idle (publishPending pending) fun b' _ => b' = .idle
      exact ends_mono (ends_quiet (quiet_of_local local_publishPending)) fun _ _ h => h.symm
  · rfl

theorem says_openSession : ends speaking .idle worker.openSession fun b' r =>
    ∀ session, r = .ok session → Speaks session.outbound session.registers b' := by
  have herror : ∀ (b' : Burden) (e : WorkerError) (session : ControlSession), Except.error e = .ok session →
      Speaks session.outbound session.registers b' := by
    intro b' e session h
    cases h
  refine ends_quiet_bind (performs_operate trivial) (herror .idle) fun connected => ?_
  refine ends_quiet_bind performs_attempt (herror .idle) fun _ => ?_
  refine ends_quiet_bind (quiet_of_local local_activeAttempts) (herror .idle) fun attempts => ?_
  refine ends_quiet_bind (performs_operate trivial) (herror .idle) fun _ => ?_
  refine ends_bind.mpr ⟨trivial, fun response b₁ hb₁ => ?_⟩
  cases response with
  | error e => exact ends_bind.mpr (herror b₁ e)
  | ok outbound =>
    obtain rfl : b₁ = ⟨some outbound, [], []⟩ := hb₁
    refine ends_quiet_bind (p := operate (.receive outbound)) (performs_operate trivial) (herror _) fun received => ?_
    rcases received with _ | status | welcomeFrame
    · exact herror _ _
    · exact herror _ _
    · refine ends_quiet_bind performs_attempt (herror _) fun _ => ?_
      refine ends_quiet_bind performs_attempt (herror _) fun identity => ?_
      have hresumed : ends speaking ⟨some outbound, [], []⟩
          (resumeOutboxDelivery identity.1 outbound welcomeFrame.sequence
          welcomeFrame.acknowledgesWorkerThrough ⟨2, []⟩) fun b' r => Spoke outbound b' r := by
        have hfail : ∀ (e : WorkerError) (b' : Burden), Spoke outbound b' (.error e : Except WorkerError Registers) :=
          fun _ _ _ h => by cases h
        refine ends_quiet_bind (performs_journal trivial) (fun e => hfail e _) fun _ => ?_
        refine ends_quiet_bind (quiet_of_local (local_journalNow fun _ => performs_journal trivial))
          (fun e => hfail e _) fun _ => ?_
        exact says_sendPendingOutbox ⟨rfl, rfl⟩
      refine ends_bind_cases hresumed (fun b' e _ => herror b' e) fun _ registers hr => ?_
      rintro session h
      cases h
      exact hr registers rfl

theorem says_runSession : ends speaking .idle (worker.runSession turns) fun _ _ => True := by
  refine ends_bind.mpr (ends_mapError.mpr (ends_mono says_publishPendingTerminalArtifacts fun b' r hr => ?_))
  subst hr
  cases r with
  | error e => trivial
  | ok u =>
    refine ends_quiet_bind (performs_mapError (quiet_of_local local_retryTerminalCudaCleanup)) (fun e => trivial)
      fun _ => ?_
    exact ends_bind_mapError says_openSession
      (fun _ _ _ => trivial) fun _ session hr => says_controlLoop (hr session rfl)

end programs

end AlloyPort.ControlStream
