import AlloyPort.Service.Ingress
import AlloyPort.Worker.Control

/-! The control streams of a service. A stream joins a session of a worker to the tasks of the service by a channel of
bounded capacity and a finite network in each direction; a send waits until its channel has room. The channel to the
worker is drained by the transport, and only from the moment at which the handler has returned its response. -/

namespace AlloyPort.ControlStream

open Effect Interleaving SqliteControlRepository

def isDurable (frame : WorkerToServer) : Bool := (expectedWorkerMessageId frame.message).isSome

/-- The `64` of `mpsc::channel(64)`, on either side. -/
def channelCapacity : Nat := 64

/-- How many frames of a stream the network holds on their way up to the service, and down from it. -/
structure Buffers where
  up : Nat
  down : Nat

inductive CallStage where
  | idle
  | requested (hello : WorkerHello)
  | serving
  | published (workerId connectionId : String)
  | answered (workerId connectionId : String)
  | established (workerId connectionId : String)

namespace CallStage

def connection : CallStage → Option String
  | published _ connectionId | answered _ connectionId | established _ connectionId => some connectionId
  | _ => none

def isHanded : CallStage → Bool
  | answered .. | established .. => true
  | _ => false

def after (stage : CallStage) : ServiceOp → CallStage
  | .publish workerId record => .published workerId record.connectionId
  | _ => stage

end CallStage

/-- What a task of the service runs for: the call of a session, the stream of a connection, or a request. -/
inductive Caller where
  | call (session : Nat)
  | consumer (connectionId : String)
  | request

inductive LinkOp where
  | begin (workerId : String)
  | finish (workerId : String)
  | work (session : Nat) (workerId : String) (o : WorkerOp)
  | accept
  | serve (caller : Caller) (o : ServiceOp)
  | answer (session : Nat)
  | attach

@[reducible] def LinkOp.Reply : LinkOp → Type
  | begin _ => Nat
  | work _ _ o => o.Reply
  | accept => Nat × WorkerHello
  | serve _ o => o.Reply
  | attach => String × String
  | finish _ | answer _ => Unit

abbrev LinkProgram := Prog LinkOp LinkOp.Reply Unit Unit

abbrev LinkEvent := Interleaving.Event LinkOp LinkOp.Reply

/-- The service and its workers, by their journals. Of a stream, `outgoing` is what the channel of the session holds;
`carried` and `read` count the frames to the worker that have left their channel and that have been read. -/
structure Link where
  service : ServiceState
  journals : String → JournalDatabase
  active : List String
  sessions : Nat
  calls : Nat → CallStage
  attached : List String
  outgoing : String → List WorkerToServer
  carried : String → Nat
  read : String → Nat

namespace Link

def withCall (n : Nat) (stage : CallStage) (s : Link) : Link :=
  { s with calls := Function.update s.calls n stage }

def Drained (s : Link) (connectionId : String) : Prop :=
  ∃ n, (s.calls n).connection = some connectionId ∧ (s.calls n).isHanded = true

def DownFull (s : Link) (connectionId : String) : Prop :=
  s.carried connectionId + channelCapacity ≤ (s.service.channels connectionId).length

def UpFull (s : Link) (connectionId : String) : Prop := channelCapacity ≤ (s.outgoing connectionId).length

instance (s : Link) (connectionId : String) : Decidable (s.DownFull connectionId) :=
  inferInstanceAs (Decidable (_ ≤ _))

instance (s : Link) (connectionId : String) : Decidable (s.UpFull connectionId) := inferInstanceAs (Decidable (_ ≤ _))

def upcoming (s : Link) (connectionId : String) : Option (Except Status ServerToWorker) :=
  if s.read connectionId < s.carried connectionId then (s.service.channels connectionId)[s.read connectionId]? else none

def readFrame (connectionId : String) (s : Link) : Link :=
  { s with read := Function.update s.read connectionId (s.read connectionId + 1) }

def sentFrame (connectionId : String) (frame : WorkerToServer) (s : Link) : Link :=
  { s with outgoing := Function.update s.outgoing connectionId (s.outgoing connectionId ++ [frame]) }

def served (caller : Caller) (o : ServiceOp) (service : ServiceState) (s : Link) : Link :=
  match caller with
  | .call n => { s with service := service, calls := Function.update s.calls n ((s.calls n).after o) }
  | _ => { s with service := service }

end Link

/-- What an operation of a session may answer and do. A stream may break at any time, a call may fail, and the clock,
the devices, the executions and the artifacts may answer anything. -/
inductive WorkerActs (s : Link) (session : Nat) (workerId : String) : (o : WorkerOp) → o.Reply → Link → Prop where
  | journal {operation reply journal'} (h : JournalStep (s.journals workerId) ⟨operation, reply⟩ journal') :
      WorkerActs s session workerId (.journal operation) reply
        { s with journals := Function.update s.journals workerId journal' }
  | nowUnixMs (now : Nat) : WorkerActs s session workerId .nowUnixMs now s
  | connect (reply : Except WorkerError Unit) : WorkerActs s session workerId .connect reply s
  | openControlStream (hello : WorkerHello) (activeAttempts : List ActiveAttempt) (h : s.calls session = .idle) :
      WorkerActs s session workerId (.openControlStream hello activeAttempts) () (s.withCall session (.requested hello))
  | answered {registered connectionId} (h : s.calls session = .answered registered connectionId) :
      WorkerActs s session workerId .response (.ok connectionId)
        (s.withCall session (.established registered connectionId))
  | unanswered (error : WorkerError) : WorkerActs s session workerId .response (.error error) s
  | received {stream frame} (h : s.upcoming stream = some frame) :
      WorkerActs s session workerId (.receive stream) (some frame) (s.readFrame stream)
  | broken (stream : String) (reply : Option Status) :
      WorkerActs s session workerId (.receive stream) (reply.map .error) s
  | incoming {stream frame} (h : s.upcoming stream = some frame) :
      WorkerActs s session workerId (.select stream) (.incoming (some frame)) (s.readFrame stream)
  | ended (stream : String) (reply : Option Status) :
      WorkerActs s session workerId (.select stream) (.incoming (reply.map .error)) s
  | heartbeat (stream : String) : WorkerActs s session workerId (.select stream) .heartbeat s
  | update (stream : String) (update : Except RecvError ExecutionUpdate) :
      WorkerActs s session workerId (.select stream) (.update update) s
  | sent {stream} (frame : WorkerToServer) (h : ¬ s.UpFull stream) :
      WorkerActs s session workerId (.send stream frame) true (s.sentFrame stream frame)
  | notSent (stream : String) (frame : WorkerToServer) : WorkerActs s session workerId (.send stream frame) false s
  | publish (attemptId : String) (finished : StoredFinished) (reply : Except String Unit) :
      WorkerActs s session workerId (.publish attemptId finished) reply s
  | retryTerminalCleanup (executor : ExecutionKind) (attemptId : String) :
      WorkerActs s session workerId (.retryTerminalCleanup executor attemptId) () s
  | deviceSnapshot (reply : Except Unit (List DeviceObservation)) :
      WorkerActs s session workerId .deviceSnapshot reply s
  | engage (attemptId : String) (token : Nat) : WorkerActs s session workerId (.engage attemptId) token s
  | cancelExecution (token : Nat) : WorkerActs s session workerId (.cancelExecution token) () s

def isSend : ServiceOp → Bool
  | .send .. => true
  | _ => false

/-- What an operation may answer and do. The handler of a call returns its response once it has sent its initial
frames, and the task that consumes the stream is spawned with it. -/
inductive LinkActs (s : Link) : (o : LinkOp) → o.Reply → Link → Prop where
  | begin {workerId} (h : workerId ∉ s.active) :
      LinkActs s (.begin workerId) s.sessions { s with sessions := s.sessions + 1, active := workerId :: s.active }
  | finish (workerId : String) : LinkActs s (.finish workerId) () { s with active := s.active.erase workerId }
  | work {session workerId o reply s'} (h : WorkerActs s session workerId o reply s') :
      LinkActs s (.work session workerId o) reply s'
  | accept {n hello} (h : s.calls n = .requested hello) : LinkActs s .accept (n, hello) (s.withCall n .serving)
  | serve {caller o reply service'} (h : isSend o = false) (ha : ServiceActs s.service o reply service') :
      LinkActs s (.serve caller o) reply (s.served caller o service')
  | sent {caller connectionId} (frame : Except Status ServerToWorker) (hc : s.service.closed connectionId = false)
      (h : ¬ s.DownFull connectionId) : LinkActs s (.serve caller (.send connectionId frame)) true
        { s with service := s.service.sent connectionId frame }
  | notSent {caller connectionId} (frame : Except Status ServerToWorker) :
      LinkActs s (.serve caller (.send connectionId frame)) false
        { s with service := s.service.receiverGone connectionId }
  | answer {n workerId connectionId} (h : s.calls n = .published workerId connectionId) :
      LinkActs s (.answer n) () (s.withCall n (.answered workerId connectionId))
  | attach {n workerId connectionId} (hn : connectionId ∉ s.attached)
      (h : s.calls n = .answered workerId connectionId ∨ s.calls n = .established workerId connectionId) :
      LinkActs s .attach (workerId, connectionId) { s with attached := connectionId :: s.attached }

/-- What happens beside the tasks: the executions of a worker go on, and the networks carry what there is room for. -/
inductive Link.Moves (buffers : Buffers) (s : Link) : Link → Prop where
  | executed (workerId : String) {operation reply journal'}
      (hs : JournalStep (s.journals workerId) ⟨operation, reply⟩ journal') :
      s.Moves buffers { s with journals := Function.update s.journals workerId journal' }
  | carriedUp {connectionId frame rest} (h : s.outgoing connectionId = frame :: rest)
      (hroom : (s.service.inbound connectionId).length < buffers.up) :
      s.Moves buffers { s with
        outgoing := Function.update s.outgoing connectionId rest
        service := { s.service with
          inbound := Function.update s.service.inbound connectionId (s.service.inbound connectionId ++ [frame]) } }
  | carriedDown {connectionId} (h : s.Drained connectionId)
      (hmore : s.carried connectionId < (s.service.channels connectionId).length)
      (hroom : s.carried connectionId < s.read connectionId + buffers.down) :
      s.Moves buffers { s with carried := Function.update s.carried connectionId (s.carried connectionId + 1) }

namespace LinkProgram

def perform {ε : Type} (o : LinkOp) : Prog LinkOp LinkOp.Reply ε o.Reply := .op o .ret

def work {ε α : Type} (session : Nat) (workerId : String) :
    WorkerProgram ε α → Prog LinkOp LinkOp.Reply Unit (Except ε α)
  | .ret a => .ret (.ok a)
  | .fail e => .ret (.error e)
  | .op o next => .op (.work session workerId o) fun reply => work session workerId (next reply)

def serve {ε α : Type} (caller : Caller) : ServiceProgram ε α → Prog LinkOp LinkOp.Reply Unit (Except ε α)
  | .ret a => .ret (.ok a)
  | .fail e => .ret (.error e)
  | .op o next => .op (.serve caller o) fun reply => serve caller (next reply)

def session (worker : OutboundWorker) (turns : Nat) : LinkProgram :=
  .op (.begin worker.hello.workerId) fun n => do
    let _ ← work n worker.hello.workerId (worker.runSession turns)
    perform (.finish worker.hello.workerId)

def call : LinkProgram :=
  .op .accept fun (n, hello) => do
    match ← serve (.call n) (WorkerControlService.openControlStream hello) with
    | .ok _ => perform (.answer n)
    | .error _ => return ()

def consumer (frames : Nat) : LinkProgram :=
  .op .attach fun (workerId, connectionId) => do
    let _ ← serve (.consumer connectionId) (WorkerControlService.consumeStream workerId connectionId frames)
    return ()

def enqueue (workerId : String) (assignment : Except String AssignmentContract) : LinkProgram := do
  let _ ← serve .request (WorkerControlService.enqueueAssignment workerId assignment)
  return ()

def cancel (attemptId reason : String) : LinkProgram := do
  let _ ← serve .request (WorkerControlService.cancelAttempt attemptId reason)
  return ()

end LinkProgram

inductive Starts : LinkProgram → Prop where
  | session (worker : OutboundWorker) (turns : Nat) : Starts (LinkProgram.session worker turns)
  | call : Starts LinkProgram.call
  | consumer (frames : Nat) : Starts (LinkProgram.consumer frames)
  | enqueue (workerId : String) (assignment : Except String AssignmentContract) :
      Starts (LinkProgram.enqueue workerId assignment)
  | cancel (attemptId reason : String) : Starts (LinkProgram.cancel attemptId reason)

abbrev LinkConfig := Interleaving.Config Link LinkOp LinkOp.Reply Unit Unit

def linkWorld (buffers : Buffers) : Interleaving.World Link LinkOp LinkOp.Reply Unit Unit where
  acts := LinkActs
  moves := Link.Moves buffers
  starts _ p := Starts p

def LinkConfig.initial (db : ControlDatabase) (counter : Nat) (journals : String → JournalDatabase) : LinkConfig where
  state :=
    { service := ⟨db, counter, ∅, false, fun _ => [], fun _ => false, fun _ => []⟩
      journals := journals
      active := []
      sessions := 0
      calls := fun _ => .idle
      attached := []
      outgoing := fun _ => []
      carried := fun _ => 0
      read := fun _ => 0 }
  tasks := []
  log := []

def ServiceWaits (c : LinkConfig) (caller : Caller) (connectionId : String) : Prop :=
  ∃ (i : Nat) (frame : Except Status ServerToWorker) (next : Bool → LinkProgram),
    c.tasks[i]? = some (.op (.serve caller (.send connectionId frame)) next) ∧
    c.state.service.closed connectionId = false ∧ c.state.DownFull connectionId

def WorkerWaits (c : LinkConfig) (connectionId : String) : Prop :=
  ∃ (i n : Nat) (workerId : String) (frame : WorkerToServer) (next : Bool → LinkProgram),
    c.tasks[i]? = some (.op (.work n workerId (.send connectionId frame)) next) ∧ c.state.UpFull connectionId

/-- A task waits for a channel that nothing drains yet, or the two ends of a stream wait for each other over networks
that are full. -/
def Deadlocked (buffers : Buffers) (c : LinkConfig) : Prop := ∃ connectionId,
  (∃ caller, ServiceWaits c caller connectionId) ∧ ¬ c.state.Drained connectionId ∨
  ServiceWaits c (.consumer connectionId) connectionId ∧ WorkerWaits c connectionId ∧
    c.state.read connectionId + buffers.down ≤ c.state.carried connectionId ∧
    buffers.up ≤ (c.state.service.inbound connectionId).length

/-! One way to perform the steps of the control streams: no stream breaks, the storage does not fail, and the clock
stands still. The first session is the one whose call is answered. -/

theorem createdBefore_trans {a b c : AssignmentRecord} (h : createdBefore a b = true)
    (h' : createdBefore b c = true) : createdBefore a c = true := by
  simp only [createdBefore, Bool.or_eq_true, Bool.and_eq_true, decide_eq_true_eq] at h h' ⊢
  rcases h with h | ⟨h, htext⟩
  · exact .inl (by omega)
  · rcases h' with h' | ⟨h', htext'⟩
    · exact .inl (by omega)
    · exact .inr ⟨h.trans h', String.le_trans htext htext'⟩

def inOrder (db : ControlDatabase) (workerId : String) : Option (List AssignmentRecord) :=
  let rows := db.assignments.entries.filter fun row => row.2.workerId = workerId ∧ row.2.state.isReplayable = true
  let records := rows.map fun row => row.2.record
  if records.IsChain fun a b => SqliteControlRepository.createdBefore a b = true then some records else none

theorem replayableAssignments_inOrder {db : ControlDatabase} {workerId : String} {records : List AssignmentRecord}
    (h : inOrder db workerId = some records) :
    (ControlOperation.replayableAssignments workerId).execute db = (db, .ok records) := by
  unfold inOrder at h
  dsimp only at h
  split at h
  · rename_i hsorted
    cases h
    show (db, Except.ok (List.mergeSort _ _)) = _
    have htrans : IsTrans AssignmentRecord fun a b => createdBefore a b = true :=
      ⟨fun _ _ _ => createdBefore_trans⟩
    rw [List.mergeSort_of_pairwise (List.isChain_iff_pairwise.mp hsorted)]
    rfl
  · cases h

namespace Link

def performWork (s : Link) (session : Nat) (workerId : String) : (o : WorkerOp) → Option (o.Reply × Link)
  | .journal operation => some ((operation.execute (s.journals workerId)).2,
      { s with journals := Function.update s.journals workerId (operation.execute (s.journals workerId)).1 })
  | .nowUnixMs => some ((0 : Nat), s)
  | .connect => some ((.ok () : Except WorkerError Unit), s)
  | .openControlStream hello _ =>
    match s.calls session with
    | .idle => some ((), s.withCall session (.requested hello))
    | _ => none
  | .response =>
    match s.calls session with
    | .answered registered connectionId =>
      some ((.ok connectionId : Except WorkerError String), s.withCall session (.established registered connectionId))
    | _ => none
  | .receive stream =>
    match s.upcoming stream with
    | some frame => some (some frame, s.readFrame stream)
    | none => none
  | .select stream =>
    match s.upcoming stream with
    | some frame => some (SessionInput.incoming (some frame), s.readFrame stream)
    | none => some (SessionInput.heartbeat, s)
  | .send stream frame => if s.UpFull stream then none else some (true, s.sentFrame stream frame)
  | .publish .. => some ((.ok () : Except String Unit), s)
  | .retryTerminalCleanup .. => some ((), s)
  | .deviceSnapshot => some ((.ok [] : Except Unit (List DeviceObservation)), s)
  | .engage .. => some ((0 : Nat), s)
  | .cancelExecution .. => some ((), s)

def performServe (s : Link) (caller : Caller) (o : ServiceOp) : Option (o.Reply × Link) :=
  match o with
  | .send connectionId frame =>
    if s.service.closed connectionId = false ∧ ¬ s.DownFull connectionId then
      some (true, { s with service := s.service.sent connectionId frame })
    else none
  | .persist (.replayableAssignments workerId) =>
    match inOrder s.service.db workerId with
    | some records => some ((.ok records : Except RepositoryError (List AssignmentRecord)),
        s.served caller (.persist (.replayableAssignments workerId)) s.service)
    | none => none
  | o => (s.service.perform o).map fun r => (r.1, s.served caller o r.2)

def perform (s : Link) : (o : LinkOp) → Option (o.Reply × Link)
  | .begin workerId =>
    if workerId ∈ s.active then none
    else some (s.sessions, { s with sessions := s.sessions + 1, active := workerId :: s.active })
  | .finish workerId => some ((), { s with active := s.active.erase workerId })
  | .work session workerId o => s.performWork session workerId o
  | .accept =>
    match s.calls 0 with
    | .requested hello => some ((0, hello), s.withCall 0 .serving)
    | _ => none
  | .serve caller o => s.performServe caller o
  | .answer n =>
    match s.calls n with
    | .published workerId connectionId => some ((), s.withCall n (.answered workerId connectionId))
    | _ => none
  | .attach => none

variable {s s' : Link}

theorem performWork_acts {session : Nat} {workerId : String} {o : WorkerOp} {reply : o.Reply}
    (h : s.performWork session workerId o = some (reply, s')) : WorkerActs s session workerId o reply s' := by
  cases o with simp only [performWork] at h
  | journal operation =>
    cases h
    exact .journal (.ran operation)
  | openControlStream hello active =>
    split at h
    · cases h
      exact .openControlStream hello active ‹_›
    · cases h
  | response =>
    split at h
    · cases h
      exact .answered ‹_›
    · cases h
  | receive stream =>
    split at h
    · cases h
      exact .received ‹_›
    · cases h
  | select stream =>
    split at h
    · cases h
      exact .incoming ‹_›
    · cases h
      exact .heartbeat stream
  | send stream frame =>
    split at h
    · cases h
    · cases h
      exact .sent frame ‹_›
  | _ =>
    cases h
    constructor

theorem performServe_acts {caller : Caller} {o : ServiceOp} {reply : o.Reply}
    (h : s.performServe caller o = some (reply, s')) : LinkActs s (.serve caller o) reply s' := by
  have hserved : ∀ (ho : isSend o = false) (h : (s.service.perform o).map (fun r => (r.1, s.served caller o r.2)) =
      some (reply, s')), LinkActs s (.serve caller o) reply s' := by
    intro ho h
    obtain ⟨⟨reply', service'⟩, hperform, heq⟩ := Option.map_eq_some_iff.mp h
    cases heq
    exact .serve ho (ServiceState.perform_acts _ _ _ _ hperform)
  cases o with
  | send connectionId frame =>
    simp only [performServe] at h
    split at h
    · rename_i hroom
      cases h
      exact .sent frame hroom.1 hroom.2
    · cases h
  | persist operation =>
    cases operation with
    | replayableAssignments workerId =>
      simp only [performServe] at h
      split at h
      · rename_i records hrecords
        cases h
        refine .serve rfl (.persist ?_)
        have hran : ControlStep s.service.db ⟨.replayableAssignments workerId, _⟩ _ := .ran _
        rwa [replayableAssignments_inOrder hrecords] at hran
      · cases h
    | _ => exact hserved rfl h
  | _ => exact hserved rfl h

theorem perform_acts (s : Link) (o : LinkOp) (reply : o.Reply) (s' : Link) (h : s.perform o = some (reply, s')) :
    LinkActs s o reply s' := by
  cases o with simp only [perform] at h
  | begin workerId =>
    split at h
    · cases h
    · cases h
      exact .begin ‹_›
  | finish workerId =>
    cases h
    exact .finish workerId
  | work session workerId o => exact .work (performWork_acts h)
  | accept =>
    split at h
    · cases h
      exact .accept ‹_›
    · cases h
  | serve caller o => exact performServe_acts h
  | answer n =>
    split at h
    · cases h
      exact .answer ‹_›
    · cases h
  | attach => cases h

end Link

end AlloyPort.ControlStream
