import AlloyPort.Library.Interleaving
import AlloyPort.Runtime.Execution

/-! The worker process with its journal and its container engine: executions that interleave, containers
that exit by themselves, the journal calls of the rest of the worker, and crashes. A crash ends every
execution and the claims; a later process may run other runtimes. -/

namespace AlloyPort

open Effect Interleaving

inductive ContainerState where
  | created
  | running
  | exited (exit : ContainerExit)
  deriving DecidableEq

/-- `stopping` is set when the engine is told to stop the running container. -/
structure Container where
  identity : ContainerIdentity
  state : ContainerState
  stopping : Bool

def ContainerState.phase : ContainerState → ContainerPhase
  | .created => .created
  | .running => .running
  | .exited _ => .exited

def Container.snapshot (container : Container) : ContainerSnapshot := ⟨container.identity, container.state.phase⟩

/-- The engine's containers by name, with the names it has created and started containers under. -/
structure Engine where
  containers : String → Option Container
  creations : List String
  starts : List String

def Engine.empty : Engine := ⟨fun _ => none, [], []⟩

namespace Engine

def put (name : String) (container : Option Container) (engine : Engine) : Engine :=
  { engine with containers := Function.update engine.containers name container }

def create (identity : ContainerIdentity) (engine : Engine) : Engine :=
  { engine.put identity.name (some ⟨identity, .created, false⟩) with creations := identity.name :: engine.creations }

def start (name : String) (container : Container) (engine : Engine) : Engine :=
  { engine.put name (some { container with state := .running, stopping := false }) with
    starts := name :: engine.starts }

end Engine

/-- An operation of the engine is atomic, and its error may come before or after its effect. A container
that is told to stop exits at once or later. -/
inductive EngineStep (engine : Engine) : (operation : EngineOp) → operation.Reply → Engine → Prop where
  | failed {operation} (error : ContainerEngineError) : EngineStep engine operation (.error error) engine
  | resolved {assignment} (imageId : String) : EngineStep engine (.resolveImageId assignment) (.ok imageId) engine
  | inspected {name} : EngineStep engine (.inspect name) (.ok ((engine.containers name).map Container.snapshot)) engine
  | created {identity} (reply) (h : engine.containers identity.name = none) :
      EngineStep engine (.create identity) reply (engine.create identity)
  | started {name container} (reply) (h : engine.containers name = some container) (hs : container.state ≠ .running) :
      EngineStep engine (.start name) reply (engine.start name container)
  | startedAlready {name container} (h : engine.containers name = some container) (hs : container.state = .running) :
      EngineStep engine (.start name) (.ok ()) engine
  | waited {name container exit} (h : engine.containers name = some container) (hs : container.state = .exited exit) :
      EngineStep engine (.wait name) (.ok exit) engine
  | logged {name limit} (logs : ContainerLogs) : EngineStep engine (.logs name limit) (.ok logs) engine
  | followed {name limit} (logs : ContainerLogs) : EngineStep engine (.followLogs name limit) (.ok logs) engine
  | stopping {name container} (reply) (h : engine.containers name = some container) (hs : container.state = .running) :
      EngineStep engine (.stop name) reply (engine.put name (some { container with stopping := true }))
  | stopped {name container} (reply) (exit : ContainerExit) (h : engine.containers name = some container)
      (hs : container.state = .running) :
      EngineStep engine (.stop name) reply (engine.put name
        (some { container with stopping := true, state := .exited exit }))
  | stoppedAlready {name} (h : ∀ container, engine.containers name = some container → container.state ≠ .running) :
      EngineStep engine (.stop name) (.ok ()) engine
  | removed {name} (reply) : EngineStep engine (.remove name) reply (engine.put name none)

structure RuntimeState where
  journal : JournalDatabase
  engine : Engine
  claims : List String
  incarnation : Nat

def RuntimeState.initial : RuntimeState := ⟨.empty, .empty, [], 0⟩

inductive Ending.Seen (engine : Engine) (name : String) : Ending → Prop where
  | cancelled : Ending.Seen engine name .cancelled
  | timeout : Ending.Seen engine name .timeout
  | exit {reply} (h : EngineStep engine (.wait name) reply engine) : Ending.Seen engine name (.exit reply)

inductive RuntimeActs : RuntimeState → (o : RuntimeOp) → o.Reply → RuntimeState → Prop where
  | journal {s operation reply db} (h : JournalStep s.journal ⟨operation, reply⟩ db) :
      RuntimeActs s (.journal operation) reply { s with journal := db }
  | engine {s operation reply engine} (h : EngineStep s.engine operation reply engine) :
      RuntimeActs s (.engine operation) reply { s with engine }
  | claimed {s deviceId attemptId} (h : attemptId ∉ s.claims) :
      RuntimeActs s (.claim deviceId attemptId) true { s with claims := attemptId :: s.claims }
  | refused {s deviceId attemptId} : RuntimeActs s (.claim deviceId attemptId) false s
  | unclaimed {s attemptId} :
      RuntimeActs s (.unclaim attemptId) () { s with claims := s.claims.filter fun other => other ≠ attemptId }
  | ended {s name limit ending} (h : ending.Seen s.engine name) : RuntimeActs s (.select name limit) (.ending ending) s
  | logged {s name limit} (logs) : RuntimeActs s (.select name limit) (.logs logs) s
  | selected {s name ending} (h : ending.Seen s.engine name) : RuntimeActs s (.selectEnding name) ending s
  | nowUnixMs {s} (now : Nat) : RuntimeActs s .nowUnixMs now s
  | snapshot {s leases} (reply) : RuntimeActs s (.snapshot leases) reply s
  | observed {s deviceId} (reply) : RuntimeActs s (.observeDevice deviceId) reply s
  | recovered {s deviceId} (reply) : RuntimeActs s (.recoverDevice deviceId) reply s
  | supervised {s deviceId} (reply) : RuntimeActs s (.supervisorFor deviceId) reply s
  | planned {s assignment} (reply) : RuntimeActs s (.plan assignment) reply s
  | stored {s content} (reply) : RuntimeActs s (.store content) reply s
  | receipted {s receipt} (reply) : RuntimeActs s (.storeReceipt receipt) reply s
  | published {s attemptId finished} (reply) : RuntimeActs s (.publish attemptId finished) reply s

/-- The journal calls of the rest of the worker. An assignment that is sent again has a state repeated
that the attempt is already in. -/
def JournalOperation.Foreign (db : JournalDatabase) : JournalOperation → Prop
  | .markRunning attemptId _ => ∃ row, db.attempts.lookup attemptId = some row ∧ row.phase ≠ .accepted
  | .markFinished attemptId finished _ =>
    ∃ row, db.attempts.lookup attemptId = some row ∧ row.phase = .finished ∧ row.finished = some finished
  | .acquireDeviceLease .. | .releaseDeviceLease .. | .recordDevicePreflight .. => False
  | _ => True

inductive RuntimeMoves (s : RuntimeState) : RuntimeState → Prop where
  | journal {operation reply db} (hf : operation.Foreign s.journal) (h : JournalStep s.journal ⟨operation, reply⟩ db) :
      RuntimeMoves s { s with journal := db }
  | exited {name container} (exit : ContainerExit) (h : s.engine.containers name = some container)
      (hs : container.state = .running) :
      RuntimeMoves s { s with engine := s.engine.put name (some { container with state := .exited exit }) }
  | crashed : RuntimeMoves s { s with claims := [], incarnation := s.incarnation + 1 }

structure Caller where
  incarnation : Nat
  runtime : ExecutionRuntime
  attemptId : String

abbrev CalledOp := Caller × RuntimeOp

abbrev CalledOp.Reply (o : CalledOp) : Type := o.2.Reply

def runtimeWorld : World RuntimeState CalledOp CalledOp.Reply ExecutionRuntimeError StoredFinished where
  acts s o reply s' := o.1.incarnation = s.incarnation ∧ RuntimeActs s o.2 reply s'
  moves := RuntimeMoves
  starts s p := ∃ runtime attemptId publishes,
    p = (ExecutionRuntime.run runtime attemptId publishes).tag ⟨s.incarnation, runtime, attemptId⟩

abbrev RuntimeEvent := Interleaving.Event CalledOp CalledOp.Reply

abbrev RuntimeConfig := Interleaving.Config RuntimeState CalledOp CalledOp.Reply ExecutionRuntimeError StoredFinished

def RuntimeConfig.initial : RuntimeConfig := ⟨.initial, [], []⟩

abbrev RuntimeGuard := Interleaving.Guard RuntimeState CalledOp CalledOp.Reply

structure AttemptView where
  entry : LocalEntry
  container : Option Container
  creations : Nat
  starts : Nat

def RuntimeState.view (s : RuntimeState) (attemptId : String) : AttemptView :=
  ⟨s.journal.entry attemptId, s.engine.containers (containerName attemptId),
    s.engine.creations.count (containerName attemptId), s.engine.starts.count (containerName attemptId)⟩

structure Container.Drifts (container container' : Container) : Prop where
  identity : container'.identity = container.identity
  stopping : container'.stopping = container.stopping
  state : container'.state = container.state ∨ container.state = .running ∧ ∃ exit, container'.state = .exited exit

structure AttemptView.Drifts (v v' : AttemptView) : Prop where
  attempt : v'.entry.attempt = v.entry.attempt ∨
    v.entry.attempt = none ∧ ∃ row, v'.entry.attempt = some row ∧ row.phase = .accepted
  lease : v'.entry.lease = v.entry.lease
  preflight : v'.entry.preflight = v.entry.preflight
  absent : v.container = none → v'.container = none
  container : ∀ container, v.container = some container → ∃ container', v'.container = some container' ∧
    container.Drifts container'
  creations : v'.creations = v.creations
  starts : v'.starts = v.starts

theorem Container.Drifts.refl (container : Container) : container.Drifts container := ⟨rfl, rfl, .inl rfl⟩

theorem Container.Drifts.trans {a b c : Container} (h : a.Drifts b) (h' : b.Drifts c) : a.Drifts c := by
  refine ⟨h'.identity.trans h.identity, h'.stopping.trans h.stopping, ?_⟩
  rcases h'.state with hbc | ⟨hb, exit, hc⟩
  · rw [hbc]
    exact h.state
  · rcases h.state with hab | ⟨ha, exit', hb'⟩
    · exact .inr ⟨hab ▸ hb, exit, hc⟩
    · rw [hb'] at hb
      cases hb

namespace AttemptView

variable {v v' v'' : AttemptView}

theorem Drifts.refl (v : AttemptView) : v.Drifts v :=
  ⟨.inl rfl, rfl, rfl, id, fun container h => ⟨container, h, .refl container⟩, rfl, rfl⟩

theorem Drifts.trans (h : v.Drifts v') (h' : v'.Drifts v'') : v.Drifts v'' where
  attempt := by
    rcases h'.attempt with heq | ⟨hnone, row, hrow, hphase⟩
    · rw [heq]
      exact h.attempt
    · rcases h.attempt with heq | ⟨_, row', hrow', _⟩
      · exact .inr ⟨heq ▸ hnone, row, hrow, hphase⟩
      · rw [hrow'] at hnone
        cases hnone
  lease := h'.lease.trans h.lease
  preflight := h'.preflight.trans h.preflight
  absent hn := h'.absent (h.absent hn)
  container container hc := by
    obtain ⟨container', hc', hd⟩ := h.container container hc
    obtain ⟨container'', hc'', hd'⟩ := h'.container container' hc'
    exact ⟨container'', hc'', hd.trans hd'⟩
  creations := h'.creations.trans h.creations
  starts := h'.starts.trans h.starts

def InPhase (phase : LocalAttemptPhase) (v : AttemptView) : Prop :=
  ∃ row, v.entry.attempt = some row ∧ row.phase = phase

def Leases (deviceId : String) (v : AttemptView) : Prop :=
  ∃ lease, v.entry.lease = some lease ∧ lease.deviceId = deviceId ∧ lease.releasedAtMs = none

structure Sound (v : AttemptView) : Prop where
  creations : v.creations ≤ 1
  starts : v.starts ≤ 1
  absent : v.container = none → ¬ v.InPhase .finished → v.creations = 0 ∧ v.starts = 0
  created : ∀ container, v.container = some container → container.state = .created → v.starts = 0
  preflight : ∀ observation, v.entry.preflight = some observation → observation.reusable = true ∧
    ∃ lease, v.entry.lease = some lease ∧ lease.deviceId = observation.deviceId

theorem InPhase.unique {phase phase' : LocalAttemptPhase} (h : v.InPhase phase) (h' : v.InPhase phase') :
    phase = phase' := by
  obtain ⟨row, hrow, rfl⟩ := h
  obtain ⟨row', hrow', rfl⟩ := h'
  rw [hrow] at hrow'
  cases hrow'
  rfl

theorem Drifts.inPhase {phase : LocalAttemptPhase} (h : v.Drifts v') (hv : v.InPhase phase) : v'.InPhase phase := by
  obtain ⟨row, hrow, hphase⟩ := hv
  rcases h.attempt with heq | ⟨hnone, _⟩
  · exact ⟨row, heq.trans hrow, hphase⟩
  · cases hrow.symm.trans hnone

theorem Drifts.finished (h : v.Drifts v') (hv : v'.InPhase .finished) : v.InPhase .finished := by
  obtain ⟨row, hrow, hphase⟩ := hv
  rcases h.attempt with heq | ⟨_, row', hrow', haccepted⟩
  · exact ⟨row, heq.symm.trans hrow, hphase⟩
  · cases hrow.symm.trans hrow'
    cases hphase.symm.trans haccepted

theorem Drifts.leases {deviceId : String} (h : v.Drifts v') : v'.Leases deviceId ↔ v.Leases deviceId := by
  unfold Leases
  rw [h.lease]

theorem Drifts.container_of (h : v.Drifts v') {container' : Container} (hc : v'.container = some container') :
    ∃ container, v.container = some container ∧ container.Drifts container' := by
  cases hv : v.container with
  | none => cases hc.symm.trans (h.absent hv)
  | some container =>
    obtain ⟨other, hother, hdrifts⟩ := h.container container hv
    cases hc.symm.trans hother
    exact ⟨container, rfl, hdrifts⟩

theorem Drifts.sound (h : v.Drifts v') (hv : v.Sound) : v'.Sound where
  creations := h.creations ▸ hv.creations
  starts := h.starts ▸ hv.starts
  absent hc hn := by
    have hnone : v.container = none := by
      cases hvc : v.container with
      | none => rfl
      | some container =>
        obtain ⟨container', hc', _⟩ := h.container container hvc
        cases hc.symm.trans hc'
    rw [h.creations, h.starts]
    exact hv.absent hnone fun hfinished => hn (h.inPhase hfinished)
  created container' hc hstate := by
    obtain ⟨container, hvc, hdrifts⟩ := h.container_of hc
    rw [h.starts]
    refine hv.created container hvc ?_
    rcases hdrifts.state with heq | ⟨_, exit, hexit⟩
    · exact heq.symm.trans hstate
    · cases hstate.symm.trans hexit
  preflight observation ho := by
    rw [h.lease]
    exact hv.preflight observation (h.preflight ▸ ho)

end AttemptView

structure RuntimeState.Sound (s : RuntimeState) : Prop where
  attempts : ∀ attemptId, (s.view attemptId).Sound
  keyed : s.journal.Filed

theorem RuntimeState.initial_sound : RuntimeState.initial.Sound := by
  refine ⟨fun _ => ?_, fun _ _ h => by cases h⟩
  exact ⟨Nat.zero_le _, Nat.zero_le _, fun _ _ => ⟨rfl, rfl⟩, fun _ h => (by cases h), fun _ h => (by cases h)⟩

/-- The container was told to stop, and has not exited zero in spite of it. -/
def Container.Tainted (container : Container) : Prop :=
  container.stopping = true ∧ ∀ exit, container.state = .exited exit → exit.exitCode ≠ 0

def AttemptView.FailedAlone (v : AttemptView) : Prop :=
  ∃ container exit, v.container = some container ∧ container.state = .exited exit ∧ exit.exitCode ≠ 0 ∧
    container.stopping = false

def AttemptView.Suits (deviceId : String) (v : AttemptView) : Prop :=
  ¬ isBlank deviceId = true ∧ ∀ lease, v.entry.lease = some lease → lease.deviceId = deviceId

structure Conditions where
  untainted : Prop
  bound : Prop
  kept : Prop

namespace Conditions

def free : Conditions := ⟨False, False, False⟩

def stopsUnseen : Conditions := ⟨True, False, False⟩

def deviceBound : Conditions := ⟨False, True, False⟩

/-- Under `untainted`, no execution comes upon a container that was told to stop before; under `bound`, a
runtime that takes up a finished attempt is bound to the device that it holds; under `kept`, one that takes
up an unfinished attempt is bound to the device that it held last. -/
def Allows (k : Conditions) (s : RuntimeState) : RuntimeOp → Prop
  | .engine (.inspect name) => k.untainted → ∀ container, s.engine.containers name = some container →
    ¬ container.Tainted
  | .claim deviceId attemptId =>
    (k.bound → (s.view attemptId).InPhase .finished → ∀ held, (s.view attemptId).Leases held → held = deviceId) ∧
    (k.kept → ¬ (s.view attemptId).InPhase .finished → (s.view attemptId).Suits deviceId)
  | _ => True

def guard (k : Conditions) : RuntimeGuard
  | s, _, .act e => k.Allows s e.op.2
  | _, _, _ => True

end Conditions

def RuntimeOp.tellsFinished (attemptId : String) : (o : RuntimeOp) → o.Reply → Bool
  | .journal (.attempt id), .ok (some record) => id = attemptId ∧ record.phase = .finished
  | .journal (.markFinished id _ _), .ok _ => id = attemptId
  | _, _ => false

/-- What an execution has in hand: the attempt, as it was after its last step, if it has the claim; its
last observation of a device, and whether it knew then that the attempt is finished; and whether it
knows so by now. -/
structure Hand where
  view : Option AttemptView
  observed : Option (String × DeviceObservation × Bool)
  told : Bool

def Hand.empty : Hand := ⟨none, none, false⟩

def RuntimeOp.observes (told : Bool) (observed : Option (String × DeviceObservation × Bool)) :
    (o : RuntimeOp) → o.Reply → Option (String × DeviceObservation × Bool)
  | .observeDevice deviceId, reply => reply.toOption.map fun observation => (deviceId, observation, told)
  | .recoverDevice deviceId, reply => reply.toOption.map fun observation => (deviceId, observation, told)
  | _, _ => observed

namespace Hand

def Owns (hand : Hand) (Φ : AttemptView → Prop) : Prop :=
  ∃ w, hand.view = some w ∧ ∀ v, w.Drifts v → v.Sound → Φ v

def MayRelease (k : Conditions) (hand : Hand) (v : AttemptView) : Prop :=
  (v.InPhase .accepted ∧ v.entry.preflight = none ∧ ∃ deviceId observation told, v.Leases deviceId ∧
    hand.observed = some (deviceId, observation, told) ∧ observation.deviceId = deviceId ∧
    observation.health = .ready ∧ 0 < observation.processCount) ∨
  (v.InPhase .finished ∧ (k.bound → ∃ deviceId observation, v.Leases deviceId ∧
    hand.observed = some (deviceId, observation, true) ∧ observation.deviceId = deviceId ∧
    observation.reusable = true))

end Hand

/-- What an execution may do, given what it has in hand; `owns` says what of the attempt. -/
def Permits (k : Conditions) (attemptId : String) (hand : Hand) (owns : (AttemptView → Prop) → Prop) : RuntimeOp → Prop
  | .journal (.attempt _) | .journal .activeDeviceLeases | .journal (.devicePreflight _) => True
  | .journal (.markRunning id _) => id = attemptId ∧ owns fun v => v.InPhase .accepted ∧
    ∃ deviceId observation, v.Leases deviceId ∧ v.entry.preflight = some observation ∧
      observation.deviceId = deviceId ∧ observation.reusable = true
  | .journal (.markFinished id finished _) => id = attemptId ∧ owns fun v => k.untainted →
    finished.outcome = .candidateFailed → v.FailedAlone
  | .journal (.acquireDeviceLease id deviceId _) => id.text = attemptId ∧ owns fun v => k.kept → v.Suits deviceId
  | .journal (.releaseDeviceLease id _) => id.text = attemptId ∧ owns (hand.MayRelease k)
  | .journal (.recordDevicePreflight id observation) => id.text = attemptId ∧ observation.reusable = true ∧
    owns fun _ => True
  | .journal _ => False
  | .engine (.create identity) => identity.name = containerName attemptId ∧
    owns fun v => v.container = none ∧ ¬ v.InPhase .finished
  | .engine (.start name) => name = containerName attemptId ∧
    owns fun v => ∃ container, v.container = some container ∧ container.state = .created
  | .engine (.stop name) => name = containerName attemptId ∧ owns fun _ => True
  | .engine (.remove name) => name = containerName attemptId ∧ owns fun v => v.InPhase .finished
  | .recoverDevice deviceId => ∃ observation told, hand.observed = some (deviceId, observation, told) ∧
    observation.deviceId = deviceId ∧ observation.processCount = 0
  | .claim _ id => id = attemptId
  | .unclaim id => id = attemptId ∧ owns fun _ => True
  | _ => True

def Hand.Follows (k : Conditions) (attemptId : String) (hand : Hand) (o : RuntimeOp) (reply : o.Reply)
    (view' : Option AttemptView) : Prop :=
  match o with
  | .claim deviceId id => if reply = true
    then ∃ s : RuntimeState, s.Sound ∧ k.Allows s (.claim deviceId id) ∧ view' = some (s.view attemptId)
    else view' = none
  | .unclaim _ => view' = none
  | o => match hand.view with
    | none => view' = none
    | some w => ∃ s s' : RuntimeState, w.Drifts (s.view attemptId) ∧ s.Sound ∧ k.Allows s o ∧
      RuntimeActs s o reply s' ∧ s'.Sound ∧ view' = some (s'.view attemptId)

def ownership (k : Conditions) (caller : Caller) : Contract RuntimeOp RuntimeOp.Reply Hand where
  pre hand o := Permits k caller.attemptId hand hand.Owns o
  post hand o reply hand' :=
    hand.Follows k caller.attemptId o reply hand'.view ∧ hand'.observed = o.observes hand.told hand.observed reply ∧
      hand'.told = (hand.told || o.tellsFinished caller.attemptId reply)

end AlloyPort
