import AlloyPort.Library.Table
import AlloyPort.Library.Transaction

/-! The interaction events of a run, as producers frame them and as the server numbers them. -/

namespace AlloyPort.Events

def SCHEMA_VERSION : Nat := 1

structure Producer where
  component : String
  «instance» : String

inductive Authority where
  | narrative
  | reported
  | observed
  | verified
  deriving DecidableEq

inductive Visibility where
  | user
  | diagnostic
  deriving DecidableEq

inductive MessageRole where
  | assistant
  | user
  | system
  deriving DecidableEq

inductive OutputStream where
  | stdout
  | stderr
  deriving DecidableEq

inductive FileChangeKind where
  | added
  | modified
  | deleted
  | renamed
  | binary
  deriving DecidableEq

structure FileChange where
  path : String
  kind : FileChangeKind
  additions : Option Nat
  deletions : Option Nat
  beforeDigest : Option String
  afterDigest : Option String
  deriving DecidableEq

structure ArtifactRef where
  digest : String
  mediaType : String
  sizeBytes : Nat
  reference : String
  deriving DecidableEq

structure Value where
  text : String
  deriving DecidableEq

inductive Event where
  | runStarted (task : String)
  | turnStarted (turn : Nat)
  | turnCompleted (turn : Nat) (outcome : String)
  | turnFailed (turn : Nat) (error : String)
  | runCompleted (result : String)
  | runFailed (error : String)
  | messageStarted (role : MessageRole)
  | messageDelta (text : String)
  | messageCompleted
  | planUpdated (entries : Value)
  | toolStarted (name : String) (arguments : Value)
  | toolCompleted (name output : String)
  | toolFailed (name error : String) (output : Option String)
  | commandStarted (command : String) (cwd : Option String) (executionSite : String) (description : Option String)
  | commandOutput (stream : OutputStream) (byteOffset : Nat) (text : String) (displaySanitized : Bool)
  | commandCompleted (exitCode : Int) (elapsedMs : Nat) (timedOut : Bool) (outputArtifact : Option ArtifactRef)
  | workspaceDelta (changes : List FileChange) (diff commit : Option String)
  | approvalRequested (action reason risk : String)
  | approvalResolved (decision : String)
  | gateStarted (gate : String)
  | gateCompleted (gate : String) (passed : Bool) (evidence : List ArtifactRef)
  | artifactProduced (artifact : ArtifactRef)
  | warning (message : String)
  | error (message : String)
  deriving DecidableEq

structure ProducerEvent where
  schemaVersion : Nat
  runId : String
  taskId : Option String
  turnId : Option String
  operationId : Option String
  parentOperationId : Option String
  producerSequence : Option Nat
  emittedAtUnixMs : Nat
  producer : Producer
  authority : Authority
  visibility : Visibility
  event : Event

def ProducerEvent.new (runId : String) (producer : Producer) (emittedAtUnixMs : Nat) (event : Event) :
    ProducerEvent where
  schemaVersion := SCHEMA_VERSION
  runId
  taskId := none
  turnId := none
  operationId := none
  parentOperationId := none
  producerSequence := none
  emittedAtUnixMs
  producer
  authority := .observed
  visibility := .user
  event

structure EventEnvelope where
  schemaVersion : Nat
  eventId : String
  runId : String
  taskId : Option String
  turnId : Option String
  operationId : Option String
  parentOperationId : Option String
  producerSequence : Option Nat
  sequence : Nat
  emittedAtUnixMs : Nat
  producer : Producer
  authority : Authority
  visibility : Visibility
  event : Event

/-! The validation that every client applies to the events of a run, one after the other. What a rejected event has
changed by then stays. -/

open Database Transaction

inductive OperationKind where
  | message
  | tool
  | command
  | approval
  | gate
  deriving DecidableEq

inductive ReduceError where
  | unsupportedSchema (version : Nat)
  | unexpectedSequence (expected actual : Nat)
  | runMismatch
  | invalidRunStart
  | runNotStarted
  | eventAfterTerminal
  | missingOperationId
  | duplicateOperation (id : String)
  | operationNotActive (id : String)
  | operationsStillActive (ids : List String)
  deriving DecidableEq

structure ActiveOperation where
  id : String
  kind : OperationKind
  deriving DecidableEq

structure RunReducer where
  runId : Option String
  nextSequence : Nat
  started : Bool
  terminal : Bool
  activeOperations : Table ActiveOperation ActiveOperation.id
  deriving DecidableEq

abbrev Reduction := Transaction RunReducer ReduceError

def setKind (kind : OperationKind) : RowUpdate ActiveOperation.id where
  apply operation := { operation with kind }
  keeps _ := rfl

def Event.isRunStarted : Event → Bool
  | .runStarted _ => true
  | _ => false

namespace RunReducer

def new : RunReducer := ⟨none, 1, false, false, .empty⟩

def operationId (envelope : EventEnvelope) : Except ReduceError String :=
  match envelope.operationId with
  | none => .error .missingOperationId
  | some id => .ok id

def activeIds (reducer : RunReducer) : List String := (reducer.activeOperations.rows.map ActiveOperation.id).mergeSort

/-- The insertion comes first; an operation that was active before takes the new kind. -/
def startOperation (envelope : EventEnvelope) (kind : OperationKind) : Reduction Unit := do
  let id ← attempt (operationId envelope)
  let reducer ← read
  write fun reducer =>
    { reducer with activeOperations := (reducer.activeOperations.insertOrIgnore ⟨id, kind⟩).update id (setKind kind) }
  if (reducer.activeOperations.find id).isSome = true then raise (.duplicateOperation id) else return ()

def requireOperation (envelope : EventEnvelope) (expected : OperationKind) : Reduction Unit := do
  let id ← attempt (operationId envelope)
  let reducer ← read
  if reducer.activeOperations.find id = some ⟨id, expected⟩ then return () else raise (.operationNotActive id)

def finishOperation (envelope : EventEnvelope) (expected : OperationKind) : Reduction Unit := do
  requireOperation envelope expected
  let id ← attempt (operationId envelope)
  write fun reducer =>
    { reducer with activeOperations := reducer.activeOperations.deleteWhere fun operation => operation.id = id }

def checkRun (envelope : EventEnvelope) : Reduction Unit := do
  let reducer ← read
  match reducer.runId with
  | some runId => if runId ≠ envelope.runId then raise .runMismatch else return ()
  | none => write fun reducer => { reducer with runId := some envelope.runId }

def startRun (envelope : EventEnvelope) : Reduction Unit := do
  let reducer ← read
  if reducer.started = true ∨ envelope.sequence ≠ 1 then raise .invalidRunStart
  else write fun reducer => { reducer with started := true }

def endRun : Reduction Unit := do
  let reducer ← read
  if reducer.started = false then raise .runNotStarted
  else if reducer.activeOperations.rows ≠ [] then raise (.operationsStillActive reducer.activeIds)
  else write fun reducer => { reducer with terminal := true }

def applyEvent (envelope : EventEnvelope) : Reduction Unit :=
  match envelope.event with
  | .runStarted _ => startRun envelope
  | .runCompleted _ | .runFailed _ => endRun
  | .messageStarted _ => startOperation envelope .message
  | .messageDelta _ => requireOperation envelope .message
  | .messageCompleted => finishOperation envelope .message
  | .toolStarted _ _ => startOperation envelope .tool
  | .toolCompleted _ _ | .toolFailed _ _ _ => finishOperation envelope .tool
  | .commandStarted _ _ _ _ => startOperation envelope .command
  | .commandOutput _ _ _ _ => requireOperation envelope .command
  | .commandCompleted _ _ _ _ => finishOperation envelope .command
  | .approvalRequested _ _ _ => startOperation envelope .approval
  | .approvalResolved _ => finishOperation envelope .approval
  | .gateStarted _ => startOperation envelope .gate
  | .gateCompleted _ _ _ => finishOperation envelope .gate
  | .turnStarted _ | .turnCompleted _ _ | .turnFailed _ _ | .planUpdated _ | .workspaceDelta _ _ _
  | .artifactProduced _ | .warning _ | .error _ => return ()

def apply (envelope : EventEnvelope) : Reduction Unit := do
  let reducer ← read
  if envelope.schemaVersion ≠ SCHEMA_VERSION then raise (.unsupportedSchema envelope.schemaVersion)
  else if envelope.sequence ≠ reducer.nextSequence then
    raise (.unexpectedSequence reducer.nextSequence envelope.sequence)
  else do
    checkRun envelope
    if reducer.terminal = true then raise .eventAfterTerminal
    else if reducer.started = false ∧ envelope.event.isRunStarted = false then raise .runNotStarted
    else do
      applyEvent envelope
      write fun reducer => { reducer with nextSequence := min (reducer.nextSequence + 1) (2 ^ 64 - 1) }

end RunReducer

def replay (stream : List EventEnvelope) : Reduction Unit := forEach RunReducer.apply stream

def Replays (stream : List EventEnvelope) : Prop := (replay stream RunReducer.new).1 = .ok ()

instance (stream : List EventEnvelope) : Decidable (Replays stream) :=
  match h : (replay stream RunReducer.new).1 with
  | .ok () => isTrue h
  | .error _ => isFalse fun hok => by
    rw [Replays, h] at hok
    cases hok

/-! What a rejected event leaves behind: the run is adopted before the lifecycle is checked, and an operation is
entered before its identity is found to be taken. -/

inductive Lifecycle where
  | starts
  | ends
  | opens (kind : OperationKind)
  | uses (kind : OperationKind)
  | closes (kind : OperationKind)
  | plain

def Event.lifecycle : Event → Lifecycle
  | .runStarted _ => .starts
  | .runCompleted _ | .runFailed _ => .ends
  | .messageStarted _ => .opens .message
  | .toolStarted _ _ => .opens .tool
  | .commandStarted _ _ _ _ => .opens .command
  | .approvalRequested _ _ _ => .opens .approval
  | .gateStarted _ => .opens .gate
  | .messageDelta _ => .uses .message
  | .commandOutput _ _ _ _ => .uses .command
  | .messageCompleted => .closes .message
  | .toolCompleted _ _ | .toolFailed _ _ _ => .closes .tool
  | .commandCompleted _ _ _ _ => .closes .command
  | .approvalResolved _ => .closes .approval
  | .gateCompleted _ _ _ => .closes .gate
  | .turnStarted _ | .turnCompleted _ _ | .turnFailed _ _ | .planUpdated _ | .workspaceDelta _ _ _
  | .artifactProduced _ | .warning _ | .error _ => .plain

def Lawful (reducer : RunReducer) (envelope : EventEnvelope) : Prop :=
  reducer.terminal = false ∧ match envelope.event.lifecycle with
    | .starts => reducer.started = false ∧ envelope.sequence = 1
    | .ends => reducer.started = true ∧ reducer.activeOperations.rows = []
    | .opens _ => reducer.started = true ∧
      ∃ id, envelope.operationId = some id ∧ reducer.activeOperations.find id = none
    | .uses kind | .closes kind => reducer.started = true ∧
      ∃ id, envelope.operationId = some id ∧ reducer.activeOperations.find id = some ⟨id, kind⟩
    | .plain => reducer.started = true

/-- The event opens an operation that is active as one of another kind. -/
def Overwrites (reducer : RunReducer) (envelope : EventEnvelope) : Prop :=
  reducer.terminal = false ∧ reducer.started = true ∧ ∃ kind id other, envelope.event.lifecycle = .opens kind ∧
    envelope.operationId = some id ∧ reducer.activeOperations.find id = some ⟨id, other⟩ ∧ other ≠ kind

structure Awaited (reducer : RunReducer) (envelope : EventEnvelope) : Prop where
  schema : envelope.schemaVersion = SCHEMA_VERSION
  sequence : envelope.sequence = reducer.nextSequence

def Atomic (reducer : RunReducer) (envelope : EventEnvelope) : Prop :=
  ∀ error, (RunReducer.apply envelope reducer).1 = .error error → (RunReducer.apply envelope reducer).2 = reducer

open RunReducer

section reduction

variable {reducer : RunReducer} {envelope : EventEnvelope} {id : String} {kind : OperationKind}
  {Q : Unit → RunReducer → Prop} {E : ReduceError → RunReducer → Prop} {other : OperationKind}

theorem atomic_iff_wp : Atomic reducer envelope ↔
    (RunReducer.apply envelope).wp reducer (fun _ _ => True) fun _ reducer' => reducer' = reducer := by
  unfold Atomic wp
  rcases RunReducer.apply envelope reducer with ⟨result, reducer'⟩
  cases result with
  | ok answer => simp
  | error error => simp

theorem isRunStarted_iff (event : Event) : event.isRunStarted = true ↔ event.lifecycle = .starts := by
  cases event <;> simp [Event.isRunStarted, Event.lifecycle]

theorem applyEvent_eq : applyEvent envelope = match envelope.event.lifecycle with
    | .starts => startRun envelope
    | .ends => endRun
    | .opens kind => startOperation envelope kind
    | .uses kind => requireOperation envelope kind
    | .closes kind => finishOperation envelope kind
    | .plain => pure () := by
  unfold applyEvent Event.lifecycle
  cases envelope.event <;> rfl

/-- The reducer once an operation has been entered, whether or not it was active. -/
def RunReducer.entered (reducer : RunReducer) (id : String) (kind : OperationKind) : RunReducer :=
  { reducer with activeOperations := (reducer.activeOperations.insertOrIgnore ⟨id, kind⟩).update id (setKind kind) }

theorem insertOrIgnore_active (h : reducer.activeOperations.find id = some ⟨id, other⟩) :
    reducer.activeOperations.insertOrIgnore ⟨id, kind⟩ = reducer.activeOperations := by
  apply Table.insertOrIgnore_present
  exact h

theorem entered_of_active (h : reducer.activeOperations.find id = some ⟨id, kind⟩) :
    reducer.entered id kind = reducer := by
  have hrows : (reducer.activeOperations.update id (setKind kind)).rows = reducer.activeOperations.rows := by
    refine (List.map_congr_left fun operation hoperation => ?_).trans (List.map_id _)
    by_cases hid : operation.id = id
    · have hfind := Table.find_of_mem hoperation
      rw [hid, h] at hfind
      cases hfind
      simp [setKind]
    · simp [hid]
  have htable : reducer.activeOperations.update id (setKind kind) = reducer.activeOperations := by
    cases hleft : reducer.activeOperations.update id (setKind kind)
    cases hright : reducer.activeOperations
    rw [hleft, hright] at hrows
    simpa using hrows
  rw [entered, insertOrIgnore_active h, htable]

theorem entered_of_other (h : reducer.activeOperations.find id = some ⟨id, other⟩)
    (hother : other ≠ kind) : reducer.entered id kind ≠ reducer := by
  intro heq
  have hfind : (reducer.entered id kind).activeOperations.find id = some ⟨id, kind⟩ := by
    rw [entered, Table.find_update_self, insertOrIgnore_active h, h]
    rfl
  rw [heq, h] at hfind
  exact hother (congrArg ActiveOperation.kind (Option.some.inj hfind))

theorem startOperation_wp_iff : (startOperation envelope kind).wp reducer Q E ↔ match envelope.operationId with
    | none => E .missingOperationId reducer
    | some id => if (reducer.activeOperations.find id).isSome =
      true then E (.duplicateOperation id) (reducer.entered id kind)
      else Q () (reducer.entered id kind) := by
  unfold startOperation operationId entered
  cases envelope.operationId with
  | none => simp
  | some id => simp

theorem requireOperation_wp_iff : (requireOperation envelope kind).wp reducer Q E ↔
    match envelope.operationId with
    | none => E .missingOperationId reducer
    | some id => if reducer.activeOperations.find id = some ⟨id, kind⟩ then Q () reducer
      else E (.operationNotActive id) reducer := by
  unfold requireOperation operationId
  cases envelope.operationId with
  | none => simp
  | some id => simp

theorem find_id {operation : ActiveOperation} (h : reducer.activeOperations.find id = some operation) :
    operation = ⟨id, operation.kind⟩ := by
  obtain rfl := (Table.find_eq_some.mp h).2
  rfl

theorem applyEvent_wp_iff (hstart : reducer.started = true ∨ envelope.event.isRunStarted = true)
    (hopen : reducer.terminal = false) (hrun : reducer.runId = some envelope.runId) :
    (applyEvent envelope).wp reducer (fun _ _ => Lawful reducer envelope) fun _ reducer' =>
      ¬ Lawful reducer envelope ∧ reducer'.runId = some envelope.runId ∧
        (reducer' = reducer ↔ ¬ Overwrites reducer envelope) := by
  rw [applyEvent_eq]
  unfold Lawful Overwrites
  rw [isRunStarted_iff] at hstart
  cases hlife : envelope.event.lifecycle with
  | starts => simp [startRun, hopen, hrun]; grind
  | ends =>
    rw [hlife] at hstart
    simp only [reduceCtorEq, or_false] at hstart
    simp [endRun, hopen, hrun, hstart]
  | plain =>
    rw [hlife] at hstart
    simp only [reduceCtorEq, or_false] at hstart
    simp [hopen, hstart]
  | opens kind =>
    rw [hlife] at hstart
    simp only [reduceCtorEq, or_false] at hstart
    rw [startOperation_wp_iff]
    cases hid : envelope.operationId with
    | none => simp [hrun]
    | some id =>
      cases hfind : reducer.activeOperations.find id with
      | none => simp [hopen, hstart, hfind]
      | some operation =>
        rw [find_id hfind] at hfind
        by_cases hkind : operation.kind = kind
        · rw [hkind] at hfind
          simp [hopen, hstart, hfind, hrun, entered_of_active hfind]
        · have hchanged := entered_of_other hfind hkind
          have hrun' : (reducer.entered id kind).runId = some envelope.runId := hrun
          simp [hopen, hstart, hfind, hrun', hchanged, hkind]
  | uses kind =>
    rw [hlife] at hstart
    simp only [reduceCtorEq, or_false] at hstart
    rw [requireOperation_wp_iff]
    cases hid : envelope.operationId with
    | none => simp [hrun]
    | some id =>
      by_cases hfind : reducer.activeOperations.find id = some ⟨id, kind⟩ <;> simp [hopen, hstart, hfind, hrun]
  | closes kind =>
    rw [hlife] at hstart
    simp only [reduceCtorEq, or_false] at hstart
    simp only [finishOperation, wp_bind, requireOperation_wp_iff]
    cases hid : envelope.operationId with
    | none => simp [hrun]
    | some id =>
      by_cases hfind : reducer.activeOperations.find id = some ⟨id, kind⟩
      · simp [hopen, hstart, hfind, operationId, hid]
      · simp [hopen, hstart, hfind, hrun]

end reduction

section folds

variable {reducer : RunReducer} {envelope : EventEnvelope} {Q : Unit → RunReducer → Prop}
  {E : ReduceError → RunReducer → Prop}

def RunReducer.adopted (reducer : RunReducer) (envelope : EventEnvelope) : RunReducer :=
  { reducer with runId := some envelope.runId }

def RunReducer.applyOpen (terminal started : Bool) (envelope : EventEnvelope) : Reduction Unit :=
  if terminal = true then raise .eventAfterTerminal
  else if started = false ∧ envelope.event.isRunStarted = false then raise .runNotStarted
  else do
    applyEvent envelope
    write fun reducer => { reducer with nextSequence := min (reducer.nextSequence + 1) (2 ^ 64 - 1) }

theorem apply_wp_iff (h : Awaited reducer envelope) : (apply envelope).wp reducer Q E ↔
    match reducer.runId with
    | some runId => if runId ≠ envelope.runId then E .runMismatch reducer
      else (applyOpen reducer.terminal reducer.started envelope).wp reducer Q E
    | none => (applyOpen reducer.terminal reducer.started envelope).wp (reducer.adopted envelope) Q E := by
  unfold apply checkRun applyOpen adopted
  rw [wp_bind, wp_read, if_neg (not_not.mpr h.schema), if_neg (not_not.mpr h.sequence), wp_bind, wp_bind, wp_read]
  cases reducer.runId with
  | none => rfl
  | some runId =>
    by_cases hrun : runId = envelope.runId
    · simp [hrun]
    · simp [hrun]

theorem applyOpen_wp_iff (hrun : reducer.runId = some envelope.runId) :
    (applyOpen reducer.terminal reducer.started envelope).wp reducer (fun _ _ => Lawful reducer envelope)
      fun _ reducer' => ¬ Lawful reducer envelope ∧ reducer'.runId = some envelope.runId ∧
        (reducer' = reducer ↔ ¬ Overwrites reducer envelope) := by
  unfold applyOpen
  by_cases hterminal : reducer.terminal = true
  · simp [hterminal, Lawful, Overwrites, hrun]
  · rw [if_neg hterminal]
    by_cases hstart : reducer.started = false ∧ envelope.event.isRunStarted = false
    · have hnot : envelope.event.lifecycle ≠ .starts := by
        rw [ne_eq, ← isRunStarted_iff, hstart.2]
        decide
      have hunlawful : ¬ Lawful reducer envelope := by
        unfold Lawful
        cases hlife : envelope.event.lifecycle with
        | starts => exact absurd hlife hnot
        | _ => simp [hstart.1]
      rw [if_pos hstart]
      simp [hunlawful, hrun, Overwrites, hstart.1]
    · rw [if_neg hstart, wp_bind]
      have hbegun : reducer.started = true ∨ envelope.event.isRunStarted = true := by
        by_contra hneither
        rw [not_or, Bool.not_eq_true, Bool.not_eq_true] at hneither
        exact hstart hneither
      exact wp_mono (applyEvent_wp_iff hbegun (by simpa using hterminal) hrun) (fun _ _ h => h) fun _ _ h => h

theorem lawful_adopted : Lawful (reducer.adopted envelope) envelope ↔ Lawful reducer envelope := Iff.rfl

/-- A rejected event leaves no trace exactly where the reducer knows its run and the event opens no operation that is
active as one of another kind. -/
theorem rejection_leaves_reducer_iff (reducer : RunReducer) (envelope : EventEnvelope) :
    Atomic reducer envelope ↔ (Awaited reducer envelope → ¬ Lawful reducer envelope →
      reducer.runId ≠ none ∧ (reducer.runId = some envelope.runId → ¬ Overwrites reducer envelope)) := by
  rw [atomic_iff_wp]
  by_cases hawaited : Awaited reducer envelope
  · rw [apply_wp_iff hawaited]
    cases hrun : reducer.runId with
    | none =>
      have hopen := @applyOpen_wp_iff (reducer.adopted envelope) envelope rfl
      rw [lawful_adopted] at hopen
      constructor
      · intro hleaves _ hunlawful
        refine absurd (of_wp (wp_mono (wp_and hleaves hopen) (fun _ _ h => ?_) fun _ reducer' h => ?_)) not_false
        · exact hunlawful h.2
        · obtain ⟨rfl, -, hadopted, -⟩ := h
          rw [hrun] at hadopted
          cases hadopted
      · intro h
        have hlawful : Lawful reducer envelope := by
          by_contra hunlawful
          exact (h hawaited hunlawful).1 rfl
        exact wp_mono hopen (fun _ _ _ => trivial) fun _ _ h => absurd hlawful h.1
    | some runId =>
      by_cases hsame : runId = envelope.runId
      · subst hsame
        have hopen := @applyOpen_wp_iff reducer envelope hrun
        dsimp only
        rw [if_neg (not_not.mpr rfl)]
        constructor
        · intro hleaves _ hunlawful
          refine ⟨Option.some_ne_none _, fun _ =>
            of_wp (wp_mono (wp_and hleaves hopen) (fun _ _ h => ?_) fun _ _ h => ?_)⟩
          · exact absurd h.2 hunlawful
          · exact h.2.2.2.mp h.1
        · intro h
          refine wp_mono hopen (fun _ _ _ => trivial) fun _ _ hleft => hleft.2.2.mpr ?_
          exact (h hawaited hleft.1).2 rfl
      · simp [hsame]
  · have hrefused : (apply envelope).wp reducer (fun _ _ => True) fun _ reducer' => reducer' = reducer := by
      unfold apply
      by_cases hschema : envelope.schemaVersion = SCHEMA_VERSION
      · have hsequence : envelope.sequence ≠ reducer.nextSequence := fun hsequence => hawaited ⟨hschema, hsequence⟩
        simp [hschema, hsequence]
      · simp [hschema]
    simp [hrefused, hawaited]

def sampleEnvelope (operationId : Option String) (sequence : Nat) (event : Event) : EventEnvelope :=
  ⟨SCHEMA_VERSION, "event", "run-1", none, none, operationId, none, none, sequence, 0, ⟨"agent", "agent-1"⟩, .observed,
    .user, event⟩

/-- A tool is rejected because its identity is that of a message, and the message has become a tool. -/
theorem duplicate_operation_changes_kind : ¬ ∀ reducer envelope, Atomic reducer envelope := by
  intro h
  let reducer := (replay [sampleEnvelope none 1 (.runStarted "task"),
    sampleEnvelope (some "operation") 2 (.messageStarted .assistant)] RunReducer.new).2
  have hleft := h reducer (sampleEnvelope (some "operation") 3 (.toolStarted "tool" ⟨"\x7b\x7d"⟩))
    (.duplicateOperation "operation") (by decide)
  exact absurd hleft (by decide)

end folds

end AlloyPort.Events
