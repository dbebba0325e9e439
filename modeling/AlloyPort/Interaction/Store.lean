import Mathlib.Data.List.Sort
import AlloyPort.Identity
import AlloyPort.Events.Record

/-! The store of the events of all runs and of the output that the events correlate. The records themselves stand
for their JSON texts. -/

namespace AlloyPort.Interaction

open Database Transaction Events

inductive InteractionError where
  | storage (detail : String)
  | invalidFrame (detail : String)
  | conflictingDedupKey (key : String)
  | conflictingOutput (attemptId : String) (stream : Int) (byteOffset : Nat)
  | invalidCursor (runId : String) (afterSequence latestSequence : Nat)
  | valueOutOfRange (value : Nat)
  deriving DecidableEq

inductive AppendOutcome where
  | inserted (envelope : EventEnvelope)
  | duplicate (envelope : EventEnvelope)

def AppendOutcome.envelope : AppendOutcome → EventEnvelope
  | .inserted envelope | .duplicate envelope => envelope

structure OutputAppend where
  outcome : AppendOutcome
  missingBytesBefore : Nat

structure EventFingerprint where
  schemaVersion : Nat
  runId : String
  taskId : Option String
  turnId : Option String
  operationId : Option String
  parentOperationId : Option String
  producerComponent : String
  authority : Authority
  visibility : Visibility
  event : Event
  deriving DecidableEq

def fingerprint (frame : ProducerEvent) : EventFingerprint where
  schemaVersion := frame.schemaVersion
  runId := frame.runId
  taskId := frame.taskId
  turnId := frame.turnId
  operationId := frame.operationId
  parentOperationId := frame.parentOperationId
  producerComponent := frame.producer.component
  authority := frame.authority
  visibility := frame.visibility
  event := frame.event

structure RunRow where
  runId : String
  nextSequence : Nat

structure EventRow where
  runId : String
  sequence : Nat
  eventId : String
  dedupKey : String
  fingerprint : EventFingerprint
  envelope : EventEnvelope

structure ChunkRow where
  attemptId : String
  stream : Int
  byteOffset : Nat
  payload : List UInt8
  runId : String
  eventSequence : Nat

structure OffsetRow where
  attemptId : String
  stream : Int
  nextOffset : Nat

abbrev EventRow.key (row : EventRow) : String × Nat := (row.runId, row.sequence)

abbrev ChunkRow.key (row : ChunkRow) : String × Int × Nat := (row.attemptId, row.stream, row.byteOffset)

abbrev OffsetRow.key (row : OffsetRow) : String × Int := (row.attemptId, row.stream)

structure InteractionDatabase where
  runs : Table RunRow RunRow.runId
  events : Table EventRow EventRow.key
  chunks : Table ChunkRow ChunkRow.key
  offsets : Table OffsetRow OffsetRow.key

def InteractionDatabase.empty : InteractionDatabase := ⟨.empty, .empty, .empty, .empty⟩

/-- The events of a run `ORDER BY sequence`. -/
def InteractionDatabase.eventsOf (database : InteractionDatabase) (runId : String) : List EventRow :=
  (database.events.rows.filter fun row => row.runId = runId).insertionSort fun u v => u.sequence ≤ v.sequence

abbrev InteractionTransaction := Transaction InteractionDatabase InteractionError

def toI64 (value : Nat) : Except InteractionError Nat :=
  if value < 2 ^ 63 then .ok value else .error (.valueOutOfRange value)

def saturatingAdd (a b : Nat) : Nat := min (a + b) (2 ^ 64 - 1)

def zeroPadded (width value : Nat) : String :=
  String.ofList (List.replicate (width - value.repr.length) '0' ++ value.repr.toList)

def eventId (runId : String) (sequence : Nat) : String := runId ++ ":" ++ zeroPadded 20 sequence

def validateInput (dedupKey : String) (frame : ProducerEvent) : Except InteractionError Unit :=
  if isBlank dedupKey = true then .error (.invalidFrame "deduplication key is missing")
  else if frame.schemaVersion ≠ SCHEMA_VERSION then .error (.invalidFrame s!"unsupported schema {frame.schemaVersion}")
  else if isBlank frame.runId = true then .error (.invalidFrame "run identity is missing")
  else .ok ()

def setNextSequence (next : Nat) : RowUpdate RunRow.runId where
  apply row := { row with nextSequence := next }
  keeps _ := rfl

def setNextOffset (next : Nat) : RowUpdate OffsetRow.key where
  apply row := { row with nextOffset := next }
  keeps _ := rfl

def envelopeAt (frame : ProducerEvent) (sequence : Nat) : EventEnvelope where
  schemaVersion := SCHEMA_VERSION
  eventId := eventId frame.runId sequence
  runId := frame.runId
  taskId := frame.taskId
  turnId := frame.turnId
  operationId := frame.operationId
  parentOperationId := frame.parentOperationId
  producerSequence := frame.producerSequence
  sequence
  emittedAtUnixMs := frame.emittedAtUnixMs
  producer := frame.producer
  authority := frame.authority
  visibility := frame.visibility
  event := frame.event

def eventByKey (database : InteractionDatabase) (runId dedupKey : String) : Option EventRow :=
  database.events.rows.find? fun row => row.runId = runId ∧ row.dedupKey = dedupKey

def nextSequence (runId : String) : InteractionTransaction Nat := do
  let database ← read
  match database.runs.find runId with
  | none => raise (.storage "Query returned no rows")
  | some row => return row.nextSequence

def insertEvent (row : EventRow) : InteractionTransaction Unit := do
  let database ← read
  if database.events.rows.any fun other =>
      other.key = row.key ∨ other.eventId = row.eventId ∨ other.runId = row.runId ∧ other.dedupKey = row.dedupKey then
    raise (.storage "UNIQUE constraint failed: interaction_events")
  else write fun database => { database with events := database.events.insertOrIgnore row }

def insertChunk (row : ChunkRow) : InteractionTransaction Unit := do
  let database ← read
  if (database.chunks.find row.key).isSome then
    raise (.storage "UNIQUE constraint failed: interaction_output_chunks")
  else write fun database => { database with chunks := database.chunks.insertOrIgnore row }

def insertOrUpdateOffset (row : OffsetRow) : InteractionTransaction Unit :=
  write fun database =>
    { database with offsets := (database.offsets.insertOrIgnore row).update row.key (setNextOffset row.nextOffset) }

def appendTransaction (dedupKey : String) (stamp : EventFingerprint) (frame : ProducerEvent) :
    InteractionTransaction AppendOutcome := do
  let database ← read
  match eventByKey database frame.runId dedupKey with
  | some row =>
    if row.fingerprint ≠ stamp then raise (.conflictingDedupKey dedupKey)
    else return .duplicate row.envelope
  | none => do
    write fun database => { database with runs := database.runs.insertOrIgnore ⟨frame.runId, 1⟩ }
    let sequence ← nextSequence frame.runId
    let envelope := envelopeAt frame sequence
    let stored ← attempt (toI64 sequence)
    insertEvent ⟨frame.runId, stored, envelope.eventId, dedupKey, stamp, envelope⟩
    let next ← attempt (toI64 (saturatingAdd sequence 1))
    write fun database => { database with runs := database.runs.update frame.runId (setNextSequence next) }
    return .inserted envelope

structure StoredOutputChunk where
  payload : List UInt8
  runId : String
  sequence : Nat
  fingerprint : EventFingerprint

def storedChunk (database : InteractionDatabase) (attemptId : String) (stream : Int) (byteOffset : Nat) :
    Option StoredOutputChunk :=
  match database.chunks.find (attemptId, stream, byteOffset) with
  | none => none
  | some chunk => match database.events.find (chunk.runId, chunk.eventSequence) with
    | none => none
    | some event => some ⟨chunk.payload, chunk.runId, chunk.eventSequence, event.fingerprint⟩

def outputChunk (attemptId : String) (stream : Int) (byteOffset : Nat) :
    InteractionTransaction (Option StoredOutputChunk) := do
  let offset ← attempt (toI64 byteOffset)
  let database ← read
  return storedChunk database attemptId stream offset

def outputOffset (database : InteractionDatabase) (attemptId : String) (stream : Int) : Nat :=
  match database.offsets.find (attemptId, stream) with
  | none => 0
  | some row => row.nextOffset

def eventAt (runId : String) (sequence : Nat) : InteractionTransaction EventEnvelope := do
  let stored ← attempt (toI64 sequence)
  let database ← read
  match database.events.find (runId, stored) with
  | none => raise (.storage "Query returned no rows")
  | some row => return row.envelope

namespace SqliteInteractionStore

def append (dedupKey : String) (frame : ProducerEvent) : InteractionTransaction AppendOutcome := do
  attempt (validateInput dedupKey frame)
  appendTransaction dedupKey (fingerprint frame) frame

def appendOutput (dedupKey attemptId : String) (stream : Int) (byteOffset : Nat) (payload : List UInt8)
    (frame : ProducerEvent) : InteractionTransaction OutputAppend := do
  attempt (validateInput dedupKey frame)
  if isBlank attemptId = true then raise (.invalidFrame "output attempt identity is missing")
  else do
    match ← outputChunk attemptId stream byteOffset with
    | some stored =>
      if stored.payload ≠ payload ∨ stored.fingerprint ≠ fingerprint frame then
        raise (.conflictingOutput attemptId stream byteOffset)
      else do
        let envelope ← eventAt stored.runId stored.sequence
        return ⟨.duplicate envelope, 0⟩
    | none => do
      let database ← read
      let expected := outputOffset database attemptId stream
      if byteOffset < expected then raise (.conflictingOutput attemptId stream byteOffset)
      else do
        let outcome ← appendTransaction dedupKey (fingerprint frame) frame
        let offset ← attempt (toI64 byteOffset)
        let sequence ← attempt (toI64 outcome.envelope.sequence)
        insertChunk ⟨attemptId, stream, offset, payload, frame.runId, sequence⟩
        let next ← attempt (toI64 (saturatingAdd byteOffset payload.length))
        insertOrUpdateOffset ⟨attemptId, stream, next⟩
        return ⟨outcome, byteOffset - expected⟩

def events (database : InteractionDatabase) (runId : String) : List EventEnvelope :=
  (database.eventsOf runId).map EventRow.envelope

def eventsAfter (database : InteractionDatabase) (runId : String) (afterSequence limit : Nat) :
    Except InteractionError (List EventEnvelope) :=
  if limit = 0 then .ok []
  else do
    let after ← toI64 afterSequence
    let count ← if limit < 2 ^ 63 then .ok limit else .error (.valueOutOfRange (2 ^ 64 - 1))
    return (((database.eventsOf runId).filter fun row => after < row.sequence).take count).map EventRow.envelope

def latestSequence (database : InteractionDatabase) (runId : String) : Option Nat :=
  ((database.eventsOf runId).map EventRow.sequence).max?

end SqliteInteractionStore

inductive InteractionCall where
  | append (dedupKey : String) (frame : ProducerEvent)
  | appendOutput (dedupKey attemptId : String) (stream : Int) (byteOffset : Nat) (payload : List UInt8)
      (frame : ProducerEvent)

namespace InteractionCall

def dedupKey : InteractionCall → String
  | append dedupKey _ | appendOutput dedupKey _ _ _ _ _ => dedupKey

def frame : InteractionCall → ProducerEvent
  | append _ frame | appendOutput _ _ _ _ _ frame => frame

def transaction : InteractionCall → InteractionTransaction OutputAppend
  | append dedupKey frame => do
    let outcome ← SqliteInteractionStore.append dedupKey frame
    return ⟨outcome, 0⟩
  | appendOutput dedupKey attemptId stream byteOffset payload frame =>
    SqliteInteractionStore.appendOutput dedupKey attemptId stream byteOffset payload frame

end InteractionCall

end AlloyPort.Interaction
