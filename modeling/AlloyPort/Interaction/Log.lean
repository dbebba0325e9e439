import AlloyPort.Interaction.Store

/-! The log of a run and the output of a stream grow at their ends only. The events of a run are numbered without a
gap, and no byte of a stream is stored twice. -/

namespace AlloyPort.Interaction

open Database Transaction Events

variable {database database' : InteractionDatabase} {runId dedupKey attemptId : String} {stream : Int}

def rowsOf (database : InteractionDatabase) (runId : String) : List EventRow :=
  database.events.rows.filter fun row => row.runId = runId

def chunksOf (database : InteractionDatabase) (attemptId : String) (stream : Int) : List ChunkRow :=
  database.chunks.rows.filter fun chunk => chunk.attemptId = attemptId ∧ chunk.stream = stream

def ChunkRow.endOffset (chunk : ChunkRow) : Nat := chunk.byteOffset + chunk.payload.length

def streamEnd (database : InteractionDatabase) (attemptId : String) (stream : Int) : Nat :=
  (chunksOf database attemptId stream).getLast?.elim 0 ChunkRow.endOffset

structure Sound (database : InteractionDatabase) : Prop where
  numbered : ∀ runId, (rowsOf database runId).map EventRow.sequence = List.range' 1 (rowsOf database runId).length
  counted : ∀ run ∈ database.runs.rows, run.nextSequence = (rowsOf database run.runId).length + 1
  started : ∀ row ∈ database.events.rows, database.runs.find row.runId ≠ none
  labelled : ∀ row ∈ database.events.rows,
    row.sequence < 2 ^ 63 ∧ row.envelope.sequence = row.sequence ∧ row.envelope.runId = row.runId ∧
      row.fingerprint.runId = row.runId
  keyed : ∀ u ∈ database.events.rows, ∀ v ∈ database.events.rows, u.runId = v.runId → u.dedupKey = v.dedupKey → u = v
  correlated : ∀ chunk ∈ database.chunks.rows, database.events.find (chunk.runId, chunk.eventSequence) ≠ none
  ordered : ∀ attemptId stream, (chunksOf database attemptId stream).Pairwise fun u v =>
    u.byteOffset < v.byteOffset ∧ u.endOffset ≤ v.byteOffset
  expected : ∀ attemptId stream, outputOffset database attemptId stream = streamEnd database attemptId stream

theorem Sound.empty : Sound InteractionDatabase.empty := by
  have hrows : ∀ runId, rowsOf .empty runId = [] := fun _ => rfl
  have hchunks : ∀ attemptId stream, chunksOf .empty attemptId stream = [] := fun _ _ => rfl
  have hevents : InteractionDatabase.empty.events.rows = [] := rfl
  have hruns : InteractionDatabase.empty.runs.rows = [] := rfl
  have hall : InteractionDatabase.empty.chunks.rows = [] := rfl
  refine ⟨?_, ?_, ?_, ?_, ?_, ?_, ?_, ?_⟩
  · simp [hrows]
  · simp [hruns]
  · simp [hevents]
  · simp [hevents]
  · simp [hevents]
  · simp [hall]
  · simp [hchunks]
  · intro attemptId stream
    simp only [streamEnd, hchunks]
    rfl

theorem Sound.eventsOf_eq (hs : Sound database) (runId : String) : database.eventsOf runId = rowsOf database runId := by
  apply List.Pairwise.insertionSort_eq
  have hlt : ((rowsOf database runId).map EventRow.sequence).Pairwise (· < ·) := by
    rw [hs.numbered]
    exact List.pairwise_lt_range' 1
  exact (List.pairwise_map.mp hlt).imp Nat.le_of_lt

def eventRow (dedupKey : String) (frame : ProducerEvent) (sequence : Nat) : EventRow :=
  ⟨frame.runId, sequence, eventId frame.runId sequence, dedupKey, fingerprint frame, envelopeAt frame sequence⟩

def InteractionDatabase.entered (database : InteractionDatabase) (dedupKey : String) (frame : ProducerEvent)
    (sequence : Nat) : InteractionDatabase :=
  { database with
    runs := (database.runs.insertOrIgnore ⟨frame.runId, 1⟩).update frame.runId (setNextSequence (sequence + 1))
    events := database.events.insertOrIgnore (eventRow dedupKey frame sequence) }

inductive Appended (database : InteractionDatabase) (dedupKey : String) (frame : ProducerEvent) :
    AppendOutcome → InteractionDatabase → Prop where
  | known (row) (hrow : row ∈ database.events.rows) (hrun : row.runId = frame.runId) (hkey : row.dedupKey = dedupKey)
      (hstamp : row.fingerprint = fingerprint frame) :
      Appended database dedupKey frame (.duplicate row.envelope) database
  | fresh (sequence) (hnext : sequence = (rowsOf database frame.runId).length + 1) (hlt : sequence < 2 ^ 63)
      (hnew : database.events.find (frame.runId, sequence) = none)
      (hkey : ∀ row ∈ database.events.rows, row.runId = frame.runId → row.dedupKey ≠ dedupKey) :
      Appended database dedupKey frame (.inserted (envelopeAt frame sequence))
        (database.entered dedupKey frame sequence)

def InteractionDatabase.stored (database : InteractionDatabase) (chunk : ChunkRow) : InteractionDatabase :=
  { database with
    chunks := database.chunks.insertOrIgnore chunk
    offsets := (database.offsets.insertOrIgnore ⟨chunk.attemptId, chunk.stream, chunk.endOffset⟩).update
      (chunk.attemptId, chunk.stream) (setNextOffset chunk.endOffset) }

inductive Served (database : InteractionDatabase) : InteractionCall → OutputAppend → InteractionDatabase → Prop where
  | event {dedupKey frame outcome database'} (h : Appended database dedupKey frame outcome database') :
      Served database (.append dedupKey frame) ⟨outcome, 0⟩ database'
  | repeated {dedupKey frame} (chunk row) (hchunk : database.chunks.find chunk.key = some chunk)
      (hrow : database.events.find (chunk.runId, chunk.eventSequence) = some row)
      (hstamp : row.fingerprint = fingerprint frame) :
      Served database (.appendOutput dedupKey chunk.attemptId chunk.stream chunk.byteOffset chunk.payload frame)
        ⟨.duplicate row.envelope, 0⟩ database
  | chunk {dedupKey frame outcome database'} (attemptId stream byteOffset payload)
      (hnone : database.chunks.find (attemptId, stream, byteOffset) = none)
      (hend : streamEnd database attemptId stream ≤ byteOffset)
      (h : Appended database dedupKey frame outcome database') :
      Served database (.appendOutput dedupKey attemptId stream byteOffset payload frame)
        ⟨outcome, byteOffset - streamEnd database attemptId stream⟩
        (database'.stored ⟨attemptId, stream, byteOffset, payload, frame.runId, outcome.envelope.sequence⟩)

def InteractionCall.Valid : InteractionCall → Prop
  | .append dedupKey frame => validateInput dedupKey frame = .ok ()
  | .appendOutput dedupKey attemptId _ byteOffset _ frame =>
    validateInput dedupKey frame = .ok () ∧ isBlank attemptId = false ∧ byteOffset < 2 ^ 63

section calls

variable {frame : ProducerEvent} {value : Nat}
variable {a byteOffset : Nat} {Q : Unit → InteractionDatabase → Prop} {row : EventRow}

theorem toI64_ok (h : toI64 value = .ok a) : a = value ∧ value < 2 ^ 63 := by
  unfold toI64 at h
  by_cases hv : value < 2 ^ 63
  · rw [if_pos hv] at h
    cases h
    exact ⟨rfl, hv⟩
  · rw [if_neg hv] at h
    cases h

theorem saturatingAdd_of_lt {b : Nat} (h : saturatingAdd a b < 2 ^ 63) : saturatingAdd a b = a + b := by
  unfold saturatingAdd at h ⊢
  omega

theorem eventByKey_none : eventByKey database runId dedupKey = none ↔
    ∀ row ∈ database.events.rows, row.runId = runId → row.dedupKey ≠ dedupKey := by
  simp [eventByKey, List.find?_eq_none]

theorem eventByKey_some (h : eventByKey database runId dedupKey = some row) :
    row ∈ database.events.rows ∧ row.runId = runId ∧ row.dedupKey = dedupKey := by
  have hmem := List.mem_of_find?_eq_some h
  have hrow := List.find?_some h
  simp only [decide_eq_true_eq] at hrow
  exact ⟨hmem, hrow⟩

theorem wp_nextSequence {Q : Nat → InteractionDatabase → Prop} {E : InteractionError → InteractionDatabase → Prop}
    {run : RunRow} (hrun : database.runs.find runId = some run) (hQ : Q run.nextSequence database) :
    (nextSequence runId).wp database Q E := by
  unfold nextSequence
  simp only [wp_bind, wp_read, hrun]
  exact hQ

theorem wp_insertEvent (hQ : database.events.find row.key = none →
      (∀ other ∈ database.events.rows, other.runId = row.runId → other.dedupKey ≠ row.dedupKey) →
      Q () { database with events := database.events.insertOrIgnore row }) :
    (insertEvent row).wp database Q fun _ _ => True := by
  unfold insertEvent
  simp only [wp_bind, wp_read]
  by_cases hclash : (database.events.rows.any fun other =>
      other.key = row.key ∨ other.eventId = row.eventId ∨ other.runId = row.runId ∧ other.dedupKey = row.dedupKey) =
        true
  · simp only [if_pos hclash]
    trivial
  · simp only [if_neg hclash, wp_write]
    have hfree : ∀ other ∈ database.events.rows,
        ¬ (other.key = row.key ∨ other.eventId = row.eventId ∨ other.runId = row.runId ∧
        other.dedupKey = row.dedupKey) := by
      intro other hother hor
      apply hclash
      rw [List.any_eq_true]
      exact ⟨other, hother, by simpa using hor⟩
    refine hQ (Table.find_eq_none.mpr fun other hother hkey => ?_) fun other hother hrun hkey => ?_
    · exact hfree other hother (.inl hkey)
    · exact hfree other hother (.inr (.inr ⟨hrun, hkey⟩))

theorem Sound.next (hs : Sound database) (runId : String) :
    ∃ run, (database.runs.insertOrIgnore ⟨runId, 1⟩).find runId = some run ∧
      run.nextSequence = (rowsOf database runId).length + 1 := by
  have hfind := @Table.find_insertOrIgnore _ _ RunRow.runId _ database.runs ⟨runId, 1⟩
  cases hrun : database.runs.find runId with
  | some run =>
    rw [show database.runs.find (RunRow.runId ⟨runId, 1⟩) = some run from hrun] at hfind
    obtain ⟨hmem, hid⟩ := Table.find_eq_some.mp hrun
    refine ⟨run, hfind, ?_⟩
    rw [hs.counted run hmem, hid]
  | none =>
    rw [show database.runs.find (RunRow.runId ⟨runId, 1⟩) = none from hrun] at hfind
    refine ⟨⟨runId, 1⟩, hfind, ?_⟩
    have hempty : rowsOf database runId = [] := by
      apply List.filter_eq_nil_iff.mpr
      intro row hrow hid
      have hsome := hs.started row hrow
      simp only [decide_eq_true_eq] at hid
      rw [hid] at hsome
      exact hsome hrun
    rw [hempty]
    rfl

theorem appendTransaction_wp (hs : Sound database) :
    (appendTransaction dedupKey (fingerprint frame) frame).wp database
      (fun outcome database' => Appended database dedupKey frame outcome database') fun _ _ => True := by
  unfold appendTransaction
  simp only [wp_bind, wp_read]
  cases hrow : eventByKey database frame.runId dedupKey with
  | some row =>
    obtain ⟨hmem, hrun, hkey⟩ := eventByKey_some hrow
    by_cases hstamp : row.fingerprint ≠ fingerprint frame
    · simp only [if_pos hstamp]
      trivial
    · simp only [if_neg hstamp]
      exact .known row hmem hrun hkey (not_not.mp hstamp)
  | none =>
    obtain ⟨run, hrun, hnext⟩ := hs.next frame.runId
    simp only [wp_bind, wp_write, wp_attempt]
    refine wp_nextSequence hrun ⟨fun stored hstored => ?_, fun _ _ => trivial⟩
    obtain ⟨rfl, hsmall⟩ := toI64_ok hstored
    refine wp_insertEvent fun hnew hkey => ?_
    refine ⟨fun next hsum => ?_, fun _ _ => trivial⟩
    obtain ⟨rfl, hlt⟩ := toI64_ok hsum
    rw [saturatingAdd_of_lt hlt]
    exact .fresh run.nextSequence hnext hsmall hnew hkey

theorem storedChunk_none (hs : Sound database) :
    storedChunk database attemptId stream byteOffset = none ↔
    database.chunks.find (attemptId, stream, byteOffset) = none := by
  unfold storedChunk
  cases hchunk : database.chunks.find (attemptId, stream, byteOffset) with
  | none => simp
  | some chunk =>
    obtain ⟨row, hrow⟩ := Option.ne_none_iff_exists'.mp (hs.correlated chunk (Table.find_eq_some.mp hchunk).1)
    simp [hrow]

theorem wp_insertChunk {chunk : ChunkRow}
    (hQ : Q () { database with chunks := database.chunks.insertOrIgnore chunk }) :
    (insertChunk chunk).wp database Q fun _ _ => True := by
  unfold insertChunk
  simp only [wp_bind, wp_read]
  by_cases hsome : (database.chunks.find chunk.key).isSome = true
  · simp only [if_pos hsome]
    trivial
  · simp only [if_neg hsome, wp_write]
    exact hQ

theorem wp_eventAt {sequence : Nat} {Q : EventEnvelope → InteractionDatabase → Prop}
    (hrow : database.events.find (runId, sequence) = some row) (hQ : Q row.envelope database) :
    (eventAt runId sequence).wp database Q fun _ _ => True := by
  unfold eventAt
  simp only [wp_bind, wp_attempt, wp_read]
  refine ⟨fun stored hstored => ?_, fun _ _ => trivial⟩
  obtain ⟨rfl, -⟩ := toI64_ok hstored
  simp only [hrow]
  exact hQ

theorem append_wp (hs : Sound database) : (SqliteInteractionStore.append dedupKey frame).wp database
    (fun outcome database' => validateInput dedupKey frame = .ok () ∧
      Appended database dedupKey frame outcome database') fun _ _ => True := by
  unfold SqliteInteractionStore.append
  simp only [wp_bind, wp_attempt]
  refine ⟨fun _ hvalid => ?_, fun _ _ => trivial⟩
  exact wp_mono (appendTransaction_wp hs) (fun _ _ h => ⟨hvalid, h⟩) fun _ _ h => h

theorem appendOutput_wp (hs : Sound database) {payload : List UInt8} :
    (SqliteInteractionStore.appendOutput dedupKey attemptId stream byteOffset payload frame).wp database
      (fun result database' => (InteractionCall.appendOutput dedupKey attemptId stream byteOffset payload frame).Valid ∧
        Served database (.appendOutput dedupKey attemptId stream byteOffset payload frame) result database')
      fun _ _ => True := by
  unfold SqliteInteractionStore.appendOutput
  simp only [wp_bind, wp_attempt]
  refine ⟨fun _ hinput => ?_, fun _ _ => trivial⟩
  by_cases hblank : isBlank attemptId = true
  · simp only [if_pos hblank]
    trivial
  simp only [if_neg hblank, outputChunk, wp_bind, wp_attempt, wp_read, wp_pure]
  refine ⟨fun offset hoffset => ?_, fun _ _ => trivial⟩
  obtain ⟨rfl, hlt⟩ := toI64_ok hoffset
  have hvalid : (InteractionCall.appendOutput dedupKey attemptId stream offset payload frame).Valid :=
    ⟨hinput, by simpa using hblank, hlt⟩
  cases hchunk : database.chunks.find (attemptId, stream, offset) with
  | some chunk =>
    obtain ⟨hmem, hkey⟩ := Table.find_eq_some.mp hchunk
    obtain ⟨row, hrow⟩ := Option.ne_none_iff_exists'.mp (hs.correlated chunk hmem)
    have hstored : storedChunk database attemptId stream offset =
        some ⟨chunk.payload, chunk.runId, chunk.eventSequence, row.fingerprint⟩ := by
      simp only [storedChunk, hchunk, hrow]
    simp only [hstored]
    by_cases hdiffers : chunk.payload ≠ payload ∨ row.fingerprint ≠ fingerprint frame
    · simp only [if_pos hdiffers]
      trivial
    · simp only [if_neg hdiffers, wp_bind]
      obtain ⟨hpayload, hstamp⟩ := not_or.mp hdiffers
      obtain ⟨rfl, hplace⟩ := Prod.mk.inj hkey
      cases hplace
      obtain rfl := not_not.mp hpayload
      exact wp_eventAt hrow ⟨hvalid, .repeated chunk row hchunk hrow (not_not.mp hstamp)⟩
  | none =>
    simp only [(storedChunk_none hs).mpr hchunk, wp_bind, wp_read]
    by_cases hearly : offset < outputOffset database attemptId stream
    · simp only [if_pos hearly]
      trivial
    · simp only [if_neg hearly, wp_bind]
      refine wp_mono (appendTransaction_wp hs) (fun outcome database' happended => ?_) fun _ _ h => h
      simp only [wp_attempt]
      refine ⟨fun same hsame => ?_, fun _ _ => trivial⟩
      obtain rfl := (toI64_ok hsame).1.symm
      refine ⟨fun sequence hsequence => ?_, fun _ _ => trivial⟩
      obtain ⟨rfl, -⟩ := toI64_ok hsequence
      refine wp_insertChunk ?_
      refine ⟨fun next hnext => ?_, fun _ _ => trivial⟩
      obtain ⟨rfl, hlast⟩ := toI64_ok hnext
      simp only [saturatingAdd_of_lt hlast, insertOrUpdateOffset, wp_write, wp_pure, hs.expected]
      have hend : streamEnd database attemptId stream ≤ offset := by
        rw [hs.expected] at hearly
        omega
      exact ⟨hvalid, .chunk attemptId stream offset payload hchunk hend happended⟩

end calls

def InteractionCall.execute (call : InteractionCall) (database : InteractionDatabase) :
    InteractionDatabase × Except InteractionError OutputAppend :=
  call.transaction.run database

theorem InteractionCall.execute_cases (hs : Sound database) (call : InteractionCall) :
    (∃ result, (call.execute database).2 = .ok result ∧ call.Valid ∧
      Served database call result (call.execute database).1) ∨
      ∃ e, (call.execute database).2 = .error e ∧ (call.execute database).1 = database := by
  apply run_cases (Q := fun result database' => call.Valid ∧ Served database call result database')
  cases call with
  | append dedupKey frame =>
    simp only [InteractionCall.transaction, wp_bind, wp_pure]
    exact wp_mono (append_wp hs) (fun outcome _ h => ⟨h.1, .event h.2⟩) fun _ _ h => h
  | appendOutput dedupKey attemptId stream byteOffset payload frame => exact appendOutput_wp hs

section growth

variable {frame : ProducerEvent} {outcome : AppendOutcome} {chunk : ChunkRow} {sequence : Nat} {u : ChunkRow}

theorem rowsOf_entered (hnew : database.events.find (frame.runId, sequence) = none) :
    rowsOf (database.entered dedupKey frame sequence) runId =
      rowsOf database runId ++ if frame.runId = runId then [eventRow dedupKey frame sequence] else [] := by
  have hrows : (database.entered dedupKey frame sequence).events.rows =
      database.events.rows ++ [eventRow dedupKey frame sequence] := Table.insertOrIgnore_absent hnew
  simp only [rowsOf, hrows, List.filter_append]
  congr 1
  by_cases hrun : frame.runId = runId
  · simp [hrun, eventRow]
  · simp [hrun, eventRow]

theorem runs_entered {run : RunRow} (h : run ∈ (database.entered dedupKey frame sequence).runs.rows) :
    run.runId = frame.runId ∧ run.nextSequence = sequence + 1 ∨
      run.runId ≠ frame.runId ∧ run ∈ database.runs.rows := by
  obtain ⟨run', hrun', rfl⟩ := Table.mem_update.mp h
  by_cases hid : run'.runId = frame.runId
  · rw [if_pos hid]
    exact .inl ⟨hid, rfl⟩
  · rw [if_neg hid]
    rcases Table.mem_insertOrIgnore.mp hrun' with hmem | ⟨-, rfl⟩
    · exact .inr ⟨hid, hmem⟩
    · exact absurd rfl hid

theorem run_entered {runId : String} (h : runId = frame.runId ∨ database.runs.find runId ≠ none) :
    (database.entered dedupKey frame sequence).runs.find runId ≠ none := by
  simp only [InteractionDatabase.entered, Table.find_update, ne_eq, Option.map_eq_none_iff]
  by_cases hid : runId = frame.runId
  · subst hid
    have hfind := @Table.find_insertOrIgnore _ _ RunRow.runId _ database.runs ⟨frame.runId, 1⟩
    rw [show RunRow.runId ⟨frame.runId, 1⟩ = frame.runId from rfl] at hfind
    rw [hfind]
    exact fun h => by cases h
  · rcases h with hsame | hsome
    · exact absurd hsame hid
    · have hne : RunRow.runId ⟨frame.runId, 1⟩ ≠ runId := fun heq => hid heq.symm
      rw [Table.find_insertOrIgnore_ne hne]
      exact hsome

theorem Sound.entered (hs : Sound database) (hnext : sequence = (rowsOf database frame.runId).length + 1)
    (hlt : sequence < 2 ^ 63) (hnew : database.events.find (frame.runId, sequence) = none)
    (hkey : ∀ row ∈ database.events.rows, row.runId = frame.runId → row.dedupKey ≠ dedupKey) :
    Sound (database.entered dedupKey frame sequence) := by
  have hrows : (database.entered dedupKey frame sequence).events.rows =
      database.events.rows ++ [eventRow dedupKey frame sequence] := Table.insertOrIgnore_absent hnew
  have hcases : ∀ {row}, row ∈ (database.entered dedupKey frame sequence).events.rows →
      row ∈ database.events.rows ∨ row = eventRow dedupKey frame sequence := by
    intro row hrow
    rw [hrows, List.mem_append, List.mem_singleton] at hrow
    exact hrow
  refine ⟨fun runId => ?_, fun run hrun => ?_, fun row hrow => ?_, fun row hrow => ?_, fun u hu v hv hrun hsame => ?_,
    fun chunk hchunk => ?_, hs.ordered, hs.expected⟩
  · rw [rowsOf_entered hnew]
    by_cases hid : frame.runId = runId
    · rw [if_pos hid, List.map_append, List.length_append, List.length_singleton, List.range'_concat, hs.numbered runId]
      rw [hid] at hnext
      simp only [List.map_cons, List.map_nil, eventRow]
      congr 2
      omega
    · rw [if_neg hid, List.append_nil]
      exact hs.numbered runId
  · rw [rowsOf_entered hnew]
    rcases runs_entered hrun with ⟨hid, hcount⟩ | ⟨hid, hmem⟩
    · rw [hid, if_pos rfl, List.length_append, List.length_singleton]
      omega
    · rw [if_neg fun heq => hid heq.symm, List.append_nil]
      exact hs.counted run hmem
  · rcases hcases hrow with hmem | rfl
    · exact run_entered (.inr (hs.started row hmem))
    · exact run_entered (.inl rfl)
  · rcases hcases hrow with hmem | rfl
    · exact hs.labelled row hmem
    · exact ⟨hlt, rfl, rfl, rfl⟩
  · rcases hcases hu with hu | rfl
    · rcases hcases hv with hv | rfl
      · exact hs.keyed u hu v hv hrun hsame
      · exact absurd hsame (hkey u hu hrun)
    · rcases hcases hv with hv | rfl
      · exact absurd hsame.symm (hkey v hv hrun.symm)
      · rfl
  · have hsome := hs.correlated chunk hchunk
    intro hnone
    refine hsome (Table.find_eq_none.mpr fun row hrow => Table.find_eq_none.mp hnone row ?_)
    rw [hrows]
    exact List.mem_append_left _ hrow

theorem Sound.appended (hs : Sound database) (h : Appended database dedupKey frame outcome database') :
    Sound database' := by
  cases h with
  | known => exact hs
  | fresh sequence hnext hlt hnew hkey => exact hs.entered hnext hlt hnew hkey

theorem Appended.row (hs : Sound database) (h : Appended database dedupKey frame outcome database') :
    ∃ row ∈ database'.events.rows, row.runId = frame.runId ∧ row.dedupKey = dedupKey ∧
      row.fingerprint = fingerprint frame ∧ row.sequence = outcome.envelope.sequence ∧
      row.envelope = outcome.envelope := by
  cases h with
  | known row hrow hrun hkey hstamp => exact ⟨row, hrow, hrun, hkey, hstamp, (hs.labelled row hrow).2.1.symm, rfl⟩
  | fresh sequence hnext hlt hnew hkey =>
    refine ⟨eventRow dedupKey frame sequence, ?_, rfl, rfl, rfl, rfl, rfl⟩
    rw [show (database.entered dedupKey frame sequence).events.rows = _ from Table.insertOrIgnore_absent hnew]
    exact List.mem_append_right _ (List.mem_singleton_self _)

theorem Appended.chunks (h : Appended database dedupKey frame outcome database') :
    database'.chunks = database.chunks ∧ database'.offsets = database.offsets := by
  cases h with
  | known | fresh => exact ⟨rfl, rfl⟩

theorem chunksOf_stored (hnone : database.chunks.find chunk.key = none) :
    chunksOf (database.stored chunk) attemptId stream =
      chunksOf database attemptId stream ++ if chunk.attemptId = attemptId ∧
      chunk.stream = stream then [chunk] else [] := by
  have hrows : (database.stored chunk).chunks.rows = database.chunks.rows ++ [chunk] :=
    Table.insertOrIgnore_absent hnone
  simp only [chunksOf, hrows, List.filter_append]
  congr 1
  by_cases hplace : chunk.attemptId = attemptId ∧ chunk.stream = stream
  · simp [hplace]
  · rw [if_neg hplace]
    simpa using hplace

theorem outputOffset_stored : outputOffset (database.stored chunk) attemptId stream =
    if chunk.attemptId = attemptId ∧ chunk.stream = stream then chunk.endOffset
    else outputOffset database attemptId stream := by
  unfold outputOffset InteractionDatabase.stored
  simp only [Table.find_update]
  by_cases hplace : chunk.attemptId = attemptId ∧ chunk.stream = stream
  · obtain ⟨rfl, rfl⟩ := hplace
    have hfind := @Table.find_insertOrIgnore _ _ OffsetRow.key _ database.offsets
      ⟨chunk.attemptId, chunk.stream, chunk.endOffset⟩
    rw [show OffsetRow.key ⟨chunk.attemptId, chunk.stream, chunk.endOffset⟩ = (chunk.attemptId, chunk.stream) from rfl]
      at hfind
    have hkey := (Table.find_eq_some.mp hfind).2
    simp only [hfind, Option.map_some, hkey, and_self, if_true, setNextOffset]
  · have hne : OffsetRow.key ⟨chunk.attemptId, chunk.stream, chunk.endOffset⟩ ≠ (attemptId, stream) := by
      intro heq
      exact hplace (Prod.mk.inj heq)
    rw [if_neg hplace, Table.find_insertOrIgnore_ne hne]
    cases hrow : database.offsets.find (attemptId, stream) with
    | none => rfl
    | some row =>
      have hkey : row.key ≠ (chunk.attemptId, chunk.stream) := by
        rw [(Table.find_eq_some.mp hrow).2]
        exact fun heq => hplace ⟨(Prod.mk.inj heq).1.symm, (Prod.mk.inj heq).2.symm⟩
      simp only [Option.map_some, if_neg hkey]

theorem mem_chunksOf : u ∈ chunksOf database attemptId stream ↔
    u ∈ database.chunks.rows ∧ u.attemptId = attemptId ∧ u.stream = stream := by
  simp [chunksOf]

theorem Sound.within (hs : Sound database) (hu : u ∈ chunksOf database attemptId stream) :
    u.endOffset ≤ streamEnd database attemptId stream := by
  have hordered := hs.ordered attemptId stream
  unfold streamEnd
  rcases List.eq_nil_or_concat (chunksOf database attemptId stream) with hl | ⟨earlier, last, hl⟩
  · rw [hl] at hu
    cases hu
  · rw [hl, List.concat_eq_append] at hu hordered ⊢
    rw [List.getLast?_concat]
    show u.endOffset ≤ last.endOffset
    rcases List.mem_append.mp hu with hu | hu
    · have hpair := (List.pairwise_append.mp hordered).2.2 u hu last (List.mem_singleton_self _)
      have hstart : last.byteOffset ≤ last.endOffset := Nat.le_add_right _ _
      omega
    · rw [List.mem_singleton.mp hu]

theorem Sound.stored (hs : Sound database) (hnone : database.chunks.find chunk.key = none)
    (hend : streamEnd database chunk.attemptId chunk.stream ≤ chunk.byteOffset)
    (hevent : database.events.find (chunk.runId, chunk.eventSequence) ≠ none) : Sound (database.stored chunk) := by
  have hrows : (database.stored chunk).chunks.rows = database.chunks.rows ++ [chunk] :=
    Table.insertOrIgnore_absent hnone
  refine ⟨hs.numbered, hs.counted, hs.started, hs.labelled, hs.keyed, fun u hu => ?_, fun attemptId stream => ?_,
    fun attemptId stream => ?_⟩
  · rw [hrows, List.mem_append, List.mem_singleton] at hu
    rcases hu with hu | rfl
    · exact hs.correlated u hu
    · exact hevent
  · rw [chunksOf_stored hnone]
    by_cases hplace : chunk.attemptId = attemptId ∧ chunk.stream = stream
    · rw [if_pos hplace]
      obtain ⟨rfl, rfl⟩ := hplace
      refine List.pairwise_append.mpr ⟨hs.ordered _ _, List.pairwise_singleton _ _, fun u hu v hv => ?_⟩
      obtain rfl := List.mem_singleton.mp hv
      have hu' := hs.within hu
      have hne : u.byteOffset ≠ v.byteOffset := by
        intro heq
        obtain ⟨hmem, hattempt, hstream⟩ := mem_chunksOf.mp hu
        exact Table.find_eq_none.mp hnone u hmem (by simp [ChunkRow.key, hattempt, hstream, heq])
      have hstart : u.byteOffset ≤ u.endOffset := Nat.le_add_right _ _
      omega
    · rw [if_neg hplace, List.append_nil]
      exact hs.ordered attemptId stream
  · rw [outputOffset_stored, streamEnd, chunksOf_stored hnone]
    by_cases hplace : chunk.attemptId = attemptId ∧ chunk.stream = stream
    · rw [if_pos hplace, if_pos hplace, List.getLast?_concat]
      rfl
    · rw [if_neg hplace, if_neg hplace, List.append_nil]
      exact hs.expected attemptId stream

theorem Sound.served {call : InteractionCall} {result : OutputAppend} (hs : Sound database)
    (h : Served database call result database') : Sound database' := by
  cases h with
  | event h => exact hs.appended h
  | repeated => exact hs
  | chunk attemptId stream byteOffset payload hnone hend happended =>
    obtain ⟨row, hrow, hrun, -, -, hsequence, -⟩ := happended.row hs
    obtain ⟨hchunks, -⟩ := happended.chunks
    refine (hs.appended happended).stored ?_ ?_ ?_
    · rw [hchunks]
      exact hnone
    · simp only [streamEnd, chunksOf, hchunks] at hend ⊢
      exact hend
    · intro hno
      exact Table.find_eq_none.mp hno row hrow (by simp [EventRow.key, hrun, hsequence])

end growth

end AlloyPort.Interaction
