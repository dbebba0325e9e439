import AlloyPort.Interaction.Log

/-! All sequences of calls on the store. A call that succeeded is answered again as it was, and a call that
contradicts what is stored changes nothing. -/

namespace AlloyPort.Interaction

open Database Transaction Events

variable {database database' database'' : InteractionDatabase} {call call' : InteractionCall} {result : OutputAppend}

structure InteractionEvent where
  before : InteractionDatabase
  call : InteractionCall
  reply : Except InteractionError OutputAppend

inductive InteractionStep (database : InteractionDatabase) : InteractionEvent → InteractionDatabase → Prop where
  | ran (call : InteractionCall) : InteractionStep database ⟨database, call, (call.execute database).2⟩
    (call.execute database).1
  | failed (call : InteractionCall) (detail : String) :
    InteractionStep database ⟨database, call, .error (.storage detail)⟩ database

inductive InteractionRun (database : InteractionDatabase) : List InteractionEvent → InteractionDatabase → Prop where
  | start : InteractionRun database [] database
  | step {log database' e database''} (h : InteractionRun database log database')
      (hs : InteractionStep database' e database'') : InteractionRun database (log ++ [e]) database''

def InteractionCall.Conflicts (database : InteractionDatabase) : InteractionCall → Prop
  | .append dedupKey frame => ∃ row ∈ database.events.rows,
      row.runId = frame.runId ∧ row.dedupKey = dedupKey ∧ row.fingerprint ≠ fingerprint frame
  | .appendOutput dedupKey attemptId stream byteOffset payload frame =>
    match database.chunks.find (attemptId, stream, byteOffset) with
    | some chunk => chunk.payload ≠ payload ∨ ∃ row,
        database.events.find (chunk.runId, chunk.eventSequence) = some row ∧ row.fingerprint ≠ fingerprint frame
    | none => byteOffset < streamEnd database attemptId stream ∨ ∃ row ∈ database.events.rows,
        row.runId = frame.runId ∧ row.dedupKey = dedupKey ∧ row.fingerprint ≠ fingerprint frame

/-- The call names a stored chunk whose event was recorded under another key. -/
def InteractionCall.Borrows (database : InteractionDatabase) : InteractionCall → Prop
  | .append _ _ => False
  | .appendOutput dedupKey attemptId stream byteOffset _ _ => ∃ chunk row,
      database.chunks.find (attemptId, stream, byteOffset) = some chunk ∧
      database.events.find (chunk.runId, chunk.eventSequence) = some row ∧ row.dedupKey ≠ dedupKey

def Filed (database : InteractionDatabase) (call : InteractionCall) (result : OutputAppend) : Prop :=
  ∃ row ∈ database.events.rows, row.runId = call.frame.runId ∧ row.dedupKey = call.dedupKey ∧
    row.fingerprint = fingerprint call.frame ∧ row.envelope = result.outcome.envelope

def Settled (database : InteractionDatabase) (call : InteractionCall) (result : OutputAppend) : Prop :=
  match call with
  | .append _ _ => Filed database call result
  | .appendOutput _ attemptId stream byteOffset payload frame => ∃ chunk row,
      database.chunks.find (attemptId, stream, byteOffset) = some chunk ∧ chunk.payload = payload ∧
      database.events.find (chunk.runId, chunk.eventSequence) = some row ∧ row.fingerprint = fingerprint frame ∧
      row.envelope = result.outcome.envelope

inductive Replays : InteractionCall → InteractionCall → Prop where
  | append (dedupKey) {frame frame'} (h : fingerprint frame' = fingerprint frame) :
      Replays (.append dedupKey frame') (.append dedupKey frame)
  | appendOutput (dedupKey attemptId stream byteOffset payload) {frame frame'}
    (h : fingerprint frame' = fingerprint frame) :
      Replays (.appendOutput dedupKey attemptId stream byteOffset payload frame')
        (.appendOutput dedupKey attemptId stream byteOffset payload frame)

structure Grows (database database' : InteractionDatabase) : Prop where
  events : database.events.rows <+: database'.events.rows
  chunks : database.chunks.rows <+: database'.chunks.rows

section growth

theorem Grows.refl : Grows database database := ⟨List.prefix_rfl, List.prefix_rfl⟩

theorem Grows.trans (h : Grows database database') (h' : Grows database' database'') : Grows database database'' :=
  ⟨h.events.trans h'.events, h.chunks.trans h'.chunks⟩

theorem Appended.grows {dedupKey : String} {frame : ProducerEvent} {outcome : AppendOutcome}
    (h : Appended database dedupKey frame outcome database') : Grows database database' := by
  cases h with
  | known => exact .refl
  | fresh sequence hnext hlt hnew hkey =>
    refine ⟨?_, List.prefix_rfl⟩
    rw [show (database.entered dedupKey frame sequence).events.rows = _ from Table.insertOrIgnore_absent hnew]
    exact List.prefix_append _ _

theorem Grows.stored {chunk : ChunkRow} (hnone : database.chunks.find chunk.key = none) :
    Grows database (database.stored chunk) := by
  refine ⟨List.prefix_rfl, ?_⟩
  rw [show (database.stored chunk).chunks.rows = _ from Table.insertOrIgnore_absent hnone]
  exact List.prefix_append _ _

theorem Served.grows (h : Served database call result database') : Grows database database' := by
  cases h with
  | event h => exact h.grows
  | repeated => exact .refl
  | chunk attemptId stream byteOffset payload hnone hend happended =>
    refine happended.grows.trans (.stored ?_)
    rw [happended.chunks.1]
    exact hnone

theorem find_of_prefix {K V : Type} {key : V → K} [DecidableEq K] {t t' : Table V key} {k : K} {v : V}
    (hp : t.rows <+: t'.rows) (h : t.find k = some v) : t'.find k = some v := by
  obtain ⟨hmem, hkey⟩ := Table.find_eq_some.mp h
  exact Table.find_eq_some.mpr ⟨hp.subset hmem, hkey⟩

theorem Filed.grows (h : Filed database call result) (hg : Grows database database') : Filed database' call result := by
  obtain ⟨row, hrow, hrest⟩ := h
  exact ⟨row, hg.events.subset hrow, hrest⟩

theorem Settled.grows (h : Settled database call result) (hg : Grows database database') :
    Settled database' call result := by
  cases call with
  | append dedupKey frame => exact Filed.grows h hg
  | appendOutput dedupKey attemptId stream byteOffset payload frame =>
    obtain ⟨chunk, row, hchunk, hpayload, hrow, hstamp, henvelope⟩ := h
    exact ⟨chunk, row, find_of_prefix hg.chunks hchunk, hpayload, find_of_prefix hg.events hrow, hstamp, henvelope⟩

end growth

section calls

theorem Served.settled (hs : Sound database) (h : Served database call result database') :
    Settled database' call result := by
  cases h with
  | event h =>
    obtain ⟨row, hrow, hrun, hkey, hstamp, -, henvelope⟩ := h.row hs
    exact ⟨row, hrow, hrun, hkey, hstamp, henvelope⟩
  | repeated chunk row hchunk hrow hstamp => exact ⟨chunk, row, hchunk, rfl, hrow, hstamp, rfl⟩
  | @chunk dedupKey frame outcome database₁ attemptId stream byteOffset payload hnone hend happended =>
    obtain ⟨row, hrow, hrun, hkey, hstamp, hsequence, henvelope⟩ := happended.row hs
    let chunk : ChunkRow := ⟨attemptId, stream, byteOffset, payload, frame.runId, outcome.envelope.sequence⟩
    have habsent : database₁.chunks.find chunk.key = none := by
      rw [happended.chunks.1]
      exact hnone
    have hmem : chunk ∈ (database₁.stored chunk).chunks.rows := by
      rw [show (database₁.stored chunk).chunks.rows = _ from Table.insertOrIgnore_absent habsent]
      exact List.mem_append_right _ (List.mem_singleton_self _)
    refine ⟨chunk, row, Table.find_eq_some.mpr ⟨hmem, rfl⟩, rfl, Table.find_eq_some.mpr ⟨hrow, ?_⟩, hstamp, henvelope⟩
    simp [EventRow.key, hrun, hsequence, chunk]

theorem Served.filed (hs : Sound database) (h : Served database call result database')
    (hb : ¬ call.Borrows database) : Filed database' call result := by
  cases h with
  | event h =>
    obtain ⟨row, hrow, hrun, hkey, hstamp, -, henvelope⟩ := h.row hs
    exact ⟨row, hrow, hrun, hkey, hstamp, henvelope⟩
  | @repeated dedupKey frame chunk row hchunk hrow hstamp =>
    have hmem := (Table.find_eq_some.mp hrow).1
    have hkey : row.dedupKey = dedupKey := by
      by_contra hne
      exact hb ⟨chunk, row, hchunk, hrow, hne⟩
    have hrun : row.runId = frame.runId := by
      rw [← (hs.labelled row hmem).2.2.2, hstamp]
      rfl
    exact ⟨row, hmem, hrun, hkey, hstamp, rfl⟩
  | chunk attemptId stream byteOffset payload hnone hend happended =>
    obtain ⟨row, hrow, hrun, hkey, hstamp, -, henvelope⟩ := happended.row hs
    exact ⟨row, hrow, hrun, hkey, hstamp, henvelope⟩

variable {dedupKey : String} {frame : ProducerEvent} {row : EventRow}

theorem Appended.agrees {outcome : AppendOutcome} (hs : Sound database)
    (h : Appended database dedupKey frame outcome database') :
    ∀ row ∈ database.events.rows, row.runId = frame.runId → row.dedupKey = dedupKey →
      row.fingerprint = fingerprint frame := by
  intro other hother hrun' hkey'
  cases h with
  | known row hrow hrun hkey hstamp =>
    rw [hs.keyed other hother row hrow (hrun'.trans hrun.symm) (hkey'.trans hkey.symm)]
    exact hstamp
  | fresh sequence hnext hlt hnew hkey => exact absurd hkey' (hkey other hother hrun')

theorem Served.agrees (hs : Sound database) (h : Served database call result database') :
    ¬ call.Conflicts database := by
  cases h with
  | event h =>
    rintro ⟨row, hrow, hrun, hkey, hstamp⟩
    exact hstamp (h.agrees hs row hrow hrun hkey)
  | repeated chunk row hchunk hrow hstamp =>
    intro hc
    simp only [InteractionCall.Conflicts, hchunk] at hc
    rcases hc with hpayload | ⟨row', hrow', hstamp'⟩
    · exact hpayload rfl
    · rw [hrow] at hrow'
      cases hrow'
      exact hstamp' hstamp
  | chunk attemptId stream byteOffset payload hnone hend happended =>
    intro hc
    simp only [InteractionCall.Conflicts, hnone] at hc
    rcases hc with hearly | ⟨row, hrow, hrun, hkey, hstamp⟩
    · omega
    · exact hstamp (happended.agrees hs row hrow hrun hkey)

theorem eventByKey_of_mem (hs : Sound database) (hrow : row ∈ database.events.rows) :
    eventByKey database row.runId row.dedupKey = some row := by
  cases hfound : eventByKey database row.runId row.dedupKey with
  | none => exact absurd rfl (eventByKey_none.mp hfound row hrow rfl)
  | some other =>
    obtain ⟨hother, hrun, hkey⟩ := eventByKey_some hfound
    rw [hs.keyed other hother row hrow hrun hkey]

theorem validateInput_congr {frame' : ProducerEvent} (h : fingerprint frame' = fingerprint frame)
    (hvalid : validateInput dedupKey frame = .ok ()) : validateInput dedupKey frame' = .ok () := by
  have hschema : frame'.schemaVersion = frame.schemaVersion := congrArg EventFingerprint.schemaVersion h
  have hrun : frame'.runId = frame.runId := congrArg EventFingerprint.runId h
  unfold validateInput at hvalid ⊢
  rw [hschema, hrun]
  exact hvalid

theorem append_again (hs : Sound database) (hvalid : validateInput dedupKey frame = .ok ())
    (hrow : row ∈ database.events.rows) (hrun : row.runId = frame.runId)
    (hkey : row.dedupKey = dedupKey) (hstamp : row.fingerprint = fingerprint frame) :
    (SqliteInteractionStore.append dedupKey frame).wp database
      (fun outcome database' => outcome = .duplicate row.envelope ∧ database' = database) fun _ _ => False := by
  have hfound := eventByKey_of_mem hs hrow
  rw [hrun, hkey] at hfound
  have hsame : ¬ row.fingerprint ≠ fingerprint frame := fun hne => hne hstamp
  unfold SqliteInteractionStore.append appendTransaction
  simp only [hvalid, wp_bind, wp_attempt, wp_read, hfound, if_neg hsame]
  exact ⟨fun _ _ => ⟨rfl, rfl⟩, fun _ h => by cases h⟩

theorem appendOutput_again (hs : Sound database) {attemptId : String} {stream : Int} {byteOffset : Nat}
    {chunk : ChunkRow} (hvalid : validateInput dedupKey frame = .ok ())
    (hattempt : isBlank attemptId = false) (hlt : byteOffset < 2 ^ 63)
    (hchunk : database.chunks.find (attemptId, stream, byteOffset) = some chunk)
    (hrow : database.events.find (chunk.runId, chunk.eventSequence) = some row)
    (hstamp : row.fingerprint = fingerprint frame) :
    (SqliteInteractionStore.appendOutput dedupKey attemptId stream byteOffset chunk.payload frame).wp database
      (fun result database' => result = ⟨.duplicate row.envelope, 0⟩ ∧ database' = database) fun _ _ => False := by
  have hoffset : toI64 byteOffset = .ok byteOffset := if_pos hlt
  have hsequence : toI64 chunk.eventSequence = .ok chunk.eventSequence := by
    obtain ⟨hmem, hkey⟩ := Table.find_eq_some.mp hrow
    rw [← (Prod.mk.inj hkey).2]
    exact if_pos (hs.labelled row hmem).1
  have hstored : storedChunk database attemptId stream byteOffset =
      some ⟨chunk.payload, chunk.runId, chunk.eventSequence, row.fingerprint⟩ := by
    simp only [storedChunk, hchunk, hrow]
  have hsame : ¬ (chunk.payload ≠ chunk.payload ∨ row.fingerprint ≠ fingerprint frame) := by
    rintro (hne | hne)
    · exact hne rfl
    · exact hne hstamp
  have hfilled : ¬ isBlank attemptId = true := by
    rw [hattempt]
    exact Bool.false_ne_true
  unfold SqliteInteractionStore.appendOutput
  simp only [hvalid, wp_bind, wp_attempt]
  refine ⟨fun _ _ => ?_, fun _ h => by cases h⟩
  simp only [if_neg hfilled, outputChunk, wp_bind, wp_attempt, wp_read, wp_pure, hoffset]
  refine ⟨fun offset heq => ?_, fun _ h => by cases h⟩
  obtain rfl : byteOffset = offset := Except.ok.inj heq
  simp only [hstored, if_neg hsame, eventAt, wp_bind, wp_attempt, wp_read, hsequence]
  refine ⟨fun sequence heq => ?_, fun _ h => by cases h⟩
  obtain rfl : chunk.eventSequence = sequence := Except.ok.inj heq
  simp only [hrow]
  exact ⟨rfl, rfl⟩

/-- An output at the place of a stored chunk, under whatever key: it repeats the chunk and is answered with the event of
the chunk, or it fails. -/
structure Decides (database : InteractionDatabase) (chunk : ChunkRow) (row : EventRow) (payload : List UInt8)
    (frame : ProducerEvent) (call : InteractionCall) : Prop where
  same : call.Valid → payload = chunk.payload → fingerprint frame = row.fingerprint →
    call.execute database = (database, .ok ⟨.duplicate row.envelope, 0⟩)
  other : ¬ (call.Valid ∧ payload = chunk.payload ∧ fingerprint frame = row.fingerprint) →
    ∃ error, call.execute database = (database, .error error)

theorem Sound.decides (hs : Sound database) {attemptId : String} {stream : Int} {byteOffset : Nat} {chunk : ChunkRow}
    (hchunk : database.chunks.find (attemptId, stream, byteOffset) = some chunk)
    (hrow : database.events.find (chunk.runId, chunk.eventSequence) = some row) (dedupKey : String)
    (payload : List UInt8) (frame : ProducerEvent) : Decides database chunk row payload frame
      (.appendOutput dedupKey attemptId stream byteOffset payload frame) where
  same := by
    rintro ⟨hinput, hattempt, hlt⟩ rfl hstamp
    exact run_eq (appendOutput_again hs hinput hattempt hlt hchunk hrow hstamp.symm)
  other := by
    intro hother
    rcases InteractionCall.execute_cases hs (.appendOutput dedupKey attemptId stream byteOffset payload frame) with
      ⟨result, -, hvalid, hserved⟩ | ⟨error, herror, hsame⟩
    · have hagrees := hserved.agrees hs
      simp only [InteractionCall.Conflicts, hchunk, not_or, not_exists, not_and, not_not] at hagrees
      exact absurd ⟨hvalid, hagrees.1.symm, (hagrees.2 row hrow).symm⟩ hother
    · exact ⟨error, Prod.ext hsame herror⟩

theorem Replays.duplicate (hs : Sound database) (h : Replays call' call) (hvalid : call.Valid)
    (hsettled : Settled database call result) :
    call'.execute database = (database, .ok ⟨.duplicate result.outcome.envelope, 0⟩) := by
  apply run_eq
  cases h with
  | append dedupKey h =>
    obtain ⟨row, hrow, hrun, hkey, hstamp, henvelope⟩ := hsettled
    have hrun' := hrun.trans (congrArg EventFingerprint.runId h).symm
    simp only [InteractionCall.transaction, wp_bind, wp_pure]
    refine wp_mono (append_again hs (validateInput_congr h hvalid) hrow hrun' hkey (hstamp.trans h.symm)) ?_
      fun _ _ h => h.elim
    rintro _ _ ⟨rfl, rfl⟩
    rw [henvelope]
    exact ⟨rfl, rfl⟩
  | appendOutput dedupKey attemptId stream byteOffset payload h =>
    obtain ⟨chunk, row, hchunk, rfl, hrow, hstamp, henvelope⟩ := hsettled
    obtain ⟨hinput, hattempt, hlt⟩ := hvalid
    rw [← henvelope]
    exact appendOutput_again hs (validateInput_congr h hinput) hattempt hlt hchunk hrow (hstamp.trans h.symm)

end calls

section runs

variable {log : List InteractionEvent} {e : InteractionEvent}

theorem InteractionStep.cases (hs : Sound database) (h : InteractionStep database e database') :
    e.before = database ∧ ((∃ result, e.reply = .ok result ∧ e.call.Valid ∧ Served database e.call result database') ∨
      ∃ error, e.reply = .error error ∧ database' = database) := by
  cases h with
  | ran call => exact ⟨rfl, call.execute_cases hs⟩
  | failed call detail => exact ⟨rfl, .inr ⟨_, rfl, rfl⟩⟩

theorem InteractionStep.sound (hs : Sound database) (h : InteractionStep database e database') : Sound database' := by
  rcases (h.cases hs).2 with ⟨_, -, -, hserved⟩ | ⟨_, -, rfl⟩
  · exact hs.served hserved
  · exact hs

theorem InteractionStep.grows (hs : Sound database) (h : InteractionStep database e database') :
    Grows database database' := by
  rcases (h.cases hs).2 with ⟨_, -, -, hserved⟩ | ⟨_, -, rfl⟩
  · exact hserved.grows
  · exact .refl

theorem InteractionRun.sound (hs : Sound database) (h : InteractionRun database log database') : Sound database' := by
  induction h with
  | start => exact hs
  | step _ hstep ih => exact hstep.sound ih

structure Answered (database : InteractionDatabase) (e : InteractionEvent) (result : OutputAppend) : Prop where
  valid : e.call.Valid
  settled : Settled database e.call result
  filed : ¬ e.call.Borrows e.before → Filed database e.call result

theorem Answered.grows (h : Answered database e result) (hg : Grows database database') : Answered database' e result :=
  ⟨h.valid, h.settled.grows hg, fun hb => (h.filed hb).grows hg⟩

theorem InteractionRun.answered (hs : Sound database) (h : InteractionRun database log database') (he : e ∈ log)
    (hok : e.reply = .ok result) : Answered database' e result := by
  induction h with
  | start => cases he
  | step hrun hstep ih =>
    have hs' := hrun.sound hs
    rcases List.mem_append.mp he with hearlier | hlast
    · exact (ih hearlier).grows (hstep.grows hs')
    · obtain rfl := List.mem_singleton.mp hlast
      obtain ⟨hbefore, hcases⟩ := hstep.cases hs'
      rcases hcases with ⟨result', hreply, hvalid, hserved⟩ | ⟨error, hreply, -⟩
      · rw [hreply] at hok
        cases hok
        rw [← hbefore] at hs' hserved
        exact ⟨hvalid, hserved.settled hs', hserved.filed hs'⟩
      · rw [hreply] at hok
        cases hok

theorem Served.gap (h : Served database call result database') (hchunks : database'.chunks ≠ database.chunks) :
    ∃ dedupKey attemptId stream byteOffset payload frame,
      call = .appendOutput dedupKey attemptId stream byteOffset payload frame ∧
      streamEnd database attemptId stream + result.missingBytesBefore = byteOffset ∧
      ∃ sequence, database'.chunks.rows =
        database.chunks.rows ++ [⟨attemptId, stream, byteOffset, payload, frame.runId, sequence⟩] := by
  cases h with
  | event h => exact absurd h.chunks.1 hchunks
  | repeated => exact absurd rfl hchunks
  | @chunk dedupKey frame outcome database₁ attemptId stream byteOffset payload hnone hend happended =>
    refine ⟨dedupKey, attemptId, stream, byteOffset, payload, frame, rfl, Nat.add_sub_of_le hend,
      outcome.envelope.sequence, ?_⟩
    have habsent : database₁.chunks.find (attemptId, stream, byteOffset) = none := by
      rw [happended.chunks.1]
      exact hnone
    rw [← happended.chunks.1]
    exact Table.insertOrIgnore_absent habsent

end runs

/-- What the store guarantees over all sequences of calls. A call with an earlier key is answered with the event of
that key, unless it names a stored chunk of another; a call that names a stored chunk is decided by the chunk. -/
theorem interaction_log_contract {log : List InteractionEvent} (h : InteractionRun .empty log database) :
    (∀ runId, (SqliteInteractionStore.events database runId).map EventEnvelope.sequence =
        List.range' 1 (rowsOf database runId).length ∧
      SqliteInteractionStore.events database runId = (rowsOf database runId).map EventRow.envelope) ∧
    (∀ e ∈ log, ∀ e' ∈ log, ∀ result result', e.reply = .ok result → e'.reply = .ok result' →
      ¬ e.call.Borrows e.before → ¬ e'.call.Borrows e'.before →
      e.call.frame.runId = e'.call.frame.runId → e.call.dedupKey = e'.call.dedupKey →
      ∃ row ∈ database.events.rows, row.envelope = result.outcome.envelope ∧ row.envelope = result'.outcome.envelope ∧
        ∀ other ∈ database.events.rows, other.runId = e.call.frame.runId ∧ other.dedupKey = e.call.dedupKey ↔
        other = row) ∧
    (∀ e database', InteractionStep database e database' → Grows database database' ∧
      (e.call.Conflicts database → ∃ error, e.reply = .error error) ∧
      (∀ error, e.reply = .error error → database' = database) ∧
      ∀ result, e.reply = .ok result → database'.chunks ≠ database.chunks →
        ∃ dedupKey attemptId stream byteOffset payload frame,
          e.call = .appendOutput dedupKey attemptId stream byteOffset payload frame ∧
          streamEnd database attemptId stream + result.missingBytesBefore = byteOffset ∧
          ∃ sequence, database'.chunks.rows =
            database.chunks.rows ++ [⟨attemptId, stream, byteOffset, payload, frame.runId, sequence⟩]) ∧
    (∀ attemptId stream, (chunksOf database attemptId stream).Pairwise fun u v =>
      u.byteOffset < v.byteOffset ∧ u.endOffset ≤ v.byteOffset) ∧
    (∀ attemptId stream byteOffset chunk, database.chunks.find (attemptId, stream, byteOffset) = some chunk →
      ∃ row, database.events.find (chunk.runId, chunk.eventSequence) = some row ∧ ∀ dedupKey payload frame,
        Decides database chunk row payload frame
          (.appendOutput dedupKey attemptId stream byteOffset payload frame)) ∧
    ∀ e ∈ log, ∀ result, e.reply = .ok result → ∀ call', Replays call' e.call →
      call'.execute database = (database, .ok ⟨.duplicate result.outcome.envelope, 0⟩) := by
  have hs : Sound database := h.sound .empty
  refine ⟨fun runId => ?_, fun e he e' he' result result' hok hok' hb hb' hrun hkey => ?_, fun e database' hstep => ?_,
    hs.ordered, fun attemptId stream byteOffset chunk hchunk => ?_, fun e he result hok call' hreplays => ?_⟩
  · have hevents : SqliteInteractionStore.events database runId = (rowsOf database runId).map EventRow.envelope := by
      rw [SqliteInteractionStore.events, hs.eventsOf_eq]
    refine ⟨?_, hevents⟩
    rw [hevents, List.map_map, ← hs.numbered]
    apply List.map_congr_left
    intro row hrow
    exact (hs.labelled row (List.mem_filter.mp hrow).1).2.1
  · obtain ⟨row, hrow, hrun₁, hkey₁, -, henvelope₁⟩ := (h.answered .empty he hok).filed hb
    obtain ⟨row', hrow', hrun₂, hkey₂, -, henvelope₂⟩ := (h.answered .empty he' hok').filed hb'
    obtain rfl : row = row' := hs.keyed row hrow row' hrow' (hrun₁.trans (hrun.trans hrun₂.symm))
      (hkey₁.trans (hkey.trans hkey₂.symm))
    refine ⟨row, hrow, henvelope₁, henvelope₂, fun other hother => ⟨fun hsame => ?_, fun heq => ?_⟩⟩
    · exact hs.keyed other hother row hrow (hsame.1.trans hrun₁.symm) (hsame.2.trans hkey₁.symm)
    · rw [heq]
      exact ⟨hrun₁, hkey₁⟩
  · refine ⟨hstep.grows hs, fun hc => ?_, fun error herror => ?_, fun result hok hchunks => ?_⟩
    · rcases (hstep.cases hs).2 with ⟨result, -, -, hserved⟩ | ⟨error, herror, -⟩
      · exact absurd hc (hserved.agrees hs)
      · exact ⟨error, herror⟩
    · rcases (hstep.cases hs).2 with ⟨result, hok, -, -⟩ | ⟨_, -, hsame⟩
      · rw [hok] at herror
        cases herror
      · exact hsame
    · rcases (hstep.cases hs).2 with ⟨result', hreply, -, hserved⟩ | ⟨_, hreply, -⟩
      · rw [hreply] at hok
        cases hok
        exact hserved.gap hchunks
      · rw [hreply] at hok
        cases hok
  · obtain ⟨row, hrow⟩ := Option.ne_none_iff_exists'.mp (hs.correlated chunk (Table.find_eq_some.mp hchunk).1)
    exact ⟨row, hrow, hs.decides hchunk hrow⟩
  · have hanswered := h.answered .empty he hok
    exact hreplays.duplicate hs hanswered.valid hanswered.settled

section samples

def sampleFrame : ProducerEvent :=
  .new "run" ⟨"controller", "server"⟩ 1 (.commandOutput .stdout 0 "x" false)

def firstOutput : InteractionCall := .appendOutput "output:0" "attempt" 1 0 [120] sampleFrame

def secondOutput : InteractionCall := .appendOutput "output:again" "attempt" 1 0 [120] sampleFrame

def executeAll (database : InteractionDatabase) : List InteractionCall → InteractionDatabase
  | [] => database
  | call :: calls => executeAll (call.execute database).1 calls

theorem InteractionRun.executeAll {start : InteractionDatabase} {log : List InteractionEvent}
    (calls : List InteractionCall)
    (h : InteractionRun start log database) : ∃ log, InteractionRun start log (executeAll database calls) := by
  induction calls generalizing log database with
  | nil => exact ⟨log, h⟩
  | cons call calls ih => exact ih (h.step (.ran call))

theorem interaction_log_contract_sample :
    (SqliteInteractionStore.events (executeAll .empty [firstOutput, secondOutput]) "run").map EventEnvelope.sequence =
      List.range' 1 (rowsOf (executeAll .empty [firstOutput, secondOutput]) "run").length := by
  obtain ⟨log, hrun⟩ := (@InteractionRun.start .empty).executeAll [firstOutput, secondOutput]
  exact ((interaction_log_contract hrun).1 "run").1

def returned : Except InteractionError OutputAppend → Option Nat
  | .ok result => some result.outcome.envelope.sequence
  | .error _ => none

theorem returned_some {reply : Except InteractionError OutputAppend} {sequence : Nat}
    (h : returned reply = some sequence) :
    ∃ result, reply = .ok result ∧ result.outcome.envelope.sequence = sequence := by
  cases reply with
  | error e => cases h
  | ok result => exact ⟨result, rfl, Option.some.inj h⟩

/-- A key that was only ever given with a stored chunk gets an event of its own later. -/
theorem repeated_output_ignores_key :
    ¬ ∀ log database, InteractionRun .empty log database → ∀ e ∈ log, ∀ e' ∈ log, ∀ result result',
      e.reply = .ok result → e'.reply = .ok result' → e.call.frame.runId = e'.call.frame.runId →
      e.call.dedupKey = e'.call.dedupKey → fingerprint e.call.frame = fingerprint e'.call.frame →
      result.outcome.envelope = result'.outcome.envelope := by
  intro hsame
  let third : InteractionCall := .append "output:again" sampleFrame
  let one := (firstOutput.execute .empty).1
  let two := (secondOutput.execute one).1
  have hrun : InteractionRun .empty _ _ := .step (.step (.step .start (.ran firstOutput)) (.ran secondOutput))
    (.ran third)
  obtain ⟨result, hok, hfirst⟩ := returned_some (show returned (secondOutput.execute one).2 = some 1 by decide)
  obtain ⟨result', hok', hsecond⟩ := returned_some (show returned (third.execute two).2 = some 2 by decide)
  have henvelope := hsame _ _ hrun ⟨one, secondOutput, _⟩ (by simp [one]) ⟨two, third, _⟩
    (by simp [one, two]) result result' hok hok' rfl rfl rfl
  rw [henvelope, hsecond] at hfirst
  cases hfirst

end samples

end AlloyPort.Interaction
