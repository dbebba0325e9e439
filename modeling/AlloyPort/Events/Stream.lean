import Mathlib.Data.List.Induction
import AlloyPort.Events.Record

/-! Which streams a client can replay: every event may follow those before it, as the run and its operations stand. -/

namespace AlloyPort.Events

open Database Transaction RunReducer

def Event.isTerminal : Event → Bool
  | .runCompleted _ | .runFailed _ => true
  | _ => false

def Ended (stream : List EventEnvelope) : Prop := ∃ envelope ∈ stream, envelope.event.isTerminal = true

variable {runId id : String} {stream : List EventEnvelope} {envelope : EventEnvelope} {reducer : RunReducer}

section stream

theorem ended_append : Ended (stream ++ [envelope]) ↔ Ended stream ∨ envelope.event.isTerminal = true := by
  simp [Ended, or_and_right, exists_or]

end stream

section acceptance

/-- The kind of the operation that the stream has opened under the identity and not closed since. -/
def openOf (stream : List EventEnvelope) (id : String) : Option OperationKind :=
  stream.foldl (fun open_ envelope =>
    if envelope.operationId = some id then
      match envelope.event.lifecycle with
      | .opens kind => some kind
      | .closes _ => none
      | _ => open_
    else open_) none

def Told (stream : List EventEnvelope) (envelope : EventEnvelope) : Prop :=
  match envelope.event.lifecycle with
  | .starts => stream = []
  | .ends => stream ≠ [] ∧ ∀ id, openOf stream id = none
  | .opens _ => stream ≠ [] ∧ ∃ id, envelope.operationId = some id ∧ openOf stream id = none
  | .uses kind | .closes kind => stream ≠ [] ∧ ∃ id, envelope.operationId = some id ∧ openOf stream id = some kind
  | .plain => stream ≠ []

structure Follows (stream : List EventEnvelope) (envelope : EventEnvelope) : Prop where
  schema : envelope.schemaVersion = SCHEMA_VERSION
  sequence : envelope.sequence = min (stream.length + 1) (2 ^ 64 - 1)
  run : ∀ runId ∈ stream.getLast?.map EventEnvelope.runId, runId = envelope.runId
  unended : ¬ Ended stream
  told : Told stream envelope

def WellFormed (stream : List EventEnvelope) : Prop :=
  ∀ before envelope, before ++ [envelope] <+: stream → Follows before envelope

theorem wellFormed_append : WellFormed (stream ++ [envelope]) ↔ WellFormed stream ∧ Follows stream envelope := by
  constructor
  · intro h
    exact ⟨fun before other hbefore => h before other (hbefore.trans (List.prefix_append _ _)), h _ _ List.prefix_rfl⟩
  · intro ⟨h, hlast⟩ before other hbefore
    rcases List.prefix_concat_iff.mp hbefore with heq | hbefore
    · simp only [List.append_inj_left' heq rfl, List.singleton_inj.mp (List.append_inj_right' heq rfl), hlast]
    · exact h before other hbefore

structure Shows (stream : List EventEnvelope) (reducer : RunReducer) : Prop where
  started : reducer.started = true ↔ stream ≠ []
  terminal : reducer.terminal = true ↔ Ended stream
  active : ∀ id, reducer.activeOperations.find id = (openOf stream id).map (⟨id, ·⟩)

def SameLabel (reducer reducer' : RunReducer) : Prop :=
  reducer'.runId = reducer.runId ∧ reducer'.nextSequence = reducer.nextSequence

theorem openOf_append : openOf (stream ++ [envelope]) id = if envelope.operationId = some id then
    match envelope.event.lifecycle with
    | .opens kind => some kind
    | .closes _ => none
    | _ => openOf stream id
    else openOf stream id := by
  simp [openOf]

theorem isTerminal_iff (event : Event) : event.isTerminal = true ↔ event.lifecycle = .ends := by
  cases event <;> simp [Event.isTerminal, Event.lifecycle]

theorem Shows.rows_eq_nil_iff (h : Shows stream reducer) :
    reducer.activeOperations.rows = [] ↔ ∀ id, openOf stream id = none := by
  have hnone : ∀ id, openOf stream id = none ↔ ∀ v ∈ reducer.activeOperations.rows, v.id ≠ id := by
    intro id
    rw [← Table.find_eq_none, h.active, Option.map_eq_none_iff]
  simp only [hnone, List.eq_nil_iff_forall_not_mem]
  exact ⟨fun h _ v hv => absurd hv (h v), fun h v hv => h v.id v hv rfl⟩

theorem shows_append {reducer' : RunReducer} (hopen : ¬ Ended stream)
    (hstarted : reducer'.started = true) (hterminal : reducer'.terminal = true ↔ envelope.event.lifecycle = .ends)
    (hactive : ∀ id, reducer'.activeOperations.find id = (openOf (stream ++ [envelope]) id).map (⟨id, ·⟩)) :
    Shows (stream ++ [envelope]) reducer' :=
  ⟨by simp [hstarted], by simp [hterminal, ended_append, hopen, isTerminal_iff], hactive⟩

theorem Shows.applyEvent (h : Shows stream reducer) (hopen : ¬ Ended stream)
    (hstart : stream ≠ [] ∨ envelope.event.lifecycle = .starts) (hfirst : stream = [] → envelope.sequence = 1) :
    (applyEvent envelope).wp reducer
      (fun _ reducer' => Told stream envelope ∧ SameLabel reducer reducer' ∧ Shows (stream ++ [envelope]) reducer')
      fun _ _ => ¬ Told stream envelope := by
  have hterminal : reducer.terminal = false := by simpa using mt h.terminal.mp hopen
  rw [applyEvent_eq]
  unfold Told
  cases hlife : envelope.event.lifecycle with
  | starts =>
    by_cases hnil : stream = []
    · have hidle : reducer.started = false := by simpa [hnil] using h.started
      simp only [startRun, wp_bind, wp_read, hidle, hfirst hnil]
      refine ⟨hnil, ⟨rfl, rfl⟩, shows_append hopen rfl (by simp [hterminal, hlife]) fun id => ?_⟩
      rw [h.active, openOf_append, hlife]
      simp
    · simp [startRun, h.started.mpr hnil, hnil]
  | ends =>
    have hne : stream ≠ [] := by simpa [hlife] using hstart
    simp only [endRun, wp_bind, wp_read, h.started.mpr hne]
    by_cases hclosed : ∀ id, openOf stream id = none
    · simp only [h.rows_eq_nil_iff.mpr hclosed]
      refine ⟨⟨hne, hclosed⟩, ⟨rfl, rfl⟩, shows_append hopen (h.started.mpr hne) (by simp [hlife]) fun id => ?_⟩
      rw [h.active, openOf_append, hlife]
      simp
    · simp [hclosed, h.rows_eq_nil_iff]
  | plain =>
    have hne : stream ≠ [] := by simpa [hlife] using hstart
    refine ⟨hne, ⟨rfl, rfl⟩, shows_append hopen (h.started.mpr hne) (by simp [hterminal, hlife]) fun id => ?_⟩
    rw [h.active, openOf_append, hlife]
    simp
  | opens kind =>
    have hne : stream ≠ [] := by simpa [hlife] using hstart
    rw [startOperation_wp_iff]
    cases hid : envelope.operationId with
    | none => simp
    | some id =>
      simp only [h.active]
      cases hfind : openOf stream id with
      | some other => simp [hfind]
      | none =>
        refine ⟨⟨hne, id, rfl, hfind⟩, ⟨rfl, rfl⟩, shows_append hopen (h.started.mpr hne) ?_ fun other => ?_⟩
        · simp [hterminal, hlife, RunReducer.entered]
        · rw [openOf_append, hlife, hid, RunReducer.entered]
          by_cases hother : other = id
          · subst hother
            have hinsert := @Table.find_insertOrIgnore _ _ ActiveOperation.id _ reducer.activeOperations ⟨other, kind⟩
            simp [Table.find_update_self, hinsert, h.active, hfind, setKind]
          · rw [Table.find_update_ne hother, Table.find_insertOrIgnore_ne (Ne.symm hother), h.active]
            simp [Ne.symm hother]
  | uses kind =>
    have hne : stream ≠ [] := by simpa [hlife] using hstart
    rw [requireOperation_wp_iff]
    cases hid : envelope.operationId with
    | none => simp
    | some id =>
      by_cases hfind : openOf stream id = some kind
      · simp only [h.active, hfind, Option.map_some, if_true]
        refine ⟨⟨hne, id, rfl, hfind⟩, ⟨rfl, rfl⟩, shows_append hopen (h.started.mpr hne) ?_ fun id => ?_⟩
        · simp [hterminal, hlife]
        · rw [h.active, openOf_append, hlife]
          simp
      · simp [h.active, hfind]
  | closes kind =>
    have hne : stream ≠ [] := by simpa [hlife] using hstart
    simp only [finishOperation, wp_bind, requireOperation_wp_iff]
    cases hid : envelope.operationId with
    | none => simp
    | some id =>
      by_cases hfind : openOf stream id = some kind
      · have hok : operationId envelope = .ok id := by simp [operationId, hid]
        simp only [h.active, hfind, Option.map_some, if_true, hok, wp_attempt, wp_write]
        refine ⟨fun same hsame => ?_, fun _ he => by cases he⟩
        cases hsame
        refine ⟨⟨hne, id, rfl, hfind⟩, ⟨rfl, rfl⟩, shows_append hopen (h.started.mpr hne) ?_ fun other => ?_⟩
        · simp [hterminal, hlife]
        · rw [Table.find_deleteWhere, h.active, openOf_append, hlife, hid]
          by_cases hother : id = other
          · subst hother
            simp [hfind]
          · cases hopened : openOf stream other <;> simp [hother, Ne.symm hother]
      · simp [h.active, hfind]

structure Matches (stream : List EventEnvelope) (reducer : RunReducer) : Prop extends Shows stream reducer where
  run : reducer.runId = stream.getLast?.map EventEnvelope.runId
  sequence : reducer.nextSequence = min (stream.length + 1) (2 ^ 64 - 1)

theorem Shows.applyOpen (h : Shows stream reducer) (hrun : reducer.runId = some envelope.runId)
    (hcount : reducer.nextSequence = min (stream.length + 1) (2 ^ 64 - 1))
    (hfollows : Told stream envelope → ¬ Ended stream → Follows stream envelope)
    (hfirst : stream = [] → envelope.sequence = 1) :
    (applyOpen reducer.terminal reducer.started envelope).wp reducer
      (fun _ reducer' => Follows stream envelope ∧ Matches (stream ++ [envelope]) reducer')
      fun _ _ => ¬ Follows stream envelope := by
  unfold RunReducer.applyOpen
  by_cases hended : Ended stream
  · rw [if_pos (h.terminal.mpr hended)]
    exact fun hf => hf.unended hended
  · rw [if_neg (mt h.terminal.mp hended)]
    by_cases hstart : reducer.started = false ∧ envelope.event.isRunStarted = false
    · rw [if_pos hstart]
      intro hf
      have hnil : stream = [] := by simpa [hstart.1] using h.started
      have hother : envelope.event.lifecycle ≠ .starts := by simp [← isRunStarted_iff, hstart.2]
      have htold := hf.told
      unfold Told at htold
      cases hlife : envelope.event.lifecycle with
      | starts => exact hother hlife
      | _ => simp [hlife, hnil] at htold
    · rw [if_neg hstart, wp_bind]
      have hbegun : stream ≠ [] ∨ envelope.event.lifecycle = .starts := by
        rw [← h.started, ← isRunStarted_iff]
        simpa [or_iff_not_imp_left] using hstart
      refine wp_mono (h.applyEvent hended hbegun hfirst) (fun _ reducer' hd => ?_) fun _ _ hnot hf => hnot hf.told
      obtain ⟨htold, ⟨hrun', hcount'⟩, hs⟩ := hd
      refine ⟨hfollows htold hended, ⟨hs.started, hs.terminal, hs.active⟩, ?_, ?_⟩
      · simp [hrun', hrun]
      · simp only [hcount', hcount, List.length_append, List.length_singleton]
        omega

theorem Matches.apply (h : Matches stream reducer) : (apply envelope).wp reducer
    (fun _ reducer' => Follows stream envelope ∧ Matches (stream ++ [envelope]) reducer')
    fun _ _ => ¬ Follows stream envelope := by
  by_cases hschema : envelope.schemaVersion = SCHEMA_VERSION
  · by_cases hsequence : envelope.sequence = reducer.nextSequence
    · rw [apply_wp_iff ⟨hschema, hsequence⟩, h.run]
      have hplace := hsequence.trans h.sequence
      have hfirst : stream = [] → envelope.sequence = 1 := fun hnil => by simp [hplace, hnil]
      cases hlast : stream.getLast?.map EventEnvelope.runId with
      | none =>
        have hs : Shows stream (reducer.adopted envelope) := ⟨h.started, h.terminal, h.active⟩
        exact hs.applyOpen rfl h.sequence (fun ht hu => ⟨hschema, hplace, by simp [hlast], hu, ht⟩) hfirst
      | some runId =>
        by_cases hrun : runId = envelope.runId
        · simp only [hrun, ne_eq, not_true_eq_false, if_false]
          rw [hrun] at hlast
          refine h.toShows.applyOpen (h.run.trans hlast) h.sequence (fun ht hu => ⟨hschema, hplace, ?_, hu, ht⟩) hfirst
          simp [hlast]
        · have hnot : ¬ Follows stream envelope := fun hf => hrun (hf.run runId hlast)
          simp [hrun, hnot]
    · have hnot : ¬ Follows stream envelope := fun hf => hsequence (hf.sequence.trans h.sequence.symm)
      simp [RunReducer.apply, hschema, hsequence, hnot]
  · have hnot : ¬ Follows stream envelope := fun hf => hschema hf.schema
    simp [RunReducer.apply, hschema, hnot]

theorem replay_matches : (replay stream).wp .new (fun _ reducer => WellFormed stream ∧ Matches stream reducer)
    fun _ _ => ¬ WellFormed stream := by
  induction stream using List.reverseRecOn with
  | nil =>
    exact ⟨fun _ _ h => by simp at h, ⟨by simp [RunReducer.new], by simp [RunReducer.new, Ended], fun _ => rfl⟩, rfl, rfl⟩
  | append_singleton stream envelope ih =>
    rw [replay, wp_forEach_append]
    simp only [wellFormed_append]
    refine wp_mono ih (fun _ reducer h => ?_) fun _ _ hnot h => hnot h.1
    exact wp_mono h.2.apply (fun _ _ hf => ⟨⟨h.1, hf.1⟩, hf.2⟩) fun _ _ hnot hf => hnot hf.2

end acceptance

theorem WellFormed.replays (h : WellFormed stream) : Replays stream := by
  have hwp := @replay_matches stream
  unfold Transaction.wp at hwp
  unfold Replays
  split at hwp
  · rename_i heq
    rw [heq]
  · exact absurd h hwp

/-- A client accepts the stream of a run just where every event may follow those before it. -/
theorem replays_iff_wellFormed (stream : List EventEnvelope) : Replays stream ↔ WellFormed stream := by
  constructor
  · intro h
    exact (wp_ok replay_matches (Prod.ext h rfl)).1
  · exact WellFormed.replays

end AlloyPort.Events
