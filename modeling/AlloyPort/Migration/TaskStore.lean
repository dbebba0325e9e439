import Mathlib.Data.List.Sort
import AlloyPort.Identity
import AlloyPort.Library.Table
import AlloyPort.Library.Transaction
import AlloyPort.Library.SharedStore

/-! The store of the migrations that users have submitted. Digests stand in the table themselves, their text form
being injective. -/

namespace AlloyPort.Migration

open Database Transaction

inductive MigrationTaskState where
  | captured
  | running
  | completed
  | failed
  | cancelled
  deriving DecidableEq

structure MigrationTaskRecord where
  ownerId : String
  taskId : String
  projectName : String
  projectDigest : Sha256Digest
  projectSizeBytes : Nat
  fileCount : Nat
  state : MigrationTaskState
  createdAtMs : Nat
  deriving DecidableEq

structure MigrationTaskSubmission where
  ownerId : String
  requestId : String
  taskId : String
  projectName : String
  projectDigest : Sha256Digest
  projectSizeBytes : Nat
  fileCount : Nat
  createdAtMs : Nat

inductive MigrationTaskError where
  | storage (detail : String)
  | conflict
  | notFound
  | corrupt (detail : String)

structure TaskRow where
  taskId : String
  ownerId : String
  requestId : String
  projectName : String
  projectDigest : Sha256Digest
  projectSizeBytes : Nat
  fileCount : Nat
  state : MigrationTaskState
  createdAtMs : Nat

abbrev TaskTable := Table TaskRow TaskRow.taskId

abbrev TaskTransaction := Transaction TaskTable MigrationTaskError

def rowToRecord (row : TaskRow) : MigrationTaskRecord where
  ownerId := ""
  taskId := row.taskId
  projectName := row.projectName
  projectDigest := row.projectDigest
  projectSizeBytes := row.projectSizeBytes
  fileCount := row.fileCount
  state := row.state
  createdAtMs := row.createdAtMs

def rowToClaimedRecord (row : TaskRow) : MigrationTaskRecord := { rowToRecord row with ownerId := row.ownerId }

def toI64 (value : Nat) : Except MigrationTaskError Nat :=
  if value < 2 ^ 63 then .ok value else .error (.corrupt "integer overflow")

def selectByRequest (tasks : TaskTable) (ownerId requestId : String) : Option MigrationTaskRecord :=
  (tasks.rows.find? fun row => row.ownerId = ownerId ∧ row.requestId = requestId).map rowToRecord

def selectById (tasks : TaskTable) (ownerId taskId : String) : Option MigrationTaskRecord :=
  (tasks.rows.find? fun row => row.ownerId = ownerId ∧ row.taskId = taskId).map rowToRecord

/-- `UPDATE … SET state` for the rows that pass a test. -/
def setState (test : TaskRow → Bool) (state : MigrationTaskState) : RowUpdate TaskRow.taskId where
  apply row := if test row then { row with state } else row
  keeps row := by
    by_cases h : test row = true
    · simp only [if_pos h]
    · simp only [if_neg h]

def MigrationTaskState.isOpen : MigrationTaskState → Bool
  | .captured | .running => true
  | .completed | .failed | .cancelled => false

def insertTask (row : TaskRow) : TaskTransaction Unit := do
  let tasks ← read
  if tasks.rows.any fun other =>
      other.taskId = row.taskId ∨ other.ownerId = row.ownerId ∧ other.requestId = row.requestId then
    raise (.storage "UNIQUE constraint failed: migration_tasks")
  else write fun tasks => tasks.insertOrIgnore row

/-- `ORDER BY` of the queue: tasks left running come first, then the oldest. -/
def Precedes (u v : TaskRow) : Prop :=
  let rank := fun row : TaskRow => if row.state = .running then 0 else 1
  rank u < rank v ∨
    rank u = rank v ∧ (u.createdAtMs < v.createdAtMs ∨ u.createdAtMs = v.createdAtMs ∧ ¬ v.taskId < u.taskId)

instance : DecidableRel Precedes := fun u v => by
  unfold Precedes
  infer_instance

def nextInQueue (tasks : TaskTable) : Option TaskRow :=
  ((tasks.rows.filter fun row => row.state.isOpen).insertionSort Precedes).head?

def Follows (u v : TaskRow) : Prop :=
  v.createdAtMs < u.createdAtMs ∨ u.createdAtMs = v.createdAtMs ∧ ¬ u.taskId < v.taskId

instance : DecidableRel Follows := fun u v => by
  unfold Follows
  infer_instance

namespace SqliteMigrationTaskStore

def submit (submission : MigrationTaskSubmission) : TaskTransaction MigrationTaskRecord := do
  let tasks ← read
  match selectByRequest tasks submission.ownerId submission.requestId with
  | some existing =>
    if existing.taskId = submission.taskId ∧ existing.projectName = submission.projectName ∧
        existing.projectDigest = submission.projectDigest ∧ existing.projectSizeBytes = submission.projectSizeBytes ∧
        existing.fileCount = submission.fileCount then return existing
    else raise .conflict
  | none => do
    let size ← attempt (toI64 submission.projectSizeBytes)
    let count ← attempt (toI64 submission.fileCount)
    let createdAt ← attempt (toI64 submission.createdAtMs)
    insertTask
      { taskId := submission.taskId, ownerId := submission.ownerId, requestId := submission.requestId,
        projectName := submission.projectName, projectDigest := submission.projectDigest, projectSizeBytes := size,
        fileCount := count, state := .captured, createdAtMs := createdAt }
    let tasks ← read
    match selectById tasks submission.ownerId submission.taskId with
    | none => raise (.corrupt "inserted row is absent")
    | some record => return record

def get (ownerId taskId : String) : TaskTransaction MigrationTaskRecord := do
  let tasks ← read
  match selectById tasks ownerId taskId with
  | none => raise .notFound
  | some record => return record

def list (ownerId : String) (limit : Nat) : TaskTransaction (List MigrationTaskRecord) := do
  let tasks ← read
  let count ← attempt (toI64 limit)
  return (((tasks.rows.filter fun row => row.ownerId = ownerId).insertionSort Follows).take count).map rowToRecord

def cancel (ownerId taskId : String) : TaskTransaction MigrationTaskRecord := do
  write fun tasks => tasks.update taskId (setState (fun row => row.ownerId = ownerId ∧ row.state.isOpen) .cancelled)
  get ownerId taskId

def claimNext : TaskTransaction (Option MigrationTaskRecord) := do
  let tasks ← read
  match nextInQueue tasks with
  | none => return none
  | some row =>
    if row.state = .captured then do
      write fun tasks => tasks.update row.taskId (setState (fun row => row.state = .captured) .running)
      return some { rowToClaimedRecord row with state := .running }
    else return some (rowToClaimedRecord row)

def finish (taskId : String) (state : MigrationTaskState) : TaskTransaction Unit :=
  if state = .completed ∨ state = .failed then
    write fun tasks => tasks.update taskId (setState (fun row => row.state = .running) state)
  else raise (.corrupt "finish requires a completed or failed state")

def resume (ownerId taskId : String) : TaskTransaction MigrationTaskRecord := do
  let tasks ← read
  write fun tasks => tasks.update taskId (setState (fun row => row.ownerId = ownerId ∧ row.state = .failed) .captured)
  if tasks.rows.any fun row => row.taskId = taskId ∧ row.ownerId = ownerId ∧ row.state = .failed then get ownerId taskId
  else raise (.corrupt "only a failed migration can be resumed")

def isCancelled (taskId : String) : TaskTransaction Bool := do
  let tasks ← read
  match tasks.find taskId with
  | none => raise .notFound
  | some row => return row.state = .cancelled

end SqliteMigrationTaskStore

inductive TaskCall where
  | submit (submission : MigrationTaskSubmission)
  | get (ownerId taskId : String)
  | list (ownerId : String) (limit : Nat)
  | cancel (ownerId taskId : String)
  | claimNext
  | finish (taskId : String) (state : MigrationTaskState)
  | resume (ownerId taskId : String)
  | isCancelled (taskId : String)

def TaskCall.Result : TaskCall → Type
  | .submit _ | .get _ _ | .cancel _ _ | .resume _ _ => MigrationTaskRecord
  | .list _ _ => List MigrationTaskRecord
  | .claimNext => Option MigrationTaskRecord
  | .finish _ _ => Unit
  | .isCancelled _ => Bool

abbrev TaskCall.Reply (call : TaskCall) : Type := Except MigrationTaskError call.Result

def TaskCall.transaction : (call : TaskCall) → TaskTransaction call.Result
  | .submit submission => SqliteMigrationTaskStore.submit submission
  | .get ownerId taskId => SqliteMigrationTaskStore.get ownerId taskId
  | .list ownerId limit => SqliteMigrationTaskStore.list ownerId limit
  | .cancel ownerId taskId => SqliteMigrationTaskStore.cancel ownerId taskId
  | .claimNext => SqliteMigrationTaskStore.claimNext
  | .finish taskId state => SqliteMigrationTaskStore.finish taskId state
  | .resume ownerId taskId => SqliteMigrationTaskStore.resume ownerId taskId
  | .isCancelled taskId => SqliteMigrationTaskStore.isCancelled taskId

def TaskCall.execute (call : TaskCall) (tasks : TaskTable) : TaskTable × call.Reply := call.transaction.run tasks

inductive Storage where
  | works
  | fails (detail : String)
  | loses (detail : String)
  deriving DecidableEq

def TaskCall.perform (call : TaskCall) (storage : Storage) (tasks : TaskTable) : TaskTable × call.Reply :=
  match storage with
  | .works => call.execute tasks
  | .fails detail => (tasks, .error (.storage detail))
  | .loses detail => ((call.execute tasks).1, .error (.storage detail))

variable {tasks tasks' : TaskTable} {row : TaskRow} {id : String}

def TaskCall.Moves (call : TaskCall) (row : TaskRow) (state : MigrationTaskState) : Prop :=
  match call with
  | .cancel ownerId taskId => row.ownerId = ownerId ∧ row.taskId = taskId ∧ row.state.isOpen = true ∧ state = .cancelled
  | .claimNext => row.state = .captured ∧ state = .running
  | .finish taskId ending => row.taskId = taskId ∧ row.state = .running ∧ (ending = .completed ∨ ending = .failed) ∧
    state = ending
  | .resume ownerId taskId => row.ownerId = ownerId ∧ row.taskId = taskId ∧ row.state = .failed ∧ state = .captured
  | _ => False

def newRow (submission : MigrationTaskSubmission) : TaskRow where
  taskId := submission.taskId
  ownerId := submission.ownerId
  requestId := submission.requestId
  projectName := submission.projectName
  projectDigest := submission.projectDigest
  projectSizeBytes := submission.projectSizeBytes
  fileCount := submission.fileCount
  state := .captured
  createdAtMs := submission.createdAtMs

structure TaskCall.Effect (call : TaskCall) (tasks tasks' : TaskTable) : Prop where
  kept : ∀ id row, tasks.find id = some row →
    ∃ state, tasks'.find id = some { row with state } ∧ (state = row.state ∨ call.Moves row state)
  new : ∀ id, tasks.find id = none → tasks'.find id = none ∨
    ∃ submission, call = .submit submission ∧ submission.taskId = id ∧ tasks'.find id = some (newRow submission) ∧
      ∀ row ∈ tasks.rows, row.ownerId = submission.ownerId → row.requestId ≠ submission.requestId

section calls

open SqliteMigrationTaskStore

theorem effect_same (call : TaskCall) : call.Effect tasks tasks where
  kept _ row hrow := ⟨row.state, hrow, .inl rfl⟩
  new _ hnone := .inl hnone

theorem find_setState (taskId : String) (test : TaskRow → Bool) (state : MigrationTaskState)
    (hrow : tasks.find id = some row) :
    (tasks.update taskId (setState test state)).find id =
      some { row with state := if row.taskId = taskId ∧ test row = true then state else row.state } := by
  have happly : (setState test state).apply row = if test row then { row with state } else row := rfl
  rw [Table.find_update, hrow, Option.map_some, happly]
  by_cases hid : row.taskId = taskId
  · by_cases htest : test row = true
    · rw [if_pos hid, if_pos htest, if_pos ⟨hid, htest⟩]
    · rw [if_pos hid, if_neg htest, if_neg fun h => htest h.2]
  · rw [if_neg hid, if_neg fun h => hid h.1]

variable {taskId ownerId : String} {submission : MigrationTaskSubmission}

theorem effect_setState {call : TaskCall} {test : TaskRow → Bool} {state : MigrationTaskState}
    (h : ∀ row, tasks.find taskId = some row → test row = true → call.Moves row state) :
    call.Effect tasks (tasks.update taskId (setState test state)) where
  kept id row hrow := by
    refine ⟨_, find_setState _ _ _ hrow, ?_⟩
    by_cases hmoved : row.taskId = taskId ∧ test row = true
    · rw [if_pos hmoved]
      have hid : row.taskId = id := (Table.find_eq_some.mp hrow).2
      have hfound : tasks.find taskId = some row := by rw [← hmoved.1, hid, hrow]
      exact .inr (h row hfound hmoved.2)
    · rw [if_neg hmoved]
      exact .inl rfl
  new id hnone := by
    have hnone' : (tasks.update taskId (setState test state)).find id = none := by
      rw [Table.find_update, hnone, Option.map_none]
    exact .inl hnone'

theorem toI64_ok {value stored : Nat} (h : toI64 value = .ok stored) : stored = value := by
  unfold toI64 at h
  by_cases hv : value < 2 ^ 63
  · rw [if_pos hv] at h
    cases h
    rfl
  · rw [if_neg hv] at h
    cases h

theorem wp_insertTask {Q : Unit → TaskTable → Prop}
    (h : tasks.find row.taskId = none →
      (∀ other ∈ tasks.rows, other.ownerId = row.ownerId → other.requestId ≠ row.requestId) →
      Q () (tasks.insertOrIgnore row)) :
    (insertTask row).wp tasks Q fun _ _ => True := by
  simp only [insertTask, wp_bind, wp_read, wp_ite, wp_raise, wp_write]
  split
  · trivial
  · rename_i hfresh
    have hclear : ∀ other ∈ tasks.rows, other.taskId ≠ row.taskId ∧
        (other.ownerId = row.ownerId → other.requestId ≠ row.requestId) := by
      simpa using hfresh
    exact h (Table.find_eq_none.mpr fun other hother => (hclear other hother).1)
      fun other hother => (hclear other hother).2

theorem effect_submit (hnone : tasks.find submission.taskId = none)
    (hclear : ∀ row ∈ tasks.rows, row.ownerId = submission.ownerId → row.requestId ≠ submission.requestId) :
    (TaskCall.submit submission).Effect tasks (tasks.insertOrIgnore (newRow submission)) where
  kept id row hrow := by
    have hid : (newRow submission).taskId ≠ id := by
      intro heq
      rw [show (newRow submission).taskId = submission.taskId from rfl] at heq
      rw [← heq, hnone] at hrow
      cases hrow
    exact ⟨row.state, by rw [Table.find_insertOrIgnore_ne hid, hrow], .inl rfl⟩
  new id hid := by
    by_cases heq : submission.taskId = id
    · have hfound := @Table.find_insertOrIgnore _ _ TaskRow.taskId _ tasks (newRow submission)
      rw [show tasks.find (newRow submission).taskId = none from hnone] at hfound
      rw [show (newRow submission).taskId = id from heq] at hfound
      exact .inr ⟨submission, rfl, heq, hfound, hclear⟩
    · have hother : (tasks.insertOrIgnore (newRow submission)).find id = none := by
        rw [Table.find_insertOrIgnore_ne (show (newRow submission).taskId ≠ id from heq), hid]
      exact .inl hother

theorem get_wp :
    (get ownerId taskId).wp tasks (fun _ tasks' => tasks' = tasks) fun _ _ => True := by
  simp only [SqliteMigrationTaskStore.get, wp_bind, wp_read]
  split
  · trivial
  · rfl

theorem submit_wp : (submit submission).wp tasks
    (fun _ tasks' => (TaskCall.submit submission).Effect tasks tasks') fun _ _ => True := by
  simp only [submit, wp_bind, wp_read]
  split
  · simp only [wp_ite, wp_pure, wp_raise]
    split
    · exact effect_same _
    · trivial
  · simp only [wp_bind, wp_attempt]
    refine ⟨fun size hsize => ?_, fun _ _ => trivial⟩
    refine ⟨fun count hcount => ?_, fun _ _ => trivial⟩
    refine ⟨fun createdAt hcreated => ?_, fun _ _ => trivial⟩
    apply wp_insertTask
    intro hnone hclear
    simp only [wp_read]
    split
    · trivial
    · rw [toI64_ok hsize, toI64_ok hcount, toI64_ok hcreated]
      exact effect_submit hnone hclear

theorem cancel_wp : (cancel ownerId taskId).wp tasks
    (fun _ tasks' => (TaskCall.cancel ownerId taskId).Effect tasks tasks') fun _ _ => True := by
  simp only [cancel, wp_bind, wp_write]
  refine wp_mono get_wp ?_ fun _ _ _ => trivial
  intro _ _ hsame
  subst hsame
  apply effect_setState
  intro row hrow htest
  have hopen : row.ownerId = ownerId ∧ row.state.isOpen = true := by simpa using htest
  exact ⟨hopen.1, (Table.find_eq_some.mp hrow).2, hopen.2, rfl⟩

theorem nextInQueue_some (h : nextInQueue tasks = some row) : row ∈ tasks.rows ∧ row.state.isOpen = true := by
  have hmem := List.mem_of_mem_head? h
  rw [List.mem_insertionSort, List.mem_filter] at hmem
  exact hmem

theorem claimNext_wp : claimNext.wp tasks
    (fun record tasks' => TaskCall.claimNext.Effect tasks tasks' ∧ ∀ task, record = some task →
      ∃ row, tasks.find task.taskId = some row ∧ row.state.isOpen = true ∧
        tasks'.find task.taskId = some { row with state := .running }) fun _ _ => False := by
  simp only [claimNext, wp_bind, wp_read]
  split
  · exact ⟨effect_same _, fun _ h => by cases h⟩
  · rename_i row hnext
    obtain ⟨hmem, hopen⟩ := nextInQueue_some hnext
    have hrow := Table.find_of_mem hmem
    simp only [wp_ite, wp_bind, wp_write, wp_pure]
    split
    · rename_i hcaptured
      refine ⟨effect_setState fun other hother htest => ⟨by simpa using htest, rfl⟩, ?_⟩
      intro task htask
      cases htask
      refine ⟨row, hrow, hopen, ?_⟩
      have hset := find_setState row.taskId (fun row => row.state = .captured) .running hrow
      rw [if_pos ⟨rfl, by simpa using hcaptured⟩] at hset
      exact hset
    · rename_i hother
      refine ⟨effect_same _, ?_⟩
      intro task htask
      cases htask
      have hrunning : row.state = .running := by
        revert hopen hother
        cases row.state <;> simp [MigrationTaskState.isOpen]
      refine ⟨row, hrow, hopen, ?_⟩
      rw [← hrunning]
      exact hrow

theorem finish_wp {ending : MigrationTaskState} : (finish taskId ending).wp tasks
    (fun _ tasks' => (TaskCall.finish taskId ending).Effect tasks tasks') fun _ _ => True := by
  simp only [finish, wp_ite, wp_write, wp_raise]
  split
  · rename_i hending
    apply effect_setState
    intro row hrow htest
    exact ⟨(Table.find_eq_some.mp hrow).2, by simpa using htest, hending, rfl⟩
  · trivial

theorem resume_wp : (resume ownerId taskId).wp tasks
    (fun _ tasks' => (TaskCall.resume ownerId taskId).Effect tasks tasks') fun _ _ => True := by
  simp only [resume, wp_bind, wp_read, wp_write, wp_ite, wp_raise]
  split
  · refine wp_mono get_wp ?_ fun _ _ _ => trivial
    intro _ _ hsame
    subst hsame
    apply effect_setState
    intro row hrow htest
    have hfailed : row.ownerId = ownerId ∧ row.state = .failed := by simpa using htest
    exact ⟨hfailed.1, (Table.find_eq_some.mp hrow).2, hfailed.2, rfl⟩
  · trivial

theorem list_wp {limit : Nat} :
    (list ownerId limit).wp tasks (fun _ tasks' => tasks' = tasks) fun _ _ => True := by
  simp only [list, wp_bind, wp_read, wp_attempt, wp_pure]
  exact ⟨fun _ _ => trivial, fun _ _ => trivial⟩

theorem isCancelled_wp :
    (isCancelled taskId).wp tasks (fun _ tasks' => tasks' = tasks) fun _ _ => True := by
  simp only [isCancelled, wp_bind, wp_read]
  split
  · trivial
  · rfl

theorem TaskCall.transaction_wp (call : TaskCall) :
    call.transaction.wp tasks (fun _ tasks' => call.Effect tasks tasks') fun _ _ => True := by
  have hread : ∀ {α : Type} {t : TaskTransaction α}, t.wp tasks (fun _ tasks' => tasks' = tasks) (fun _ _ => True) →
      t.wp tasks (fun _ tasks' => call.Effect tasks tasks') fun _ _ => True := by
    intro α t h
    refine wp_mono h ?_ fun _ _ _ => trivial
    intro _ _ hsame
    subst hsame
    exact effect_same _
  cases call with
  | submit submission => exact submit_wp
  | get ownerId taskId => exact hread get_wp
  | list ownerId limit => exact hread list_wp
  | cancel ownerId taskId => exact cancel_wp
  | claimNext => exact wp_mono claimNext_wp (fun _ _ h => h.1) fun _ _ _ => trivial
  | finish taskId ending => exact finish_wp
  | resume ownerId taskId => exact resume_wp
  | isCancelled taskId => exact hread isCancelled_wp

theorem TaskCall.perform_effect (call : TaskCall) (storage : Storage) :
    call.Effect tasks (call.perform storage tasks).1 := by
  have hexecute : call.Effect tasks (call.execute tasks).1 := by
    rcases run_cases call.transaction_wp with ⟨_, -, heffect⟩ | ⟨_, -, hsame⟩
    · exact heffect
    · rw [show (call.execute tasks).1 = tasks from hsame]
      exact effect_same _
  cases storage with
  | works | loses => exact hexecute
  | fails detail => exact effect_same _

end calls

section runs

open SqliteMigrationTaskStore

inductive TaskRun (tasks : TaskTable) : List TaskCall → TaskTable → Prop where
  | start : TaskRun tasks [] tasks
  | step {calls tasks'} (h : TaskRun tasks calls tasks') (call : TaskCall) (storage : Storage) :
      TaskRun tasks (calls ++ [call]) (call.perform storage tasks').1

def KeyedByRequest (tasks : TaskTable) : Prop :=
  ∀ u ∈ tasks.rows, ∀ v ∈ tasks.rows, u.ownerId = v.ownerId → u.requestId = v.requestId → u = v

def MigrationTaskSubmission.Matches (submission : MigrationTaskSubmission) (row : TaskRow) : Prop :=
  row.taskId = submission.taskId ∧ row.projectName = submission.projectName ∧
  row.projectDigest = submission.projectDigest ∧ row.projectSizeBytes = submission.projectSizeBytes ∧
  row.fileCount = submission.fileCount

instance (submission : MigrationTaskSubmission) (row : TaskRow) : Decidable (submission.Matches row) := by
  unfold MigrationTaskSubmission.Matches
  infer_instance

variable {call : TaskCall} {calls : List TaskCall}

theorem TaskCall.Effect.back (h : call.Effect tasks tasks') (hrow : row ∈ tasks'.rows) :
    (∃ old state, tasks.find row.taskId = some old ∧ row = { old with state } ∧
    (state = old.state ∨ call.Moves old state)) ∨
    ∃ submission, call = .submit submission ∧ row = newRow submission ∧ tasks.find row.taskId = none ∧
      ∀ other ∈ tasks.rows, other.ownerId = submission.ownerId → other.requestId ≠ submission.requestId := by
  have hfound := Table.find_of_mem hrow
  cases hold : tasks.find row.taskId with
  | some old =>
    obtain ⟨state, hnew, hmoves⟩ := h.kept _ _ hold
    rw [hfound] at hnew
    exact .inl ⟨old, state, rfl, Option.some.inj hnew, hmoves⟩
  | none =>
    rcases h.new _ hold with hnone | ⟨submission, hcall, -, hnew, hclear⟩
    · rw [hfound] at hnone
      cases hnone
    · rw [hfound] at hnew
      exact .inr ⟨submission, hcall, Option.some.inj hnew, rfl, hclear⟩

theorem TaskCall.Effect.present (h : call.Effect tasks tasks') (hid : tasks.find id ≠ none) :
    tasks'.find id ≠ none := by
  obtain ⟨row, hrow⟩ := Option.ne_none_iff_exists'.mp hid
  obtain ⟨state, hnew, -⟩ := h.kept _ _ hrow
  rw [hnew]
  exact Option.some_ne_none _

theorem TaskCall.Effect.keyed (h : call.Effect tasks tasks') (hk : KeyedByRequest tasks) : KeyedByRequest tasks' := by
  intro u hu v hv howner hrequest
  rcases h.back hu with ⟨u', state, hu', rfl, -⟩ | ⟨submission, hcall, rfl, -, hclear⟩
  · have hmem := (Table.find_eq_some.mp hu').1
    rcases h.back hv with ⟨v', state', hv', rfl, -⟩ | ⟨submission, hcall, rfl, -, hclear⟩
    · have heq := hk u' hmem v' (Table.find_eq_some.mp hv').1 howner hrequest
      subst heq
      exact Table.eq_of_key hu hv rfl
    · exact absurd hrequest (hclear u' hmem howner)
  · rcases h.back hv with ⟨v', state', hv', rfl, -⟩ | ⟨submission', hcall', rfl, -, hclear'⟩
    · exact absurd hrequest.symm (hclear v' (Table.find_eq_some.mp hv').1 howner.symm)
    · rw [hcall] at hcall'
      cases hcall'
      rfl

theorem TaskRun.keyed (h : TaskRun tasks calls tasks') (hk : KeyedByRequest tasks) : KeyedByRequest tasks' := by
  induction h with
  | start => exact hk
  | step _ call storage ih => exact (call.perform_effect storage).keyed ih

theorem TaskCall.Moves.leaves {state : MigrationTaskState} (h : call.Moves row state) :
    row.state ≠ .completed ∧ row.state ≠ .cancelled ∧
      (row.state = .failed → call = .resume row.ownerId row.taskId ∧ state = .captured) := by
  cases call with
  | submit | get | list | isCancelled => exact h.elim
  | cancel ownerId taskId =>
    have hopen : row.state.isOpen = true := h.2.2.1
    refine ⟨fun hs => ?_, fun hs => ?_, fun hs => ?_⟩ <;> rw [hs] at hopen <;> cases hopen
  | claimNext => simp [h.1]
  | finish taskId ending => simp [h.2.1]
  | resume ownerId taskId => simp [h.2.2.1, h.1, h.2.1, h.2.2.2]

theorem TaskRun.stays (h : TaskRun tasks calls tasks') (hrow : tasks.find id = some row)
    (hstate : row.state = .completed ∨ row.state = .cancelled) : tasks'.find id = some row := by
  induction h with
  | start => exact hrow
  | step _ call storage ih =>
    obtain ⟨state, hnew, hsame | hmoves⟩ := (call.perform_effect storage).kept _ _ ih
    · rw [hnew, hsame]
    · rcases hstate with hstate | hstate
      · exact absurd hstate hmoves.leaves.1
      · exact absurd hstate hmoves.leaves.2.1

theorem TaskCall.perform_failed {storage : Storage} (hrow : tasks.find id = some row) (hstate : row.state = .failed) :
    (call.perform storage tasks).1.find id = some row ∨ call = .resume row.ownerId id ∧
      (call.perform storage tasks).1.find id = some { row with state := .captured } := by
  obtain ⟨state, hnew, hsame | hmoves⟩ := (call.perform_effect storage).kept _ _ hrow
  · rw [hnew, hsame]
    exact .inl rfl
  · obtain ⟨hcall, hcaptured⟩ := hmoves.leaves.2.2 hstate
    rw [hnew, hcaptured]
    rw [(Table.find_eq_some.mp hrow).2] at hcall
    exact .inr ⟨hcall, rfl⟩

theorem TaskCall.execute_error {e : MigrationTaskError} (h : (call.execute tasks).2 = .error e) :
    (call.execute tasks).1 = tasks := by
  rcases run_cases (@TaskCall.transaction_wp tasks call) with ⟨a, hok, -⟩ | ⟨_, -, hsame⟩
  · rw [show (call.execute tasks).2 = .ok a from hok] at h
    cases h
  · exact hsame

theorem submit_again {submission : MigrationTaskSubmission} (hk : KeyedByRequest tasks) (hrow : row ∈ tasks.rows)
    (howner : row.ownerId = submission.ownerId) (hrequest : row.requestId = submission.requestId) :
    (TaskCall.submit submission).execute tasks =
      (tasks, if submission.Matches row then .ok (rowToRecord row) else .error .conflict) := by
  have hselect : selectByRequest tasks submission.ownerId submission.requestId = some (rowToRecord row) := by
    unfold selectByRequest
    cases hfind : tasks.rows.find? fun row => row.ownerId = submission.ownerId ∧
      row.requestId = submission.requestId with
    | none =>
      have hno := List.find?_eq_none.mp hfind row hrow
      simp [howner, hrequest] at hno
    | some other =>
      have hother : other.ownerId = submission.ownerId ∧ other.requestId = submission.requestId := by
        simpa using List.find?_some hfind
      rw [hk other (List.mem_of_find?_eq_some hfind) row hrow (hother.1.trans howner.symm)
        (hother.2.trans hrequest.symm)]
      rfl
  by_cases hsame : submission.Matches row
  · rw [if_pos hsame]
    have hrun : (submit submission).run tasks = (tasks, .ok (rowToRecord row)) := by
      apply run_eq
      simp only [submit, wp_bind, wp_read, hselect, wp_ite, wp_pure]
      exact (if_pos hsame).mpr ⟨trivial, trivial⟩
    exact hrun
  · rw [if_neg hsame]
    have hwp : (submit submission).wp tasks (fun _ _ => False) fun e _ => e = .conflict := by
      simp only [submit, wp_bind, wp_read, hselect, wp_ite, wp_raise]
      exact (if_neg hsame).mpr trivial
    rcases run_outcome hwp with ⟨_, -, hfalse⟩ | ⟨e, herror, htasks, rfl⟩
    · exact hfalse.elim
    · exact Prod.ext htasks herror

end runs

section owners

open SqliteMigrationTaskStore

def TaskCall.owner : TaskCall → Option String
  | .submit submission => some submission.ownerId
  | .get ownerId _ | .list ownerId _ | .cancel ownerId _ | .resume ownerId _ => some ownerId
  | .claimNext | .finish _ _ | .isCancelled _ => none

def ownedBy (ownerId : String) (tasks : TaskTable) : List TaskRow := tasks.rows.filter fun row => row.ownerId = ownerId

variable {ownerId taskId : String} {calls : List TaskCall}

theorem ownedBy_setState {test : TaskRow → Bool} {state : MigrationTaskState}
    (h : ∀ row, row.ownerId = ownerId → test row = false) :
    ownedBy ownerId (tasks.update taskId (setState test state)) = ownedBy ownerId tasks := by
  simp only [ownedBy, Table.update]
  induction tasks.rows with
  | nil => rfl
  | cons row rows ih =>
    by_cases howner : row.ownerId = ownerId
    · simp [setState, h row howner, howner, ← ih]
    · have hother : (if row.taskId = taskId then (setState test state).apply row else row).ownerId ≠ ownerId := by
        simp only [setState]
        split_ifs <;> exact howner
      simp [howner, hother, ih]

theorem TaskCall.others_wp {call : TaskCall} {other : String} (hcall : call.owner = some other)
    (hother : other ≠ ownerId) :
    call.transaction.wp tasks (fun _ tasks' => ownedBy ownerId tasks' = ownedBy ownerId tasks) fun _ _ => True := by
  have hread : ∀ {t : TaskTransaction call.Result} {seen : TaskTable},
      t.wp seen (fun _ tasks' => tasks' = seen) (fun _ _ => True) → ownedBy ownerId seen = ownedBy ownerId tasks →
      t.wp seen (fun _ tasks' => ownedBy ownerId tasks' = ownedBy ownerId tasks) fun _ _ => True := by
    intro t seen h hseen
    refine wp_mono h ?_ fun _ _ _ => trivial
    intro _ _ hsame
    rw [hsame, hseen]
  cases call with
  | claimNext | finish | isCancelled => cases hcall
  | get => exact hread get_wp rfl
  | list => exact hread list_wp rfl
  | submit submission =>
    cases hcall
    simp only [transaction, Result, SqliteMigrationTaskStore.submit, wp_bind, wp_read]
    split
    · simp only [wp_ite, wp_pure, wp_raise]
      split <;> trivial
    · simp only [wp_bind, wp_attempt]
      refine ⟨fun size _ => ⟨fun count _ => ⟨fun createdAt _ => ?_, ?_⟩, ?_⟩, ?_⟩ <;> try exact fun _ _ => trivial
      apply wp_insertTask
      intro hnone _
      simp only [wp_read]
      split
      · trivial
      · simp [ownedBy, Table.insertOrIgnore_absent hnone, hother]
  | cancel ownerId taskId =>
    cases hcall
    exact wp_bind.mpr (hread get_wp (ownedBy_setState fun row hrow => by simp [hrow, hother.symm]))
  | resume ownerId taskId =>
    cases hcall
    simp only [transaction, Result, SqliteMigrationTaskStore.resume, wp_bind, wp_read, wp_write, wp_ite, wp_raise]
    split
    · exact hread get_wp (ownedBy_setState fun row hrow => by simp [hrow, hother.symm])
    · trivial

theorem TaskRun.ownedBy_eq (h : TaskRun tasks calls tasks')
    (hothers : ∀ call ∈ calls, ∃ other, call.owner = some other ∧ other ≠ ownerId) :
    ownedBy ownerId tasks' = ownedBy ownerId tasks := by
  induction h with
  | start => rfl
  | @step calls tasks' _ call storage ih =>
    have hbefore := ih fun call hcall => hothers call (List.mem_append_left _ hcall)
    obtain ⟨other, hcall, hother⟩ := hothers call (by simp)
    have hexecute : ownedBy ownerId (call.execute tasks').1 = ownedBy ownerId tasks' := by
      rcases run_cases (call.others_wp hcall hother) with ⟨_, -, hsame⟩ | ⟨_, -, hsame⟩
      · exact hsame
      · rw [show (call.execute tasks').1 = tasks' from hsame]
    cases storage with
    | works | loses => exact hexecute.trans hbefore
    | fails detail => exact hbefore

theorem owner_undisturbed (h : TaskRun tasks calls tasks')
    (hothers : ∀ call ∈ calls, ∃ other, call.owner = some other ∧ other ≠ ownerId) (taskId : String) (limit : Nat) :
    ((TaskCall.get ownerId taskId).execute tasks').2 = ((TaskCall.get ownerId taskId).execute tasks).2 ∧
    ((TaskCall.list ownerId limit).execute tasks').2 = ((TaskCall.list ownerId limit).execute tasks).2 := by
  have hview := h.ownedBy_eq hothers
  have hselect : ∀ tasks, selectById tasks ownerId taskId =
      ((ownedBy ownerId tasks).find? fun row => row.taskId = taskId).map rowToRecord := by
    simp [selectById, ownedBy, List.find?_filter]
  constructor
  · have hsame := (hselect tasks').trans (hview ▸ (hselect tasks).symm)
    simp only [TaskCall.execute, TaskCall.transaction, SqliteMigrationTaskStore.get, run, runKeeping, bind,
      Transaction.read, hsame]
    cases selectById tasks ownerId taskId <;> rfl
  · unfold ownedBy at hview
    simp only [TaskCall.execute, TaskCall.transaction, SqliteMigrationTaskStore.list, run, runKeeping, bind,
      Transaction.read, attempt, hview]
    cases toI64 limit <;> rfl

theorem owner_undisturbed_sample :
    let tasks := Table.empty.insertOrIgnore (newRow ⟨"a", "r", "t", "p", ⟨[]⟩, 1, 1, 0⟩)
    ((TaskCall.list "a" 1).execute (TaskCall.execute (.cancel "b" "t") tasks).1).2 =
    ((TaskCall.list "a" 1).execute tasks).2 :=
  (owner_undisturbed (.step .start (.cancel "b" "t") .works) (by simp [TaskCall.owner]) "t" 1).2

end owners

end AlloyPort.Migration
