import AlloyPort.Migration.Driver

/-! What the dispatcher has published about a task, compared with the state of the task. They agree as long as a
cancellation comes before the dispatcher looks for it. -/

namespace AlloyPort.Migration

open Database Events Interaction Machine SqliteMigrationTaskStore

inductive Verdict where
  | completed
  | cancelled
  | failed
  deriving DecidableEq

def Verdict.state : Verdict → MigrationTaskState
  | .completed => .completed
  | .cancelled => .cancelled
  | .failed => .failed

def verdict : Event → Option Verdict
  | .runCompleted _ => some .completed
  | .runFailed error => some (if error = cancelledByUser then .cancelled else .failed)
  | _ => none

def verdictOn (taskId : String) (call : InteractionCall) : Option Verdict :=
  if call.frame.runId = taskId then verdict call.frame.event else none

def lastVerdict (taskId : String) (log : List InteractionCall) : Option Verdict :=
  (log.filterMap (verdictOn taskId)).getLast?

abbrev ServerHistory := History ServerAction Unit

def Resumed (log : ServerHistory) (taskId : String) : Prop :=
  ∃ ownerId storage, ServerAction.request (.resume ownerId taskId) storage ∈ log.map Prod.fst

/-- The last verdict names the state of a task, unless it failed and was resumed since. -/
structure Agrees (state : MigrationTaskState) (last : Option Verdict) (resumed : Prop) : Prop where
  completed : last = some .completed ↔ state = .completed
  cancelled : last = some .cancelled ↔ state = .cancelled
  failed : state = .failed → last = some .failed
  resumes : last = some .failed → state = .failed ∨ state.isOpen = true ∧ resumed

section guard

def Storage.isFailure : Storage → Bool
  | .fails _ => true
  | .works | .loses _ => false

def Phase.awaitsCheck (phase : Phase) (taskId : String) : Bool :=
  match phase with
  | .claimed task | .executing task | .executed task _ => task.taskId = taskId
  | .waiting | .stopped | .checked _ _ | .finished _ _ => false

def Phase.hasSeenCancellation : Phase → Bool
  | .executed _ result => result = .error cancelledByUser
  | _ => false

def ServerState.row? (s : ServerState) : Option TaskRow := s.phase.task?.bind fun task => s.tasks.find task.taskId

/-- A cancellation is in time, and nothing is lost that decides the verdict or carries it out. -/
def orderly (s : ServerState) : ServerAction → Bool
  | .request (.cancel ownerId taskId) storage => (s.tasks.find taskId).all fun row =>
    row.ownerId ≠ ownerId ∨ row.state.isOpen = false ∨ storage.isFailure ∨ s.phase.awaitsCheck taskId
  | .request _ _ | .claim _ | .announce _ _ => true
  | .execute result => result ≠ .error cancelledByUser ∨ s.row?.all fun row => row.state = .cancelled
  | .check storage => storage = .works ∨ s.phase.hasSeenCancellation ∨ s.row?.all fun row => row.state ≠ .cancelled
  | .finish storage => storage.isFailure = false ∨ s.row?.all fun row => row.state ≠ .running
  | .publish storage _ => storage.isFailure = false
  | .restart => s.row?.all fun row => row.state.isOpen

def Orderly : Guard ServerState ServerAction Unit := fun _ s a => orderly s a = true

end guard

/-- A task that the dispatcher has is running or was cancelled, and it has not ended before. -/
structure Underway (state : MigrationTaskState) (last : Option Verdict) (resumed : Prop) : Prop where
  taken : state = .running ∨ state = .cancelled
  before : last = none ∨ last = some .failed ∧ resumed

/-- What holds of the task that the dispatcher has. -/
def Phase.Accounts (phase : Phase) (state : MigrationTaskState) (last : Option Verdict) (resumed : Prop) : Prop :=
  match phase with
  | .waiting | .stopped => True
  | .claimed _ | .executing _ => Underway state last resumed
  | .executed _ result => Underway state last resumed ∧ (result = .error cancelledByUser → state = .cancelled)
  | .checked _ outcome => Underway state last resumed ∧
    (state = .cancelled ∧ verdict outcome.event = some .cancelled ∨
      state = .running ∧ ∃ ending, outcome.state = some ending.state ∧ ending ≠ .cancelled ∧
        verdict outcome.event = some ending)
  | .finished _ outcome => (∃ ending, verdict outcome.event = some ending ∧ Agrees state (some ending) resumed) ∧
    (last = none ∨ last = some .failed ∧ resumed)

structure Sound (log : ServerHistory) (s : ServerState) : Prop where
  keyed : KeyedByRequest s.tasks
  known : ∀ call ∈ s.published, s.tasks.find call.frame.runId ≠ none
  present : ∀ task, s.phase.task? = some task → s.tasks.find task.taskId ≠ none
  rests : ∀ row ∈ s.tasks.rows, (∀ task, s.phase.task? = some task → task.taskId ≠ row.taskId) →
    Agrees row.state (lastVerdict row.taskId s.published) (Resumed log row.taskId)
  accounts : ∀ row, s.row? = some row →
    s.phase.Accounts row.state (lastVerdict row.taskId s.published) (Resumed log row.taskId)

variable {s : ServerState} {log : ServerHistory} {state : MigrationTaskState} {last : Option Verdict}
  {resumed resumed' : Prop} {taskId : String}

section verdicts

variable {call : InteractionCall}

theorem lastVerdict_append {published : List InteractionCall} :
    lastVerdict taskId (published ++ [call]) = (verdictOn taskId call).or (lastVerdict taskId published) := by
  unfold lastVerdict
  rw [List.filterMap_append, List.getLast?_append]
  cases h : verdictOn taskId call with
  | none => simp [h]
  | some v => simp [h]

theorem lastVerdict_published {storage : Storage} {log : List InteractionCall}
    (h : verdictOn taskId call = none) : lastVerdict taskId (published storage call log) = lastVerdict taskId log := by
  cases storage with
  | fails detail => rfl
  | works | loses => rw [published, lastVerdict_append, h, Option.none_or]

theorem verdictOn_other (h : call.frame.runId ≠ taskId) : verdictOn taskId call = none := if_neg h

theorem lastVerdict_unknown {log : List InteractionCall} (h : ∀ call ∈ log, call.frame.runId ≠ taskId) :
    lastVerdict taskId log = none := by
  have hnil : log.filterMap (verdictOn taskId) = [] := by
    rw [List.filterMap_eq_nil_iff]
    intro call hcall
    exact verdictOn_other (h call hcall)
  rw [lastVerdict, hnil, List.getLast?_nil]

theorem Resumed.mono {entry : ServerAction × Unit} (h : Resumed log taskId) : Resumed (log ++ [entry]) taskId := by
  obtain ⟨ownerId, storage, hmem⟩ := h
  refine ⟨ownerId, storage, ?_⟩
  rw [List.map_append]
  exact List.mem_append_left _ hmem

theorem Agrees.mono (h : Agrees state last resumed) (hr : resumed → resumed') : Agrees state last resumed' where
  completed := h.completed
  cancelled := h.cancelled
  failed := h.failed
  resumes hlast := (h.resumes hlast).imp_right fun hopen => ⟨hopen.1, hr hopen.2⟩

theorem before_mono (h : last = none ∨ last = some .failed ∧ resumed) (hr : resumed → resumed') :
    last = none ∨ last = some .failed ∧ resumed' := h.imp_right fun hlast => ⟨hlast.1, hr hlast.2⟩

theorem Underway.mono (h : Underway state last resumed) (hr : resumed → resumed') : Underway state last resumed' where
  taken := h.taken
  before := before_mono h.before hr

theorem open_ne (hopen : state.isOpen = true) : state ≠ .completed ∧ state ≠ .cancelled ∧ state ≠ .failed := by
  cases state with
  | captured => simp
  | running => simp
  | completed => cases hopen
  | failed => cases hopen
  | cancelled => cases hopen

theorem agrees_open (hopen : state.isOpen = true) (h : last = none ∨ last = some .failed ∧ resumed) :
    Agrees state last resumed := by
  have hstate := open_ne hopen
  rcases h with rfl | ⟨rfl, hr⟩
  · exact ⟨by simp [hstate], by simp [hstate], by simp [hstate], nofun⟩
  · exact ⟨by simp [hstate], by simp [hstate], by simp [hstate], fun _ => .inr ⟨hopen, hr⟩⟩

theorem agrees_ended (ending : Verdict) : Agrees ending.state (some ending) resumed := by
  cases ending with
  | completed | cancelled => exact ⟨by simp [Verdict.state], by simp [Verdict.state], nofun, nofun⟩
  | failed => exact ⟨by simp [Verdict.state], by simp [Verdict.state], fun _ => rfl, fun _ => .inl rfl⟩

theorem Agrees.before (h : Agrees state last resumed) (hopen : state.isOpen = true) :
    last = none ∨ last = some .failed ∧ resumed := by
  have hstate := open_ne hopen
  cases last with
  | none => exact .inl rfl
  | some ending => cases ending with
    | completed => exact absurd (h.completed.mp rfl) hstate.1
    | cancelled => exact absurd (h.cancelled.mp rfl) hstate.2.1
    | failed =>
      rcases h.resumes rfl with hfailed | hresumed
      · exact absurd hfailed hstate.2.2
      · exact .inr ⟨rfl, hresumed.2⟩

theorem Agrees.resume (h : Agrees state last resumed) (hstate : state = .failed) (hr : resumed') :
    Agrees .captured last resumed' := agrees_open rfl (.inr ⟨h.failed hstate, hr⟩)

end verdicts

section steps

variable {s' : ServerState} {row : TaskRow}
variable {phase : Phase} {storage : Storage} {task : MigrationTaskRecord} {result : Except String Unit}
  {tasks : TaskTable}

theorem Phase.Accounts.mono (h : phase.Accounts state last resumed) (hr : resumed → resumed') :
    phase.Accounts state last resumed' := by
  cases phase with
  | waiting => trivial
  | stopped => trivial
  | claimed | executing => exact Underway.mono h hr
  | executed | checked => exact ⟨h.1.mono hr, h.2⟩
  | finished task outcome =>
    obtain ⟨⟨ending, hverdict, hagrees⟩, hbefore⟩ := h
    exact ⟨⟨ending, hverdict, hagrees.mono hr⟩, before_mono hbefore hr⟩

theorem row?_some (h : s.row? = some row) :
    ∃ task, s.phase.task? = some task ∧ row.taskId = task.taskId ∧ s.tasks.find row.taskId = some row := by
  obtain ⟨task, htask, hrow⟩ := Option.bind_eq_some_iff.mp h
  have hid : row.taskId = task.taskId := (Table.find_eq_some.mp hrow).2
  exact ⟨task, htask, hid, by rw [hid, hrow]⟩

theorem sound_initial : Sound [] ⟨.empty, .waiting, []⟩ where
  keyed := by
    intro u hu
    cases hu
  known := by
    intro call hcall
    cases hcall
  present := by
    intro task htask
    cases htask
  rests := by
    intro row hrow
    cases hrow
  accounts := by
    intro row hrow
    cases hrow

inductive Shift (s : ServerState) (log : ServerHistory) (row : TaskRow) : MigrationTaskState → Prop where
  | same : Shift s log row row.state
  | cancelled (hopen : row.state.isOpen = true) (hawaits : s.phase.awaitsCheck row.taskId = true) :
      Shift s log row .cancelled
  | resumed (hfailed : row.state = .failed) (hlog : Resumed log row.taskId) : Shift s log row .captured

theorem request_shift (log : ServerHistory) {call : TaskCall} (hcall : call.isRequest = true)
    (ha : orderly s (.request call storage) = true) (hrow : s.tasks.find taskId = some row) :
    ∃ state, (call.perform storage s.tasks).1.find taskId = some { row with state } ∧
      Shift s (log ++ [(ServerAction.request call storage, ())]) row state := by
  obtain ⟨state, hnew, hmoves⟩ := (call.perform_effect storage).kept _ _ hrow
  rcases hmoves with hsame | hmoves
  · subst hsame
    exact ⟨_, hnew, .same⟩
  · cases call with
    | submit | get | list => exact hmoves.elim
    | claimNext => cases hcall
    | finish id ending => cases hcall
    | isCancelled id => cases hcall
    | resume ownerId id =>
      obtain ⟨howner, hid, hfailed, rfl⟩ := hmoves
      refine ⟨.captured, hnew, .resumed hfailed ⟨ownerId, storage, ?_⟩⟩
      rw [hid]
      simp
    | cancel ownerId id =>
      obtain ⟨howner, hid, hopen, rfl⟩ := hmoves
      have hfound : s.tasks.find id = some row := by
        rw [← hid, (Table.find_eq_some.mp hrow).2, hrow]
      simp only [orderly, hfound, Option.all_some, decide_eq_true_eq] at ha
      rcases ha with hother | hclosed | hfails | hawaits
      · exact absurd howner hother
      · rw [hopen] at hclosed
        cases hclosed
      · cases storage with
        | works | loses => cases hfails
        | fails detail => exact ⟨row.state, hrow, .same⟩
      · rw [← hid] at hawaits
        exact ⟨.cancelled, hnew, .cancelled hopen hawaits⟩

theorem awaitsCheck_task (h : s.phase.awaitsCheck taskId = true) :
    ∃ task, s.phase.task? = some task ∧ task.taskId = taskId := by
  cases hphase : s.phase with
  | waiting | stopped | checked | finished => simp [hphase, Phase.awaitsCheck] at h
  | claimed task | executing task | executed task => exact ⟨task, rfl, by simpa [hphase, Phase.awaitsCheck] using h⟩

variable {entry : ServerAction × Unit}

theorem Shift.agrees (h : Shift s (log ++ [entry]) row state)
    (hrest : ∀ task, s.phase.task? = some task → task.taskId ≠ row.taskId)
    (hagrees : Agrees row.state last (Resumed log row.taskId)) :
    Agrees state last (Resumed (log ++ [entry]) row.taskId) := by
  cases h with
  | same => exact hagrees.mono Resumed.mono
  | cancelled hopen hawaits =>
    obtain ⟨task, htask, hid⟩ := awaitsCheck_task hawaits
    exact absurd hid (hrest task htask)
  | resumed hfailed hlog => exact hagrees.resume hfailed hlog

theorem Underway.open_or (h : Underway state last resumed) : state ≠ .failed := by
  rcases h.taken with rfl | rfl <;> exact nofun

theorem Underway.cancel (h : Underway state last resumed) : Underway .cancelled last resumed := ⟨.inr rfl, h.before⟩

theorem Shift.accounts (h : Shift s (log ++ [entry]) row state)
    (hacc : s.phase.Accounts row.state last (Resumed log row.taskId)) :
    s.phase.Accounts state last (Resumed (log ++ [entry]) row.taskId) := by
  have hmono := hacc.mono (@Resumed.mono log row.taskId entry)
  cases h with
  | same => exact hmono
  | cancelled hopen hawaits =>
    cases hphase : s.phase with rw [hphase] at hmono
    | waiting | stopped => trivial
    | claimed | executing => exact Underway.cancel hmono
    | executed => exact ⟨hmono.1.cancel, fun _ => rfl⟩
    | checked | finished => simp [hphase, Phase.awaitsCheck] at hawaits
  | resumed hfailed hlog =>
    cases hphase : s.phase with rw [hphase] at hmono
    | waiting | stopped => trivial
    | claimed | executing => exact absurd hfailed (Underway.open_or hmono)
    | executed | checked => exact absurd hfailed hmono.1.open_or
    | finished task outcome =>
      obtain ⟨⟨ending, hverdict, hagrees⟩, hbefore⟩ := hmono
      exact ⟨⟨ending, hverdict, hagrees.resume hfailed hlog⟩, hbefore⟩

theorem Sound.request {call : TaskCall} (h : Sound log s) (hcall : call.isRequest = true)
    (ha : orderly s (.request call storage) = true) :
    Sound (log ++ [(ServerAction.request call storage, ())]) { s with tasks := (call.perform storage s.tasks).1 } := by
  have heffect : call.Effect s.tasks (call.perform storage s.tasks).1 := call.perform_effect storage
  constructor
  · exact heffect.keyed h.keyed
  · intro c hc
    exact heffect.present (h.known c hc)
  · intro task htask
    exact heffect.present (h.present task htask)
  · intro row' hrow' hrest
    rcases heffect.back hrow' with ⟨row, _, hrow, -, -⟩ | ⟨submission, -, rfl, hnone, -⟩
    · obtain ⟨state, hnew, hshift⟩ := request_shift log hcall ha hrow
      have heq : row' = { row with state } := Option.some.inj ((Table.find_of_mem hrow').symm.trans hnew)
      have hid : row.taskId = row'.taskId := (Table.find_eq_some.mp hrow).2
      rw [← hid] at hrest
      have hagrees := h.rests row (Table.find_eq_some.mp hrow).1 hrest
      subst heq
      exact hshift.agrees hrest hagrees
    · have hlast : lastVerdict (newRow submission).taskId s.published = none := by
        apply lastVerdict_unknown
        intro c hc heq
        exact h.known c hc (by rw [heq, hnone])
      exact agrees_open rfl (.inl hlast)
  · intro row' hrow'
    obtain ⟨task, htask, hid, hfound⟩ := row?_some hrow'
    obtain ⟨row, hrow⟩ := Option.ne_none_iff_exists'.mp (h.present task htask)
    obtain ⟨state, hnew, hshift⟩ := request_shift log hcall ha hrow
    rw [hid] at hfound
    have heq : row' = { row with state } := Option.some.inj (hfound.symm.trans hnew)
    have hold : s.row? = some row := Option.bind_eq_some_iff.mpr ⟨task, htask, hrow⟩
    subst heq
    exact hshift.accounts (h.accounts row hold)

theorem Sound.onward (h : Sound log s) {published : List InteractionCall}
    (htask : phase.task? = s.phase.task?) (hknown : ∀ call ∈ published, s.tasks.find call.frame.runId ≠ none)
    (hlast : ∀ taskId, lastVerdict taskId published = lastVerdict taskId s.published)
    (hacc : ∀ row, s.row? = some row →
      s.phase.Accounts row.state (lastVerdict row.taskId s.published) (Resumed log row.taskId) →
      phase.Accounts row.state (lastVerdict row.taskId s.published) (Resumed log row.taskId)) :
    Sound (log ++ [entry]) { s with phase, published } where
  keyed := h.keyed
  known := hknown
  present := by
    rw [show (ServerState.mk s.tasks phase published).phase = phase from rfl, htask]
    exact h.present
  rests := by
    intro row hrow hrest
    rw [show (ServerState.mk s.tasks phase published).phase = phase from rfl, htask] at hrest
    have hagrees := (h.rests row hrow hrest).mono (@Resumed.mono log row.taskId entry)
    rw [← hlast] at hagrees
    exact hagrees
  accounts := by
    intro row hrow
    have hold : s.row? = some row := by
      rw [ServerState.row?, ← htask]
      exact hrow
    have hphase := (hacc row hold (h.accounts row hold)).mono (@Resumed.mono log row.taskId entry)
    rw [← hlast] at hphase
    exact hphase

theorem claimNext_perform (h : (TaskCall.claimNext.perform storage tasks).2 = .ok (some task)) :
    ∃ row, (TaskCall.claimNext.perform storage tasks).1.find task.taskId = some row ∧ row.state = .running := by
  cases storage with
  | fails detail => cases h
  | loses detail => cases h
  | works =>
    rcases Transaction.run_outcome (F := fun _ => False) claimNext_wp with
      ⟨record, hok, -, hclaimed⟩ | ⟨_, -, -, hfalse⟩
    · have heq : record = some task := by
        rw [show (TaskCall.claimNext.perform .works tasks).2 = .ok record from hok] at h
        exact Except.ok.inj h
      obtain ⟨row, -, -, hnew⟩ := hclaimed task heq
      exact ⟨_, hnew, rfl⟩
    · exact hfalse.elim

theorem Sound.claimed (h : Sound log s) (entry : ServerAction × Unit) (hphase : s.phase.task? = none)
    (heffect : TaskCall.claimNext.Effect s.tasks tasks) :
    (∀ row ∈ tasks.rows, Agrees row.state (lastVerdict row.taskId s.published)
      (Resumed (log ++ [entry]) row.taskId)) := by
  intro row' hrow'
  rcases heffect.back hrow' with ⟨row, state, hrow, rfl, hmoves⟩ | ⟨_, hcall, -⟩
  · have hrest : ∀ task, s.phase.task? = some task → task.taskId ≠ row.taskId := by
      intro task htask
      rw [hphase] at htask
      cases htask
    have hagrees := (h.rests row (Table.find_eq_some.mp hrow).1 hrest).mono (@Resumed.mono log row.taskId entry)
    rcases hmoves with rfl | ⟨hcaptured, rfl⟩
    · exact hagrees
    · exact agrees_open rfl (hagrees.before (by rw [hcaptured]; rfl))
  · cases hcall

theorem Sound.claim (h : Sound log s) (hphase : s.phase = .waiting) :
    Sound (log ++ [(ServerAction.claim storage, ())]) (MigrationDispatcher.claim storage s) := by
  have hnone : s.phase.task? = none := by rw [hphase]; rfl
  have heffect : TaskCall.claimNext.Effect s.tasks (TaskCall.claimNext.perform storage s.tasks).1 :=
    TaskCall.perform_effect _ _
  have hagrees := h.claimed (.claim storage, ()) hnone heffect
  have hfree : ∀ phase : Phase, phase.task? = none → Sound (log ++ [(ServerAction.claim storage, ())])
      { s with tasks := (TaskCall.claimNext.perform storage s.tasks).1, phase } := by
    intro phase hfree
    constructor
    · exact heffect.keyed h.keyed
    · exact fun c hc => heffect.present (h.known c hc)
    · intro task htask
      rw [show phase.task? = some task from htask] at hfree
      cases hfree
    · exact fun row hrow _ => hagrees row hrow
    · intro row hrow
      obtain ⟨task, htask, -⟩ := row?_some hrow
      rw [show phase.task? = some task from htask] at hfree
      cases hfree
  have hreply := fun task => @claimNext_perform storage task s.tasks
  unfold MigrationDispatcher.claim
  revert heffect hagrees hfree hreply
  generalize TaskCall.claimNext.perform storage s.tasks = answer
  obtain ⟨tasks, reply⟩ := answer
  intro heffect hagrees hfree hreply
  cases reply with
  | error e => exact hfree .stopped rfl
  | ok record => cases record with
    | none =>
      have hwaiting := hfree .waiting rfl
      rw [← hphase] at hwaiting
      exact hwaiting
    | some task =>
      obtain ⟨row, hrow, hrunning⟩ := hreply _ rfl
      constructor
      · exact heffect.keyed h.keyed
      · exact fun c hc => heffect.present (h.known c hc)
      · intro other hother
        cases hother
        rw [show Table.find tasks task.taskId = some row from hrow]
        exact Option.some_ne_none _
      · exact fun row hrow _ => hagrees row hrow
      · intro row' hrow'
        have heq : row = row' := Option.some.inj (hrow.symm.trans hrow')
        subst heq
        exact ⟨.inl hrunning, (hagrees row (Table.find_eq_some.mp hrow).1).before (by rw [hrunning]; rfl)⟩

theorem Phase.Accounts.before (h : phase.Accounts state last resumed)
    (htask : phase.task? = some task) : last = none ∨ last = some .failed ∧ resumed := by
  cases phase with
  | waiting => cases htask
  | stopped => cases htask
  | claimed | executing => exact Underway.before h
  | executed | checked => exact h.1.before
  | finished task outcome => exact h.2

theorem Sound.restart (h : Sound log s) (ha : orderly s .restart = true) :
    Sound (log ++ [(ServerAction.restart, ())]) { s with phase := .waiting } where
  keyed := h.keyed
  known := h.known
  present := nofun
  rests := by
    intro row hrow _
    have hgoal : Agrees row.state (lastVerdict row.taskId s.published) (Resumed log row.taskId) := by
      by_cases hat : ∀ task, s.phase.task? = some task → task.taskId ≠ row.taskId
      · exact h.rests row hrow hat
      · obtain ⟨task, htask⟩ := not_forall.mp hat
        obtain ⟨htask, hid⟩ := Classical.not_imp.mp htask
        have hat' : s.row? = some row := by
          rw [ServerState.row?, htask, Option.bind_some, not_not.mp hid, Table.find_of_mem hrow]
        have hopen : row.state.isOpen = true := by
          rw [orderly, hat', Option.all_some] at ha
          exact ha
        exact agrees_open hopen ((h.accounts row hat').before htask)
    exact hgoal.mono Resumed.mono
  accounts := nofun

theorem find_row? (htask : s.phase.task? = some task)
    (hrow : s.tasks.find task.taskId = some row) : s.row? = some row := Option.bind_eq_some_iff.mpr ⟨task, htask, hrow⟩

theorem Sound.announce {nowMs : Nat} (h : Sound log s)
    (hphase : s.phase = .claimed task) : Sound (log ++ [(ServerAction.announce storage nowMs, ())])
      { s with
        phase := .executing task, published :=
          published storage (runningPublication task.taskId nowMs) s.published } := by
  have htask : s.phase.task? = some task := by rw [hphase]; rfl
  apply h.onward
  · rw [htask]
    rfl
  · intro c hc
    have hmem : c ∈ s.published ∨ c = runningPublication task.taskId nowMs := by
      cases storage with
      | fails detail => exact .inl hc
      | works | loses => simpa [published] using hc
    rcases hmem with hc | rfl
    · exact h.known c hc
    · exact h.present task htask
  · intro taskId
    apply lastVerdict_published
    exact ite_self none
  · intro row _ hacc
    rw [hphase] at hacc
    exact hacc

theorem Sound.execute (h : Sound log s)
    (ha : orderly s (.execute result) = true) (hphase : s.phase = .executing task) :
    Sound (log ++ [(ServerAction.execute result, ())]) { s with phase := .executed task result } := by
  have htask : s.phase.task? = some task := by rw [hphase]; rfl
  apply h.onward
  · rw [htask]
    rfl
  · exact h.known
  · exact fun _ => rfl
  · intro row hrow hacc
    rw [hphase] at hacc
    refine ⟨hacc, fun hresult => ?_⟩
    simpa [orderly, hrow, hresult] using ha

theorem isCancelled_perform (h : tasks.find taskId = some row) :
    ((TaskCall.isCancelled taskId).perform .works tasks).2 = .ok (decide (row.state = .cancelled)) := by
  have hrun : (isCancelled taskId).run tasks = (tasks, .ok (decide (row.state = .cancelled))) := by
    apply Transaction.run_eq
    simp [isCancelled, h]
  exact congrArg Prod.snd hrun

theorem outcome_accounts {cancelled : Bool} (htaken : state = .running ∨ state = .cancelled)
    (hseen : result = .error cancelledByUser → state = .cancelled) (htrue : cancelled = true → state = .cancelled)
    (hfalse : cancelled = false → result = .error cancelledByUser ∨ state ≠ .cancelled) :
    state = .cancelled ∧ verdict (outcome cancelled result).event = some .cancelled ∨
      state = .running ∧ ∃ ending, (outcome cancelled result).state = some ending.state ∧ ending ≠ .cancelled ∧
        verdict (outcome cancelled result).event = some ending := by
  cases cancelled with
  | true => exact .inl ⟨htrue rfl, rfl⟩
  | false => cases result with
    | ok _ =>
      have hne : state ≠ .cancelled := (hfalse rfl).resolve_left nofun
      exact .inr ⟨htaken.resolve_right hne, .completed, rfl, nofun, rfl⟩
    | error error =>
      by_cases htext : error = cancelledByUser
      · subst htext
        exact .inl ⟨hseen rfl, rfl⟩
      · have hne : state ≠ .cancelled := (hfalse rfl).resolve_left fun heq => htext (Except.error.inj heq)
        have hverdict : verdict (.runFailed error) = some .failed := by
          rw [verdict, if_neg htext]
        exact .inr ⟨htaken.resolve_right hne, .failed, rfl, nofun, hverdict⟩

theorem Sound.check (h : Sound log s)
    (ha : orderly s (.check storage) = true) (hphase : s.phase = .executed task result) :
    Sound (log ++ [(ServerAction.check storage, ())]) (MigrationDispatcher.check storage task result s) := by
  have htask : s.phase.task? = some task := by rw [hphase]; rfl
  apply h.onward
  · rw [htask]
    rfl
  · exact h.known
  · exact fun _ => rfl
  · intro row hrow hacc
    rw [hphase] at hacc
    obtain ⟨hunderway, hseen⟩ := hacc
    have hwork := hunderway.taken
    obtain ⟨other, hother, hid, hfound⟩ := row?_some hrow
    rw [htask] at hother
    cases hother
    rw [hid] at hfound
    refine ⟨hunderway, outcome_accounts hwork hseen ?_ ?_⟩
    · intro htrue
      cases storage with
      | fails detail => cases htrue
      | loses detail => cases htrue
      | works =>
        rw [isCancelled_perform hfound] at htrue
        exact of_decide_eq_true htrue
    · intro hfalse
      simp only [orderly, hrow, Option.all_some, decide_eq_true_eq] at ha
      rcases ha with hworks | hcancellation | hne
      · subst hworks
        rw [isCancelled_perform hfound] at hfalse
        exact .inr (of_decide_eq_false hfalse)
      · rw [hphase, Phase.hasSeenCancellation, decide_eq_true_eq] at hcancellation
        exact .inl hcancellation
      · exact .inr hne

theorem finish_perform {ending : MigrationTaskState}
    (hstorage : storage.isFailure = false) (hending : ending = .completed ∨ ending = .failed)
    (hrow : tasks.find taskId = some row) (hrunning : row.state = .running) :
    ((TaskCall.finish taskId ending).perform storage tasks).1.find taskId = some { row with state := ending } := by
  have hexecute : ((TaskCall.finish taskId ending).execute tasks).1.find taskId = some { row with
    state := ending } := by
    have hrun : (finish taskId ending).run tasks =
        (tasks.update taskId (setState (fun row => row.state = .running) ending), .ok ()) := by
      apply Transaction.run_eq
      rw [finish, if_pos hending]
      exact ⟨rfl, rfl⟩
    have hset := find_setState taskId (fun row => row.state = .running) ending hrow
    rw [if_pos ⟨(Table.find_eq_some.mp hrow).2, by simpa using hrunning⟩] at hset
    rw [show ((TaskCall.finish taskId ending).execute tasks).1 = _ from congrArg Prod.fst hrun]
    exact hset
  cases storage with
  | works | loses => exact hexecute
  | fails detail => cases hstorage

theorem Sound.finish {outcome : Outcome} (h : Sound log s)
    (ha : orderly s (.finish storage) = true) (hphase : s.phase = .checked task outcome) :
    Sound (log ++ [(ServerAction.finish storage, ())]) (MigrationDispatcher.finish storage task outcome s) := by
  have htask : s.phase.task? = some task := by rw [hphase]; rfl
  unfold MigrationDispatcher.finish
  cases hstate : outcome.state with
  | none =>
    apply h.onward
    · rw [htask]
      rfl
    · exact h.known
    · exact fun _ => rfl
    · intro row _ hacc
      rw [hphase] at hacc
      obtain ⟨hunderway, ⟨hcancelled, hverdict⟩ | ⟨-, ending, hending, -⟩⟩ := hacc
      · refine ⟨⟨.cancelled, hverdict, ?_⟩, hunderway.before⟩
        rw [hcancelled]
        exact agrees_ended .cancelled
      · rw [hstate] at hending
        cases hending
  | some ending =>
    have heffect : (TaskCall.finish task.taskId ending).Effect s.tasks
        ((TaskCall.finish task.taskId ending).perform storage s.tasks).1 := TaskCall.perform_effect _ _
    constructor
    · exact heffect.keyed h.keyed
    · exact fun c hc => heffect.present (h.known c hc)
    · intro other hother
      cases hother
      exact heffect.present (h.present task htask)
    · intro row' hrow' hrest
      have hother := hrest task rfl
      rcases heffect.back hrow' with ⟨row, state, hrow, rfl, hmoves⟩ | ⟨_, hcall, -⟩
      · have hsame : state = row.state := hmoves.resolve_right fun hm => hother hm.1.symm
        subst hsame
        have hold : ∀ other, s.phase.task? = some other → other.taskId ≠ row.taskId := by
          intro other hat
          rw [htask] at hat
          cases hat
          exact hother
        exact (h.rests row (Table.find_eq_some.mp hrow).1 hold).mono Resumed.mono
      · cases hcall
    · intro row' hrow'
      obtain ⟨row, hrow⟩ := Option.ne_none_iff_exists'.mp (h.present task htask)
      have hat := find_row? htask hrow
      have hacc := (h.accounts row hat).mono (@Resumed.mono log row.taskId (.finish storage, ()))
      rw [hphase] at hacc
      obtain ⟨hunderway, hcases⟩ := hacc
      obtain ⟨state, hnew, hmoves⟩ := heffect.kept _ _ hrow
      have heq : row' = { row with state } := Option.some.inj (hrow'.symm.trans hnew)
      subst heq
      rcases hcases with ⟨hcancelled, hverdict⟩ | ⟨hrunning, ending', hending, hne, hverdict⟩
      · have hsame : state = row.state := by
          rcases hmoves with hsame | hm
          · exact hsame
          · have hrunning : row.state = .running := hm.2.1
            rw [hcancelled] at hrunning
            cases hrunning
        rw [hcancelled] at hsame
        subst hsame
        exact ⟨⟨.cancelled, hverdict, agrees_ended .cancelled⟩, hunderway.before⟩
      · rw [hstate] at hending
        cases hending
        have hstorage : storage.isFailure = false := by
          simpa [orderly, hat, hrunning] using ha
        have hends : ending'.state = .completed ∨ ending'.state = .failed := by
          cases ending' with
          | completed => exact .inl rfl
          | failed => exact .inr rfl
          | cancelled => exact absurd rfl hne
        have hset := finish_perform hstorage hends hrow hrunning
        rw [hnew] at hset
        have heq := congrArg TaskRow.state (Option.some.inj hset)
        have hsame : state = ending'.state := heq
        subst hsame
        exact ⟨⟨ending', hverdict, agrees_ended ending'⟩, hunderway.before⟩

variable [Sha256]

theorem Sound.publish {nowMs : Nat} {outcome : Outcome} (h : Sound log s)
    (ha : orderly s (.publish storage nowMs) = true) (hphase : s.phase = .finished task outcome) :
    Sound (log ++ [(ServerAction.publish storage nowMs, ())])
      { s with
        phase := .waiting, published := published storage (outcome.publication task.taskId nowMs) s.published } := by
  have hpublished : published storage (outcome.publication task.taskId nowMs) s.published =
      s.published ++ [outcome.publication task.taskId nowMs] := by
    cases storage with
    | works => rfl
    | loses detail => rfl
    | fails detail => cases ha
  have htask : s.phase.task? = some task := by rw [hphase]; rfl
  constructor
  · exact h.keyed
  · intro c hc
    rw [hpublished] at hc
    rcases List.mem_append.mp hc with hc | hc
    · exact h.known c hc
    · rw [List.mem_singleton.mp hc]
      exact h.present task htask
  · exact nofun
  · intro row hrow _
    rw [hpublished, lastVerdict_append]
    by_cases hid : task.taskId = row.taskId
    · have hat : s.row? = some row := find_row? htask (by rw [hid, Table.find_of_mem hrow])
      have hacc := (h.accounts row hat).mono (@Resumed.mono log row.taskId (.publish storage nowMs, ()))
      rw [hphase] at hacc
      obtain ⟨⟨ending, hverdict, hagrees⟩, -⟩ := hacc
      have hon : verdictOn row.taskId (outcome.publication task.taskId nowMs) = some ending := by
        rw [← hverdict]
        exact if_pos hid
      rw [hon, Option.some_or]
      exact hagrees
    · have hon : verdictOn row.taskId (outcome.publication task.taskId nowMs) = none := if_neg hid
      rw [hon, Option.none_or]
      have hrest : ∀ other, s.phase.task? = some other → other.taskId ≠ row.taskId := by
        intro other hother
        rw [htask] at hother
        cases hother
        exact hid
      exact (h.rests row hrow hrest).mono Resumed.mono
  · exact nofun

theorem Sound.step {a : ServerAction} {r : Unit} (h : Sound log s) (ha : Orderly log s a)
    (hs : server.act s a = some (s', r)) : Sound (log ++ [(a, r)]) s' := by
  cases act_step hs with
  | request hcall => exact h.request hcall ha
  | claim hphase => exact h.claim hphase
  | announce hphase => exact h.announce hphase
  | execute hphase => exact h.execute ha hphase
  | check hphase => exact h.check ha hphase
  | finish hphase => exact h.finish ha hphase
  | publish hphase => exact h.publish ha hphase
  | restart => exact h.restart ha

theorem run_sound (h : Run server Orderly log s) : Sound log s :=
  h.invariant sound_initial fun _ _ _ _ _ hs ha hact => hs.step ha hact

theorem ServerStep.calls {a : ServerAction} (h : ServerStep s a s') :
    s'.tasks = s.tasks ∨ ∃ (call : TaskCall) (storage : Storage), s'.tasks = (call.perform storage s.tasks).1 := by
  cases h with
  | request hcall => exact .inr ⟨_, _, rfl⟩
  | @claim storage hphase =>
    refine .inr ⟨.claimNext, storage, ?_⟩
    unfold MigrationDispatcher.claim
    generalize TaskCall.claimNext.perform storage s.tasks = answer
    obtain ⟨tasks, reply⟩ := answer
    cases reply with
    | error e => rfl
    | ok record => cases record <;> rfl
  | announce | execute | check | publish | restart => exact .inl rfl
  | @finish storage task outcome hphase =>
    unfold MigrationDispatcher.finish
    cases outcome.state with
    | none => exact .inl rfl
    | some state => exact .inr ⟨.finish task.taskId state, storage, rfl⟩

theorem run_taskRun {allowed : Guard ServerState ServerAction Unit} (h : Run server allowed log s) :
    ∃ calls, TaskRun .empty calls s.tasks := by
  induction h with
  | start => exact ⟨[], .start⟩
  | step _ _ hs ih =>
    obtain ⟨calls, hrun⟩ := ih
    rcases (act_step hs).calls with hsame | ⟨call, storage, hcall⟩
    · rw [hsame]
      exact ⟨calls, hrun⟩
    · rw [hcall]
      exact ⟨_, hrun.step call storage⟩

/-- The store keeps its contract over all calls. What is published agrees with it in runs where cancellations come
in time and nothing is lost between the check for a cancellation and the last publication. -/
theorem migration_outcomes_agree (h : Run server Orderly log s) :
    (∃ calls, TaskRun .empty calls s.tasks) ∧
    (∀ tasks calls tasks', TaskRun tasks calls tasks' → ∀ taskId row, tasks.find taskId = some row →
      row.state = .completed ∨ row.state = .cancelled → tasks'.find taskId = some row) ∧
    (∀ (tasks : TaskTable) (call : TaskCall) (storage : Storage) taskId row, tasks.find taskId = some row →
      row.state = .failed → (call.perform storage tasks).1.find taskId = some row ∨
        call = .resume row.ownerId taskId ∧
          (call.perform storage tasks).1.find taskId = some { row with state := .captured }) ∧
    (∀ calls tasks, TaskRun .empty calls tasks → ∀ row ∈ tasks.rows, ∀ submission : MigrationTaskSubmission,
      row.ownerId = submission.ownerId → row.requestId = submission.requestId →
      (TaskCall.submit submission).execute tasks =
        (tasks, if submission.Matches row then .ok (rowToRecord row) else .error .conflict)) ∧
    (∀ (tasks : TaskTable) (call : TaskCall) e, (call.execute tasks).2 = .error e → (call.execute tasks).1 = tasks) ∧
    ∀ row ∈ s.tasks.rows, (∀ task, s.phase.task? = some task → task.taskId ≠ row.taskId) →
      Agrees row.state (lastVerdict row.taskId s.published) (Resumed log row.taskId) := by
  refine ⟨run_taskRun h, ?_, ?_, ?_, ?_, (run_sound h).rests⟩
  · intro tasks calls tasks' hrun taskId row hrow hstate
    exact hrun.stays hrow hstate
  · intro tasks call storage taskId row hrow hstate
    exact TaskCall.perform_failed hrow hstate
  · intro calls tasks hrun row hrow submission howner hrequest
    have hempty : KeyedByRequest .empty := by
      intro u hu
      cases hu
    exact submit_again (hrun.keyed hempty) hrow howner hrequest
  · intro tasks call e he
    exact TaskCall.execute_error he

end steps

section samples

def sampleSubmission : MigrationTaskSubmission where
  ownerId := "owner"
  requestId := "request"
  taskId := "task"
  projectName := "project"
  projectDigest := ⟨[]⟩
  projectSizeBytes := 7
  fileCount := 1
  createdAtMs := 10

def cancelledInTime : List ServerAction :=
  [.request (.submit sampleSubmission) .works, .claim .works, .announce .works 11,
    .request (.cancel "owner" "task") .works, .execute (.error cancelledByUser), .check .works, .finish .works,
    .publish .works 12]

theorem migration_outcomes_agree_sample :
    ∃ s : ServerState, s.tasks.rows.map TaskRow.state = [.cancelled] ∧
      ∀ row ∈ s.tasks.rows, lastVerdict row.taskId s.published = some .cancelled := by
  obtain ⟨log, s, hrun, -, hcheck⟩ := play_reaches (@server transparentSha256) Orderly (fun _ s a => orderly s a)
    cancelledInTime (fun _ s => s.phase = .waiting ∧ s.tasks.rows.map TaskRow.state = [.cancelled]) (fun _ _ _ h => h)
    (by decide) (by decide)
  obtain ⟨hphase, hstates⟩ := of_decide_eq_true hcheck
  refine ⟨s, hstates, fun row hrow => ?_⟩
  have hagrees := (@migration_outcomes_agree s log transparentSha256 hrun).2.2.2.2.2 row hrow
    (by rw [hphase]; exact nofun)
  have hstate : row.state = .cancelled := by
    have hmem := List.mem_map_of_mem (f := TaskRow.state) hrow
    rw [hstates] at hmem
    exact List.mem_singleton.mp hmem
  exact hagrees.cancelled.mpr hstate

/-- The cancellation comes between the dispatcher's check and the end of the task. -/
def cancelledTooLate : List ServerAction :=
  [.request (.submit sampleSubmission) .works, .claim .works, .announce .works 11, .execute (.ok ()), .check .works,
    .request (.cancel "owner" "task") .works, .finish .works, .publish .works 12]

theorem late_cancellation_published_as_completed :
    ∃ log s, Run (@server transparentSha256) anything log s ∧ s.phase = .waiting ∧
      s.tasks.rows.map TaskRow.state = [.cancelled] ∧ lastVerdict "task" s.published = some .completed := by
  obtain ⟨log, s, hrun, -, hcheck⟩ := play_reaches (@server transparentSha256) anything
    (fun _ _ _ => true) cancelledTooLate
    (fun _ s => s.phase = .waiting ∧ s.tasks.rows.map TaskRow.state = [.cancelled] ∧
      lastVerdict "task" s.published = some .completed) (fun _ _ _ _ => trivial) (allowedFrom_true _ _ _) (by decide)
  exact ⟨log, s, hrun, of_decide_eq_true hcheck⟩

end samples

end AlloyPort.Migration
