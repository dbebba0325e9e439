import AlloyPort.Interaction.Store
import AlloyPort.Library.Machine
import AlloyPort.Migration.TaskStore
import AlloyPort.Episode.Shape
import AlloyPort.Episode.Verdict

/-! The daemon loop that runs one submitted migration after the other and publishes how it ended, among the
requests of the users. -/

namespace AlloyPort.Migration

open Events Interaction Machine

/-- The error that the driver of an episode ends with once it has seen the cancellation. -/
def cancelledByUser : String := "migration cancelled by user"

section publishing

variable [Sha256]

def eventContentKey (event : Event) : String :=
  let text := match event with
    | .runFailed error => error
    | .runCompleted result => result
    | _ => ""
  String.ofList ((Sha256.digestBytes (utf8 text)).hexadecimal.toList.take 16)

def publication (taskId dedupKey : String) (event : Event) (nowMs : Nat) : InteractionCall :=
  .append dedupKey
    { ProducerEvent.new taskId ⟨"alloyport-server", "migration-dispatcher"⟩ nowMs event with
      taskId := some taskId, authority := .observed, visibility := .user }

def runningPublication (taskId : String) (nowMs : Nat) : InteractionCall :=
  publication taskId "migration-running"
    (.planUpdated ⟨"[\x7b\"status\":\"in_progress\",\"step\":\"prepare migration episode\"\x7d]"⟩) nowMs

structure Outcome where
  state : Option MigrationTaskState
  dedupKey : String
  event : Event
  deriving DecidableEq

def outcome (cancelled : Bool) (result : Except String Unit) : Outcome :=
  if cancelled = true then ⟨none, "migration-cancelled", .runFailed cancelledByUser⟩
  else match result with
    | .ok () => ⟨some .completed, "migration-completed", .runCompleted "migration Episode completed successfully"⟩
    | .error error => ⟨some .failed, "migration-failed", .runFailed error⟩

def Outcome.publication (outcome : Outcome) (taskId : String) (nowMs : Nat) : InteractionCall :=
  Migration.publication taskId (outcome.dedupKey ++ ":" ++ eventContentKey outcome.event) outcome.event nowMs

end publishing

/-- Where `run_until` stands. -/
inductive Phase where
  | waiting
  | stopped
  | claimed (task : MigrationTaskRecord)
  | executing (task : MigrationTaskRecord)
  | executed (task : MigrationTaskRecord) (result : Except String Unit)
  | checked (task : MigrationTaskRecord) (outcome : Outcome)
  | finished (task : MigrationTaskRecord) (outcome : Outcome)
  deriving DecidableEq

def Phase.task? : Phase → Option MigrationTaskRecord
  | .waiting | .stopped => none
  | .claimed task | .executing task | .executed task _ | .checked task _ | .finished task _ => some task

structure ServerState where
  tasks : TaskTable
  phase : Phase
  /-- What the log has taken, duplicates too. -/
  published : List InteractionCall

inductive ServerAction where
  | request (call : TaskCall) (storage : Storage)
  | claim (storage : Storage)
  | announce (storage : Storage) (nowMs : Nat)
  | execute (result : Except String Unit)
  | check (storage : Storage)
  | finish (storage : Storage)
  | publish (storage : Storage) (nowMs : Nat)
  | restart

def TaskCall.isRequest : TaskCall → Bool
  | .submit _ | .get _ _ | .list _ _ | .cancel _ _ | .resume _ _ => true
  | .claimNext | .finish _ _ | .isCancelled _ => false

/-- The event log after a publication that may fail or be answered with an error only. -/
def published (storage : Storage) (call : InteractionCall) (log : List InteractionCall) : List InteractionCall :=
  match storage with
  | .fails _ => log
  | .works | .loses _ => log ++ [call]

variable [Sha256]

namespace MigrationDispatcher

def claim (storage : Storage) (s : ServerState) : ServerState :=
  match TaskCall.claimNext.perform storage s.tasks with
  | (tasks, .ok (some task)) => { s with tasks, phase := .claimed task }
  | (tasks, .ok none) => { s with tasks }
  | (tasks, .error _) => { s with tasks, phase := .stopped }

def check (storage : Storage) (task : MigrationTaskRecord) (result : Except String Unit) (s : ServerState) :
    ServerState :=
  let cancelled := match ((TaskCall.isCancelled task.taskId).perform storage s.tasks).2 with
    | .ok cancelled => cancelled
    | .error _ => false
  { s with phase := .checked task (outcome cancelled result) }

def finish (storage : Storage) (task : MigrationTaskRecord) (outcome : Outcome) (s : ServerState) : ServerState :=
  match outcome.state with
  | none => { s with phase := .finished task outcome }
  | some state =>
    { s with tasks := ((TaskCall.finish task.taskId state).perform storage s.tasks).1, phase := .finished task outcome }

end MigrationDispatcher

open MigrationDispatcher in
/-- The dispatcher takes one step of `run_until`, or a request of a user is served. -/
def server : System ServerState ServerAction Unit where
  initial := ⟨.empty, .waiting, []⟩
  act s
    | .request call storage =>
      if call.isRequest = true then some ({ s with tasks := (call.perform storage s.tasks).1 }, ()) else none
    | .claim storage => match s.phase with
      | .waiting => some (claim storage s, ())
      | _ => none
    | .announce storage nowMs => match s.phase with
      | .claimed task => some
        ({ s with
            phase := .executing task, published :=
              published storage (runningPublication task.taskId nowMs) s.published }, ())
      | _ => none
    | .execute result => match s.phase with
      | .executing task => some ({ s with phase := .executed task result }, ())
      | _ => none
    | .check storage => match s.phase with
      | .executed task result => some (check storage task result s, ())
      | _ => none
    | .finish storage => match s.phase with
      | .checked task outcome => some (finish storage task outcome s, ())
      | _ => none
    | .publish storage nowMs => match s.phase with
      | .finished task outcome => some
        ({ s with
            phase := .waiting, published := published storage (outcome.publication task.taskId nowMs) s.published }, ())
      | _ => none
    | .restart => some ({ s with phase := .waiting }, ())

inductive ServerStep (s : ServerState) : ServerAction → ServerState → Prop where
  | request {call storage} (hcall : call.isRequest = true) :
      ServerStep s (.request call storage) { s with tasks := (call.perform storage s.tasks).1 }
  | claim {storage} (hphase : s.phase = .waiting) : ServerStep s (.claim storage) (MigrationDispatcher.claim storage s)
  | announce {storage nowMs task} (hphase : s.phase = .claimed task) : ServerStep s (.announce storage nowMs)
      { s with
        phase := .executing task, published := published storage (runningPublication task.taskId nowMs) s.published }
  | execute {result task} (hphase : s.phase = .executing task) :
      ServerStep s (.execute result) { s with phase := .executed task result }
  | check {storage task result} (hphase : s.phase = .executed task result) :
      ServerStep s (.check storage) (MigrationDispatcher.check storage task result s)
  | finish {storage task outcome} (hphase : s.phase = .checked task outcome) :
      ServerStep s (.finish storage) (MigrationDispatcher.finish storage task outcome s)
  | publish {storage nowMs task outcome} (hphase : s.phase = .finished task outcome) :
      ServerStep s (.publish storage nowMs) { s with
        phase := .waiting, published := published storage (outcome.publication task.taskId nowMs) s.published }
  | restart : ServerStep s .restart { s with phase := .waiting }

theorem act_step {s s' : ServerState} {a : ServerAction} {r : Unit} (h : server.act s a = some (s', r)) :
    ServerStep s a s' := by
  cases a with simp only [server] at h
  | request call storage =>
    split at h
    · cases h
      exact .request ‹_›
    · cases h
  | claim storage =>
    split at h
    · cases h
      exact .claim ‹_›
    · cases h
  | announce storage nowMs =>
    split at h
    · cases h
      exact .announce ‹_›
    · cases h
  | execute result =>
    split at h
    · cases h
      exact .execute ‹_›
    · cases h
  | check storage =>
    split at h
    · cases h
      exact .check ‹_›
    · cases h
  | finish storage =>
    split at h
    · cases h
      exact .finish ‹_›
    · cases h
  | publish storage nowMs =>
    split at h
    · cases h
      exact .publish ‹_›
    · cases h
  | restart =>
    cases h
    exact .restart

end AlloyPort.Migration

/-! The execution of a task, one operation after another: its episode is opened, resumed and advanced until it ends.
The database of the episode outlives a crash of the server, and the execution does not. -/

namespace AlloyPort.Migration

open Database Effect Events Interaction Machine SharedStore

def statusName : EpisodeStatus → String
  | .created => "Created"
  | .readyForModel => "ReadyForModel"
  | .modelAttemptPending => "ModelAttemptPending"
  | .turnRecorded => "TurnRecorded"
  | .toolWorkPending => "ToolWorkPending"
  | .stopReview => "StopReview"
  | .succeeded => "Succeeded"
  | .incomplete => "Incomplete"
  | .cancellationPending => "CancellationPending"
  | .suspensionRequested => "SuspensionRequested"
  | .suspended => "Suspended"
  | .cancelled => "Cancelled"
  | .budgetExhausted => "BudgetExhausted"
  | .failed => "Failed"

structure Texts where
  task : MigrationTaskError → String
  runtime : AgentLoopRuntimeError → String

theorem episode_nonblank (taskId : String) : isBlank ("episode-" ++ taskId) = false := by
  rw [isBlank, String.toList_append, List.all_append]
  rfl

def episodeId (taskId : String) : EpisodeId := ⟨"episode-" ++ taskId, episode_nonblank taskId⟩

structure FreshEpisode where
  state : DurableEpisodeState
  fresh : AlloyPort.Fresh state

abbrev EpisodeVersions := EpisodeId → List DurableEpisodeState

/-- Where `execute` stands. -/
inductive Driver where
  /-- The project is materialized, the configuration loaded, the provider checked and the episode opened. -/
  | preparing
  | awaiting
  | resuming (rest : RunnerProg EpisodeStatus)
  | looping
  | advancing (rest : RunnerProg AgentLoopAdvance)
  | returned (result : Except String Unit)

structure Daemon where
  server : ServerState
  driver : Driver
  /-- Each task has a database of its own. -/
  databases : String → EpisodeVersions

inductive DaemonAction where
  | server (action : ServerAction)
  | prepare (opened : Except String FreshEpisode)
  | poll (storage : Storage) (missing : Bool)
  | operate (fault : Option EpisodeRepositoryError) (oracle : Oracle)
  | check (storage : Storage)
  | handOver

namespace Driver

def missingEpisode : EpisodeRepositoryError := .adapter "episode is absent or its revision has moved on"

def openEpisode (versions : EpisodeVersions) (episode : FreshEpisode) : EpisodeVersions :=
  if versions episode.state.episodeId = [] then Function.update versions episode.state.episodeId [episode.state]
  else versions

/-- `check_cancelled` -/
def cancellation (texts : Texts) (storage : Storage) (taskId : String) (tasks : TaskTable) : Except String Unit :=
  match ((TaskCall.isCancelled taskId).perform storage tasks).2 with
  | .ok true => .error cancelledByUser
  | .ok false => .ok ()
  | .error error => .error (texts.task error)

variable [Sha256]

def poll (texts : Texts) (allowance : EpisodeAllowance) (storage : Storage) (missing : Bool) (taskId : String)
    (tasks : TaskTable) : Driver :=
  match cancellation texts storage taskId tasks with
  | .error error => .returned (.error error)
  | .ok () => if missing = true then .awaiting else .resuming (AgentLoopRunner.resume (episodeId taskId) allowance)

def check (texts : Texts) (storage : Storage) (taskId : String) (tasks : TaskTable) : Driver :=
  match cancellation texts storage taskId tasks with
  | .error error => .returned (.error error)
  | .ok () => .advancing (AgentLoopRunner.advance (episodeId taskId))

omit [Sha256] in
def afterResume (texts : Texts) : Except AgentLoopRuntimeError EpisodeStatus → Driver
  | .ok _ => .looping
  | .error error => .returned (.error (texts.runtime error))

omit [Sha256] in
def afterAdvance (texts : Texts) : Except AgentLoopRuntimeError AgentLoopAdvance → Driver
  | .ok (.terminal .succeeded) => .returned (.ok ())
  | .ok (.terminal status) =>
    .returned (.error ("Candidate Episode ended in terminal state " ++ statusName status))
  | .ok .suspended => .returned (.error "Candidate Episode suspended for operator reconciliation")
  | .ok (.progressed _) | .ok (.progressedAfter _ _) => .looping
  | .error error => .returned (.error (texts.runtime error))

omit [Sha256] in
def operate (texts : Texts) (fault : Option EpisodeRepositoryError) (oracle : Oracle) (versions : EpisodeVersions) :
    Driver → Option (EpisodeVersions × Driver)
  | .resuming (.ret status) => some (versions, afterResume texts (.ok status))
  | .resuming (.fail error) => some (versions, afterResume texts (.error error))
  | .resuming rest =>
    let (versions, rest) := serve DurableEpisodeState.episodeId missingEpisode fault oracle versions rest
    some (versions, .resuming rest)
  | .advancing (.ret outcome) => some (versions, afterAdvance texts (.ok outcome))
  | .advancing (.fail error) => some (versions, afterAdvance texts (.error error))
  | .advancing rest =>
    let (versions, rest) := serve DurableEpisodeState.episodeId missingEpisode fault oracle versions rest
    some (versions, .advancing rest)
  | .preparing | .awaiting | .looping | .returned _ => none

end Driver

def Daemon.setVersions (s : Daemon) (taskId : String) (versions : EpisodeVersions) : Daemon :=
  { s with databases := Function.update s.databases taskId versions }

variable [Sha256]

/-- The steps of the dispatcher but `execute`, and the steps of that in its place. -/
def daemon (texts : Texts) (allowance : EpisodeAllowance) : System Daemon DaemonAction Unit where
  initial := ⟨server.initial, .preparing, fun _ _ => []⟩
  act s
    | .server (.execute _) => none
    | .server action => match server.act s.server action with
      | some (next, ()) =>
        -- An execution begins once the task is announced.
        some ({ s with server := next, driver := if action matches .announce _ _ then .preparing else s.driver }, ())
      | none => none
    | .prepare opened => match s.server.phase, s.driver, opened with
      | .executing _, .preparing, .error error => some ({ s with driver := .returned (.error error) }, ())
      | .executing task, .preparing, .ok episode =>
        if episode.state.episodeId = episodeId task.taskId then
          some ({ s with driver := .awaiting }.setVersions task.taskId
            (Driver.openEpisode (s.databases task.taskId) episode), ())
        else none
      | _, _, _ => none
    | .poll storage missing => match s.server.phase, s.driver with
      | .executing task, .awaiting =>
        some ({ s with driver := Driver.poll texts allowance storage missing task.taskId s.server.tasks }, ())
      | _, _ => none
    | .operate fault oracle => match s.server.phase with
      | .executing task =>
        (s.driver.operate texts fault oracle (s.databases task.taskId)).map fun next =>
          ({ s with driver := next.2 }.setVersions task.taskId next.1, ())
      | _ => none
    | .check storage => match s.server.phase, s.driver with
      | .executing task, .looping => some ({ s with driver := Driver.check texts storage task.taskId s.server.tasks },
        ())
      | _, _ => none
    | .handOver => match s.driver with
      | .returned result => match server.act s.server (.execute result) with
        | some (next, ()) => some ({ s with server := next }, ())
        | none => none
      | _ => none

inductive DaemonStep (texts : Texts) (allowance : EpisodeAllowance) (s : Daemon) : DaemonAction → Daemon → Prop where
  | announced {storage nowMs task} (hphase : s.server.phase = .claimed task) :
    DaemonStep texts allowance s (.server (.announce storage nowMs))
      { s with
        driver := .preparing
        server := { s.server with
          phase := .executing task, published :=
            published storage (runningPublication task.taskId nowMs) s.server.published } }
  | served {action next} (hstep : ServerStep s.server action next) (hexecute : ∀ result, action ≠ .execute result)
      (hannounce : ∀ storage nowMs, action ≠ .announce storage nowMs) :
    DaemonStep texts allowance s (.server action) { s with server := next }
  | unprepared {task error} (hphase : s.server.phase = .executing task) :
    s.driver = .preparing → DaemonStep texts allowance s (.prepare (.error error)) { s with
    driver := .returned (.error error) }
  | prepared {task episode} (hphase : s.server.phase = .executing task) (hdriver : s.driver = .preparing)
      (hid : episode.state.episodeId = episodeId task.taskId) :
    DaemonStep texts allowance s (.prepare (.ok episode))
      ({ s with driver := .awaiting }.setVersions task.taskId (Driver.openEpisode (s.databases task.taskId) episode))
  | polled {storage missing task} (hphase : s.server.phase = .executing task) (hdriver : s.driver = .awaiting) :
    DaemonStep texts allowance s (.poll storage missing)
      { s with driver := Driver.poll texts allowance storage missing task.taskId s.server.tasks }
  | operated {fault oracle task versions driver} (hphase : s.server.phase = .executing task)
      (hoperate : s.driver.operate texts fault oracle (s.databases task.taskId) = some (versions, driver)) :
    DaemonStep texts allowance s (.operate fault oracle) ({ s with driver := driver }.setVersions task.taskId versions)
  | checked {storage task} (hphase : s.server.phase = .executing task) (hdriver : s.driver = .looping) :
    DaemonStep texts allowance s (.check storage) { s with
    driver := Driver.check texts storage task.taskId s.server.tasks }
  | handedOver {task result} (hphase : s.server.phase = .executing task) (hdriver : s.driver = .returned result) :
    DaemonStep texts allowance s .handOver { s with server := { s.server with phase := .executed task result } }

theorem daemon_step {texts : Texts} {allowance : EpisodeAllowance} {s s' : Daemon} {a : DaemonAction} {r : Unit}
    (h : (daemon texts allowance).act s a = some (s', r)) : DaemonStep texts allowance s a s' := by
  cases a with
  | server action =>
    cases hact : server.act s.server action with
    | none => cases action <;> simp [daemon, hact] at h
    | some next =>
      obtain ⟨next, ⟨⟩⟩ := next
      have hstep := act_step hact
      cases action with
      | execute result => simp [daemon] at h
      | announce storage nowMs =>
        simp only [daemon, hact] at h
        cases h
        cases hstep with
        | announce hphase => exact .announced hphase
      | _ =>
        simp only [daemon, hact] at h
        cases h
        exact .served hstep nofun nofun
  | prepare opened =>
    simp only [daemon] at h
    split at h
    · cases h
      exact .unprepared ‹_› ‹_›
    · split at h
      · cases h
        exact .prepared ‹_› ‹_› ‹_›
      · cases h
    · cases h
  | poll storage missing =>
    simp only [daemon] at h
    split at h
    · cases h
      exact .polled ‹_› ‹_›
    · cases h
  | operate fault oracle =>
    simp only [daemon] at h
    split at h
    · obtain ⟨⟨versions, driver⟩, hoperate, hnext⟩ := Option.map_eq_some_iff.mp h
      cases hnext
      exact .operated ‹_› hoperate
    · cases h
  | check storage =>
    simp only [daemon] at h
    split at h
    · cases h
      exact .checked ‹_› ‹_›
    · cases h
  | handOver =>
    simp only [daemon] at h
    split at h
    · rename_i result hdriver
      split at h
      · rename_i next hact
        cases h
        cases act_step hact with
        | execute hphase => exact .handedOver hphase hdriver
      · cases h
    · cases h

end AlloyPort.Migration

namespace AlloyPort.Migration

open Database Effect Transaction Events Interaction Machine SharedStore

def Succeeds (versions : List DurableEpisodeState) : Prop :=
  ∃ state, versions.getLast? = some state ∧ state.status = .succeeded

def Daemon.Succeeded (s : Daemon) (taskId : String) : Prop := Succeeds (s.databases taskId (episodeId taskId))

def Cancelled (tasks : TaskTable) (taskId : String) : Prop :=
  ∃ row, tasks.find taskId = some row ∧ row.state = .cancelled

section versions

variable {versions : EpisodeVersions} {id : EpisodeId} {α : Type} {p : RunnerProg α}
  {fault : Option EpisodeRepositoryError} {oracle : Oracle} {R : Bool → Except AgentLoopRuntimeError α → Prop}

theorem succeeds_concat {state : DurableEpisodeState} {before : List DurableEpisodeState} :
    Succeeds (before ++ [state]) ↔ state.status = .succeeded := by
  unfold Succeeds
  simp

def Aware (versions : EpisodeVersions) (id : EpisodeId) (p : RunnerProg α)
    (R : Bool → Except AgentLoopRuntimeError α → Prop) :
    Prop := ∃ settled, ends verdictContract settled p R ∧ (Succeeds (versions id) → settled = true)

theorem Aware.serve (h : Aware versions id p R) :
    Aware (serve DurableEpisodeState.episodeId Driver.missingEpisode fault oracle versions p).1 id
      (serve DurableEpisodeState.episodeId Driver.missingEpisode fault oracle versions p).2 R := by
  obtain ⟨settled, hends, haware⟩ := h
  cases p with
  | ret | fail => exact ⟨settled, hends, haware⟩
  | op o next =>
    obtain ⟨hpre, hnext⟩ := hends
    cases o with
    | load k =>
      have hstill : ∀ reply, Aware versions id (next reply) R := fun reply => ⟨settled, hnext reply settled rfl, haware⟩
      cases fault with
      | some e => exact hstill _
      | none => cases hlast : (versions k).getLast? with
        | none =>
          simp only [SharedStore.serve, hlast]
          exact hstill _
        | some state =>
          simp only [SharedStore.serve, hlast]
          exact hstill _
    | call c => exact ⟨settled, hnext _ settled rfl, haware⟩
    | save revision state =>
      have hrefused : ∀ e, Aware versions id (next (.error e)) R := fun e => ⟨settled, hnext _ settled rfl, haware⟩
      cases fault with
      | some e => exact hrefused e
      | none =>
        simp only [SharedStore.serve]
        by_cases hlast : revision + 1 = (versions state.episodeId).length
        · rw [if_pos hlast]
          refine ⟨_, hnext (.ok (revision + 1)) _ rfl, fun hwon => ?_⟩
          dsimp only at hwon
          by_cases hid : id = state.episodeId
          · subst hid
            rw [Function.update_self, succeeds_concat] at hwon
            exact decide_eq_true hwon
          · -- The episode is another one and has not succeeded, since nothing is saved after a success.
            rw [Function.update_of_ne hid] at hwon
            rw [show settled = false from hpre] at haware
            cases haware hwon
        · rw [if_neg hlast]
          exact hrefused _

end versions

section driver

variable {versions versions' : EpisodeVersions} {taskId : String} {driver driver' : Driver} {texts : Texts}
  {storage : Storage} {tasks : TaskTable}

/-- A driver whose episode has succeeded is about to return that. -/
def Driver.Sound (versions : EpisodeVersions) (taskId : String) : Driver → Prop
  | .preparing | .awaiting | .looping => ¬ Succeeds (versions (episodeId taskId))
  | .resuming rest => Aware versions (episodeId taskId) rest fun settled _ => settled = false
  | .advancing rest =>
    Aware versions (episodeId taskId) rest fun settled r => settled = true → r = .ok (.terminal .succeeded)
  | .returned result => Succeeds (versions (episodeId taskId)) → result = .ok ()

theorem sound_afterResume {r : Except AgentLoopRuntimeError EpisodeStatus}
    (h : ¬ Succeeds (versions (episodeId taskId))) : (Driver.afterResume texts r).Sound versions taskId := by
  cases r with
  | error error => exact fun hwon => absurd hwon h
  | ok status => exact h

theorem sound_afterAdvance {r : Except AgentLoopRuntimeError AgentLoopAdvance}
    (h : Succeeds (versions (episodeId taskId)) → r = .ok (.terminal .succeeded)) :
    (Driver.afterAdvance texts r).Sound versions taskId := by
  by_cases hwon : Succeeds (versions (episodeId taskId))
  · rw [h hwon]
    exact fun _ => rfl
  · cases r with
    | error error => exact fun hwon' => absurd hwon' hwon
    | ok outcome =>
      cases outcome with
      | terminal status => cases status <;> exact fun hwon' => absurd hwon' hwon
      | suspended => exact fun hwon' => absurd hwon' hwon
      | progressed status => exact hwon
      | progressedAfter status delay => exact hwon

theorem Driver.Sound.operate {fault : Option EpisodeRepositoryError} {oracle : Oracle}
    (h : driver.Sound versions taskId)
    (hoperate : driver.operate texts fault oracle versions = some (versions', driver')) :
    driver'.Sound versions' taskId := by
  cases driver with
  | preparing | awaiting | looping | returned => cases hoperate
  | resuming rest => cases rest with
    | ret status =>
      cases hoperate
      obtain ⟨settled, hends, haware⟩ := h
      refine sound_afterResume fun hwon => ?_
      rw [haware hwon] at hends
      cases hends
    | fail error =>
      cases hoperate
      obtain ⟨settled, hends, haware⟩ := h
      refine sound_afterResume fun hwon => ?_
      rw [haware hwon] at hends
      cases hends
    | op o next =>
      cases hoperate
      exact Aware.serve h
  | advancing rest => cases rest with
    | ret outcome =>
      cases hoperate
      obtain ⟨settled, hends, haware⟩ := h
      exact sound_afterAdvance fun hwon => hends (haware hwon)
    | fail error =>
      cases hoperate
      obtain ⟨settled, hends, haware⟩ := h
      exact sound_afterAdvance fun hwon => hends (haware hwon)
    | op o next =>
      cases hoperate
      exact Aware.serve h

theorem sound_openEpisode {episode : FreshEpisode} (h : ¬ Succeeds (versions (episodeId taskId))) :
    ¬ Succeeds (Driver.openEpisode versions episode (episodeId taskId)) := by
  unfold Driver.openEpisode
  by_cases hnew : versions episode.state.episodeId = []
  · rw [if_pos hnew]
    by_cases hid : episodeId taskId = episode.state.episodeId
    · rw [hid, Function.update_self]
      rintro ⟨state, hlast, hstatus⟩
      cases hlast
      have hcreated := episode.fresh.created.1.symm.trans hstatus
      cases hcreated
    · rw [Function.update_of_ne hid]
      exact h
  · rw [if_neg hnew]
    exact h

theorem sound_poll {allowance : EpisodeAllowance} {missing : Bool}
    (h : ¬ Succeeds (versions (episodeId taskId))) :
    (Driver.poll texts allowance storage missing taskId tasks).Sound versions taskId := by
  unfold Driver.poll
  cases Driver.cancellation texts storage taskId tasks with
  | error error => exact fun hwon => absurd hwon h
  | ok =>
    cases missing with
    | true => exact h
    | false => exact ⟨false, Reserved.unsettled reserved_resume, fun hwon => absurd hwon h⟩

variable [Sha256]

theorem sound_check (h : ¬ Succeeds (versions (episodeId taskId))) :
    (Driver.check texts storage taskId tasks).Sound versions taskId := by
  unfold Driver.check
  cases Driver.cancellation texts storage taskId tasks with
  | error error => exact fun hwon => absurd hwon h
  | ok => exact ⟨false, settles_advance, fun hwon => absurd hwon h⟩

end driver

section tasks

variable {tasks : TaskTable} {call : TaskCall} {storage : Storage} {taskId : String}

theorem Cancelled.perform (h : Cancelled tasks taskId) : Cancelled (call.perform storage tasks).1 taskId := by
  obtain ⟨row, hrow, hstate⟩ := h
  obtain ⟨state, hnew, hsame | hmoves⟩ := (call.perform_effect storage).kept taskId row hrow
  · exact ⟨_, hnew, hsame.trans hstate⟩
  · exact absurd hstate hmoves.leaves.2.1

theorem cancelled_of_answer (h : ((TaskCall.isCancelled taskId).perform storage tasks).2 = .ok true) :
    Cancelled tasks taskId := by
  have hanswer : ((TaskCall.isCancelled taskId).execute tasks).2 = .ok true := by
    cases storage with
    | works => exact h
    | fails detail => cases h
    | loses detail => cases h
  have hread : (SqliteMigrationTaskStore.isCancelled taskId).wp tasks
      (fun cancelled _ => cancelled = true → Cancelled tasks taskId) fun _ _ => True := by
    simp only [SqliteMigrationTaskStore.isCancelled, Transaction.wp_bind, Transaction.wp_read]
    split
    · trivial
    · rename_i row hrow
      exact fun hcancelled => ⟨row, hrow, of_decide_eq_true hcancelled⟩
  rcases run_cases hread with ⟨cancelled, hok, hcancelled⟩ | ⟨error, herror, -⟩
  · exact hcancelled (Except.ok.inj (hok.symm.trans hanswer))
  · cases herror.symm.trans hanswer

end tasks

section runs

variable {texts : Texts} {allowance : EpisodeAllowance} {s s' : Daemon} {a : DaemonAction} {taskId : String}

def Reports (s : Daemon) (task : MigrationTaskRecord) (reported : Outcome) : Prop :=
  s.Succeeded task.taskId → reported = outcome false (.ok ()) ∨ Cancelled s.server.tasks task.taskId

/-- What holds of the task that the dispatcher has. -/
def Daemon.Faithful (s : Daemon) : Prop :=
  match s.server.phase with
  | .waiting | .stopped | .claimed _ => True
  | .executing task => s.driver.Sound (s.databases task.taskId) task.taskId
  | .executed task result => s.Succeeded task.taskId → result = .ok ()
  | .checked task reported | .finished task reported => Reports s task reported

def BeginsUnsettled : Guard Daemon DaemonAction Unit := fun _ s a =>
  ∀ storage nowMs task, a = .server (.announce storage nowMs) → s.server.phase = .claimed task →
    ¬ s.Succeeded task.taskId

variable [Sha256]

theorem Daemon.Faithful.served {action : ServerAction} {next : ServerState} (h : s.Faithful)
    (hstep : ServerStep s.server action next)
    (hexecute : ∀ result, action ≠ .execute result) (hannounce : ∀ storage nowMs, action ≠ .announce storage nowMs) :
    Daemon.Faithful { s with server := next } := by
  cases hstep with
  | announce => exact absurd rfl (hannounce _ _)
  | execute => exact absurd rfl (hexecute _)
  | publish => trivial
  | restart => trivial
  | @request call storage hcall =>
    cases hphase : s.server.phase with simp only [Faithful, hphase] at h ⊢
    | executing | executed => exact h
    | checked | finished => exact fun hwon => (h hwon).imp_right Cancelled.perform
  | @claim storage hphase =>
    simp only [MigrationDispatcher.claim]
    split
    · trivial
    · simp only [Faithful, hphase]
    · trivial
  | @check storage task result hphase =>
    simp only [Faithful, hphase] at h
    intro hwon
    rw [h hwon]
    cases hanswer : ((TaskCall.isCancelled task.taskId).perform storage s.server.tasks).2 with
    | error error => exact .inl (rfl)
    | ok cancelled => cases cancelled with
      | false => exact .inl (rfl)
      | true => exact .inr (cancelled_of_answer hanswer)
  | @finish storage task reported hphase =>
    simp only [Faithful, hphase] at h
    unfold MigrationDispatcher.finish
    cases hstate : reported.state with
    | none => exact h
    | some state => exact fun hwon => (h hwon).imp_right Cancelled.perform

theorem Daemon.Faithful.step (h : s.Faithful) (hguard : BeginsUnsettled [] s a)
    (hstep : DaemonStep texts allowance s a s') : s'.Faithful := by
  cases hstep with
  | @announced storage nowMs task hphase => exact hguard storage nowMs task rfl hphase
  | served hserver hexecute hannounce => exact h.served hserver hexecute hannounce
  | @unprepared task error hphase hdriver =>
    simp only [Faithful, hphase, hdriver] at h ⊢
    exact fun hwon => absurd hwon h
  | @prepared task episode hphase hdriver hid =>
    simp only [Faithful, hphase, hdriver, setVersions, Function.update_self] at h ⊢
    exact sound_openEpisode h
  | @polled storage missing task hphase hdriver =>
    simp only [Faithful, hphase, hdriver] at h ⊢
    exact sound_poll h
  | @operated fault oracle task versions driver hphase hoperate =>
    simp only [Faithful, hphase, setVersions, Function.update_self] at h ⊢
    exact h.operate hoperate
  | @checked storage task hphase hdriver =>
    simp only [Faithful, hphase, hdriver] at h ⊢
    exact sound_check h
  | @handedOver task result hphase hdriver =>
    simp only [Faithful, hphase, hdriver] at h ⊢
    exact h

theorem run_faithful {log : History DaemonAction Unit} (h : Run (daemon texts allowance) BeginsUnsettled log s) :
    s.Faithful :=
  h.invariant (I := fun _ s => s.Faithful) trivial fun _ _ _ _ _ hs hguard hact => hs.step hguard (daemon_step hact)

def Daemon.finishing (s : Daemon) : DaemonAction → Option (String × Option MigrationTaskState)
  | .server (.finish _) => match s.server.phase with
    | .checked task reported => some (task.taskId, reported.state)
    | _ => none
  | _ => none

def Daemon.publishing (s : Daemon) : DaemonAction → Option (String × Event)
  | .server (.publish _ _) => match s.server.phase with
    | .finished task reported => some (task.taskId, reported.event)
    | _ => none
  | _ => none

/-- While the episode of a task that was not cancelled stands as succeeded, the task is finished as completed, and no
failure of it is published. -/
structure KeepsSuccess (s : Daemon) (a : DaemonAction) (taskId : String) : Prop where
  finishes : ∀ state, s.finishing a = some (taskId, state) → state = some .completed
  publishes : ∀ event error, s.publishing a = some (taskId, event) → event ≠ .runFailed error

/-- A success survives crashes in every run in which no execution begins after it. -/
theorem success_survives {log : History DaemonAction Unit} (h : Run (daemon texts allowance) BeginsUnsettled log s)
    (hwon : s.Succeeded taskId) (hactive : ¬ Cancelled s.server.tasks taskId) (a : DaemonAction) :
    KeepsSuccess s a taskId := by
  have hfaithful := run_faithful h
  constructor
  · intro state hfinishing
    cases hphase : s.server.phase with
    | checked task reported =>
      cases a with
      | server action => cases action with
        | finish storage =>
          simp only [Daemon.finishing, hphase, Option.some.injEq, Prod.mk.injEq] at hfinishing
          obtain ⟨rfl, rfl⟩ := hfinishing
          simp only [Daemon.Faithful, hphase] at hfaithful
          rw [(hfaithful hwon).resolve_right hactive]
          rfl
        | _ => cases hfinishing
      | _ => cases hfinishing
    | _ =>
      cases a with
      | server action => cases action <;> simp [Daemon.finishing, hphase] at hfinishing
      | _ => cases hfinishing
  · intro event error hpublishing
    cases hphase : s.server.phase with
    | finished task reported =>
      cases a with
      | server action => cases action with
        | publish storage nowMs =>
          simp only [Daemon.publishing, hphase, Option.some.injEq, Prod.mk.injEq] at hpublishing
          obtain ⟨rfl, rfl⟩ := hpublishing
          simp only [Daemon.Faithful, hphase] at hfaithful
          rw [(hfaithful hwon).resolve_right hactive]
          exact nofun
        | _ => cases hpublishing
      | _ => cases hpublishing
    | _ =>
      cases a with
      | server action => cases action <;> simp [Daemon.publishing, hphase] at hpublishing
      | _ => cases hpublishing

end runs

section sample

def sampleTexts : Texts := ⟨fun _ => "migration task storage failed", fun _ => "invalid episode transition"⟩

@[reducible] def sampleDaemon : System Daemon DaemonAction Unit := @daemon transparentSha256 sampleTexts ⟨4, 8, 8⟩

def stoppingTurn : ModelGatewayOutcome := .turn ⟨⟨["done"], [], .stop, none⟩, ⟨[30]⟩, ⟨[31]⟩⟩

def briefOracle : Oracle
  | .invoke request => .ok (if request.turnIndex = 1 then sampleTurn else stoppingTurn)
  | call => sampleOracle call

def axpySubmission : MigrationTaskSubmission := ⟨"owner", "request", "task-1", "axpy", ⟨[1]⟩, 10, 2, 5⟩

def upcoming (crashes : Bool) (s : Daemon) : DaemonAction :=
  match s.server.phase with
  | .waiting => .server (if s.server.tasks.rows = [] then .request (.submit axpySubmission) .works else .claim .works)
  | .claimed _ => .server (.announce .works 7)
  | .executing _ => match s.driver with
    | .preparing => .prepare (.ok ⟨sampleEpisode (episodeId "task-1"), sampleEpisode_fresh _⟩)
    | .awaiting => .poll .works false
    | .looping => .check .works
    | .returned _ => .handOver
    | .advancing (.ret (.terminal .succeeded)) => if crashes then .server .restart else .operate none briefOracle
    | _ => .operate none briefOracle
  | _ => .server (.check .works)

def pursue (crashes : Bool) : Nat → Daemon → List DaemonAction
  | 0, _ => []
  | more + 1, s => match sampleDaemon.act s (upcoming crashes s) with
    | none => []
    | some (s', _) => upcoming crashes s :: pursue crashes more s'

def endsAs (state : MigrationTaskState) (s : Daemon) : Bool :=
  ((s.databases "task-1" (episodeId "task-1")).getLast?.any fun version => version.status = .succeeded) &&
    ((s.server.tasks.find "task-1").any fun row => row.state ≠ .cancelled) &&
    decide (s.finishing (.server (.finish .works)) = some ("task-1", some state))

theorem endsAs_spec {state : MigrationTaskState} {s : Daemon} (h : endsAs state s = true) :
    s.Succeeded "task-1" ∧ ¬ Cancelled s.server.tasks "task-1" ∧
      s.finishing (.server (.finish .works)) = some ("task-1", some state) := by
  simp only [endsAs, Bool.and_eq_true, decide_eq_true_eq] at h
  obtain ⟨⟨hwon, hactive⟩, hfinishing⟩ := h
  refine ⟨?_, ?_, hfinishing⟩
  · obtain ⟨version, hlast, hstatus⟩ := (Option.any_eq_true _ _).mp hwon
    exact ⟨version, hlast, of_decide_eq_true hstatus⟩
  · rintro ⟨row, hrow, hcancelled⟩
    rw [hrow] at hactive
    simp [hcancelled] at hactive

def beginsUnsettled (s : Daemon) : DaemonAction → Bool
  | .server (.announce _ _) => match s.server.phase with
    | .claimed task => !(s.databases task.taskId (episodeId task.taskId)).getLast?.any fun version =>
      version.status = .succeeded
    | _ => true
  | _ => true

theorem beginsUnsettled_spec {log : History DaemonAction Unit} {s : Daemon} {a : DaemonAction}
    (h : beginsUnsettled s a = true) : BeginsUnsettled log s a := by
  rintro storage nowMs task rfl hphase ⟨version, hlast, hstatus⟩
  simp [beginsUnsettled, hphase, hlast, hstatus] at h

def survivingPlay : Played sampleDaemon (fun _ => beginsUnsettled) (pursue false 80 sampleDaemon.initial)
    (fun _ => endsAs .completed) :=
  ⟨by decide +kernel⟩

theorem success_survives_sample : ∃ log s, Run sampleDaemon BeginsUnsettled log s ∧ s.Succeeded "task-1" ∧
    s.finishing (.server (.finish .works)) = some ("task-1", some .completed) ∧
    KeepsSuccess s (.server (.finish .works)) "task-1" := by
  obtain ⟨log, s, hrun, -, hends⟩ := survivingPlay.reaches (fun _ _ _ => beginsUnsettled_spec)
  obtain ⟨hwon, hactive, hfinishing⟩ := endsAs_spec hends
  exact ⟨log, s, hrun, hwon, hfinishing, @success_survives sampleTexts
    ⟨4, 8, 8⟩ s "task-1" transparentSha256 log hrun hwon hactive _⟩

def crashingPlay : Played sampleDaemon (fun _ _ _ => true) (pursue true 80 sampleDaemon.initial)
    (fun _ => endsAs .failed) :=
  ⟨by decide +kernel⟩

/-- The server crashes once the success has been saved, and the task, begun again, is finished as failed. -/
theorem crashed_success_fails : ∃ log s, Run sampleDaemon anything log s ∧ s.Succeeded "task-1" ∧
    ¬ Cancelled s.server.tasks "task-1" ∧ s.finishing (.server (.finish .works)) = some ("task-1", some .failed) ∧
    ¬ KeepsSuccess s (.server (.finish .works)) "task-1" := by
  obtain ⟨log, s, hrun, -, hends⟩ := crashingPlay.reaches_freely
  obtain ⟨hwon, hactive, hfinishing⟩ := endsAs_spec hends
  refine ⟨log, s, hrun, hwon, hactive, hfinishing, fun hkeeps => ?_⟩
  cases hkeeps.finishes _ hfinishing

end sample

end AlloyPort.Migration
