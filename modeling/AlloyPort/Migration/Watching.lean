import AlloyPort.Events.Stream
import AlloyPort.Interaction.Labels
import AlloyPort.Migration.Agreement

/-! The clients that watch a migration while it is executed, fails and is resumed. All executions of a task share one
stream, and a client stops at the first event that ends it. -/

namespace AlloyPort.Migration

open Database Events Interaction Machine

section stream

/-- What `attach_migration` shows of the events it receives. It stops behind the first that ends the run. -/
def attachMigration : List EventEnvelope → List EventEnvelope
  | [] => []
  | envelope :: rest => if envelope.event.isTerminal = true then [envelope] else envelope :: attachMigration rest

def Open (stored : List EventEnvelope) : Prop := ∀ envelope ∈ stored, envelope.event.isTerminal = false

variable {stored rest : List EventEnvelope} {last : EventEnvelope}

theorem attachMigration_append (h : Open stored) :
    attachMigration (stored ++ rest) = stored ++ attachMigration rest := by
  induction stored with
  | nil => rfl
  | cons envelope stored ih =>
    have hopen : ¬ envelope.event.isTerminal = true := by
      rw [h envelope List.mem_cons_self]
      exact Bool.false_ne_true
    have hrest := ih fun other hother => h other (List.mem_cons_of_mem _ hother)
    rw [List.cons_append, List.cons_append, attachMigration, if_neg hopen, hrest]

theorem attachMigration_open (h : Open stored) : attachMigration stored = stored := by
  have happend := @attachMigration_append stored [] h
  rwa [List.append_nil, attachMigration, List.append_nil] at happend

def endsOf (stored : List EventEnvelope) : List EventEnvelope := stored.filter fun envelope => envelope.event.isTerminal

theorem endsOf_open (h : last.event.isTerminal = false) : endsOf (stored ++ [last]) = endsOf stored := by
  rw [endsOf, endsOf, List.filter_append, List.filter_singleton, h]
  exact List.append_nil _

theorem endsOf_ended (h : last.event.isTerminal = true) : endsOf (stored ++ [last]) = endsOf stored ++ [last] := by
  rw [endsOf, endsOf, List.filter_append, List.filter_singleton, h]
  rfl

/-- Of a stream with one ending, a client that has received it has shown everything through that ending. -/
theorem attachMigration_through {n : Nat} (hnumbers : stored.map EventEnvelope.sequence = List.range' 1 stored.length)
    (honly : endsOf stored = [last])
    (hreceived : ((stored.take n).any fun envelope => envelope.event.isTerminal) = true) :
    attachMigration (stored.take n) = stored.take last.sequence := by
  obtain ⟨before, after, rfl, hopen⟩ : ∃ before after, stored = before ++ last :: after ∧ Open before := by
    have hfirst : stored.find? (fun envelope => envelope.event.isTerminal) = some last := by
      rw [← List.head?_filter]
      exact congrArg List.head? honly
    obtain ⟨-, before, after, hstored, hbefore⟩ := List.find?_eq_some_iff_append.mp hfirst
    exact ⟨before, after, hstored, fun envelope hmem => by simpa using hbefore envelope hmem⟩
  have hlast : last.event.isTerminal = true := by
    have hmem : last ∈ endsOf (before ++ last :: after) := honly ▸ List.mem_singleton_self last
    exact (List.mem_filter.mp hmem).2
  have hsequence : last.sequence = before.length + 1 := by
    have hplace := congrArg (fun numbers => numbers[before.length]?) hnumbers
    simpa [Nat.add_comm] using hplace
  have hn : ¬ n ≤ before.length := by
    intro hn
    rw [List.take_append_of_le_length hn, List.any_eq_true] at hreceived
    obtain ⟨envelope, hmem, hterminal⟩ := hreceived
    rw [hopen envelope (List.mem_of_mem_take hmem)] at hterminal
    cases hterminal
  obtain ⟨k, rfl⟩ : ∃ k, n = before.length + (k + 1) := ⟨n - before.length - 1, by omega⟩
  rw [hsequence, List.take_length_add_append, List.take_length_add_append, List.take_succ_cons, List.take_succ_cons,
    attachMigration_append hopen, attachMigration, if_pos hlast, List.take_zero]

end stream

/-- An execution that `run_task` has finished: what it ended with, and how many events its run had by then. -/
structure Ending where
  taskId : String
  outcome : Outcome
  stored : Nat

def endingsOf (endings : List Ending) (taskId : String) : List Ending :=
  endings.filter fun ending => ending.taskId = taskId

/-- A client that has stopped: what it has shown, what its run had stored by then, and the latest ending of the run. -/
structure Stop where
  runId : String
  shown : List EventEnvelope
  stored : List EventEnvelope
  latest : Option Ending

structure WatchState where
  server : ServerState
  hub : HubState
  endings : List Ending
  stops : List Stop

inductive WatchAction where
  | serve (action : ServerAction)
  | hub (action : HubAction)

def endingNames : List String := ["migration-cancelled", "migration-completed", "migration-failed"]

/-- The key is none that `run_task` gives to an ending. -/
def Plain (dedupKey : String) : Prop := ∀ name ∈ endingNames, ¬ (name ++ ":").toList <+: dedupKey.toList

instance (dedupKey : String) : Decidable (Plain dedupKey) := by
  unfold Plain
  infer_instance

/-- Whether `attach_migration`, which starts from 0, has received the end of the run. -/
def hasStopped (subscription : InteractionSubscription) : Bool :=
  decide (subscription.afterSequence = 0) && subscription.yielded.any fun envelope => envelope.event.isTerminal

/-- The other producers append the starts, the output and the results of commands, never the end of a run. A client that
has stopped receives nothing. -/
def admits (hub : HubState) : HubAction → Bool
  | .commit call => !call.frame.event.isTerminal && decide (Plain call.dedupKey)
  | .recv index => hub.subscriptions[index]?.all fun subscription => !hasStopped subscription
  | _ => true

def ServerAction.isNamed : ServerAction → Bool
  | .request (.submit submission) _ => !isBlank submission.taskId
  | _ => true

def WatchState.ends (s : WatchState) : ServerAction → List Ending
  | .publish _ _ => match s.server.phase with
    | .finished task outcome => [⟨task.taskId, outcome, (storedEvents s.hub.database task.taskId).length⟩]
    | _ => []
  | _ => []

def WatchState.stopsAt (s : WatchState) (hub : HubState) : HubAction → List Stop
  | .recv index => match hub.subscriptions[index]? with
    | some subscription =>
      if hasStopped subscription = true then
        [⟨subscription.runId, attachMigration subscription.yielded, storedEvents hub.database subscription.runId,
          (endingsOf s.endings subscription.runId).getLast?⟩]
      else []
    | none => []
  | _ => []

def Storage.append (storage : Storage) (config : HubConfig) (hub : HubState) (call : InteractionCall) :
    Option HubState :=
  match storage with
  | .fails _ => some hub
  | .works | .loses _ => hub.act config (.commit call)

section machine

variable [Sha256]

def ServerState.publishes (s : ServerState) (config : HubConfig) (hub : HubState) : ServerAction → Option HubState
  | .announce storage nowMs => match s.phase with
    | .claimed task => storage.append config hub (runningPublication task.taskId nowMs)
    | _ => some hub
  | .publish storage nowMs => match s.phase with
    | .finished task outcome => storage.append config hub (outcome.publication task.taskId nowMs)
    | _ => some hub
  | _ => some hub

/-- The dispatcher and the users' requests on one side, the event store, its hub and the clients on the other. -/
def watch (config : HubConfig) : System WatchState WatchAction Unit where
  initial := ⟨server.initial, .initial, [], []⟩
  act s
    | .serve action =>
      if action.isNamed = true then do
        let (server', _) ← server.act s.server action
        let hub ← s.server.publishes config s.hub action
        some ({ s with server := server', hub, endings := s.endings ++ s.ends action }, ())
      else none
    | .hub action =>
      if admits s.hub action = true then do
        let hub ← s.hub.act config action
        some ({ s with hub, stops := s.stops ++ s.stopsAt hub action }, ())
      else none

end machine

def CaughtUp (config : HubConfig) (hub : HubState) (subscription : InteractionSubscription) : Prop :=
  subscription.ended = none ∧ subscription.replayThrough ≠ none ∧ pendingOf hub subscription.runId = [] ∧
    subscription.recv config hub.database (hub.channel subscription.runId) = subscription

/-- The stream of a task shows how each of its executions ended, behind all that the run had by then. A client that has
received everything stops as soon as an execution has ended, and stops where the latest has. -/
structure Observable (config : HubConfig) (s : WatchState) (taskId : String) : Prop where
  ended : (endsOf (storedEvents s.hub.database taskId)).map (fun envelope => (envelope.event, envelope.sequence)) =
    (endingsOf s.endings taskId).map fun ending => (ending.outcome.event, ending.stored + 1)
  shown : ∀ subscription ∈ s.hub.subscriptions, subscription.runId = taskId → subscription.afterSequence = 0 →
    CaughtUp config s.hub subscription → hasStopped subscription = false →
    attachMigration subscription.yielded = storedEvents s.hub.database taskId ∧ endingsOf s.endings taskId = []
  stopped : ∀ stop ∈ s.stops, stop.runId = taskId →
    ∃ ending, stop.latest = some ending ∧ stop.shown = stop.stored.take (ending.stored + 1)

section machine

variable [Sha256]

def Outcome.key (outcome : Outcome) : String := outcome.dedupKey ++ ":" ++ eventContentKey outcome.event

def reads (subscription : InteractionSubscription) : Bool :=
  decide (subscription.afterSequence = 0) && subscription.ended.isNone &&
    !subscription.yielded.any fun envelope => envelope.event.isTerminal

/-- The end of an execution is stored. No execution ends under the key of an earlier one of its task, nor as long as a
client still reads what the earlier one has ended, and no client attaches to a run of several endings. Notifications
keep the order of the store. -/
def ToldApart : Guard WatchState WatchAction Unit
  | _, s, .serve (.publish storage _) => storage.isFailure = false ∧
    ∀ task outcome, s.server.phase = .finished task outcome →
    (storedEvents s.hub.database task.taskId).length + 2 < 2 ^ 63 ∧
    ∀ ending ∈ endingsOf s.endings task.taskId, ending.outcome.key ≠ outcome.key ∧
      ∀ subscription ∈ s.hub.subscriptions, subscription.runId = task.taskId → reads subscription = false
  | _, s, .hub (.attach runId afterSequence) => afterSequence = 0 → (endingsOf s.endings runId).length ≤ 1
  | _, s, .hub action => PublishesInOrder [] s.hub action
  | _, _, _ => True

end machine

section told

variable [Sha256] {database database' : InteractionDatabase} {endings : List Ending} {taskId : String}
  {frame : ProducerEvent} {sequence : Nat} {outcome : Outcome} {ending : Ending}

/-- Where the key of an event comes from. -/
def Keyed (endings : List Ending) (row : EventRow) : Prop :=
  if row.envelope.event.isTerminal = true then ∃ ending ∈ endingsOf endings row.runId, row.dedupKey = ending.outcome.key
  else Plain row.dedupKey

structure Told (database : InteractionDatabase) (endings : List Ending) : Prop where
  labelled : Identified database
  keyed : ∀ row ∈ database.events.rows, Keyed endings row
  ended : ∀ taskId, (endsOf (storedEvents database taskId)).map (fun envelope => (envelope.event, envelope.sequence)) =
    (endingsOf endings taskId).map fun ending => (ending.outcome.event, ending.stored + 1)

omit [Sha256] in
theorem endingsOf_append :
    endingsOf (endings ++ [ending]) taskId =
      endingsOf endings taskId ++ if ending.taskId = taskId then [ending] else [] := by
  rw [endingsOf, endingsOf, List.filter_append, List.filter_singleton]
  by_cases hid : ending.taskId = taskId <;> simp [hid]

theorem Keyed.append {row : EventRow} (h : Keyed endings row) : Keyed (endings ++ [ending]) row := by
  unfold Keyed at h ⊢
  by_cases hterminal : row.envelope.event.isTerminal = true
  · rw [if_pos hterminal] at h ⊢
    obtain ⟨earlier, hmem, hkey⟩ := h
    rw [endingsOf_append]
    exact ⟨earlier, List.mem_append_left _ hmem, hkey⟩
  · rwa [if_neg hterminal] at h ⊢

theorem Told.initial : Told .empty [] where
  labelled _ hrow := by cases hrow
  keyed _ hrow := by cases hrow
  ended _ := rfl

theorem Told.served (h : Told database endings) {call : InteractionCall} {result : OutputAppend}
    (hserved : Served database call result database') (hopen : call.frame.event.isTerminal = false)
    (hkey : Plain call.dedupKey) : Told database' endings := by
  have hopen' : ¬ call.frame.event.isTerminal = true := by simp [hopen]
  rcases hserved.rows with hrows | ⟨sequence, hrows⟩
  · refine ⟨h.labelled.served hserved, by rw [hrows]; exact h.keyed, fun taskId => ?_⟩
    rw [storedEvents_same hrows]
    exact h.ended taskId
  · refine ⟨h.labelled.served hserved, fun row hrow => ?_, fun taskId => ?_⟩
    · rw [hrows, List.mem_append, List.mem_singleton] at hrow
      rcases hrow with hrow | rfl
      · exact h.keyed row hrow
      · exact (if_neg hopen').mpr hkey
    · rw [storedEvents_added hrows]
      by_cases hid : call.frame.runId = taskId
      · have hadded : (envelopeAt call.frame sequence).event.isTerminal = false := hopen
        rw [if_pos hid, endsOf_open hadded]
        exact h.ended taskId
      · rw [if_neg hid, List.append_nil]
        exact h.ended taskId

theorem Told.ends (h : Told database endings)
    (hrows : database'.events.rows = database.events.rows ++
      [eventRow outcome.key frame ((storedEvents database frame.runId).length + 1)])
    (hevent : frame.event = outcome.event) (hterminal : outcome.event.isTerminal = true) :
    Told database' (endings ++ [⟨frame.runId, outcome, (storedEvents database frame.runId).length⟩]) := by
  have hended : frame.event.isTerminal = true := hevent ▸ hterminal
  refine ⟨fun row hrow => ?_, fun row hrow => ?_, fun taskId => ?_⟩
  · rw [hrows, List.mem_append, List.mem_singleton] at hrow
    rcases hrow with hrow | rfl
    · exact h.labelled row hrow
    · rfl
  · rw [hrows, List.mem_append, List.mem_singleton] at hrow
    rcases hrow with hrow | rfl
    · exact (h.keyed row hrow).append
    · refine (if_pos hended).mpr ⟨⟨frame.runId, outcome, (storedEvents database frame.runId).length⟩, ?_, rfl⟩
      rw [endingsOf_append]
      exact List.mem_append_right _ ((if_pos rfl : (if frame.runId = frame.runId then _ else []) =
        _) ▸ List.mem_singleton_self _)
  · rw [storedEvents_added hrows, endingsOf_append]
    by_cases hid : frame.runId = taskId
    · have hadded : (envelopeAt frame ((storedEvents database frame.runId).length + 1)).event.isTerminal = true :=
        hended
      rw [if_pos hid, if_pos hid, endsOf_ended hadded, List.map_append, List.map_append, h.ended taskId,
        List.map_singleton, List.map_singleton, ← hevent]
      rfl
    · rw [if_neg hid, if_neg hid, List.append_nil, List.append_nil]
      exact h.ended taskId

end told

section staffed

variable [Sha256] {s s' : ServerState} {tasks : TaskTable} {action : ServerAction}

def Named (tasks : TaskTable) : Prop := ∀ row ∈ tasks.rows, isBlank row.taskId = false

structure Staffed (s : ServerState) : Prop where
  named : Named s.tasks
  underway : ∀ task, s.phase.task? = some task → isBlank task.taskId = false
  decided : ∀ task ended, s.phase = .checked task ended ∨ s.phase = .finished task ended →
    ∃ cancelled result, ended = outcome cancelled result

omit [Sha256] in
theorem Named.perform (h : Named tasks) {call : TaskCall} {storage : Storage}
    (hcall : ∀ submission, call = .submit submission → isBlank submission.taskId = false) :
    Named (call.perform storage tasks).1 := by
  intro row hrow
  rcases (call.perform_effect storage).back hrow with ⟨old, state, hold, rfl, -⟩ | ⟨submission, hsubmit, rfl, -⟩
  · exact h old (Table.find_eq_some.mp hold).1
  · exact hcall submission hsubmit

theorem Staffed.initial : Staffed server.initial where
  named _ hrow := by cases hrow
  underway _ htask := by cases htask
  decided _ _ hphase := by rcases hphase with hphase | hphase <;> cases hphase

omit [Sha256] in
theorem Staffed.undecided (hnamed : Named s.tasks) (hunderway : ∀ task, s.phase.task? = some task →
    isBlank task.taskId = false)
    (hphase : ∀ task ended, s.phase ≠ .checked task ended ∧ s.phase ≠ .finished task ended) : Staffed s := by
  refine ⟨hnamed, hunderway, fun task ended hended => ?_⟩
  rcases hended with hended | hended
  · exact absurd hended (hphase task ended).1
  · exact absurd hended (hphase task ended).2

omit [Sha256] in
theorem Staffed.claim (h : Staffed s) {storage : Storage} (hphase : s.phase = .waiting) :
    Staffed (MigrationDispatcher.claim storage s) := by
  have hnamed : Named (TaskCall.claimNext.perform storage s.tasks).1 := h.named.perform nofun
  have hclaimed := fun task => @claimNext_perform storage task s.tasks
  unfold MigrationDispatcher.claim
  generalize TaskCall.claimNext.perform storage s.tasks = answer at hnamed hclaimed ⊢
  obtain ⟨tasks, reply⟩ := answer
  cases reply with
  | error e => exact .undecided hnamed nofun fun _ _ => ⟨nofun, nofun⟩
  | ok record =>
    cases record with
    | none =>
      have hwaiting : ∀ task ended, s.phase ≠ .checked task ended ∧ s.phase ≠ .finished task ended := by simp [hphase]
      refine .undecided hnamed (fun task htask => ?_) hwaiting
      rw [hphase] at htask
      cases htask
    | some task =>
      obtain ⟨row, hrow, -⟩ := hclaimed _ rfl
      obtain ⟨hmem, hid⟩ := Table.find_eq_some.mp hrow
      refine .undecided hnamed (fun other hother => ?_) fun _ _ => ⟨nofun, nofun⟩
      cases hother
      rw [← show row.taskId = task.taskId from hid]
      exact hnamed row hmem

theorem Staffed.step (h : Staffed s) (hstep : ServerStep s action s') (hnamed : action.isNamed = true) :
    Staffed s' := by
  cases hstep with
  | @request call storage hcall =>
    refine ⟨h.named.perform fun submission hsubmit => ?_, h.underway, h.decided⟩
    subst hsubmit
    simpa [ServerAction.isNamed] using hnamed
  | claim hphase => exact h.claim hphase
  | @announce storage nowMs task hphase =>
    refine .undecided h.named (fun other hother => ?_) fun _ _ => ⟨nofun, nofun⟩
    rw [← Option.some.inj hother]
    exact h.underway task (by rw [hphase]; rfl)
  | @execute result task hphase =>
    refine .undecided h.named (fun other hother => ?_) fun _ _ => ⟨nofun, nofun⟩
    rw [← Option.some.inj hother]
    exact h.underway task (by rw [hphase]; rfl)
  | @check storage task result hphase =>
    obtain ⟨cancelled, hcheck⟩ : ∃ cancelled, MigrationDispatcher.check storage task result s =
        { s with phase := .checked task (outcome cancelled result) } := ⟨_, rfl⟩
    rw [hcheck]
    refine ⟨h.named, fun other hother => ?_, fun other ended hended => ?_⟩
    · rw [← Option.some.inj hother]
      exact h.underway task (by rw [hphase]; rfl)
    · rcases hended with hended | hended
      · obtain ⟨-, hsame⟩ := Phase.checked.inj hended
        exact ⟨cancelled, result, hsame.symm⟩
      · cases hended
  | @finish storage task ended hphase =>
    have hfinished : ∀ tasks, Named tasks → Staffed { s with tasks, phase := .finished task ended } := by
      intro tasks htasks
      refine ⟨htasks, fun other hother => ?_, fun other ended' hended => ?_⟩
      · cases hother
        exact h.underway task (by rw [hphase]; rfl)
      · rcases hended with hended | hended
        · cases hended
        · obtain ⟨-, hsame⟩ := Phase.finished.inj hended
          exact hsame ▸ h.decided task ended (.inl hphase)
    unfold MigrationDispatcher.finish
    cases ended.state with
    | none => exact hfinished s.tasks h.named
    | some state => exact hfinished _ (h.named.perform nofun)
  | publish hphase => exact .undecided h.named nofun fun _ _ => ⟨nofun, nofun⟩
  | restart => exact .undecided h.named nofun fun _ _ => ⟨nofun, nofun⟩

end staffed

section grown

variable {config : HubConfig} {hub hub' : HubState} {subscription subscription' : InteractionSubscription}
  {action : HubAction}

/-- What may become of a subscription. -/
structure Grown (subscription subscription' : InteractionSubscription) : Prop where
  run : subscription'.runId = subscription.runId
  start : subscription'.afterSequence = subscription.afterSequence
  goes : subscription'.ended = none → subscription.ended = none
  yielded : subscription.yielded <+: subscription'.yielded

theorem Grown.refl : Grown subscription subscription := ⟨rfl, rfl, id, List.prefix_rfl⟩

theorem grown_terminate (error : SubscriptionError) : Grown subscription (subscription.terminate error) :=
  ⟨rfl, rfl, nofun, List.prefix_rfl⟩

theorem grown_accept (envelope : EventEnvelope) : Grown subscription (subscription.accept envelope) := by
  unfold InteractionSubscription.accept
  dsimp only
  split
  · exact grown_terminate _
  · exact ⟨rfl, rfl, id, List.prefix_append _ _⟩

theorem grown_snapshot (database : InteractionDatabase) : Grown subscription (subscription.snapshot database) := by
  unfold InteractionSubscription.snapshot
  dsimp only
  split
  · exact grown_terminate _
  · exact ⟨rfl, rfl, id, List.prefix_rfl⟩

theorem grown_recv (database : InteractionDatabase) (channel : List EventEnvelope) :
    Grown subscription (subscription.recv config database channel) := by
  unfold InteractionSubscription.recv
  split
  · split
    · rename_i envelope rest hreplay
      have h := @grown_accept { subscription with replay := rest } envelope
      exact ⟨h.run, h.start, h.goes, h.yielded⟩
    · split
      · unfold InteractionSubscription.refill
        split
        · exact grown_terminate _
        · split
          · exact grown_terminate _
          · exact ⟨rfl, rfl, id, List.prefix_rfl⟩
      · unfold InteractionSubscription.receive
        dsimp only
        split
        · exact grown_terminate _
        · split
          · exact .refl
          · split
            · exact ⟨rfl, rfl, id, List.prefix_rfl⟩
            · rename_i envelope _ _
              have h := @grown_accept { subscription with position := subscription.position + 1 } envelope
              exact ⟨h.run, h.start, h.goes, h.yielded⟩
  · exact .refl

theorem recv_ended {database : InteractionDatabase} {channel : List EventEnvelope} (h : subscription.ended ≠ none) :
    subscription.recv config database channel = subscription := by
  unfold InteractionSubscription.recv
  cases hended : subscription.ended with
  | none => exact absurd hended h
  | some error => rfl

theorem replaced_grown {index : Nat} {f : InteractionSubscription → InteractionSubscription}
    (hf : ∀ subscription, Grown subscription (f subscription)) (hact : hub.replaceSubscription index f = some hub') :
    hub'.database = hub.database ∧ ∀ subscription' ∈ hub'.subscriptions, ∃ subscription ∈ hub.subscriptions,
      Grown subscription subscription' := by
  unfold HubState.replaceSubscription at hact
  cases hget : hub.subscriptions[index]? with
  | none => simp [hget] at hact
  | some subscription =>
    rw [hget] at hact
    cases hact
    refine ⟨rfl, fun subscription' hmem => ?_⟩
    rcases List.mem_or_eq_of_mem_set hmem with hmem | rfl
    · exact ⟨subscription', hmem, .refl⟩
    · exact ⟨subscription, List.mem_of_getElem? hget, hf subscription⟩

theorem act_grown (hact : hub.act config action = some hub') :
    ((∀ call, action ≠ .commit call) → hub'.database = hub.database) ∧ ∀ subscription' ∈ hub'.subscriptions,
      (∃ subscription ∈ hub.subscriptions, Grown subscription subscription') ∨
        action = .attach subscription'.runId subscription'.afterSequence := by
  have hof : (hub'.database = hub.database ∧ ∀ subscription' ∈ hub'.subscriptions, ∃ subscription ∈ hub.subscriptions,
      Grown subscription subscription') → ((∀ call, action ≠ .commit call) → hub'.database = hub.database) ∧
        ∀ subscription' ∈ hub'.subscriptions, (∃ subscription ∈ hub.subscriptions, Grown subscription subscription') ∨
          action = .attach subscription'.runId subscription'.afterSequence :=
    fun h => ⟨fun _ => h.1, fun subscription' hmem => .inl (h.2 subscription' hmem)⟩
  cases action with
  | commit call =>
    refine ⟨fun hother => absurd rfl (hother call), fun subscription' hmem => .inl ⟨subscription', ?_, .refl⟩⟩
    simp only [HubState.act] at hact
    generalize call.execute hub.database = answer at hact
    obtain ⟨database, reply⟩ := answer
    cases reply <;> cases hact <;> exact hmem
  | fail =>
    cases hact
    exact hof ⟨rfl, fun subscription' hmem => ⟨subscription', hmem, .refl⟩⟩
  | publish index =>
    refine hof ?_
    simp only [HubState.act] at hact
    cases hget : hub.publishing[index]? with
    | none => simp [hget] at hact
    | some outcome =>
      rw [hget] at hact
      cases hact
      cases outcome with
      | duplicate envelope => exact ⟨rfl, fun subscription' hmem => ⟨subscription', hmem, .refl⟩⟩
      | inserted envelope =>
        simp only [HubState.publish]
        cases hub.live envelope.runId <;> exact ⟨rfl, fun subscription' hmem => ⟨subscription', hmem, .refl⟩⟩
  | attach runId afterSequence =>
    cases hact
    refine ⟨fun _ => rfl, fun subscription' hmem => ?_⟩
    rcases List.mem_append.mp hmem with hmem | hmem
    · exact .inl ⟨subscription', hmem, .refl⟩
    · rw [List.mem_singleton.mp hmem]
      exact .inr rfl
  | snapshot =>
    refine hof (replaced_grown (fun subscription => ?_) hact)
    split
    · exact grown_snapshot _
    · exact .refl
  | recv => exact hof (replaced_grown (fun subscription => grown_recv _ _) hact)
  | recvFailed =>
    refine hof (replaced_grown (fun subscription => ?_) hact)
    split
    · exact grown_terminate _
    · exact .refl

theorem Grown.reads (h : Grown subscription subscription') (hreads : reads subscription' = true) :
    reads subscription = true := by
  simp only [Migration.reads, Bool.and_eq_true, decide_eq_true_eq, Option.isNone_iff_eq_none, Bool.not_eq_true',
    List.any_eq_false] at hreads ⊢
  obtain ⟨⟨hstart, hended⟩, hopen⟩ := hreads
  exact ⟨⟨h.start ▸ hstart, h.goes hended⟩, fun envelope hmem => hopen envelope (h.yielded.subset hmem)⟩

end grown

section hub

variable {config : HubConfig} {hub hub' : HubState} {endings : List Ending}

def Kept (config : HubConfig) (hub : HubState) : Prop :=
  ∃ log, Run (interactionHub config) PublishesInOrder log hub

theorem Kept.act (h : Kept config hub) {a : HubAction} (hordered : ∀ log, PublishesInOrder log hub a)
    (hact : hub.act config a = some hub') : Kept config hub' := by
  obtain ⟨log, hrun⟩ := h
  have hstep : (interactionHub config).act hub a = some (hub', ()) := by
    simp only [interactionHub, hact, Option.map_some]
  exact ⟨_, .step hrun (hordered log) hstep⟩

variable {call : InteractionCall}

theorem commit_database (hact : hub.act config (.commit call) = some hub') :
    hub'.database = (call.execute hub.database).1 := by
  simp only [HubState.act] at hact
  generalize call.execute hub.database = answer at hact ⊢
  obtain ⟨database, reply⟩ := answer
  cases reply <;> cases hact <;> rfl

theorem Told.committed [Sha256] (h : Told hub.database endings) (hs : Interaction.Sound hub.database)
    (hopen : call.frame.event.isTerminal = false) (hkey : Plain call.dedupKey)
    (hact : hub.act config (.commit call) = some hub') : Told hub'.database endings := by
  rw [commit_database hact]
  rcases call.execute_cases hs with ⟨result, -, -, hserved⟩ | ⟨e, -, hsame⟩
  · exact h.served hserved hopen hkey
  · rw [hsame]
    exact h

end hub

section outcomes

variable {cancelled : Bool} {result : Except String Unit}

theorem outcome_terminal : (outcome cancelled result).event.isTerminal = true := by
  unfold outcome
  by_cases hcancelled : cancelled = true
  · rw [if_pos hcancelled]
    rfl
  · rw [if_neg hcancelled]
    cases result <;> rfl

theorem outcome_name : (outcome cancelled result).dedupKey ∈ endingNames := by
  unfold outcome
  by_cases hcancelled : cancelled = true
  · rw [if_pos hcancelled]
    simp [endingNames]
  · rw [if_neg hcancelled]
    cases result <;> simp [endingNames]

theorem Plain.ne [Sha256] {dedupKey : String} (h : Plain dedupKey) : dedupKey ≠ (outcome cancelled result).key := by
  intro heq
  apply h (outcome cancelled result).dedupKey outcome_name
  rw [heq, Outcome.key, String.toList_append (s := (outcome cancelled result).dedupKey ++ ":")]
  exact List.prefix_append _ _

theorem isBlank_key (name text : String) : isBlank (name ++ ":" ++ text) = false := by
  have hcolon : isWhiteSpace ':' = false := by decide
  rw [isBlank, List.all_eq_false]
  exact ⟨':', by simp, by rw [hcolon]; exact Bool.false_ne_true⟩

theorem publication_valid {taskId dedupKey : String} {event : Event} {nowMs : Nat} (htask : isBlank taskId = false)
    (hkey : isBlank dedupKey = false) :
    validateInput dedupKey (publication taskId dedupKey event nowMs).frame = .ok () := by
  have htask' : ¬ isBlank (publication taskId dedupKey event nowMs).frame.runId = true := by
    rw [show (publication taskId dedupKey event nowMs).frame.runId = taskId from rfl, htask]
    exact Bool.false_ne_true
  have hkey' : ¬ isBlank dedupKey = true := by
    rw [hkey]
    exact Bool.false_ne_true
  have hschema : ¬ (publication taskId dedupKey event nowMs).frame.schemaVersion ≠ SCHEMA_VERSION := not_not.mpr rfl
  rw [validateInput, if_neg hkey', if_neg hschema, if_neg htask']

end outcomes

section runs

variable [Sha256] {config : HubConfig} {s s' : WatchState} {log : History WatchAction Unit} {taskId : String}
  {a : HubAction} {subscription : InteractionSubscription} {hub : HubState} {storage : Storage} {nowMs : Nat}

structure Tracked (config : HubConfig) (s : WatchState) : Prop where
  kept : Kept config s.hub
  told : Told s.hub.database s.endings
  staffed : Staffed s.server
  reads : ∀ subscription ∈ s.hub.subscriptions, reads subscription = true →
    (endingsOf s.endings subscription.runId).length ≤ 1
  stopped : ∀ stop ∈ s.stops, ∃ ending, stop.latest = some ending ∧ stop.shown = stop.stored.take (ending.stored + 1)

omit [Sha256] in
theorem Kept.sound (h : Kept config hub) : Interaction.Sound hub.database := by
  obtain ⟨log, hrun⟩ := h
  exact (run_lined hrun).sound

theorem Tracked.initial : Tracked config (watch config).initial where
  kept := ⟨[], .start⟩
  told := Told.initial
  staffed := Staffed.initial
  reads _ hmem := by cases hmem
  stopped _ hmem := by cases hmem

theorem Tracked.announced (h : Tracked config s)
    (hact : storage.append config s.hub (runningPublication taskId nowMs) = some hub) :
    Kept config hub ∧ Told hub.database s.endings := by
  have hplain : Plain (runningPublication taskId nowMs).dedupKey := by
    show Plain "migration-running"
    decide
  have hcommit : s.hub.act config (.commit (runningPublication taskId nowMs)) = some hub →
      Kept config hub ∧ Told hub.database s.endings :=
    fun hact => ⟨h.kept.act (a := .commit _) (fun _ => trivial) hact, h.told.committed h.kept.sound rfl hplain hact⟩
  cases storage with
  | works | loses => exact hcommit hact
  | fails detail =>
    cases hact
    exact ⟨h.kept, h.told⟩

omit [Sha256] in
theorem append_grown {hub hub' : HubState} {call : InteractionCall}
    (hact : storage.append config hub call = some hub') :
    ∀ subscription' ∈ hub'.subscriptions, ∃ subscription ∈ hub.subscriptions, Grown subscription subscription' := by
  have hcommit : hub.act config (.commit call) = some hub' → ∀ subscription' ∈ hub'.subscriptions,
      ∃ subscription ∈ hub.subscriptions, Grown subscription subscription' :=
    fun hact subscription' hmem => ((act_grown hact).2 subscription' hmem).resolve_right nofun
  cases storage with
  | works | loses => exact hcommit hact
  | fails detail =>
    cases hact
    exact fun subscription' hmem => ⟨subscription', hmem, .refl⟩

theorem Tracked.published (h : Tracked config s)
    {task : MigrationTaskRecord} {ended : Outcome} (hphase : s.server.phase = .finished task ended)
    (hstorage : storage.isFailure = false) (hroom : (storedEvents s.hub.database task.taskId).length + 2 < 2 ^ 63)
    (hnew : ∀ ending ∈ endingsOf s.endings task.taskId, ending.outcome.key ≠ ended.key)
    (hact : storage.append config s.hub (ended.publication task.taskId nowMs) = some hub) :
    Kept config hub ∧
      Told hub.database (s.endings ++ [⟨task.taskId, ended, (storedEvents s.hub.database task.taskId).length⟩]) := by
  obtain ⟨cancelled, result, rfl⟩ := h.staffed.decided task ended (.inr hphase)
  have hnamed := h.staffed.underway task (by rw [hphase]; rfl)
  have hcommit : s.hub.act config (.commit ((outcome cancelled result).publication task.taskId nowMs)) = some hub := by
    cases storage with
    | works => exact hact
    | loses detail => exact hact
    | fails detail => cases hstorage
  refine ⟨h.kept.act (a := .commit _) (fun _ => trivial) hcommit, ?_⟩
  -- The run has endings of other keys and events whose keys are none of an ending.
  have hfresh : ∀ row ∈ s.hub.database.events.rows, row.runId = task.taskId →
      row.dedupKey ≠ (outcome cancelled result).key := by
    intro row hrow hid
    have hkeyed := h.told.keyed row hrow
    unfold Keyed at hkeyed
    by_cases hterminal : row.envelope.event.isTerminal = true
    · rw [if_pos hterminal, hid] at hkeyed
      obtain ⟨ending, hmem, hkey⟩ := hkeyed
      rw [hkey]
      exact hnew ending hmem
    · rw [if_neg hterminal] at hkeyed
      exact hkeyed.ne
  rw [commit_database hcommit]
  have hvalid := @publication_valid task.taskId _ (outcome cancelled result).event nowMs hnamed
    (isBlank_key (outcome cancelled result).dedupKey (eventContentKey (outcome cancelled result).event))
  exact h.told.ends (append_fresh_rows h.kept.sound h.told.labelled hvalid hfresh hroom) rfl outcome_terminal

theorem ToldApart.ordered (ha : ToldApart log s (.hub a)) (log' : History HubAction Unit) :
    PublishesInOrder log' s.hub a := by
  cases a with
  | publish index => exact ha
  | _ => trivial

omit [Sha256] in
theorem Kept.received (h : Kept config hub) (hmem : subscription ∈ hub.subscriptions)
    (hstart : subscription.afterSequence = 0) :
    subscription.yielded = (storedEvents hub.database subscription.runId).take subscription.lastSequence ∧
      (CaughtUp config hub subscription → subscription.yielded = storedEvents hub.database subscription.runId) := by
  have hsound := h.sound
  obtain ⟨log, hrun⟩ := h
  obtain ⟨-, hyielded, -, hall⟩ := subscriptions_follow_store hrun subscription hmem
  rw [storedEvents_eq hsound] at hyielded hall
  rw [hstart, List.drop_zero] at hyielded
  refine ⟨hyielded, fun hcaught => ?_⟩
  rw [hyielded, hall hcaught.1 hcaught.2.1 hcaught.2.2.1 hcaught.2.2.2, List.take_length]

/-- A client that stops while its run has one ending stops there. -/
theorem Told.stopped {endings : List Ending} (h : Told hub.database endings) (hkept : Kept config hub)
    (hmem : subscription ∈ hub.subscriptions) (hstops : hasStopped subscription = true)
    (hone : (endingsOf endings subscription.runId).length ≤ 1) :
    ∃ ending, (endingsOf endings subscription.runId).getLast? = some ending ∧ attachMigration subscription.yielded =
      (storedEvents hub.database subscription.runId).take (ending.stored + 1) := by
  obtain ⟨hstart, hterminal⟩ : subscription.afterSequence = 0 ∧
      (subscription.yielded.any fun envelope => envelope.event.isTerminal) = true := by
    simpa [hasStopped] using hstops
  have hyielded := (hkept.received hmem hstart).1
  rw [hyielded] at hterminal ⊢
  have hended := h.ended subscription.runId
  obtain ⟨envelope, hin, hends⟩ := List.any_eq_true.mp hterminal
  have hfound : envelope ∈ endsOf (storedEvents hub.database subscription.runId) :=
    List.mem_filter.mpr ⟨List.mem_of_mem_take hin, hends⟩
  cases hfilter : endsOf (storedEvents hub.database subscription.runId) with
  | nil =>
    rw [hfilter] at hfound
    cases hfound
  | cons last others =>
    have hcount := congrArg List.length hended
    rw [List.length_map, List.length_map, hfilter, List.length_cons] at hcount
    obtain ⟨ending, hending⟩ : ∃ ending, endingsOf endings subscription.runId = [ending] :=
      List.length_eq_one_iff.mp (by omega)
    obtain rfl : others = [] := List.length_eq_zero_iff.mp (by omega)
    rw [hfilter, hending, List.map_singleton, List.map_singleton] at hended
    have hsequence : last.sequence = ending.stored + 1 := congrArg Prod.snd (List.head_eq_of_cons_eq hended)
    refine ⟨ending, by rw [hending]; rfl, ?_⟩
    rw [attachMigration_through (stored_sequences hkept.sound) hfilter hterminal, hsequence]

theorem Tracked.acted (h : Tracked config s) (hadmits : admits s.hub a = true)
    (ha : ToldApart log s (.hub a)) (hact : s.hub.act config a = some hub) :
    Tracked config { s with hub, stops := s.stops ++ s.stopsAt hub a } := by
  have hkept := h.kept.act ha.ordered hact
  have htold : Told hub.database s.endings := by
    by_cases hcommit : ∃ call, a = .commit call
    · obtain ⟨call, rfl⟩ := hcommit
      obtain ⟨hopen, hkey⟩ : call.frame.event.isTerminal = false ∧ Plain call.dedupKey := by
        simpa [admits] using hadmits
      exact h.told.committed h.kept.sound hopen hkey hact
    · rw [(act_grown hact).1 fun call heq => hcommit ⟨call, heq⟩]
      exact h.told
  refine ⟨hkept, htold, h.staffed, fun subscription' hmem hreads => ?_, fun stop hmem => ?_⟩
  · rcases (act_grown hact).2 subscription' hmem with ⟨subscription, hbefore, hgrown⟩ | rfl
    · rw [hgrown.run]
      exact h.reads subscription hbefore (hgrown.reads hreads)
    · simp only [Migration.reads, Bool.and_eq_true, decide_eq_true_eq] at hreads
      exact ha hreads.1.1
  · rcases List.mem_append.mp hmem with hmem | hmem
    · exact h.stopped stop hmem
    · cases a with
      | recv index =>
        simp only [HubState.act, HubState.replaceSubscription] at hact
        cases hget : s.hub.subscriptions[index]? with
        | none => simp [hget] at hact
        | some subscription =>
          rw [hget] at hact
          cases hact
          have hgrown := @grown_recv config subscription s.hub.database (s.hub.channel subscription.runId)
          have hold : hasStopped subscription = false := by simpa [admits, hget] using hadmits
          have hplace : (s.hub.subscriptions.set index
              (subscription.recv config s.hub.database (s.hub.channel subscription.runId)))[index]? =
              some (subscription.recv config s.hub.database (s.hub.channel subscription.runId)) := by
            rw [List.getElem?_set_self (List.getElem?_eq_some_iff.mp hget).1]
          simp only [WatchState.stopsAt, hplace] at hmem
          by_cases hstops : hasStopped (subscription.recv config s.hub.database (s.hub.channel subscription.runId)) =
            true
          · rw [if_pos hstops, List.mem_singleton] at hmem
            subst hmem
            refine htold.stopped hkept (List.mem_of_getElem? hplace) hstops ?_
            rw [hgrown.run]
            refine h.reads subscription (List.mem_of_getElem? hget) ?_
            have hgoes : subscription.ended = none := by
              by_contra hended
              rw [recv_ended hended, hold] at hstops
              cases hstops
            have hstart : subscription.afterSequence = 0 := by
              rw [← hgrown.start]
              exact of_decide_eq_true (Bool.and_eq_true_iff.mp hstops).1
            simpa [hasStopped, Migration.reads, hstart, hgoes] using hold
          · rw [if_neg hstops] at hmem
            cases hmem
      | _ => cases hmem

theorem Tracked.step (h : Tracked config s) {a : WatchAction} {r : Unit} (ha : ToldApart log s a)
    (hact : (watch config).act s a = some (s', r)) : Tracked config s' := by
  cases a with
  | serve action =>
    by_cases hnamed : action.isNamed = true
    · simp only [watch, if_pos hnamed, Option.bind_eq_bind, Option.bind_eq_some_iff] at hact
      obtain ⟨⟨server', reply⟩, hserver, hub, hpublishes, hsame⟩ := hact
      cases hsame
      have hstep := act_step hserver
      have hstaffed := h.staffed.step hstep hnamed
      have hquiet : s.server.publishes config s.hub action = some s.hub → s.ends action = [] →
          Tracked config { s with server := server', hub, endings := s.endings ++ s.ends action } := by
        intro hnothing hends
        rw [hnothing] at hpublishes
        cases hpublishes
        rw [hends, List.append_nil]
        exact ⟨h.kept, h.told, hstaffed, h.reads, h.stopped⟩
      cases hstep with
      | @announce storage nowMs task hphase =>
        simp only [ServerState.publishes, hphase] at hpublishes
        obtain ⟨hkept, htold⟩ := h.announced hpublishes
        rw [show s.ends (.announce storage nowMs) = [] from rfl, List.append_nil]
        refine ⟨hkept, htold, hstaffed, fun subscription' hmem hreads => ?_, h.stopped⟩
        obtain ⟨subscription, hbefore, hgrown⟩ := append_grown hpublishes subscription' hmem
        rw [hgrown.run]
        exact h.reads subscription hbefore (hgrown.reads hreads)
      | @publish storage nowMs task ended hphase =>
        simp only [ServerState.publishes, hphase] at hpublishes
        obtain ⟨hstorage, hguard⟩ := ha
        obtain ⟨hroom, hapart⟩ := hguard task ended hphase
        have hends : s.ends (.publish storage nowMs) =
            [⟨task.taskId, ended, (storedEvents s.hub.database task.taskId).length⟩] := by
          simp only [WatchState.ends, hphase]
        obtain ⟨hkept, htold⟩ := h.published hphase hstorage hroom (fun ending hmem =>
          (hapart ending hmem).1) hpublishes
        rw [hends]
        refine ⟨hkept, htold, hstaffed, fun subscription' hmem hreads => ?_, h.stopped⟩
        obtain ⟨subscription, hbefore, hgrown⟩ := append_grown hpublishes subscription' hmem
        rw [hgrown.run, endingsOf_append]
        have hreads := hgrown.reads hreads
        by_cases hid : task.taskId = subscription.runId
        · cases hearlier : endingsOf s.endings task.taskId with
          | nil =>
            rw [if_pos hid, ← hid, hearlier]
            exact le_rfl
          | cons ending _ =>
            have hstopped := (hapart ending (hearlier ▸ List.mem_cons_self)).2 subscription hbefore hid.symm
            rw [hstopped] at hreads
            cases hreads
        · rw [if_neg hid, List.append_nil]
          exact h.reads subscription hbefore hreads
      | request | claim | execute | check | finish | restart => exact hquiet rfl rfl
    · simp [watch, hnamed] at hact
  | hub action =>
    by_cases hadmits : admits s.hub action = true
    · simp only [watch, if_pos hadmits, Option.bind_eq_bind, Option.bind_eq_some_iff] at hact
      obtain ⟨hub, hhub, hsame⟩ := hact
      cases hsame
      exact h.acted hadmits ha hhub
    · simp [watch, hadmits] at hact

theorem run_tracked (h : Run (watch config) ToldApart log s) : Tracked config s :=
  h.invariant (I := fun _ s => Tracked config s) Tracked.initial fun _ _ _ _ _ hs ha hact => hs.step ha hact

theorem Tracked.observable (h : Tracked config s) (taskId : String) : Observable config s taskId := by
  refine ⟨h.told.ended taskId, fun subscription hmem hrun hstart hcaught hgoes => ?_,
    fun stop hmem _ => h.stopped stop hmem⟩
  subst hrun
  have hyielded := (h.kept.received hmem hstart).2 hcaught
  have hopen : Open (storedEvents s.hub.database subscription.runId) := by
    simpa [hasStopped, hstart, hyielded, Open] using hgoes
  refine ⟨by rw [hyielded, attachMigration_open hopen], ?_⟩
  have hnone : endsOf (storedEvents s.hub.database subscription.runId) = [] :=
    List.filter_eq_nil_iff.mpr fun envelope hmem => by simp [hopen envelope hmem]
  have hended := h.told.ended subscription.runId
  rw [hnone] at hended
  exact List.map_eq_nil_iff.mp hended.symm

end runs

section samples

attribute [local instance] transparentSha256

def failedExecution (error : String) (nowMs : Nat) : List WatchAction :=
  [.serve (.claim .works), .serve (.announce .works nowMs), .hub (.publish 0), .serve (.execute (.error error)),
    .serve (.check .works), .serve (.finish .works), .serve (.publish .works (nowMs + 1)), .hub (.publish 0)]

def resumption : WatchAction := .serve (.request (.resume "owner" "task") .works)

def attachment : List WatchAction :=
  .hub (.attach "task" 0) :: .hub (.snapshot 0) :: List.replicate 3 (.hub (.recv 0))

def failedThrice : List WatchAction :=
  .serve (.request (.submit sampleSubmission) .works) ::
    (failedExecution "no build" 10 ++ resumption :: failedExecution "no build" 20 ++ resumption ::
      failedExecution "no tests" 30 ++ attachment)

/-- The client has stopped where the first execution ended before the second ends. -/
def failedTwice : List WatchAction :=
  .serve (.request (.submit sampleSubmission) .works) ::
    (failedExecution "no build" 10 ++ attachment ++ resumption :: failedExecution "no tests" 20)

/-- The restriction, as a test; notifications come one at a time. -/
def toldApart (_ : History WatchAction Unit) (s : WatchState) : WatchAction → Bool
  | .serve (.publish storage _) => !storage.isFailure && match s.server.phase with
    | .finished task outcome => decide ((storedEvents s.hub.database task.taskId).length + 2 < 2 ^ 63) &&
      (endingsOf s.endings task.taskId).all fun ending => decide (ending.outcome.key ≠ outcome.key) &&
        s.hub.subscriptions.all fun subscription =>
          decide (subscription.runId = task.taskId → reads subscription = false)
    | _ => true
  | .hub (.attach runId afterSequence) => decide (afterSequence = 0 → (endingsOf s.endings runId).length ≤ 1)
  | .hub action => publishesAlone [] s.hub action
  | _ => true

theorem toldApart_sound (log : History WatchAction Unit) (s : WatchState) (a : WatchAction)
    (h : toldApart log s a = true) : ToldApart log s a := by
  cases a with
  | serve action =>
    cases action with
    | publish storage nowMs =>
      obtain ⟨hstorage, hends⟩ := Bool.and_eq_true_iff.mp h
      refine ⟨by simpa using hstorage, fun task outcome hphase => ?_⟩
      rw [hphase] at hends
      simpa only [Bool.and_eq_true, decide_eq_true_eq, List.all_eq_true] using hends
    | _ => trivial
  | hub action =>
    cases action with
    | attach runId afterSequence =>
      simp only [toldApart, decide_eq_true_eq] at h
      exact h
    | publish index => exact publishesAlone_inOrder [] s.hub (.publish index) h
    | _ => trivial

theorem failedThrice_run : ∃ log s, Run (watch sampleConfig) anything log s ∧ log.map Prod.fst = failedThrice ∧
    (endingsOf s.endings "task").length = 3 ∧ (endsOf (storedEvents s.hub.database "task")).length = 2 ∧
    s.stops.map (fun stop => (stop.shown.length, stop.stored.length)) = [(2, 3)] := by
  obtain ⟨log, s, hrun, hlog, hcheck⟩ := play_reaches (watch sampleConfig) anything (fun _ _ _ => true) failedThrice
    (fun _ s => (endingsOf s.endings "task").length = 3 ∧ (endsOf (storedEvents s.hub.database "task")).length = 2 ∧
      s.stops.map (fun stop => (stop.shown.length, stop.stored.length)) = [(2, 3)])
    (fun _ _ _ _ => trivial) (allowedFrom_true _ _ _) (by decide)
  exact ⟨log, s, hrun, hlog, of_decide_eq_true hcheck⟩

end samples

end AlloyPort.Migration
