import AlloyPort.Runtime.Ownership

/-! Runs under a script. The journal and the engine do not fail, the clock stands still, and a scenario says
what the device probe answers and how a container takes being stopped; a script says who goes on when,
and what happens between. -/

namespace AlloyPort

open Effect Interleaving

structure Scenario where
  observe : RuntimeState → String → Except DeviceStatusError DeviceObservation
  snapshot : RuntimeState → List DeviceObservation
  stopped : Except ContainerEngineError Unit

inductive Cue where
  | start (runtime : ExecutionRuntime) (attemptId : String)
  | go (task : Nat)
  | accept (assignment : StoredAssignment)
  | exit (attemptId : String) (exit : ContainerExit)
  | crash

namespace Scenario

variable (scenario : Scenario)

def killed : ContainerExit := ⟨137, 5⟩

def performEngine (engine : Engine) : (operation : EngineOp) → Option (operation.Reply × Engine)
  | .resolveImageId _ => some (.ok "image", engine)
  | .inspect name => some (.ok ((engine.containers name).map Container.snapshot), engine)
  | .create identity =>
    if engine.containers identity.name = none then some (.ok (), engine.create identity) else none
  | .start name => match engine.containers name with
    | some container => if container.state = .running then none else some (.ok (), engine.start name container)
    | none => none
  | .wait name => match engine.containers name with
    | some ⟨_, .exited exit, _⟩ => some (.ok exit, engine)
    | _ => none
  | .logs .. | .followLogs .. => some (.ok ⟨[], [], false⟩, engine)
  | .stop name => match engine.containers name with
    | some container => if container.state = .running
      then some (scenario.stopped, engine.put name (some { container with stopping := true, state := .exited killed }))
      else none
    | none => none
  | .remove name => some (.ok (), engine.put name none)

def ending (engine : Engine) (name : String) : Ending :=
  match engine.containers name with
  | some ⟨_, .exited exit, _⟩ => .exit (.ok exit)
  | _ => .cancelled

def artifact : ArtifactDescriptor := sampleContract.execution.bundle

def perform (s : RuntimeState) : (o : RuntimeOp) → Option (o.Reply × RuntimeState)
  | .journal operation => some ((operation.execute s.journal).2, { s with journal := (operation.execute s.journal).1 })
  | .nowUnixMs => some ((20 : Nat), s)
  | .claim _ attemptId =>
    if attemptId ∈ s.claims then some (false, s) else some (true, { s with claims := attemptId :: s.claims })
  | .unclaim attemptId => some ((), { s with claims := s.claims.filter fun other => other ≠ attemptId })
  | .snapshot _ => some (.ok (scenario.snapshot s), s)
  | .observeDevice deviceId => some (scenario.observe s deviceId, s)
  | .recoverDevice _ => some (.error (.recoveryUnsupported "scripted"), s)
  | .supervisorFor _ => some (.ok (), s)
  | .plan _ => some (.ok "image", s)
  | .engine operation =>
    (scenario.performEngine s.engine operation).map fun (reply, engine) => (reply, { s with engine })
  | .select name _ => some (.ending (ending s.engine name), s)
  | .selectEnding name => some (ending s.engine name, s)
  | .store _ => some (.ok artifact, s)
  | .storeReceipt _ => some (.ok artifact, s)
  | .publish .. => some (.ok (), s)

variable {scenario}

theorem performEngine_step {engine engine' : Engine} {operation : EngineOp} {reply : operation.Reply}
    (h : scenario.performEngine engine operation = some (reply, engine')) :
    EngineStep engine operation reply engine' := by
  cases operation with simp only [performEngine] at h
  | resolveImageId | inspect | logs | followLogs | remove =>
    cases h
    constructor
  | create identity =>
    split at h
    · cases h
      exact .created _ ‹_›
    · cases h
  | start name =>
    split at h
    · split at h
      · cases h
      · cases h
        exact .started _ ‹_› ‹_›
    · cases h
  | wait name =>
    split at h
    · cases h
      exact .waited ‹_› rfl
    · cases h
  | stop name =>
    split at h
    · split at h
      · cases h
        exact .stopped _ _ ‹_› ‹_›
      · cases h
    · cases h

theorem ending_seen (engine : Engine) (name : String) : (ending engine name).Seen engine name := by
  unfold ending
  split
  · exact .exit (.waited ‹_› rfl)
  · exact .cancelled

theorem perform_acts {s s' : RuntimeState} {o : RuntimeOp} {reply : o.Reply}
    (h : scenario.perform s o = some (reply, s')) : RuntimeActs s o reply s' := by
  cases o with
  | journal operation =>
    cases h
    exact .journal (.ran operation)
  | claim deviceId attemptId =>
    simp only [perform] at h
    split at h
    · cases h
      exact .refused
    · cases h
      exact .claimed ‹_›
  | engine operation =>
    simp only [perform] at h
    obtain ⟨⟨reply', engine⟩, hengine, heq⟩ := Option.map_eq_some_iff.mp h
    cases heq
    exact .engine (performEngine_step hengine)
  | select name limit =>
    cases h
    exact .ended (ending_seen s.engine name)
  | selectEnding name =>
    cases h
    exact .selected (ending_seen s.engine name)
  | _ =>
    cases h
    constructor

section follow

variable (scenario) (allows : RuntimeState → List RuntimeEvent → RuntimeEvent → Bool)

def next (task : Nat) (c : RuntimeConfig) : Option (RuntimeEvent × RuntimeConfig) :=
  match c.tasks[task]? with
  | some (.op o rest) =>
    match scenario.perform c.state o.2 with
    | some (reply, s') =>
      if o.1.incarnation = c.state.incarnation ∧ allows c.state c.log ⟨task, o, reply⟩ = true then
        some (⟨task, o, reply⟩, ⟨s', c.tasks.set task (rest reply), c.log ++ [⟨task, o, reply⟩]⟩)
      else none
    | none => none
  | _ => none

def cue (c : RuntimeConfig) : Cue → Option RuntimeConfig
  | .start runtime attemptId =>
    some { c with tasks := c.tasks ++
      [(ExecutionRuntime.run runtime attemptId false).tag ⟨c.state.incarnation, runtime, attemptId⟩] }
  | .go task => (scenario.next allows task c).map Prod.snd
  | .accept assignment => some { c with state.journal :=
      ((JournalOperation.admitAttempt assignment 10).execute c.state.journal).1 }
  | .exit attemptId exit => match c.state.engine.containers (containerName attemptId) with
    | some container => if container.state = .running
      then some { c with state.engine :=
        c.state.engine.put (containerName attemptId) (some { container with state := .exited exit }) }
      else none
    | none => none
  | .crash => some { c with state := { c.state with claims := [], incarnation := c.state.incarnation + 1 } }

def follow : List Cue → RuntimeConfig → Option RuntimeConfig
  | [], c => some c
  | cue :: cues, c => (scenario.cue allows c cue).bind (follow cues)

variable {scenario allows} {guard : RuntimeGuard} {c c' : RuntimeConfig} {cues : List Cue} {task : Nat}

theorem next_step {e : RuntimeEvent} (h : scenario.next allows task c = some (e, c')) :
    Step runtimeWorld c (.act e) c' ∧ allows c.state c.log e = true := by
  obtain ⟨s, tasks, log⟩ := c
  unfold next at h
  split at h
  · rename_i o rest htask
    split at h
    · rename_i reply s' hperform
      split at h
      · rename_i hallows
        cases h
        have hacts : runtimeWorld.acts s o reply s' := ⟨hallows.1, perform_acts hperform⟩
        exact ⟨.act (w := runtimeWorld) (o := o) reply htask hacts, hallows.2⟩
      · cases h
    · cases h
  · cases h

theorem cue_step {cue : Cue} (hg : ∀ s log e, allows s log e = true → guard s log (.act e))
    (hm : ∀ s log label, (∀ e, label ≠ .act e) → guard s log label) (h : scenario.cue allows c cue = some c') :
    ∃ label, Step runtimeWorld c label c' ∧ guard c.state c.log label := by
  obtain ⟨s, tasks, log⟩ := c
  cases cue with
  | start runtime attemptId =>
    cases h
    exact ⟨_, .start _ ⟨runtime, attemptId, false, rfl⟩, hm _ _ _ fun e he => by cases he⟩
  | go task =>
    obtain ⟨⟨e, c''⟩, hnext, rfl⟩ := Option.map_eq_some_iff.mp h
    obtain ⟨hstep, hallows⟩ := next_step hnext
    exact ⟨_, hstep, hg _ _ _ hallows⟩
  | accept assignment =>
    cases h
    have hforeign : (JournalOperation.admitAttempt assignment 10).Foreign s.journal := trivial
    exact ⟨_, .move (.journal hforeign (.ran _)), hm _ _ _ fun e he => by cases he⟩
  | exit attemptId exit =>
    simp only [Scenario.cue] at h
    split at h
    · split at h
      · cases h
        exact ⟨_, .move (.exited exit ‹_› ‹_›), hm _ _ _ fun e he => by cases he⟩
      · cases h
    · cases h
  | crash =>
    cases h
    exact ⟨_, .move .crashed, hm _ _ _ fun e he => by cases he⟩

theorem follow_run (hg : ∀ s log e, allows s log e = true → guard s log (.act e))
    (hm : ∀ s log label, (∀ e, label ≠ .act e) → guard s log label) (h : scenario.follow allows cues c = some c') :
    Run runtimeWorld guard c c' := by
  induction cues generalizing c with
  | nil =>
    cases h
    exact .initial
  | cons cue cues ih =>
    obtain ⟨c₁, hcue, hfollow⟩ := Option.bind_eq_some_iff.mp h
    obtain ⟨label, hstep, hguard⟩ := cue_step hg hm hcue
    exact (Run.initial.step hstep hguard).trans (ih hfollow)

def reaches (scenario : Scenario) (allows : RuntimeState → List RuntimeEvent → RuntimeEvent → Bool) (cues : List Cue)
    (task : Nat) (check : RuntimeConfig → RuntimeEvent → Bool) : Bool :=
  (scenario.follow allows cues .initial).any fun c => (scenario.next allows task c).any fun step => check c step.1

theorem reaches_step {check : RuntimeConfig → RuntimeEvent → Bool}
    (hg : ∀ s log e, allows s log e = true → guard s log (.act e))
    (hm : ∀ s log label, (∀ e, label ≠ .act e) → guard s log label)
    (h : scenario.reaches allows cues task check = true) :
    ∃ c e c', Run runtimeWorld guard RuntimeConfig.initial c ∧ Step runtimeWorld c (.act e) c' ∧ check c e = true := by
  unfold reaches at h
  cases hfollow : scenario.follow allows cues .initial with
  | none =>
    rw [hfollow] at h
    cases h
  | some c =>
    rw [hfollow] at h
    dsimp only [Option.any_some] at h
    cases hnext : scenario.next allows task c with
    | none =>
      rw [hnext] at h
      cases h
    | some step =>
      rw [hnext] at h
      exact ⟨c, step.1, step.2, follow_run hg hm hfollow, (next_step hnext).1, h⟩

end follow

section samples

variable {scenario : Scenario} {cues : List Cue} {task : Nat} {check : RuntimeConfig → RuntimeEvent → Bool}
  {k : Conditions}

def anyhow (_ : RuntimeState) (_ : List RuntimeEvent) (_ : RuntimeEvent) : Bool := true

/-- A run that comes upon no stopped container, and claims no attempt that has held a device. -/
def careful (s : RuntimeState) (_ : List RuntimeEvent) (e : RuntimeEvent) : Bool :=
  match e.op.2 with
  | .engine (.inspect name) => match s.engine.containers name with
    | none => true
    | some container => container.stopping = false
  | .claim deviceId attemptId => !isBlank deviceId && (s.journal.entry attemptId).lease = none
  | _ => true

theorem careful_guard {s : RuntimeState} {log : List RuntimeEvent} {e : RuntimeEvent}
    (h : careful s log e = true) : k.guard s log (.act e) := by
  obtain ⟨task, ⟨caller, o⟩, reply⟩ := e
  show k.Allows s o
  unfold Conditions.Allows
  split
  · intro _ container hc htainted
    simp only [careful, hc, decide_eq_true_eq] at h
    cases h.symm.trans htainted.1
  · simp only [careful, Bool.and_eq_true, Bool.not_eq_true', decide_eq_true_eq] at h
    refine ⟨fun _ _ held => ?_, fun _ _ => ⟨by simp [h.1], fun lease hlease => ?_⟩⟩
    · rintro ⟨lease, hlease, _⟩
      cases h.2.symm.trans hlease
    · cases h.2.symm.trans hlease
  · trivial

theorem guard_elsewhere (s : RuntimeState) (log : List RuntimeEvent)
    (label : Label RuntimeState CalledOp CalledOp.Reply) (h : ∀ e, label ≠ .act e) : k.guard s log label := by
  cases label with
  | act e => exact absurd rfl (h e)
  | move | start => trivial

theorem reaches_carefully (k : Conditions) (h : scenario.reaches careful cues task check = true) :
    ∃ c e c', Run runtimeWorld k.guard RuntimeConfig.initial c ∧ Step runtimeWorld c (.act e) c' ∧ check c e = true :=
  reaches_step (fun _ _ _ => careful_guard) guard_elsewhere h

theorem reaches_anyhow (h : scenario.reaches anyhow cues task check = true) :
    ∃ c e c', Run runtimeWorld (fun _ _ _ => True) RuntimeConfig.initial c ∧ Step runtimeWorld c (.act e) c' ∧
      check c e = true := reaches_step (fun _ _ _ _ => trivial) (fun _ _ _ _ => trivial) h

def sampleRuntime (deviceId : String) : ExecutionRuntime :=
  ⟨"cuda", deviceId, ⟨"exited", "nonzero", "no evidence", fun _ => true⟩, none⟩

def sampleObservation (deviceId : String) (processCount : Nat) : DeviceObservation :=
  ⟨deviceId, .ready, processCount, 0, 0, 0, 0, 0, 12, ""⟩

def freeDevices (stopped : Except ContainerEngineError Unit) : Scenario where
  observe _ deviceId := .ok (sampleObservation deviceId 0)
  snapshot _ := []
  stopped := stopped

def occupiedAfterwards (occupied : String) : Scenario where
  observe s deviceId := .ok (sampleObservation deviceId (if deviceId = occupied ∧ s.engine.starts ≠ [] then 1 else 0))
  snapshot _ := []
  stopped := .ok ()

def sampleCues (deviceId : String) (steps : Nat) : List Cue :=
  [Cue.accept sampleContract, Cue.start (sampleRuntime deviceId) "attempt"] ++ List.replicate steps (Cue.go 0)

end samples

end Scenario

end AlloyPort
