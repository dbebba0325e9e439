import AlloyPort.Runtime.Discipline
import AlloyPort.Runtime.Script

/-! What holds of every run of the worker: containers are created and started once and removed after the
terminal commit, attempts run on a device that was found free, and what a candidate is blamed for. -/

namespace AlloyPort

open Effect Interleaving Scenario

variable {k : Conditions}

theorem ownershipScheme_kept : (ownershipScheme k).Kept runtimeWorld k.guard where
  act {s log gs i g o reply s'} hinv hg hp ha hk := by
    obtain ⟨caller, hand⟩ := g
    obtain ⟨caller', o⟩ := o
    obtain ⟨hcaller, hpermits⟩ := hp
    obtain ⟨hincarnation, hacts⟩ := ha
    dsimp only at hcaller hpermits hincarnation hacts
    subst hcaller
    have hw : ∀ w, hand.view = some w → w.Drifts (s.view caller.attemptId) :=
      fun w hview => (Claimed.owned hinv i _ w hg ⟨hincarnation, hview⟩).2
    have hfollows := Hand.next_follows hacts (Claimed.sound hinv) hw hpermits hk
    exact ⟨(caller, hand.next caller.attemptId s s' o reply), ⟨rfl, hfollows, rfl, rfl⟩,
      Claimed.act hinv hg hpermits hincarnation hacts⟩
  move hinv hm _ := Claimed.move hinv hm
  start {s log gs p} hinv hs := by
    obtain ⟨runtime, attemptId, publishes, rfl⟩ := hs
    exact ⟨(⟨s.incarnation, runtime, attemptId⟩, .empty), ends_mono (ends_tag ends_run) fun _ _ _ => trivial,
      Claimed.start hinv runtime attemptId⟩

theorem run_claimed {c : RuntimeConfig} (h : Run runtimeWorld k.guard RuntimeConfig.initial c) :
    (ownershipScheme k).Holds c :=
  have hinitial : (ownershipScheme k).Holds RuntimeConfig.initial := ⟨[], .nil, Claimed.initial⟩
  ownershipScheme_kept.run hinitial h

theorem run_permits {c c' : RuntimeConfig} {task : Nat} {caller : Caller} {o : RuntimeOp} {reply : o.Reply}
    (h : Run runtimeWorld k.guard RuntimeConfig.initial c)
    (hs : Step runtimeWorld c (.act ⟨task, (caller, o), reply⟩) c') :
    ∃ hand : Hand, Permits k caller.attemptId hand hand.Owns o ∧ c.state.Sound ∧
      (∀ {Φ : AttemptView → Prop}, hand.Owns Φ → Φ (c.state.view caller.attemptId)) ∧
      (hand.observed, hand.told) = evidence task c.log := by
  obtain ⟨gs, ⟨caller', hand⟩, hinv, hg, hp, ha⟩ := (run_claimed h).meets hs
  obtain ⟨hcaller, hpermits⟩ := hp
  obtain ⟨hincarnation, hacts⟩ := ha
  dsimp only at hcaller hpermits hincarnation hacts
  subst hcaller
  have hw : ∀ w, hand.view = some w → w.Drifts (c.state.view caller'.attemptId) :=
    fun w hview => (Claimed.owned hinv task _ w hg ⟨hincarnation, hview⟩).2
  exact ⟨hand, hpermits, Claimed.sound hinv, fun howns => Hand.owns_now (Claimed.sound hinv) hw howns,
    Claimed.evident hinv task _ hg⟩

/-- The two situations in which a device is given back: the attempt has not run, and the device that it
leases was observed ready but occupied, with no preflight recorded; or the attempt is finished, and the
device that it leases was observed ready and free once that was known. The observation is the last of
the execution. -/
def JustifiesRelease (s : RuntimeState) (log : List RuntimeEvent) (task : Nat) (attemptId : String) : Prop :=
  ((s.view attemptId).InPhase .accepted ∧ (s.journal.entry attemptId).preflight = none ∧
    ∃ deviceId observation told, (s.view attemptId).Leases deviceId ∧
      (evidence task log).1 = some (deviceId, observation, told) ∧ observation.deviceId = deviceId ∧
      observation.health = .ready ∧ 0 < observation.processCount) ∨
  ((s.view attemptId).InPhase .finished ∧ ∃ deviceId observation, (s.view attemptId).Leases deviceId ∧
    (evidence task log).1 = some (deviceId, observation, true) ∧ observation.deviceId = deviceId ∧
    observation.health = .ready ∧ observation.processCount = 0)

section runs

variable {c : RuntimeConfig}

theorem run_free (h : Run runtimeWorld (fun _ _ _ => True) RuntimeConfig.initial c) :
    Run runtimeWorld Conditions.free.guard RuntimeConfig.initial c := by
  refine h.mono fun s log label _ => ?_
  cases label with
  | move | start => trivial
  | act e =>
    show Conditions.free.Allows s e.op.2
    unfold Conditions.Allows
    split
    · exact fun hk => hk.elim
    · exact ⟨fun hk => hk.elim, fun hk => hk.elim⟩
    · trivial

theorem runtime_executes_once (h : Run runtimeWorld (fun _ _ _ => True) RuntimeConfig.initial c) :
    (∀ attemptId, c.state.engine.creations.count (containerName attemptId) ≤ 1 ∧
      c.state.engine.starts.count (containerName attemptId) ≤ 1) ∧
    (∀ task caller name reply c', Step runtimeWorld c (.act ⟨task, (caller, .engine (.remove name)), reply⟩) c' →
      ∃ attemptId, name = containerName attemptId ∧ (c.state.view attemptId).InPhase .finished) ∧
    ∀ task caller attemptId atMs reply c',
      Step runtimeWorld c (.act ⟨task, (caller, .journal (.markRunning attemptId atMs)), reply⟩) c' →
      ∃ deviceId observation, (c.state.view attemptId).Leases deviceId ∧
        (c.state.journal.entry attemptId).preflight = some observation ∧ observation.deviceId = deviceId ∧
        observation.health = .ready ∧ observation.processCount = 0 := by
  have hfree := run_free h
  refine ⟨fun attemptId => ?_, fun task caller name reply c' hs => ?_, fun task caller attemptId atMs reply c' hs => ?_⟩
  · obtain ⟨gs, _, hinv⟩ := run_claimed hfree
    have hsound := (Claimed.sound hinv).attempts attemptId
    exact ⟨hsound.creations, hsound.starts⟩
  · obtain ⟨hand, hp, _, hnow, _⟩ := run_permits hfree hs
    exact ⟨caller.attemptId, hp.1, hnow hp.2⟩
  · obtain ⟨hand, hp, _, hnow, _⟩ := run_permits hfree hs
    obtain ⟨rfl, howns⟩ := hp
    obtain ⟨_, deviceId, observation, hleases, ho, hdevice, hreusable⟩ := hnow howns
    have hfound : observation.health = .ready ∧ observation.processCount = 0 := by
      simpa [DeviceObservation.reusable] using hreusable
    exact ⟨deviceId, observation, hleases, ho, hdevice, hfound⟩

/-- The sample attempt runs, and its device is given back. -/
theorem runtime_executes_once_sample : ∃ c : RuntimeConfig, c.state.engine.creations = ["alloyport-attempt"] ∧
    c.state.engine.containers "alloyport-attempt" = none ∧
    ∀ attemptId, c.state.engine.creations.count (containerName attemptId) ≤ 1 ∧
      c.state.engine.starts.count (containerName attemptId) ≤ 1 := by
  have hplay : (freeDevices (.ok ())).reaches anyhow (sampleCues "0" 31) 0 (fun c _ =>
      c.state.engine.creations = ["alloyport-attempt"] ∧ c.state.engine.containers "alloyport-attempt" = none) =
        true := by
    decide
  obtain ⟨c, e, c', hrun, _, hcheck⟩ := reaches_anyhow hplay
  simp only [decide_eq_true_eq] at hcheck
  exact ⟨c, hcheck.1, hcheck.2, (runtime_executes_once hrun).1⟩

theorem runtime_blames_candidate (h : Run runtimeWorld Conditions.stopsUnseen.guard RuntimeConfig.initial c) :
    ∀ task caller attemptId finished atMs reply c',
      Step runtimeWorld c (.act ⟨task, (caller, .journal (.markFinished attemptId finished atMs)), reply⟩) c' →
      finished.outcome = .candidateFailed → (c.state.view attemptId).FailedAlone := by
  intro task caller attemptId finished atMs reply c' hs hfailed
  obtain ⟨hand, hp, _, hnow, _⟩ := run_permits h hs
  obtain ⟨rfl, howns⟩ := hp
  exact hnow howns trivial hfailed

/-- The container of the step's attempt was told to stop, and the step blames the candidate. -/
def blamesStopped (c : RuntimeConfig) (e : RuntimeEvent) : Bool :=
  match e.op.2 with
  | .journal (.markFinished attemptId finished _) => finished.outcome = .candidateFailed &&
    (c.state.engine.containers (containerName attemptId)).any fun container => container.stopping
  | _ => false

/-- The stop of a cancelled attempt fails after the container was killed, and the next execution finds
the killed container. -/
theorem runtime_blames_stopped : ∃ c task caller attemptId finished atMs reply c',
    Run runtimeWorld (fun _ _ _ => True) RuntimeConfig.initial c ∧
      Step runtimeWorld c (.act ⟨task, (caller, .journal (.markFinished attemptId finished atMs)), reply⟩) c' ∧
      finished.outcome = .candidateFailed ∧ ¬ (c.state.view attemptId).FailedAlone := by
  have hplay : (freeDevices (.error (.unavailable "stop"))).reaches anyhow (sampleCues "0" 19 ++
      [Cue.start (sampleRuntime "0") "attempt"] ++ List.replicate 14 (Cue.go 1)) 1 blamesStopped = true := by
    decide
  obtain ⟨c, ⟨task, ⟨caller, o⟩, reply⟩, c', hrun, hstep, hcheck⟩ := reaches_anyhow hplay
  unfold blamesStopped at hcheck
  split at hcheck
  · rename_i attemptId finished atMs hop
    dsimp only at hop
    subst hop
    simp only [Bool.and_eq_true, decide_eq_true_eq] at hcheck
    obtain ⟨hfailed, hstopped⟩ := hcheck
    refine ⟨c, task, caller, attemptId, finished, atMs, reply, c', hrun, hstep, hfailed, ?_⟩
    rintro ⟨container, exit, hc, _, _, hstopping⟩
    rw [show c.state.engine.containers (containerName attemptId) = some container from hc] at hstopped
    cases hstopping.symm.trans hstopped
  · cases hcheck

/-- The sample attempt fails by itself. -/
theorem runtime_blames_candidate_sample : ∃ c task caller attemptId finished atMs reply c',
    Run runtimeWorld Conditions.stopsUnseen.guard RuntimeConfig.initial c ∧
      Step runtimeWorld c (.act ⟨task, (caller, .journal (.markFinished attemptId finished atMs)), reply⟩) c' ∧
      finished.outcome = .candidateFailed ∧ (c.state.view attemptId).FailedAlone := by
  have hplay : (freeDevices (.ok ())).reaches careful (sampleCues "0" 16 ++ [Cue.exit "attempt" ⟨1, 5⟩] ++
      List.replicate 7 (Cue.go 0)) 0 (fun c e => match e.op.2 with
        | .journal (.markFinished _ finished _) => finished.outcome = .candidateFailed
        | _ => false) = true := by
    decide
  obtain ⟨c, ⟨task, ⟨caller, o⟩, reply⟩, c', hrun, hstep, hcheck⟩ := reaches_carefully .stopsUnseen hplay
  split at hcheck
  · rename_i attemptId finished atMs hop
    dsimp only at hop
    subst hop
    have hfailed : finished.outcome = .candidateFailed := by simpa using hcheck
    exact ⟨c, task, caller, attemptId, finished, atMs, reply, c', hrun, hstep, hfailed,
      runtime_blames_candidate hrun task caller attemptId finished atMs reply c' hstep hfailed⟩
  · cases hcheck

theorem runtime_justifies_release (h : Run runtimeWorld Conditions.deviceBound.guard RuntimeConfig.initial c) :
    (∀ task caller attemptId atMs reply c',
      Step runtimeWorld c (.act ⟨task, (caller, .journal (.releaseDeviceLease attemptId atMs)), reply⟩) c' →
      JustifiesRelease c.state c.log task attemptId.text) ∧
    ∀ task caller deviceId reply c', Step runtimeWorld c (.act ⟨task, (caller, .recoverDevice deviceId), reply⟩) c' →
      ∃ observation told, (evidence task c.log).1 = some (deviceId, observation, told) ∧
        observation.deviceId = deviceId ∧ observation.processCount = 0 := by
  refine ⟨fun task caller attemptId atMs reply c' hs => ?_, fun task caller deviceId reply c' hs => ?_⟩
  · obtain ⟨hand, hp, _, hnow, hevidence⟩ := run_permits h hs
    obtain ⟨hid, howns⟩ := hp
    have hobserved : (evidence task c.log).1 = hand.observed := by rw [← hevidence]
    rw [JustifiesRelease, hobserved, hid]
    rcases hnow howns with ⟨haccepted, hnone, hoccupied⟩ | ⟨hfinished, hfound⟩
    · exact .inl ⟨haccepted, hnone, hoccupied⟩
    · obtain ⟨deviceId, observation, hleases, ho, hdevice, hreusable⟩ := hfound trivial
      have hfree : observation.health = .ready ∧ observation.processCount = 0 := by
        simpa [DeviceObservation.reusable] using hreusable
      exact .inr ⟨hfinished, deviceId, observation, hleases, ho, hdevice, hfree⟩
  · obtain ⟨hand, hp, _, _, hevidence⟩ := run_permits h hs
    have hobserved : (evidence task c.log).1 = hand.observed := by rw [← hevidence]
    rw [hobserved]
    exact hp

/-- The sample attempt gives its device back. -/
def gives (_ : RuntimeConfig) (e : RuntimeEvent) : Bool :=
  match e.op.2 with
  | .journal (.releaseDeviceLease _ _) => true
  | _ => false

theorem runtime_justifies_release_sample : ∃ c task caller attemptId atMs reply c',
    Run runtimeWorld Conditions.deviceBound.guard RuntimeConfig.initial c ∧
      Step runtimeWorld c (.act ⟨task, (caller, .journal (.releaseDeviceLease attemptId atMs)), reply⟩) c' ∧
      JustifiesRelease c.state c.log task attemptId.text := by
  have hplay : (freeDevices (.ok ())).reaches careful (sampleCues "0" 30) 0 gives = true := by decide
  obtain ⟨c, ⟨task, ⟨caller, o⟩, reply⟩, c', hrun, hstep, hcheck⟩ := reaches_carefully .deviceBound hplay
  unfold gives at hcheck
  split at hcheck
  · rename_i attemptId atMs hop
    dsimp only at hop
    subst hop
    exact ⟨c, task, caller, attemptId, atMs, reply, c', hrun, hstep,
      (runtime_justifies_release hrun).1 task caller attemptId atMs reply c' hstep⟩
  · cases hcheck

def releasesUnobserved (c : RuntimeConfig) (e : RuntimeEvent) : Bool :=
  match e.op.2 with
  | .journal (.releaseDeviceLease attemptId _) => (c.state.journal.entry attemptId.text).attempt.any (fun row =>
      row.phase = .finished) && (c.state.journal.entry attemptId.text).lease.any fun lease =>
        (evidence e.task c.log).1.any fun observed => observed.1 ≠ lease.deviceId
  | _ => false

/-- The device of a finished attempt stays occupied, and a runtime on another device takes the attempt up. -/
theorem runtime_releases_unobserved : ∃ c task caller attemptId atMs reply c',
    Run runtimeWorld (fun _ _ _ => True) RuntimeConfig.initial c ∧
      Step runtimeWorld c (.act ⟨task, (caller, .journal (.releaseDeviceLease attemptId atMs)), reply⟩) c' ∧
      ¬ JustifiesRelease c.state c.log task attemptId.text := by
  have hplay : (occupiedAfterwards "0").reaches anyhow (sampleCues "0" 30 ++
      [Cue.crash, Cue.start (sampleRuntime "1") "attempt"] ++ List.replicate 6 (Cue.go 1)) 1 releasesUnobserved =
        true := by
    decide
  obtain ⟨c, ⟨task, ⟨caller, o⟩, reply⟩, c', hrun, hstep, hcheck⟩ := reaches_anyhow hplay
  unfold releasesUnobserved at hcheck
  split at hcheck
  · rename_i attemptId atMs hop
    dsimp only at hop
    subst hop
    simp only [Bool.and_eq_true, Option.any_eq_true, decide_eq_true_eq] at hcheck
    obtain ⟨⟨row, hrow, hfinished⟩, lease, hlease, observed, hobserved, hne⟩ := hcheck
    refine ⟨c, task, caller, attemptId, atMs, reply, c', hrun, hstep, ?_⟩
    have hother : ∀ deviceId observation told, (c.state.view attemptId.text).Leases deviceId →
        (evidence task c.log).1 ≠ some (deviceId, observation, told) := by
      rintro deviceId observation told ⟨lease', hlease', rfl, _⟩ heq
      cases hlease.symm.trans hlease'
      rw [heq] at hobserved
      cases hobserved
      exact absurd rfl hne
    rintro (⟨_, _, deviceId, observation, told, hleases, ho, _⟩ | ⟨_, deviceId, observation, hleases, ho, _⟩)
    · exact hother _ _ _ hleases ho
    · exact hother _ _ _ hleases ho
  · cases hcheck

end runs

end AlloyPort
