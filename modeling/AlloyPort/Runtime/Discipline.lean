import AlloyPort.Runtime.Conduct

/-! What the supervision of a container relies on and finds out: which container it creates and starts, and
that an outcome that blames the candidate is the container's own. -/

namespace AlloyPort

open Effect RuntimeProgram RuntimeState ExecutionRuntime

/-- The attempt is not finished and holds the device. -/
def Working (deviceId : String) (v : AttemptView) : Prop := ¬ v.InPhase .finished ∧ v.Leases deviceId

def Created (v : AttemptView) : Prop := ∃ container, v.container = some container ∧ container.state = .created

/-- The container was not told to stop, so far as the run is under that condition. -/
def Clean (k : Conditions) (v : AttemptView) : Prop :=
  k.untainted → ∃ container, v.container = some container ∧ ¬ container.Tainted

def Ended (k : Conditions) (exit : ContainerExit) (v : AttemptView) : Prop :=
  k.untainted → ∃ container, v.container = some container ∧ container.state = .exited exit ∧ ¬ container.Tainted

def Found (k : Conditions) : ContainerPhase → AttemptView → Prop
  | .created => Created
  | .running | .exited => Clean k

section stable

variable {k : Conditions} {deviceId : String} {exit : ContainerExit}

theorem Container.Drifts.untainted {container container' : Container} (h : container.Drifts container')
    (hc : ¬ container.Tainted) : ¬ container'.Tainted := by
  rintro ⟨hstopping, hexit⟩
  refine hc ⟨h.stopping ▸ hstopping, fun exit hstate => hexit exit ?_⟩
  rcases h.state with heq | ⟨hrunning, _⟩
  · exact heq.trans hstate
  · cases hrunning.symm.trans hstate

theorem stable_working : Stable (Working deviceId) := stable_unfinished.and (stable_leases deviceId)

theorem stable_created : Stable Created := by
  rintro v v' hd ⟨container, hc, hstate⟩
  obtain ⟨container', hc', hdrifts⟩ := hd.container container hc
  refine ⟨container', hc', ?_⟩
  rcases hdrifts.state with heq | ⟨hrunning, _⟩
  · exact heq.trans hstate
  · cases hrunning.symm.trans hstate

theorem stable_clean : Stable (Clean k) := by
  intro v v' hd hv hk
  obtain ⟨container, hc, hclean⟩ := hv hk
  obtain ⟨container', hc', hdrifts⟩ := hd.container container hc
  exact ⟨container', hc', hdrifts.untainted hclean⟩

theorem stable_ended : Stable (Ended k exit) := by
  intro v v' hd hv hk
  obtain ⟨container, hc, hstate, hclean⟩ := hv hk
  obtain ⟨container', hc', hdrifts⟩ := hd.container container hc
  refine ⟨container', hc', ?_, hdrifts.untainted hclean⟩
  rcases hdrifts.state with heq | ⟨hrunning, _⟩
  · exact heq.trans hstate
  · cases hrunning.symm.trans hstate

theorem stable_found {phase : ContainerPhase} : Stable (Found k phase) := by
  cases phase with
  | created => exact stable_created
  | running | exited => exact stable_clean

theorem Ended.failedAlone {v : AttemptView} (h : Ended k exit v) (hexit : exit.exitCode ≠ 0)
    (hk : k.untainted) : v.FailedAlone := by
  obtain ⟨container, hc, hstate, hclean⟩ := h hk
  refine ⟨container, exit, hc, hstate, hexit, ?_⟩
  by_contra hstopping
  refine hclean ⟨by simpa using hstopping, fun exit' hstate' => ?_⟩
  cases hstate.symm.trans hstate'
  exact hexit

end stable

section supervision

variable {k : Conditions} {caller : Caller} {hand : Hand} {deviceId : String} {identity : ContainerIdentity}
variable {s : RuntimeState} {engine : Engine} {limit : Nat} {engine' : Engine} {name : String}

abbrev Caller.container (caller : Caller) : String := containerName caller.attemptId

theorem working_engine (h : Working deviceId (s.view caller.attemptId)) :
    Working deviceId (view { s with engine } caller.attemptId) := h

theorem EngineStep.inspect_answer {snapshot : Option ContainerSnapshot}
    (h : EngineStep engine (.inspect name) (.ok snapshot) engine') :
    engine' = engine ∧ snapshot = (engine.containers name).map Container.snapshot := by
  cases h
  exact ⟨rfl, rfl⟩

theorem EngineStep.wait_answer {exit : ContainerExit}
    (h : EngineStep engine (.wait name) (.ok exit) engine') :
    engine' = engine ∧ ∃ container, engine.containers name = some container ∧ container.state = .exited exit := by
  cases h with
  | waited hc hs => exact ⟨rfl, _, hc, hs⟩

theorem leads_createContainer (hname : identity.name = caller.container)
    (howns : hand.Owns fun v => Working deviceId v ∧ v.container = none) :
    Leads k caller hand (createContainer identity) fun hand' phase =>
      hand'.Owns fun v => Working deviceId v ∧ Found k phase v := by
  unfold createContainer
  have hp : Permits k caller.attemptId hand hand.Owns (.engine (.create identity)) :=
    ⟨hname, howns.mono fun v hv => ⟨hv.2, hv.1.1⟩⟩
  refine leads_bind (leads_engine howns hp fun s engine _ hΦ _ _ hstep => ?_)
  have hcreated : Created (view { s with engine } caller.attemptId) := by
    cases hstep with
    | created =>
      refine ⟨⟨identity, .created, false⟩, ?_, rfl⟩
      show (Engine.create identity s.engine).containers caller.container = _
      rw [← hname]
      exact Engine.put_same
  have howns' := Hand.owns_setView hand (stable_working.and stable_created) ⟨working_engine hΦ.1, hcreated⟩
  refine leads_bind (leads_engine howns' trivial fun s engine snapshot hΦ _ _ hstep => ?_)
  obtain ⟨rfl, _⟩ := hstep.inspect_answer
  have hnow := Hand.owns_setView hand (stable_working.and stable_created) hΦ
  cases snapshot with
  | none => exact leads_fail hnow.some
  | some created =>
    dsimp only
    split
    · exact leads_fail hnow.some
    · split
      · exact leads_fail hnow.some
      · rename_i hphase
        refine leads_ret hnow.some ?_
        rw [not_not.mp hphase]
        exact hnow

theorem leads_reconcileContainer (hname : identity.name = caller.container) (howns : hand.Owns (Working deviceId)) :
    Leads k caller hand (reconcileContainer identity) fun hand' phase =>
      hand'.Owns fun v => Working deviceId v ∧ Found k phase v := by
  unfold reconcileContainer
  refine leads_bind (leads_engine howns trivial fun s engine snapshot hΦ _ hallows hstep => ?_)
  obtain ⟨rfl, hsnapshot⟩ := hstep.inspect_answer
  rw [hname] at hallows hsnapshot
  cases hcontainer : s.engine.containers caller.container with
  | none =>
    rw [hcontainer] at hsnapshot
    subst hsnapshot
    exact leads_createContainer hname (Hand.owns_setView _ (stable_working.and stable_absent) ⟨hΦ, hcontainer⟩)
  | some container =>
    rw [hcontainer] at hsnapshot
    subst hsnapshot
    have hfound : Found k container.state.phase (s.view caller.attemptId) := by
      cases hstate : container.state with
      | created => exact ⟨container, hcontainer, hstate⟩
      | running | exited => exact fun hk => ⟨container, hcontainer, hallows hk container hcontainer⟩
    have hnow := Hand.owns_setView hand (stable_working.and stable_found) ⟨hΦ, hfound⟩
    dsimp only [Option.map_some, Container.snapshot]
    split
    · exact leads_fail hnow.some
    · exact leads_ret hnow.some hnow

theorem leads_stopAndWait (howns : hand.Owns (Working deviceId)) :
    Leads k caller hand (stopAndWait caller.container) fun hand' _ => hand'.Owns (Working deviceId) := by
  unfold stopAndWait
  have hp : Permits k caller.attemptId hand hand.Owns (.engine (.stop caller.container)) :=
    ⟨rfl, howns.mono fun _ _ => trivial⟩
  refine leads_bind (leads_engine howns hp fun s engine _ hΦ _ _ _ => ?_)
  have hworking : Working deviceId (view { s with engine } caller.attemptId) := working_engine hΦ
  have howns' := Hand.owns_setView hand stable_working hworking
  exact leads_engine howns' trivial fun s engine _ hΦ _ _ _ => Hand.owns_setView _ stable_working (working_engine hΦ)

def Supervised (k : Conditions) (deviceId : String) (termination : ContainerTermination) (v : AttemptView) : Prop :=
  Working deviceId v ∧ ∀ exit, termination = .exited exit → Ended k exit v

theorem stable_supervised (termination : ContainerTermination) : Stable (Supervised k deviceId termination) :=
  fun v v' hd hv => ⟨stable_working v v' hd hv.1, fun exit h => stable_ended v v' hd (hv.2 exit h)⟩

theorem leads_terminate {ending : Ending}
    (howns : hand.Owns fun v => Working deviceId v ∧ ∀ exit, ending = .exit (.ok exit) → Ended k exit v) :
    Leads k caller hand (terminate caller.container ending) fun hand' termination =>
      hand'.Owns (Supervised k deviceId termination) := by
  have hworking : hand.Owns (Working deviceId) := howns.mono fun _ hv => hv.1
  cases ending with
  | cancelled | timeout =>
    refine leads_bind (leads_mono (leads_stopAndWait hworking) fun hand' exit hw => leads_ret hw.some ?_)
    exact hw.mono fun v hv => ⟨hv, fun _ h => by cases h⟩
  | exit exit =>
    refine leads_bind (leads_attempt howns.some fun code hcode => leads_ret howns.some ?_)
    refine howns.mono fun v hv => ⟨hv.1, fun exit' h => ?_⟩
    cases h
    exact hv.2 code (by rw [hcode])

theorem leads_abandon {error : ContainerEngineError} {Q : Hand → ContainerTermination × ContainerLogs → Prop}
    (howns : hand.Owns (Working deviceId)) : Leads k caller hand (abandon caller.container error) Q := by
  have hp : Permits k caller.attemptId hand hand.Owns (.engine (.stop caller.container)) :=
    ⟨rfl, howns.mono fun _ _ => trivial⟩
  refine leads_op howns (fun _ _ h => by cases h) (fun _ h => by cases h) hp fun w s s' reply _ _ _ _ _ ha => ?_
  refine leads_op (Φ := fun _ => True) ⟨_, rfl, fun _ _ _ => trivial⟩ (fun _ _ h => by cases h) (fun _ h => by cases h)
    trivial fun w s s' reply _ _ _ _ _ ha => ?_
  exact leads_fail ⟨_, rfl⟩

theorem Ending.Seen.ended {ending : Ending} {exit : ContainerExit} (h : ending.Seen s.engine caller.container)
    (he : ending = .exit (.ok exit)) (hv : Clean k (s.view caller.attemptId)) :
    Ended k exit (s.view caller.attemptId) := by
  intro hk
  obtain ⟨container, hc, hclean⟩ := hv hk
  cases h with
  | cancelled | timeout => cases he
  | exit hwait =>
    cases he
    obtain ⟨_, container', hc', hstate⟩ := hwait.wait_answer
    cases hc'.symm.trans hc
    exact ⟨container, hc, hstate, hclean⟩

theorem leads_superviseRunningContainer (howns : hand.Owns fun v => Working deviceId v ∧ Clean k v) :
    Leads k caller hand (superviseRunningContainer caller.container limit) fun hand' ended =>
      hand'.Owns (Supervised k deviceId ended.1) := by
  unfold superviseRunningContainer
  refine leads_bind (leads_op howns (fun _ _ h => by cases h) (fun _ h => by cases h) trivial
    fun w s s' wakeup _ hd _ hΦ _ ha => leads_ret ⟨_, rfl⟩ ?_)
  dsimp only [RuntimeOp.observes, RuntimeOp.tellsFinished]
  rw [Bool.or_false]
  cases ha with
  | ended hseen =>
    rename_i ending
    have hnow := Hand.owns_setView hand
      (Φ := fun v => Working deviceId v ∧ ∀ exit, ending = .exit (.ok exit) → Ended k exit v)
      (fun v v' hd hv => ⟨stable_working v v' hd hv.1, fun exit h => stable_ended v v' hd (hv.2 exit h)⟩)
      ⟨hΦ.1, fun exit h => hseen.ended h hΦ.2⟩
    refine leads_bind (leads_mono (leads_terminate hnow) fun hand' termination hs => ?_)
    exact leads_bind (leads_quiet hs trivial fun reply hand'' ho =>
      leads_attempt (ho.owns hs).some fun _ _ => leads_ret (ho.owns hs).some (ho.owns hs))
  | logged logs =>
    have hnow := Hand.owns_setView hand (stable_working.and stable_clean) hΦ
    have hworking := hnow.mono fun _ hv => hv.1
    cases logs with
    | error error => exact leads_abandon hworking
    | ok logs =>
      dsimp only
      split
      · refine leads_bind (leads_mono (leads_stopAndWait hworking) fun hand' exit hw => leads_ret hw.some ?_)
        exact hw.mono fun v hv => ⟨hv, fun _ h => by cases h⟩
      · refine leads_bind (leads_op hnow (fun _ _ h => by cases h) (fun _ h => by cases h) trivial
          fun w s s' ending _ hd _ hΦ _ ha => leads_ret ⟨_, rfl⟩ ?_)
        dsimp only [RuntimeOp.observes, RuntimeOp.tellsFinished]
        rw [Bool.or_false]
        cases ha with
        | selected hseen =>
          have hthen := Hand.owns_setView hand
            (Φ := fun v => Working deviceId v ∧ ∀ exit, ending = .exit (.ok exit) → Ended k exit v)
            (fun v v' hd hv => ⟨stable_working v v' hd hv.1, fun exit h => stable_ended v v' hd (hv.2 exit h)⟩)
            ⟨hΦ.1, fun exit h => hseen.ended h hΦ.2⟩
          exact leads_bind (leads_mono (leads_terminate hthen) fun hand' termination hs => leads_ret hs.some hs)

theorem leads_superviseContainer {phase : ContainerPhase} (howns : hand.Owns fun v => Working deviceId v ∧
    Found k phase v) : Leads k caller hand (superviseContainer caller.container phase limit) fun hand' ended =>
      hand'.Owns (Supervised k deviceId ended.1) := by
  cases phase with
  | running => exact leads_superviseRunningContainer howns
  | exited =>
    refine leads_bind (leads_engine howns trivial fun s engine exit hΦ _ _ hstep => ?_)
    obtain ⟨rfl, container, hc, hstate⟩ := hstep.wait_answer
    have hended : Ended k exit (s.view caller.attemptId) := by
      intro hk
      obtain ⟨container', hc', hclean⟩ := hΦ.2 hk
      cases hc.symm.trans hc'
      exact ⟨container, hc, hstate, hclean⟩
    have hnow := Hand.owns_setView hand (stable_supervised (.exited exit))
      ⟨hΦ.1, fun exit' h => by cases h; exact hended⟩
    exact leads_bind (leads_quiet hnow trivial fun reply hand' ho =>
      leads_attempt (ho.owns hnow).some fun _ _ => leads_ret (ho.owns hnow).some (ho.owns hnow))
  | created =>
    have hp : Permits k caller.attemptId hand hand.Owns (.engine (.start caller.container)) :=
      ⟨rfl, howns.mono fun _ hv => hv.2⟩
    refine leads_bind (leads_engine howns hp fun s engine _ hΦ _ _ hstep => ?_)
    obtain ⟨container, hc, hstate⟩ := hΦ.2
    have hclean : Clean k (view { s with engine } caller.attemptId) := by
      cases hstep with
      | startedAlready hc' hrunning =>
        cases hc'.symm.trans hc
        cases hrunning.symm.trans hstate
      | started =>
        refine fun _ => ⟨_, Engine.put_same, ?_⟩
        rintro ⟨hstopping, _⟩
        cases hstopping
    exact leads_superviseRunningContainer
      (Hand.owns_setView _ (stable_working.and stable_clean) ⟨working_engine hΦ.1, hclean⟩)

end supervision

def Preflighted (deviceId : String) (v : AttemptView) : Prop :=
  ∃ observation, v.entry.preflight = some observation ∧ observation.deviceId = deviceId ∧ observation.reusable = true

/-- A finished attempt holds no device but the given one, so far as the run is under that condition. -/
def BoundTo (k : Conditions) (deviceId : String) (v : AttemptView) : Prop :=
  k.bound → v.InPhase .finished → ∀ held, v.Leases held → held = deviceId

/-- An attempt that is not finished has held no other device, so far as the run is under that condition. -/
def Fits (k : Conditions) (deviceId : String) (v : AttemptView) : Prop :=
  k.kept → ¬ v.InPhase .finished → v.Suits deviceId

section stable

variable {k : Conditions} {deviceId : String}

theorem stable_fits : Stable (Fits k deviceId) := by
  intro v v' hd hv hk hfinished
  obtain ⟨hblank, hheld⟩ := hv hk fun h => hfinished (hd.inPhase h)
  exact ⟨hblank, fun lease hlease => hheld lease (hd.lease ▸ hlease)⟩

theorem stable_preflighted (deviceId : String) : Stable (Preflighted deviceId) := by
  rintro v v' hd ⟨observation, ho, hdevice⟩
  exact ⟨observation, hd.preflight.trans ho, hdevice⟩

theorem stable_bound : Stable (BoundTo k deviceId) :=
  fun _ _ hd hv hk hfinished held hheld => hv hk (hd.finished hfinished) held (hd.leases.mp hheld)

theorem AttemptView.Leases.unique {v : AttemptView} {held : String} (h : v.Leases deviceId) (h' : v.Leases held) :
    held = deviceId := by
  obtain ⟨lease, hlease, hdevice, _⟩ := h
  obtain ⟨lease', hlease', hdevice', _⟩ := h'
  cases hlease.symm.trans hlease'
  exact hdevice'.symm.trans hdevice

theorem Owns.sound {hand : Hand} {Φ : AttemptView → Prop} (h : hand.Owns Φ) : hand.Owns fun v => Φ v ∧ v.Sound := by
  obtain ⟨w, hw, hall⟩ := h
  exact ⟨w, hw, fun v hd hv => ⟨hall v hd hv, hv⟩⟩

end stable

section guard

variable {k : Conditions} {caller : Caller} {hand : Hand} {deviceId : String} {attemptId : AttemptId}
variable {Φ : AttemptView → Prop}
variable {observation : DeviceObservation} {ε : Type} {recorded : Option DeviceObservation}
  {fault : AttemptStoreError → ε} {lease : DeviceLease} {id : String} {u : Unit}

theorem ensureDevice_ok (h : ensureDevice deviceId observation = .ok u) :
    observation.deviceId = deviceId := by
  unfold ensureDevice at h
  split at h
  · assumption
  · cases h

theorem ensured {f : DeviceStatusError → ε}
    (h : (ensureDevice deviceId observation).mapError f = .ok u) : observation.deviceId = deviceId :=
  ensureDevice_ok (mapError_eq_ok.mp h)

theorem leaseOf_mem {leases : List DeviceLease}
    (h : leaseOf id leases = some lease) : lease ∈ leases ∧ lease.attemptId.text = id :=
  ⟨List.mem_of_find?_eq_some h, by simpa using List.find?_some h⟩

theorem ShowsLeases.leases {s : RuntimeState} {leases : List DeviceLease}
    (h : ShowsLeases s.journal leases) (hl : leaseOf id leases = some lease) :
    (s.view id).Leases lease.deviceId := by
  obtain ⟨hmem, rfl⟩ := leaseOf_mem hl
  exact h.held lease hmem

theorem leads_activeDeviceLeases (hΦ : Stable Φ) (howns : hand.Owns Φ) :
    Leads k caller hand (journal fault .activeDeviceLeases) fun hand' leases => hand'.told = hand.told ∧
      hand'.observed = hand.observed ∧ hand'.Owns Φ ∧
      ∀ lease, leaseOf caller.attemptId leases = some lease →
        hand'.Owns fun v => Φ v ∧ v.Leases lease.deviceId := by
  refine leads_journal howns trivial fun s db' leases hnow _ hstep => ?_
  obtain ⟨rfl, hshows⟩ := hstep.activeDeviceLeases_answer
  refine ⟨Bool.or_false _, rfl, ⟨_, rfl, fun v hd _ => hΦ _ v hd hnow⟩, fun lease hlease => ?_⟩
  have hleases := hshows.leases hlease
  exact ⟨_, rfl, fun v hd _ => ⟨hΦ _ v hd hnow, stable_leases _ _ v hd hleases⟩⟩

theorem leads_decide {lease : DeviceLeaseOutcome} {told : Bool} (hid : attemptId.text = caller.attemptId)
    (howns : hand.Owns fun v => (v.InPhase .accepted ∧ v.Leases deviceId) ∧ v.entry.preflight = recorded)
    (hrecorded : ∀ observation, recorded = some observation → observation.deviceId = deviceId)
    (hobserved : hand.observed = some (deviceId, observation, told)) (hdevice : observation.deviceId = deviceId) :
    Leads k caller hand (DeviceGuard.decide attemptId lease recorded observation) fun hand' _ =>
      hand'.Owns fun v => (v.InPhase .accepted ∧ v.Leases deviceId) ∧ Preflighted deviceId v := by
  unfold DeviceGuard.decide
  split
  · rename_i hreusable
    cases recorded with
    | some recorded =>
      refine leads_ret howns.some ((Owns.sound howns).mono fun v hv => ⟨hv.1.1, recorded, hv.1.2, hrecorded _ rfl, ?_⟩)
      exact (hv.2.preflight recorded hv.1.2).1
    | none =>
      have hp : Permits k caller.attemptId hand hand.Owns (.journal (.recordDevicePreflight attemptId observation)) :=
        ⟨hid, hreusable, howns.mono fun _ _ => trivial⟩
      refine leads_bind (leads_journal howns hp fun s db' _ hΦ _ hstep => leads_ret ⟨_, rfl⟩ ?_)
      obtain ⟨hentry, _⟩ := hstep.preflighted
      rw [hid] at hentry
      refine ⟨_, rfl, fun v hd _ => ((stable_inPhase _).and (stable_leases _)).and (stable_preflighted _) _ v hd
        ⟨?_, ?_⟩⟩
      · have hkept := hΦ.1
        simp only [AttemptView.InPhase, AttemptView.Leases, view, hentry] at hkept ⊢
        exact hkept
      · refine ⟨observation, ?_, hdevice, hreusable⟩
        simp only [view, hentry]
  · rename_i hreusable
    split
    · rename_i hready
      cases recorded with
      | some recorded => exact leads_fail howns.some
      | none =>
        refine leads_bind (leads_atNow howns fun now hand' ho => ?_)
        have hcount : 0 < observation.processCount := by
          by_contra hzero
          refine hreusable ?_
          simp only [DeviceObservation.reusable, decide_eq_true_eq]
          exact ⟨hready, by omega⟩
        have hp : Permits k caller.attemptId hand' hand'.Owns (.journal (.releaseDeviceLease attemptId now)) := by
          refine ⟨hid, (ho.owns howns).mono fun v hv => .inl ⟨hv.1.1, hv.2, deviceId, observation, told, hv.1.2, ?_⟩⟩
          exact ⟨ho.observed.trans hobserved, hdevice, hready, hcount⟩
        exact leads_journal (ho.owns howns) hp fun s db' _ _ _ _ => leads_fail ⟨_, rfl⟩
    · exact leads_fail howns.some

theorem leads_devicePreflight (hid : attemptId.text = caller.attemptId)
    (hΦ : Stable Φ) (howns : hand.Owns Φ) :
    Leads k caller hand (journal fault (.devicePreflight attemptId)) fun hand' recorded =>
      hand'.Owns fun v => Φ v ∧ v.entry.preflight = recorded := by
  refine leads_journal howns trivial fun s db' recorded hnow _ hstep => ?_
  obtain ⟨rfl, hrecorded⟩ := hstep.devicePreflight_answer
  rw [hid] at hrecorded
  exact ⟨_, rfl, fun v hd _ => hΦ.and (stable_preflight recorded) _ v hd ⟨hnow, hrecorded⟩⟩

theorem leads_ensureRecorded (howns : hand.Owns Φ) :
    Leads k caller hand (DeviceGuard.ensureRecorded deviceId recorded) fun hand' _ =>
      hand'.Owns Φ ∧ ∀ observation, recorded = some observation → observation.deviceId = deviceId := by
  cases recorded with
  | none => exact leads_ret howns.some ⟨howns, fun _ h => by cases h⟩
  | some recorded =>
    refine leads_attempt howns.some fun _ h => ⟨howns, fun observation ho => ?_⟩
    cases ho
    exact ensured h

theorem leads_acquireDeviceLease {now : Nat}
    (hid : attemptId.text = caller.attemptId) (howns : hand.Owns fun v => v.InPhase .accepted ∧ Fits k deviceId v) :
    Leads k caller hand (journal fault (.acquireDeviceLease attemptId deviceId now)) fun hand' _ =>
      hand'.Owns fun v => v.InPhase .accepted ∧ v.Leases deviceId := by
  have hp : Permits k caller.attemptId hand hand.Owns (.journal (.acquireDeviceLease attemptId deviceId now)) :=
    ⟨hid, howns.mono fun v hv hk => hv.2 hk fun hfinished => by cases hfinished.unique hv.1⟩
  refine leads_journal howns hp fun s db' lease hv _ hstep => ?_
  obtain ⟨row, hentry, hdevice, hactive, _⟩ := hstep.acquired
  rw [hid] at hentry
  have hΦ := hv.1
  refine ⟨_, rfl, fun v hd _ => (stable_inPhase .accepted).and (stable_leases deviceId) _ v hd ?_⟩
  simp only [AttemptView.InPhase, AttemptView.Leases, view, hentry] at hΦ ⊢
  exact ⟨hΦ, row, rfl, hdevice, hactive⟩

theorem leads_acquireAndPreflight (hid : attemptId.text = caller.attemptId)
    (howns : hand.Owns fun v => v.InPhase .accepted ∧ Fits k deviceId v) :
    Leads k caller hand (DeviceGuard.acquireAndPreflight attemptId deviceId) fun hand' _ =>
      hand'.Owns fun v => (v.InPhase .accepted ∧ v.Leases deviceId) ∧ Preflighted deviceId v := by
  unfold DeviceGuard.acquireAndPreflight
  have hstable := (stable_inPhase .accepted).and (stable_leases deviceId)
  refine leads_bind (leads_atNow howns fun now hand₁ ho => ?_)
  refine leads_mono (leads_acquireDeviceLease hid (ho.owns howns)) fun hand₂ lease hleased => ?_
  refine leads_bind (leads_mono (leads_devicePreflight hid hstable hleased) fun hand₃ recorded hrecorded => ?_)
  refine leads_bind (leads_mono (leads_ensureRecorded hrecorded) fun hand₄ _ hensured => ?_)
  refine leads_bind (leads_observeDevice hensured.1 fun hand₅ observation howns₅ _ hobserved => ?_)
  refine leads_bind (leads_attempt howns₅.some fun _ hmatch => ?_)
  exact leads_decide hid howns₅ hensured.2 hobserved (ensured hmatch)

/-- What an execution knows when it cleans up: its attempt is finished, and holds no other device. -/
def Settled (k : Conditions) (deviceId : String) (v : AttemptView) : Prop := v.InPhase .finished ∧ BoundTo k deviceId v

theorem stable_settled : Stable (Settled k deviceId) := (stable_inPhase _).and stable_bound

theorem leads_release
    {Q : Hand → DeviceReleaseOutcome → Prop} (hid : attemptId.text = caller.attemptId)
    (howns : hand.Owns fun v => Settled k deviceId v ∧ ∃ held, v.Leases held)
    (hobserved : hand.observed = some (deviceId, observation, true)) (hdevice : observation.deviceId = deviceId)
    (hreusable : observation.reusable = true) (hq : ∀ hand' result, (∃ w, hand'.view = some w) → Q hand' result) :
    Leads k caller hand (atNow fun now => journal fault (.releaseDeviceLease attemptId now)) Q := by
  refine leads_atNow howns fun now hand' ho => ?_
  have hp : Permits k caller.attemptId hand' hand'.Owns (.journal (.releaseDeviceLease attemptId now)) := by
    refine ⟨hid, (ho.owns howns).mono fun v hv => .inr ⟨hv.1.1, fun hk => ?_⟩⟩
    obtain ⟨held, hheld⟩ := hv.2
    obtain rfl := hv.1.2 hk hv.1.1 held hheld
    exact ⟨held, observation, hheld, ho.observed.trans hobserved, hdevice, hreusable⟩
  exact leads_journal (ho.owns howns) hp fun s db' result _ _ _ => hq _ result ⟨_, rfl⟩

theorem leads_cleanupAfterTerminal (hid : attemptId.text = caller.attemptId) (htold : hand.told = true)
    (howns : hand.Owns fun v => Settled k deviceId v ∧ ∃ held, v.Leases held) :
    Leads k caller hand (DeviceGuard.cleanupAfterTerminal attemptId deviceId) fun _ _ => True := by
  unfold DeviceGuard.cleanupAfterTerminal
  refine leads_bind (leads_observeDevice howns fun hand₁ before hown₁ htold₁ hobserved₁ => ?_)
  refine leads_bind (leads_attempt hown₁.some fun _ hmatch => ?_)
  rw [htold] at hobserved₁
  split
  · rename_i hreusable
    exact leads_bind (leads_release hid hown₁ hobserved₁ (ensured hmatch) hreusable
      fun hand' _ h => leads_ret h trivial)
  · split
    · exact leads_fail hown₁.some
    · rename_i hcount
      unfold DeviceGuard.recover
      have hp : Permits k caller.attemptId hand₁ hand₁.Owns (.recoverDevice deviceId) :=
        ⟨before, true, hobserved₁, ensured hmatch, by omega⟩
      refine leads_bind (leads_recoverDevice hown₁ hp fun hand₂ after hown₂ _ hobserved₂ => ?_)
      rw [htold₁, htold] at hobserved₂
      refine leads_bind (leads_attempt hown₂.some fun _ hmatch => ?_)
      split
      · rename_i hreusable
        exact leads_bind (leads_release hid hown₂ hobserved₂ (ensured hmatch) hreusable
          fun hand' _ h => leads_ret h trivial)
      · exact leads_fail hown₂.some

end guard

section runtime

variable {k : Conditions} {caller : Caller} {hand : Hand} {deviceId : String} {typedAttemptId : AttemptId}
variable {Φ : AttemptView → Prop} {runtime : ExecutionRuntime}

theorem leads_runWithFacts {policy : OutcomePolicy} {assignment : StoredAssignment}
    (hid : assignment.attemptId.text = caller.attemptId) (howns : hand.Owns (Working deviceId)) :
    Leads k caller hand (runWithFacts policy assignment) fun hand' result => hand'.Owns fun v =>
      Working deviceId v ∧ (result.outcome = .candidateFailed → k.untainted → v.FailedAlone) := by
  unfold runWithFacts
  have hname : ∀ imageId, (plannedIdentity assignment imageId).name = caller.container :=
    fun _ => by rw [plannedIdentity, Caller.container, hid]
  refine leads_bind (leads_quiet howns trivial fun reply hand₁ ho => ?_)
  refine leads_attempt (ho.owns howns).some fun imageId _ => ?_
  refine leads_bind (leads_quiet (ho.owns howns) trivial fun reply hand₂ ho₂ => ?_)
  have howns₂ := ho₂.owns (ho.owns howns)
  refine leads_attempt howns₂.some fun resolved _ => ?_
  split
  · exact leads_fail howns₂.some
  · refine leads_bind (leads_mapError (leads_mono (leads_reconcileContainer (hname _) howns₂)
      fun hand₃ phase hfound => ?_))
    rw [hname]
    refine leads_bind (leads_mapError (leads_mono (leads_superviseContainer hfound) fun hand₄ ended hended => ?_))
    refine leads_ret hended.some (hended.mono fun v hv => ⟨hv.1, fun hfailed hk => ?_⟩)
    obtain ⟨exit, hexit, hcode⟩ := classifyVerifiedOutcome_candidateFailed hfailed
    exact (hv.2 exit hexit).failedAlone hcode hk

theorem leads_activeLease (hid : typedAttemptId.text = caller.attemptId) (hΦ : Stable Φ) (howns : hand.Owns Φ) :
    Leads k caller hand (activeLease runtime typedAttemptId) fun hand' lease =>
      hand'.Owns fun v => Φ v ∧ v.Leases lease.deviceId := by
  unfold activeLease
  refine leads_bind (leads_mono (leads_activeDeviceLeases hΦ howns) fun hand' leases h => ?_)
  obtain ⟨_, _, howns', hleases⟩ := h
  rw [hid]
  cases hlease : leaseOf caller.attemptId leases with
  | none => exact leads_fail howns'.some
  | some lease => exact leads_ret howns'.some (hleases lease hlease)

theorem leads_startAttempt (hid : typedAttemptId.text = caller.attemptId)
    (howns : hand.Owns fun v => v.InPhase .accepted ∧ Fits k deviceId v) :
    Leads k caller hand (startAttempt runtime deviceId caller.attemptId typedAttemptId) fun hand' _ =>
      hand'.Owns (Working deviceId) := by
  unfold startAttempt
  refine leads_bind (leads_mapError (leads_mono (leads_acquireAndPreflight hid howns) fun hand₁ preflight hready => ?_))
  have hstable := ((stable_inPhase .accepted).and (stable_leases deviceId)).and (stable_preflighted deviceId)
  refine leads_bind (leads_mono (leads_activeLease hid hstable hready) fun hand₂ lease hleased => ?_)
  refine leads_bind (leads_atNow hleased fun now hand₃ ho => ?_)
  have howns₃ := ho.owns hleased
  have hp : Permits k caller.attemptId hand₃ hand₃.Owns (.journal (.markRunning caller.attemptId now)) := by
    refine ⟨rfl, howns₃.mono fun v hv => ⟨hv.1.1.1, deviceId, ?_⟩⟩
    obtain ⟨observation, ho, hdevice, hreusable⟩ := hv.1.2
    exact ⟨observation, hv.1.1.2, ho, hdevice, hreusable⟩
  refine leads_journal howns₃ hp fun s db' _ hv _ hstep => leads_ret ⟨_, rfl⟩ ?_
  obtain ⟨row, row', _, _, hentry, hphase⟩ := hstep.markedRunning
  refine ⟨_, rfl, fun v hd _ => stable_working _ v hd ⟨?_, ?_⟩⟩
  · rintro ⟨other, hother, hfinished⟩
    simp only [view, hentry, Option.some.injEq] at hother
    subst hother
    cases hphase.symm.trans hfinished
  · have hheld := hv.1.1.2
    simp only [AttemptView.Leases, view, hentry] at hheld ⊢
    exact hheld

theorem leads_resumeAttempt (hid : typedAttemptId.text = caller.attemptId)
    (howns : hand.Owns fun v => ¬ v.InPhase .finished) :
    Leads k caller hand (resumeAttempt runtime deviceId caller.attemptId typedAttemptId) fun hand' _ =>
      hand'.Owns (Working deviceId) := by
  unfold resumeAttempt
  refine leads_bind (leads_mono (leads_activeLease hid stable_unfinished howns) fun hand₁ lease hleased => ?_)
  have hstable := stable_unfinished.and (stable_leases lease.deviceId)
  refine leads_bind (leads_mono (leads_devicePreflight hid hstable hleased) fun hand₂ recorded hrecorded => ?_)
  cases recorded with
  | none => exact leads_fail hrecorded.some
  | some observation =>
    dsimp only
    split
    · exact leads_fail hrecorded.some
    · rename_i hdevices
      have hdevice : lease.deviceId = deviceId := by
        by_contra hne
        exact hdevices (.inr hne)
      refine leads_ret hrecorded.some (hrecorded.mono fun v hv => ⟨hv.1.1, ?_⟩)
      rw [← hdevice]
      exact hv.1.2

theorem leads_prepareAttempt {phase : LocalAttemptPhase} (hid : typedAttemptId.text = caller.attemptId)
    (hphase : phase ≠ .finished) (howns : hand.Owns fun v => v.InPhase phase ∧ Fits k deviceId v) :
    Leads k caller hand (ExecutionRuntime.prepareAttempt runtime deviceId caller.attemptId typedAttemptId phase)
      fun hand' _ =>
      hand'.Owns (Working deviceId) := by
  unfold ExecutionRuntime.prepareAttempt
  split
  · rename_i haccepted
    subst haccepted
    exact leads_startAttempt hid howns
  · exact leads_resumeAttempt hid (howns.mono fun v hv hfinished => hphase (hv.1.unique hfinished))

theorem leads_persist {result : ExecutorResult} {lease : DeviceLease} {pre post : DeviceObservation}
    (howns : hand.Owns Φ) :
    Leads k caller hand (ExecutionRuntime.persist result lease pre post) fun hand' finished =>
      hand'.Owns Φ ∧ finished.outcome = result.outcome := by
  unfold ExecutionRuntime.persist storeArtifact
  refine leads_bind (leads_quiet howns trivial fun reply hand₁ ho => leads_attempt (ho.owns howns).some fun _ _ => ?_)
  have howns₁ := ho.owns howns
  refine leads_bind (leads_quiet howns₁ trivial fun reply hand₂ ho => leads_attempt (ho.owns howns₁).some fun _ _ => ?_)
  have howns₂ := ho.owns howns₁
  refine leads_bind (leads_quiet howns₂ trivial fun reply hand₃ ho => leads_attempt (ho.owns howns₂).some fun _ _ => ?_)
  exact leads_ret (ho.owns howns₂).some ⟨ho.owns howns₂, rfl⟩

theorem leads_cleanupAfterCommit (hid : typedAttemptId.text = caller.attemptId) (htold : hand.told = true)
    (howns : hand.Owns (Settled k deviceId)) :
    Leads k caller hand (cleanupAfterCommit deviceId typedAttemptId) fun hand' _ => ∃ w, hand'.view = some w := by
  unfold cleanupAfterCommit
  rw [hid]
  have hp : Permits k caller.attemptId hand hand.Owns (.engine (.remove (containerName caller.attemptId))) :=
    ⟨rfl, howns.mono fun v hv => hv.1⟩
  refine leads_bind (leads_engine howns hp fun s engine _ hv _ _ _ => ?_)
  have hsettled : Settled k deviceId (view { s with engine } caller.attemptId) := hv
  have howns₁ := Hand.owns_setView hand stable_settled hsettled
  refine leads_bind (leads_mono (leads_activeDeviceLeases stable_settled howns₁) fun hand₂ leases h => ?_)
  obtain ⟨htold₂, _, howns₂, hleases⟩ := h
  cases hlease : leaseOf caller.attemptId leases with
  | none => exact leads_ret howns₂.some howns₂.some
  | some lease =>
    have hheld := (hleases lease hlease).mono fun v hv =>
      (⟨hv.1, _, hv.2⟩ : Settled k deviceId v ∧ ∃ held, v.Leases held)
    have hcleaned := leads_cleanupAfterTerminal hid (htold₂.trans htold) hheld
    refine leads_bind (leads_mapError (ends_mono hcleaned fun hand' r hr => ⟨hr.1, fun _ _ => leads_ret hr.1 hr.1⟩))

variable {publishes : Bool}

theorem leads_executeAttempt {attempt : LocalAttemptRecord}
    (hid : typedAttemptId.text = caller.attemptId) (hassigned : attempt.assignment.attemptId.text = caller.attemptId)
    (hphase : attempt.phase ≠ .finished) (howns : hand.Owns fun v => v.InPhase attempt.phase ∧ Fits k deviceId v) :
    Leads k caller hand (executeAttempt runtime deviceId caller.attemptId typedAttemptId attempt publishes)
      fun hand' _ =>
      ∃ w, hand'.view = some w := by
  unfold executeAttempt
  refine leads_bind (leads_mono (leads_prepareAttempt hid hphase howns) fun hand₁ prepared hworking => ?_)
  refine leads_bind (leads_mapError (leads_mono (leads_runWithFacts hassigned hworking) fun hand₂ result howns₂ => ?_))
  refine leads_bind ?_
  unfold observeExact
  refine leads_bind (leads_observeDevice howns₂ fun hand₃ observation howns₃ _ _ => ?_)
  refine leads_bind (leads_attempt howns₃.some fun _ _ => leads_ret howns₃.some ?_)
  refine leads_bind (leads_mono (leads_persist howns₃) fun hand₄ finished h => ?_)
  obtain ⟨howns₄, houtcome⟩ := h
  have hpublished : Leads k caller hand₄ (executeAttempt.publish caller.attemptId publishes finished) fun hand' _ =>
      hand'.Owns fun v =>
        Working deviceId v ∧ (result.outcome = .candidateFailed → k.untainted → v.FailedAlone) := by
    unfold executeAttempt.publish
    split
    · exact leads_quiet howns₄ trivial fun reply hand' ho =>
        leads_attempt (ho.owns howns₄).some fun _ _ => ho.owns howns₄
    · exact leads_ret howns₄.some howns₄
  refine leads_bind (leads_mono hpublished fun hand₅ _ howns₅ => ?_)
  refine leads_bind (leads_atNow howns₅ fun now hand₆ ho => ?_)
  have howns₆ := ho.owns howns₅
  have hp : Permits k caller.attemptId hand₆ hand₆.Owns (.journal (.markFinished caller.attemptId finished now)) :=
    ⟨rfl, howns₆.mono fun v hv hk hfailed => hv.2 (houtcome ▸ hfailed) hk⟩
  refine leads_journal howns₆ hp fun s db' _ hv _ hstep => ?_
  obtain ⟨row, row', _, _, hentry, hfinished, _⟩ := hstep.markedFinished
  have hsettled : Settled k deviceId (view { s with journal := db' } caller.attemptId) := by
    have hheld := hv.1.2
    simp only [Settled, BoundTo, AttemptView.InPhase, AttemptView.Leases, view, hentry] at hheld ⊢
    refine ⟨⟨row', rfl, hfinished⟩, fun _ _ held hother => ?_⟩
    exact AttemptView.Leases.unique (v := s.view caller.attemptId) hv.1.2 hother
  have htold : (hand₆.told || (RuntimeOp.journal (.markFinished caller.attemptId finished now)).tellsFinished
      caller.attemptId (.ok ())) = true := by
    simp [RuntimeOp.tellsFinished]
  refine leads_bind (leads_mono (leads_cleanupAfterCommit hid htold ⟨_, rfl, fun v hd _ =>
    stable_settled _ v hd hsettled⟩) fun hand' _ h => leads_ret h h)

theorem leads_runClaimed (howns : hand.Owns fun v => BoundTo k deviceId v ∧ Fits k deviceId v) :
    Leads k caller hand (runClaimed runtime deviceId caller.attemptId publishes) fun hand' _ =>
      ∃ w, hand'.view = some w := by
  unfold runClaimed
  refine leads_bind (leads_journal howns trivial fun s db' attempt hbound hs hstep => ?_)
  obtain ⟨rfl, hattempt⟩ := hstep.attempt_answer
  have hview : ∀ {observed told}, ∃ w, (Hand.mk (some (s.view caller.attemptId)) observed told).view = some w :=
    ⟨_, rfl⟩
  cases hentry : (s.journal.entry caller.attemptId).attempt with
  | none =>
    rw [hentry] at hattempt
    subst hattempt
    exact leads_fail hview
  | some row =>
    rw [hentry] at hattempt
    subst hattempt
    have hkeyed : row.record.assignment.attemptId.text = caller.attemptId := hs.keyed _ row hentry
    have hphase : (s.view caller.attemptId).InPhase row.record.phase := ⟨row, hentry, rfl⟩
    cases hid : (ValidatedId.tryFrom caller.attemptId : Option AttemptId) with
    | none => exact leads_fail hview
    | some typedAttemptId =>
      have htext := ValidatedId.tryFrom_text hid
      dsimp only [Option.map_some]
      split
      · rename_i hfinished
        cases row.record.finished with
        | none => exact leads_fail hview
        | some finished =>
          have hsettled : Settled k deviceId (s.view caller.attemptId) := ⟨hfinished ▸ hphase, hbound.1⟩
          refine leads_bind (leads_mono (leads_cleanupAfterCommit htext ?_
            ⟨_, rfl, fun v hd _ => stable_settled _ v hd hsettled⟩) fun hand' _ h => leads_ret h h)
          simp [RuntimeOp.tellsFinished, hfinished]
      · rename_i hunfinished
        exact leads_executeAttempt htext hkeyed hunfinished
          ⟨_, rfl, fun v hd _ => (stable_inPhase _).and stable_fits _ v hd ⟨hphase, hbound.2⟩⟩

theorem claimed_owns {hand' : Hand} {reply : Bool} (hclaimed : reply = true)
    (h : hand.Follows k caller.attemptId (.claim deviceId caller.attemptId) reply hand'.view) :
    hand'.Owns fun v => BoundTo k deviceId v ∧ Fits k deviceId v := by
  have hclaim : ∃ s : RuntimeState, s.Sound ∧ k.Allows s (.claim deviceId caller.attemptId) ∧
      hand'.view = some (s.view caller.attemptId) := by
    simpa only [Hand.Follows, hclaimed, if_true] using h
  obtain ⟨s, _, hallows, hview⟩ := hclaim
  exact ⟨_, hview, fun v hd _ => stable_bound.and stable_fits _ v hd hallows⟩

theorem ends_runInner :
    ends (ownership k caller) hand (runInner runtime deviceId caller.attemptId publishes) fun _ _ => True := by
  refine ends_bind.mpr ⟨rfl, fun reply hand' hpost => ?_⟩
  obtain ⟨hfollows, _, _⟩ := hpost
  show ends (ownership k caller) hand' (if reply = true then _ else _) _
  split
  · rename_i hclaimed
    have howns := claimed_owns hclaimed hfollows
    refine ends_bind.mpr (ends_result.mpr (ends_mono (leads_ends (leads_runClaimed howns)) fun hand'' r hr => ?_))
    obtain ⟨⟨w, hw⟩, _⟩ := hr
    exact ends_bind.mpr ⟨⟨rfl, w, hw, fun _ _ _ => trivial⟩, fun _ _ _ => ends_attempt.mpr trivial⟩
  · exact ends_fail.mpr trivial

/-- What a dynamic runtime asks before it claims the attempt. -/
def RuntimeOp.Asks : RuntimeOp → Prop
  | .journal (.attempt _) | .journal .activeDeviceLeases | .snapshot _ | .supervisorFor _ => True
  | _ => False

theorem runtimeForAttempt_asks {dynamic : DynamicRuntime} {attemptId : String} :
    Performs RuntimeOp.Asks (runtimeForAttempt runtime dynamic attemptId) := by
  refine performs_bind ⟨trivial, fun _ => performs_attempt⟩ fun attempt => ?_
  cases attempt with
  | none => exact performs_fail
  | some attempt =>
    refine performs_bind ⟨trivial, fun _ => performs_attempt⟩ fun leases => performs_bind ?_ fun deviceId => ?_
    · unfold selectDevice
      split
      · split
        · exact performs_pure
        · exact performs_fail
      · split
        · exact performs_pure
        · refine performs_bind ⟨trivial, fun _ => performs_attempt⟩ fun snapshot => ?_
          exact performs_bind performs_attempt fun _ => performs_pure
    · exact performs_bind ⟨trivial, fun _ => performs_attempt⟩ fun _ => performs_pure

theorem RuntimeOp.Asks.permits {o : RuntimeOp} (ho : o.Asks) : (ownership k caller).pre hand o := by
  unfold RuntimeOp.Asks at ho
  split at ho <;> trivial

theorem ends_run : ends (ownership k caller) hand (run runtime caller.attemptId publishes) fun _ _ => True := by
  unfold run
  split
  · exact ends_runInner
  · rename_i dynamic _
    have hasks : ends (ownership k caller) hand (runtimeForAttempt runtime dynamic caller.attemptId) fun _ _ => True :=
      runtimeForAttempt_asks.ends (r := fun _ _ => True) (fun _ => trivial) (fun _ _ => trivial)
        fun o ho hand => ⟨ho.permits, fun _ _ _ => trivial⟩
    exact ends_bind_cases hasks (fun _ _ _ => trivial) fun _ _ _ => ends_runInner

end runtime

end AlloyPort
