import AlloyPort.Runtime.Device
import AlloyPort.Runtime.Discipline
import AlloyPort.Runtime.Script

/-! The device that a dynamic runtime selects for an attempt. The journal remembers the device an attempt
had last, and refuses it any other; the selection reads the active leases only. -/

namespace AlloyPort

open Effect Interleaving Scenario RuntimeProgram

def Caller.picks (caller : Caller) (leases : List DeviceLease) (snapshot : List DeviceObservation) : Option String :=
  caller.runtime.dynamic.bind fun dynamic =>
    match selectReadyDevice dynamic.inventory snapshot leases dynamic.selection with
    | .ok selected => some selected.identity.deviceId
    | .error _ => none

def Caller.awaits (caller : Caller) (awaited : Option String) : (o : RuntimeOp) → o.Reply → Option String
  | .snapshot leases, .ok snapshot => caller.picks leases snapshot
  | .supervisorFor _, .ok _ => awaited
  | _, _ => none

def awaiting (task : Nat) (log : List RuntimeEvent) : Option String :=
  (log.filter fun e => e.task = task).foldl (fun awaited e => e.op.1.awaits awaited e.op.2 e.reply) none

/-- A device is ready, idle, allowed and not leased, and none that is so too comes before it. -/
def DynamicRuntime.ComesFirst (dynamic : DynamicRuntime) (leases : List DeviceLease) (snapshot : List DeviceObservation)
    (deviceId : String) : Prop :=
  ∃ own, Selectable dynamic.inventory snapshot leases dynamic.selection own ∧ own.identity.deviceId = deviceId ∧
    ∀ other, Selectable dynamic.inventory snapshot leases dynamic.selection other →
      dynamic.selection.before own.identity other.identity

/-- A snapshot that shows a device free is not read while another execution of the attempt owns it, and shows the
device of the attempt's lease, if it had one before, free and first; and the executions of an attempt do not overlap
from the selection to the claim. -/
def undisputed : RuntimeGuard
  | s, _, .act ⟨_, (caller, .snapshot leases), .ok snapshot⟩ => ∀ dynamic free, caller.runtime.dynamic = some dynamic →
    Selectable dynamic.inventory snapshot leases dynamic.selection free → caller.attemptId ∉ s.claims ∧
      ∀ lease, (s.journal.entry caller.attemptId).lease = some lease → dynamic.ComesFirst leases snapshot lease.deviceId
  | s, log, .act ⟨task, (_, .claim _ attemptId), _⟩ => ∀ e ∈ log, e.task ≠ task → e.op.1.incarnation = s.incarnation →
    e.op.1.attemptId = attemptId → awaiting e.task log = none
  | _, _, _ => True

/-- The device whose active lease the execution was shown, and the one it has selected. -/
structure Choice where
  shown : Option String
  picked : Option String

def Caller.shows (caller : Caller) (shown : Option String) : (o : RuntimeOp) → o.Reply → Option String
  | .journal .activeDeviceLeases, .ok leases =>
    (ExecutionRuntime.leaseOf caller.attemptId leases).map DeviceLease.deviceId
  | _, _ => shown

def Choice.after (choice : Choice) (caller : Caller) (o : RuntimeOp) (reply : o.Reply) : Choice :=
  ⟨caller.shows choice.shown o reply, caller.awaits choice.picked o reply⟩

def Caller.conditions (caller : Caller) : Conditions := ⟨False, False, caller.runtime.dynamic.isSome⟩

/-- A dynamic runtime claims an attempt that is finished, or for the device that it was shown or selected. -/
def Chooses (caller : Caller) (hand : Hand) (choice : Choice) : RuntimeOp → Prop
  | .claim deviceId _ => caller.runtime.dynamic.isSome →
    hand.told = true ∨ choice.shown = some deviceId ∨ choice.picked = some deviceId
  | _ => True

def selection (caller : Caller) : Contract RuntimeOp RuntimeOp.Reply (Hand × Choice) where
  pre g o := (ownership caller.conditions caller).pre g.1 o ∧ Chooses caller g.1 g.2 o
  post g o reply g' := (ownership caller.conditions caller).post g.1 o reply g'.1 ∧ g'.2 = g.2.after caller o reply

section programs

open ExecutionRuntime

variable {caller : Caller} {g : Hand × Choice} {deviceId : String} {publishes : Bool}

theorem leads_selects {ε α : Type} {p : RuntimeProgram ε α} {Q : Hand → α → Prop}
    (h : Leads caller.conditions caller g.1 p Q) :
    ends (selection caller) g p fun g' r => (∃ w, g'.1.view = some w) ∧ ∀ a, r = .ok a → Q g'.1 a := by
  have hpre : ∀ (g : Hand × Choice) o, (custody caller.conditions caller).pre g.1 o → (selection caller).pre g o := by
    intro g o hp
    refine ⟨hp.1, ?_⟩
    unfold Chooses
    split
    · exact absurd rfl (hp.2.1 _ _)
    · trivial
  exact ends_refine Prod.fst hpre (fun _ _ _ _ hq => hq.1) h

theorem selects_runInner (hchosen : caller.runtime.dynamic.isSome →
      g.1.told = true ∨ g.2.shown = some deviceId ∨ g.2.picked = some deviceId) :
    ends (selection caller) g (runInner caller.runtime deviceId caller.attemptId publishes) fun _ _ => True := by
  refine ends_bind.mpr ⟨⟨rfl, hchosen⟩, fun reply g' hpost => ?_⟩
  obtain ⟨⟨hfollows, _, _⟩, _⟩ := hpost
  show ends (selection caller) g' (if reply = true then _ else _) _
  split
  · rename_i hclaimed
    have howns := claimed_owns hclaimed hfollows
    refine ends_bind.mpr (ends_result.mpr (ends_mono (leads_selects (leads_runClaimed howns)) fun g'' r hr => ?_))
    obtain ⟨⟨w, hw⟩, _⟩ := hr
    exact ends_bind.mpr ⟨⟨⟨rfl, w, hw, fun _ _ _ => trivial⟩, trivial⟩, fun _ _ _ => ends_attempt.mpr trivial⟩
  · exact ends_fail.mpr trivial

theorem selects_ask {ε α : Type} {o : RuntimeOp} {next : o.Reply → RuntimeProgram ε α}
    {R : Hand × Choice → Except ε α → Prop} (ho : o.Asks)
    (hnext : ∀ reply hand', hand'.told = (g.1.told || o.tellsFinished caller.attemptId reply) →
      ends (selection caller) (hand', g.2.after caller o reply) (next reply) R) :
    ends (selection caller) g (.op o next) R := by
  have hchooses : Chooses caller g.1 g.2 o := by
    unfold RuntimeOp.Asks at ho
    split at ho <;> trivial
  refine ⟨⟨ho.permits, hchooses⟩, fun reply g' hpost => ?_⟩
  obtain ⟨hand', choice'⟩ := g'
  obtain ⟨⟨_, _, htold⟩, hchoice⟩ := hpost
  dsimp only at hchoice htold
  subst hchoice
  exact hnext reply hand' htold

variable {dynamic : DynamicRuntime}

/-- The device that a dynamic runtime comes to is that of the active lease, or the attempt is finished, or
it is the one selected. -/
theorem selects_selectDevice {attempt : LocalAttemptRecord} {leases : List DeviceLease}
    (hd : caller.runtime.dynamic = some dynamic) (htold : attempt.phase = .finished → g.1.told = true)
    (hshown : g.2.shown = (leaseOf caller.attemptId leases).map DeviceLease.deviceId) :
    ends (selection caller) g (selectDevice caller.runtime dynamic attempt caller.attemptId leases) fun g' r =>
      ∀ deviceId, r = .ok deviceId →
        g'.1.told = true ∨ g'.2.shown = some deviceId ∨ g'.2.picked = some deviceId := by
  unfold selectDevice
  cases hlease : leaseOf caller.attemptId leases with
  | some lease =>
    rw [hlease] at hshown
    dsimp only
    split
    · refine ends_pure.mpr fun deviceId h => ?_
      cases h
      exact .inr (.inl hshown)
    · exact ends_fail.mpr fun _ h => by cases h
  | none =>
    dsimp only
    split
    · rename_i hfinished
      exact ends_pure.mpr fun _ _ => .inl (htold hfinished)
    · refine ends_bind.mpr (selects_ask trivial fun reply hand' _ => ends_attempt.mpr ?_)
      cases reply with
      | error error => exact fun _ h => by cases h
      | ok snapshot =>
        refine ends_bind.mpr (ends_attempt.mpr ?_)
        cases hselect : selectReadyDevice dynamic.inventory snapshot leases dynamic.selection with
        | error error => exact fun _ h => by cases h
        | ok selected =>
          refine ends_pure.mpr fun deviceId h => ?_
          cases h
          refine .inr (.inr ?_)
          simp only [Choice.after, Caller.awaits, Caller.picks, hd, Option.bind_some, hselect]

theorem selects_runtimeForAttempt (hd : caller.runtime.dynamic = some dynamic) :
    ends (selection caller) g (runtimeForAttempt caller.runtime dynamic caller.attemptId) fun g' r =>
      ∀ deviceId, r = .ok deviceId →
        g'.1.told = true ∨ g'.2.shown = some deviceId ∨ g'.2.picked = some deviceId := by
  unfold runtimeForAttempt
  refine ends_bind.mpr (selects_ask trivial fun reply hand₁ htold₁ => ends_attempt.mpr ?_)
  cases reply with
  | error error => exact fun _ h => by cases h
  | ok attempt =>
    cases attempt with
    | none => exact ends_fail.mpr fun _ h => by cases h
    | some attempt =>
      refine ends_bind.mpr (selects_ask trivial fun reply hand₂ htold₂ => ends_attempt.mpr ?_)
      cases reply with
      | error error => exact fun _ h => by cases h
      | ok leases =>
        have htold : attempt.phase = .finished → hand₂.told = true := by
          intro hfinished
          rw [htold₂, htold₁]
          simp [RuntimeOp.tellsFinished, hfinished]
        refine ends_bind_cases (selects_selectDevice hd htold rfl)
          (fun _ _ _ => fun _ h => by cases h) fun _ deviceId hr => ?_
        have hchosen := hr deviceId rfl
        refine ends_bind.mpr (selects_ask trivial fun reply hand₄ htold₄ => ends_attempt.mpr ?_)
        cases reply with
        | error error => exact fun _ h => by cases h
        | ok _ =>
          refine ends_pure.mpr fun other h => ?_
          cases h
          rcases hchosen with hfinished | hshown | hpicked
          · exact .inl (by rw [htold₄, hfinished]; rfl)
          · exact .inr (.inl hshown)
          · exact .inr (.inr hpicked)

theorem selects_run : ends (selection caller) g (run caller.runtime caller.attemptId publishes) fun _ _ => True := by
  unfold run
  split
  · rename_i hstatic
    exact selects_runInner fun hd => by
      rw [hstatic] at hd
      cases hd
  · rename_i dynamic hd
    exact ends_bind_cases (selects_runtimeForAttempt hd)
      (fun _ _ _ => trivial) fun _ deviceId hr => selects_runInner fun _ => hr deviceId rfl

end programs

section lasting

variable {db db' : JournalDatabase} {s s' : RuntimeState} {attemptId : String} {o : RuntimeOp} {reply : o.Reply}

def JournalDatabase.Named (db : JournalDatabase) : Prop :=
  ∀ attemptId lease, (db.entry attemptId).lease = some lease → ¬ isBlank lease.deviceId = true

theorem JournalStep.named {e : JournalEvent} (h : JournalStep db e db') (hn : db.Named) : db'.Named := by
  intro id lease' hlease'
  cases h.local with
  | same hsame => exact hn id lease' (by rwa [← hsame])
  | changed changed hc hother =>
    by_cases hid : id = changed
    · subst hid
      have hacquired : Acquires e id → ¬ isBlank lease'.deviceId = true := by
        intro ha
        obtain ⟨operation, reply⟩ := e
        unfold Acquires at ha
        split at ha
        · rename_i heq
          cases heq
          subst ha
          obtain ⟨lease, hentry, hdevice, _, hblank, _⟩ := h.acquired
          rw [hentry] at hlease'
          cases hlease'
          rwa [hdevice]
        · exact ha.elim
      have hold : ∀ lease, (db.entry id).lease = some lease → ¬ isBlank lease.deviceId = true := hn id
      revert hlease' hold
      generalize db.entry id = x at hc
      generalize db'.entry id = y at hc
      intro hlease' hold
      cases hc with
      | acquired _ _ he => exact hacquired he
      | released =>
        have hkept := hold _ rfl
        cases hlease'
        exact hkept
      | admitted | running | finished | preflighted => exact hold _ hlease'
    · rw [hother id hid] at hlease'
      exact hn id lease' hlease'

theorem RuntimeActs.endures (h : RuntimeActs s o reply s') (attemptId : String) :
    (s.journal.entry attemptId).Endures (s'.journal.entry attemptId) := by
  cases h with
  | journal h => exact h.local.endures attemptId
  | _ => exact .refl _

theorem RuntimeMoves.endures (h : RuntimeMoves s s') (attemptId : String) :
    (s.journal.entry attemptId).Endures (s'.journal.entry attemptId) := by
  cases h with
  | journal _ h => exact h.local.endures attemptId
  | exited | crashed => exact .refl _

theorem finished_lasts (h : (s.journal.entry attemptId).Endures (s'.journal.entry attemptId))
    (hf : (s.view attemptId).InPhase .finished) : (s'.view attemptId).InPhase .finished := by
  obtain ⟨row, hrow, hphase⟩ := hf
  obtain ⟨row', hrow', _, hfrozen⟩ := h.attempt row hrow
  exact ⟨row', hrow', by rw [hfrozen hphase, hphase]⟩

theorem lease_lasts {deviceId : String} (h : (s.journal.entry attemptId).Endures (s'.journal.entry attemptId))
    (hl : ∃ lease, (s.journal.entry attemptId).lease = some lease ∧ lease.deviceId = deviceId) :
    ∃ lease, (s'.journal.entry attemptId).lease = some lease ∧ lease.deviceId = deviceId := by
  obtain ⟨lease, hlease, rfl⟩ := hl
  exact h.lease lease hlease

theorem RuntimeActs.tells (h : RuntimeActs s o reply s')
    (ht : o.tellsFinished attemptId reply = true) : (s'.view attemptId).InPhase .finished := by
  cases h with
  | journal h =>
    rename_i operation reply db'
    cases operation with
    | attempt id =>
      rcases reply with error | record
      · cases ht
      · cases record with
        | none => cases ht
        | some record =>
          simp only [RuntimeOp.tellsFinished, decide_eq_true_eq] at ht
          obtain ⟨rfl, hfinished⟩ := ht
          obtain ⟨rfl, hrecord⟩ := h.attempt_answer
          obtain ⟨row, hrow, rfl⟩ := Option.map_eq_some_iff.mp hrecord
          exact ⟨row, hrow, hfinished⟩
    | markFinished id finished atMs =>
      cases reply with
      | error error => cases ht
      | ok result =>
        simp only [RuntimeOp.tellsFinished, decide_eq_true_eq] at ht
        subst ht
        obtain ⟨_, row, _, _, hentry, hfinished, _⟩ := h.markedFinished
        refine ⟨row, ?_, hfinished⟩
        simp only [RuntimeState.view, hentry]
    | _ => cases ht
  | _ => cases ht

end lasting

section awaiting

variable {log : List RuntimeEvent} {task : Nat}

theorem awaiting_own {o : CalledOp} {reply : o.Reply} :
    awaiting task (log ++ [⟨task, o, reply⟩]) = o.1.awaits (awaiting task log) o.2 reply := by
  simp [awaiting, List.filter_append, List.foldl_append]

theorem awaiting_other {e : RuntimeEvent} (hne : e.task ≠ task) : awaiting task (log ++ [e]) = awaiting task log := by
  simp [awaiting, List.filter_append, hne]

theorem awaiting_some (h : awaiting task log ≠ none) : ∃ e ∈ log, e.task = task := by
  by_contra hn
  refine h ?_
  have hfilter : (log.filter fun e => e.task = task) = [] := by
    simp only [List.filter_eq_nil_iff, decide_eq_true_eq]
    exact fun e he heq => hn ⟨e, he, heq⟩
  rw [awaiting, hfilter]
  rfl

end awaiting

abbrev Chooser := Caller × (Hand × Choice)

def Chooser.fresh (caller : Caller) : Chooser := (caller, .empty, ⟨none, none⟩)

def Chooser.holder (g : Chooser) : Caller × Hand := (g.1, g.2.1)

structure Chosen (s : RuntimeState) (log : List RuntimeEvent) (gs : List Chooser) : Prop where
  claimed : Claimed s log (gs.map Chooser.holder)
  named : s.journal.Named
  callers : ∀ e ∈ log, ∀ g, gs[e.task]? = some g → e.op.1 = g.1
  told : ∀ (i : Nat) g, gs[i]? = some g → g.2.1.told = true → (s.view g.1.attemptId).InPhase .finished
  shown : ∀ (i : Nat) g deviceId, gs[i]? = some g → g.2.2.shown = some deviceId →
    ∃ lease, (s.journal.entry g.1.attemptId).lease = some lease ∧ lease.deviceId = deviceId
  awaited : ∀ (i : Nat) g, gs[i]? = some g → g.2.2.picked = awaiting i log
  picked : ∀ (i : Nat) g deviceId, gs[i]? = some g → g.1.incarnation = s.incarnation → g.2.2.picked = some deviceId →
    g.1.attemptId ∉ s.claims ∧ (s.view g.1.attemptId).Suits deviceId

def selectionScheme :
    Scheme RuntimeState CalledOp CalledOp.Reply ExecutionRuntimeError StoredFinished Chooser where
  contract := Contract.tagged selection
  final _ _ := True
  invariant := Chosen

section kept

variable {s s' : RuntimeState} {log : List RuntimeEvent} {gs : List Chooser}

theorem Chosen.initial : Chosen .initial [] [] :=
  ⟨.initial, fun _ _ h => (by cases h), fun _ h => (by cases h), fun _ _ h => (by cases h), fun _ _ _ h => (by cases h),
    fun _ _ h => (by cases h), fun _ _ _ h => (by cases h)⟩

theorem suits_of_drifts {v v' : AttemptView} {deviceId : String} (hd : v.Drifts v') (h : v.Suits deviceId) :
    v'.Suits deviceId := ⟨h.1, fun lease hlease => h.2 lease (hd.lease ▸ hlease)⟩

theorem Chosen.move (h : Chosen s log gs) (hm : RuntimeMoves s s') : Chosen s' log gs := by
  refine ⟨h.claimed.move hm, ?_, h.callers, fun i g hg ht => ?_, fun i g deviceId hg hs => ?_, h.awaited,
    fun i g deviceId hg hi hp => ?_⟩
  · cases hm with
    | journal _ hj => exact hj.named h.named
    | exited | crashed => exact h.named
  · exact finished_lasts (hm.endures _) (h.told i g hg ht)
  · exact lease_lasts (hm.endures _) (h.shown i g deviceId hg hs)
  · have hdrifts := hm.drifts g.1.attemptId
    have hborn : g.1.incarnation ≤ s.incarnation := h.claimed.born i g.holder (by simp [hg])
    cases hm with
    | journal | exited =>
      obtain ⟨hfree, hsuits⟩ := h.picked i g deviceId hg hi hp
      exact ⟨hfree, suits_of_drifts hdrifts hsuits⟩
    | crashed =>
      have hnew : g.1.incarnation = s.incarnation + 1 := hi
      omega

theorem Chosen.start (h : Chosen s log gs) (runtime : ExecutionRuntime) (attemptId : String) :
    Chosen s log (gs ++ [Chooser.fresh ⟨s.incarnation, runtime, attemptId⟩]) := by
  have hcases : ∀ (i : Nat) g, (gs ++ [Chooser.fresh ⟨s.incarnation, runtime, attemptId⟩])[i]? = some g →
      gs[i]? = some g ∨ i = gs.length ∧ g = .fresh ⟨s.incarnation, runtime, attemptId⟩ := by
    intro i g hg
    rw [List.getElem?_append] at hg
    split at hg
    · exact .inl hg
    · obtain ⟨hi, rfl⟩ := List.getElem?_eq_some_iff.mp hg
      simp only [List.length_singleton] at hi
      exact .inr ⟨by omega, by simp⟩
  have hlogged : ∀ e ∈ log, e.task < gs.length := fun e he => by simpa using h.claimed.logged e he
  have hclaimed : Claimed s log
      ((gs ++ [Chooser.fresh ⟨s.incarnation, runtime, attemptId⟩]).map Chooser.holder) := by
    rw [List.map_append]
    exact h.claimed.start runtime attemptId
  refine ⟨hclaimed, h.named, fun e he g hg => ?_, fun i g hg ht => ?_, fun i g deviceId hg hs => ?_, fun i g hg => ?_,
    fun i g deviceId hg hi hp => ?_⟩
  · have hlt := hlogged e he
    rcases hcases _ g hg with hg | ⟨hi, _⟩
    · exact h.callers e he g hg
    · omega
  · rcases hcases i g hg with hg | ⟨_, rfl⟩
    · exact h.told i g hg ht
    · cases ht
  · rcases hcases i g hg with hg | ⟨_, rfl⟩
    · exact h.shown i g deviceId hg hs
    · cases hs
  · rcases hcases i g hg with hg | ⟨rfl, rfl⟩
    · exact h.awaited i g hg
    · by_contra hne
      obtain ⟨e, he, htask⟩ := awaiting_some (Ne.symm hne)
      have hlt := hlogged e he
      omega
  · rcases hcases i g hg with hg | ⟨_, rfl⟩
    · exact h.picked i g deviceId hg hi hp
    · cases hp

section act

variable {caller : Caller} {hand : Hand} {choice : Choice} {o : RuntimeOp} {reply : o.Reply} {i : Nat}
  {leases : List DeviceLease} {snapshot : List DeviceObservation}
  {deviceId : String}

theorem Chosen.allows (h : Chosen s log gs) (hg : gs[i]? = some (caller, hand, choice))
    (hi : caller.incarnation = s.incarnation) (hp : Permits caller.conditions caller.attemptId hand hand.Owns o)
    (hc : Chooses caller hand choice o) : caller.conditions.Allows s o := by
  unfold Conditions.Allows
  split
  · exact fun hk => hk.elim
  · rename_i deviceId id
    obtain rfl : id = caller.attemptId := hp
    refine ⟨fun hk => hk.elim, fun hk hunfinished => ?_⟩
    rcases hc hk with htold | hshown | hpicked
    · exact absurd (h.told i _ hg htold) hunfinished
    · obtain ⟨lease, hlease, rfl⟩ := h.shown i _ deviceId hg hshown
      refine ⟨h.named _ lease hlease, fun other hother => ?_⟩
      have hother' : (s.journal.entry caller.attemptId).lease = some other := hother
      cases hlease.symm.trans hother'
      rfl
    · exact (h.picked i _ deviceId hg hi hpicked).2
  · trivial

theorem Caller.picks_named
    (h : caller.picks leases snapshot = some deviceId) : ¬ isBlank deviceId = true := by
  obtain ⟨dynamic, _, hselect⟩ := Option.bind_eq_some_iff.mp h
  split at hselect
  · rename_i selected hselected
    cases hselect
    exact selectReadyDevice_named hselected
  · cases hselect

theorem Caller.picks_selects
    (h : caller.picks leases snapshot = some deviceId) : ∃ dynamic selected, caller.runtime.dynamic = some dynamic ∧
      Selects dynamic.inventory snapshot leases dynamic.selection selected ∧ selected.identity.deviceId = deviceId := by
  obtain ⟨dynamic, hdynamic, hselect⟩ := Option.bind_eq_some_iff.mp h
  split at hselect
  · rename_i selected hselected
    cases hselect
    exact ⟨dynamic, selected, hdynamic, selectReadyDevice_selects hselected, rfl⟩
  · cases hselect

theorem Selects.comesFirst {dynamic : DynamicRuntime}
    {selected : SelectedDevice} (h : Selects dynamic.inventory snapshot leases dynamic.selection selected)
    (hfirst : dynamic.ComesFirst leases snapshot deviceId) : deviceId = selected.identity.deviceId := by
  obtain ⟨own, hown, rfl, hbefore⟩ := hfirst
  exact DeviceSelectionPolicy.before_antisymm (hbefore selected h.selectable) (h.least own hown)

theorem RuntimeActs.shows (ha : RuntimeActs s o reply s')
    (hold : choice.shown = some deviceId →
      ∃ lease, (s.journal.entry caller.attemptId).lease = some lease ∧ lease.deviceId = deviceId)
    (h : caller.shows choice.shown o reply = some deviceId) :
    ∃ lease, (s'.journal.entry caller.attemptId).lease = some lease ∧ lease.deviceId = deviceId := by
  unfold Caller.shows at h
  split at h
  · obtain ⟨lease, hlease, rfl⟩ := Option.map_eq_some_iff.mp h
    cases ha with
    | journal hj =>
      obtain ⟨rfl, hshows⟩ := hj.activeDeviceLeases_answer
      obtain ⟨row, hrow, hdevice, _⟩ := hshows.leases hlease
      exact ⟨row, hrow, hdevice⟩
  · exact lease_lasts (ha.endures _) (hold h)

theorem RuntimeActs.awaits (ha : RuntimeActs s o reply s')
    (hg : undisputed s log (.act ⟨i, (caller, o), reply⟩))
    (hold : choice.picked = some deviceId →
      caller.attemptId ∉ s.claims ∧ (s.view caller.attemptId).Suits deviceId)
    (h : caller.awaits choice.picked o reply = some deviceId) :
    caller.attemptId ∉ s'.claims ∧ (s'.view caller.attemptId).Suits deviceId := by
  unfold Caller.awaits at h
  split at h
  · cases ha
    obtain ⟨dynamic, selected, hdynamic, hselects, rfl⟩ := Caller.picks_selects h
    obtain ⟨hfree, hfirst⟩ := hg dynamic selected hdynamic hselects.selectable
    exact ⟨hfree, Caller.picks_named h, fun lease hlease => hselects.comesFirst (hfirst lease hlease)⟩
  · cases ha
    exact hold h
  · cases h

theorem Chosen.act (h : Chosen s log gs) (hg : gs[i]? = some (caller, hand, choice))
    (hp : Permits caller.conditions caller.attemptId hand hand.Owns o)
    (hi : caller.incarnation = s.incarnation) (ha : RuntimeActs s o reply s')
    (hu : undisputed s log (.act ⟨i, (caller, o), reply⟩)) :
    Chosen s' (log ++ [⟨i, (caller, o), reply⟩])
      (gs.set i (caller, hand.next caller.attemptId s s' o reply, choice.after caller o reply)) := by
  have hholder : (gs.map Chooser.holder)[i]? = some (caller, hand) := by simp [hg, Chooser.holder]
  refine ⟨?_, ?_, fun e he g hge => ?_, fun j g hgj ht => ?_, fun j g deviceId hgj hs => ?_, fun j g hgj => ?_,
    fun j g deviceId hgj hij hpj => ?_⟩
  · rw [List.map_set]
    exact h.claimed.act hholder hp hi ha
  · cases ha with
    | journal hj => exact hj.named h.named
    | _ => exact h.named
  · rcases List.mem_append.mp he with he | he
    · rcases getElem?_set_cases hge with ⟨htask, rfl⟩ | ⟨_, hge⟩
      · exact h.callers e he (caller, hand, choice) (htask ▸ hg)
      · exact h.callers e he g hge
    · obtain rfl := List.mem_singleton.mp he
      rw [getElem?_set_self hg] at hge
      cases hge
      rfl
  · rcases getElem?_set_cases hgj with ⟨rfl, rfl⟩ | ⟨_, hgj⟩
    · rcases Bool.or_eq_true_iff.mp ht with ht | ht
      · exact finished_lasts (ha.endures _) (h.told i (caller, hand, choice) hg ht)
      · exact ha.tells ht
    · exact finished_lasts (ha.endures _) (h.told j g hgj ht)
  · rcases getElem?_set_cases hgj with ⟨rfl, rfl⟩ | ⟨_, hgj⟩
    · exact ha.shows (fun hold => h.shown i (caller, hand, choice) deviceId hg hold) hs
    · exact lease_lasts (ha.endures _) (h.shown j g deviceId hgj hs)
  · rcases getElem?_set_cases hgj with ⟨rfl, rfl⟩ | ⟨hne, hgj⟩
    · rw [awaiting_own, ← h.awaited i _ hg]
      rfl
    · rw [awaiting_other (by exact hne)]
      exact h.awaited j g hgj
  · rw [ha.incarnation] at hij
    rcases getElem?_set_cases hgj with ⟨rfl, rfl⟩ | ⟨hne, hgj⟩
    · exact ha.awaits hu (fun hold => h.picked i (caller, hand, choice) deviceId hg hi hold) hpj
    · obtain ⟨hfree, hsuits⟩ := h.picked j g deviceId hgj hij hpj
      have hawaits : awaiting j log ≠ none := by
        rw [← h.awaited j g hgj, hpj]
        exact Option.some_ne_none _
      obtain ⟨e, he, htask⟩ := awaiting_some hawaits
      have hcaller := h.callers e he g (htask ▸ hgj)
      constructor
      · cases ha with
        | claimed hc =>
          rename_i claimedDevice id
          intro hmem
          rcases List.mem_cons.mp hmem with heq | hmem
          · subst htask
            exact hawaits (hu e he (Ne.symm hne) (hcaller ▸ hij) (by rw [hcaller, heq]))
          · exact hfree hmem
        | unclaimed => exact fun hmem => hfree (List.mem_filter.mp hmem).1
        | _ => exact hfree
      · rw [ha.elsewhere]
        · exact hsuits
        · intro ht
          obtain ⟨hid, w, hview⟩ := hp.touches ht
          have hmem := (h.claimed.owned i _ w hholder ⟨hi, hview⟩).1
          exact hfree (hid ▸ hmem)

end act

theorem selectionScheme_kept : selectionScheme.Kept runtimeWorld undisputed where
  act {s log gs i g o reply s'} hinv hg hp ha hu := by
    obtain ⟨caller, hand, choice⟩ := g
    obtain ⟨caller', o⟩ := o
    obtain ⟨hcaller, hpermits, hchooses⟩ := hp
    obtain ⟨hincarnation, hacts⟩ := ha
    dsimp only at hcaller hpermits hchooses hincarnation hacts
    subst hcaller
    have hholder : (gs.map Chooser.holder)[i]? = some (caller, hand) := by simp [hg, Chooser.holder]
    have hw : ∀ w, hand.view = some w → w.Drifts (s.view caller.attemptId) :=
      fun w hview => (Claimed.owned (Chosen.claimed hinv) i _ w hholder ⟨hincarnation, hview⟩).2
    have hallows := Chosen.allows hinv hg hincarnation hpermits hchooses
    have hfollows := Hand.next_follows hacts (Claimed.sound (Chosen.claimed hinv)) hw hpermits hallows
    exact ⟨(caller, hand.next caller.attemptId s s' o reply, choice.after caller o reply),
      ⟨rfl, ⟨hfollows, rfl, rfl⟩, rfl⟩, Chosen.act hinv hg hpermits hincarnation hacts hu⟩
  move hinv hm _ := Chosen.move hinv hm
  start {s log gs p} hinv hs := by
    obtain ⟨runtime, attemptId, publishes, rfl⟩ := hs
    exact ⟨.fresh ⟨s.incarnation, runtime, attemptId⟩, ends_mono (ends_tag selects_run) fun _ _ _ => trivial,
      Chosen.start hinv runtime attemptId⟩

end kept

section runs

variable {c : RuntimeConfig} {e : RuntimeEvent}

def sampleDevice (deviceId : String) : AcceleratorDevice := ⟨deviceId, "accelerator", "serial", "firmware"⟩

def dynamicRuntime : ExecutionRuntime :=
  { sampleRuntime "0" with dynamic := some ⟨sampleDevice "0", [sampleDevice "1"], ⟨[], none⟩⟩ }

def contended : Scenario where
  observe _ deviceId := .ok (sampleObservation deviceId (if deviceId = "0" then 1 else 0))
  snapshot s := [sampleObservation "0" (if (s.journal.entry "attempt").lease = none then 0 else 1),
    sampleObservation "1" 0]
  stopped := .ok ()

def alone (s : RuntimeState) (log : List RuntimeEvent) (e : RuntimeEvent) : Bool :=
  match e.op.2 with
  | .snapshot _ => e.op.1.attemptId ∉ s.claims ∧ (s.journal.entry e.op.1.attemptId).lease = none
  | .claim .. => log.all fun other => other.task = e.task
  | _ => true

theorem alone_undisputed {s : RuntimeState} {log : List RuntimeEvent} (h : alone s log e = true) :
    undisputed s log (.act e) := by
  unfold undisputed
  split
  · rename_i heq
    cases heq
    simp only [alone, decide_eq_true_eq] at h
    exact fun _ _ _ _ => ⟨h.1, fun lease hlease => by cases h.2.symm.trans hlease⟩
  · rename_i heq
    cases heq
    simp only [alone, List.all_eq_true, decide_eq_true_eq] at h
    exact fun e he hne => absurd (h e he) hne
  · trivial

theorem undisputed_elsewhere (s : RuntimeState) (log : List RuntimeEvent)
    (label : Label RuntimeState CalledOp CalledOp.Reply) (h : ∀ e, label ≠ .act e) : undisputed s log label := by
  cases label with
  | act e => exact absurd rfl (h e)
  | move | start => trivial

theorem reaches_alone {scenario : Scenario} {cues : List Cue} {task : Nat} {check : RuntimeConfig → RuntimeEvent → Bool}
    (h : scenario.reaches alone cues task check = true) :
    ∃ c e c', Run runtimeWorld undisputed RuntimeConfig.initial c ∧ Step runtimeWorld c (.act e) c' ∧
      check c e = true :=
  reaches_step (fun _ _ _ h => alone_undisputed h) undisputed_elsewhere h

/-- The first device is free, and the attempt has it. -/
def takes (_ : RuntimeConfig) (e : RuntimeEvent) : Bool :=
  e.op.1.runtime.dynamic.isSome && match e.op.2 with
    | .journal (.acquireDeviceLease ..) => true
    | _ => false

def RuntimeOp.refuses : (o : RuntimeOp) → o.Reply → Bool
  | .journal (.acquireDeviceLease ..), .error (.conflictingDeviceLease ..) => true
  | _, _ => false

def conflicts (e : RuntimeEvent) : Bool := e.op.1.runtime.dynamic.isSome && e.op.2.refuses e.reply

theorem conflicts_acquire (h : conflicts e = true) :
    ∃ caller attemptId deviceId atMs id held, caller.runtime.dynamic.isSome = true ∧
      e = ⟨e.task, (caller, .journal (.acquireDeviceLease attemptId deviceId atMs)),
        .error (.conflictingDeviceLease id held)⟩ := by
  obtain ⟨task, ⟨caller, o⟩, reply⟩ := e
  obtain ⟨hd, h⟩ := Bool.and_eq_true_iff.mp h
  dsimp only at hd h
  cases o with
  | journal operation =>
    cases operation with
    | acquireDeviceLease attemptId deviceId atMs =>
      rcases reply with error | outcome
      · cases error with
        | conflictingDeviceLease id held => exact ⟨caller, attemptId, deviceId, atMs, id, held, hd, rfl⟩
        | _ => cases h
      · cases h
    | _ => cases h
  | _ => cases h

end runs

end AlloyPort
