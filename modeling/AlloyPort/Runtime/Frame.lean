import AlloyPort.Worker.Answer
import AlloyPort.Runtime.Ownership

/-! What the steps of the world leave of an attempt. By itself an attempt only drifts, and what an execution
is permitted to do leaves all attempts to drift but its own, which stays sound. -/

namespace AlloyPort

open Effect Interleaving RuntimeState Engine

variable {db db' : JournalDatabase} {s s' : RuntimeState} {attemptId other : String} {k : Conditions}

section journal

def LocalEntry.Admits (x y : LocalEntry) : Prop :=
  y = x ∨ x.attempt = none ∧ ∃ row : LocalAttemptRow, row.phase = .accepted ∧ y = { x with attempt := some row }

theorem JournalStep.foreign {operation : JournalOperation} {reply : operation.Reply}
    (h : JournalStep db ⟨operation, reply⟩ db') (hf : operation.Foreign db) (other : String) :
    (db.entry other).Admits (db'.entry other) := by
  by_cases hne : operation.target ≠ some other
  · exact .inl (h.elsewhere hne)
  · have htarget := not_not.mp hne
    cases reply with
    | error error =>
      rw [h.rolledBack]
      exact .inl rfl
    | ok result =>
      cases operation with
      | admitAttempt assignment atMs =>
        cases htarget
        exact h.admitted
      | markRunning attemptId atMs =>
        cases htarget
        obtain ⟨row, hrow, hphase⟩ := hf
        obtain ⟨row', row'', hrow', hsame, hentry, _⟩ := h.markedRunning
        obtain rfl := Option.some.inj (hrow.symm.trans hrow')
        refine .inl ?_
        rw [hentry, hsame hphase]
        simp [JournalDatabase.entry, hrow]
      | markFinished attemptId finished atMs =>
        cases htarget
        obtain ⟨row, hrow, hphase, _⟩ := hf
        obtain ⟨row', row'', hrow', hsame, hentry, _⟩ := h.markedFinished
        obtain rfl := Option.some.inj (hrow.symm.trans hrow')
        refine .inl ?_
        rw [hentry, hsame hphase]
        simp [JournalDatabase.entry, hrow]
      | acquireDeviceLease | releaseDeviceLease | recordDevicePreflight => exact hf.elim
      | _ => cases htarget

end journal

section engine

variable {engine engine' : Engine} {name : String}
variable {container : Option Container}

theorem Engine.put_other (hne : other ≠ name) :
    (engine.put name container).containers other = engine.containers other := Function.update_of_ne hne _ _

@[simp] theorem Engine.put_same :
    (engine.put name container).containers name = container := Function.update_self _ _ _

def Engine.SameAt (name : String) (engine engine' : Engine) : Prop :=
  engine'.containers name = engine.containers name ∧ engine'.creations.count name = engine.creations.count name ∧
    engine'.starts.count name = engine.starts.count name

theorem Engine.SameAt.put (hne : other ≠ name) :
    engine.SameAt other (engine.put name container) := ⟨put_other hne, rfl, rfl⟩

/-- The name that an operation of the engine is about, if it may change anything. -/
def EngineOp.changes : EngineOp → Option String
  | .create identity => some identity.name
  | .start name | .stop name | .remove name => some name
  | _ => none

theorem EngineStep.elsewhere {operation : EngineOp} {reply : operation.Reply}
    (h : EngineStep engine operation reply engine') (hne : operation.changes ≠ some other) :
    engine.SameAt other engine' := by
  have hne' : ∀ name, operation.changes = some name → other ≠ name := fun name hname heq => hne (heq ▸ hname)
  cases h with
  | created reply h =>
    have hname := hne' _ rfl
    exact ⟨put_other hname, List.count_cons_of_ne hname.symm, rfl⟩
  | started reply h hs =>
    have hname := hne' _ rfl
    exact ⟨put_other hname, rfl, List.count_cons_of_ne hname.symm⟩
  | stopping | stopped | removed => exact .put (hne' _ rfl)
  | failed | resolved | inspected | startedAlready | waited | logged | followed
  | stoppedAlready => exact ⟨rfl, rfl, rfl⟩

end engine

section view

theorem view_drifts (hentry : (s.journal.entry other).Admits (s'.journal.entry other))
    (hengine : s.engine.SameAt (containerName other) s'.engine) : (s.view other).Drifts (s'.view other) where
  attempt := by
    rcases hentry with heq | ⟨hnone, row, hphase, heq⟩
    · exact .inl (by rw [view, view, heq])
    · exact .inr ⟨hnone, row, by simp [view, heq], hphase⟩
  lease := by
    rcases hentry with heq | ⟨_, row, _, heq⟩
    · rw [view, view, heq]
    · simp [view, heq]
  preflight := by
    rcases hentry with heq | ⟨_, row, _, heq⟩
    · rw [view, view, heq]
    · simp [view, heq]
  absent h := hengine.1.trans h
  container container h := ⟨container, hengine.1.trans h, .refl container⟩
  creations := hengine.2.1
  starts := hengine.2.2

theorem view_same (hentry : s'.journal.entry other = s.journal.entry other)
    (hengine : s.engine.SameAt (containerName other) s'.engine) : s'.view other = s.view other := by
  simp only [view, hentry, hengine.1, hengine.2.1, hengine.2.2]

end view

theorem RuntimeMoves.drifts (h : RuntimeMoves s s') (other : String) : (s.view other).Drifts (s'.view other) := by
  cases h with
  | journal hf h => exact view_drifts (h.foreign hf other) ⟨rfl, rfl, rfl⟩
  | crashed => exact .refl _
  | exited exit h hs =>
    rename_i name container
    by_cases hname : containerName other = name
    · subst hname
      refine ⟨.inl rfl, rfl, rfl, fun hn => (by cases hn.symm.trans h), fun c hc => ?_, rfl, rfl⟩
      cases h.symm.trans hc
      exact ⟨_, put_same, rfl, rfl, .inr ⟨hs, exit, rfl⟩⟩
    · exact view_drifts (.inl rfl) (.put hname)

theorem RuntimeMoves.sound (h : RuntimeMoves s s') (hs : s.Sound) : s'.Sound where
  attempts other := (h.drifts other).sound (hs.attempts other)
  keyed := by
    cases h with
    | journal _ h => exact h.local.keyed hs.keyed
    | exited | crashed => exact hs.keyed

def RuntimeOp.Touches (other : String) : RuntimeOp → Prop
  | .journal operation => operation.target = some other
  | .engine operation => operation.changes = some (containerName other)
  | _ => False

variable {o : RuntimeOp} {reply : o.Reply}

theorem RuntimeActs.elsewhere (h : RuntimeActs s o reply s')
    (hne : ¬ o.Touches other) : s'.view other = s.view other := by
  cases h with
  | journal h => exact view_same (h.elsewhere hne) ⟨rfl, rfl, rfl⟩
  | engine h => exact view_same rfl (h.elsewhere hne)
  | _ => rfl

theorem RuntimeActs.keyed (h : RuntimeActs s o reply s') (hk : s.journal.Filed) :
    s'.journal.Filed := by
  cases h with
  | journal h => exact h.local.keyed hk
  | _ => exact hk

theorem RuntimeActs.incarnation (h : RuntimeActs s o reply s') :
    s'.incarnation = s.incarnation := by
  cases h <;> rfl

theorem RuntimeActs.claims (h : RuntimeActs s o reply s') (hc : other ∈ s.claims)
    (hne : o ≠ .unclaim other) : other ∈ s'.claims := by
  cases h with
  | claimed => exact List.mem_cons_of_mem _ hc
  | unclaimed =>
    rename_i attemptId
    have hother : other ≠ attemptId := fun heq => hne (by rw [heq])
    simpa using ⟨hc, hother⟩
  | _ => exact hc

theorem Permits.touches {hand : Hand} (hp : Permits k attemptId hand hand.Owns o)
    (ht : o.Touches other) : other = attemptId ∧ ∃ w, hand.view = some w := by
  have howns : ∀ {Φ : AttemptView → Prop}, hand.Owns Φ → ∃ w, hand.view = some w := fun ⟨w, hw, _⟩ => ⟨w, hw⟩
  cases o with
  | journal operation =>
    cases operation with
    | markRunning | markFinished | acquireDeviceLease | releaseDeviceLease =>
      cases ht
      exact ⟨hp.1, howns hp.2⟩
    | recordDevicePreflight =>
      cases ht
      exact ⟨hp.1, howns hp.2.2⟩
    | attempt | activeDeviceLeases | devicePreflight => cases ht
    | _ => exact hp.elim
  | engine operation =>
    cases operation with
    | create | start | stop | remove =>
      have hname := Option.some.inj ht
      exact ⟨containerName_inj (hname.symm.trans hp.1), howns hp.2⟩
    | _ => cases ht
  | _ => exact ht.elim

section own

variable {hand : Hand}

theorem journal_sound {operation : JournalOperation} {reply : operation.Reply}
    (h : JournalStep s.journal ⟨operation, reply⟩ db') (hs : (s.view attemptId).Sound)
    (howns : ∀ {Φ : AttemptView → Prop}, hand.Owns Φ → Φ (s.view attemptId))
    (hp : Permits k attemptId hand hand.Owns (.journal operation)) (ht : operation.target = some attemptId) :
    (view { s with journal := db' } attemptId).Sound := by
  cases reply with
  | error error =>
    obtain rfl := h.rolledBack
    exact hs
  | ok result =>
    cases operation with
    | markRunning id atMs =>
      cases ht
      obtain ⟨row, row', hrow, _, hentry, hphase⟩ := h.markedRunning
      obtain ⟨hpresent, _⟩ := howns hp.2
      refine ⟨hs.creations, hs.starts, fun hc _ => ?_, hs.created, ?_⟩
      · refine hs.absent hc fun hfinished => ?_
        cases hfinished.unique hpresent
      · simp only [view, hentry]
        exact hs.preflight
    | markFinished id finished atMs =>
      obtain rfl := Option.some.inj ht
      obtain ⟨row, row', hrow, _, hentry, hphase, _⟩ := h.markedFinished
      have hfinished : (view { s with journal := db' } id).InPhase .finished := by
        refine ⟨row', ?_, hphase⟩
        simp only [view, hentry]
      refine ⟨hs.creations, hs.starts, fun _ hn => absurd hfinished hn, hs.created, ?_⟩
      · simp only [view, hentry]
        exact hs.preflight
    | acquireDeviceLease id deviceId atMs =>
      cases ht
      obtain ⟨lease, hentry, hdevice, _, _, hheld⟩ := h.acquired
      refine ⟨hs.creations, hs.starts, ?_, hs.created, ?_⟩
      · simp only [AttemptView.InPhase, view, hentry]
        exact hs.absent
      · simp only [view, hentry]
        intro observation ho
        obtain ⟨hreusable, held, hlease, hsame⟩ := hs.preflight observation ho
        exact ⟨hreusable, lease, rfl, hdevice.trans ((hheld held hlease).symm.trans hsame)⟩
    | releaseDeviceLease id atMs =>
      cases ht
      obtain ⟨lease, lease', hlease, hentry, hdevice⟩ := h.released
      refine ⟨hs.creations, hs.starts, ?_, hs.created, ?_⟩
      · simp only [AttemptView.InPhase, view, hentry]
        exact hs.absent
      · simp only [view, hentry]
        intro observation ho
        obtain ⟨hreusable, held, hheld, hsame⟩ := hs.preflight observation ho
        cases hlease.symm.trans hheld
        exact ⟨hreusable, lease', rfl, hdevice.trans hsame⟩
    | recordDevicePreflight id observation =>
      cases ht
      obtain ⟨hentry, hlease⟩ := h.preflighted
      refine ⟨hs.creations, hs.starts, ?_, hs.created, ?_⟩
      · simp only [AttemptView.InPhase, view, hentry]
        exact hs.absent
      · simp only [view, hentry]
        intro recorded ho
        cases ho
        rcases hlease with hsame | hlease
        · exact hs.preflight observation hsame
        · exact ⟨hp.2.1, hlease⟩
    | attempt | activeDeviceLeases | devicePreflight => cases ht
    | _ => exact hp.elim

theorem engine_sound {operation : EngineOp} {reply : operation.Reply} {engine : Engine}
    (h : EngineStep s.engine operation reply engine) (hs : (s.view attemptId).Sound)
    (howns : ∀ {Φ : AttemptView → Prop}, hand.Owns Φ → Φ (s.view attemptId))
    (hp : Permits k attemptId hand hand.Owns (.engine operation)) :
    (view { s with engine } attemptId).Sound := by
  cases h with
  | failed | resolved | inspected | startedAlready | waited | logged | followed | stoppedAlready => exact hs
  | created reply h =>
    rename_i identity
    obtain ⟨hname, howned⟩ := hp
    obtain ⟨hc, hfinished⟩ := howns howned
    obtain ⟨hcreations, hstarts⟩ := hs.absent hc hfinished
    refine ⟨?_, hs.starts, fun hn => ?_, fun _ _ _ => hstarts, hs.preflight⟩
    · have hcount : s.engine.creations.count (containerName attemptId) = 0 := hcreations
      show (create _ s.engine).creations.count (containerName attemptId) ≤ 1
      simp [create, hname, hcount]
    · have hsome : (view { s with engine := s.engine.create identity } attemptId).container =
          some ⟨identity, .created, false⟩ := by
        simp only [view, ← hname, create]
        exact put_same
      cases hn.symm.trans hsome
  | started reply h hstate =>
    rename_i held
    obtain ⟨rfl, howned⟩ := hp
    obtain ⟨container, hc, hcreated⟩ := howns howned
    have hstarts := hs.created container hc hcreated
    refine ⟨hs.creations, ?_, fun hn => ?_, fun container' hc' hstate' => ?_, hs.preflight⟩
    · have hcount : s.engine.starts.count (containerName attemptId) = 0 := hstarts
      show (start _ held s.engine).starts.count (containerName attemptId) ≤ 1
      simp [start, hcount]
    · cases hn.symm.trans put_same
    · cases hc'.symm.trans put_same
      cases hstate'
  | stopping reply h hstate =>
    obtain ⟨rfl, _⟩ := hp
    refine ⟨hs.creations, hs.starts, fun hn => ?_, fun container' hc' hstate' => ?_, hs.preflight⟩
    · cases hn.symm.trans put_same
    · cases hc'.symm.trans put_same
      cases hstate.symm.trans hstate'
  | stopped reply exit h hstate =>
    obtain ⟨rfl, _⟩ := hp
    refine ⟨hs.creations, hs.starts, fun hn => ?_, fun container' hc' hstate' => ?_, hs.preflight⟩
    · cases hn.symm.trans put_same
    · cases hc'.symm.trans put_same
      cases hstate'
  | removed reply =>
    obtain ⟨rfl, howned⟩ := hp
    refine ⟨hs.creations, hs.starts, fun _ hn => absurd (howns howned) hn, fun container' hc' => ?_, hs.preflight⟩
    cases hc'.symm.trans put_same

theorem RuntimeActs.own_sound {o : RuntimeOp} {reply : o.Reply} (h : RuntimeActs s o reply s')
    (hs : (s.view attemptId).Sound) (howns : ∀ {Φ : AttemptView → Prop}, hand.Owns Φ → Φ (s.view attemptId))
    (hp : Permits k attemptId hand hand.Owns o) : (s'.view attemptId).Sound := by
  by_cases ht : o.Touches attemptId
  · cases h with
    | journal h => exact journal_sound h hs howns hp ht
    | engine h => exact engine_sound h hs howns hp
    | _ => exact ht.elim
  · rw [h.elsewhere ht]
    exact hs

end own

end AlloyPort
