import AlloyPort.Runtime.Frame

/-! The claims of a process: the executions that hold one have their attempts to themselves, over any
interleaving. -/

namespace AlloyPort

open Effect Interleaving

/-- The last observation that an execution has made of a device, with whether it had been told by then
that its attempt is finished; and whether it has been told so by now. -/
def evidence (task : Nat) (log : List RuntimeEvent) : Option (String × DeviceObservation × Bool) × Bool :=
  (log.filter fun e => e.task = task).foldl
    (fun known e => (e.op.2.observes known.2 known.1 e.reply, known.2 || e.op.2.tellsFinished e.op.1.attemptId e.reply))
    (none, false)

variable {task : Nat}

theorem evidence_own {log : List RuntimeEvent} {o : CalledOp} {reply : o.Reply} :
    evidence task (log ++ [⟨task, o, reply⟩]) = (o.2.observes (evidence task log).2 (evidence task log).1 reply,
      (evidence task log).2 || o.2.tellsFinished o.1.attemptId reply) := by
  simp [evidence, List.filter_append, List.foldl_append]

theorem evidence_other {log : List RuntimeEvent} {e : RuntimeEvent} (hne : e.task ≠ task) :
    evidence task (log ++ [e]) = evidence task log := by
  simp [evidence, List.filter_append, hne]

theorem evidence_new {log : List RuntimeEvent} (h : ∀ e ∈ log, e.task < task) :
    evidence task log = (none, false) := by
  have hfilter : (log.filter fun e => e.task = task) = [] := by
    simp only [List.filter_eq_nil_iff, decide_eq_true_eq]
    intro e he heq
    have hlt := h e he
    omega
  rw [evidence, hfilter]
  rfl

/-- An execution of the running process that has the claim on its attempt. -/
def Claims (s : RuntimeState) (g : Caller × Hand) (w : AttemptView) : Prop :=
  g.1.incarnation = s.incarnation ∧ g.2.view = some w

structure Claimed (s : RuntimeState) (log : List RuntimeEvent) (gs : List (Caller × Hand)) : Prop where
  sound : s.Sound
  logged : ∀ e ∈ log, e.task < gs.length
  born : ∀ (i : Nat) g, gs[i]? = some g → g.1.incarnation ≤ s.incarnation
  owned : ∀ (i : Nat) g w, gs[i]? = some g → Claims s g w →
    g.1.attemptId ∈ s.claims ∧ w.Drifts (s.view g.1.attemptId)
  alone : ∀ (i j : Nat) g g' w w', gs[i]? = some g → gs[j]? = some g' → Claims s g w → Claims s g' w' →
    g.1.attemptId = g'.1.attemptId → i = j
  evident : ∀ (i : Nat) g, gs[i]? = some g → (g.2.observed, g.2.told) = evidence i log

def ownershipScheme (k : Conditions) :
    Scheme RuntimeState CalledOp CalledOp.Reply ExecutionRuntimeError StoredFinished (Caller × Hand) where
  contract := Contract.tagged (ownership k)
  final _ _ := True
  invariant := Claimed

variable {k : Conditions} {s s' : RuntimeState} {log : List RuntimeEvent} {gs : List (Caller × Hand)}

theorem Claimed.initial : Claimed .initial [] [] :=
  ⟨RuntimeState.initial_sound, fun _ h => (by cases h), fun _ _ h => (by cases h), fun _ _ _ h => (by cases h),
    fun _ _ _ _ _ _ h => (by cases h), fun _ _ h => (by cases h)⟩

theorem Claimed.move (h : Claimed s log gs) (hm : RuntimeMoves s s') : Claimed s' log gs := by
  have hcurrent : ∀ (i : Nat) g w, gs[i]? = some g → Claims s' g w → s'.claims = s.claims ∧ Claims s g w := by
    intro i g w hg hc
    cases hm with
    | journal | exited => exact ⟨rfl, hc⟩
    | crashed =>
      have hborn := h.born i g hg
      have hnew : g.1.incarnation = s.incarnation + 1 := hc.1
      omega
  refine ⟨hm.sound h.sound, h.logged, fun i g hg => ?_, fun i g w hg hc => ?_, ?_, h.evident⟩
  · have hborn := h.born i g hg
    cases hm with
    | journal | exited => exact hborn
    | crashed => exact Nat.le_succ_of_le hborn
  · obtain ⟨hclaims, hold⟩ := hcurrent i g w hg hc
    obtain ⟨hmem, hdrifts⟩ := h.owned i g w hg hold
    exact ⟨hclaims ▸ hmem, hdrifts.trans (hm.drifts _)⟩
  · intro i j g g' w w' hg hg' hc hc'
    exact h.alone i j g g' w w' hg hg' (hcurrent i g w hg hc).2 (hcurrent j g' w' hg' hc').2

theorem Claimed.start (h : Claimed s log gs) (runtime : ExecutionRuntime) (attemptId : String) :
    Claimed s log (gs ++ [(⟨s.incarnation, runtime, attemptId⟩, Hand.empty)]) := by
  have hcases : ∀ (i : Nat) g, (gs ++ [(⟨s.incarnation, runtime, attemptId⟩, Hand.empty)])[i]? = some g →
      gs[i]? = some g ∨ i = gs.length ∧ g = (⟨s.incarnation, runtime, attemptId⟩, .empty) := by
    intro i g hg
    rw [List.getElem?_append] at hg
    split at hg
    · exact .inl hg
    · obtain ⟨hi, rfl⟩ := List.getElem?_eq_some_iff.mp hg
      simp only [List.length_singleton] at hi
      exact .inr ⟨by omega, by simp⟩
  have hold : ∀ (i : Nat) g w, (gs ++ [(⟨s.incarnation, runtime, attemptId⟩, Hand.empty)])[i]? = some g → Claims s g w →
      gs[i]? = some g := by
    intro i g w hg hc
    rcases hcases i g hg with hg | ⟨_, rfl⟩
    · exact hg
    · cases hc.2
  refine ⟨h.sound, fun e he => ?_, fun i g hg => ?_, fun i g w hg hc => h.owned i g w (hold i g w hg hc) hc, ?_, ?_⟩
  · have hlt := h.logged e he
    simp only [List.length_append, List.length_singleton]
    omega
  · rcases hcases i g hg with hg | ⟨_, rfl⟩
    · exact h.born i g hg
    · exact le_refl _
  · intro i j g g' w w' hg hg' hc hc'
    exact h.alone i j g g' w w' (hold i g w hg hc) (hold j g' w' hg' hc') hc hc'
  · intro i g hg
    rcases hcases i g hg with hg | ⟨rfl, rfl⟩
    · exact h.evident i g hg
    · exact (evidence_new h.logged).symm

section act

variable {caller : Caller} {hand : Hand} {o : RuntimeOp} {reply : o.Reply} {i : Nat}

def Hand.nextView (attemptId : String) (hand : Hand) (s s' : RuntimeState) :
    (o : RuntimeOp) → o.Reply → Option AttemptView
  | .claim _ _, reply => if reply = true then some (s.view attemptId) else none
  | .unclaim _, _ => none
  | _, _ => hand.view.map fun _ => s'.view attemptId

def Hand.next (attemptId : String) (hand : Hand) (s s' : RuntimeState) (o : RuntimeOp) (reply : o.Reply) : Hand :=
  ⟨hand.nextView attemptId s s' o reply, o.observes hand.told hand.observed reply,
    hand.told || o.tellsFinished attemptId reply⟩

theorem Hand.owns_now {attemptId : String} {Φ : AttemptView → Prop} (hs : s.Sound)
    (hw : ∀ w, hand.view = some w → w.Drifts (s.view attemptId)) (h : hand.Owns Φ) : Φ (s.view attemptId) := by
  obtain ⟨w, hview, hΦ⟩ := h
  exact hΦ _ (hw w hview) (hs.attempts attemptId)

theorem RuntimeActs.sound (ha : RuntimeActs s o reply s') (hs : s.Sound)
    (hw : ∀ w, hand.view = some w → w.Drifts (s.view caller.attemptId))
    (hp : Permits k caller.attemptId hand hand.Owns o) : s'.Sound := by
  refine ⟨fun other => ?_, ha.keyed hs.keyed⟩
  by_cases ht : o.Touches other
  · obtain ⟨rfl, _⟩ := hp.touches ht
    exact ha.own_sound (hs.attempts _) (fun h => Hand.owns_now hs hw h) hp
  · rw [ha.elsewhere ht]
    exact hs.attempts other

theorem Hand.next_follows (ha : RuntimeActs s o reply s') (hs : s.Sound)
    (hw : ∀ w, hand.view = some w → w.Drifts (s.view caller.attemptId))
    (hp : Permits k caller.attemptId hand hand.Owns o) (hk : k.Allows s o) :
    hand.Follows k caller.attemptId o reply (hand.nextView caller.attemptId s s' o reply) := by
  cases o with
  | claim deviceId id =>
    simp only [Hand.Follows, Hand.nextView]
    split
    · exact ⟨s, hs, hk, rfl⟩
    · rfl
  | unclaim id => rfl
  | _ =>
    simp only [Hand.Follows, Hand.nextView]
    cases hview : hand.view with
    | none => rfl
    | some w => exact ⟨s, s', hw w hview, hs, hk, ha, ha.sound hs hw hp, rfl⟩

theorem Claimed.act (h : Claimed s log gs) (hg : gs[i]? = some (caller, hand))
    (hp : Permits k caller.attemptId hand hand.Owns o) (hi : caller.incarnation = s.incarnation)
    (ha : RuntimeActs s o reply s') :
    Claimed s' (log ++ [⟨i, (caller, o), reply⟩]) (gs.set i (caller, hand.next caller.attemptId s s' o reply)) := by
  have hw : ∀ w, hand.view = some w → w.Drifts (s.view caller.attemptId) :=
    fun w hview => (h.owned i _ w hg ⟨hi, hview⟩).2
  have hold : ∀ (j : Nat) g w, gs[j]? = some g → Claims s' g w → Claims s g w :=
    fun j g w _ hc => ⟨hc.1.trans ha.incarnation, hc.2⟩
  have hown : ∀ w, hand.nextView caller.attemptId s s' o reply = some w →
      (∃ deviceId, o = .claim deviceId caller.attemptId ∧ caller.attemptId ∉ s.claims ∧ caller.attemptId ∈ s'.claims ∧
        w = s'.view caller.attemptId) ∨
      (∃ w', hand.view = some w') ∧ (∀ id, o ≠ .unclaim id) ∧ w = s'.view caller.attemptId := by
    intro w hview
    cases o with
    | claim deviceId id =>
      obtain rfl : id = caller.attemptId := hp
      cases ha with
      | refused => cases hview
      | claimed hc =>
        cases hview
        exact .inl ⟨deviceId, rfl, hc, List.mem_cons_self, rfl⟩
    | unclaim id => cases hview
    | _ =>
      obtain ⟨w', hw', rfl⟩ := Option.map_eq_some_iff.mp hview
      exact .inr ⟨⟨w', hw'⟩, fun id heq => (by cases heq), rfl⟩
  have hother : ∀ (j : Nat) g w, i ≠ j → gs[j]? = some g → Claims s g w →
      ∀ w', hand.view = some w' → g.1.attemptId ≠ caller.attemptId := by
    intro j g w hne hgj hc w' hview heq
    exact hne (h.alone i j _ _ w' w hg hgj ⟨hi, hview⟩ hc heq.symm)
  refine ⟨ha.sound h.sound hw hp, fun e he => ?_, fun j g hgj => ?_, fun j g w hgj hc => ?_, ?_, fun j g hgj => ?_⟩
  · rw [List.length_set]
    rcases List.mem_append.mp he with he | he
    · exact h.logged e he
    · obtain rfl := List.mem_singleton.mp he
      exact (List.getElem?_eq_some_iff.mp hg).choose
  · rw [ha.incarnation]
    rcases getElem?_set_cases hgj with ⟨rfl, rfl⟩ | ⟨_, hgj⟩
    · exact hi.le
    · exact h.born j g hgj
  · rcases getElem?_set_cases hgj with ⟨rfl, rfl⟩ | ⟨hne, hgj⟩
    · rcases hown w hc.2 with ⟨_, _, _, hmem, rfl⟩ | ⟨⟨w', hview⟩, hunclaim, rfl⟩
      · exact ⟨hmem, .refl _⟩
      · exact ⟨ha.claims (h.owned i _ w' hg ⟨hi, hview⟩).1 (hunclaim _), .refl _⟩
    · have hapart := hother j g w hne hgj (hold j g w hgj hc)
      obtain ⟨hmem, hdrifts⟩ := h.owned j g w hgj (hold j g w hgj hc)
      refine ⟨ha.claims hmem fun heq => ?_, ?_⟩
      · subst heq
        obtain ⟨hid, w', hview, _⟩ := hp
        exact hapart w' hview hid
      · rw [ha.elsewhere]
        · exact hdrifts
        · intro ht
          obtain ⟨hid, w', hview⟩ := hp.touches ht
          exact hapart w' hview hid
  · have hapart : ∀ (j : Nat) g w w', i ≠ j → gs[j]? = some g → Claims s g w →
        hand.nextView caller.attemptId s s' o reply = some w' → g.1.attemptId ≠ caller.attemptId := by
      intro j g w w' hne hgj hc hview
      rcases hown w' hview with ⟨_, _, hfree, _⟩ | ⟨⟨w'', hview⟩, _⟩
      · exact fun heq => hfree (heq ▸ (h.owned j g w hgj hc).1)
      · exact hother j g w hne hgj hc w'' hview
    intro j j' g g' w w' hgj hgj' hc hc' heq
    rcases getElem?_set_cases hgj with ⟨rfl, rfl⟩ | ⟨hne, hgj⟩
    · rcases getElem?_set_cases hgj' with ⟨rfl, rfl⟩ | ⟨hne', hgj'⟩
      · rfl
      · exact absurd heq.symm (hapart j' g' w' w hne' hgj' (hold j' g' w' hgj' hc') hc.2)
    · rcases getElem?_set_cases hgj' with ⟨rfl, rfl⟩ | ⟨hne', hgj'⟩
      · exact absurd heq (hapart j g w w' hne hgj (hold j g w hgj hc) hc'.2)
      · exact h.alone j j' g g' w w' hgj hgj' (hold j g w hgj hc) (hold j' g' w' hgj' hc') heq
  · rcases getElem?_set_cases hgj with ⟨rfl, rfl⟩ | ⟨hne, hgj⟩
    · have hknown := h.evident i _ hg
      rw [evidence_own, ← hknown]
      rfl
    · rw [evidence_other hne]
      exact h.evident j g hgj

end act

open RuntimeProgram

/-- The statement outlasts what happens to an attempt by itself. -/
def Stable (Φ : AttemptView → Prop) : Prop := ∀ v v', v.Drifts v' → Φ v → Φ v'

section stable

variable {Φ Ψ : AttemptView → Prop}

theorem Stable.and (h : Stable Φ) (h' : Stable Ψ) : Stable fun v => Φ v ∧ Ψ v :=
  fun v v' hd hv => ⟨h v v' hd hv.1, h' v v' hd hv.2⟩

theorem stable_inPhase (phase : LocalAttemptPhase) : Stable (AttemptView.InPhase phase) :=
  fun _ _ hd hv => hd.inPhase hv

theorem stable_unfinished : Stable fun v => ¬ v.InPhase .finished := fun _ _ hd hn hv => hn (hd.finished hv)

theorem stable_leases (deviceId : String) : Stable (AttemptView.Leases deviceId) := fun _ _ hd hv => hd.leases.mpr hv

theorem stable_preflight (preflight : Option DeviceObservation) : Stable fun v => v.entry.preflight = preflight :=
  fun _ _ hd hv => hd.preflight.trans hv

theorem stable_absent : Stable fun v => v.container = none := fun _ _ hd hv => hd.absent hv

end stable

namespace Hand

variable {hand hand' : Hand} {Φ Ψ : AttemptView → Prop}

def setView (w : AttemptView) (hand : Hand) : Hand := { hand with view := some w }

theorem Owns.mono (h : hand.Owns Φ) (hΦ : ∀ v, Φ v → Ψ v) : hand.Owns Ψ := by
  obtain ⟨w, hw, hall⟩ := h
  exact ⟨w, hw, fun v hd hv => hΦ v (hall v hd hv)⟩

theorem Owns.some (h : hand.Owns Φ) : ∃ w, hand.view = some w := h.imp fun _ hw => hw.1

theorem owns_setView (hand : Hand) {w : AttemptView} (hΦ : Stable Φ) (hw : Φ w) : (hand.setView w).Owns Φ :=
  ⟨w, rfl, fun v hd _ => hΦ w v hd hw⟩

def Onward (hand hand' : Hand) : Prop := ∃ w w', hand.view = some w ∧ w.Drifts w' ∧ hand' = hand.setView w'

theorem Onward.owns (h : hand.Onward hand') (ho : hand.Owns Φ) : hand'.Owns Φ := by
  obtain ⟨w, w', hw, hd, rfl⟩ := h
  obtain ⟨w₀, hw₀, hall⟩ := ho
  obtain rfl := Option.some.inj (hw.symm.trans hw₀)
  exact ⟨w', rfl, fun v hd' hv => hall v (hd.trans hd') hv⟩

theorem Onward.observed (h : hand.Onward hand') : hand'.observed = hand.observed := by
  obtain ⟨w, w', _, _, rfl⟩ := h
  rfl

end Hand

def custody (k : Conditions) (caller : Caller) : Contract RuntimeOp RuntimeOp.Reply Hand where
  pre hand o := Permits k caller.attemptId hand hand.Owns o ∧ (∀ deviceId id, o ≠ .claim deviceId id) ∧
    ∀ id, o ≠ .unclaim id
  post := (ownership k caller).post

/-- Every step of the program is permitted, its end leaves the claim in hand, and a success is as stated. -/
def Leads {ε α : Type} (k : Conditions) (caller : Caller) (hand : Hand) (p : RuntimeProgram ε α)
    (Q : Hand → α → Prop) : Prop :=
  ends (custody k caller) hand p fun hand' r => (∃ w, hand'.view = some w) ∧ ∀ a, r = .ok a → Q hand' a

section rules

variable {ε ε' α β : Type} {k : Conditions} {caller : Caller} {hand : Hand} {Q Q' : Hand → α → Prop}
variable {p : RuntimeProgram ε α} {Φ : AttemptView → Prop} {o : RuntimeOp} {next : o.Reply → RuntimeProgram ε α}

theorem leads_ret {a : α} (h : ∃ w, hand.view = some w) (hq : Q hand a) :
    Leads k caller hand (.ret a : RuntimeProgram ε α) Q := by
  refine ⟨h, fun b hb => ?_⟩
  cases hb
  exact hq

theorem leads_fail {e : ε} (h : ∃ w, hand.view = some w) : Leads k caller hand (.fail e : RuntimeProgram ε α) Q :=
  ⟨h, fun b hb => by cases hb⟩

theorem leads_attempt {x : Except ε α} (h : ∃ w, hand.view = some w) (hq : ∀ a, x = .ok a → Q hand a) :
    Leads k caller hand (.attempt x : RuntimeProgram ε α) Q := by
  cases x with
  | error e => exact leads_fail h
  | ok a => exact leads_ret h (hq a rfl)

theorem leads_mono (h : Leads k caller hand p Q) (hq : ∀ hand' a, Q hand' a → Q' hand' a) : Leads k caller hand p Q' :=
  ends_mono h fun _ _ hr => ⟨hr.1, fun a ha => hq _ a (hr.2 a ha)⟩

theorem leads_bind {f : α → RuntimeProgram ε β} {Q : Hand → β → Prop}
    (h : Leads k caller hand p fun hand' a => Leads k caller hand' (f a) Q) : Leads k caller hand (p >>= f) Q := by
  exact ends_bind_cases h (fun _ _ hr => ⟨hr.1, fun a ha => by cases ha⟩) fun _ a hr => hr.2 a rfl

theorem leads_mapError {f : ε → ε'} (h : Leads k caller hand p Q) : Leads k caller hand (p.mapError f) Q := by
  refine ends_mapError.mpr (ends_mono h fun hand' r hr => ⟨hr.1, fun a ha => ?_⟩)
  exact hr.2 a (mapError_eq_ok.mp ha)

theorem leads_ends (h : Leads k caller hand p Q) : ends (ownership k caller) hand p fun hand' r =>
    (∃ w, hand'.view = some w) ∧ ∀ a, r = .ok a → Q hand' a := by
  have hpre : ∀ hand o, (custody k caller).pre hand o → (ownership k caller).pre hand o := fun _ _ hp => hp.1
  exact ends_weaken hpre (fun _ _ _ _ hq => hq) h

theorem leads_op (howns : hand.Owns Φ)
    (hclaim : ∀ deviceId id, o ≠ .claim deviceId id) (hunclaim : ∀ id, o ≠ .unclaim id)
    (hp : Permits k caller.attemptId hand hand.Owns o)
    (hnext : ∀ w s s' reply, hand.view = some w → w.Drifts (s.view caller.attemptId) → s.Sound →
      Φ (s.view caller.attemptId) → k.Allows s o → RuntimeActs s o reply s' →
      Leads k caller ⟨some (s'.view caller.attemptId), o.observes hand.told hand.observed reply,
        hand.told || o.tellsFinished caller.attemptId reply⟩ (next reply) Q) :
    Leads k caller hand (.op o next) Q := by
  refine ⟨⟨hp, hclaim, hunclaim⟩, fun reply hand' hpost => ?_⟩
  obtain ⟨w, hview, hall⟩ := howns
  obtain ⟨hfollows, hobserved, htold⟩ := hpost
  have hstep : ∃ s s' : RuntimeState, w.Drifts (s.view caller.attemptId) ∧ s.Sound ∧ k.Allows s o ∧
      RuntimeActs s o reply s' ∧ s'.Sound ∧ hand'.view = some (s'.view caller.attemptId) := by
    cases o with
    | claim deviceId id => exact absurd rfl (hclaim deviceId id)
    | unclaim id => exact absurd rfl (hunclaim id)
    | _ => simpa only [Hand.Follows, hview] using hfollows
  obtain ⟨s, s', hd, hs, hk, ha, _, hview'⟩ := hstep
  have hnow := hnext w s s' reply hview hd hs (hall _ hd (hs.attempts _)) hk ha
  rw [← hview', ← hobserved, ← htold] at hnow
  exact hnow

/-- The operation tells nothing of the attempt and changes nothing of it. -/
def RuntimeOp.Quiet : RuntimeOp → Prop
  | .nowUnixMs | .plan _ | .select .. | .selectEnding _ | .store _ | .storeReceipt _ | .publish .. => True
  | .engine (.resolveImageId _) | .engine (.logs ..) | .engine (.followLogs ..) => True
  | .journal .activeDeviceLeases => True
  | _ => False

theorem leads_quiet (howns : hand.Owns Φ) (ho : o.Quiet)
    (hnext : ∀ reply hand', hand.Onward hand' → Leads k caller hand' (next reply) Q) :
    Leads k caller hand (.op o next) Q := by
  have hp : Permits k caller.attemptId hand hand.Owns o := by
    unfold RuntimeOp.Quiet at ho
    split at ho <;> trivial
  have htouches : ¬ o.Touches caller.attemptId := by
    intro ht
    unfold RuntimeOp.Quiet at ho
    split at ho <;> first | exact ht.elim | cases ht | exact ho.elim
  have hsilent : ∀ reply : o.Reply, o.observes hand.told hand.observed reply = hand.observed ∧
      o.tellsFinished caller.attemptId reply = false := by
    intro reply
    unfold RuntimeOp.Quiet at ho
    split at ho <;> first | exact ⟨rfl, rfl⟩ | exact ho.elim
  have hclaim : ∀ deviceId id, o ≠ .claim deviceId id := fun deviceId id heq => by
    subst heq
    exact ho
  have hunclaim : ∀ id, o ≠ .unclaim id := fun id heq => by
    subst heq
    exact ho
  refine leads_op howns hclaim hunclaim hp fun w s s' reply hview hd _ _ _ ha => ?_
  rw [(hsilent reply).1, (hsilent reply).2, Bool.or_false, ha.elsewhere htouches]
  exact hnext reply _ ⟨w, _, hview, hd, rfl⟩

theorem leads_atNow {call : Nat → RuntimeProgram ε α} (howns : hand.Owns Φ)
    (hcall : ∀ now hand', hand.Onward hand' → Leads k caller hand' (call now) Q) :
    Leads k caller hand (atNow call) Q := leads_quiet howns trivial hcall

theorem leads_journal {operation : JournalOperation} {fault : AttemptStoreError → ε}
    {Q : Hand → operation.Result → Prop} (howns : hand.Owns Φ)
    (hp : Permits k caller.attemptId hand hand.Owns (.journal operation))
    (hq : ∀ (s : RuntimeState) db' result, Φ (s.view caller.attemptId) → s.Sound →
      JournalStep s.journal ⟨operation, .ok result⟩ db' →
      Q ⟨some (RuntimeState.view { s with journal := db' } caller.attemptId), hand.observed,
        hand.told || (RuntimeOp.journal operation).tellsFinished caller.attemptId (.ok result)⟩ result) :
    Leads k caller hand (journal fault operation) Q := by
  refine leads_op howns (fun _ _ h => by cases h) (fun _ h => by cases h) hp fun w s s' reply _ _ hs hΦ _ ha => ?_
  cases ha with
  | journal h =>
    cases reply with
    | error error => exact leads_fail ⟨_, rfl⟩
    | ok result => exact leads_ret ⟨_, rfl⟩ (hq s _ result hΦ hs h)

theorem leads_engine {operation : EngineOp} {fault : ContainerEngineError → ε} {Q : Hand → operation.Result → Prop}
    (howns : hand.Owns Φ) (hp : Permits k caller.attemptId hand hand.Owns (.engine operation))
    (hq : ∀ (s : RuntimeState) engine result, Φ (s.view caller.attemptId) → s.Sound →
      k.Allows s (.engine operation) → EngineStep s.engine operation (.ok result) engine →
      Q (hand.setView (RuntimeState.view { s with engine } caller.attemptId)) result) :
    Leads k caller hand (engine fault operation) Q := by
  refine leads_op howns (fun _ _ h => by cases h) (fun _ h => by cases h) hp fun w s s' reply _ _ hs hΦ hk ha => ?_
  cases ha with
  | engine h =>
    have htold : (hand.told || (RuntimeOp.engine operation).tellsFinished caller.attemptId reply) = hand.told :=
      Bool.or_false _
    rw [htold]
    cases reply with
    | error error => exact leads_fail ⟨_, rfl⟩
    | ok result => exact leads_ret ⟨_, rfl⟩ (hq s _ result hΦ hs hk h)

variable {fault : DeviceStatusError → ε} {deviceId : String}

theorem leads_observeDevice {Q : Hand → DeviceObservation → Prop} (howns : hand.Owns Φ)
    (hq : ∀ hand' observation, hand'.Owns Φ → hand'.told = hand.told →
      hand'.observed = some (deviceId, observation, hand.told) → Q hand' observation) :
    Leads k caller hand (observeDevice fault deviceId) Q := by
  refine leads_op howns (fun _ _ h => by cases h) (fun _ h => by cases h) trivial
    fun w s s' reply hview hd _ _ _ ha => ?_
  rw [ha.elsewhere (fun h => h)]
  cases reply with
  | error error => exact leads_fail ⟨_, rfl⟩
  | ok observation =>
    have howns' := Hand.Onward.owns ⟨w, _, hview, hd, rfl⟩ howns
    exact leads_ret ⟨_, rfl⟩ (hq _ observation howns' (Bool.or_false _) rfl)

theorem leads_recoverDevice {Q : Hand → DeviceObservation → Prop}
    (howns : hand.Owns Φ) (hp : Permits k caller.attemptId hand hand.Owns (.recoverDevice deviceId))
    (hq : ∀ hand' observation, hand'.Owns Φ → hand'.told = hand.told →
      hand'.observed = some (deviceId, observation, hand.told) → Q hand' observation) :
    Leads k caller hand (recoverDevice fault deviceId) Q := by
  refine leads_op howns (fun _ _ h => by cases h) (fun _ h => by cases h) hp fun w s s' reply hview hd _ _ _ ha => ?_
  rw [ha.elsewhere (fun h => h)]
  cases reply with
  | error error => exact leads_fail ⟨_, rfl⟩
  | ok observation =>
    have howns' := Hand.Onward.owns ⟨w, _, hview, hd, rfl⟩ howns
    exact leads_ret ⟨_, rfl⟩ (hq _ observation howns' (Bool.or_false _) rfl)

end rules

end AlloyPort
