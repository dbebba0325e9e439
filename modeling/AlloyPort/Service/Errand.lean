import AlloyPort.Control.Preparation
import AlloyPort.Service.Ingress

/-! The assignments that a task still has to bring to a worker. A registration owes the ones it has read to
the connection it has published; an enqueue owes the one it has dispatched to the connection it will find. -/

namespace AlloyPort

open Effect Interleaving WorkerControlService

def ServerToWorker.assigns (frame : ServerToWorker) (attemptId : String) : Bool :=
  match frame.message with
  | some (.assignment contract) => contract.attemptId.text = attemptId ∧ frame.messageId = s!"assignment:{attemptId}"
  | _ => false

/-- An assignment that is owed to its worker: to one connection, or to whichever is found. -/
structure Errand where
  worker : String
  attempt : String
  target : Option String

/-- The task looks at the record of a worker: the errand goes on if the worker can be reached as it asks. -/
def Errand.look (workerId : String) (found : Option WorkerRecord) (errand : Errand) : Option Errand :=
  if errand.worker = workerId then
    match found.filter (·.connected) with
    | some record =>
      if errand.target = none ∨ errand.target = some record.connectionId then
        some { errand with target := some record.connectionId }
      else none
    | none => none
  else some errand

structure Courier where
  reserved : Option String
  locked : Bool
  seen : Option (String × WorkerRecord)
  loaded : Option (String × List String)
  owes : List Errand

def couriering : Contract ServiceOp ServiceOp.Reply Courier where
  pre
    | g, .unlockDelivery => g.locked = true
    | g, .publish workerId record => g.reserved = some record.connectionId ∧ record.sender = record.connectionId ∧
        ∃ attempts, g.loaded = some (workerId, attempts)
    | g, .advance workerId connectionId sequence => g.locked = true ∧ ∃ record, g.seen = some (workerId, record) ∧
        record.connectionId = connectionId ∧ record.nextServerSequence = sequence
    | g, .markSendFailed _ => ∀ errand ∈ g.owes, errand.target ≠ none
    | _, _ => True
  post
    | g, .nextConnection, number, g' => g' = { g with reserved := some (connectionName number) }
    | g, .lockDelivery, _, g' => g' = { g with locked := true, seen := none }
    | g, .unlockDelivery, _, g' => g' = { g with locked := false }
    | g, .worker workerId, found, g' => (∀ record, found = some record → record.sender = record.connectionId) ∧
        g' = { g with seen := found.map (workerId, ·), owes := g.owes.filterMap (Errand.look workerId found) }
    | g, .publish workerId record, _, g' => ∃ attempts, g.loaded = some (workerId, attempts) ∧
        g' = { g with
          reserved := none, loaded := none
          owes := g.owes ++ attempts.map fun attempt => ⟨workerId, attempt, some record.connectionId⟩ }
    | g, .advance _ _ _, true, g' => g' = { g with seen := none }
    | g, .advance workerId connectionId _, false, g' => g' = { g with
        owes := g.owes.filter fun errand => ¬ (errand.worker = workerId ∧ errand.target = some connectionId) }
    | g, .markSendFailed workerId, _, g' => g' = { g with owes := g.owes.filter fun errand => errand.worker ≠ workerId }
    | g, .send connectionId (.ok frame), true, g' => g' = { g with
        owes := g.owes.filter fun errand =>
          ¬ (errand.target = some connectionId ∧ frame.assigns errand.attempt = true) }
    | g, .persist (.markAssignmentDispatchable attemptId workerId _), .ok true, g' =>
        g' = { g with owes := g.owes ++ [⟨workerId, attemptId, none⟩] }
    | g, .persist (.replayableAssignments workerId), .ok records, g' =>
        g' = { g with loaded := some (workerId, records.map fun record => record.contract.attemptId.text) }
    | g, .persist (.prepareAssignmentDelivery preparation), .ok contract, g' =>
        (∀ attemptId, preparation.frame.attemptId = some attemptId → contract.attemptId.text = attemptId) ∧ g' = g
    | g, _, _, g' => g' = g

def Thin (owes owes' : List Errand) : Prop :=
  ∀ errand ∈ owes', ∃ before ∈ owes, before.worker = errand.worker ∧ before.attempt = errand.attempt ∧
    (before.target = none ∨ before.target = errand.target)

namespace Thin

variable {owes owes' owes'' : List Errand}

theorem refl (owes : List Errand) : Thin owes owes := fun errand hm => ⟨errand, hm, rfl, rfl, .inr rfl⟩

theorem trans (h : Thin owes owes') (h' : Thin owes' owes'') : Thin owes owes'' := by
  intro errand hm
  obtain ⟨between, hbetween, hw', ha', ht'⟩ := h' errand hm
  obtain ⟨before, hbefore, hw, ha, ht⟩ := h between hbetween
  refine ⟨before, hbefore, hw.trans hw', ha.trans ha', ?_⟩
  rcases ht with ht | ht
  · exact .inl ht
  · rcases ht' with ht' | ht'
    · exact .inl (ht.trans ht')
    · exact .inr (ht.trans ht')

theorem filter (owes : List Errand) (p : Errand → Bool) : Thin owes (owes.filter p) :=
  fun errand hm => ⟨errand, (List.mem_filter.mp hm).1, rfl, rfl, .inr rfl⟩

theorem look (owes : List Errand) (workerId : String) (found : Option WorkerRecord) :
    Thin owes (owes.filterMap (Errand.look workerId found)) := by
  intro errand hm
  obtain ⟨before, hbefore, hlook⟩ := List.mem_filterMap.mp hm
  refine ⟨before, hbefore, ?_⟩
  unfold Errand.look at hlook
  split at hlook
  · split at hlook
    · split at hlook
      · rename_i htarget
        cases hlook
        exact ⟨rfl, rfl, htarget⟩
      · cases hlook
    · cases hlook
  · cases hlook
    exact ⟨rfl, rfl, .inr rfl⟩

theorem nil (h : Thin [] owes') : owes' = [] :=
  List.eq_nil_iff_forall_not_mem.mpr fun errand hm => by
    obtain ⟨_, hbefore, _⟩ := h errand hm
    cases hbefore

end Thin

theorem look_aims {owes : List Errand} {workerId : String} {found : Option WorkerRecord} :
    ∀ errand ∈ owes.filterMap (Errand.look workerId found), errand.worker = workerId →
      ∃ record, found.filter (·.connected) = some record ∧ errand.target = some record.connectionId := by
  intro errand hm hworker
  obtain ⟨before, _, hlook⟩ := List.mem_filterMap.mp hm
  unfold Errand.look at hlook
  split at hlook
  · split at hlook
    · rename_i record hfound
      split at hlook
      · cases hlook
        exact ⟨record, hfound, rfl⟩
      · cases hlook
    · cases hlook
  · cases hlook
    contradiction

/-- The operations that ask nothing of a task and give it no errand. -/
def ServiceOp.IsBeside : ServiceOp → Prop
  | .unlockDelivery | .publish .. | .advance .. | .markSendFailed _ => False
  | .persist (.markAssignmentDispatchable ..) => False
  | _ => True

theorem couriering_beside {o : ServiceOp} (ho : o.IsBeside) (g : Courier) :
    couriering.pre g o ∧ ∀ r g', couriering.post g o r g' → Thin g.owes g'.owes := by
  cases o with
  | unlockDelivery | publish | advance | markSendFailed => exact ho.elim
  | nextConnection | lockDelivery =>
    refine ⟨trivial, ?_⟩
    rintro r g' rfl
    exact .refl _
  | worker workerId =>
    refine ⟨trivial, ?_⟩
    rintro r g' ⟨_, rfl⟩
    exact .look _ _ _
  | send connectionId frame =>
    refine ⟨trivial, ?_⟩
    rintro r g' h
    cases frame with
    | error status =>
      obtain rfl : g' = g := h
      exact .refl _
    | ok frame =>
      cases r with
      | true =>
        obtain rfl : g' = _ := h
        exact .filter _ _
      | false =>
        obtain rfl : g' = g := h
        exact .refl _
  | persist operation =>
    refine ⟨trivial, ?_⟩
    rintro r g' h
    cases operation with
    | markAssignmentDispatchable => exact ho.elim
    | replayableAssignments workerId =>
      cases r with
      | ok records =>
        obtain rfl : g' = _ := h
        exact .refl _
      | error e =>
        obtain rfl : g' = g := h
        exact .refl _
    | prepareAssignmentDelivery preparation =>
      cases r with
      | ok contract =>
        obtain ⟨_, rfl⟩ := h
        exact .refl _
      | error e =>
        obtain rfl : g' = g := h
        exact .refl _
    | _ =>
      obtain rfl : g' = g := h
      exact .refl _
  | _ =>
    refine ⟨trivial, ?_⟩
    rintro r g' rfl
    exact .refl _

section programs

variable {ε : Type} {g : Courier} {workerId attemptId : String}
variable {α ε' : Type} {made : ServerToWorker → Prop} {reason connectionId : String} {owes : List Errand}
  {owes' : List Errand} {p : ServiceProgram ε α} {outbound : Outbound} {hello : WorkerHello}
  {frames : List ServerToWorker}

theorem ends_beside (h : Performs ServiceOp.IsBeside p) :
    ends couriering g p fun g' _ => Thin g.owes g'.owes :=
  Performs.ends (r := fun g g' : Courier => Thin g.owes g'.owes) h (fun g => .refl g.owes) (fun h h' => h.trans h')
    fun _ ho g => couriering_beside ho g

namespace Courier

variable {α : Type} {operation : ControlOperation} {raise : RepositoryError → ε}
  {f : operation.Result → ServiceProgram ε α} {R : Courier → Except ε α → Prop}

theorem ends_persisted
    (herror : ∀ e g', couriering.post g (.persist operation) (.error e) g' → R g' (.error (raise e)))
    (h : ∀ a g', couriering.post g (.persist operation) (.ok a) g' → ends couriering g' (f a) R) :
    ends couriering g (persist operation raise >>= f) R := by
  refine ends_bind.mpr ⟨trivial, fun reply g' hg' => ?_⟩
  cases reply with
  | ok a => exact h a g' hg'
  | error e => exact herror e g' hg'

theorem ends_persist
    (ho : ∀ r g', couriering.post g (.persist operation) r g' → g' = g) (herror : ∀ e, R g (.error e))
    (h : ∀ a, ends couriering g (f a) R) : ends couriering g (persist operation raise >>= f) R := by
  refine ends_persisted (fun e g' hg' => ?_) fun a g' hg' => ?_
  · rw [ho _ g' hg']
    exact herror _
  · rw [ho _ g' hg']
    exact h a

end Courier

open Courier

theorem ends_withDelivery_owing {body : ServiceProgram ε α} {R : List Errand → Except ε α → Prop}
    (h : ∀ g₁ : Courier, g₁.locked = true → g₁.owes = g.owes →
      ends couriering g₁ body fun g' r => g'.locked = true ∧ R g'.owes r) :
    ends couriering g (withDelivery body) fun g' r => R g'.owes r := by
  refine ends_bind.mpr ⟨trivial, fun _ g₁ hg₁ => ?_⟩
  obtain rfl : g₁ = _ := hg₁
  refine ends_bind.mpr (ends_result.mpr (ends_mono (h _ rfl rfl) fun g₂ r hr => ?_))
  refine ends_bind.mpr ⟨hr.1, fun _ g₃ hg₃ => ?_⟩
  obtain rfl : g₃ = _ := hg₃
  exact ends_attempt.mpr hr.2

structure Looked (owes : List Errand) (workerId : String) (record : WorkerRecord) (g : Courier) : Prop where
  locked : g.locked = true
  seen : g.seen = some (workerId, record)
  sender : record.sender = record.connectionId
  thin : Thin owes g.owes
  aims : ∀ errand ∈ g.owes, errand.worker = workerId → errand.target = some record.connectionId

theorem ends_prepare_owing {k : Option WorkerRecord → ServiceProgram ε Outbound}
    {R : List Errand → Except ε Outbound → Prop} (hk : k none = pure none)
    (hnone : ∀ owes', Thin g.owes owes' → (∀ errand ∈ owes', errand.worker ≠ workerId) → R owes' (.ok none))
    (hsome : ∀ g₁ record, Looked g.owes workerId record g₁ →
      ends couriering g₁ (k (some record)) fun g' r => g'.locked = true ∧ R g'.owes r) :
    ends couriering g (withDelivery (connectedWorker workerId >>= k)) fun g' r => R g'.owes r := by
  refine ends_withDelivery_owing fun g₁ hlocked howes => ends_bind.mpr ⟨trivial, fun found g₂ hg₂ => ?_⟩
  obtain ⟨hsender, rfl⟩ := hg₂
  rw [← howes] at hnone hsome
  show ends couriering _ (k (found.filter fun record => record.connected)) _
  have haims : ∀ errand ∈ g₁.owes.filterMap (Errand.look workerId found), errand.worker = workerId →
      ∃ record, found.filter (·.connected) = some record ∧ errand.target = some record.connectionId := look_aims
  cases hfound : Option.filter (fun record : WorkerRecord => record.connected) found with
  | none =>
    rw [hk]
    refine ⟨hlocked, hnone _ (.look _ _ _) fun errand hm hworker => ?_⟩
    obtain ⟨record, hrecord, _⟩ := haims errand hm hworker
    rw [hfound] at hrecord
    cases hrecord
  | some record =>
    obtain ⟨hreply, _⟩ := Option.filter_eq_some_iff.mp hfound
    have hseen : found.map (workerId, ·) = some (workerId, record) := by rw [hreply]; rfl
    refine hsome _ record ⟨hlocked, hseen, hsender record hreply, .look _ _ _, fun errand hm hworker => ?_⟩
    obtain ⟨record', hrecord, htarget⟩ := haims errand hm hworker
    rw [hfound] at hrecord
    rw [htarget, Option.some.inj hrecord]

/-- What a preparation for the worker leaves: nothing more is owed to it, or a frame for the connection that
is still aimed at. -/
def Prepared (workerId : String) (owes owes' : List Errand) (made : ServerToWorker → Prop) : Except ε Outbound → Prop
  | .ok none => Thin owes owes' ∧ ∀ errand ∈ owes', errand.worker ≠ workerId
  | .ok (some (sender, frame)) => Thin owes owes' ∧ made frame ∧
      ∀ errand ∈ owes', errand.worker = workerId → errand.target = some sender
  | .error _ => Thin owes owes'

theorem ends_allocate_owing {messageId : String} {message : ServerMessage} {record : WorkerRecord}
    (h : Looked owes workerId record g)
    (hmade : ∀ sequence acknowledged, made ⟨sequence, acknowledged, messageId, some message⟩) :
    ends couriering g (allocate workerId record messageId message : ServiceProgram ε Outbound) fun g' r =>
      g'.locked = true ∧ Prepared workerId owes g'.owes made r := by
  refine ⟨⟨h.locked, record, h.seen, rfl, rfl⟩, fun advanced g' hg' => ?_⟩
  cases advanced with
  | true =>
    obtain rfl : g' = _ := hg'
    refine ⟨h.locked, h.thin, hmade _ _, fun errand hm hworker => ?_⟩
    rw [h.sender]
    exact h.aims errand hm hworker
  | false =>
    obtain rfl : g' = _ := hg'
    refine ⟨h.locked, h.thin.trans (.filter _ _), fun errand hm hworker => ?_⟩
    obtain ⟨hmem, hkept⟩ := List.mem_filter.mp hm
    have haim := h.aims errand hmem hworker
    simp [hworker, haim] at hkept

theorem ends_prepareAssignment_owing : ends couriering g (prepareAssignment workerId attemptId) fun g' r =>
    Prepared workerId g.owes g'.owes (fun frame => frame.assigns attemptId = true) r := by
  refine ends_prepare_owing
    (R := fun owes' r => Prepared workerId g.owes owes' (fun frame => frame.assigns attemptId = true) r) rfl
    (fun owes' hthin hgone => ⟨hthin, hgone⟩) fun g₁ record h => ?_
  refine ends_still ⟨trivial, fun _ _ h => h⟩ fun lease => ?_
  refine ends_still ⟨trivial, fun _ _ h => h⟩ fun now => ?_
  refine ends_persisted (fun e g₂ hg₂ => ?_) fun contract g₂ hg₂ => ?_
  · obtain rfl : g₂ = g₁ := hg₂
    exact ⟨h.locked, h.thin⟩
  · obtain ⟨hcontract, rfl⟩ := hg₂
    refine ends_allocate_owing h fun sequence acknowledged => ?_
    simp [ServerToWorker.assigns, hcontract attemptId rfl]

theorem ends_prepareCancel_owing : ends couriering g (prepareCancel workerId attemptId reason) fun g' r =>
      Prepared workerId g.owes g'.owes (fun _ => True) r := by
  refine ends_prepare_owing (R := fun owes' r => Prepared workerId g.owes owes' (fun _ => True) r) rfl
    (fun owes' hthin hgone => ⟨hthin, hgone⟩) fun g₁ record h => ?_
  refine ends_still ⟨trivial, fun _ _ h => h⟩ fun now => ?_
  refine ends_persist (fun _ _ h => h) (fun e => ⟨h.locked, h.thin⟩) fun _ => ?_
  refine ends_persist (fun _ _ h => h) (fun e => ⟨h.locked, h.thin⟩) fun _ => ?_
  exact ends_allocate_owing h fun _ _ => trivial

theorem Prepared.thin {r : Except ε Outbound}
    (h : Prepared workerId owes owes' made r) : Thin owes owes' := by
  unfold Prepared at h
  split at h
  · exact h.1
  · exact h.1
  · exact h

theorem ends_prepareTransportAck_owing :
    ends couriering g (prepareTransportAck workerId connectionId) fun g' _ => Thin g.owes g'.owes := by
  refine ends_prepare_owing (R := fun owes' _ => Thin g.owes owes') rfl (fun owes' hthin _ => hthin)
    fun g₁ record h => ?_
  cases hselected : (some record).filter fun worker => worker.connectionId = connectionId with
  | none =>
    simp only
    exact ⟨h.locked, h.thin⟩
  | some worker =>
    obtain rfl : record = worker := by simpa using (Option.filter_eq_some_iff.mp hselected).1
    simp only
    refine ends_still ⟨trivial, fun _ _ h => h⟩ fun now => ?_
    refine ends_persist (fun _ _ h => h) (fun e => ⟨h.locked, h.thin⟩) fun _ => ?_
    have hallocate : ends couriering g₁ (allocate workerId record "" .acknowledgement) fun g'
      (r : Except RepositoryError Outbound) =>
        g'.locked = true ∧ Prepared workerId g.owes g'.owes (fun _ => True) r :=
      ends_allocate_owing h fun _ _ => trivial
    exact ends_mono hallocate fun g' r hr => ⟨hr.1, hr.2.thin⟩

def Covers (frames : List ServerToWorker) (attemptId : String) : Prop :=
  ∃ frame ∈ frames, frame.assigns attemptId = true

theorem Covers.append {others : List ServerToWorker} (h : Covers frames attemptId ∨ Covers others attemptId) :
    Covers (frames ++ others) attemptId := by
  rcases h with ⟨frame, hm, ha⟩ | ⟨frame, hm, ha⟩
  · exact ⟨frame, List.mem_append_left _ hm, ha⟩
  · exact ⟨frame, List.mem_append_right _ hm, ha⟩

def Collected (attempts : List String) (owes owes' : List Errand) : Except ε (List ServerToWorker) → Prop
  | .ok frames => Thin owes owes' ∧ ∀ errand ∈ owes', errand.attempt ∈ attempts → Covers frames errand.attempt
  | .error _ => True

theorem Thin.workers (h : Thin owes owes') (hw : ∀ errand ∈ owes, errand.worker = workerId) :
    ∀ errand ∈ owes', errand.worker = workerId := by
  intro errand hm
  obtain ⟨before, hbefore, hsame, _⟩ := h errand hm
  exact hsame ▸ hw before hbefore

theorem Prepared.collected
    (hw : ∀ errand ∈ owes, errand.worker = workerId)
    (h : Prepared workerId owes owes' (fun frame => frame.assigns attemptId = true)
      (.ok outbound : Except ε Outbound)) :
    Collected [attemptId] owes owes' (.ok (outbound.map Prod.snd).toList : Except ε _) := by
  refine ⟨h.thin, fun errand hm hattempt => ?_⟩
  cases outbound with
  | none => exact absurd (h.thin.workers hw errand hm) (h.2 errand hm)
  | some outbound =>
    rw [List.mem_singleton.mp hattempt]
    exact ⟨outbound.2, by simp, h.2.1⟩

theorem Collected.append {attempts others : List String} {owes₁ owes₂ : List Errand}
    {frames' : List ServerToWorker} (h₁ : Collected attempts owes owes₁ (.ok frames : Except ε _))
    (h₂ : Collected others owes₁ owes₂ (.ok frames' : Except ε _)) :
    Collected (attempts ++ others) owes owes₂ (.ok (frames ++ frames') : Except ε _) := by
  refine ⟨h₁.1.trans h₂.1, fun errand hm hattempt => Covers.append ?_⟩
  rcases List.mem_append.mp hattempt with hattempt | hattempt
  · obtain ⟨before, hbefore, _, hsame, _⟩ := h₂.1 errand hm
    rw [← hsame] at hattempt ⊢
    exact .inl (h₁.2 before hbefore hattempt)
  · exact .inr (h₂.2 errand hm hattempt)

theorem ends_replayAssignment_owing {assignment : AssignmentRecord} (hw : ∀ errand ∈ g.owes, errand.worker = workerId) :
    ends couriering g (replayAssignment workerId assignment) fun g' r =>
      Collected [assignment.contract.attemptId.text] g.owes g'.owes r := by
  refine ends_bind_cases ends_prepareAssignment_owing (fun _ _ _ => trivial) fun g₁ _ hfirst => ?_
  have hcollected := hfirst.collected hw
  cases hreason : assignment.cancellationReason with
  | none => exact hcollected
  | some reason =>
    refine ends_bind_cases ends_prepareCancel_owing (fun _ _ _ => trivial) fun g₂ second hsecond => ?_
    have hrest : Collected [] g₁.owes g₂.owes (.ok (second.map Prod.snd).toList : Except RepositoryError _) :=
      ⟨hsecond.thin, fun errand _ hattempt => by cases hattempt⟩
    exact hcollected.append hrest

theorem ends_replayAssignments_owing {assignments : List AssignmentRecord}
    (hw : ∀ errand ∈ g.owes, errand.worker = workerId) :
    ends couriering g (replayAssignments workerId assignments) fun g' r =>
      Collected (assignments.map fun record => record.contract.attemptId.text) g.owes g'.owes r := by
  induction assignments generalizing g with
  | nil => exact ⟨.refl _, fun errand _ hattempt => by cases hattempt⟩
  | cons assignment rest ih =>
    refine ends_bind_cases (ends_replayAssignment_owing hw) (fun _ _ _ => trivial) fun _ _ hfirst => ?_
    exact ends_bind_cases (ih (hfirst.1.workers hw)) (fun _ _ _ => trivial) fun _ _ hrest => hfirst.append hrest

def Courier.idle : Courier := ⟨none, false, none, none, []⟩

/-- What a registration leaves is owed to its connection, and is among its initial messages. -/
def Initial (connectionId : String) (frames : List ServerToWorker) (owes : List Errand) : Prop :=
  ∀ errand ∈ owes, errand.target = some connectionId ∧ Covers frames errand.attempt

theorem ends_register_owing :
    ends couriering .idle (register hello) fun g' r => ∀ connectionId frames, r = .ok (connectionId, frames) →
      Initial connectionId frames g'.owes := by
  refine ends_bind.mpr ⟨trivial, fun number g₁ hg₁ => ?_⟩
  obtain rfl : g₁ = _ := hg₁
  refine ends_still ⟨trivial, fun _ _ h => h⟩ fun now => ?_
  refine ends_persist (fun _ _ h => h) (fun e connectionId frames h => by cases h) fun _ => ?_
  refine ends_persist (fun _ _ h => h) (fun e connectionId frames h => by cases h) fun _ => ?_
  refine ends_persist (fun _ _ h => h) (fun e connectionId frames h => by cases h) fun _ => ?_
  refine ends_persisted (fun e g₂ _ connectionId frames h => by cases h) fun pending g₂ hg₂ => ?_
  obtain rfl : g₂ = _ := hg₂
  refine ends_bind.mpr ⟨⟨rfl, rfl, _, rfl⟩, fun _ g₃ hg₃ => ?_⟩
  obtain ⟨attempts, hattempts, hg₃⟩ := hg₃
  obtain rfl : _ = attempts := (Prod.mk.inj (Option.some.inj hattempts)).2
  have howes : ∀ errand ∈ g₃.owes, errand.worker = hello.workerId ∧ errand.target = some (connectionName number) ∧
      errand.attempt ∈ pending.map fun record => record.contract.attemptId.text := by
    rw [hg₃]
    intro errand hm
    obtain ⟨attempt, hattempt, rfl⟩ := List.mem_map.mp ((List.mem_append.mp hm).resolve_left List.not_mem_nil)
    exact ⟨rfl, rfl, hattempt⟩
  refine ends_bind_cases (ends_replayAssignments_owing fun errand hm => (howes errand hm).1)
    (fun _ _ _ => fun connectionId frames h => by cases h) fun _ _ hr => ?_
  rintro connectionId all h
  cases h
  intro errand hm
  obtain ⟨before, hbefore, _, hsame, htarget⟩ := hr.1 errand hm
  obtain ⟨_, haim, hattempt⟩ := howes before hbefore
  rw [haim] at htarget
  refine ⟨(htarget.resolve_left (by simp)).symm, ?_⟩
  obtain ⟨frame, hframe, ha⟩ := hr.2 errand hm (hsame ▸ hattempt)
  exact ⟨frame, List.mem_cons_of_mem _ hframe, ha⟩

theorem ends_sendAll_owing (h : Initial connectionId frames g.owes) :
    ends couriering g (sendAll connectionId frames) fun g' r => ∀ u, r = .ok u → g'.owes = [] := by
  induction frames generalizing g with
  | nil =>
    refine fun u _ => List.eq_nil_iff_forall_not_mem.mpr fun errand hm => ?_
    obtain ⟨_, frame, hframe, _⟩ := h errand hm
    cases hframe
  | cons frame rest ih =>
    refine ends_bind.mpr ⟨trivial, fun sent g' hg' => ?_⟩
    cases sent with
    | false => exact fun u hu => by cases hu
    | true =>
      refine ih fun errand hm => ?_
      obtain rfl : g' = _ := hg'
      obtain ⟨hmem, hkept⟩ := List.mem_filter.mp hm
      obtain ⟨htarget, frame', hframe', ha⟩ := h errand hmem
      refine ⟨htarget, ?_⟩
      rcases List.mem_cons.mp hframe' with rfl | hframe'
      · simp [htarget, ha] at hkept
      · exact ⟨frame', hframe', ha⟩

def Discharged (owes : List Errand) : Except ServiceFailure ServiceReply → Prop
  | .ok (.registered connectionId frames) => Initial connectionId frames owes
  | .ok _ => owes = []
  | .error _ => True

theorem ends_openControlStream_owing :
    ends couriering .idle (openControlStream hello) fun g' r => ∀ c, r = .ok c → g'.owes = [] := by
  refine ends_bind_mapError ends_register_owing (fun _ _ _ => fun c hc => by cases hc) fun _ opened hr => ?_
  obtain ⟨connectionId, frames⟩ := opened
  exact ends_bind_cases (ends_sendAll_owing (hr connectionId frames rfl))
    (fun _ _ _ => fun c hc => by cases hc) fun _ u hr => fun c _ => hr u rfl

theorem ends_deliver_owing
    (hw : ∀ errand ∈ owes, errand.worker = workerId ∧ ∀ frame, made frame → frame.assigns errand.attempt = true)
    (h : Prepared workerId owes g.owes made (.ok outbound : Except ε' Outbound)) :
    ends couriering g (deliver workerId outbound : ServiceProgram ε Bool) fun g' _ => g'.owes = [] := by
  have hworker := h.thin.workers fun errand hm => (hw errand hm).1
  cases outbound with
  | none => exact List.eq_nil_iff_forall_not_mem.mpr fun errand hm => h.2 errand hm (hworker errand hm)
  | some outbound =>
    obtain ⟨sender, frame⟩ := outbound
    obtain ⟨hthin, hmade, haims⟩ := h
    refine ends_bind.mpr ⟨trivial, fun sent g₁ hg₁ => ?_⟩
    cases sent with
    | true =>
      obtain rfl : g₁ = _ := hg₁
      refine List.filter_eq_nil_iff.mpr fun errand hm => ?_
      obtain ⟨before, hbefore, _, hsame, _⟩ := hthin errand hm
      have hassigns := (hw before hbefore).2 frame hmade
      rw [hsame] at hassigns
      simp [haims errand hm (hworker errand hm), hassigns]
    | false =>
      obtain rfl : g₁ = g := hg₁
      refine ⟨fun errand hm => by simp [haims errand hm (hworker errand hm)], fun _ g₂ hg₂ => ?_⟩
      rw [hg₂]
      exact List.filter_eq_nil_iff.mpr fun errand hm => by simp [hworker errand hm]

theorem ends_cancelAttempt_owing (hidle : g.owes = []) :
    ends couriering g (cancelAttempt attemptId reason) fun g' r => ∀ c, r = .ok c → g'.owes = [] := by
  refine ends_still ⟨trivial, fun _ _ h => h⟩ fun now => ?_
  refine ends_persist (fun _ _ h => h) (fun e c hc => by cases hc) fun cancellation => ?_
  have hrequested : ends couriering g (do
      let outbound ← prepareCancel cancellation.workerId attemptId reason
      return if ← deliver cancellation.workerId outbound then CancelOutcome.sent else .pending) fun g' r =>
        ∀ c, r = .ok c → g'.owes = [] := by
    refine ends_bind_cases ends_prepareCancel_owing (fun _ _ _ => fun c hc => by cases hc) fun _ _ hr => ?_
    rw [hidle] at hr
    exact ends_bind_cases (ends_deliver_owing (by simp) hr)
      (fun _ _ _ => fun c hc => by cases hc) fun _ _ hr => fun _ _ => hr
  split
  · exact fun _ _ => hidle
  · exact fun _ _ => hidle
  · exact hrequested
  · exact hrequested

theorem ends_require_owing {raise : ε' → ε} {R : Courier → Except ε α → Prop}
    {reply : ServiceProgram ε (Except ε' Unit)} {f : Unit → ServiceProgram ε α} (hidle : g.owes = [])
    (hreply : Performs ServiceOp.IsBeside reply) (herror : ∀ g' e, R g' (.error e))
    (h : ∀ g' : Courier, g'.owes = [] → ends couriering g' (f ()) R) :
    ends couriering g (require reply raise >>= f) R := by
  refine ends_bind.mpr (ends_bind.mpr (ends_mono (ends_beside hreply) fun g' r hthin => ?_))
  rw [hidle] at hthin
  cases r with
  | error e => exact herror g' e
  | ok reply =>
    cases reply with
    | error e => exact herror g' _
    | ok u => exact h g' hthin.nil

theorem ends_enqueueAssignment_owing {assignment : Except String AssignmentContract} (hidle : g.owes = []) :
    ends couriering g (enqueueAssignment workerId assignment) fun g' r => ∀ c, r = .ok c → g'.owes = [] := by
  refine ends_bind.mpr (ends_attempt.mpr ?_)
  cases assignment with
  | error detail => exact fun c hc => by cases hc
  | ok contract =>
    refine ends_still ⟨trivial, fun _ _ h => h⟩ fun now => ?_
    refine ends_persist (fun _ _ h => h) (fun e c hc => by cases hc) fun stored => ?_
    refine ends_require_owing hidle (performs_perform trivial) (fun _ e c hc => by cases hc) fun g₁ hidle => ?_
    refine ends_require_owing hidle (performs_perform trivial) (fun _ e c hc => by cases hc) fun g₂ hidle => ?_
    refine ends_still ⟨trivial, fun _ _ h => h⟩ fun at_ => ?_
    refine ends_persisted (fun e g₃ _ c hc => by cases hc) fun becameDispatchable g₃ hg₃ => ?_
    have howes : g₃.owes = [] ∨ becameDispatchable = true ∧ g₃.owes = [⟨workerId, contract.attemptId.text, none⟩] := by
      cases becameDispatchable with
      | true =>
        obtain rfl : g₃ = _ := hg₃
        exact .inr ⟨rfl, by simp [hidle]⟩
      | false =>
        obtain rfl : g₃ = g₂ := hg₃
        exact .inl hidle
    split
    · rename_i hduplicate
      refine fun _ _ => howes.resolve_right fun hm => ?_
      rw [hduplicate.2] at hm
      cases hm.1
    · have hw : ∀ errand ∈ g₃.owes, errand.worker = workerId ∧ ∀ frame : ServerToWorker,
          frame.assigns contract.attemptId.text = true → frame.assigns errand.attempt = true := by
        intro errand hm
        rcases howes with howes | ⟨_, howes⟩
        · rw [howes] at hm
          cases hm
        · rw [howes] at hm
          rw [List.mem_singleton.mp hm]
          exact ⟨rfl, fun _ h => h⟩
      refine ends_bind_mapError ends_prepareAssignment_owing (fun _ _ _ => fun c hc => by cases hc) fun _ _ hr => ?_
      exact ends_bind_cases (ends_deliver_owing hw hr)
        (fun _ _ _ => fun c hc => by cases hc) fun _ _ hr => fun _ _ => hr

theorem isBeside_of_isReading {o : ServiceOp} (h : o.IsReading) : o.IsBeside := by
  unfold ServiceOp.IsReading ServiceOp.IsIngestion ServiceOp.IsObservation at h
  unfold ServiceOp.IsBeside
  split <;> simp_all

theorem ends_idle_owing (hidle : g.owes = [])
    (h : Performs ServiceOp.IsBeside p) : ends couriering g p fun g' _ => g'.owes = [] := by
  refine ends_mono (ends_beside h) fun g' _ hthin => ?_
  rw [hidle] at hthin
  exact hthin.nil

theorem ends_acknowledge_owing (hidle : g.owes = []) :
    ends couriering g (acknowledge workerId connectionId) fun g' _ => g'.owes = [] := by
  refine ends_bind.mpr (ends_result.mpr (ends_mono ends_prepareTransportAck_owing fun g' r hthin => ?_))
  rw [hidle] at hthin
  cases r with
  | error e => exact ends_idle_owing hthin.nil (performs_bind (performs_endStream trivial) fun _ => trivial)
  | ok outbound =>
    cases outbound with
    | none => exact hthin.nil
    | some outbound => exact ends_idle_owing hthin.nil (performs_perform trivial)

theorem ends_program_owing (request : ServiceRequest) :
    ends couriering .idle request.program fun g' r => Discharged g'.owes r := by
  cases request with
  | register hello =>
    exact ends_bind_mapError ends_register_owing (fun _ _ _ => trivial) fun _ opened hr => hr opened.1 opened.2 rfl
  | openControlStream hello =>
    exact ends_bind_mapError ends_openControlStream_owing
      (fun _ _ _ => trivial) fun _ connectionId hr => hr connectionId rfl
  | consumeStream workerId connectionId frames =>
    have hconsumed : ends couriering .idle (WorkerControlService.consumeStream workerId connectionId frames) fun g' _ =>
        g'.owes = [] :=
      ends_consumeStream (fun _ ho g => (couriering_beside (isBeside_of_isReading ho) g).imp_right
        fun h r g' hr hidle =>
        (hidle ▸ h r g' hr).nil) (fun _ hidle => ends_acknowledge_owing hidle) rfl
    exact ends_bind_mapError hconsumed (fun _ _ _ => trivial) fun _ _ hr => hr
  | enqueueAssignment workerId assignment =>
    exact ends_bind_mapError (ends_enqueueAssignment_owing rfl)
      (fun _ _ _ => trivial) fun _ outcome hr => hr outcome rfl
  | cancelAttempt attemptId reason =>
    exact ends_bind_mapError (ends_cancelAttempt_owing rfl) (fun _ _ _ => trivial) fun _ outcome hr => hr outcome rfl

end programs

end AlloyPort
