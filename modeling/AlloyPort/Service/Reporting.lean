import AlloyPort.Service.Dispatch

/-! Reports of failed sends. A report names the worker and not the connection that the send failed on, and is
made in a section of its own. -/

namespace AlloyPort

open Effect Interleaving WorkerControlService

/-- What a task has found of a worker, and the connection that its last send has failed on. -/
structure Reporter where
  seen : Option (String × String)
  failed : Option String

def Reporter.idle : Reporter := ⟨none, none⟩

/-- A failed send is reported of the worker whose record the task has looked at last, and was made on the connection
that it has found there. -/
def reporting : Contract ServiceOp ServiceOp.Reply Reporter where
  pre
    | _, .publish _ record => record.sender = record.connectionId
    | g, .markSendFailed workerId => ∃ connectionId, g.seen = some (workerId, connectionId) ∧
      g.failed = some connectionId
    | _, _ => True
  post
    | _, .worker workerId, found, g' => (∀ record, found = some record → record.sender = record.connectionId) ∧
        g' = ⟨found.map fun record => (workerId, record.connectionId), none⟩
    | g, .send connectionId (.ok _), false, g' => g' = { g with failed := some connectionId }
    | g, _, _, g' => g' = g

def ServiceOp.IsUnreported : ServiceOp → Prop
  | .publish .. | .markSendFailed _ => False
  | _ => True

theorem reporting_unreported {o : ServiceOp} (ho : o.IsUnreported) (g : Reporter) : reporting.pre g o := by
  cases o with
  | publish | markSendFailed => exact ho.elim
  | _ => trivial

section programs

variable {ε ε' α : Type} {g : Reporter} {workerId attemptId reason connectionId : String} {p : ServiceProgram ε α}

theorem ends_unreported (h : Performs ServiceOp.IsUnreported p) : ends reporting g p fun _ _ => True :=
  Performs.ends (r := fun _ _ => True) h (fun _ => trivial) (fun _ _ => trivial)
    fun _ ho g => ⟨reporting_unreported ho g, fun _ _ _ => trivial⟩

/-- What is prepared is to be sent on the connection that the task has found. -/
def Aimed (workerId : String) (g : Reporter) (r : Except ε Outbound) : Prop :=
  ∀ sender frame, r = .ok (some (sender, frame)) → g.seen = some (workerId, sender)

theorem ends_persist_reporting {operation : ControlOperation} {raise : RepositoryError → ε}
    {f : operation.Result → ServiceProgram ε α} {R : Reporter → Except ε α → Prop} (herror : ∀ e, R g (.error e))
    (h : ∀ a, ends reporting g (f a) R) : ends reporting g (persist operation raise >>= f) R := by
  refine ends_bind.mpr ⟨trivial, fun reply g' hg' => ?_⟩
  obtain rfl : g' = g := hg'
  cases reply with
  | ok a => exact h a
  | error e => exact herror (raise e)

theorem ends_prepare_aimed {k : Option WorkerRecord → ServiceProgram ε Outbound}
    (hk : k none = pure none)
    (hsome : ∀ g₁ record, g₁.seen = some (workerId, record.connectionId) → record.sender = record.connectionId →
      ends reporting g₁ (k (some record)) fun g' r => Aimed workerId g' r) :
    ends reporting g (withDelivery (connectedWorker workerId >>= k)) fun g' r => Aimed workerId g' r := by
  refine ends_bind.mpr ⟨trivial, fun _ g₁ hg₁ => ?_⟩
  obtain rfl : g₁ = g := hg₁
  have hbody : ends reporting g₁ (connectedWorker workerId >>= k) fun g' r => Aimed workerId g' r := by
    refine ends_bind.mpr ⟨trivial, fun found g₂ hg₂ => ?_⟩
    obtain ⟨hsender, rfl⟩ := hg₂
    show ends reporting _ (k (found.filter fun record => record.connected)) _
    cases hfound : Option.filter (fun record : WorkerRecord => record.connected) found with
    | none =>
      rw [hk]
      exact fun sender frame he => by cases he
    | some record =>
      obtain ⟨hreply, _⟩ := Option.filter_eq_some_iff.mp hfound
      exact hsome _ record (by rw [hreply]; rfl) (hsender record hreply)
  refine ends_bind.mpr (ends_result.mpr (ends_mono hbody fun g₂ r hr => ?_))
  refine ends_bind.mpr ⟨trivial, fun _ g₃ hg₃ => ?_⟩
  obtain rfl : g₃ = g₂ := hg₃
  exact ends_attempt.mpr hr

theorem ends_allocate_aimed {messageId : String} {message : ServerMessage} {record : WorkerRecord}
    (hseen : g.seen = some (workerId, record.connectionId)) (hsender : record.sender = record.connectionId) :
    ends reporting g (allocate workerId record messageId message : ServiceProgram ε Outbound) fun g' r =>
      Aimed workerId g' r := by
  refine ⟨trivial, fun advanced g' hg' sender frame he => ?_⟩
  obtain rfl : g' = g := hg'
  cases advanced with
  | true =>
    cases he
    rw [hsender]
    exact hseen
  | false => cases he

theorem aimed_error {e : ε} : Aimed workerId g (.error e : Except ε Outbound) :=
  fun _ _ he => by cases he

theorem ends_prepareAssignment_aimed :
    ends reporting g (prepareAssignment workerId attemptId) fun g' r => Aimed workerId g' r := by
  refine ends_prepare_aimed rfl fun g₁ record hseen hsender => ?_
  refine ends_still ⟨trivial, fun _ _ h => h⟩ fun lease => ?_
  refine ends_still ⟨trivial, fun _ _ h => h⟩ fun now => ?_
  exact ends_persist_reporting (fun _ => aimed_error) fun contract => ends_allocate_aimed hseen hsender

theorem ends_prepareCancel_aimed :
    ends reporting g (prepareCancel workerId attemptId reason) fun g' r => Aimed workerId g' r := by
  refine ends_prepare_aimed rfl fun g₁ record hseen hsender => ?_
  refine ends_still ⟨trivial, fun _ _ h => h⟩ fun now => ?_
  refine ends_persist_reporting (fun _ => aimed_error) fun _ => ?_
  exact ends_persist_reporting (fun _ => aimed_error) fun _ => ends_allocate_aimed hseen hsender

theorem ends_prepareTransportAck_aimed :
    ends reporting g (prepareTransportAck workerId connectionId) fun g' r => Aimed workerId g' r := by
  refine ends_prepare_aimed rfl fun g₁ record hseen hsender => ?_
  cases hselected : (some record).filter fun worker => worker.connectionId = connectionId with
  | none =>
    simp only
    exact fun sender frame he => by cases he
  | some worker =>
    obtain rfl : record = worker := by simpa using (Option.filter_eq_some_iff.mp hselected).1
    simp only
    refine ends_still ⟨trivial, fun _ _ h => h⟩ fun now => ?_
    exact ends_persist_reporting (fun _ => aimed_error) fun _ => ends_allocate_aimed hseen hsender

theorem ends_deliver_aimed {outbound : Outbound} (h : Aimed workerId g (.ok outbound : Except ε' Outbound)) :
    ends reporting g (deliver workerId outbound : ServiceProgram ε Bool) fun _ _ => True := by
  cases outbound with
  | none => trivial
  | some outbound =>
    refine ends_bind.mpr ⟨trivial, fun sent g₁ hg₁ => ?_⟩
    cases sent with
    | true => trivial
    | false =>
      obtain rfl : g₁ = _ := hg₁
      exact ⟨⟨outbound.1, h outbound.1 outbound.2 rfl, rfl⟩, fun _ _ _ => trivial⟩

theorem ends_replayAssignment_reporting {assignment : AssignmentRecord} :
    ends reporting g (replayAssignment workerId assignment) fun _ _ => True := by
  refine ends_bind_cases ends_prepareAssignment_aimed (fun _ _ _ => trivial) fun g₁ _ _ => ?_
  cases assignment.cancellationReason with
  | none => trivial
  | some reason => exact ends_bind_cases ends_prepareCancel_aimed (fun _ _ _ => trivial) fun _ _ _ => trivial

theorem ends_replayAssignments_reporting {assignments : List AssignmentRecord} :
    ends reporting g (replayAssignments workerId assignments) fun _ _ => True := by
  induction assignments generalizing g with
  | nil => trivial
  | cons assignment rest ih =>
    refine ends_bind_cases ends_replayAssignment_reporting (fun _ _ _ => trivial) fun _ _ _ => ?_
    exact ends_bind_cases ih (fun _ _ _ => trivial) fun _ _ _ => trivial

theorem ends_register_reporting {hello : WorkerHello} : ends reporting g (register hello) fun _ _ => True := by
  refine ends_still ⟨trivial, fun _ _ h => h⟩ fun number => ?_
  refine ends_still ⟨trivial, fun _ _ h => h⟩ fun now => ?_
  refine ends_persist_reporting (fun _ => trivial) fun _ => ?_
  refine ends_persist_reporting (fun _ => trivial) fun _ => ?_
  refine ends_persist_reporting (fun _ => trivial) fun _ => ?_
  refine ends_persist_reporting (fun _ => trivial) fun pending => ?_
  refine ends_bind.mpr ⟨rfl, fun _ g₁ _ => ?_⟩
  exact ends_bind_cases ends_replayAssignments_reporting (fun _ _ _ => trivial) fun _ _ _ => trivial

theorem performs_sendAll {frames : List ServerToWorker} :
    Performs ServiceOp.IsUnreported (sendAll connectionId frames) := by
  induction frames with
  | nil => trivial
  | cons frame rest ih =>
    refine performs_bind (performs_perform trivial) fun sent => ?_
    cases sent with
    | true => exact ih
    | false => trivial

theorem ends_cancelAttempt_reporting : ends reporting g (cancelAttempt attemptId reason) fun _ _ => True := by
  refine ends_still ⟨trivial, fun _ _ h => h⟩ fun now => ?_
  refine ends_persist_reporting (fun _ => trivial) fun cancellation => ?_
  have hrequested : ends reporting g (do
      let outbound ← prepareCancel cancellation.workerId attemptId reason
      return if ← deliver cancellation.workerId outbound then CancelOutcome.sent else .pending) fun _ _ => True :=
    ends_bind_cases ends_prepareCancel_aimed (fun _ _ _ => trivial) fun _ _ haimed =>
      ends_bind_cases (ends_deliver_aimed haimed) (fun _ _ _ => trivial) fun _ _ _ => trivial
  split
  · trivial
  · trivial
  · exact hrequested
  · exact hrequested

theorem ends_enqueueAssignment_reporting {assignment : Except String AssignmentContract} :
    ends reporting g (enqueueAssignment workerId assignment) fun _ _ => True := by
  refine ends_bind.mpr (ends_attempt.mpr ?_)
  cases assignment with
  | error detail => trivial
  | ok contract =>
    refine ends_still ⟨trivial, fun _ _ h => h⟩ fun now => ?_
    refine ends_persist_reporting (fun _ => trivial) fun stored => ?_
    refine ends_bind_cases (ends_unreported (performs_require (performs_perform trivial))) (fun _ _ _ => trivial)
      fun _ _ _ => ?_
    refine ends_bind_cases (ends_unreported (performs_require (performs_perform trivial))) (fun _ _ _ => trivial)
      fun _ _ _ => ?_
    refine ends_still ⟨trivial, fun _ _ h => h⟩ fun at_ => ?_
    refine ends_persist_reporting (fun _ => trivial) fun becameDispatchable => ?_
    split
    · trivial
    · exact ends_bind_mapError ends_prepareAssignment_aimed (fun _ _ _ => trivial) fun _ _ haimed =>
        ends_bind_cases (ends_deliver_aimed haimed) (fun _ _ _ => trivial) fun _ _ _ => trivial

theorem isUnreported_of_isReading {o : ServiceOp} (h : o.IsReading) : o.IsUnreported := by
  unfold ServiceOp.IsReading ServiceOp.IsIngestion ServiceOp.IsObservation at h
  unfold ServiceOp.IsUnreported
  split <;> simp_all

theorem ends_acknowledge_reporting : ends reporting g (acknowledge workerId connectionId) fun _ _ => True := by
  refine ends_bind.mpr (ends_result.mpr (ends_mono ends_prepareTransportAck_aimed fun g₁ r _ => ?_))
  cases r with
  | error e => exact ends_unreported (performs_bind (performs_endStream trivial) fun _ => trivial)
  | ok outbound =>
    cases outbound with
    | none => trivial
    | some outbound => exact ends_unreported (performs_perform trivial)

theorem ends_program_reporting (request : ServiceRequest) : ends reporting g request.program fun _ _ => True := by
  cases request with
  | register hello => exact ends_bind_mapError ends_register_reporting (fun _ _ _ => trivial) fun _ _ _ => trivial
  | openControlStream hello =>
    refine ends_bind_mapError (R := fun _ _ => True) ?_ (fun _ _ _ => trivial) fun _ _ _ => trivial
    refine ends_bind_mapError ends_register_reporting (fun _ _ _ => trivial) fun _ opened _ => ?_
    exact ends_bind_cases (ends_unreported performs_sendAll) (fun _ _ _ => trivial) fun _ _ _ => trivial
  | consumeStream workerId connectionId frames =>
    have hconsumed : ends reporting g (WorkerControlService.consumeStream workerId connectionId frames)
      fun _ _ => True :=
      ends_consumeStream (fun _ ho g => ⟨reporting_unreported (isUnreported_of_isReading ho) g, fun _ _ _ _ => trivial⟩)
        (fun _ _ => ends_acknowledge_reporting) trivial
    exact ends_bind_mapError hconsumed (fun _ _ _ => trivial) fun _ _ _ => trivial
  | enqueueAssignment workerId assignment =>
    exact ends_bind_mapError ends_enqueueAssignment_reporting (fun _ _ _ => trivial) fun _ _ _ => trivial
  | cancelAttempt attemptId reason =>
    exact ends_bind_mapError ends_cancelAttempt_reporting (fun _ _ _ => trivial) fun _ _ _ => trivial

end programs

def published (w : String) : ServiceEvent → Option WorkerRecord
  | ⟨_, .publish workerId record, _⟩ => if workerId = w then some record else none
  | _ => none

def failedOn (i : Nat) : ServiceEvent → Option String
  | ⟨j, .send connectionId (.ok _), false⟩ => if j = i then some connectionId else none
  | _ => none

/-- What the latest event of the log says that says anything. -/
def latest {α : Type} (log : List ServiceEvent) (f : ServiceEvent → Option α) : Option α := log.reverse.findSome? f

/-- A send on the connection has failed, or its stream has ended. -/
def GivenUp (log : List ServiceEvent) (w c : String) : Prop :=
  ∃ e ∈ log, (∃ i, failedOn i e = some c) ∨ ∃ i, e = ⟨i, .markDisconnected w c, ()⟩

/-- The connection that a worker has registered last is there, and is connected unless it was given up. -/
def Standing (workers : Workers) (log : List ServiceEvent) : Prop :=
  ∀ w r₀, latest log (published w) = some r₀ → ∃ r, workers.lookup w = some r ∧ r.connectionId = r₀.connectionId ∧
    (r₀.connected = true → r.connected = true ∨ GivenUp log w r.connectionId)

def looksAt (i : Nat) (w : String) : ServiceEvent → Bool
  | ⟨j, .worker workerId, _⟩ => j = i ∧ workerId = w
  | _ => false

/-- What has happened since the task has looked at the record of the worker. -/
def sinceLook (log : List ServiceEvent) (i : Nat) (w : String) : List ServiceEvent :=
  log.reverse.takeWhile fun e => !looksAt i w e

/-- The worker has not registered between the look at its record, which the channel for the send is taken from, and
the report that the send has failed. -/
def unreplaced : Guard ServiceState ServiceOp ServiceOp.Reply := fun _ log label =>
  match label with
  | .act ⟨i, .markSendFailed workerId, _⟩ => ∀ e ∈ sinceLook log i workerId, published workerId e = none
  | _ => True

section steps

variable {s s' : ServiceState} {workers' : Workers} {log : List ServiceEvent} {e : ServiceEvent} {w c : String}
  {o : ServiceOp} {reply : o.Reply}

theorem latest_append {α : Type} {f : ServiceEvent → Option α} : latest (log ++ [e]) f = (f e).or (latest log f) := by
  simp only [latest, List.reverse_append, List.reverse_singleton, List.singleton_append, List.findSome?_cons]
  cases f e <;> rfl

theorem GivenUp.append (h : GivenUp log w c) : GivenUp (log ++ [e]) w c := by
  obtain ⟨e', he', hup⟩ := h
  exact ⟨e', List.mem_append_left _ he', hup⟩

theorem Standing.keep (h : Standing s.workers log) (hq : ∀ w, published w e = none)
    (hw : ∀ w r, s.workers.lookup w = some r → ∃ r', workers'.lookup w = some r' ∧
      r'.connectionId = r.connectionId ∧
      (r.connected = true → r'.connected = true ∨ GivenUp (log ++ [e]) w r.connectionId)) :
    Standing workers' (log ++ [e]) := by
  intro w r₀ hc
  rw [latest_append, hq, Option.none_or] at hc
  obtain ⟨r, hr, hname, hup⟩ := h w r₀ hc
  obtain ⟨r', hr', hname', hconnected⟩ := hw w r hr
  refine ⟨r', hr', hname'.trans hname, fun hr₀ => ?_⟩
  rw [hname']
  exact (hup hr₀).elim hconnected fun hup => .inr hup.append

theorem Standing.update {f : WorkerRecord → WorkerRecord} (h : Standing s.workers log) (hq : ∀ w, published w e = none)
    (hf : ∀ r, s.workers.lookup w = some r → (f r).connectionId = r.connectionId ∧
      (r.connected = true → (f r).connected = true ∨ GivenUp (log ++ [e]) w r.connectionId)) :
    Standing (s.updateRecord w f).workers (log ++ [e]) := by
  refine h.keep hq fun w' r hr => ?_
  rw [ServiceState.updateRecord_lookup]
  by_cases hw : w' = w
  · subst hw
    rw [if_pos rfl, hr]
    exact ⟨f r, rfl, hf r hr⟩
  · rw [if_neg hw]
    exact ⟨r, hr, rfl, .inl⟩

theorem Standing.step {i : Nat} (h : Standing s.workers log)
    (ha : ServiceActs s o reply s') (hreport : ∀ workerId r, o = .markSendFailed workerId →
      s.workers.lookup workerId = some r → ∃ e ∈ log, failedOn i e = some r.connectionId) :
    Standing s'.workers (log ++ [⟨i, o, reply⟩]) := by
  cases ha with
  | publish workerId record =>
    intro w r₀ hc
    rw [latest_append] at hc
    by_cases hw : workerId = w
    · subst hw
      simp only [published, if_pos, Option.some_or, Option.some.injEq] at hc
      subst hc
      exact ⟨record, AList.lookup_insert _, rfl, .inl⟩
    · simp only [published, if_neg hw, Option.none_or] at hc
      obtain ⟨r, hr, hname, hup⟩ := h w r₀ hc
      exact ⟨r, (AList.lookup_insert_ne (Ne.symm hw)).trans hr, hname, fun hr₀ => (hup hr₀).imp_right .append⟩
  | advanced | accepted => exact h.update (fun _ => rfl) fun r _ => ⟨rfl, .inl⟩
  | markSendFailed workerId =>
    refine h.update (fun _ => rfl) fun r hr => ⟨rfl, fun _ => .inr ?_⟩
    obtain ⟨e, he, hfailed⟩ := hreport workerId r rfl hr
    exact ⟨e, List.mem_append_left _ he, .inl ⟨i, hfailed⟩⟩
  | markDisconnected workerId connectionId =>
    refine h.update (fun _ => rfl) fun r _ => ?_
    by_cases hc : r.connectionId = connectionId
    · rw [if_pos hc]
      exact ⟨rfl, fun _ => .inr ⟨_, List.mem_append_right _ List.mem_cons_self, .inr ⟨i, by rw [hc]⟩⟩⟩
    · rw [if_neg hc]
      exact ⟨rfl, .inl⟩
  | _ => exact h.keep (fun _ => rfl) fun w r hr => ⟨r, hr, rfl, .inl⟩

theorem sinceLook_append {i : Nat} :
    sinceLook (log ++ [e]) i w = if looksAt i w e = true then [] else e :: sinceLook log i w := by
  simp only [sinceLook, List.reverse_append, List.reverse_singleton, List.singleton_append, List.takeWhile_cons]
  cases looksAt i w e <;> rfl

theorem mem_of_latest {α : Type} {f : ServiceEvent → Option α} {a : α} (h : latest log f = some a) :
    ∃ e ∈ log, f e = some a := by
  obtain ⟨e, he, hf⟩ := List.exists_of_findSome?_eq_some h
  exact ⟨e, List.mem_reverse.mp he, hf⟩

/-- A record is replaced by a registration of its worker only; everything else leaves its connection. -/
theorem ServiceActs.records (ha : ServiceActs s o reply s') (w : String) :
    (∃ record, o = .publish w record ∧ s'.workers.lookup w = some record) ∨
      ∃ f : WorkerRecord → WorkerRecord, (∀ r, (f r).connectionId = r.connectionId ∧ (f r).sender = r.sender) ∧
        s'.workers.lookup w = (s.workers.lookup w).map f := by
  have hupdate : ∀ (w' : String) (f : WorkerRecord → WorkerRecord),
      (∀ r, (f r).connectionId = r.connectionId ∧ (f r).sender = r.sender) →
      ∃ f' : WorkerRecord → WorkerRecord, (∀ r, (f' r).connectionId = r.connectionId ∧ (f' r).sender = r.sender) ∧
        (s.updateRecord w' f).workers.lookup w = (s.workers.lookup w).map f' := by
    intro w' f hf
    rw [ServiceState.updateRecord_lookup]
    by_cases hw : w = w'
    · subst hw
      exact ⟨f, hf, if_pos rfl⟩
    · exact ⟨id, fun _ => ⟨rfl, rfl⟩, by rw [if_neg hw, Option.map_id]; rfl⟩
  cases ha with
  | publish workerId record =>
    by_cases hw : workerId = w
    · subst hw
      exact .inl ⟨record, rfl, AList.lookup_insert _⟩
    · exact .inr ⟨id, fun _ => ⟨rfl, rfl⟩, by rw [AList.lookup_insert_ne (Ne.symm hw), Option.map_id]; rfl⟩
  | advanced | accepted | markSendFailed => exact .inr (hupdate _ _ fun _ => ⟨rfl, rfl⟩)
  | markDisconnected => exact .inr (hupdate _ _ fun r => by split <;> exact ⟨rfl, rfl⟩)
  | _ => exact .inr ⟨id, fun _ => ⟨rfl, rfl⟩, by rw [Option.map_id]; rfl⟩

/-- While the worker has not registered since a task has looked at its record, the connection found there is the
worker's; a failed send that the task has yet to report is the last of its failed sends. -/
structure Reports (s : ServiceState) (log : List ServiceEvent) (gs : List Reporter) : Prop where
  senders : ∀ w r, s.workers.lookup w = some r → r.sender = r.connectionId
  found : ∀ i g w c, gs[i]? = some g → g.seen = some (w, c) → (∀ e ∈ sinceLook log i w, published w e = none) →
    ∃ r, s.workers.lookup w = some r ∧ r.connectionId = c
  failed : ∀ i g c, gs[i]? = some g → g.failed = some c → latest log (failedOn i) = some c
  standing : Standing s.workers log

def reportScheme : Scheme ServiceState ServiceOp ServiceOp.Reply ServiceFailure ServiceReply Reporter where
  contract := reporting
  final _ _ := True
  invariant := Reports

variable {gs gs' : List Reporter} {g : Reporter} {i : Nat}

/-- What a report is about: the connection that the send has failed on, and it is the worker's. -/
theorem Reports.reported (h : Reports s log gs) (hget : gs[i]? = some g) (hpre : reporting.pre g (.markSendFailed w))
    (hguard : unreplaced s log (.act ⟨i, .markSendFailed w, ()⟩)) :
    ∃ r, s.workers.lookup w = some r ∧ latest log (failedOn i) = some r.connectionId := by
  obtain ⟨c, hseen, hfailed⟩ := hpre
  obtain ⟨r, hr, rfl⟩ := h.found i g w c hget hseen hguard
  exact ⟨r, hr, h.failed i g _ hget hfailed⟩

theorem Reports.step (h : Reports s log gs) (hget : gs[i]? = some g)
    (hpre : reporting.pre g o) (ha : ServiceActs s o reply s') (hguard : unreplaced s log (.act ⟨i, o, reply⟩))
    (hfound : ∀ j g w c, gs'[j]? = some g → g.seen = some (w, c) → looksAt j w ⟨i, o, reply⟩ = true ∧
      (∃ r, s'.workers.lookup w = some r ∧ r.connectionId = c) ∨ looksAt j w ⟨i, o, reply⟩ = false ∧
      ∃ g₀, gs[j]? = some g₀ ∧ g₀.seen = some (w, c))
    (hfailed : ∀ j g c, gs'[j]? = some g → g.failed = some c → failedOn j ⟨i, o, reply⟩ = some c ∨
      failedOn j ⟨i, o, reply⟩ = none ∧ ∃ g₀, gs[j]? = some g₀ ∧ g₀.failed = some c) :
    Reports s' (log ++ [⟨i, o, reply⟩]) gs' where
  senders w r hr := by
    rcases ha.records w with ⟨record, rfl, hrecord⟩ | ⟨f, hf, hsame⟩
    · rw [hrecord] at hr
      cases hr
      exact hpre
    · rw [hsame] at hr
      obtain ⟨r₀, hr₀, rfl⟩ := Option.map_eq_some_iff.mp hr
      rw [(hf r₀).1, (hf r₀).2]
      exact h.senders w r₀ hr₀
  found j g w c hj hseen hsince := by
    rw [sinceLook_append] at hsince
    rcases hfound j g w c hj hseen with ⟨_, hr⟩ | ⟨hlook, g₀, hg₀, hseen₀⟩
    · exact hr
    · rw [hlook, if_neg Bool.false_ne_true] at hsince
      obtain ⟨r, hr, rfl⟩ := h.found j g₀ w c hg₀ hseen₀ fun e he => hsince e (List.mem_cons_of_mem _ he)
      rcases ha.records w with ⟨record, rfl, hrecord⟩ | ⟨f, hf, hsame⟩
      · have hpublished := hsince _ List.mem_cons_self
        simp [published] at hpublished
      · exact ⟨f r, by rw [hsame, hr]; rfl, (hf r).1⟩
  failed j g c hj hc := by
    rw [latest_append]
    rcases hfailed j g c hj hc with hnow | ⟨hquiet, g₀, hg₀, hc₀⟩
    · rw [hnow]
      rfl
    · rw [hquiet, Option.none_or]
      exact h.failed j g₀ c hg₀ hc₀
  standing := by
    refine h.standing.step ha fun workerId r he hr => ?_
    subst he
    obtain ⟨r', hr', hlatest⟩ := h.reported hget hpre hguard
    obtain rfl := Option.some.inj (hr.symm.trans hr')
    exact mem_of_latest hlatest

theorem reporting_act (h : Reports s log gs) (hget : gs[i]? = some g)
    (hpre : reporting.pre g o) (ha : ServiceActs s o reply s') (hguard : unreplaced s log (.act ⟨i, o, reply⟩)) :
    ∃ g', reporting.post g o reply g' ∧ Reports s' (log ++ [⟨i, o, reply⟩]) (gs.set i g') := by
  have hquiet (hlook : ∀ j w, looksAt j w ⟨i, o, reply⟩ = false) (hsend : ∀ j, failedOn j ⟨i, o, reply⟩ = none) :
      Reports s' (log ++ [⟨i, o, reply⟩]) (gs.set i g) := by
    rw [set_self hget]
    exact h.step hget hpre ha hguard (fun j g w c hj hseen => .inr ⟨hlook j w, g, hj, hseen⟩)
      fun j g c hj hc => .inr ⟨hsend j, g, hj, hc⟩
  cases o with
  | worker workerId =>
    cases ha
    refine ⟨_, ⟨fun record hr => h.senders workerId record hr, rfl⟩, h.step hget hpre (.worker workerId) hguard ?_ ?_⟩
    · intro j g' w c hj hseen
      rcases getElem?_set_cases hj with ⟨rfl, rfl⟩ | ⟨hne, hj⟩
      · obtain ⟨r, hr, hpair⟩ := Option.map_eq_some_iff.mp hseen
        obtain ⟨rfl, rfl⟩ := Prod.mk.inj hpair
        exact .inl ⟨by simp [looksAt], r, hr, rfl⟩
      · exact .inr ⟨by simp [looksAt, hne], g', hj, hseen⟩
    · intro j g' c hj hc
      rcases getElem?_set_cases hj with ⟨rfl, rfl⟩ | ⟨hne, hj⟩
      · cases hc
      · exact .inr ⟨rfl, g', hj, hc⟩
  | send connectionId frame =>
    rcases frame with status | frame
    · exact ⟨g, rfl, hquiet (fun _ _ => rfl) fun _ => rfl⟩
    · cases reply with
      | true => exact ⟨g, rfl, hquiet (fun _ _ => rfl) fun _ => rfl⟩
      | false =>
        refine ⟨_, rfl, h.step hget hpre ha hguard ?_ ?_⟩
        · intro j g' w c hj hseen
          rcases getElem?_set_cases hj with ⟨rfl, rfl⟩ | ⟨hne, hj⟩
          · exact .inr ⟨rfl, g, hget, hseen⟩
          · exact .inr ⟨rfl, g', hj, hseen⟩
        · intro j g' c hj hc
          rcases getElem?_set_cases hj with ⟨rfl, rfl⟩ | ⟨hne, hj⟩
          · obtain rfl : connectionId = c := Option.some.inj hc
            exact .inl (if_pos rfl)
          · exact .inr ⟨if_neg hne, g', hj, hc⟩
  | _ => exact ⟨g, rfl, hquiet (fun _ _ => rfl) fun _ => rfl⟩

theorem reporting_kept : reportScheme.Kept serviceWorld unreplaced where
  act := reporting_act
  move := by
    rintro s log gs s' h ⟨c, frame, rfl⟩ _
    exact ⟨h.senders, h.found, h.failed, h.standing⟩
  start := by
    rintro s log gs p h ⟨request, rfl⟩
    have hjoin : ∀ {j : Nat} {g : Reporter}, (gs ++ [Reporter.idle])[j]? = some g → gs[j]? = some g ∨ g = .idle := by
      intro j g hj
      by_cases hlt : j < gs.length
      · rw [List.getElem?_append_left hlt] at hj
        exact .inl hj
      · rw [List.getElem?_append_right (by omega)] at hj
        exact .inr (by simpa using List.mem_of_getElem? hj)
    refine ⟨.idle, ends_program_reporting request, h.senders, fun j g w c hj hseen => ?_, fun j g c hj hc => ?_,
      h.standing⟩
    · rcases hjoin hj with hj | rfl
      · exact h.found j g w c hj hseen
      · cases hseen
    · rcases hjoin hj with hj | rfl
      · exact h.failed j g c hj hc
      · cases hc

theorem reporting_initial (db : ControlDatabase) (counter : Nat) :
    reportScheme.Holds (ServingConfig.initial db counter) :=
  ⟨[], .nil, (fun _ _ hr => by cases hr), (fun _ _ _ _ hj => by cases hj), (fun _ _ _ hj => by cases hj),
    fun _ _ hc => by cases hc⟩

end steps

/-- The channel of the first connection is given up. -/
def ServiceState.performGone (s : ServiceState) : (o : ServiceOp) → Option (o.Reply × ServiceState)
  | .send connectionId frame =>
    if connectionId = "connection-0" then some (false, s.receiverGone connectionId)
    else s.perform (.send connectionId frame)
  | o => s.perform o

theorem ServiceState.performGone_acts (s : ServiceState) (o : ServiceOp) (reply : o.Reply) (s' : ServiceState)
    (h : s.performGone o = some (reply, s')) : ServiceActs s o reply s' := by
  cases o with
  | send connectionId frame =>
    simp only [performGone] at h
    split at h
    · cases h
      exact .notSent _ _
    · exact s.perform_acts _ _ _ h
  | _ => exact s.perform_acts _ _ _ h

def unreplacedPlayer : Player serviceWorld unreplaced where
  perform := ServiceState.performGone
  allows _ log
    | ⟨i, .markSendFailed workerId, _⟩ => (sinceLook log i workerId).all fun e => (published workerId e).isNone
    | _ => true
  acts := ServiceState.performGone_acts
  guarded s log e h := by
    obtain ⟨i, o, reply⟩ := e
    cases o with
    | markSendFailed workerId => exact fun e he => Option.isNone_iff_eq_none.mp (List.all_eq_true.mp h e he)
    | _ => trivial

def latePlayer : Player serviceWorld fun _ _ _ => True where
  perform := ServiceState.performGone
  allows _ _ _ := true
  acts := ServiceState.performGone_acts
  guarded _ _ _ _ := trivial

/-- A worker registers and registers again, beside an enqueue for it. -/
def sampleReconnect : ServingConfig :=
  (ServingConfig.initial .empty 0).serving
    [.register sampleHello, .enqueueAssignment "worker" (.ok sampleContract), .register sampleHello]

def reconnected (c : ServingConfig) : Bool :=
  latest c.log (published "worker") = some (WorkerControlService.initialRecord sampleHello "connection-1")

/-- The worker's second connection is marked, though nothing was sent on it and its stream goes on. -/
def displaced (c : ServingConfig) : Bool :=
  reconnected c && (c.state.workers.lookup "worker").any (fun record => record.connected = false) &&
    c.log.all fun
      | ⟨_, .send connectionId _, _⟩ => connectionId = "connection-0"
      | ⟨_, .markDisconnected .., _⟩ => false
      | _ => true

end AlloyPort
