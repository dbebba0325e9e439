import AlloyPort.ControlStream.World

/-! The frames that a task of the service may send. The handler of a call has one for every frame it has prepared, a
request for the frame it has prepared for the connection it found; the consumer of a stream has one for every frame it
has taken in that is to be acknowledged, and one for the status that ends the stream. -/

namespace AlloyPort.ControlStream

open Effect Interleaving WorkerControlService

section results

variable {Op G ε α β : Type} {Reply : Op → Type} {P : Except ε α → Prop}

/-- The program comes to a result as stated, whatever the replies are. -/
def Returns (P : Except ε α → Prop) : Prog Op Reply ε α → Prop
  | .ret a => P (.ok a)
  | .fail e => P (.error e)
  | .op _ next => ∀ r, Returns P (next r)

theorem returns_bind {p : Prog Op Reply ε β} {f : β → Prog Op Reply ε α} (herror : ∀ e, P (.error e))
    (h : ∀ b, Returns P (f b)) : Returns P (p >>= f) := by
  induction p with
  | ret b => exact h b
  | fail e => exact herror e
  | op o next ih => exact fun r => ih r

theorem ends_returns {C : Contract Op Reply G} {g : G} {p : Prog Op Reply ε α} {R : G → Except ε α → Prop}
    (h : ends C g p R) (hp : Returns P p) : ends C g p fun g' r => R g' r ∧ P r := by
  induction p generalizing g with
  | ret | fail => exact ⟨h, hp⟩
  | op o next ih => exact ⟨h.1, fun r g' hr => ih r (h.2 r g' hr) (hp r)⟩

end results

structure Credit where
  reserved : Option String
  own : Option String
  due : List String

def Caller.dueFor (own : Option String) (connectionId : String) : Caller → List String
  | .call _ => own.toList
  | .consumer _ => []
  | .request => [connectionId]

def crediting (caller : Caller) : Contract ServiceOp ServiceOp.Reply Credit where
  pre
    | g, .publish _ record => (∃ n, caller = .call n) ∧ g.reserved = some record.connectionId ∧ g.own = none ∧
        record.sender = record.connectionId
    | g, .advance .. => (∃ n, caller = .call n) → g.own ≠ none
    | g, .send connectionId _ => connectionId ∈ g.due
    | _, .receive connectionId => caller = .consumer connectionId
    | _, .nextConnection => ∃ n, caller = .call n
    | _, _ => True
  post
    | g, .nextConnection, number, g' => g' = { g with reserved := some (connectionName number) }
    | g, .publish _ record, _, g' =>
        g' = ⟨none, some record.connectionId, record.connectionId :: g.due⟩
    | g, .worker _, found, g' => (∀ record, found = some record → record.sender = record.connectionId) ∧ g' = g
    | g, .advance _ connectionId _, true, g' => g' = { g with due := caller.dueFor g.own connectionId ++ g.due }
    | g, .send connectionId _, _, g' => g' = { g with due := g.due.erase connectionId }
    | g, .receive connectionId, some (.ok frame), g' =>
        g' = { g with due := if isDurable frame then connectionId :: g.due else g.due }
    | g, _, _, g' => g' = g

/-- The operations that draw no name, publish nothing, and neither number, send nor take in a frame. -/
def IsPlain : ServiceOp → Prop
  | .nextConnection | .publish .. | .advance .. | .send .. | .receive _ => False
  | _ => True

section programs

variable {ε : Type} {caller : Caller} {g : Credit} {α : Type} {R : Credit → Except ε α → Prop}
  {p : ServiceProgram ε α}

theorem crediting_plain {o : ServiceOp} (ho : IsPlain o) (g : Credit) :
    (crediting caller).pre g o ∧ ∀ r g', (crediting caller).post g o r g' → g = g' := by
  cases o with
  | nextConnection | publish | advance | send | receive => exact ho.elim
  | worker workerId => exact ⟨trivial, fun r g' h => h.2.symm⟩
  | _ => exact ⟨trivial, fun r g' h => h.symm⟩

theorem ends_plain
    (hp : Performs IsPlain p) (h : ∀ r, R g r) : ends (crediting caller) g p R := by
  refine ends_mono (hp.ends (fun _ => rfl) Eq.trans fun o ho g => crediting_plain ho g) fun g' r hsame => ?_
  exact hsame ▸ h r

theorem ends_plain_bind {β : Type} {f : α → ServiceProgram ε β}
    {R : Credit → Except ε β → Prop} (hp : Performs IsPlain p) (herror : ∀ e, R g (.error e))
    (h : ∀ a, ends (crediting caller) g (f a) R) : ends (crediting caller) g (p >>= f) R := by
  refine ends_bind.mpr (ends_plain hp fun r => ?_)
  cases r with
  | error e => exact herror e
  | ok a => exact h a

theorem ends_locked {body : ServiceProgram ε α}
    (h : ends (crediting caller) g body R) : ends (crediting caller) g (withDelivery body) R := by
  refine ends_bind.mpr ⟨trivial, fun _ g₁ hg₁ => ?_⟩
  obtain rfl : g₁ = g := hg₁
  refine ends_bind.mpr (ends_result.mpr (ends_mono h fun g₂ r hr => ?_))
  refine ends_bind.mpr ⟨trivial, fun _ g₃ hg₃ => ?_⟩
  obtain rfl : g₃ = g₂ := hg₃
  exact ends_attempt.mpr hr

/-- What a preparation hands out: nothing, or a frame for a connection with the right to send it. -/
def Prepares (caller : Caller) (g g' : Credit) : Except ε Outbound → Prop
  | .ok (some (sender, _)) => g' = { g with due := caller.dueFor g.own sender ++ g.due }
  | _ => g' = g

theorem prepares_error {e : ε} : Prepares caller g g (.error e : Except ε Outbound) := rfl

variable {reason attemptId messageId : String} {message : ServerMessage} {n : Nat} {workerId : String}
  {connectionId : String} {record : WorkerRecord} {outbound : Outbound} {hello : WorkerHello} {g' : Credit}

theorem credits_allocate
    (hsender : record.sender = record.connectionId) (hown : (∃ n, caller = .call n) → g.own ≠ none) :
    ends (crediting caller) g (allocate workerId record messageId message : ServiceProgram ε Outbound)
      fun g' r => Prepares caller g g' r := by
  refine ⟨hown, fun advanced g' hg' => ?_⟩
  cases advanced with
  | false => exact hg'
  | true =>
    obtain rfl : g' = _ := hg'
    show _ = _
    rw [hsender]

theorem returns_allocate :
    Returns (fun r => ∀ sender frame, r = .ok (some (sender, frame)) → sender = record.sender)
      (allocate workerId record messageId message : ServiceProgram ε Outbound) := by
  intro advanced sender frame h
  cases advanced <;> cases h
  rfl

theorem credits_connectedWorker {f : Option WorkerRecord → ServiceProgram ε Outbound}
    (hnone : ends (crediting caller) g (f none) fun g' r => Prepares caller g g' r)
    (hsome : ∀ record : WorkerRecord, record.sender = record.connectionId →
      ends (crediting caller) g (f (some record)) fun g' r => Prepares caller g g' r) :
    ends (crediting caller) g (connectedWorker workerId >>= f) fun g' r => Prepares caller g g' r := by
  refine ends_bind.mpr ⟨trivial, fun found g' hg' => ?_⟩
  obtain ⟨hrecord, rfl⟩ := hg'
  show ends _ _ (f (found.filter fun record => record.connected)) _
  cases hfound : found.filter fun record => record.connected with
  | none => exact hnone
  | some record =>
    obtain ⟨hreply, _⟩ := Option.filter_eq_some_iff.mp hfound
    exact hsome record (hrecord record hreply)

theorem credits_prepareAssignment (hown : (∃ n, caller = .call n) → g.own ≠ none) :
    ends (crediting caller) g (prepareAssignment workerId attemptId) fun g' r => Prepares caller g g' r := by
  refine ends_locked (credits_connectedWorker rfl fun record hsender => ?_)
  refine ends_plain_bind (performs_perform trivial) (fun e => prepares_error) fun lease => ?_
  refine ends_plain_bind (performs_perform trivial) (fun e => prepares_error) fun now => ?_
  refine ends_plain_bind (performs_persist trivial) (fun e => prepares_error) fun contract => ?_
  exact credits_allocate hsender hown

theorem credits_prepareCancel (hown : (∃ n, caller = .call n) → g.own ≠ none) :
    ends (crediting caller) g (prepareCancel workerId attemptId reason) fun g' r => Prepares caller g g' r := by
  refine ends_locked (credits_connectedWorker rfl fun record hsender => ?_)
  refine ends_plain_bind (performs_perform trivial) (fun e => prepares_error) fun now => ?_
  refine ends_plain_bind (performs_persist trivial) (fun e => prepares_error) fun _ => ?_
  refine ends_plain_bind (performs_persist trivial) (fun e => prepares_error) fun _ => ?_
  exact credits_allocate hsender hown

def Collects (connectionId : String) (g g' : Credit) : Except ε (List ServerToWorker) → Prop
  | .ok frames => g'.own = some connectionId ∧ g'.due = List.replicate frames.length connectionId ++ g.due
  | .error _ => True

theorem Prepares.collects
    (hown : g.own = some connectionId) (h : Prepares (.call n) g g' (.ok outbound : Except ε Outbound)) :
    Collects connectionId g g' (.ok (outbound.map Prod.snd).toList : Except ε _) := by
  cases outbound with
  | none =>
    obtain rfl : g' = g := h
    exact ⟨hown, rfl⟩
  | some outbound =>
    obtain ⟨sender, frame⟩ := outbound
    obtain rfl : g' = _ := h
    refine ⟨hown, ?_⟩
    show Caller.dueFor g.own sender (.call n) ++ g.due = _
    rw [Caller.dueFor, hown]
    rfl

theorem Collects.append {g₁ g₂ : Credit} {frames others : List ServerToWorker}
    (h₁ : Collects connectionId g g₁ (.ok frames : Except ε _))
    (h₂ : Collects connectionId g₁ g₂ (.ok others : Except ε _)) :
    Collects connectionId g g₂ (.ok (frames ++ others) : Except ε _) := by
  refine ⟨h₂.1, ?_⟩
  rw [h₂.2, h₁.2, ← List.append_assoc, ← List.replicate_add, List.length_append, Nat.add_comm]

theorem credits_replayAssignment {assignment : AssignmentRecord}
    (hown : g.own = some connectionId) :
    ends (crediting (.call n)) g (replayAssignment workerId assignment) fun g' r => Collects connectionId g g' r := by
  have hsome : ∀ {g' : Credit}, g'.own = some connectionId → (∃ m, Caller.call n = .call m) → g'.own ≠ none :=
    fun h _ => by rw [h]; exact Option.some_ne_none _
  refine ends_bind_cases (credits_prepareAssignment (hsome hown)) (fun _ _ _ => trivial) fun _ _ hfirst => ?_
  have hcollected := hfirst.collects hown
  cases hreason : assignment.cancellationReason with
  | none => exact hcollected
  | some reason =>
    exact ends_bind_cases (credits_prepareCancel (hsome hcollected.1))
      (fun _ _ _ => trivial) fun _ _ hsecond => hcollected.append (hsecond.collects hcollected.1)

theorem credits_replayAssignments {assignments : List AssignmentRecord}
    (hown : g.own = some connectionId) :
    ends (crediting (.call n)) g (replayAssignments workerId assignments)
      fun g' r => Collects connectionId g g' r := by
  induction assignments generalizing g with
  | nil => exact ⟨hown, rfl⟩
  | cons assignment rest ih =>
    refine ends_bind_cases (credits_replayAssignment hown) (fun _ _ _ => trivial) fun _ _ hfirst => ?_
    exact ends_bind_cases (ih hfirst.1) (fun _ _ _ => trivial) fun _ _ hrest => hfirst.append hrest

def Credit.idle : Credit := ⟨none, none, []⟩

theorem credits_register :
    ends (crediting (.call n)) .idle (register hello) fun g' r => ∀ connectionId frames,
      r = .ok (connectionId, frames) →
      g'.own = some connectionId ∧ g'.due = List.replicate frames.length connectionId := by
  refine ends_bind.mpr ⟨⟨n, rfl⟩, fun number g₁ hg₁ => ?_⟩
  obtain rfl : g₁ = _ := hg₁
  have herror : ∀ (e : RepositoryError) (g' : Credit) (connectionId : String) (frames : List ServerToWorker),
      Except.error e = .ok (connectionId, frames) →
        g'.own = some connectionId ∧ g'.due = List.replicate frames.length connectionId := by
    intro e g' connectionId frames h
    cases h
  refine ends_plain_bind (performs_perform trivial) (fun e => herror e _) fun now => ?_
  refine ends_plain_bind (performs_persist trivial) (fun e => herror e _) fun _ => ?_
  refine ends_plain_bind (performs_persist trivial) (fun e => herror e _) fun _ => ?_
  refine ends_plain_bind (performs_persist trivial) (fun e => herror e _) fun _ => ?_
  refine ends_plain_bind (performs_persist trivial) (fun e => herror e _) fun pending => ?_
  refine ends_bind.mpr ⟨⟨⟨n, rfl⟩, rfl, rfl, rfl⟩, fun _ g₂ hg₂ => ?_⟩
  obtain rfl : g₂ = _ := hg₂
  refine ends_bind_cases (credits_replayAssignments rfl) (fun g₃ e _ => herror e g₃) fun _ _ hr => ?_
  rintro connectionId all h
  cases h
  refine ⟨hr.1, hr.2.trans ?_⟩
  rw [List.length_cons, List.replicate_succ']
  rfl

theorem credits_sendAll {frames : List ServerToWorker}
    (hdue : g.due = List.replicate frames.length connectionId) :
    ends (crediting caller) g (sendAll connectionId frames) fun g' _ => g'.own = g.own := by
  induction frames generalizing g with
  | nil => rfl
  | cons frame rest ih =>
    rw [List.length_cons, List.replicate_succ] at hdue
    have hmem : connectionId ∈ g.due := by rw [hdue]; exact List.mem_cons_self
    refine ends_bind.mpr ⟨hmem, fun sent g' hg' => ?_⟩
    obtain rfl : g' = _ := hg'
    cases sent with
    | false => rfl
    | true =>
      refine ends_mono (ih ?_) fun g' r h => h
      show g.due.erase connectionId = _
      rw [hdue, List.erase_cons_head]

theorem credits_openControlStream :
    ends (crediting (.call n)) .idle (openControlStream hello) fun g' r =>
      ∀ connectionId, r = .ok connectionId → g'.own = some connectionId := by
  refine ends_bind.mpr (ends_mapError.mpr (ends_mono credits_register fun g' r hr => ?_))
  cases r with
  | error e =>
    rintro connectionId h
    cases h
  | ok opened =>
    obtain ⟨connectionId, frames⟩ := opened
    obtain ⟨hown, hdue⟩ := hr connectionId frames rfl
    refine ends_bind.mpr (ends_mono (credits_sendAll hdue) fun g'' r hsame => ?_)
    cases r with
    | error e =>
      rintro connectionId h
      cases h
    | ok u =>
      rintro connectionId h
      cases h
      exact hsame.trans hown

theorem credits_deliver {ε' : Type}
    (h : Prepares .request g g' (.ok outbound : Except ε' Outbound)) :
    ends (crediting .request) g' (deliver workerId outbound : ServiceProgram ε Bool) fun _ _ => True := by
  cases outbound with
  | none => trivial
  | some outbound =>
    obtain ⟨sender, message⟩ := outbound
    obtain rfl : g' = _ := h
    refine ends_bind.mpr ⟨List.mem_cons_self, fun sent g'' hg'' => ?_⟩
    cases sent with
    | true => trivial
    | false => exact ⟨trivial, fun _ _ _ => trivial⟩

theorem not_call : ¬ ∃ n, Caller.request = .call n := by
  rintro ⟨n, h⟩
  cases h

theorem credits_cancelAttempt : ends (crediting .request) g (cancelAttempt attemptId reason) fun _ _ => True := by
  refine ends_plain_bind (performs_perform trivial) (fun e => trivial) fun now => ?_
  refine ends_plain_bind (performs_persist trivial) (fun e => trivial) fun cancellation => ?_
  have hrequested : ends (crediting .request) g (do
      let outbound ← prepareCancel cancellation.workerId attemptId reason
      return if ← deliver cancellation.workerId outbound then CancelOutcome.sent else .pending) fun _ _ => True := by
    refine ends_bind_cases (credits_prepareCancel fun h => absurd h not_call) (fun _ _ _ => trivial) fun _ _ hr => ?_
    refine ends_bind.mpr (ends_mono (credits_deliver hr) fun _ r _ => ?_)
    cases r <;> trivial
  split
  · trivial
  · trivial
  · exact hrequested
  · exact hrequested

theorem credits_enqueueAssignment {assignment : Except String AssignmentContract} :
    ends (crediting .request) g (enqueueAssignment workerId assignment) fun _ _ => True := by
  refine ends_bind.mpr (ends_attempt.mpr ?_)
  cases assignment with
  | error detail => trivial
  | ok contract =>
    refine ends_plain_bind (performs_perform trivial) (fun e => trivial) fun now => ?_
    refine ends_plain_bind (performs_persist trivial) (fun e => trivial) fun stored => ?_
    refine ends_plain_bind (performs_require (performs_perform trivial)) (fun e => trivial) fun _ => ?_
    refine ends_plain_bind (performs_require (performs_perform trivial)) (fun e => trivial) fun _ => ?_
    refine ends_plain_bind (performs_perform trivial) (fun e => trivial) fun at_ => ?_
    refine ends_plain_bind (performs_persist trivial) (fun e => trivial) fun becameDispatchable => ?_
    split
    · trivial
    · refine ends_bind.mpr (ends_mapError.mpr (ends_mono
        (credits_prepareAssignment fun h => absurd h not_call) fun g' r hr => ?_))
      cases r with
      | error e => trivial
      | ok outbound =>
        refine ends_bind.mpr (ends_mono (credits_deliver hr) fun _ r _ => ?_)
        cases r <;> trivial

end programs

section stream

variable {workerId connectionId : String} {g : Credit} {o : ServiceOp}

theorem isPlain_of_isObservation (h : o.IsObservation) : IsPlain o := by
  cases o <;> trivial

theorem isPlain_of_isIngestion (h : o.IsIngestion) : IsPlain o := by
  unfold ServiceOp.IsIngestion at h
  split at h
  all_goals first | trivial | exact isPlain_of_isObservation h

variable {frame : WorkerToServer}

theorem returns_ingest :
    Returns (fun r => r = .ok true → isDurable frame = true) (ingest workerId connectionId frame) := by
  have herror : ∀ status : Status, Except.error status = Except.ok true → isDurable frame = true := by
    intro status h
    cases h
  refine returns_bind herror fun _ => returns_bind herror fun found => ?_
  cases found with
  | none => exact herror _
  | some worker =>
    refine returns_bind herror fun _ => returns_bind herror fun nowMs => returns_bind herror fun _ => ?_
    refine returns_bind herror fun accepted => ?_
    cases accepted with
    | none => exact herror _
    | some lastServerSequence =>
      refine returns_bind herror fun _ => returns_bind herror fun _ h => ?_
      have htrue := Except.ok.inj h
      rw [Bool.and_eq_true] at htrue
      exact htrue.2

theorem credits_endStream {status : Status} {R : Credit → Except Status Unit → Prop} (hdue : connectionId ∈ g.due)
    (h : ∀ g' r, R g' r) : ends (crediting (.consumer connectionId)) g (endStream connectionId status) R :=
  ends_bind.mpr ⟨hdue, fun _ _ _ => h _ _⟩

theorem credits_acknowledge {rest : List String} (hdue : g.due = connectionId :: rest) (hrest : connectionId ∈ rest) :
    ends (crediting (.consumer connectionId)) g (acknowledge workerId connectionId) fun g' r =>
      r = .ok true → connectionId ∈ g'.due := by
  have hmem : connectionId ∈ g.due := by rw [hdue]; exact List.mem_cons_self
  have hprepare : ends (crediting (.consumer connectionId)) g (prepareTransportAck workerId connectionId) fun g' r =>
      g' = g ∧ ∀ sender frame, r = .ok (some (sender, frame)) → sender = connectionId := by
    refine ends_locked (ends_bind.mpr ⟨trivial, fun found g' hg' => ?_⟩)
    obtain ⟨hrecord, rfl⟩ := hg'
    refine ends_pure.mpr ?_
    dsimp only
    cases hfound : (found.filter fun record => record.connected).filter
      fun worker => worker.connectionId = connectionId with
    | none => exact ⟨rfl, fun sender frame h => by cases h⟩
    | some worker =>
      obtain ⟨hconnected, hown⟩ := Option.filter_eq_some_iff.mp hfound
      dsimp only
      have hsender := hrecord worker (Option.filter_eq_some_iff.mp hconnected).1
      refine ends_plain_bind (performs_perform trivial) (fun e => ⟨rfl, fun _ _ h => by cases h⟩) fun now => ?_
      refine ends_plain_bind (performs_persist trivial) (fun e => ⟨rfl, fun _ _ h => by cases h⟩) fun _ => ?_
      refine ends_mono (ends_returns (credits_allocate hsender fun h => by cases h.choose_spec) returns_allocate)
        fun g₁ r hr => ?_
      refine ⟨?_, fun sender frame h => (hr.2 sender frame h).trans (hsender.trans (of_decide_eq_true hown))⟩
      have hprepares := hr.1
      unfold Prepares at hprepares
      split at hprepares <;> exact hprepares
  refine ends_bind.mpr (ends_result.mpr (ends_mono hprepare fun g' r hr => ?_))
  obtain ⟨rfl, hsender⟩ := hr
  cases r with
  | error e => exact ends_bind.mpr (credits_endStream hmem fun g' r => by cases r <;> exact fun h => by cases h)
  | ok outbound =>
    cases outbound with
    | none => exact fun h => by cases h
    | some outbound =>
      obtain ⟨sender, message⟩ := outbound
      obtain rfl := hsender sender message rfl
      refine ⟨hmem, fun sent g'' hg'' _ => ?_⟩
      obtain rfl : g'' = _ := hg''
      show sender ∈ g'.due.erase sender
      rw [hdue, List.erase_cons_head]
      exact hrest

theorem credits_consumeFrame {due : List String} (hdue : connectionId ∈ due)
    (hg : g.due = if isDurable frame then connectionId :: due else due) :
    ends (crediting (.consumer connectionId)) g (consumeFrame workerId connectionId frame) fun g' r =>
      r = .ok true → connectionId ∈ g'.due := by
  have hmem : connectionId ∈ g.due := by
    rw [hg]
    split
    · exact List.mem_cons_self
    · exact hdue
  have hended : ∀ status, ends (crediting (.consumer connectionId)) g
      (endStream connectionId status >>= fun _ => pure false) fun g' r => r = .ok true → connectionId ∈ g'.due := by
    refine fun status => ends_bind.mpr (credits_endStream hmem fun g' r => ?_)
    cases r <;> exact fun h => by cases h
  refine ends_plain_bind (performs_perform trivial) (fun e h => by cases h) fun valid => ?_
  cases valid with
  | error status => exact hended status
  | ok u =>
    have hplain : Performs IsPlain (ingest workerId connectionId frame) :=
      performs_mono performs_ingest fun _ => isPlain_of_isIngestion
    refine ends_bind.mpr (ends_result.mpr ?_)
    refine ends_mono (ends_returns (hplain.ends (fun _ => rfl) Eq.trans fun o ho g =>
      crediting_plain ho g) returns_ingest) fun g' r hr => ?_
    obtain ⟨rfl, hdurable⟩ := hr
    rcases r with status | goesOn
    · exact hended status
    · cases goesOn with
      | false => exact fun _ => hmem
      | true =>
        rw [hdurable rfl, if_pos rfl] at hg
        exact credits_acknowledge hg hdue

theorem credits_consumeStream {frames : Nat} (hdue : connectionId ∈ g.due) :
    ends (crediting (.consumer connectionId)) g (consumeStream workerId connectionId frames) fun _ _ => True := by
  have hconsume : ends (crediting (.consumer connectionId)) g (consumeFrames workerId connectionId frames)
      fun _ _ => True := by
    induction frames generalizing g with
    | zero => trivial
    | succ frames ih =>
      refine ends_bind.mpr ⟨rfl, fun received g' hg' => ?_⟩
      rcases received with _ | status | frame
      · trivial
      · obtain rfl : g' = g := hg'
        exact credits_endStream hdue fun _ _ => trivial
      · obtain rfl : g' = _ := hg'
        refine ends_bind.mpr (ends_mono (credits_consumeFrame hdue rfl) fun g' r hr => ?_)
        rcases r with e | goesOn
        · trivial
        · cases goesOn with
          | true => exact ih (hr rfl)
          | false => trivial
  refine ends_bind_cases hconsume (fun _ _ _ => trivial) fun _ _ _ => ?_
  refine ends_plain (performs_bind (performs_perform trivial) fun now => ?_) fun _ => trivial
  exact performs_bind (performs_result (performs_persist trivial)) fun _ => performs_perform trivial

end stream

end AlloyPort.ControlStream
