import AlloyPort.Service.Ingress

/-! The frames of a worker connection. Sequence numbers are allocated in one critical section and the
frames are sent in another; while the sends follow the allocations, the channel carries the frames in
strictly consecutive order from the welcome on, and their acknowledgements never regress. -/

namespace AlloyPort

open Effect Interleaving WorkerControlService

structure Slot where
  connectionId : String
  sequence : Nat
  acknowledges : Nat

def Slot.of (connectionId : String) (frame : ServerToWorker) : Slot :=
  ⟨connectionId, frame.sequence, frame.acknowledgesWorkerThrough⟩

def ServerToWorker.IsWelcome (frame : ServerToWorker) : Prop := ∃ welcome, frame.message = some (.welcome welcome)

/-- What a task carries: the connection it has drawn a name for, the one it has published, the record it
has seen last and the frames it still has to send. -/
structure Carrier where
  reserved : Option String
  own : Option String
  seen : Option (String × WorkerRecord)
  slots : List Slot

def carrying : Contract ServiceOp ServiceOp.Reply Carrier where
  pre
    | g, .publish _ record => g.reserved = some record.connectionId ∧ record.sender = record.connectionId ∧
        record.nextServerSequence = 2 ∧ record.lastWorkerSequence = 1
    | g, .advance workerId connectionId sequence => ∃ record, g.seen = some (workerId, record) ∧
        record.connectionId = connectionId ∧ record.nextServerSequence = sequence
    | g, .send connectionId (.ok frame) => g.slots.head? = some (Slot.of connectionId frame) ∧
        (frame.sequence = 1 → frame.IsWelcome)
    | _, _ => True
  post
    | g, .nextConnection, number, g' => g' = { g with reserved := some (connectionName number) }
    | g, .publish _ record, _, g' => g' = { g with
        reserved := none, own := some record.connectionId, slots := g.slots ++ [⟨record.connectionId, 1, 1⟩] }
    | g, .worker workerId, reply, g' => (∀ record, reply = some record →
        record.sender = record.connectionId ∧ 2 ≤ record.nextServerSequence) ∧
        g' = { g with seen := reply.map (workerId, ·) }
    | g, .advance workerId connectionId sequence, true, g' => (∀ own, g.own = some own → own = connectionId) ∧
        ∃ record, g.seen = some (workerId, record) ∧
          g' = { g with slots := g.slots ++ [⟨connectionId, sequence, record.lastWorkerSequence⟩] }
    | g, .send _ (.ok _), _, g' => g' = { g with slots := g.slots.tail }
    | g, _, _, g' => g' = g

def Carrier.Aside (g g' : Carrier) : Prop := ∃ seen, g' = { g with seen := seen }

namespace Carrier

theorem Aside.refl (g : Carrier) : g.Aside g := ⟨g.seen, rfl⟩

theorem Aside.trans {g g' g'' : Carrier} (h : g.Aside g') (h' : g'.Aside g'') : g.Aside g'' := by
  obtain ⟨_, rfl⟩ := h
  obtain ⟨seen, rfl⟩ := h'
  exact ⟨seen, rfl⟩

theorem Aside.slots {g g' : Carrier} (h : g.Aside g') : g'.slots = g.slots := by
  obtain ⟨_, rfl⟩ := h
  rfl

end Carrier

/-- The operations that neither name a connection nor number or send a frame. -/
def ServiceOp.IsAside : ServiceOp → Prop
  | .nextConnection | .publish .. | .advance .. | .send _ (.ok _) => False
  | _ => True

theorem carrying_aside {o : ServiceOp} (ho : o.IsAside) (g : Carrier) :
    carrying.pre g o ∧ ∀ r g', carrying.post g o r g' → g.Aside g' := by
  cases o with
  | nextConnection | publish | advance => exact ho.elim
  | worker workerId =>
    refine ⟨trivial, ?_⟩
    rintro r g' ⟨_, rfl⟩
    exact ⟨_, rfl⟩
  | send connectionId frame =>
    cases frame with
    | ok frame => exact ho.elim
    | error status =>
      refine ⟨trivial, ?_⟩
      rintro r g' rfl
      exact .refl _
  | _ =>
    refine ⟨trivial, ?_⟩
    rintro r g' rfl
    exact .refl _

theorem ends_aside {ε α : Type} {p : ServiceProgram ε α} {g : Carrier} (h : Performs ServiceOp.IsAside p) :
    ends carrying g p fun g' _ => g.Aside g' :=
  h.ends Carrier.Aside.refl Carrier.Aside.trans fun _ ho g => carrying_aside ho g

/-- What a preparation hands out: nothing, or a frame with its slot. -/
def Prepares {ε : Type} (g g' : Carrier) : Except ε Outbound → Prop
  | .ok (some (sender, frame)) => frame.sequence ≠ 1 ∧ (∀ own, g.own = some own → own = sender) ∧
      g.Aside { g' with slots := g.slots } ∧ g'.slots = g.slots ++ [Slot.of sender frame]
  | _ => g.Aside g'

section programs

variable {ε : Type} {g : Carrier}
variable {α ε' : Type} {reason workerId attemptId connectionId : String} {o : ServiceOp} {g' g₁ : Carrier}
  {R : Carrier → Except ε α → Prop} {outbound : Outbound} {hello : WorkerHello}

theorem ends_withDelivery {body : ServiceProgram ε α}
    (h : ends carrying g body R) : ends carrying g (withDelivery body) R := by
  refine ends_bind.mpr ⟨trivial, fun _ g₁ hg₁ => ?_⟩
  obtain rfl : g₁ = g := hg₁
  refine ends_bind.mpr (ends_result.mpr (ends_mono h fun g₂ r hr => ?_))
  refine ends_bind.mpr ⟨trivial, fun _ g₃ hg₃ => ?_⟩
  obtain rfl : g₃ = g₂ := hg₃
  exact ends_attempt.mpr hr

theorem ends_allocate {messageId : String} {message : ServerMessage} {record : WorkerRecord}
    (hs : g.seen = some (workerId, record)) (hsender : record.sender = record.connectionId)
    (hnext : 2 ≤ record.nextServerSequence) :
    ends carrying g (allocate workerId record messageId message : ServiceProgram ε Outbound) fun g' r =>
      Prepares g g' r := by
  refine ⟨⟨record, hs, rfl, rfl⟩, fun advanced g' hg' => ?_⟩
  cases advanced with
  | false =>
    obtain rfl : g' = g := hg'
    exact .refl g'
  | true =>
    obtain ⟨hown, record', hs', rfl⟩ := hg'
    obtain rfl : record = record' := by
      rw [hs] at hs'
      exact (Prod.mk.inj (Option.some.inj hs')).2
    refine ⟨?_, fun own hg => (hown own hg).trans hsender.symm, ⟨g.seen, rfl⟩, ?_⟩
    · show record.nextServerSequence ≠ 1
      omega
    · rw [hsender]
      rfl

theorem ends_persist {operation : ControlOperation} {raise : RepositoryError → ε}
    {f : operation.Result → ServiceProgram ε α} (herror : ∀ e, R g (.error e))
    (h : ∀ a, ends carrying g (f a) R) : ends carrying g (persist operation raise >>= f) R := by
  refine ends_bind.mpr ⟨trivial, fun reply g' hg' => ?_⟩
  obtain rfl : g' = g := hg'
  cases reply with
  | ok a => exact h a
  | error e => exact herror (raise e)

theorem ends_connectedWorker :
    ends carrying g (connectedWorker workerId : ServiceProgram ε _) fun g' r => g.Aside g' ∧
      ∃ found, r = .ok found ∧ ∀ record, found = some record → g'.seen = some (workerId, record) ∧
        record.sender = record.connectionId ∧ 2 ≤ record.nextServerSequence := by
  refine ⟨trivial, ?_⟩
  rintro reply g' ⟨hrecord, rfl⟩
  refine ⟨⟨_, rfl⟩, _, rfl, fun record hfound => ?_⟩
  obtain ⟨hreply, _⟩ := Option.filter_eq_some_iff.mp hfound
  exact ⟨by rw [hreply]; rfl, hrecord record hreply⟩

theorem Prepares.of_aside {r : Except ε Outbound} (h : g.Aside g₁) (hp : Prepares g₁ g' r) : Prepares g g' r := by
  obtain ⟨seen, rfl⟩ := h
  unfold Prepares at hp ⊢
  split <;> simp only at hp
  · obtain ⟨hsequence, hown, haside, hslots⟩ := hp
    exact ⟨hsequence, hown, ((Carrier.Aside.trans ⟨seen, rfl⟩) haside), hslots⟩
  · exact Carrier.Aside.trans ⟨seen, rfl⟩ hp

theorem ends_prepare {k : Option WorkerRecord → ServiceProgram ε Outbound}
    (hnone : ∀ g', ends carrying g' (k none) fun g'' r => Prepares g' g'' r)
    (hk : ∀ g₁ record, g₁.seen = some (workerId, record) → record.sender = record.connectionId →
      2 ≤ record.nextServerSequence → ends carrying g₁ (k (some record)) fun g' r => Prepares g₁ g' r) :
    ends carrying g (withDelivery (connectedWorker workerId >>= k)) fun g' r => Prepares g g' r := by
  refine ends_withDelivery (ends_bind.mpr (ends_mono ends_connectedWorker ?_))
  rintro g₁ r ⟨haside, found, rfl, hfound⟩
  cases found with
  | none => exact ends_mono (hnone g₁) fun g' r => Prepares.of_aside haside
  | some record =>
    obtain ⟨hseen, hsender, hnext⟩ := hfound record rfl
    exact ends_mono (hk g₁ record hseen hsender hnext) fun g' r => Prepares.of_aside haside

theorem prepares_error {e : ε} : Prepares g g (.error e) := .refl g

theorem ends_prepareAssignment :
    ends carrying g (prepareAssignment workerId attemptId) fun g' r => Prepares g g' r := by
  refine ends_prepare (fun g' => .refl g') fun g₁ record hseen hsender hnext => ?_
  refine ends_still ⟨trivial, fun _ _ h => h⟩ fun lease => ?_
  refine ends_still ⟨trivial, fun _ _ h => h⟩ fun now => ?_
  exact ends_persist (fun e => prepares_error) fun contract => ends_allocate hseen hsender hnext

theorem ends_prepareCancel :
    ends carrying g (prepareCancel workerId attemptId reason) fun g' r => Prepares g g' r := by
  refine ends_prepare (fun g' => .refl g') fun g₁ record hseen hsender hnext => ?_
  refine ends_still ⟨trivial, fun _ _ h => h⟩ fun now => ?_
  refine ends_persist (fun e => prepares_error) fun _ => ?_
  exact ends_persist (fun e => prepares_error) fun _ => ends_allocate hseen hsender hnext

theorem ends_prepareTransportAck :
    ends carrying g (prepareTransportAck workerId connectionId) fun g' r => Prepares g g' r := by
  refine ends_prepare (fun g' => .refl g') fun g₁ record hseen hsender hnext => ?_
  cases hselected : (some record).filter fun worker => worker.connectionId = connectionId with
  | none =>
    simp only
    exact .refl g₁
  | some worker =>
    obtain rfl : record = worker := by simpa using (Option.filter_eq_some_iff.mp hselected).1
    simp only
    refine ends_still ⟨trivial, fun _ _ h => h⟩ fun now => ?_
    exact ends_persist (fun e => prepares_error) fun _ => ends_allocate hseen hsender hnext

/-- Frames collected for the task's own connection, with their slots. -/
def Collects (connectionId : String) (g g' : Carrier) : Except ε (List ServerToWorker) → Prop
  | .ok frames => g'.own = some connectionId ∧ g'.slots = g.slots ++ frames.map (Slot.of connectionId) ∧
      ∀ frame ∈ frames, frame.sequence ≠ 1
  | .error _ => True

theorem Prepares.collects (hown : g.own = some connectionId)
    (h : Prepares g g' (.ok outbound : Except ε Outbound)) :
    Collects connectionId g g' (.ok (outbound.map Prod.snd).toList : Except ε _) := by
  cases outbound with
  | none =>
    obtain ⟨_, rfl⟩ := h
    exact ⟨hown, by simp, by simp⟩
  | some outbound =>
    obtain ⟨sender, frame⟩ := outbound
    obtain ⟨hsequence, hsame, ⟨seen, haside⟩, hslots⟩ := h
    obtain rfl := hsame connectionId hown
    refine ⟨?_, by simp [hslots], by simpa using hsequence⟩
    have hfields := congrArg Carrier.own haside
    exact hfields.trans hown

theorem Collects.append {g₂ : Carrier} {frames others : List ServerToWorker}
    (h₁ : Collects connectionId g g₁ (.ok frames : Except ε _))
    (h₂ : Collects connectionId g₁ g₂ (.ok others : Except ε _)) :
    Collects connectionId g g₂ (.ok (frames ++ others) : Except ε _) := by
  refine ⟨h₂.1, by rw [h₂.2.1, h₁.2.1, List.map_append, List.append_assoc], fun frame hm => ?_⟩
  rcases List.mem_append.mp hm with hm | hm
  · exact h₁.2.2 frame hm
  · exact h₂.2.2 frame hm

theorem ends_replayAssignment {assignment : AssignmentRecord} (hown : g.own = some connectionId) :
    ends carrying g (replayAssignment workerId assignment) fun g' r => Collects connectionId g g' r := by
  refine ends_bind_cases ends_prepareAssignment (fun _ _ _ => trivial) fun _ _ hfirst => ?_
  have hcollected := hfirst.collects hown
  cases hreason : assignment.cancellationReason with
  | none => exact hcollected
  | some reason =>
    exact ends_bind_cases ends_prepareCancel
      (fun _ _ _ => trivial) fun _ _ hsecond => hcollected.append (hsecond.collects hcollected.1)

theorem ends_replayAssignments {assignments : List AssignmentRecord} (hown : g.own = some connectionId) :
    ends carrying g (replayAssignments workerId assignments) fun g' r => Collects connectionId g g' r := by
  induction assignments generalizing g with
  | nil => exact ⟨hown, by simp, by simp⟩
  | cons assignment rest ih =>
    refine ends_bind_cases (ends_replayAssignment hown) (fun _ _ _ => trivial) fun _ _ hfirst => ?_
    exact ends_bind_cases (ih hfirst.1) (fun _ _ _ => trivial) fun _ _ hrest => hfirst.append hrest

def Carrier.idle : Carrier := ⟨none, none, none, []⟩

theorem ends_register :
    ends carrying .idle (register hello) fun g' r => ∀ connectionId frames, r = .ok (connectionId, frames) →
      g'.slots = frames.map (Slot.of connectionId) ∧ ∀ frame ∈ frames, frame.sequence = 1 → frame.IsWelcome := by
  refine ends_bind.mpr ⟨trivial, fun number g₁ hg₁ => ?_⟩
  obtain rfl : g₁ = _ := hg₁
  refine ends_still ⟨trivial, fun _ _ h => h⟩ fun now => ?_
  refine ends_persist (fun e connectionId frames h => by cases h) fun _ => ?_
  refine ends_persist (fun e connectionId frames h => by cases h) fun _ => ?_
  refine ends_persist (fun e connectionId frames h => by cases h) fun _ => ?_
  refine ends_persist (fun e connectionId frames h => by cases h) fun pending => ?_
  refine ends_bind.mpr ⟨⟨rfl, rfl, rfl, rfl⟩, fun _ g₂ hg₂ => ?_⟩
  have hown : g₂.own = some (connectionName number) := by
    rw [hg₂]
    rfl
  refine ends_bind_cases (ends_replayAssignments hown)
    (fun _ _ _ => fun connectionId frames h => by cases h) fun _ _ hr => ?_
  rintro connectionId all h
  cases h
  refine ⟨?_, fun frame hm hone => ?_⟩
  · rw [hr.2.1, hg₂]
    rfl
  · rcases List.mem_cons.mp hm with rfl | hm
    · exact ⟨_, rfl⟩
    · exact absurd hone (hr.2.2 frame hm)

theorem ends_sendAll {frames : List ServerToWorker} (hslots : g.slots = frames.map (Slot.of connectionId))
    (hwelcome : ∀ frame ∈ frames, frame.sequence = 1 → frame.IsWelcome) :
    ends carrying g (sendAll connectionId frames) fun _ _ => True := by
  induction frames generalizing g with
  | nil => trivial
  | cons frame rest ih =>
    refine ends_bind.mpr ⟨⟨by simp [hslots], hwelcome frame List.mem_cons_self⟩, fun sent g' hg' => ?_⟩
    cases sent with
    | false => trivial
    | true =>
      refine ih ?_ fun frame hm => hwelcome frame (List.mem_cons_of_mem _ hm)
      obtain rfl : g' = _ := hg'
      simp [hslots]

theorem ends_openControlStream :
    ends carrying .idle (openControlStream hello) fun _ _ => True := by
  refine ends_bind_mapError ends_register (fun _ _ _ => trivial) fun _ opened hr => ?_
  obtain ⟨connectionId, frames⟩ := opened
  obtain ⟨hslots, hwelcome⟩ := hr connectionId frames rfl
  refine ends_bind.mpr (ends_mono (ends_sendAll hslots hwelcome) fun g'' r _ => ?_)
  cases r <;> trivial

theorem Prepares.sends {sender : String} {frame : ServerToWorker} (hidle : g.slots = [])
    (h : Prepares g g' (.ok (some (sender, frame)) : Except ε Outbound)) :
    carrying.pre g' (.send sender (.ok frame)) ∧ g'.slots.tail = [] := by
  obtain ⟨hsequence, _, _, hslots⟩ := h
  rw [hidle, List.nil_append] at hslots
  refine ⟨⟨by rw [hslots]; rfl, fun hone => absurd hone hsequence⟩, by rw [hslots]; rfl⟩

theorem ends_deliver (hidle : g.slots = [])
    (h : Prepares g g' (.ok outbound : Except ε' Outbound)) :
    ends carrying g' (deliver workerId outbound : ServiceProgram ε Bool) fun _ _ => True := by
  cases outbound with
  | none => trivial
  | some outbound =>
    refine ends_bind.mpr ⟨(h.sends hidle).1, fun sent g'' hg'' => ?_⟩
    cases sent with
    | true => trivial
    | false => exact ⟨trivial, fun _ _ _ => trivial⟩

theorem ends_cancelAttempt (hidle : g.slots = []) :
    ends carrying g (cancelAttempt attemptId reason) fun _ _ => True := by
  refine ends_still ⟨trivial, fun _ _ h => h⟩ fun now => ?_
  refine ends_persist (fun e => trivial) fun cancellation => ?_
  have hrequested : ends carrying g (do
      let outbound ← prepareCancel cancellation.workerId attemptId reason
      return if ← deliver cancellation.workerId outbound then CancelOutcome.sent else .pending) fun _ _ => True := by
    refine ends_bind_cases ends_prepareCancel (fun _ _ _ => trivial) fun _ _ hr => ?_
    refine ends_bind.mpr (ends_mono (ends_deliver hidle hr) fun _ r _ => ?_)
    cases r <;> trivial
  split
  · trivial
  · trivial
  · exact hrequested
  · exact hrequested

theorem ends_require {raise : ε' → ε}
    {reply : ServiceProgram ε (Except ε' Unit)} {f : Unit → ServiceProgram ε α}
    (hreply : Performs ServiceOp.IsAside reply) (herror : ∀ g' e, R g' (.error e))
    (h : ∀ g', g.Aside g' → ends carrying g' (f ()) R) : ends carrying g (require reply raise >>= f) R := by
  refine ends_bind.mpr (ends_bind.mpr (ends_mono (ends_aside hreply) fun g' r haside => ?_))
  cases r with
  | error e => exact herror g' e
  | ok reply =>
    cases reply with
    | error e => exact herror g' _
    | ok u => exact h g' haside

theorem ends_enqueueAssignment {assignment : Except String AssignmentContract}
    (hidle : g.slots = []) : ends carrying g (enqueueAssignment workerId assignment) fun _ _ => True := by
  refine ends_bind.mpr (ends_attempt.mpr ?_)
  cases assignment with
  | error detail => trivial
  | ok contract =>
    refine ends_still ⟨trivial, fun _ _ h => h⟩ fun now => ?_
    refine ends_persist (fun e => trivial) fun stored => ?_
    refine ends_require (performs_perform trivial) (fun _ _ => trivial) fun g₁ h₁ => ?_
    refine ends_require (performs_perform trivial) (fun _ _ => trivial) fun g₂ h₂ => ?_
    have hidle : g₂.slots = [] := h₂.slots.trans (h₁.slots.trans hidle)
    refine ends_still ⟨trivial, fun _ _ h => h⟩ fun at_ => ?_
    refine ends_persist (fun e => trivial) fun becameDispatchable => ?_
    split
    · trivial
    · refine ends_bind_mapError ends_prepareAssignment (fun _ _ _ => trivial) fun _ _ hr => ?_
      refine ends_bind.mpr (ends_mono (ends_deliver hidle hr) fun _ r _ => ?_)
      cases r <;> trivial

theorem isAside_of_isReading (h : o.IsReading) : o.IsAside := by
  unfold ServiceOp.IsReading ServiceOp.IsIngestion ServiceOp.IsObservation at h
  unfold ServiceOp.IsAside
  split <;> simp_all

theorem ends_idle {p : ServiceProgram ε α} (hidle : g.slots = []) (h : Performs ServiceOp.IsAside p) :
    ends carrying g p fun g' _ => g'.slots = [] :=
  ends_mono (ends_aside h) fun _ _ haside => haside.slots.trans hidle

theorem ends_acknowledge (hidle : g.slots = []) :
    ends carrying g (acknowledge workerId connectionId) fun g' _ => g'.slots = [] := by
  refine ends_bind.mpr (ends_result.mpr (ends_mono ends_prepareTransportAck fun g' r hr => ?_))
  cases r with
  | error e => exact ends_idle (hr.slots.trans hidle) (performs_bind (performs_endStream trivial) fun _ => trivial)
  | ok outbound =>
    cases outbound with
    | none => exact hr.slots.trans hidle
    | some outbound =>
      refine ⟨(hr.sends hidle).1, fun _ g'' hg'' => ?_⟩
      rw [hg'']
      exact (hr.sends hidle).2

theorem ends_program (request : ServiceRequest) : ends carrying .idle request.program fun _ _ => True := by
  cases request with
  | register hello =>
    refine ends_bind.mpr (ends_mapError.mpr (ends_mono ends_register fun _ r _ => ?_))
    cases r <;> trivial
  | openControlStream hello =>
    refine ends_bind.mpr (ends_mapError.mpr (ends_mono ends_openControlStream fun _ r _ => ?_))
    cases r <;> trivial
  | consumeStream workerId connectionId frames =>
    have hconsumed : ends carrying .idle (WorkerControlService.consumeStream workerId connectionId frames) fun g' _ =>
        g'.slots = [] :=
      ends_consumeStream (fun _ ho g => (carrying_aside (isAside_of_isReading ho) g).imp_right fun h r g' hr hidle =>
        (h r g' hr).slots.trans hidle) (fun _ hidle => ends_acknowledge hidle) rfl
    refine ends_bind.mpr (ends_mapError.mpr (ends_mono hconsumed fun _ r _ => ?_))
    cases r <;> trivial
  | enqueueAssignment workerId assignment =>
    refine ends_bind.mpr (ends_mapError.mpr (ends_mono (ends_enqueueAssignment rfl) fun _ r _ => ?_))
    cases r <;> trivial
  | cancelAttempt attemptId reason =>
    refine ends_bind.mpr (ends_mapError.mpr (ends_mono (ends_cancelAttempt rfl) fun _ r _ => ?_))
    cases r <;> trivial

end programs

end AlloyPort
