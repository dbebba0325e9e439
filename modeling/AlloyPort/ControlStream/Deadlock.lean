import AlloyPort.ControlStream.Steps
import AlloyPort.Worker.Failure

/-! The tasks of the control streams step by step: while every connection is given more to carry only when there is room
for it, none of them waits for a channel that nobody drains, and no two of them wait for each other. -/

namespace AlloyPort.ControlStream

open Effect Interleaving Backpressure

variable {buffers : Buffers} {s s' : Link} {log : List LinkEvent} {gs : List Hand} {i : Nat} {g : Hand}
variable {caller : Caller} {o : ServiceOp} {service' : ServiceState} {reply : o.Reply}

theorem plain_commits (ho : IsPlain o) (n : Nat) (c : String) :
    commits n c ⟨i, .serve caller o, reply⟩ = false := by
  cases o with
  | nextConnection | publish | advance | send | receive => exact ho.elim
  | _ => cases caller <;> rfl

theorem plain_kept (ho : IsPlain o)
    (h : Cast s log gs ∧ Owned s gs ∧ Carries buffers s log gs) (hget : gs[i]? = some g)
    (ha : ServiceActs s.service o reply service') :
    let s' := s.served caller o service'
    let log' := log ++ [⟨i, .serve caller o, reply⟩]
    Cast s' log' (gs.set i g) ∧ Owned s' (gs.set i g) ∧ Carries buffers s' log' (gs.set i g) := by
  refine plain_step h hget (plain_undisturbed ho ha) (plain_counter ho ha) ?_ (plain_commits ho)
  rintro w r rfl
  exact ho

theorem serve_kept
    (h : Cast s log gs ∧ Owned s gs ∧ Carries buffers s log gs) (hget : gs[i]? = some g)
    (hpre : linking.pre g (.serve caller o)) (hsend : isSend o = false) (ha : ServiceActs s.service o reply service')
    (hguard : ∀ n c, Loads s n c ⟨i, .serve caller o, reply⟩ →
      Room buffers s (log ++ [⟨i, .serve caller o, reply⟩]) n c) :
    let s' := s.served caller o service'
    let log' := log ++ [⟨i, .serve caller o, reply⟩]
    ∃ g', linking.post g (.serve caller o) reply g' ∧
      Cast s' log' (gs.set i g') ∧ Owned s' (gs.set i g') ∧ Carries buffers s' log' (gs.set i g') := by
  obtain ⟨hrole, hcredit⟩ := hpre
  cases ha with
  | nextConnection => exact ⟨_, ⟨_, rfl, rfl⟩, draw_step h hget⟩
  | publish workerId record =>
    obtain ⟨⟨n, rfl⟩, hreserved, hnone, hsender⟩ := hcredit
    exact ⟨_, ⟨_, rfl, rfl⟩, publish_step h hget hrole hreserved hnone hsender (hguard n _ ⟨rfl, rfl⟩)⟩
  | advanced hmay => exact ⟨_, ⟨_, rfl, rfl⟩, advance_step h hget hrole hmay hguard⟩
  | superseded =>
    refine ⟨g, ⟨_, rfl, rfl⟩, plain_step h hget undisturbed_rfl rfl (by intro _ _ h; cases h) fun n c => ?_⟩
    cases caller <;> rfl
  | received hhead =>
    obtain rfl := hcredit
    exact ⟨_, ⟨_, rfl, rfl⟩, receive_step h hget hrole hhead⟩
  | broken stream reply =>
    refine ⟨g, ⟨_, ?_, rfl⟩, plain_step h hget undisturbed_rfl rfl (by intro _ _ h; cases h) fun n c => ?_⟩
    · cases reply <;> rfl
    · cases caller <;> cases reply <;> rfl
  | sent | notSent => cases hsend
  | worker workerId =>
    exact ⟨g, ⟨_, ⟨fun record hr => (h.2.1.record workerId record hr).1, rfl⟩, rfl⟩,
      plain_kept trivial h hget (.worker _)⟩
  | _ => exact ⟨g, ⟨_, rfl, rfl⟩, plain_kept trivial h hget (by constructor <;> assumption)⟩

theorem finish_step (h : Cast s log gs ∧ Owned s gs ∧ Carries buffers s log gs) (hget : gs[i]? = some g)
    {workerId : String} {active : List String} :
    let s' : Link := { s with active := active }
    let log' := log ++ [⟨i, .finish workerId, ()⟩]
    Cast s' log' (gs.set i g) ∧ Owned s' (gs.set i g) ∧ Carries buffers s' log' (gs.set i g) := by
  obtain ⟨hcast, howned, hcarries⟩ := h
  rw [set_self hget]
  have hburden : burden (log ++ [⟨i, .finish workerId, ()⟩]) = burden log := burden_apart fun _ _ => rfl
  refine ⟨⟨?_, ?_, ?_, ?_, hcast.serving, hcast.called, hcast.consumer, hcast.apart⟩,
    howned.still rfl (fun _ => rfl) rfl howned.due howned.attached,
    hcarries.still rfl (fun _ => rfl) (fun _ => rfl) rfl rfl rfl hburden (fun m c => commitments_append)
      fun c => Nat.le_refl _⟩
  all_goals rw [hburden]
  · exact hcast.session
  · exact hcast.unborn
  · exact hcast.established
  · exact hcast.mute

theorem flowing_kept : (flowing buffers).Kept (linkWorld buffers) (withRoom buffers) where
  act := by
    intro s log gs i g o reply s' h hget hpre ha hguard
    cases ha with
    | begin hactive =>
      obtain rfl := hpre
      exact ⟨_, rfl, begin_step h hget⟩
    | finish workerId =>
      refine ⟨g, rfl, finish_step h hget⟩
    | @work n workerId o reply s' ha =>
      exact ⟨_, rfl, h.1.work hget hpre ha, h.2.1.work hget ha, h.2.2.work h.1 h.2.1 hget hpre ha (hguard n)⟩
    | accept hstage =>
      obtain rfl := hpre
      exact ⟨_, rfl, accept_step h hget hstage⟩
    | serve hsend ha => exact serve_kept h hget hpre hsend ha hguard
    | @sent caller stream frame hopen hroom =>
      refine ⟨_, ⟨_, rfl, rfl⟩, send_step h hget hpre.2 (fun c => ?_) fun c hc => Function.update_of_ne hc ..⟩
      by_cases hc : c = stream
      · subst hc
        simp
      · simp [hc]
    | @notSent caller stream frame =>
      exact ⟨_, ⟨_, rfl, rfl⟩, send_step h hget hpre.2 (fun c => Nat.le_add_right _ _) fun c _ => rfl⟩
    | answer hstage => exact ⟨g, rfl, answer_step h hget hstage⟩
    | attach hnew hstage =>
      obtain rfl := hpre
      refine ⟨_, rfl, attach_step h hget hnew ?_⟩
      rcases hstage with hstage | hstage
      · exact ⟨_, by rw [hstage]; rfl, by rw [hstage]; rfl⟩
      · exact ⟨_, by rw [hstage]; rfl, by rw [hstage]; rfl⟩
  move := by
    intro s log gs s' h hm _
    exact moves_kept h hm
  start := by
    intro s log gs p h hs
    exact ⟨.idle, links_starts hs, h.1.join, h.2.1.join, h.2.2.join⟩

theorem flowing_initial {db : ControlDatabase} {counter : Nat} {journals : String → JournalDatabase} :
    (flowing buffers).Holds (LinkConfig.initial db counter journals) := by
  have hnone : ∀ {P : Hand → Prop}, ∀ g ∈ ([] : List Hand), P g := fun g hg => by cases hg
  have hidle : ∀ {P : Prop} (n : Nat) (c : String),
      ((LinkConfig.initial db counter journals).state.calls n).connection = some c → P := fun n c h => by cases h
  refine ⟨[], .nil, ⟨hnone, fun _ _ => rfl, ?_, fun _ _ => rfl, hnone, hnone, hnone, ?_⟩,
    ⟨⟨?_, ?_, List.nodup_nil⟩, fun n _ c h => hidle n c h, ?_, hnone, ?_⟩,
    ⟨fun _ _ => rfl, fun _ _ => ⟨rfl, rfl, rfl⟩, fun n c h => hidle n c h, fun n c h => hidle n c h⟩⟩
  · intro n c h
    cases h
  · intro i j g g' h
    cases h
  · rintro c ⟨n, h⟩
    exact hidle n c h
  · intro c h
    cases h
  · intro w r h
    cases h
  · intro c h
    cases h

/-- No task waits for a channel that nobody drains, and the two ends of a stream do not wait for each other. -/
theorem control_streams_do_not_deadlock (db : ControlDatabase) (counter : Nat) (journals : String → JournalDatabase)
    (c : LinkConfig) (h : Run (linkWorld buffers) (withRoom buffers) (LinkConfig.initial db counter journals) c) :
    ¬ Deadlocked buffers c :=
  flowing_not_deadlocked (flowing_kept.run flowing_initial h)

def backlogContract (number : Fin 64) : AssignmentContract :=
  { sampleContract with
    assignmentId := ⟨String.singleton (Char.ofNat (48 + number)), by revert number; decide⟩
    attemptId := ⟨String.singleton (Char.ofNat (48 + number)), by revert number; decide⟩ }

def backlog (count : Nat) : ControlDatabase :=
  executeAll
    ([ControlOperation.registerWorker ⟨"worker", "registration"⟩ ⟨"connection", "worker", "boot", 0⟩,
      .disconnect "connection" 0] ++ ((List.finRange 64).take count).reverse.flatMap fun number =>
        [.storeAssignment "worker" (backlogContract number) 0,
          .markAssignmentDispatchable (backlogContract number).attemptId.text "worker" 0]) .empty

def sampleInitial (count : Nat) : LinkConfig := LinkConfig.initial (backlog count) 0 fun _ => .empty

def sampleConnecting (count : Nat) : LinkConfig :=
  { sampleInitial count with tasks := [LinkProgram.session containerWorker 1, LinkProgram.call] }

theorem sampleConnecting_run {guard : Guard Link LinkOp LinkOp.Reply} (count : Nat)
    (hg : guard (sampleInitial count).state [] .start) :
    Run (linkWorld buffers) guard (sampleInitial count) (sampleConnecting count) := by
  refine run_starts (c := sampleInitial count) (fun p hp => ?_) hg
  rcases List.mem_cons.mp hp with rfl | hp
  · exact .session ..
  · rw [List.mem_singleton.mp hp]
    exact .call

def Room.check (buffers : Buffers) (s : Link) (log : List LinkEvent) (n : Nat) : Bool :=
  match (s.calls n).connection with
  | some connectionId => decide (Room buffers s log n connectionId)
  | none => true

theorem Room.of_check {n : Nat} {connectionId : String} (h : Room.check buffers s log n = true)
    (hc : (s.calls n).connection = some connectionId) : Room buffers s log n connectionId := by
  rw [Room.check, hc] at h
  exact of_decide_eq_true h

def mayLoad (buffers : Buffers) (s : Link) (log : List LinkEvent) (e : LinkEvent) : Bool :=
  match e.op with
  | .serve (.call n) (.publish _ record) => decide (Room buffers s (log ++ [e]) n record.connectionId)
  | .serve (.call n) (.advance ..) | .work n .. => Room.check buffers s (log ++ [e]) n
  | .serve .request (.advance ..) => false
  | _ => true

theorem withRoom_of_mayLoad {e : LinkEvent} (h : mayLoad buffers s log e = true) : withRoom buffers s log (.act e) := by
  intro n connectionId hloads
  unfold Loads at hloads
  split at hloads
  · obtain ⟨rfl, rfl⟩ := hloads
    exact of_decide_eq_true h
  · obtain ⟨rfl, hc⟩ := hloads
    exact Room.of_check h hc
  · cases h
  · obtain ⟨rfl, hc⟩ := hloads
    exact Room.of_check h hc
  · obtain ⟨rfl, hc⟩ := hloads
    exact Room.of_check h hc
  · obtain ⟨rfl, hc⟩ := hloads
    exact Room.of_check h hc
  · exact hloads.elim

def roomyPlayer (buffers : Buffers) : Player (linkWorld buffers) (withRoom buffers) where
  perform := Link.perform
  allows := mayLoad buffers
  acts := Link.perform_acts
  guarded _ _ _ h := withRoom_of_mayLoad h

def welcomed (c : LinkConfig) : Bool :=
  decide ((c.state.calls 0).connection = some "connection-0" ∧ (c.state.calls 0).isHanded = true ∧
    (c.state.service.channels "connection-0").length = 2)

theorem control_streams_do_not_deadlock_sample : ∃ c,
    Run (linkWorld ⟨8, 8⟩) (withRoom ⟨8, 8⟩) (LinkConfig.initial (backlog 1) 0 fun _ => .empty) c ∧
      welcomed c = true ∧ ¬ Deadlocked ⟨8, 8⟩ c := by
  have hplay : (((roomyPlayer ⟨8, 8⟩).play (List.replicate 5 0 ++ List.replicate 18 1 ++ [0]) (sampleConnecting 1)).any
      welcomed) = true := by
    decide +kernel
  obtain ⟨c, hrun, hwelcomed⟩ := Player.play_any hplay
  have hrun' := (sampleConnecting_run 1 trivial).trans hrun
  exact ⟨c, hrun', hwelcomed, control_streams_do_not_deadlock _ _ _ c hrun'⟩

def unanswered : Guard Link LinkOp LinkOp.Reply := fun _ _ label => ∀ i n, label ≠ .act ⟨i, .answer n, ()⟩

theorem not_handed {c₀ c : LinkConfig} (h₀ : ∀ n, (c₀.state.calls n).isHanded = false)
    (h : Run (linkWorld buffers) unanswered c₀ c) (n : Nat) : (c.state.calls n).isHanded = false := by
  induction h generalizing n with
  | initial => exact h₀ n
  | @step c _ c' _ hs hg ih =>
    have hupdate : ∀ (m : Nat) (stage : CallStage), stage.isHanded = false →
        (Function.update c.state.calls m stage n).isHanded = false := by
      intro m stage hstage
      by_cases hm : n = m
      · subst hm
        rwa [Function.update_self]
      · rw [Function.update_of_ne hm]
        exact ih n
    cases hs with
    | @act s s' tasks log i o next reply ht ha =>
      cases ha with
      | work ha =>
        rw [(ha.stays n).handed]
        exact ih n
      | accept => exact hupdate _ _ rfl
      | @serve caller o reply service' hsend ha =>
        cases caller with
        | call m =>
          refine hupdate m _ ?_
          cases o with
          | publish workerId record => rfl
          | _ => exact ih m
        | _ => exact ih n
      | @answer m workerId connectionId hstage => exact absurd rfl (hg i m)
      | _ => exact ih n
    | move hm => cases hm <;> exact ih n
    | start => exact ih n

def waitsToSend (connectionId : String) : LinkProgram → Bool
  | .op (.serve _ (.send stream _)) _ => stream = connectionId
  | _ => false

def unansweredPlayer (buffers : Buffers) : Player (linkWorld buffers) unanswered where
  perform := Link.perform
  allows _ _ e := match e.op with
    | .answer _ => false
    | _ => true
  acts := Link.perform_acts
  guarded := by
    rintro s log e h i n heq
    obtain rfl := Label.act.inj heq
    cases h

def filled (c : LinkConfig) : Bool :=
  !c.state.service.closed "connection-0" && decide (c.state.DownFull "connection-0") &&
    c.tasks.any (waitsToSend "connection-0")

theorem filled_spec {c : LinkConfig} (h : filled c = true) : ∃ caller, ServiceWaits c caller "connection-0" := by
  simp only [filled, Bool.and_eq_true, Bool.not_eq_true', decide_eq_true_eq] at h
  obtain ⟨⟨hopen, hfull⟩, hwaits⟩ := h
  obtain ⟨p, hp, hsend⟩ := List.any_eq_true.mp hwaits
  obtain ⟨i, hi⟩ := List.mem_iff_getElem?.mp hp
  unfold waitsToSend at hsend
  split at hsend
  · rename_i caller stream frame next
    obtain rfl := of_decide_eq_true hsend
    exact ⟨caller, i, frame, next, hi, hopen, hfull⟩
  · cases hsend

set_option maxRecDepth 4000 in
def fillingPlay : PLift ((((unansweredPlayer ⟨8, 8⟩).play (List.replicate 5 0 ++ List.replicate 520 1)
    (sampleConnecting 64)).any filled) = true) where
  down := by decide +kernel

/-- The handler has sent as many frames as the channel holds, and waits to send the last one; the stream that would
drain the channel is handed over when all are sent. -/
theorem handshake_waits_for_itself : ∃ c,
    Run (linkWorld ⟨8, 8⟩) (fun _ _ _ => True) (LinkConfig.initial (backlog 64) 0 fun _ => .empty) c ∧
      Deadlocked ⟨8, 8⟩ c := by
  obtain ⟨c, hrun, hfilled⟩ := Player.play_any fillingPlay.down
  have hstart : Run (linkWorld ⟨8, 8⟩) unanswered (sampleInitial 64) (sampleConnecting 64) :=
    sampleConnecting_run 64 fun i n h => by cases h
  have hrun' := hstart.trans hrun
  refine ⟨c, hrun'.mono fun _ _ _ _ => trivial, "connection-0", .inl ⟨filled_spec hfilled, ?_⟩⟩
  rintro ⟨n, _, hhanded⟩
  rw [not_handed (fun n => rfl) hrun' n] at hhanded
  cases hhanded

end AlloyPort.ControlStream
