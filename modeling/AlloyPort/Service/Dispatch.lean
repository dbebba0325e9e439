import AlloyPort.Service.Channel
import AlloyPort.Service.Errand

/-! Dispatch and registration. An enqueue makes an assignment replayable and then looks for its worker's
connection, while a registration reads the replayable assignments and then publishes one. An assignment
that is neither read nor brought to the published connection is lost. -/

namespace AlloyPort

open Effect Interleaving ServiceState

def Publishes : ServiceEvent → String → Prop
  | ⟨_, .publish _ record, _⟩, connectionId => record.connectionId = connectionId
  | _, _ => False

def DispatchedBy : ServiceEvent → String → String → Prop
  | ⟨_, .persist operation, reply⟩, workerId, attemptId => Marks ⟨operation, reply⟩ workerId attemptId
  | _, _, _ => False

/-- Every connection in the memory of the service or of a task has been published. -/
structure Published (counter : Nat) (workers : Workers) (log : List ServiceEvent) (gs : List Courier) : Prop where
  named : Named counter (gs.map (·.reserved)) fun c => ∃ e ∈ log, Publishes e c
  record : ∀ w r, workers.lookup w = some r → r.sender = r.connectionId ∧ ∃ e ∈ log, Publishes e r.connectionId
  seen : ∀ g ∈ gs, ∀ w r, g.seen = some (w, r) → ∃ e ∈ log, Publishes e r.connectionId

/-- One task at a time prepares a frame, and no one else numbers a frame of the connection it has seen. -/
structure Locking (delivering : Bool) (workers : Workers) (gs : List Courier) : Prop where
  held : ∀ g ∈ gs, g.locked = true → delivering = true
  alone : ∀ (i j : Nat) g g', gs[i]? = some g → gs[j]? = some g' → g.locked = true → g'.locked = true → i = j
  current : ∀ g ∈ gs, g.locked = true → ∀ w r, g.seen = some (w, r) → ∀ r', workers.lookup w = some r' →
    r'.connectionId = r.connectionId → r'.nextServerSequence = r.nextServerSequence

structure Errand.Serves (errand : Errand) (workerId attemptId connectionId : String) : Prop where
  worker : errand.worker = workerId
  attempt : errand.attempt = attemptId
  target : errand.target = none ∨ errand.target = some connectionId

/-- What is replayable was read by the registration, or has been dispatched since. -/
def Loaded (db : ControlDatabase) (log : List ServiceEvent) (i : Nat) (workerId : String) (attempts : List String) :
    Prop :=
  ∃ before after reply, log = before ++ ⟨i, .persist (.replayableAssignments workerId), reply⟩ :: after ∧ ∀ attemptId,
    db.Replayable workerId attemptId → attemptId ∈ attempts ∨ ∃ e ∈ after, DispatchedBy e workerId attemptId

/-- The errand comes from the connection the task has published or from its dispatch. -/
def Errand.From (errand : Errand) (log : List ServiceEvent) (i : Nat) : Prop :=
  (∃ r, (⟨i, .publish errand.worker r, ()⟩ : ServiceEvent) ∈ log ∧ errand.target = some r.connectionId) ∨ ∃ atMs,
    (⟨i, .persist (.markAssignmentDispatchable errand.attempt errand.worker atMs), .ok true⟩ : ServiceEvent) ∈ log

structure Owing (s : ServiceState) (log : List ServiceEvent) (gs : List Courier) : Prop where
  stored : ∃ log, ControlRun log s.db
  loaded : ∀ (i : Nat) g w attempts, gs[i]? = some g → g.loaded = some (w, attempts) → Loaded s.db log i w attempts
  origin : ∀ (i : Nat) g, gs[i]? = some g → ∀ errand ∈ g.owes, errand.From log i
  waiting : ∀ e ∈ log, ∀ w attemptId, DispatchedBy e w attemptId →
    (∃ found, (⟨e.task, .worker w, found⟩ : ServiceEvent) ∈ log) ∨
      ∃ g, gs[e.task]? = some g ∧ ⟨w, attemptId, none⟩ ∈ g.owes
  covered : ∀ w r attemptId, s.workers.lookup w = some r → r.connected = true → s.db.Replayable w attemptId →
    Covers (frames (s.channels r.connectionId)) attemptId ∨
      ∃ g ∈ gs, ∃ errand ∈ g.owes, errand.Serves w attemptId r.connectionId

structure Couriers (s : ServiceState) (log : List ServiceEvent) (gs : List Courier) : Prop where
  published : Published s.connectionCounter s.workers log gs
  locking : Locking s.delivering s.workers gs
  owing : Owing s log gs

def dispatching : Scheme ServiceState ServiceOp ServiceOp.Reply ServiceFailure ServiceReply Courier where
  contract := couriering
  final g r := Discharged g.owes r
  invariant := Couriers

/-- A registration publishes its connection only while no enqueue that has dispatched an assignment since the
registration read the replayable ones has already looked for a connection. -/
def inSight : Guard ServiceState ServiceOp ServiceOp.Reply := fun _ log label =>
  match label with
  | .act ⟨i, .publish workerId _, _⟩ => ∀ before after reply,
      log = before ++ ⟨i, .persist (.replayableAssignments workerId), reply⟩ :: after →
      ∀ e ∈ after, ∀ attemptId, DispatchedBy e workerId attemptId →
        ∀ found, (⟨e.task, .worker workerId, found⟩ : ServiceEvent) ∉ log
  | _ => True

section steps

variable {s s' : ServiceState} {log : List ServiceEvent} {gs : List Courier} {i : Nat} {g g' : Courier}
  {e : ServiceEvent}

section loaded

variable {db db' : ControlDatabase} {workerId : String} {attempts : List String}

theorem Loaded.step (h : Loaded db log i workerId attempts)
    (hdb : ∀ w attemptId, db'.Replayable w attemptId → db.Replayable w attemptId ∨ DispatchedBy e w attemptId) :
    Loaded db' (log ++ [e]) i workerId attempts := by
  obtain ⟨before, after, reply, rfl, hread⟩ := h
  refine ⟨before, after ++ [e], reply, by simp, fun attemptId hr => ?_⟩
  rcases hdb workerId attemptId hr with hr | hd
  · refine (hread attemptId hr).imp_right ?_
    rintro ⟨e', he', hd⟩
    exact ⟨e', List.mem_append_left _ he', hd⟩
  · exact .inr ⟨e, by simp, hd⟩

theorem Errand.From.step {errand : Errand} (h : errand.From log i) : errand.From (log ++ [e]) i := by
  rcases h with ⟨r, hm, htarget⟩ | ⟨atMs, hm⟩
  · exact .inl ⟨r, List.mem_append_left _ hm, htarget⟩
  · exact .inr ⟨atMs, List.mem_append_left _ hm⟩

theorem Errand.From.thin {errand before : Errand} (h : before.From log i) (hw : before.worker = errand.worker)
    (ha : before.attempt = errand.attempt) (ht : before.target = none ∨ before.target = errand.target) :
    errand.From log i := by
  rcases h with ⟨r, hm, htarget⟩ | ⟨atMs, hm⟩
  · refine .inl ⟨r, hw ▸ hm, ?_⟩
    rcases ht with ht | ht
    · rw [htarget] at ht
      cases ht
    · rw [← ht, htarget]
  · exact .inr ⟨atMs, hw ▸ ha ▸ hm⟩

end loaded

structure Changed (db' : ControlDatabase) (i : Nat) (e : ServiceEvent) (g g' : Courier) : Prop where
  loaded : ∀ w attempts, g'.loaded = some (w, attempts) → g.loaded = some (w, attempts) ∨
    (∃ reply, e = ⟨i, .persist (.replayableAssignments w), reply⟩) ∧
      ∀ attemptId, db'.Replayable w attemptId → attemptId ∈ attempts
  origin : ∀ errand ∈ g'.owes, (∃ before ∈ g.owes, before.worker = errand.worker ∧ before.attempt = errand.attempt ∧
    (before.target = none ∨ before.target = errand.target)) ∨ errand.From [e] i
  waiting : ∀ w attemptId, ⟨w, attemptId, none⟩ ∈ g.owes ∨ DispatchedBy e w attemptId →
    ⟨w, attemptId, none⟩ ∈ g'.owes ∨ ∃ found, e = ⟨i, .worker w, found⟩

theorem Owing.step (h : Owing s log gs) (hget : gs[i]? = some g) (hi : e.task = i)
    (hstored : ∃ log, ControlRun log s'.db)
    (hdb : ∀ w attemptId, s'.db.Replayable w attemptId → s.db.Replayable w attemptId ∨ DispatchedBy e w attemptId)
    (hg : Changed s'.db i e g g')
    (hcovered : ∀ w r attemptId, s'.workers.lookup w = some r → r.connected = true → s'.db.Replayable w attemptId →
      Covers (frames (s'.channels r.connectionId)) attemptId ∨
        ∃ g₁ ∈ gs.set i g', ∃ errand ∈ g₁.owes, errand.Serves w attemptId r.connectionId) :
    Owing s' (log ++ [e]) (gs.set i g') where
  stored := hstored
  loaded j g₁ w attempts hg₁ hl := by
    rcases getElem?_set_cases hg₁ with ⟨rfl, rfl⟩ | ⟨_, hg₁⟩
    · rcases hg.loaded w attempts hl with hl | ⟨⟨reply, rfl⟩, hread⟩
      · exact (h.loaded i g w attempts hget hl).step hdb
      · exact ⟨log, [], reply, rfl, fun attemptId hr => .inl (hread attemptId hr)⟩
    · exact (h.loaded j g₁ w attempts hg₁ hl).step hdb
  origin j g₁ hg₁ errand hm := by
    rcases getElem?_set_cases hg₁ with ⟨rfl, rfl⟩ | ⟨_, hg₁⟩
    · rcases hg.origin errand hm with ⟨before, hbefore, hw, ha, ht⟩ | hnew
      · exact ((h.origin i g hget before hbefore).thin hw ha ht).step
      · rcases hnew with ⟨r, hr, htarget⟩ | ⟨atMs, hr⟩
        · exact .inl ⟨r, List.mem_append_right _ hr, htarget⟩
        · exact .inr ⟨atMs, List.mem_append_right _ hr⟩
    · exact (h.origin j g₁ hg₁ errand hm).step
  waiting e' he' w attemptId hd := by
    have hown : ⟨w, attemptId, none⟩ ∈ g.owes ∨ DispatchedBy e w attemptId →
        (∃ found, (⟨i, .worker w, found⟩ : ServiceEvent) ∈ log ++ [e]) ∨
          ∃ g₁, (gs.set i g')[i]? = some g₁ ∧ ⟨w, attemptId, none⟩ ∈ g₁.owes := by
      intro hd
      rcases hg.waiting w attemptId hd with hm | ⟨found, rfl⟩
      · exact .inr ⟨g', getElem?_set_self hget, hm⟩
      · exact .inl ⟨found, by simp⟩
    rcases List.mem_append.mp he' with he' | he'
    · rcases h.waiting e' he' w attemptId hd with ⟨found, hm⟩ | ⟨g₁, hg₁, hm⟩
      · exact .inl ⟨found, List.mem_append_left _ hm⟩
      · by_cases hsame : i = e'.task
        · subst hsame
          obtain rfl : g = g₁ := by rw [hget] at hg₁; exact Option.some.inj hg₁
          exact hown (.inl hm)
        · exact .inr ⟨g₁, by rw [List.getElem?_set_ne hsame, hg₁], hm⟩
    · obtain rfl : e' = e := List.mem_singleton.mp he'
      rw [hi]
      exact hown (.inr hd)
  covered := hcovered

variable {c w : String} {f : WorkerRecord → WorkerRecord} {workers workers' : Workers} {n : Nat}

theorem Owing.covered_step (h : Owing s log gs) (hget : gs[i]? = some g)
    (hback : ∀ w r', s'.workers.lookup w = some r' → r'.connected = true →
      ∃ r, s.workers.lookup w = some r ∧ r.connected = true ∧ r'.connectionId = r.connectionId)
    (hchannels : ∀ c, ∀ frame ∈ frames (s.channels c), frame ∈ frames (s'.channels c))
    (hkeep : ∀ errand ∈ g.owes, ∀ r', s'.workers.lookup errand.worker = some r' → r'.connected = true →
      errand.target = none ∨ errand.target = some r'.connectionId →
      Covers (frames (s'.channels r'.connectionId)) errand.attempt ∨
        ∃ errand' ∈ g'.owes, errand'.Serves errand.worker errand.attempt r'.connectionId) {r : WorkerRecord}
        {attemptId : String} (hr : s'.workers.lookup w = some r) (hconn : r.connected = true)
    (hreplayable : s.db.Replayable w attemptId) :
    Covers (frames (s'.channels r.connectionId)) attemptId ∨
      ∃ g₁ ∈ gs.set i g', ∃ errand ∈ g₁.owes, errand.Serves w attemptId r.connectionId := by
  obtain ⟨r₀, hr₀, hconn₀, hsame⟩ := hback w r hr hconn
  rcases h.covered w r₀ attemptId hr₀ hconn₀ hreplayable with ⟨frame, hm, ha⟩ | ⟨g₁, hg₁, errand, hm, hserves⟩
  · exact .inl ⟨frame, hchannels _ frame (hsame ▸ hm), ha⟩
  · rw [← hsame] at hserves
    obtain ⟨j, hj⟩ := List.mem_iff_getElem?.mp hg₁
    by_cases hij : i = j
    · subst hij
      obtain rfl : g = g₁ := by rw [hget] at hj; exact Option.some.inj hj
      obtain ⟨rfl, rfl, htarget⟩ := hserves
      rcases hkeep errand hm r hr hconn htarget with hcovers | ⟨errand', hm', hserves'⟩
      · exact .inl hcovers
      · exact .inr ⟨g', List.mem_of_getElem? (getElem?_set_self hget), errand', hm', hserves'⟩
    · refine .inr ⟨g₁, List.mem_of_getElem? (i := j) ?_, errand, hm, hserves⟩
      rw [List.getElem?_set_ne hij, hj]

/-- The records keep their connections and the numbers of their frames, and none comes back. -/
def Evolves (workers workers' : Workers) : Prop :=
  ∀ w r', workers'.lookup w = some r' → ∃ r, workers.lookup w = some r ∧ r'.sender = r.sender ∧
    r'.connectionId = r.connectionId ∧ r'.nextServerSequence = r.nextServerSequence ∧
    (r'.connected = true → r.connected = true)

theorem Evolves.refl (workers : Workers) : Evolves workers workers := fun _ r hr => ⟨r, hr, rfl, rfl, rfl, id⟩

theorem evolves_updateRecord (hf : ∀ r, (f r).sender = r.sender ∧ (f r).connectionId = r.connectionId ∧
      (f r).nextServerSequence = r.nextServerSequence ∧ ((f r).connected = true → r.connected = true)) :
    Evolves s.workers (s.updateRecord w f).workers := by
  intro w' r' hr'
  rw [updateRecord_lookup] at hr'
  split at hr'
  · rename_i heq
    obtain ⟨r, hr, rfl⟩ := Option.map_eq_some_iff.mp hr'
    exact ⟨r, heq ▸ hr, hf r⟩
  · exact ⟨r', hr', rfl, rfl, rfl, id⟩

theorem publishes_append (hq : ¬ Publishes e c) :
    (∃ e' ∈ log ++ [e], Publishes e' c) ↔ ∃ e' ∈ log, Publishes e' c := by
  simp [or_and_right, exists_or, hq]

theorem Published.step {counter : Nat} (h : Published counter workers log gs)
    (hget : gs[i]? = some g) (hq : ∀ c, ¬ Publishes e c) (hreserved : g'.reserved = g.reserved)
    (hworkers : ∀ w r', workers'.lookup w = some r' → ∃ r, workers.lookup w = some r ∧ r'.sender = r.sender ∧
      r'.connectionId = r.connectionId)
    (hseen : ∀ w r, g'.seen = some (w, r) → g.seen = some (w, r) ∨ workers.lookup w = some r) :
    Published counter workers' (log ++ [e]) (gs.set i g') where
  named := by
    rw [map_set_same hget hreserved]
    exact h.named.congr fun c => publishes_append (hq c)
  record w r' hr' := by
    obtain ⟨r, hr, hsender, hconn⟩ := hworkers w r' hr'
    obtain ⟨hown, hpub⟩ := h.record w r hr
    rw [hsender, hconn]
    exact ⟨hown, (publishes_append (hq _)).mpr hpub⟩
  seen g₁ hg₁ w r hs := by
    refine (publishes_append (hq _)).mpr ?_
    rcases List.mem_or_eq_of_mem_set hg₁ with hg₁ | rfl
    · exact h.seen g₁ hg₁ w r hs
    · rcases hseen w r hs with hs | hr
      · exact h.seen g (List.mem_of_getElem? hget) w r hs
      · exact (h.record w r hr).2

theorem Locking.step {delivering : Bool} (h : Locking delivering workers gs)
    (hget : gs[i]? = some g) (hlocked : g'.locked = g.locked)
    (hworkers : ∀ w r', workers'.lookup w = some r' → ∃ r, workers.lookup w = some r ∧
      r'.connectionId = r.connectionId ∧ r'.nextServerSequence = r.nextServerSequence)
    (hseen : ∀ w r, g'.seen = some (w, r) → g.seen = some (w, r) ∨ workers'.lookup w = some r) :
    Locking delivering workers' (gs.set i g') where
  held g₁ hg₁ hl := by
    rcases List.mem_or_eq_of_mem_set hg₁ with hg₁ | rfl
    · exact h.held g₁ hg₁ hl
    · exact h.held g (List.mem_of_getElem? hget) (hlocked ▸ hl)
  alone j k g₁ g₂ hg₁ hg₂ hl₁ hl₂ := by
    have hback : ∀ {j : Nat} {g₁ : Courier}, (gs.set i g')[j]? = some g₁ → g₁.locked = true →
        ∃ g₀, gs[j]? = some g₀ ∧ g₀.locked = true := by
      intro j g₁ hg₁ hl
      rcases getElem?_set_cases hg₁ with ⟨rfl, rfl⟩ | ⟨_, hg₁⟩
      · exact ⟨g, hget, hlocked ▸ hl⟩
      · exact ⟨g₁, hg₁, hl⟩
    obtain ⟨g₃, hg₃, hl₃⟩ := hback hg₁ hl₁
    obtain ⟨g₄, hg₄, hl₄⟩ := hback hg₂ hl₂
    exact h.alone j k g₃ g₄ hg₃ hg₄ hl₃ hl₄
  current g₁ hg₁ hl w r hs r' hr' hconn := by
    obtain ⟨r₀, hr₀, hconn₀, hnext₀⟩ := hworkers w r' hr'
    rw [hnext₀]
    rcases List.mem_or_eq_of_mem_set hg₁ with hg₁ | rfl
    · exact h.current g₁ hg₁ hl w r hs r₀ hr₀ (hconn₀ ▸ hconn)
    · rcases hseen w r hs with hs | hr
      · exact h.current g (List.mem_of_getElem? hget) (hlocked ▸ hl) w r hs r₀ hr₀ (hconn₀ ▸ hconn)
      · rw [hr] at hr'
        rw [← hnext₀, Option.some.inj hr']

theorem Couriers.step (h : Couriers s log gs) (hget : gs[i]? = some g) (hq : ∀ c, ¬ Publishes e c)
    (hcounter : s'.connectionCounter = s.connectionCounter) (hdelivering : s'.delivering = s.delivering)
    (hev : Evolves s.workers s'.workers) (hreserved : g'.reserved = g.reserved) (hlocked : g'.locked = g.locked)
    (hseen : ∀ w r, g'.seen = some (w, r) →
      g.seen = some (w, r) ∨ s.workers.lookup w = some r ∧ s'.workers.lookup w = some r)
    (howing : Owing s' (log ++ [e]) (gs.set i g')) : Couriers s' (log ++ [e]) (gs.set i g') where
  published := by
    rw [hcounter]
    refine h.published.step hget hq hreserved (fun w r' hr' => ?_) fun w r hs => (hseen w r hs).imp_right And.left
    obtain ⟨r, hr, hsender, hconn, _⟩ := hev w r' hr'
    exact ⟨r, hr, hsender, hconn⟩
  locking := by
    rw [hdelivering]
    refine h.locking.step hget hlocked (fun w r' hr' => ?_) fun w r hs => (hseen w r hs).imp_right And.right
    obtain ⟨r, hr, _, hconn, hnext, _⟩ := hev w r' hr'
    exact ⟨r, hr, hconn, hnext⟩
  owing := howing

theorem Owing.same (h : Owing s log gs) (hget : gs[i]? = some g) (hi : e.task = i) (howes : g'.owes = g.owes)
    (hloaded : g'.loaded = g.loaded) (hd : ∀ w attemptId, ¬ DispatchedBy e w attemptId)
    (hstored : ∃ log, ControlRun log s'.db)
    (hdb : ∀ w attemptId, s'.db.Replayable w attemptId → s.db.Replayable w attemptId)
    (hback : ∀ w r', s'.workers.lookup w = some r' → r'.connected = true →
      ∃ r, s.workers.lookup w = some r ∧ r.connected = true ∧ r'.connectionId = r.connectionId)
    (hchannels : ∀ c, ∀ frame ∈ frames (s.channels c), frame ∈ frames (s'.channels c)) :
    Owing s' (log ++ [e]) (gs.set i g') := by
  refine h.step hget hi hstored (fun w attemptId hr => .inl (hdb w attemptId hr)) ⟨?_, ?_, ?_⟩ ?_
  · exact fun w attempts hl => .inl (hloaded ▸ hl)
  · exact fun errand hm => .inl ⟨errand, howes ▸ hm, rfl, rfl, .inr rfl⟩
  · exact fun w attemptId hm => .inl (howes ▸ hm.resolve_right (hd w attemptId))
  · intro w r attemptId hr hconn hreplayable
    refine h.covered_step hget hback hchannels (fun errand hm r' _ _ htarget => ?_) hr hconn
      (hdb w attemptId hreplayable)
    exact .inr ⟨errand, howes ▸ hm, rfl, rfl, htarget⟩

theorem Evolves.back (h : Evolves workers workers') : ∀ w r', workers'.lookup w = some r' → r'.connected = true →
      ∃ r, workers.lookup w = some r ∧ r.connected = true ∧ r'.connectionId = r.connectionId := by
  intro w r' hr' hconn'
  obtain ⟨r, hr, _, hsame, _, hback⟩ := h w r' hr'
  exact ⟨r, hr, hback hconn', hsame⟩

theorem Couriers.quiet (h : Couriers s log gs) (hget : gs[i]? = some g) (hi : e.task = i)
    (hq : ∀ c, ¬ Publishes e c) (hd : ∀ w attemptId, ¬ DispatchedBy e w attemptId)
    (hcounter : s'.connectionCounter = s.connectionCounter) (hdelivering : s'.delivering = s.delivering)
    (hev : Evolves s.workers s'.workers) (hstored : ∃ log, ControlRun log s'.db)
    (hdb : ∀ w attemptId, s'.db.Replayable w attemptId → s.db.Replayable w attemptId)
    (hchannels : ∀ c, ∀ frame ∈ frames (s.channels c), frame ∈ frames (s'.channels c)) :
    Couriers s' (log ++ [e]) (gs.set i g) :=
  h.step hget hq hcounter hdelivering hev rfl rfl (fun _ _ hs => .inl hs)
    (h.owing.same hget hi rfl rfl hd hstored hdb hev.back hchannels)

theorem Couriers.update (h : Couriers s log gs) (hget : gs[i]? = some g) (hi : e.task = i)
    (hq : ∀ c, ¬ Publishes e c) (hd : ∀ w attemptId, ¬ DispatchedBy e w attemptId)
      (hf : ∀ r, (f r).sender = r.sender ∧ (f r).connectionId = r.connectionId ∧
      (f r).nextServerSequence = r.nextServerSequence ∧ ((f r).connected = true → r.connected = true)) :
    Couriers (s.updateRecord w f) (log ++ [e]) (gs.set i g) := by
  obtain ⟨hcounter, hchannels, _⟩ := updateRecord_rest (s := s) (w := w) (f := f)
  obtain ⟨hdb, hdelivering⟩ := updateRecord_kept (s := s) (w := w) (f := f)
  exact h.quiet hget hi hq hd hcounter hdelivering (evolves_updateRecord hf) (hdb ▸ h.owing.stored)
    (fun _ _ hr => hdb ▸ hr) fun _ _ hm => hchannels ▸ hm

theorem Couriers.draw (h : Couriers s log gs) (hget : gs[i]? = some g) :
    Couriers { s with connectionCounter := s.connectionCounter + 1 }
      (log ++ [⟨i, .nextConnection, s.connectionCounter⟩])
      (gs.set i { g with reserved := some (connectionName s.connectionCounter) }) where
  published := by
    have hstep : Published s.connectionCounter s.workers (log ++ [⟨i, .nextConnection, s.connectionCounter⟩])
        (gs.set i g) := h.published.step hget (fun _ hp => hp) rfl (fun w r hr => ⟨r, hr, rfl, rfl⟩)
          fun _ _ hs => .inl hs
    rw [set_self hget] at hstep
    refine ⟨?_, hstep.record, fun g₁ hg₁ w r hs => ?_⟩
    · rw [List.map_set]
      exact hstep.named.draw (by rw [List.getElem?_map, hget]; rfl)
    · rcases List.mem_or_eq_of_mem_set hg₁ with hg₁ | rfl
      · exact hstep.seen g₁ hg₁ w r hs
      · exact hstep.seen g (List.mem_of_getElem? hget) w r hs
  locking := h.locking.step hget rfl (fun w r hr => ⟨r, hr, rfl, rfl⟩) fun _ _ hs => .inl hs
  owing := by
    refine h.owing.same hget rfl rfl rfl ?_ h.owing.stored (fun _ _ hr => hr) (Evolves.refl _).back fun _ _ hm => hm
    exact fun _ _ hd => hd

theorem Couriers.lock (h : Couriers s log gs) (hget : gs[i]? = some g) (hfree : s.delivering = false) :
    Couriers { s with delivering := true } (log ++ [⟨i, .lockDelivery, ()⟩])
      (gs.set i { g with locked := true, seen := none }) where
  published := h.published.step hget (fun _ hp => hp) rfl (fun w r hr => ⟨r, hr, rfl, rfl⟩) fun _ _ hs => by cases hs
  locking := by
    have hnone : ∀ g₁ ∈ gs, g₁.locked = true → False := by
      intro g₁ hg₁ hl
      have := h.locking.held g₁ hg₁ hl
      rw [hfree] at this
      cases this
    have honly : ∀ {j : Nat} {g₁ : Courier},
        (gs.set i { g with locked := true, seen := none })[j]? = some g₁ → g₁.locked = true → i = j := by
      intro j g₁ hg₁ hl
      rcases getElem?_set_cases hg₁ with ⟨rfl, _⟩ | ⟨_, hg₁⟩
      · rfl
      · exact (hnone g₁ (List.mem_of_getElem? hg₁) hl).elim
    refine ⟨fun _ _ _ => rfl, fun j k g₁ g₂ hg₁ hg₂ hl₁ hl₂ => ?_, fun g₁ hg₁ hl w r hs => ?_⟩
    · rw [← honly hg₁ hl₁, ← honly hg₂ hl₂]
    · rcases List.mem_or_eq_of_mem_set hg₁ with hg₁ | rfl
      · exact (hnone g₁ hg₁ hl).elim
      · cases hs
  owing := by
    refine h.owing.same hget rfl rfl rfl ?_ h.owing.stored (fun _ _ hr => hr) (Evolves.refl _).back fun _ _ hm => hm
    exact fun _ _ hd => hd

theorem Couriers.unlock (h : Couriers s log gs) (hget : gs[i]? = some g) (hl : g.locked = true) :
    Couriers { s with delivering := false } (log ++ [⟨i, .unlockDelivery, ()⟩])
    (gs.set i { g with locked := false }) where
  published := h.published.step hget (fun _ hp => hp) rfl (fun w r hr => ⟨r, hr, rfl, rfl⟩) fun _ _ hs => .inl hs
  locking := by
    have hnone : ∀ {j : Nat} {g₁ : Courier}, (gs.set i { g with locked := false })[j]? = some g₁ →
        g₁.locked = true → False := by
      intro j g₁ hg₁ hl₁
      rcases getElem?_set_cases hg₁ with ⟨_, rfl⟩ | ⟨hne, hg₁⟩
      · cases hl₁
      · exact hne (h.locking.alone i j g g₁ hget hg₁ hl hl₁)
    refine ⟨fun g₁ hg₁ hl₁ => ?_, fun j k g₁ g₂ hg₁ _ hl₁ _ => (hnone hg₁ hl₁).elim, fun g₁ hg₁ hl₁ => ?_⟩
    · obtain ⟨j, hj⟩ := List.mem_iff_getElem?.mp hg₁
      exact (hnone hj hl₁).elim
    · obtain ⟨j, hj⟩ := List.mem_iff_getElem?.mp hg₁
      exact (hnone hj hl₁).elim
  owing := by
    refine h.owing.same hget rfl rfl rfl ?_ h.owing.stored (fun _ _ hr => hr) (Evolves.refl _).back fun _ _ hm => hm
    exact fun _ _ hd => hd

theorem Changed.thin {db' : ControlDatabase} (hloaded : g'.loaded = g.loaded) (hthin : Thin g.owes g'.owes)
    (hd : ∀ w attemptId, ¬ DispatchedBy e w attemptId)
    (hwaiting : ∀ w attemptId, ⟨w, attemptId, none⟩ ∈ g.owes →
      ⟨w, attemptId, none⟩ ∈ g'.owes ∨ ∃ found, e = ⟨i, .worker w, found⟩) : Changed db' i e g g' :=
  ⟨fun _ _ hl => .inl (hloaded ▸ hl), fun errand hm => .inl (hthin errand hm),
    fun w attemptId hm => hwaiting w attemptId (hm.resolve_right (hd w attemptId))⟩

theorem Couriers.look (h : Couriers s log gs) (hget : gs[i]? = some g) (w : String) :
    Couriers s (log ++ [⟨i, .worker w, s.workers.lookup w⟩]) (gs.set i { g with
      seen := (s.workers.lookup w).map (w, ·)
      owes := g.owes.filterMap (Errand.look w (s.workers.lookup w)) }) := by
  refine h.step hget (fun _ hp => hp) rfl rfl (.refl _) rfl rfl (fun w' r hs => ?_) ?_
  · obtain ⟨r', hr, hpair⟩ := Option.map_eq_some_iff.mp hs
    cases hpair
    exact .inr ⟨hr, hr⟩
  refine h.owing.step hget rfl h.owing.stored (fun _ _ hr => .inl hr) (.thin rfl (.look _ _ _) (fun _ _ hd => hd) ?_) ?_
  · intro w' attemptId hm
    by_cases heq : w' = w
    · subst heq
      exact .inr ⟨_, rfl⟩
    · exact .inl (List.mem_filterMap.mpr ⟨_, hm, by simp [Errand.look, heq]⟩)
  · intro w' r attemptId hr hconn hreplayable
    refine h.owing.covered_step hget (Evolves.refl _).back (fun _ _ hm => hm)
      (fun errand hm r' hr' hconn' htarget => ?_) hr hconn hreplayable
    refine .inr ?_
    by_cases heq : errand.worker = w
    · refine ⟨{ errand with target := some r'.connectionId }, List.mem_filterMap.mpr ⟨errand, hm, ?_⟩, rfl, rfl,
        .inr rfl⟩
      rw [heq] at hr'
      simp [Errand.look, heq, hr', Option.filter, hconn', htarget]
    · exact ⟨errand, List.mem_filterMap.mpr ⟨errand, hm, by simp [Errand.look, heq]⟩, rfl, rfl, htarget⟩

theorem Couriers.advance (h : Couriers s log gs) (hget : gs[i]? = some g) (hl : g.locked = true)
    : Couriers (s.advanced w) (log ++ [⟨i, .advance w c n, true⟩]) (gs.set i { g with seen := none }) := by
  obtain ⟨hcounter, hchannels, _⟩ : (s.advanced w).connectionCounter = s.connectionCounter ∧
      (s.advanced w).channels = s.channels ∧ (s.advanced w).closed = s.closed := updateRecord_rest
  obtain ⟨hdb, hdelivering⟩ : (s.advanced w).db = s.db ∧ (s.advanced w).delivering = s.delivering :=
    updateRecord_kept
  have hworkers : ∀ w' r', (s.advanced w).workers.lookup w' = some r' → ∃ r, s.workers.lookup w' = some r ∧
      r'.sender = r.sender ∧ r'.connectionId = r.connectionId ∧ r'.connected = r.connected := by
    intro w' r' hr'
    rw [advanced, updateRecord_lookup] at hr'
    split at hr'
    · rename_i heq
      obtain ⟨r, hr, rfl⟩ := Option.map_eq_some_iff.mp hr'
      exact ⟨r, heq ▸ hr, rfl, rfl, rfl⟩
    · exact ⟨r', hr', rfl, rfl, rfl⟩
  refine ⟨?_, ?_, ?_⟩
  · rw [hcounter]
    refine h.published.step hget (fun _ hp => hp) rfl (fun w' r' hr' => ?_) fun _ _ hs => by cases hs
    obtain ⟨r, hr, hsender, hconn, _⟩ := hworkers w' r' hr'
    exact ⟨r, hr, hsender, hconn⟩
  · rw [hdelivering]
    have hnone : ∀ {j : Nat} {g₁ : Courier}, gs[j]? = some g₁ → i ≠ j → g₁.locked = false :=
      fun hg₁ hne => Bool.eq_false_iff.mpr fun hl₁ => hne (h.locking.alone _ _ g _ hget hg₁ hl hl₁)
    refine ⟨fun _ _ _ => h.locking.held g (List.mem_of_getElem? hget) hl, fun j k g₁ g₂ hg₁ hg₂ hl₁ hl₂ => ?_,
      fun g₁ hg₁ hl₁ w' r hs => ?_⟩
    · have honly : ∀ {j : Nat} {g₁ : Courier}, (gs.set i { g with seen := none })[j]? = some g₁ →
          g₁.locked = true → i = j := by
        intro j g₁ hg₁ hl₁
        rcases getElem?_set_cases hg₁ with ⟨rfl, _⟩ | ⟨hne, hg₁⟩
        · rfl
        · rw [hnone hg₁ hne] at hl₁
          cases hl₁
      rw [← honly hg₁ hl₁, ← honly hg₂ hl₂]
    · obtain ⟨j, hj⟩ := List.mem_iff_getElem?.mp hg₁
      rcases getElem?_set_cases hj with ⟨rfl, rfl⟩ | ⟨hne, hj⟩
      · cases hs
      · rw [hnone hj hne] at hl₁
        cases hl₁
  · refine h.owing.same hget rfl rfl rfl ?_ (hdb ▸ h.owing.stored) (fun _ _ hr => hdb ▸ hr) ?_
      fun _ _ hm => hchannels ▸ hm
    · exact fun _ _ hd => hd
    · intro w' r' hr' hconn'
      obtain ⟨r, hr, _, hconn, hconnected⟩ := hworkers w' r' hr'
      exact ⟨r, hr, hconnected ▸ hconn', hconn⟩

theorem Couriers.supersede (h : Couriers s log gs) (hget : gs[i]? = some g) (hl : g.locked = true)
    {record : WorkerRecord} (hseen : g.seen = some (w, record)) (hconn : record.connectionId = c)
    (hnext : record.nextServerSequence = n) (hmay : s.mayAdvance w c n = false) :
    Couriers s (log ++ [⟨i, .advance w c n, false⟩]) (gs.set i { g with
      owes := g.owes.filter fun errand => ¬ (errand.worker = w ∧ errand.target = some c) }) := by
  refine h.step hget (fun _ hp => hp) rfl rfl (.refl _) rfl rfl (fun _ _ hs => .inl hs) ?_
  refine h.owing.step hget rfl h.owing.stored (fun _ _ hr => .inl hr) (.thin rfl (.filter _ _) (fun _ _ hd => hd) ?_) ?_
  · exact fun w' attemptId hm => .inl (List.mem_filter.mpr ⟨hm, by simp⟩)
  · intro w' r attemptId hr hconnected hreplayable
    refine h.owing.covered_step hget (Evolves.refl _).back (fun _ _ hm => hm) (fun errand hm r' hr' _ htarget => ?_)
      hr hconnected hreplayable
    refine .inr ⟨errand, List.mem_filter.mpr ⟨hm, ?_⟩, rfl, rfl, htarget⟩
    refine decide_eq_true fun ⟨hworker, haim⟩ => ?_
    rw [hworker] at hr'
    have hsame : r'.connectionId = record.connectionId := by
      rw [haim] at htarget
      rw [hconn, Option.some.inj (htarget.resolve_left (by simp))]
    have hcurrent := h.locking.current g (List.mem_of_getElem? hget) hl w record hseen r' hr' hsame
    have hadvance := mayAdvance_iff.mpr ⟨r', hr', hsame.trans hconn, hcurrent.trans hnext⟩
    rw [hmay] at hadvance
    cases hadvance

theorem Couriers.fail (h : Couriers s log gs) (hget : gs[i]? = some g)
    (haims : ∀ errand ∈ g.owes, errand.target ≠ none) :
    Couriers (s.disconnected w) (log ++ [⟨i, .markSendFailed w, ()⟩])
      (gs.set i { g with owes := g.owes.filter fun errand => errand.worker ≠ w }) := by
  obtain ⟨hcounter, hchannels, _⟩ : (s.disconnected w).connectionCounter = s.connectionCounter ∧
      (s.disconnected w).channels = s.channels ∧ (s.disconnected w).closed = s.closed := updateRecord_rest
  obtain ⟨hdb, hdelivering⟩ : (s.disconnected w).db = s.db ∧ (s.disconnected w).delivering = s.delivering :=
    updateRecord_kept
  have hev : Evolves s.workers (s.disconnected w).workers :=
    evolves_updateRecord fun r => ⟨rfl, rfl, rfl, fun hc => by cases hc⟩
  refine h.step hget (fun _ hp => hp) hcounter hdelivering hev rfl rfl (fun _ _ hs => .inl hs) ?_
  refine h.owing.step hget rfl (hdb ▸ h.owing.stored) (fun _ _ hr => .inl (hdb ▸ hr))
    (.thin rfl (.filter _ _) (fun _ _ hd => hd) ?_) ?_
  · exact fun w' attemptId hm => absurd rfl (haims _ hm)
  · intro w' r attemptId hr hconnected hreplayable
    rw [hdb] at hreplayable
    refine h.owing.covered_step hget hev.back (fun _ _ hm => hchannels ▸ hm) (fun errand hm r' hr' hconn' htarget => ?_)
      hr hconnected hreplayable
    refine .inr ⟨errand, List.mem_filter.mpr ⟨hm, ?_⟩, rfl, rfl, htarget⟩
    refine decide_eq_true fun hworker => ?_
    rw [disconnected, updateRecord_lookup, if_pos hworker] at hr'
    obtain ⟨_, _, rfl⟩ := Option.map_eq_some_iff.mp hr'
    cases hconn'

theorem Couriers.send (h : Couriers s log gs) (hget : gs[i]? = some g) {frame : ServerToWorker} :
    Couriers (s.sent c (.ok frame)) (log ++ [⟨i, .send c (.ok frame), true⟩]) (gs.set i { g with
      owes := g.owes.filter fun errand => ¬ (errand.target = some c ∧ frame.assigns errand.attempt = true) }) := by
  have hchannels : ∀ c', ∀ frame' ∈ frames (s.channels c'), frame' ∈ frames ((s.sent c (.ok frame)).channels c') := by
    intro c' frame' hm
    by_cases heq : c' = c
    · subst heq
      simp only [sent, Function.update_self, frames_append_ok]
      exact List.mem_append_left _ hm
    · simpa only [sent, Function.update_of_ne heq] using hm
  refine h.step hget (fun _ hp => hp) rfl rfl (.refl _) rfl rfl (fun _ _ hs => .inl hs) ?_
  refine h.owing.step hget rfl h.owing.stored (fun _ _ hr => .inl hr) (.thin rfl (.filter _ _) (fun _ _ hd => hd) ?_) ?_
  · exact fun w' attemptId hm => .inl (List.mem_filter.mpr ⟨hm, by simp⟩)
  · intro w' r attemptId hr hconnected hreplayable
    have hback : ∀ w r', (s.sent c (.ok frame)).workers.lookup w = some r' → r'.connected = true →
        ∃ r, s.workers.lookup w = some r ∧ r.connected = true ∧ r'.connectionId = r.connectionId :=
      (Evolves.refl _).back
    refine h.owing.covered_step hget hback hchannels (fun errand hm r' hr' _ htarget => ?_) hr hconnected hreplayable
    by_cases hsettled : errand.target = some c ∧ frame.assigns errand.attempt = true
    · rw [hsettled.1] at htarget
      obtain rfl : c = r'.connectionId := Option.some.inj (htarget.resolve_left (by simp))
      refine .inl ⟨frame, ?_, hsettled.2⟩
      simp [sent, frames_append_ok]
    · exact .inr ⟨errand, List.mem_filter.mpr ⟨hm, decide_eq_true hsettled⟩, rfl, rfl, htarget⟩

theorem Couriers.publish (h : Couriers s log gs) (hget : gs[i]? = some g) {record : WorkerRecord}
    {attempts : List String} (hreserved : g.reserved = some record.connectionId)
    (hsender : record.sender = record.connectionId) (hloaded : g.loaded = some (w, attempts))
    (hguard : inSight s log (.act ⟨i, .publish w record, ()⟩)) :
    Couriers { s with workers := s.workers.insert w record } (log ++ [⟨i, .publish w record, ()⟩]) (gs.set i { g with
      reserved := none, loaded := none
      owes := g.owes ++ attempts.map fun attempt => ⟨w, attempt, some record.connectionId⟩ }) := by
  have hlookup := @lookup_insert_cases s.workers w record
  have hdrawn : (gs.map (·.reserved))[i]? = some (some record.connectionId) := by
    rw [List.getElem?_map, hget, Option.map_some, hreserved]
  have hused : ∀ c, (∃ e ∈ log ++ [(⟨i, .publish w record, ()⟩ : ServiceEvent)], Publishes e c) ↔
      c = record.connectionId ∨ ∃ e ∈ log, Publishes e c := by
    intro c
    simp [or_and_right, exists_or, Publishes, or_comm, eq_comm]
  have hlocking : Locking s.delivering s.workers (gs.set i { g with
      reserved := none, loaded := none
      owes := g.owes ++ attempts.map fun attempt => ⟨w, attempt, some record.connectionId⟩ }) :=
    h.locking.step hget rfl (fun w r hr => ⟨r, hr, rfl, rfl⟩) fun _ _ hs => .inl hs
  have hseen : ∀ g₁ ∈ gs.set i { g with
      reserved := none, loaded := none
      owes := g.owes ++ attempts.map fun attempt => ⟨w, attempt, some record.connectionId⟩ },
      ∀ w r, g₁.seen = some (w, r) → ∃ e ∈ log, Publishes e r.connectionId := by
    intro g₁ hg₁ w' r hs
    rcases List.mem_or_eq_of_mem_set hg₁ with hg₁ | rfl
    · exact h.published.seen g₁ hg₁ w' r hs
    · exact h.published.seen g (List.mem_of_getElem? hget) w' r hs
  refine ⟨⟨?_, ?_, ?_⟩, ⟨hlocking.held, hlocking.alone, ?_⟩, ?_⟩
  · rw [List.map_set]
    exact (h.published.named.publish hdrawn).congr hused
  · intro w' r' hr'
    rcases hlookup w' r' hr' with ⟨_, rfl⟩ | ⟨_, hr'⟩
    · exact ⟨hsender, (hused _).mpr (.inl rfl)⟩
    · exact ⟨(h.published.record w' r' hr').1, (hused _).mpr (.inr (h.published.record w' r' hr').2)⟩
  · exact fun g₁ hg₁ w' r hs => (hused _).mpr (.inr (hseen g₁ hg₁ w' r hs))
  · intro g₁ hg₁ hl w' r hs r' hr' hsame
    rcases hlookup w' r' hr' with ⟨_, rfl⟩ | ⟨_, hr'⟩
    · have hfresh := (h.published.named.fresh _ (List.mem_of_getElem? hdrawn)).1
      exact absurd (hsame ▸ hseen g₁ hg₁ w' r hs) hfresh
    · exact hlocking.current g₁ hg₁ hl w' r hs r' hr' hsame
  · refine h.owing.step hget rfl h.owing.stored (fun _ _ hr => .inl hr) ⟨?_, ?_, ?_⟩ ?_
    · exact fun w' attempts' hl => by cases hl
    · intro errand hm
      rcases List.mem_append.mp hm with hm | hm
      · exact .inl ⟨errand, hm, rfl, rfl, .inr rfl⟩
      · obtain ⟨attempt, _, rfl⟩ := List.mem_map.mp hm
        exact .inr (.inl ⟨record, by simp, rfl⟩)
    · exact fun w' attemptId hm => .inl (List.mem_append_left _ (hm.resolve_right fun hd => hd))
    · intro w' r' attemptId hr' hconn hreplayable
      rcases hlookup w' r' hr' with ⟨rfl, rfl⟩ | ⟨hne, hold⟩
      · -- a fresh connection: what was read is owed to it, and the rest has still to look for one
        obtain ⟨before, after, reply, hlog, hread⟩ := h.owing.loaded i g w' attempts hget hloaded
        refine .inr ?_
        rcases hread attemptId hreplayable with hm | ⟨e, he, hd⟩
        · refine ⟨_, List.mem_of_getElem? (getElem?_set_self hget), ⟨w', attemptId, some r'.connectionId⟩, ?_, rfl, rfl,
            .inr rfl⟩
          exact List.mem_append_right _ (List.mem_map.mpr ⟨attemptId, hm, rfl⟩)
        · have helog : e ∈ log := by rw [hlog]; simp [he]
          rcases h.owing.waiting e helog w' attemptId hd with ⟨found, hm⟩ | ⟨g₁, hg₁, hm⟩
          · exact absurd hm (hguard before after reply hlog e he attemptId hd found)
          · by_cases hij : i = e.task
            · rw [← hij, hget] at hg₁
              cases hg₁
              exact ⟨_, List.mem_of_getElem? (getElem?_set_self hget), ⟨w', attemptId, none⟩,
                List.mem_append_left _ hm, rfl, rfl, .inl rfl⟩
            · refine ⟨g₁, List.mem_of_getElem? (i := e.task) ?_, _, hm, rfl, rfl, .inl rfl⟩
              rw [List.getElem?_set_ne hij, hg₁]
      · rcases h.owing.covered w' r' attemptId hold hconn hreplayable with hcovers | ⟨g₁, hg₁, errand, hm, hserves⟩
        · exact .inl hcovers
        · refine .inr ?_
          obtain ⟨j, hj⟩ := List.mem_iff_getElem?.mp hg₁
          by_cases hij : i = j
          · subst hij
            obtain rfl : g = g₁ := by rw [hget] at hj; exact Option.some.inj hj
            exact ⟨_, List.mem_of_getElem? (getElem?_set_self hget), errand, List.mem_append_left _ hm, hserves⟩
          · refine ⟨g₁, List.mem_of_getElem? (i := j) ?_, errand, hm, hserves⟩
            rw [List.getElem?_set_ne hij, hj]

section persistence

variable {operation : ControlOperation} {reply : operation.Reply} {db' : ControlDatabase}

theorem Owing.stored_step (h : Owing s log gs) (hstep : ControlStep s.db ⟨operation, reply⟩ db') :
    ∃ log, ControlRun log db' := by
  obtain ⟨log, hrun⟩ := h.stored
  exact ⟨_, hrun.step hstep⟩

theorem Couriers.store (h : Couriers s log gs) (hget : gs[i]? = some g)
    (hstep : ControlStep s.db ⟨operation, reply⟩ db') (hd : ∀ w attemptId, ¬ Marks ⟨operation, reply⟩ w attemptId) :
    Couriers { s with db := db' } (log ++ [⟨i, .persist operation, reply⟩]) (gs.set i g) :=
  h.quiet hget rfl (fun _ hp => hp) hd rfl rfl (.refl _) (h.owing.stored_step hstep)
    (fun _ _ hr => (hstep.replayable hr).resolve_right (hd _ _)) fun _ _ hm => hm

theorem Couriers.mark (h : Couriers s log gs) (hget : gs[i]? = some g) {attempt w : String} {atMs : Nat}
    (hstep : ControlStep s.db ⟨.markAssignmentDispatchable attempt w atMs, .ok true⟩ db') :
    Couriers { s with db := db' } (log ++ [⟨i, .persist (.markAssignmentDispatchable attempt w atMs), .ok true⟩])
      (gs.set i { g with owes := g.owes ++ [⟨w, attempt, none⟩] }) := by
  refine h.step hget (fun _ hp => hp) rfl rfl (.refl _) rfl rfl (fun _ _ hs => .inl hs) ?_
  refine h.owing.step hget rfl (h.owing.stored_step hstep) (fun _ _ hr => hstep.replayable hr) ⟨?_, ?_, ?_⟩ ?_
  · exact fun _ _ hl => .inl hl
  · intro errand hm
    rcases List.mem_append.mp hm with hm | hm
    · exact .inl ⟨errand, hm, rfl, rfl, .inr rfl⟩
    · rw [List.mem_singleton.mp hm]
      exact .inr (.inr ⟨atMs, by simp⟩)
  · rintro w' attemptId (hm | ⟨_, rfl, rfl⟩)
    · exact .inl (List.mem_append_left _ hm)
    · exact .inl (by simp)
  · intro w' r attemptId hr hconn hreplayable
    rcases hstep.replayable hreplayable with hreplayable | ⟨_, rfl, rfl⟩
    · have hback : ∀ w r', ({ s with db := db' } : ServiceState).workers.lookup w = some r' → r'.connected = true →
          ∃ r, s.workers.lookup w = some r ∧ r.connected = true ∧ r'.connectionId = r.connectionId :=
        (Evolves.refl _).back
      refine h.owing.covered_step hget hback (fun _ _ hm => hm)
        (fun errand hm r' _ _ htarget => ?_) hr hconn hreplayable
      exact .inr ⟨errand, List.mem_append_left _ hm, rfl, rfl, htarget⟩
    · exact .inr ⟨_, List.mem_of_getElem? (getElem?_set_self hget), ⟨w, attempt, none⟩, by simp, rfl, rfl, .inl rfl⟩

theorem Couriers.load (h : Couriers s log gs) (hget : gs[i]? = some g) {w : String} {records : List AssignmentRecord}
    (hstep : ControlStep s.db ⟨.replayableAssignments w, .ok records⟩ db') :
    Couriers { s with db := db' } (log ++ [⟨i, .persist (.replayableAssignments w), .ok records⟩])
      (gs.set i { g with loaded := some (w, records.map fun record => record.contract.attemptId.text) }) := by
  obtain ⟨_, hrun⟩ := h.owing.stored
  have hexecute := hstep.ok
  obtain rfl : s.db = db' := congrArg Prod.fst hexecute
  refine h.step hget (fun _ hp => hp) rfl rfl (.refl _) rfl rfl (fun _ _ hs => .inl hs) ?_
  refine h.owing.step hget rfl h.owing.stored (fun _ _ hr => .inl hr) ⟨?_, ?_, ?_⟩ ?_
  · intro w' attempts hl
    cases hl
    exact .inr ⟨⟨_, rfl⟩, fun attemptId hr => hrun.replays (congrArg Prod.snd hexecute) hr⟩
  · exact fun errand hm => .inl ⟨errand, hm, rfl, rfl, .inr rfl⟩
  · exact fun w' attemptId hm => .inl (hm.resolve_right fun hd => hd)
  · intro w' r attemptId hr hconn hreplayable
    refine h.owing.covered_step hget (Evolves.refl _).back (fun _ _ hm => hm) (fun errand hm r' _ _ htarget => ?_)
      hr hconn hreplayable
    exact .inr ⟨errand, hm, rfl, rfl, htarget⟩

theorem Couriers.persist (h : Couriers s log gs) (hget : gs[i]? = some g)
    (hstep : ControlStep s.db ⟨operation, reply⟩ db') :
    ∃ g', couriering.post g (.persist operation) reply g' ∧
      Couriers { s with db := db' } (log ++ [⟨i, .persist operation, reply⟩]) (gs.set i g') := by
  cases operation with
  | markAssignmentDispatchable attempt w atMs =>
    rcases reply with error | _ | _
    · exact ⟨g, rfl, h.store hget hstep fun _ _ hd => hd⟩
    · exact ⟨g, rfl, h.store hget hstep fun _ _ hd => by cases hd.1⟩
    · exact ⟨_, rfl, h.mark hget hstep⟩
  | replayableAssignments w =>
    rcases reply with error | records
    · exact ⟨g, rfl, h.store hget hstep fun _ _ hd => hd⟩
    · exact ⟨_, rfl, h.load hget hstep⟩
  | prepareAssignmentDelivery preparation =>
    rcases reply with error | contract
    · exact ⟨g, rfl, h.store hget hstep fun _ _ hd => hd⟩
    · obtain ⟨_, hrun⟩ := h.owing.stored
      have hexecute := hstep.ok
      refine ⟨g, ⟨fun attemptId ha => ?_, rfl⟩, h.store hget hstep fun _ _ hd => hd⟩
      exact hrun.prepares (congrArg Prod.snd hexecute) ha
  | _ => exact ⟨g, rfl, h.store hget hstep fun _ _ hd => hd⟩

end persistence

theorem dispatching_act {o : ServiceOp} {reply : o.Reply} (h : Couriers s log gs) (hget : gs[i]? = some g)
    (hpre : couriering.pre g o) (ha : ServiceActs s o reply s') (hguard : inSight s log (.act ⟨i, o, reply⟩)) :
    ∃ g', couriering.post g o reply g' ∧ Couriers s' (log ++ [⟨i, o, reply⟩]) (gs.set i g') := by
  have hstored := h.owing.stored
  cases ha with
  | persist hstep => exact h.persist hget hstep
  | nextConnection => exact ⟨_, rfl, h.draw hget⟩
  | lockDelivery hfree => exact ⟨_, rfl, h.lock hget hfree⟩
  | unlockDelivery => exact ⟨_, rfl, h.unlock hget hpre⟩
  | worker w => exact ⟨_, ⟨fun r hr => (h.published.record w r hr).1, rfl⟩, h.look hget w⟩
  | publish w record =>
    obtain ⟨hreserved, hsender, attempts, hloaded⟩ := hpre
    exact ⟨_, ⟨attempts, hloaded, rfl⟩, h.publish hget hreserved hsender hloaded hguard⟩
  | advanced hmay => exact ⟨_, rfl, h.advance hget hpre.1⟩
  | superseded hmay =>
    obtain ⟨hl, record, hseen, hconn, hnext⟩ := hpre
    exact ⟨_, rfl, h.supersede hget hl hseen hconn hnext hmay⟩
  | markSendFailed w => exact ⟨_, rfl, h.fail hget hpre⟩
  | accepted hmay =>
    refine ⟨g, rfl, h.update hget rfl ?_ ?_ fun r => ⟨rfl, rfl, rfl, id⟩⟩
    · exact fun _ hp => hp
    · exact fun _ _ hd => hd
  | markDisconnected w c =>
    refine ⟨g, rfl, h.update hget rfl ?_ ?_ fun r => ?_⟩
    · exact fun _ hp => hp
    · exact fun _ _ hd => hd
    · split
      · exact ⟨rfl, rfl, rfl, fun hc => by cases hc⟩
      · exact ⟨rfl, rfl, rfl, id⟩
  | @sent c frame hopen =>
    cases frame with
    | ok frame => exact ⟨_, rfl, h.send hget⟩
    | error status =>
      refine ⟨g, rfl, h.quiet hget rfl ?_ ?_ rfl rfl (.refl _) hstored (fun _ _ hr => hr) fun c' frame hm => ?_⟩
      · exact fun _ hp => hp
      · exact fun _ _ hd => hd
      · by_cases heq : c' = c
        · simpa only [sent, heq, Function.update_self, frames_append_error] using heq ▸ hm
        · simpa only [sent, Function.update_of_ne heq] using hm
  | notSent c frame =>
    have hquiet : Couriers (s.receiverGone c) (log ++ [⟨i, .send c frame, false⟩]) (gs.set i g) := by
      refine h.quiet hget rfl ?_ ?_ rfl rfl (.refl _) hstored (fun _ _ hr => hr) fun _ _ hm => hm
      · exact fun _ hp => hp
      · exact fun _ _ hd => hd
    cases frame with
    | ok | error => exact ⟨g, rfl, hquiet⟩
  | _ =>
    refine ⟨g, rfl, h.quiet hget rfl ?_ ?_ rfl rfl (.refl _) hstored (fun _ _ hr => hr) fun _ _ hm => hm⟩
    · exact fun _ hp => hp
    · exact fun _ _ hd => hd

theorem Couriers.join (h : Couriers s log gs) : Couriers s log (gs ++ [Courier.idle]) := by
  have hget : ∀ {j : Nat} {g : Courier}, (gs ++ [Courier.idle])[j]? = some g → gs[j]? = some g ∨ g = .idle := by
    intro j g hg
    by_cases hj : j < gs.length
    · rw [List.getElem?_append_left hj] at hg
      exact .inl hg
    · rw [List.getElem?_append_right (by omega)] at hg
      exact .inr (by simpa using List.mem_of_getElem? hg)
  have hmem : ∀ g ∈ gs ++ [Courier.idle], g ∈ gs ∨ g = .idle := fun g hg => by simpa using hg
  refine ⟨⟨?_, h.published.record, fun g hg w r hs => ?_⟩, ⟨fun g hg hl => ?_, fun j k g g' hg hg' hl hl' => ?_,
    fun g hg hl w r hs => ?_⟩, ⟨h.owing.stored, fun j g w attempts hg hl => ?_, fun j g hg errand hm => ?_,
    fun e he w attemptId hd => ?_, fun w r attemptId hr hconn hreplayable => ?_⟩⟩
  · rw [List.map_append]
    exact h.published.named.join
  · rcases hmem g hg with hg | rfl
    · exact h.published.seen g hg w r hs
    · cases hs
  · rcases hmem g hg with hg | rfl
    · exact h.locking.held g hg hl
    · cases hl
  · rcases hget hg with hg | rfl
    · rcases hget hg' with hg' | rfl
      · exact h.locking.alone j k g g' hg hg' hl hl'
      · cases hl'
    · cases hl
  · rcases hmem g hg with hg | rfl
    · exact h.locking.current g hg hl w r hs
    · cases hs
  · rcases hget hg with hg | rfl
    · exact h.owing.loaded j g w attempts hg hl
    · cases hl
  · rcases hget hg with hg | rfl
    · exact h.owing.origin j g hg errand hm
    · cases hm
  · refine (h.owing.waiting e he w attemptId hd).imp_right ?_
    rintro ⟨g, hg, hm⟩
    exact ⟨g, by rw [List.getElem?_append_left (List.getElem?_eq_some_iff.mp hg).choose, hg], hm⟩
  · refine (h.owing.covered w r attemptId hr hconn hreplayable).imp_right ?_
    rintro ⟨g, hg, herrand⟩
    exact ⟨g, List.mem_append_left _ hg, herrand⟩

theorem dispatching_kept : dispatching.Kept serviceWorld inSight where
  act := dispatching_act
  move := by
    rintro s log gs s' h ⟨c, frame, rfl⟩ _
    exact ⟨h.published, h.locking, ⟨h.owing.stored, h.owing.loaded, h.owing.origin, h.owing.waiting, h.owing.covered⟩⟩
  start := by
    rintro s log gs p h ⟨request, rfl⟩
    exact ⟨.idle, ends_program_owing request, h.join⟩

end steps

theorem dispatching_initial {db : ControlDatabase} {log : List ControlEvent} (h : ControlRun log db) (counter : Nat) :
    dispatching.Holds (ServingConfig.initial db counter) := by
  refine ⟨[], .nil, ⟨⟨⟨?_, by simp, by simp⟩, ?_, by simp⟩, ⟨by simp, by simp, by simp⟩,
    ⟨⟨log, h⟩, by simp, by simp, ?_, ?_⟩⟩⟩
  · rintro c ⟨e, he, _⟩
    cases he
  · intro w r hr
    cases hr
  · intro e he
    cases he
  · intro w r attemptId hr
    cases hr

/-- While no enqueue misses the connection of a registration, every assignment that is replayable to a worker
has been brought to the worker's current connection, once the registration of the connection and the
enqueues of the assignment are over: it is in the channel or among the initial messages. -/
theorem replayable_assignment_prepared {controlLog : List ControlEvent} {db : ControlDatabase} {counter : Nat}
    {c : ServingConfig} {workerId attemptId : String} {record : WorkerRecord} (hdb : ControlRun controlLog db)
    (h : Run serviceWorld inSight (ServingConfig.initial db counter) c)
    (hrecord : c.state.workers.lookup workerId = some record) (hconnected : record.connected = true)
    (hreplayable : c.state.db.Replayable workerId attemptId)
    (hregistered : ∀ i published, (⟨i, .publish workerId published, ()⟩ : ServiceEvent) ∈ c.log →
      published.connectionId = record.connectionId → ∃ reply, c.tasks[i]? = some (.ret reply))
    (henqueued : ∀ i atMs, (⟨i, .persist (.markAssignmentDispatchable attemptId workerId atMs), .ok true⟩ :
      ServiceEvent) ∈ c.log → ∃ reply, c.tasks[i]? = some (.ret reply)) :
    Covers (frames (c.state.channels record.connectionId)) attemptId ∨
      ∃ (i : Nat) (initialMessages : List ServerToWorker), c.tasks[i]? = some
        (.ret (.registered record.connectionId initialMessages)) ∧ Covers initialMessages attemptId := by
  obtain ⟨gs, hcouriers, hlength, hended, _⟩ := (dispatching_kept.run (dispatching_initial hdb counter) h).ended
  rcases hcouriers.owing.covered workerId record attemptId hrecord hconnected hreplayable with
    hcovers | ⟨g, hg, errand, hm, rfl, rfl, htarget⟩
  · exact .inl hcovers
  · obtain ⟨i, hi⟩ := List.mem_iff_getElem?.mp hg
    have hover : ∃ reply, c.tasks[i]? = some (.ret reply) := by
      rcases hcouriers.owing.origin i g hi errand hm with ⟨published, hpublish, haim⟩ | ⟨atMs, hmark⟩
      · refine hregistered i published hpublish ?_
        rw [haim] at htarget
        exact Option.some.inj (htarget.resolve_left (by simp))
      · exact henqueued i atMs hmark
    obtain ⟨reply, hreply⟩ := hover
    obtain ⟨g', hg', hdischarged⟩ := hended i reply hreply
    obtain rfl : g = g' := by rw [hi] at hg'; exact Option.some.inj hg'
    cases reply with
    | registered connectionId initialMessages =>
      obtain ⟨haim, hcovers⟩ := hdischarged errand hm
      rw [haim] at htarget
      obtain rfl : connectionId = record.connectionId := Option.some.inj (htarget.resolve_left (by simp))
      exact .inr ⟨i, initialMessages, hreply, hcovers⟩
    | _ =>
      have hnone : g.owes = [] := hdischarged
      rw [hnone] at hm
      cases hm

/-- A sufficient check of the condition: no task that has dispatched an assignment has looked for a connection. -/
def nothingMissed (log : List ServiceEvent) : ServiceEvent → Bool
  | ⟨_, .publish .., _⟩ => log.all fun
    | ⟨j, .persist (.markAssignmentDispatchable ..), _⟩ => log.all fun
      | ⟨k, .worker _, _⟩ => decide (k ≠ j)
      | _ => true
    | _ => true
  | _ => true

theorem inSight_of_nothingMissed {s : ServiceState} {log : List ServiceEvent} {e : ServiceEvent}
    (h : nothingMissed log e = true) : inSight s log (.act e) := by
  obtain ⟨i, o, reply⟩ := e
  cases o with
  | publish workerId record =>
    intro before after reply hlog e he attemptId hd found hm
    have helog : e ∈ log := by rw [hlog]; simp [he]
    obtain ⟨j, o, r⟩ := e
    cases o with
    | persist operation =>
      cases operation with
      | markAssignmentDispatchable attempt worker atMs =>
        have hmissed := List.all_eq_true.mp (List.all_eq_true.mp h _ helog) _ hm
        simp at hmissed
      | _ => exact hd
    | _ => exact hd
  | _ => trivial

def inSightPlayer : Player serviceWorld inSight where
  perform := ServiceState.perform
  allows _ := nothingMissed
  acts := ServiceState.perform_acts
  guarded _ _ _ h := inSight_of_nothingMissed h

def sampleRegistration : ServingConfig :=
  (ServingConfig.initial .empty 0).serving
    [.register sampleHello, .enqueueAssignment "worker" (.ok sampleContract)]

/-- The tasks are over, the worker is connected and the attempt is replayable to it. -/
def completed (c : ServingConfig) : Bool :=
  (c.state.workers.lookup "worker").any (fun record => record.connected ∧ record.connectionId = "connection-0") &&
    (c.state.db.assignments.lookup "attempt").any (fun row => row.workerId = "worker" ∧ row.state.isReplayable) &&
    c.log.all fun e => match c.tasks[e.task]? with
      | some (.ret _) => true
      | _ => false

theorem completed_spec {c : ServingConfig} (h : completed c = true) :
    (∃ record, c.state.workers.lookup "worker" = some record ∧ record.connected = true ∧
      record.connectionId = "connection-0") ∧ c.state.db.Replayable "worker" "attempt" ∧
      ∀ e ∈ c.log, ∃ reply, c.tasks[e.task]? = some (.ret reply) := by
  simp only [completed, Bool.and_eq_true] at h
  obtain ⟨⟨hrecord, hrow⟩, hover⟩ := h
  refine ⟨?_, ?_, fun e he => ?_⟩
  · simpa [Option.any_eq_true] using hrecord
  · obtain ⟨row, hlookup, hworker, hstate⟩ : ∃ row, c.state.db.assignments.lookup "attempt" = some row ∧
        row.workerId = "worker" ∧ row.state.isReplayable = true := by simpa [Option.any_eq_true] using hrow
    exact ⟨row, hlookup, hworker, hstate⟩
  · have hdone := List.all_eq_true.mp hover e he
    split at hdone
    · rename_i reply hreply
      exact ⟨reply, hreply⟩
    · cases hdone

theorem replayable_assignment_prepared_sample : ∃ c, Run serviceWorld inSight (ServingConfig.initial .empty 0) c ∧
    c.state.db.Replayable "worker" "attempt" ∧
    (Covers (frames (c.state.channels "connection-0")) "attempt" ∨
      ∃ (i : Nat) (initialMessages : List ServerToWorker),
        c.tasks[i]? = some (.ret (.registered "connection-0" initialMessages)) ∧ Covers initialMessages "attempt") := by
  have hplay : ((inSightPlayer.play (List.replicate 6 0 ++ List.replicate 6 1 ++ [0] ++ List.replicate 8 1)
      sampleRegistration).any completed) = true := by
    decide +kernel
  obtain ⟨c, hrun, hcompleted⟩ := Player.play_any hplay
  obtain ⟨⟨record, hrecord, hconnected, hname⟩, hreplayable, hover⟩ := completed_spec hcompleted
  have hrun' : Run serviceWorld inSight (ServingConfig.initial .empty 0) c :=
    (ServingConfig.run_serving _ _ trivial).trans hrun
  refine ⟨c, hrun', hreplayable, hname ▸ replayable_assignment_prepared .empty hrun' hrecord hconnected hreplayable
    (fun i published hm _ => hover _ hm) fun i atMs hm => hover _ hm⟩

def missed (c : ServingConfig) : Bool :=
  completed c && decide (c.state.channels "connection-0" = []) &&
    match c.tasks with
    | [.ret (.registered _ [frame]), .ret (.enqueued .pending)] => !frame.assigns "attempt"
    | _ => false

/-- An enqueue that dispatches and looks for its worker between the reading and the publication of a registration
leaves the assignment pending. -/
theorem enqueue_misses_registration : ∃ c, Run serviceWorld (fun _ _ _ => True) (ServingConfig.initial .empty 0) c ∧
    (∃ record, c.state.workers.lookup "worker" = some record ∧ record.connected = true ∧
      record.connectionId = "connection-0") ∧
    c.state.db.Replayable "worker" "attempt" ∧ (∀ e ∈ c.log, ∃ reply, c.tasks[e.task]? = some (.ret reply)) ∧
    ¬ (Covers (frames (c.state.channels "connection-0")) "attempt" ∨
      ∃ (i : Nat) (initialMessages : List ServerToWorker),
        c.tasks[i]? = some (.ret (.registered "connection-0" initialMessages)) ∧ Covers initialMessages "attempt") := by
  have hplay : ((servicePlayer.play (List.replicate 6 0 ++ List.replicate 9 1 ++ [0]) sampleRegistration).any
      missed) = true := by
    decide +kernel
  obtain ⟨c, hrun, hmissed⟩ := Player.play_any hplay
  simp only [missed, Bool.and_eq_true, decide_eq_true_eq] at hmissed
  obtain ⟨⟨hcompleted, hchannel⟩, htasks⟩ := hmissed
  obtain ⟨hrecord, hreplayable, hover⟩ := completed_spec hcompleted
  refine ⟨c, (ServingConfig.run_serving _ _ trivial).trans hrun, hrecord, hreplayable, hover, ?_⟩
  rintro (⟨frame, hm, _⟩ | ⟨i, initialMessages, htask, frame, hm, ha⟩)
  · simp [frames, hchannel] at hm
  · split at htasks
    · rename_i first heq
      rw [heq] at htask
      cases i with
      | zero =>
        simp only [List.getElem?_cons_zero, Option.some.injEq, Prog.ret.injEq, ServiceReply.registered.injEq] at htask
        rw [← htask.2, List.mem_singleton] at hm
        rw [hm] at ha
        rw [ha] at htasks
        cases htasks
      | succ i => cases i <;> simp at htask
    · cases htasks

end AlloyPort
