import AlloyPort.ControlStream.Serving
import AlloyPort.ControlStream.Speaking

/-! What is on its way on a control stream. Before the response is handed over, the frames prepared for a connection
have to fit its channel; afterwards, what the session has sent and taken on has to fit the way up, or the
acknowledgements of it the way down. -/

namespace AlloyPort.ControlStream

open Effect Interleaving Backpressure

/-- What a task is: a session, the handler of its call, or the consumer of its stream. -/
inductive Role where
  | session (n : Nat)
  | call (n : Nat)
  | consumer (connectionId : String)

def Caller.role : Caller → Option Role
  | .call n => some (.call n)
  | .consumer connectionId => some (.consumer connectionId)
  | .request => none

structure Hand where
  role : Option Role
  credit : Credit
  burden : Burden

def Hand.idle : Hand := ⟨none, .idle, .idle⟩

def linking : Contract LinkOp LinkOp.Reply Hand where
  pre
    | g, .begin _ | g, .accept | g, .attach => g = .idle
    | _, .finish _ => True
    | g, .work n _ o => g.role = some (.session n) ∧ speaking.pre g.burden o
    | g, .serve caller o => g.role = caller.role ∧ (crediting caller).pre g.credit o
    | g, .answer n => g.role = some (.call n)
  post
    | g, .begin _, n, g' => g' = { g with role := some (.session n) }
    | g, .accept, call, g' => g' = { g with role := some (.call call.1) }
    | g, .attach, stream, g' => g' = ⟨some (.consumer stream.2), { g.credit with due := [stream.2] }, g.burden⟩
    | g, .work _ _ o, reply, g' => g' = { g with burden := g.burden.after o reply }
    | g, .serve caller o, reply, g' =>
        ∃ credit, (crediting caller).post g.credit o reply credit ∧ g' = { g with credit := credit }
    | g, .finish _, _, g' | g, .answer _, _, g' => g' = g

section programs

variable {ε α : Type} {g : Hand}

theorem links_work {n : Nat} {workerId : String} {p : WorkerProgram ε α} (hrole : g.role = some (.session n))
    (h : ends speaking g.burden p fun _ _ => True) :
    ends linking g (LinkProgram.work n workerId p) fun _ _ => True := by
  induction p generalizing g with
  | ret a => trivial
  | fail e => trivial
  | op o next ih =>
    refine ⟨⟨hrole, h.1⟩, fun reply g' hg' => ?_⟩
    obtain rfl : g' = _ := hg'
    exact ih reply hrole (h.2 reply _ rfl)

theorem links_serve {caller : Caller} {p : ServiceProgram ε α} {R : Credit → Except ε α → Prop}
    (hrole : g.role = caller.role) (h : ends (crediting caller) g.credit p R) :
    ends linking g (LinkProgram.serve caller p) fun g' r => g'.role = caller.role ∧ ∃ x, r = .ok x ∧ R g'.credit x := by
  induction p generalizing g with
  | ret | fail => exact ⟨hrole, _, rfl, h⟩
  | op o next ih =>
    refine ⟨⟨hrole, h.1⟩, fun reply g' hg' => ?_⟩
    obtain ⟨credit, hpost, rfl⟩ := hg'
    exact ih reply hrole (h.2 reply credit hpost)

theorem links_starts {p : LinkProgram} (h : Starts p) : ends linking .idle p fun _ _ => True := by
  have hrequest : ∀ {ε α : Type} {p : ServiceProgram ε α}, ends (crediting .request) .idle p (fun _ _ => True) →
      ends linking .idle (LinkProgram.serve .request p >>= fun _ => pure ()) fun _ _ => True := by
    intro ε α p hp
    refine ends_bind.mpr (ends_mono (links_serve (g := .idle) rfl hp) fun g' r _ => ?_)
    cases r <;> trivial
  cases h with
  | session worker turns =>
    refine ⟨rfl, fun n g hg => ?_⟩
    obtain rfl : g = _ := hg
    exact ends_bind_cases (links_work rfl says_runSession)
      (fun _ _ _ => trivial) fun _ _ _ => ⟨trivial, fun _ _ _ => trivial⟩
  | call =>
    refine ⟨rfl, fun called g hg => ?_⟩
    obtain rfl : g = _ := hg
    refine ends_bind.mpr (ends_mono (links_serve rfl credits_openControlStream) fun g' r hr => ?_)
    obtain ⟨hrole, x, rfl, _⟩ := hr
    cases x with
    | error status => trivial
    | ok connectionId => exact ⟨hrole, fun _ _ _ => trivial⟩
  | consumer frames =>
    refine ⟨rfl, fun stream g hg => ?_⟩
    obtain rfl : g = _ := hg
    refine ends_bind.mpr (ends_mono (links_serve rfl (credits_consumeStream List.mem_cons_self)) fun g' r _ => ?_)
    cases r <;> trivial
  | enqueue workerId assignment => exact hrequest credits_enqueueAssignment
  | cancel attemptId reason => exact hrequest credits_cancelAttempt

end programs

def Burden.step (n : Nat) (b : Burden) : LinkEvent → Burden
  | ⟨_, .work m _ o, reply⟩ => if m = n then b.after o reply else b
  | _ => b

def burden (log : List LinkEvent) (n : Nat) : Burden := log.foldl (Burden.step n) .idle

/-- The step commits the service to one more frame for a session: it is prepared by the handler of its call, or for its
connection by a request, or it will acknowledge the frame that is taken in. -/
def commits (n : Nat) (connectionId : String) : LinkEvent → Bool
  | ⟨_, .serve (.call m) (.publish ..), _⟩ => m = n
  | ⟨_, .serve (.call m) (.advance ..), true⟩ => m = n
  | ⟨_, .serve .request (.advance _ found _), true⟩ => found = connectionId
  | ⟨_, .serve (.consumer _) (.receive stream), some (.ok frame)⟩ => stream = connectionId && isDurable frame
  | _ => false

def commitments (log : List LinkEvent) (n : Nat) (connectionId : String) : Nat := log.countP (commits n connectionId)

/-- The frames on their way up, in the order in which the service takes them in. -/
def Link.kinds (s : Link) (connectionId : String) : List Bool :=
  (s.service.inbound connectionId ++ s.outgoing connectionId).map isDurable

/-- The frames prepared for a connection fit its channel, as long as nothing drains it; then what goes up fits the way
up, or the frames for the session fit the way down, with the acknowledgements of the former and a last status. -/
def Room (buffers : Buffers) (s : Link) (log : List LinkEvent) (n : Nat) (connectionId : String) : Prop :=
  if (s.calls n).isHanded = true then
    Passes (channelCapacity + buffers.up) (channelCapacity + buffers.down) (s.kinds connectionId ++ (burden log n).owes)
      (commitments log n connectionId - s.read connectionId + 1)
  else commitments log n connectionId ≤ channelCapacity

instance {buffers : Buffers} {s : Link} {log : List LinkEvent} {n : Nat} {connectionId : String} :
    Decidable (Room buffers s log n connectionId) := by
  unfold Room
  infer_instance

/-- The step gives a session's connection more to carry: a frame is prepared for it, or the session takes frames on. -/
def Loads (s : Link) (n : Nat) (connectionId : String) : LinkEvent → Prop
  | ⟨_, .serve (.call m) (.publish _ record), _⟩ => m = n ∧ record.connectionId = connectionId
  | ⟨_, .serve (.call m) (.advance ..), true⟩ => m = n ∧ (s.calls n).connection = some connectionId
  | ⟨_, .serve .request (.advance _ found _), true⟩ => found = connectionId ∧ (s.calls n).connection = some connectionId
  | ⟨_, .work m _ (.journal .pendingOutbox), .ok _⟩ => m = n ∧ (s.calls n).connection = some connectionId
  | ⟨_, .work m _ (.select _), .heartbeat⟩ => m = n ∧ (s.calls n).connection = some connectionId
  | ⟨_, .work m _ (.select _), .update _⟩ => m = n ∧ (s.calls n).connection = some connectionId
  | _ => False

def withRoom (buffers : Buffers) : Guard Link LinkOp LinkOp.Reply := fun s log label =>
  match label with
  | .act e => ∀ n connectionId, Loads s n connectionId e → Room buffers s (log ++ [e]) n connectionId
  | _ => True

structure Cast (s : Link) (log : List LinkEvent) (gs : List Hand) : Prop where
  session : ∀ g ∈ gs, ∀ n, g.role = some (.session n) → n < s.sessions ∧ g.burden = burden log n
  unborn : ∀ n, s.sessions ≤ n → burden log n = .idle
  established : ∀ n c, (burden log n).stream = some c → ∃ w, s.calls n = .established w c
  mute : ∀ n, (burden log n).stream = none → (burden log n).owes = []
  serving : ∀ g ∈ gs, ∀ n, g.role = some (.call n) → g.credit.own = none → s.calls n = .serving
  called : ∀ g ∈ gs, ∀ n c, g.role = some (.call n) → g.credit.own = some c → (s.calls n).connection = some c
  consumer : ∀ g ∈ gs, ∀ c, g.role = some (.consumer c) → c ∈ s.attached
  apart : ∀ (i j : Nat) g g', gs[i]? = some g → gs[j]? = some g' → g.role = g'.role → g.role ≠ none → i = j

def Link.Known (s : Link) (connectionId : String) : Prop := ∃ n, (s.calls n).connection = some connectionId

structure Owned (s : Link) (gs : List Hand) : Prop where
  named : Named s.service.connectionCounter (gs.map (·.credit.reserved)) s.Known
  owner : ∀ n n' c, (s.calls n).connection = some c → (s.calls n').connection = some c → n = n'
  record : ∀ w r, s.service.workers.lookup w = some r → r.sender = r.connectionId ∧ s.Known r.connectionId
  due : ∀ g ∈ gs, ∀ c ∈ g.credit.due, s.Known c
  attached : ∀ c ∈ s.attached, s.Drained c

def dueOn (gs : List Hand) (connectionId : String) : Nat := (gs.flatMap (·.credit.due)).count connectionId

structure Carries (buffers : Buffers) (s : Link) (log : List LinkEvent) (gs : List Hand) : Prop where
  silent : ∀ c, ¬ s.Known c → s.service.channels c = []
  undrained : ∀ c, ¬ s.Drained c → s.carried c = 0 ∧ s.outgoing c = [] ∧ s.service.inbound c = []
  sent : ∀ n c, (s.calls n).connection = some c → (s.service.channels c).length + dueOn gs c ≤
    commitments log n c + if c ∈ s.attached then 1 else 0
  room : ∀ n c, (s.calls n).connection = some c → Room buffers s log n c

def flowing (buffers : Buffers) : Scheme Link LinkOp LinkOp.Reply Unit Unit Hand where
  contract := linking
  final _ _ := True
  invariant s log gs := Cast s log gs ∧ Owned s gs ∧ Carries buffers s log gs

section facts

variable {buffers : Buffers} {s s' : Link} {log log' : List LinkEvent} {gs : List Hand} {i n : Nat} {g g' : Hand}
variable {e : LinkEvent} {connectionId : String}

theorem commitments_append : commitments (log ++ [e]) n connectionId =
    commitments log n connectionId + if commits n connectionId e then 1 else 0 := by
  rw [commitments, List.countP_append, List.countP_singleton]
  rfl

theorem burden_append : burden (log ++ [e]) n = (burden log n).step n e := by
  rw [burden, List.foldl_append]
  rfl

theorem dueOn_set (hget : gs[i]? = some g) (g' : Hand) (connectionId : String) :
    dueOn (gs.set i g') connectionId + g.credit.due.count connectionId =
      dueOn gs connectionId + g'.credit.due.count connectionId := by
  obtain ⟨rest, hl, hset⟩ := flatMap_set_perm (fun g : Hand => g.credit.due) hget
  have hold := hl.count_eq connectionId
  have hnew := (hset g').count_eq connectionId
  rw [List.count_append] at hold hnew
  unfold dueOn
  omega

theorem dueOn_pos (hget : gs[i]? = some g) (hm : connectionId ∈ g.credit.due) : 0 < dueOn gs connectionId :=
  List.count_pos_iff.mpr (List.mem_flatMap.mpr ⟨g, List.mem_of_getElem? hget, hm⟩)

theorem Link.Drained.known (h : s.Drained connectionId) : s.Known connectionId := by
  obtain ⟨n, hconn, _⟩ := h
  exact ⟨n, hconn⟩

theorem Room.less (h : Room buffers s log n connectionId) (hhanded : (s'.calls n).isHanded = (s.calls n).isHanded)
    (hkinds : s'.kinds connectionId ++ (burden log' n).owes = s.kinds connectionId ++ (burden log n).owes)
    (hcommits : commitments log' n connectionId = commitments log n connectionId)
    (hread : s.read connectionId ≤ s'.read connectionId) : Room buffers s' log' n connectionId := by
  unfold Room at h ⊢
  rw [hhanded, hkinds, hcommits]
  split at h
  · rw [if_pos ‹_›]
    exact h.mono (by omega)
  · rw [if_neg ‹_›]
    exact h

theorem flowing_not_deadlocked {c : LinkConfig} (h : (flowing buffers).Holds c) : ¬ Deadlocked buffers c := by
  obtain ⟨gs, htasks, hcast, howned, hcarries⟩ := h
  have hwaits : ∀ {caller : Caller} {connectionId : String}, ServiceWaits c caller connectionId →
      ∃ g ∈ gs, g.role = caller.role ∧ 0 < dueOn gs connectionId ∧ c.state.Known connectionId ∧
        c.state.DownFull connectionId := by
    rintro caller connectionId ⟨i, frame, next, ht, _, hfull⟩
    obtain ⟨g, hget, ⟨hrole, hdue⟩, _⟩ := forall₂_getElem? htasks ht
    have hmem := List.mem_of_getElem? hget
    exact ⟨g, hmem, hrole, dueOn_pos hget hdue, howned.due g hmem _ hdue, hfull⟩
  rintro ⟨connectionId, ⟨⟨caller, hservice⟩, hundrained⟩ | ⟨hservice, hworker, hdown, hup⟩⟩
  · obtain ⟨g, _, _, hdue, ⟨n, hconn⟩, hfull⟩ := hwaits hservice
    have hhanded : ¬ (c.state.calls n).isHanded = true := fun h => hundrained ⟨n, hconn, h⟩
    have hattached : connectionId ∉ c.state.attached := fun h => hundrained (howned.attached _ h)
    have hroom := hcarries.room n connectionId hconn
    have hsent := hcarries.sent n connectionId hconn
    rw [Room, if_neg hhanded] at hroom
    rw [if_neg hattached] at hsent
    rw [Link.DownFull, (hcarries.undrained connectionId hundrained).1] at hfull
    omega
  · obtain ⟨g, hmem, hrole, hdue, ⟨n, hconn⟩, hfull⟩ := hwaits hservice
    have hattached := hcast.consumer g hmem connectionId hrole
    obtain ⟨m, hm, hhanded⟩ := howned.attached _ hattached
    obtain rfl := howned.owner n m connectionId hconn hm
    obtain ⟨i, m, workerId, frame, next, ht, hfullUp⟩ := hworker
    obtain ⟨g', hget, ⟨hrole', hstream, rest, howes⟩, _⟩ := forall₂_getElem? htasks ht
    obtain ⟨_, hburden⟩ := hcast.session g' (List.mem_of_getElem? hget) m hrole'
    rw [hburden] at hstream howes
    obtain ⟨w, hstage⟩ := hcast.established m connectionId hstream
    obtain rfl := howned.owner m n connectionId (by rw [hstage]; rfl) hconn
    have hroom := hcarries.room m connectionId hconn
    have hsent := hcarries.sent m connectionId hconn
    rw [Room, if_pos hhanded] at hroom
    rw [if_pos hattached] at hsent
    have hfit := hroom.owed_le (by
      rw [howes, List.length_append, Link.kinds, List.length_map, List.length_append, List.length_cons]
      unfold Link.UpFull at hfullUp
      omega)
    unfold Link.DownFull at hfull
    omega

end facts

end AlloyPort.ControlStream
