import Mathlib.Data.List.Basic
import AlloyPort.Library.Prog

/-! Tasks over one versioned store. A save names the revision it replaces and is refused when
that revision is no longer the last one. Tasks interleave at every operation, may be stopped
between any two of them, and every call they make outside the store is kept in a history. -/

namespace SharedStore

open Effect

inductive Op (K S C : Type) where
  | load (k : K)
  | save (revision : Nat) (s : S)
  | call (c : C)

def Reply {K S C : Type} (E : Type) (R : C → Type) : Op K S C → Type
  | .load _ => Except E (Nat × S)
  | .save _ _ => Except E Nat
  | .call c => R c

structure Event (C : Type) (R : C → Type) where
  call : C
  reply : R call

abbrev Program (K S C : Type) (E : Type) (R : C → Type) (ε α : Type) :=
  Prog (Op K S C) (Reply E R) ε α

def load {K S C E ε : Type} {R : C → Type} (k : K) : Program K S C E R ε (Except E (Nat × S)) :=
  .op (.load k) .ret

def save {K S C E ε : Type} {R : C → Type} (revision : Nat) (s : S) : Program K S C E R ε (Except E Nat) :=
  .op (.save revision s) .ret

def call {K S C E ε : Type} {R : C → Type} (c : C) : Program K S C E R ε (R c) :=
  .op (.call c) .ret

/-- The environment of the tasks: which states may be created, which programs may be started
on a key, and which replies a call may get. -/
structure Environment (K S C : Type) (E : Type) (R : C → Type) (ε α : Type) where
  key : S → K
  fresh : S → Prop
  answers : (c : C) → R c → Prop
  start : K → Program K S C E R ε α → Prop

/-- The store keeps every version it ever held; the last one is current and its index is its
revision. -/
structure Config (K S C : Type) (E : Type) (R : C → Type) (ε α : Type) where
  store : K → List S
  history : List (Event C R)
  tasks : List (K × Program K S C E R ε α)

def Loads {S E : Type} (versions : List S) : Except E (Nat × S) → Prop
  | .error _ => True
  | .ok (revision, s) => revision + 1 = versions.length ∧ versions.getLast? = some s

variable {K S C E ε α : Type} {R : C → Type}

def Config.initial : Config K S C E R ε α := ⟨fun _ => [], [], []⟩

inductive Step [DecidableEq K] (env : Environment K S C E R ε α) :
    Config K S C E R ε α → Config K S C E R ε α → Prop where
  | create {c} (s : S) (hf : env.fresh s) (hn : c.store (env.key s) = []) :
      Step env c { c with store := Function.update c.store (env.key s) [s] }
  | start {c} (k : K) (p : Program K S C E R ε α) (hs : env.start k p) :
      Step env c { c with tasks := c.tasks ++ [(k, p)] }
  | crash {store history l t r} :
      Step env ⟨store, history, l ++ t :: r⟩ ⟨store, history, l ++ r⟩
  | load {store history l k k' next r} (reply : Except E (Nat × S))
      (hl : Loads (store k') reply) :
      Step env ⟨store, history, l ++ (k, .op (.load k') next) :: r⟩
        ⟨store, history, l ++ (k, next reply) :: r⟩
  | saveRefused {store history l k revision s next r} (e : E) :
      Step env ⟨store, history, l ++ (k, .op (.save revision s) next) :: r⟩
        ⟨store, history, l ++ (k, next (.error e)) :: r⟩
  | save {store history l k revision s next r}
      (hr : revision + 1 = (store (env.key s)).length) :
      Step env ⟨store, history, l ++ (k, .op (.save revision s) next) :: r⟩
        ⟨Function.update store (env.key s) (store (env.key s) ++ [s]), history,
          l ++ (k, next (.ok (revision + 1))) :: r⟩
  | call {store history l k c next r} (reply : R c) (ha : env.answers c reply) :
      Step env ⟨store, history, l ++ (k, .op (.call c) next) :: r⟩
        ⟨store, history ++ [⟨c, reply⟩], l ++ (k, next reply) :: r⟩

abbrev Reachable [DecidableEq K] (env : Environment K S C E R ε α) :=
  Relation.ReflTransGen (Step env) Config.initial

/-- What a task knows: the version it loaded or saved last, the version it replaced if the
save was its own and the call that save pays for is still to come, and the calls since. -/
structure View (S C : Type) (R : C → Type) where
  revision : Nat
  state : S
  replaced : Option S
  log : List (Event C R)

/-- The rules the programs follow: `step` relates a version to the one saved over it, given the
calls made in between; `calls` says which call may come after them; a `linear` call is paid for
by the save that `mints` it. -/
structure Protocol (K S C : Type) (R : C → Type) where
  step : K → S → List (Event C R) → S → Prop
  calls : K → S → List (Event C R) → C → Prop
  linear : C → Prop
  mints : S → S → C → Prop

def contract [DecidableEq K] (env : Environment K S C E R ε α) (P : Protocol K S C R) [DecidablePred P.linear]
    (k : K) : Contract (Op K S C) (Reply E R) (Option (View S C R)) where
  pre
    | g, .load k' => k' = k ∧ g = none
    | g, .save revision s => ∃ v, g = some v ∧ revision = v.revision ∧ env.key s = k ∧ P.step k v.state v.log s
    | g, .call c => ∃ v, g = some v ∧ P.calls k v.state v.log c ∧
      (P.linear c → ∃ s, v.replaced = some s ∧ P.mints s v.state c)
  post
    | _, .load _, .error _, g => g = none
    | _, .load k', .ok (revision, s), g => env.key s = k' ∧ g = some ⟨revision, s, none, []⟩
    | _, .save _ _, .error _, g => g = none
    | g, .save revision s, .ok revision', g' =>
      revision' = revision + 1 ∧ g' = some ⟨revision', s, g.map (·.state), []⟩
    | g, .call c, reply, g' => env.answers c reply ∧
      g' = g.map fun v => { v with
        replaced := if P.linear c then none else v.replaced, log := v.log ++ [⟨c, reply⟩] }

variable [DecidableEq K] {env : Environment K S C E R ε α} {P : Protocol K S C R} [DecidablePred P.linear]
variable {β : Type} {v : View S C R} {k : K}

theorem wp_load {k' : K} {g : Option (View S C R)} {Q : Option (View S C R) → Except E (Nat × S) → Prop} :
    wp (contract env P k) g (load k' : Program K S C E R β _) Q ↔ (k' = k ∧ g = none) ∧ (∀ e, Q none (.error e)) ∧
      ∀ revision s, env.key s = k' → Q (some ⟨revision, s, none, []⟩) (.ok (revision, s)) := by
  refine and_congr_right fun _ => ⟨fun h => ⟨fun e => h (.error e) none rfl, fun revision s hs =>
    h (.ok (revision, s)) _ ⟨hs, rfl⟩⟩, ?_⟩
  rintro ⟨he, hok⟩ (e | ⟨revision, s⟩) g' hp
  · cases hp
    exact he e
  · obtain ⟨hs, rfl⟩ := hp
    exact hok revision s hs

theorem wp_save {revision : Nat} {s : S}
    {Q : Option (View S C R) → Except E Nat → Prop} (hr : revision = v.revision) (hk : env.key s = k)
    (hs : P.step k v.state v.log s) (he : ∀ e, Q none (.error e))
    (hok : Q (some ⟨revision + 1, s, some v.state, []⟩) (.ok (revision + 1))) :
    wp (contract env P k) (some v) (save revision s : Program K S C E R β _) Q := by
  refine ⟨⟨v, rfl, hr, hk, hs⟩, ?_⟩
  rintro (e | revision') g' hp
  · cases hp
    exact he e
  · obtain ⟨rfl, rfl⟩ := hp
    exact hok

theorem wp_call {c : C} {Q : Option (View S C R) → R c → Prop}
    (hc : P.calls k v.state v.log c) (hl : P.linear c → ∃ s, v.replaced = some s ∧ P.mints s v.state c)
    (h : ∀ reply, env.answers c reply → Q (some { v with
      replaced := if P.linear c then none else v.replaced, log := v.log ++ [⟨c, reply⟩] }) reply) :
    wp (contract env P k) (some v) (call c : Program K S C E R β _) Q := by
  refine ⟨⟨v, rfl, hc, hl⟩, ?_⟩
  rintro reply g' ⟨ha, rfl⟩
  exact h reply ha

end SharedStore

namespace SharedStore

variable {K S C E ε α : Type} {R : C → Type} [DecidableEq K]

/-- The program runs alone: every call is answered by `oracle`, and a load or save that the store
refuses by `missing`. -/
def runAlone (key : S → K) (missing : E) (oracle : (c : C) → R c) :
    Program K S C E R ε α → (K → List S) × List (Event C R) → (K → List S) × List (Event C R)
  | .ret _, done => done
  | .fail _, done => done
  | .op (.load k) next, (store, history) =>
    match (store k).getLast? with
    | some s => runAlone key missing oracle (next (.ok ((store k).length - 1, s))) (store, history)
    | none => runAlone key missing oracle (next (.error missing)) (store, history)
  | .op (.save revision s) next, (store, history) =>
    if revision + 1 = (store (key s)).length then
      runAlone key missing oracle (next (.ok (revision + 1)))
        (Function.update store (key s) (store (key s) ++ [s]), history)
    else runAlone key missing oracle (next (.error missing)) (store, history)
  | .op (.call c) next, (store, history) =>
    runAlone key missing oracle (next (oracle c)) (store, history ++ [⟨c, oracle c⟩])

def runUntil (key : S → K) (missing : E) (oracle : (c : C) → R c) (stop : C → Bool) :
    Program K S C E R ε α → (K → List S) × List (Event C R) →
      Program K S C E R ε α × (K → List S) × List (Event C R)
  | .ret a, done => (.ret a, done)
  | .fail e, done => (.fail e, done)
  | .op (.load k) next, (store, history) =>
    match (store k).getLast? with
    | some s => runUntil key missing oracle stop (next (.ok ((store k).length - 1, s))) (store, history)
    | none => runUntil key missing oracle stop (next (.error missing)) (store, history)
  | .op (.save revision s) next, (store, history) =>
    if revision + 1 = (store (key s)).length then
      runUntil key missing oracle stop (next (.ok (revision + 1)))
        (Function.update store (key s) (store (key s) ++ [s]), history)
    else runUntil key missing oracle stop (next (.error missing)) (store, history)
  | .op (.call c) next, (store, history) =>
    if stop c then (.op (.call c) next, store, history)
    else runUntil key missing oracle stop (next (oracle c)) (store, history ++ [⟨c, oracle c⟩])

/-- One operation of the program. A load or a save fails without an effect if there is a fault. -/
def serve (key : S → K) (missing : E) (fault : Option E) (oracle : (c : C) → R c) (store : K → List S) :
    Program K S C E R ε α → (K → List S) × Program K S C E R ε α
  | .ret a => (store, .ret a)
  | .fail e => (store, .fail e)
  | .op (.load k) next =>
    match fault, (store k).getLast? with
    | none, some s => (store, next (.ok ((store k).length - 1, s)))
    | none, none => (store, next (.error missing))
    | some e, _ => (store, next (.error e))
  | .op (.save revision s) next =>
    match fault with
    | some e => (store, next (.error e))
    | none =>
      if revision + 1 = (store (key s)).length then
        (Function.update store (key s) (store (key s) ++ [s]), next (.ok (revision + 1)))
      else (store, next (.error missing))
  | .op (.call c) next => (store, next (oracle c))

def runAll (key : S → K) (missing : E) :
    List (Program K S C E R ε α × ((c : C) → R c)) → (K → List S) × List (Event C R) →
      (K → List S) × List (Event C R)
  | [], done => done
  | (p, oracle) :: rest, done => runAll key missing rest (runAlone key missing oracle p done)

variable {env : Environment K S C E R ε α} {m : E}
variable {oracle : (c : C) → R c}

theorem steps_runUntil {stop : C → Bool} (ha : ∀ c, env.answers c (oracle c)) (k : K)
    (p : Program K S C E R ε α) (store : K → List S) (history : List (Event C R))
    (l r : List (K × Program K S C E R ε α)) :
    Relation.ReflTransGen (Step env) ⟨store, history, l ++ (k, p) :: r⟩
      ⟨(runUntil env.key m oracle stop p (store, history)).2.1, (runUntil env.key m oracle stop p (store, history)).2.2,
        l ++ (k, (runUntil env.key m oracle stop p (store, history)).1) :: r⟩ := by
  induction p generalizing store history with
  | ret a => exact .refl
  | fail e => exact .refl
  | op o next ih =>
    cases o with
    | load k' =>
      cases hs : (store k').getLast? with
      | none =>
        simp only [runUntil, hs]
        exact .head (.load (.error m) trivial) (ih _ store history)
      | some s =>
        simp only [runUntil, hs]
        have hlen : 0 < (store k').length := List.length_pos_of_mem (List.mem_of_getLast? hs)
        exact .head (.load (.ok ((store k').length - 1, s)) ⟨by omega, hs⟩) (ih _ store history)
    | save revision s =>
      simp only [runUntil]
      split
      · rename_i hr
        exact .head (.save hr) (ih _ _ history)
      · exact .head (.saveRefused m) (ih _ store history)
    | call c =>
      simp only [runUntil]
      split
      · exact .refl
      · exact .head (.call (oracle c) (ha c)) (ih _ store _)

theorem runAlone_eq {key : S → K} (p : Program K S C E R ε α) (store : K → List S) (history : List (Event C R)) :
    runAlone key m oracle p (store, history) = (runUntil key m oracle (fun _ => false) p (store, history)).2 := by
  induction p generalizing store history with
  | ret | fail => rfl
  | op o next ih =>
    cases o with
    | load | save =>
      simp only [runAlone, runUntil]
      split <;> exact ih _ _ _
    | call c => exact ih _ _ _

theorem steps_runAlone (ha : ∀ c, env.answers c (oracle c)) (k : K)
    (p : Program K S C E R ε α) (store : K → List S) (history : List (Event C R))
    (l r : List (K × Program K S C E R ε α)) :
    Relation.ReflTransGen (Step env) ⟨store, history, l ++ (k, p) :: r⟩
      ⟨(runAlone env.key m oracle p (store, history)).1,
        (runAlone env.key m oracle p (store, history)).2, l ++ r⟩ := by
  rw [runAlone_eq]
  exact (steps_runUntil ha k p store history l r).tail .crash

theorem steps_runAll {script : List (Program K S C E R ε α × ((c : C) → R c))}
    (hs : ∀ x ∈ script, (∃ k, env.start k x.1) ∧ ∀ c, env.answers c (x.2 c)) (store : K → List S)
    (history : List (Event C R)) (tasks : List (K × Program K S C E R ε α)) :
    Relation.ReflTransGen (Step env) ⟨store, history, tasks⟩ ⟨(runAll env.key m script (store, history)).1,
      (runAll env.key m script (store, history)).2, tasks⟩ := by
  induction script generalizing store history with
  | nil => exact .refl
  | cons x script ih =>
    obtain ⟨⟨k, hk⟩, ha⟩ := hs x List.mem_cons_self
    have hrun := steps_runAlone (m := m) ha k x.1 store history tasks []
    rw [List.append_nil] at hrun
    refine .head (.start k x.1 hk) (hrun.trans ?_)
    exact ih (fun y hy => hs y (List.mem_cons_of_mem _ hy)) _ _

variable {P : Protocol K S C R} [DecidablePred P.linear]

theorem runAlone_frame (ha : ∀ c, env.answers c (oracle c)) {k k' : K} (hk : k' ≠ k)
    {p : Program K S C E R ε α} {g : Option (View S C R)} {Q : Option (View S C R) → α → Prop}
    (hw : Effect.wp (contract env P k) g p Q) {store : K → List S} {history : List (Event C R)}
    (hs : ∀ s ∈ store k, env.key s = k) :
    (runAlone env.key m oracle p (store, history)).1 k' = store k' := by
  induction p generalizing g store history with
  | ret a => rfl
  | fail e => rfl
  | op o next ih =>
    obtain ⟨hpre, hnext⟩ := hw
    cases o with
    | load k₀ =>
      obtain ⟨rfl, _⟩ := hpre
      cases hlast : (store k₀).getLast? with
      | none =>
        simp only [runAlone, hlast]
        exact ih _ (hnext (.error m) none rfl) hs
      | some s =>
        simp only [runAlone, hlast]
        exact ih _ (hnext (.ok ((store k₀).length - 1, s)) _ ⟨hs s (List.mem_of_getLast? hlast), rfl⟩) hs
    | save revision s =>
      obtain ⟨v, rfl, rfl, hkey, _⟩ := hpre
      simp only [runAlone]
      split
      · rw [ih _ (hnext (.ok (v.revision + 1)) _ ⟨rfl, rfl⟩) ?_, hkey, Function.update_of_ne hk]
        intro t ht
        rw [hkey, Function.update_self, List.mem_append, List.mem_singleton] at ht
        rcases ht with ht | rfl
        · exact hs t ht
        · exact hkey
      · exact ih _ (hnext (.error m) none rfl) hs
    | call c =>
      simp only [runAlone]
      exact ih _ (hnext (oracle c) _ ⟨ha c, rfl⟩) hs

end SharedStore
