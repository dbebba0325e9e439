import AlloyPort.Library.Compliance

/-! Tasks over a versioned store whose calls also change a second store, the world. No two tasks
work on one key at a time. What the protocol says about one key, the calls since its last load
or save and the world is kept along every run whose steps meet a guard. -/

namespace SharedStore

open Effect

/-- How the world changes: by a call of a task on a key, when the first version of a key is
created, and on its own. -/
structure Surroundings (K S C W : Type) (R : C → Type) where
  acts : K → W → (c : C) → R c → W → Prop
  opens : W → S → W → Prop
  drifts : W → W → Prop

inductive Label (S C : Type) (R : C → Type) where
  | save (s : S)
  | refuse
  | call (e : Event C R)
  | stop (finished : Bool)

abbrev Guard (K S C W : Type) (R : C → Type) := K → W → List S → Label S C R → Prop

structure Coupled (K S C W E : Type) (R : C → Type) (ε α : Type) where
  config : Config K S C E R ε α
  world : W

def finished {Op : Type} {Reply : Op → Type} {ε α : Type} : Prog Op Reply ε α → Bool
  | .op _ _ => false
  | _ => true

variable {K S C W E ε α : Type} {R : C → Type} [DecidableEq K]

inductive CoupledStep (env : Environment K S C E R ε α) (sur : Surroundings K S C W R) (guard : Guard K S C W R) :
    Coupled K S C W E R ε α → Coupled K S C W E R ε α → Prop where
  | create {c w w'} (s : S) (hf : env.fresh s) (hn : c.store (env.key s) = []) (ho : sur.opens w s w') :
      CoupledStep env sur guard ⟨c, w⟩ ⟨{ c with store := Function.update c.store (env.key s) [s] }, w'⟩
  | drift {c w w'} (hd : sur.drifts w w') : CoupledStep env sur guard ⟨c, w⟩ ⟨c, w'⟩
  | start {c w} (k : K) (p : Program K S C E R ε α) (hs : env.start k p) (hx : ∀ t ∈ c.tasks, t.1 ≠ k) :
      CoupledStep env sur guard ⟨c, w⟩ ⟨{ c with tasks := c.tasks ++ [(k, p)] }, w⟩
  | stop {store history l t r w} (hg : guard t.1 w (store t.1) (.stop (finished t.2))) :
      CoupledStep env sur guard ⟨⟨store, history, l ++ t :: r⟩, w⟩ ⟨⟨store, history, l ++ r⟩, w⟩
  | load {store history l k k' next r w} (reply : Except E (Nat × S)) (hl : Loads (store k') reply) :
      CoupledStep env sur guard ⟨⟨store, history, l ++ (k, .op (.load k') next) :: r⟩, w⟩
        ⟨⟨store, history, l ++ (k, next reply) :: r⟩, w⟩
  | saveRefused {store history l k revision s next r w} (e : E) (hg : guard k w (store k) .refuse) :
      CoupledStep env sur guard ⟨⟨store, history, l ++ (k, .op (.save revision s) next) :: r⟩, w⟩
        ⟨⟨store, history, l ++ (k, next (.error e)) :: r⟩, w⟩
  | save {store history l k revision s next r w} (hr : revision + 1 = (store (env.key s)).length)
      (hg : guard k w (store k) (.save s)) :
      CoupledStep env sur guard ⟨⟨store, history, l ++ (k, .op (.save revision s) next) :: r⟩, w⟩
        ⟨⟨Function.update store (env.key s) (store (env.key s) ++ [s]), history,
          l ++ (k, next (.ok (revision + 1))) :: r⟩, w⟩
  | call {store history l k c next r w w'} (reply : R c) (ha : sur.acts k w c reply w')
      (hg : guard k w (store k) (.call ⟨c, reply⟩)) :
      CoupledStep env sur guard ⟨⟨store, history, l ++ (k, .op (.call c) next) :: r⟩, w⟩
        ⟨⟨store, history ++ [⟨c, reply⟩], l ++ (k, next reply) :: r⟩, w'⟩

inductive CoupledRun (env : Environment K S C E R ε α) (sur : Surroundings K S C W R) (guard : Guard K S C W R)
    (initial : W → Prop) : Coupled K S C W E R ε α → Prop where
  | refl {w} (hw : initial w) : CoupledRun env sur guard initial ⟨.initial, w⟩
  | tail {c c'} (h : CoupledRun env sur guard initial c) (hs : CoupledStep env sur guard c c') :
      CoupledRun env sur guard initial c'

variable {env : Environment K S C E R ε α} {sur : Surroundings K S C W R} {guard : Guard K S C W R}
variable {initial : W → Prop} {P : Protocol K S C R} [DecidablePred P.linear]

/-- The rules an account of one key has to keep: the world, the versions of the key and the calls
since the last of them was loaded or saved. -/
structure Keeping (env : Environment K S C E R ε α) (P : Protocol K S C R) (sur : Surroundings K S C W R)
    (guard : Guard K S C W R) (J : K → W → List S → List (Event C R) → Prop) : Prop where
  answered : ∀ {k w c reply w'}, sur.acts k w c reply w' → env.answers c reply
  created : ∀ {k w s w'}, J k w [] [] → env.fresh s → env.key s = k → sur.opens w s w' → J k w' [s] []
  saved : ∀ {k w front s log s'}, J k w (front ++ [s]) log → P.step k s log s' → env.key s' = k →
    guard k w (front ++ [s]) (.save s') → J k w (front ++ [s] ++ [s']) []
  called : ∀ {k w front s log c reply w'}, J k w (front ++ [s]) log → P.calls k s log c →
    sur.acts k w c reply w' → guard k w (front ++ [s]) (.call ⟨c, reply⟩) →
    J k w' (front ++ [s]) (log ++ [⟨c, reply⟩])
  refused : ∀ {k w versions log}, J k w versions log → guard k w versions .refuse → J k w versions []
  stopped : ∀ {k w versions log b}, J k w versions log → guard k w versions (.stop b) → J k w versions []
  drifted : ∀ {k w versions log w'}, J k w versions log → sur.drifts w w' → J k w' versions log
  /-- The creation of another key, and a call made for another key. -/
  elsewhere : ∀ {k w versions log s w'}, J k w versions log → env.key s ≠ k → sur.opens w s w' →
    J k w' versions log
  aside : ∀ {k k' w versions log front s log' c reply w'}, J k w versions log → k' ≠ k →
    J k' w (front ++ [s]) log' → P.calls k' s log' c → sur.acts k' w c reply w' → J k w' versions log

def viewLog (v : Option (View S C R)) : List (Event C R) :=
  match v with
  | some v => v.log
  | none => []

/-- Every task's view is the current version of its key, and the account of every key is kept. -/
structure Accounted (env : Environment K S C E R ε α) (P : Protocol K S C R) [DecidablePred P.linear]
    (J : K → W → List S → List (Event C R) → Prop) (c : Coupled K S C W E R ε α) (views : K → Option (View S C R)) :
    Prop where
  exclusive : (c.config.tasks.map Prod.fst).Nodup
  keyed : ∀ k, ∀ s ∈ c.config.store k, env.key s = k
  safe : ∀ t ∈ c.config.tasks, wp (contract env P t.1) (views t.1) t.2 fun _ _ => True
  current : ∀ k v, views k = some v → ∃ front, c.config.store k = front ++ [v.state] ∧ v.revision = front.length
  idle : ∀ k, (∀ t ∈ c.config.tasks, t.1 ≠ k) → views k = none
  kept : ∀ k, J k c.world (c.config.store k) (viewLog (views k))

section Accounted

variable {J : K → W → List S → List (Event C R) → Prop} {views : K → Option (View S C R)}
variable {store store' : K → List S} {history history' : List (Event C R)} {w w' : W}
variable {l r : List (K × Program K S C E R ε α)} {k : K} {p p' : Program K S C E R ε α}

omit [DecidableEq K] in
theorem others_ne (h : ((l ++ (k, p) :: r).map Prod.fst).Nodup) : ∀ t ∈ l ++ r, t.1 ≠ k := by
  have hperm : ((l ++ (k, p) :: r).map Prod.fst).Perm (k :: (l ++ r).map Prod.fst) := by
    simp
  have hn := (List.nodup_cons.mp (hperm.nodup_iff.mp h)).1
  intro t ht hk
  exact hn (List.mem_map.mpr ⟨t, ht, hk⟩)

theorem Accounted.advance {v : Option (View S C R)}
    (h : Accounted env P J ⟨⟨store, history, l ++ (k, p) :: r⟩, w⟩ views)
    (hw : wp (contract env P k) v p' fun _ _ => True) (hkeyed : ∀ s ∈ store' k, env.key s = k)
    (hcurrent : ∀ u, v = some u → ∃ front, store' k = front ++ [u.state] ∧ u.revision = front.length)
    (hsame : ∀ k', k' ≠ k → store' k' = store k') (hJ : J k w' (store' k) (viewLog v))
    (hframe : ∀ k', k' ≠ k → J k' w' (store k') (viewLog (views k'))) :
    Accounted env P J ⟨⟨store', history', l ++ (k, p') :: r⟩, w'⟩ (Function.update views k v) := by
  have hne := others_ne h.exclusive
  refine ⟨by simpa using h.exclusive, ?_, ?_, ?_, ?_, ?_⟩
  · intro k' s hs
    by_cases hk : k' = k
    · subst hk
      exact hkeyed s hs
    · have hs' : s ∈ store k' := hsame k' hk ▸ hs
      exact h.keyed k' s hs'
  · intro t ht
    simp only [List.mem_append, List.mem_cons] at ht
    have hrest : t ∈ l ++ r → wp (contract env P t.1) (Function.update views k v t.1) t.2 fun _ _ => True := by
      intro hm
      rw [Function.update_of_ne (hne t hm)]
      refine h.safe t ?_
      simp only [List.mem_append, List.mem_cons] at hm ⊢
      tauto
    rcases ht with ht | rfl | ht
    · exact hrest (List.mem_append_left _ ht)
    · rw [Function.update_self]
      exact hw
    · exact hrest (List.mem_append_right _ ht)
  · intro k' u hu
    by_cases hk : k' = k
    · subst hk
      exact hcurrent u (by simpa using hu)
    · rw [Function.update_of_ne hk] at hu
      simpa only [hsame k' hk] using h.current k' u hu
  · intro k' hidle
    have hk : k' ≠ k := fun hk => hidle (k, p') (by simp) hk.symm
    rw [Function.update_of_ne hk]
    refine h.idle k' fun t ht => ?_
    simp only [List.mem_append, List.mem_cons] at ht
    rcases ht with ht | rfl | ht
    · exact hidle t (by simp [ht])
    · exact hk.symm
    · exact hidle t (by simp [ht])
  · intro k'
    by_cases hk : k' = k
    · subst hk
      rw [Function.update_self]
      exact hJ
    · simpa only [Function.update_of_ne hk, hsame k' hk] using hframe k' hk

theorem Accounted.acting (h : Accounted env P J ⟨⟨store, history, l ++ (k, p) :: r⟩, w⟩ views) :
    wp (contract env P k) (views k) p fun _ _ => True :=
  h.safe (k, p) (by simp)

theorem Accounted.create {c : Config K S C E R ε α} {s : S} (hk : Keeping env P sur guard J)
    (h : Accounted env P J ⟨c, w⟩ views) (hf : env.fresh s) (hn : c.store (env.key s) = [])
    (ho : sur.opens w s w') :
    Accounted env P J ⟨{ c with store := Function.update c.store (env.key s) [s] }, w'⟩ views := by
  have hnone : views (env.key s) = none := by
    cases hv : views (env.key s) with
    | none => rfl
    | some v =>
      obtain ⟨front, hfront, _⟩ := h.current _ v hv
      rw [hn] at hfront
      simp at hfront
  refine ⟨h.exclusive, ?_, h.safe, ?_, h.idle, ?_⟩
  · intro k t ht
    by_cases heq : k = env.key s
    · subst heq
      simp only [Function.update_self, List.mem_singleton] at ht
      rw [ht]
    · simp only [Function.update_of_ne heq] at ht
      exact h.keyed k t ht
  · intro k v hv
    have heq : k ≠ env.key s := by
      rintro rfl
      rw [hnone] at hv
      cases hv
    simpa only [Function.update_of_ne heq] using h.current k v hv
  · intro k
    have hkept := h.kept k
    by_cases heq : k = env.key s
    · subst heq
      rw [hnone] at hkept ⊢
      simp only [Function.update_self]
      simp only [hn] at hkept
      exact hk.created hkept hf rfl ho
    · simp only [Function.update_of_ne heq]
      exact hk.elsewhere hkept (Ne.symm heq) ho

theorem Accounted.start {c : Config K S C E R ε α} (h : Accounted env P J ⟨c, w⟩ views)
    (hw : wp (contract env P k) none p fun _ _ => True) (hx : ∀ t ∈ c.tasks, t.1 ≠ k) :
    Accounted env P J ⟨{ c with tasks := c.tasks ++ [(k, p)] }, w⟩ views := by
  refine ⟨?_, h.keyed, ?_, h.current, ?_, h.kept⟩
  · simp only [List.map_append, List.map_cons, List.map_nil]
    refine List.nodup_append.mpr ⟨h.exclusive, by simp, ?_⟩
    rintro k' hm _ hm' rfl
    obtain ⟨t, ht, rfl⟩ := List.mem_map.mp hm
    exact hx t ht (List.mem_singleton.mp hm')
  · intro t ht
    rcases List.mem_append.mp ht with ht | ht
    · exact h.safe t ht
    · rw [List.mem_singleton.mp ht]
      simpa only [h.idle k hx] using hw
  · intro k' hidle
    exact h.idle k' fun t ht => hidle t (List.mem_append_left _ ht)

theorem Accounted.stop {b : Bool} (hk : Keeping env P sur guard J)
    (h : Accounted env P J ⟨⟨store, history, l ++ (k, p) :: r⟩, w⟩ views) (hg : guard k w (store k) (.stop b)) :
    Accounted env P J ⟨⟨store, history, l ++ r⟩, w⟩ (Function.update views k none) := by
  have hne := others_ne h.exclusive
  have hmem : ∀ t ∈ l ++ r, t ∈ l ++ (k, p) :: r := by
    intro t ht
    simp only [List.mem_append, List.mem_cons] at ht ⊢
    tauto
  refine ⟨?_, h.keyed, ?_, ?_, ?_, ?_⟩
  · refine h.exclusive.sublist ?_
    exact (List.Sublist.append_left (List.sublist_cons_self _ _) _).map _
  · intro t ht
    rw [Function.update_of_ne (hne t ht)]
    exact h.safe t (hmem t ht)
  · intro k' v hv
    by_cases heq : k' = k
    · subst heq
      simp at hv
    · rw [Function.update_of_ne heq] at hv
      exact h.current k' v hv
  · intro k' hidle
    by_cases heq : k' = k
    · subst heq
      simp
    · rw [Function.update_of_ne heq]
      refine h.idle k' fun t ht => ?_
      simp only [List.mem_append, List.mem_cons] at ht
      rcases ht with ht | rfl | ht
      · exact hidle t (by simp [ht])
      · exact Ne.symm heq
      · exact hidle t (by simp [ht])
  · intro k'
    by_cases heq : k' = k
    · subst heq
      rw [Function.update_self]
      exact hk.stopped (h.kept k') hg
    · rw [Function.update_of_ne heq]
      exact h.kept k'

theorem Accounted.load {k' : K} {next : Except E (Nat × S) → Program K S C E R ε α} {reply : Except E (Nat × S)}
    (h : Accounted env P J ⟨⟨store, history, l ++ (k, .op (.load k') next) :: r⟩, w⟩ views)
    (hl : Loads (store k') reply) :
    ∃ views', Accounted env P J ⟨⟨store, history, l ++ (k, next reply) :: r⟩, w⟩ views' := by
  obtain ⟨⟨rfl, hnone⟩, hnext⟩ := h.acting
  have hkept := h.kept k'
  rw [hnone] at hkept
  cases reply with
  | error e =>
    exact ⟨_, h.advance (hnext (.error e) none rfl) (h.keyed k') (by simp) (fun _ _ => rfl) hkept
      fun k _ => h.kept k⟩
  | ok loaded =>
    obtain ⟨revision, s⟩ := loaded
    obtain ⟨hr, hs⟩ := hl
    have hfront := List.dropLast_append_getLast? s hs
    have hkey : env.key s = k' := h.keyed k' s (List.mem_of_getLast? hs)
    refine ⟨_, h.advance (v := some ⟨revision, s, none, []⟩) (hnext (.ok (revision, s)) _ ⟨hkey, rfl⟩)
      (h.keyed k') ?_ (fun _ _ => rfl) hkept fun k _ => h.kept k⟩
    rintro u ⟨⟩
    refine ⟨(store k').dropLast, hfront.symm, ?_⟩
    simp only [List.length_dropLast]
    omega

variable {next : Except E Nat → Program K S C E R ε α} {c : Coupled K S C W E R ε α}

theorem Accounted.saveRefused {revision : Nat} {s : S} (hk : Keeping env P sur guard J)
    (h : Accounted env P J ⟨⟨store, history, l ++ (k, .op (.save revision s) next) :: r⟩, w⟩ views)
    (hg : guard k w (store k) .refuse) (e : E) :
    ∃ views', Accounted env P J ⟨⟨store, history, l ++ (k, next (.error e)) :: r⟩, w⟩ views' :=
  ⟨_, h.advance (h.acting.2 (.error e) none rfl) (h.keyed k) (by simp) (fun _ _ => rfl)
    (hk.refused (h.kept k) hg) fun k _ => h.kept k⟩

theorem Accounted.save {revision : Nat} {s : S} (hk : Keeping env P sur guard J)
    (h : Accounted env P J ⟨⟨store, history, l ++ (k, .op (.save revision s) next) :: r⟩, w⟩ views)
    (hg : guard k w (store k) (.save s)) :
    ∃ views', Accounted env P J ⟨⟨Function.update store (env.key s) (store (env.key s) ++ [s]), history,
      l ++ (k, next (.ok (revision + 1))) :: r⟩, w⟩ views' := by
  obtain ⟨⟨v, hv, rfl, rfl, hstep⟩, hnext⟩ := h.acting
  obtain ⟨front, hcurrent, hrev⟩ := h.current _ v hv
  have hfront : store (env.key s) = front ++ [v.state] := hcurrent
  have hkept : J (env.key s) w (store (env.key s)) _ := h.kept (env.key s)
  rw [hv, hfront] at hkept
  rw [hv] at hnext
  rw [hfront] at hg
  refine ⟨_, h.advance (v := some ⟨v.revision + 1, s, some v.state, []⟩) (hnext (.ok (v.revision + 1)) _ ⟨rfl, rfl⟩)
    ?_ ?_ (fun k' hk' => Function.update_of_ne hk' _ _) ?_ fun k _ => h.kept k⟩
  · intro t ht
    rw [Function.update_self, List.mem_append, List.mem_singleton] at ht
    rcases ht with ht | rfl
    · exact h.keyed _ t ht
    · rfl
  · rintro u ⟨⟩
    exact ⟨store (env.key s), Function.update_self _ _ _, by simp [hfront, hrev]⟩
  · rw [Function.update_self, hfront]
    exact hk.saved hkept hstep rfl hg

theorem Accounted.call {c : C} {next : R c → Program K S C E R ε α} {reply : R c} (hk : Keeping env P sur guard J)
    (h : Accounted env P J ⟨⟨store, history, l ++ (k, .op (.call c) next) :: r⟩, w⟩ views)
    (ha : sur.acts k w c reply w') (hg : guard k w (store k) (.call ⟨c, reply⟩)) :
    ∃ views', Accounted env P J ⟨⟨store, history ++ [⟨c, reply⟩], l ++ (k, next reply) :: r⟩, w'⟩ views' := by
  obtain ⟨⟨v, hv, hcalls, _⟩, hnext⟩ := h.acting
  obtain ⟨front, hcurrent, hrev⟩ := h.current _ v hv
  have hfront : store k = front ++ [v.state] := hcurrent
  have hkept : J k w (store k) _ := h.kept k
  rw [hv, hfront] at hkept
  rw [hv] at hnext
  rw [hfront] at hg
  refine ⟨_, h.advance (hnext reply _ ⟨hk.answered ha, rfl⟩) (h.keyed k) ?_ (fun _ _ => rfl) ?_ fun k' hne =>
    hk.aside (h.kept k') (Ne.symm hne) hkept hcalls ha⟩
  · rintro u ⟨⟩
    exact ⟨front, hfront, hrev⟩
  · rw [hfront]
    exact hk.called hkept hcalls ha hg

theorem Accounted.step {c' : Coupled K S C W E R ε α} (hc : Complies env P) (hk : Keeping env P sur guard J)
    (h : Accounted env P J c views) (hs : CoupledStep env sur guard c c') : ∃ views', Accounted env P J c' views' := by
  cases hs with
  | create s hf hn ho => exact ⟨_, h.create hk hf hn ho⟩
  | drift hd => exact ⟨views, h.exclusive, h.keyed, h.safe, h.current, h.idle, fun k => hk.drifted (h.kept k) hd⟩
  | start k p hp hx => exact ⟨_, h.start (hc k p hp) hx⟩
  | stop hg => exact ⟨_, h.stop hk hg⟩
  | load reply hl => exact h.load hl
  | saveRefused e hg => exact h.saveRefused hk hg e
  | save hr hg => exact h.save hk hg
  | call reply ha hg => exact h.call hk ha hg

theorem CoupledRun.accounted (hc : Complies env P) (hk : Keeping env P sur guard J)
    (hinit : ∀ w, initial w → ∀ k, J k w [] []) (h : CoupledRun env sur guard initial c) :
    ∃ views, Accounted env P J c views := by
  induction h with
  | refl hw =>
    exact ⟨fun _ => none, by simp [Config.initial], by simp [Config.initial], by simp [Config.initial], by simp,
      fun _ _ => rfl, fun k => hinit _ hw k⟩
  | tail _ hs ih =>
    obtain ⟨views, hviews⟩ := ih
    exact hviews.step hc hk hs

theorem CoupledRun.calling {call : C} {next : R call → Program K S C E R ε α}
    (hc : Complies env P) (hk : Keeping env P sur guard J) (hinit : ∀ w, initial w → ∀ k, J k w [] [])
    (h : CoupledRun env sur guard initial c) (ht : (k, .op (.call call) next) ∈ c.config.tasks) :
    ∃ front s log, c.config.store k = front ++ [s] ∧ P.calls k s log call ∧ J k c.world (front ++ [s]) log := by
  obtain ⟨views, hviews⟩ := h.accounted hc hk hinit
  obtain ⟨v, hv, hcalls, _⟩ := (hviews.safe _ ht).1
  obtain ⟨front, hfront, _⟩ := hviews.current k v hv
  have hkept := hviews.kept k
  rw [hv, hfront] at hkept
  exact ⟨front, v.state, v.log, hfront, hcalls, hkept⟩

end Accounted

end SharedStore

/-! Computed runs of one key beside its world. Each task makes a given number of steps and is then
stopped, or left where it is; the handler answers its calls and a test stands for the guard. -/

namespace SharedStore

variable {K S C W E ε α : Type} {R : C → Type} [DecidableEq K]

abbrev Stage (K S C W E : Type) (R : C → Type) (ε α : Type) := Program K S C E R ε α × List S × W

structure Cast (K S C W E : Type) (R : C → Type) where
  key : S → K
  subject : K
  missing : E
  allows : W → List S → Label S C R → Bool

abbrev Handler (C W : Type) (R : C → Type) := W → (c : C) → R c × W

def rehearse (cast : Cast K S C W E R) (handler : Handler C W R) :
    Stage K S C W E R ε α → Option (Stage K S C W E R ε α)
  | (.ret a, versions, w) => some (.ret a, versions, w)
  | (.fail e, versions, w) => some (.fail e, versions, w)
  | (.op (.load k) next, versions, w) =>
    if k = cast.subject then match versions.getLast? with
      | some s => some (next (.ok (versions.length - 1, s)), versions, w)
      | none => some (next (.error cast.missing), versions, w)
    else none
  | (.op (.save revision s) next, versions, w) =>
    if cast.key s = cast.subject ∧ revision + 1 = versions.length ∧ cast.allows w versions (.save s) = true then
      some (next (.ok (revision + 1)), versions ++ [s], w)
    else none
  | (.op (.call c) next, versions, w) =>
    if cast.allows w versions (.call ⟨c, (handler w c).1⟩) = true then
      some (next (handler w c).1, versions, (handler w c).2)
    else none

def rehearseFor (cast : Cast K S C W E R) (handler : Handler C W R) :
    Nat → Stage K S C W E R ε α → Option (Stage K S C W E R ε α)
  | 0, stage => some stage
  | n + 1, stage => (rehearse cast handler stage).bind (rehearseFor cast handler n)

def rehearseAll (cast : Cast K S C W E R) :
    List (Program K S C E R ε α × Handler C W R × Nat) → List S × W → Option (List S × W)
  | [], done => some done
  | (p, handler, n) :: rest, (versions, w) =>
    match rehearseFor cast handler n (p, versions, w) with
    | none => none
    | some (p, versions, w) =>
      if cast.allows w versions (.stop (finished p)) = true then rehearseAll cast rest (versions, w) else none

variable {env : Environment K S C E R ε α} {sur : Surroundings K S C W R} {guard : Guard K S C W R}
variable {initial : W → Prop} {cast : Cast K S C W E R}

/-- The stage, or the state between two tasks, is that of some run. -/
def Staged (env : Environment K S C E R ε α) (sur : Surroundings K S C W R) (guard : Guard K S C W R)
    (initial : W → Prop) (k : K) (tasks : List (K × Program K S C E R ε α)) (versions : List S) (w : W) : Prop :=
  ∃ history, CoupledRun env sur guard initial ⟨⟨Function.update (fun _ => []) k versions, history, tasks⟩, w⟩

/-- The cast plays by the rules of the environment, and the handler acts as the surroundings do. -/
structure Plays (env : Environment K S C E R ε α) (sur : Surroundings K S C W R) (guard : Guard K S C W R)
    (cast : Cast K S C W E R) (fits : W → Prop) (handler : Handler C W R) : Prop where
  key : cast.key = env.key
  allowed : ∀ w versions label, cast.allows w versions label = true → guard cast.subject w versions label
  acts : ∀ w c, fits w → sur.acts cast.subject w c (handler w c).1 (handler w c).2 ∧ fits (handler w c).2

variable {fits : W → Prop} {handler : Handler C W R}
variable {stage stage' : Stage K S C W E R ε α}

theorem rehearse_staged (hp : Plays env sur guard cast fits handler)
    (h : Staged env sur guard initial cast.subject [(cast.subject, stage.1)] stage.2.1 stage.2.2)
    (hw : fits stage.2.2) (hs : rehearse cast handler stage = some stage') :
    Staged env sur guard initial cast.subject [(cast.subject, stage'.1)] stage'.2.1 stage'.2.2 ∧
      fits stage'.2.2 := by
  obtain ⟨p, versions, w⟩ := stage
  obtain ⟨history, h⟩ := h
  cases p with
  | ret | fail =>
    cases hs
    exact ⟨⟨history, h⟩, hw⟩
  | op o next =>
    cases o with
    | load k =>
      simp only [rehearse] at hs
      split at hs
      · rename_i hk
        subst hk
        split at hs
        · rename_i s hlast
          cases hs
          refine ⟨⟨history, h.tail (.load (l := []) (r := []) (.ok (versions.length - 1, s)) ⟨?_, ?_⟩)⟩, hw⟩
          · have hpos : 0 < versions.length := by
              rw [List.length_pos_iff]
              rintro rfl
              cases hlast
            rw [Function.update_self]
            exact Nat.sub_add_cancel hpos
          · rw [Function.update_self]
            exact hlast
        · cases hs
          exact ⟨⟨history, h.tail (.load (l := []) (r := []) (.error cast.missing) trivial)⟩, hw⟩
      · cases hs
    | save revision s =>
      simp only [rehearse] at hs
      split at hs
      · rename_i hsave
        cases hs
        obtain ⟨hkey, hr, hg⟩ := hsave
        rw [hp.key] at hkey
        refine ⟨⟨history, ?_⟩, hw⟩
        have hstep := @CoupledStep.save K S C W E ε α R _ env sur guard
          (Function.update (fun _ => []) cast.subject versions) history [] cast.subject revision s next [] w
          (by rw [hkey, Function.update_self]; exact hr)
          (by rw [Function.update_self]; exact hp.allowed _ _ _ hg)
        rw [hkey, Function.update_self, Function.update_idem] at hstep
        exact h.tail hstep
      · cases hs
    | call c =>
      simp only [rehearse] at hs
      split at hs
      · rename_i hg
        cases hs
        obtain ⟨ha, hfits⟩ := hp.acts w c hw
        refine ⟨⟨_, h.tail (.call (l := []) (r := []) (handler w c).1 ha ?_)⟩, hfits⟩
        rw [Function.update_self]
        exact hp.allowed _ _ _ hg
      · cases hs

theorem rehearseFor_staged {n : Nat} (hp : Plays env sur guard cast fits handler)
    (h : Staged env sur guard initial cast.subject [(cast.subject, stage.1)] stage.2.1 stage.2.2)
    (hw : fits stage.2.2) (hs : rehearseFor cast handler n stage = some stage') :
    Staged env sur guard initial cast.subject [(cast.subject, stage'.1)] stage'.2.1 stage'.2.2 ∧
      fits stage'.2.2 := by
  induction n generalizing stage with
  | zero =>
    cases hs
    exact ⟨h, hw⟩
  | succ n ih =>
    obtain ⟨mid, hmid, hrest⟩ := Option.bind_eq_some_iff.mp hs
    obtain ⟨hstaged, hfits⟩ := rehearse_staged hp h hw hmid
    exact ih hstaged hfits hrest

theorem Staged.start {p : Program K S C E R ε α} {k : K} {versions : List S} {w : W}
    (h : Staged env sur guard initial k [] versions w) (hs : env.start k p) :
    Staged env sur guard initial k [(k, p)] versions w := by
  obtain ⟨history, h⟩ := h
  exact ⟨history, h.tail (.start k p hs (by simp))⟩

theorem rehearseAll_staged {script : List (Program K S C E R ε α × Handler C W R × Nat)} {done done' : List S × W}
    (hp : ∀ x ∈ script, env.start cast.subject x.1 ∧ Plays env sur guard cast fits x.2.1)
    (h : Staged env sur guard initial cast.subject [] done.1 done.2) (hw : fits done.2)
    (hs : rehearseAll cast script done = some done') :
    Staged env sur guard initial cast.subject [] done'.1 done'.2 ∧ fits done'.2 := by
  induction script generalizing done with
  | nil =>
    cases hs
    exact ⟨h, hw⟩
  | cons x script ih =>
    obtain ⟨p, handler, n⟩ := x
    obtain ⟨versions, w⟩ := done
    obtain ⟨hstart, hplays⟩ := hp _ List.mem_cons_self
    simp only [rehearseAll] at hs
    split at hs
    · cases hs
    · rename_i p' versions' w' hfor
      obtain ⟨⟨history, hrun⟩, hfits⟩ := rehearseFor_staged hplays (h.start hstart) hw hfor
      split at hs
      · rename_i hg
        refine ih (fun y hy => hp y (List.mem_cons_of_mem _ hy)) ⟨history, ?_⟩ hfits hs
        have hstop := @CoupledStep.stop K S C W E ε α R _ env sur guard
          (Function.update (fun _ => []) cast.subject versions') history [] (cast.subject, p') [] w'
          (by rw [Function.update_self]; exact hplays.allowed _ _ _ hg)
        exact hrun.tail hstop
      · cases hs

def attested {β : Type} (run : Option α) (observe : α → β) (seen : β) (h : run.map observe = some seen) :
    {a // run = some a ∧ observe a = seen} :=
  match run, h with
  | some a, h => ⟨a, rfl, Option.some.inj h⟩

end SharedStore
