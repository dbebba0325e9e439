import AlloyPort.Library.Compliance

/-! What the tasks of a reachable configuration may still do: how they can end, given what holds of
every version they can load, and which linear calls they can make without another save. -/

namespace SharedStore

open Effect

variable {K S C E ε α : Type} {R : C → Type} [DecidableEq K]
variable {env : Environment K S C E R ε α} {c c' : Config K S C E R ε α}

omit [DecidableEq K] in
theorem forall_replace {A : Type} {Φ : A → Prop} {l r : List A} {a a' : A} (h : ∀ x ∈ l ++ a :: r, Φ x) (ha' : Φ a') :
    ∀ x ∈ l ++ a' :: r, Φ x := by
  intro x hm
  simp only [List.mem_append, List.mem_cons] at hm
  rcases hm with hm | rfl | hm
  · exact h x (by simp [hm])
  · exact ha'
  · exact h x (by simp [hm])

section ends

/-- A loaded version meets the invariant, and calls are answered as the environment allows. -/
def loaded (env : Environment K S C E R ε α) (I : K → S → Prop) : Contract (Op K S C) (Reply E R) Unit where
  pre _ _ := True
  post
    | _, .load k, .ok (_, s), _ => I k s
    | _, .call c, reply, _ => env.answers c reply
    | _, _, _, _ => True

variable {I : K → S → Prop} {Q : K → Except ε α → Prop}

theorem Step.ends (hs : Step env c c') (hI : ∀ k, ∀ s ∈ c.store k, I k s)
    (hstart : ∀ k p, env.start k p → ends (loaded env I) () p fun _ r => Q k r)
    (h : ∀ t ∈ c.tasks, ends (loaded env I) () t.2 fun _ r => Q t.1 r) :
    ∀ t ∈ c'.tasks, ends (loaded env I) () t.2 fun _ r => Q t.1 r := by
  cases hs with
  | create s hf hn => exact h
  | start k p hp =>
    intro t hm
    rcases List.mem_append.mp hm with hm | hm
    · exact h t hm
    · rw [List.mem_singleton.mp hm]
      exact hstart k p hp
  | crash =>
    intro t hm
    refine h t ?_
    simp only [List.mem_append, List.mem_cons] at hm ⊢
    tauto
  | @load store history l k k' next r reply hl =>
    have hnext := (h (k, .op (.load k') next) (by simp)).2 reply ()
    refine forall_replace h (hnext ?_)
    cases reply with
    | error e => trivial
    | ok loaded =>
      obtain ⟨revision, s⟩ := loaded
      exact hI k' s (List.mem_of_getLast? hl.2)
  | @saveRefused store history l k revision s next r e =>
    exact forall_replace h ((h (k, .op (.save revision s) next) (by simp)).2 (.error e) () trivial)
  | @save store history l k revision s next r hr =>
    exact forall_replace h ((h (k, .op (.save revision s) next) (by simp)).2 (.ok (revision + 1)) () trivial)
  | @call store history l k x next r reply ha =>
    exact forall_replace h ((h (k, .op (.call x) next) (by simp)).2 reply () ha)

theorem Reachable.ends (hc : Reachable env c) (hI : ∀ c, Reachable env c → ∀ k, ∀ s ∈ c.store k, I k s)
    (hstart : ∀ k p, env.start k p → Effect.ends (loaded env I) () p fun _ r => Q k r) :
    ∀ t ∈ c.tasks, Effect.ends (loaded env I) () t.2 fun _ r => Q t.1 r := by
  induction hc with
  | refl => intro t hm; cases hm
  | tail hreach hs ih => exact hs.ends (hI _ hreach) hstart ih

end ends

section late

variable {P : Protocol K S C R} [DecidablePred P.linear] {k : K} {x : C}

inductive MayCall (env : Environment K S C E R ε α) (x : C) : Program K S C E R ε α → Prop where
  | here {next} : MayCall env x (.op (.call x) next)
  | later {y next} (reply : R y) (ha : env.answers y reply) (h : MayCall env x (next reply)) :
      MayCall env x (.op (.call y) next)

variable {p : Program K S C E R ε α} {g : Option (View S C R)}

theorem MayCall.paid {Q : Option (View S C R) → α → Prop}
    (h : MayCall env x p) (hl : P.linear x) (hw : wp (contract env P k) g p Q) :
    ∃ v s, g = some v ∧ v.replaced = some s := by
  induction h generalizing g with
  | here =>
    obtain ⟨⟨v, hv, _, hpaid⟩, _⟩ := hw
    obtain ⟨s, hs, _⟩ := hpaid hl
    exact ⟨v, s, hv, hs⟩
  | later reply ha _ ih =>
    obtain ⟨⟨v, rfl, _, _⟩, hnext⟩ := hw
    obtain ⟨v', s, hv', hs⟩ := ih (hnext reply _ ⟨ha, rfl⟩)
    cases hv'
    simp only at hs
    split at hs
    · cases hs
    · exact ⟨v, s, rfl, hs⟩

/-- A task with its view, some time after the configuration `c₀`: the linear calls it can make are paid by
a later save, or a task of `c₀` could make them. -/
structure LateTask (env : Environment K S C E R ε α) (P : Protocol K S C R) [DecidablePred P.linear]
    (c₀ : Config K S C E R ε α) (store : K → List S) (history : List (Event C R)) (g : Ghost K S C E R ε α) : Prop where
  safe : wp (contract env P g.1.1) g.2 g.1.2 fun _ _ => True
  held : ∀ v, g.2 = some v → Held store history g.1.1 v
  late : ∀ x, P.linear x → MayCall env x g.1.2 →
    (∃ v, g.2 = some v ∧ (c₀.store g.1.1).length ≤ v.revision) ∨ ∃ t ∈ c₀.tasks, t.1 = g.1.1 ∧ MayCall env x t.2

def Late (env : Environment K S C E R ε α) (P : Protocol K S C R) [DecidablePred P.linear]
    (c₀ c : Config K S C E R ε α) : Prop :=
  Extends c₀.store c.store ∧ ∃ gs : List (Ghost K S C E R ε α), c.tasks = gs.map Prod.fst ∧
    ∀ g ∈ gs, LateTask env P c₀ c.store c.history g

variable {c₀ : Config K S C E R ε α} {store store' : K → List S} {history history' : List (Event C R)}

theorem LateTask.mono {g : Ghost K S C E R ε α} (h : LateTask env P c₀ store history g) (hs : Extends store store')
    (hh : ∀ e ∈ history, e ∈ history') : LateTask env P c₀ store' history' g where
  safe := h.safe
  held v hv := (h.held v hv).mono hs hh
  late := h.late

theorem LateTask.unpaid
    (hw : wp (contract env P k) g p fun _ _ => True) (hv : ∀ v, g = some v → Held store history k v)
    (hn : ∀ v, g = some v → v.replaced = none) : LateTask env P c₀ store history ((k, p), g) where
  safe := hw
  held := hv
  late x hl hx := by
    obtain ⟨v, s, rfl, hs⟩ := hx.paid hl hw
    rw [hn v rfl] at hs
    cases hs

theorem Sound.late (h : Sound env P c) : Late env P c c := by
  obtain ⟨gs, _, ht, hw, hv, _, _⟩ := h.ghosts
  refine ⟨fun _ _ _ hs => hs, gs, ht, fun g hg => ⟨hw g hg, hv g hg, fun x _ hx => .inr ⟨g.1, ?_, rfl, hx⟩⟩⟩
  rw [ht]
  exact List.mem_map_of_mem hg

omit [DecidableEq K] in
theorem Extends.length_le {store store' : K → List S} (h : Extends store store') (k : K) :
    (store k).length ≤ (store' k).length := by
  by_contra hlt
  have hlast : (store k)[(store' k).length]? = some ((store k).get ⟨(store' k).length, by omega⟩) := by simp
  have hget := h k _ _ hlast
  simp at hget

theorem Late.replace {l r : List (K × Program K S C E R ε α)} {t : K × Program K S C E R ε α}
    {t' : Program K S C E R ε α}
    (h : Late env P c₀ ⟨store, history, l ++ t :: r⟩) (hs : Extends store store') (hh : ∀ e ∈ history, e ∈ history')
    (ht : ∀ v, LateTask env P c₀ store history (t, v) → ∃ v', LateTask env P c₀ store' history' ((t.1, t'), v')) :
    Late env P c₀ ⟨store', history', l ++ (t.1, t') :: r⟩ := by
  obtain ⟨hext, gs, hgs, hall⟩ := h
  obtain ⟨gl, gr, v, rfl, rfl, rfl⟩ := ghosts_split hgs
  obtain ⟨v', hv'⟩ := ht v (hall (t, v) (by simp))
  refine ⟨fun k i s hk => hs k i s (hext k i s hk), gl ++ ((t.1, t'), v') :: gr, by simp, ?_⟩
  exact forall_replace (fun g hg => (hall g hg).mono hs hh) hv'

theorem Late.step (h : Late env P c₀ c) (hsound : Sound env P c) (hc : Complies env P) (hs : Step env c c') :
    Late env P c₀ c' := by
  cases hs with
  | create s hf hn =>
    obtain ⟨hext, gs, hgs, hall⟩ := h
    have he : Extends c.store (Function.update c.store (env.key s) [s]) := by
      simpa [hn] using extends_append c.store (env.key s) s
    exact ⟨fun k i t hk => he k i t (hext k i t hk), gs, hgs, fun g hg => (hall g hg).mono he fun _ hm => hm⟩
  | start k p hp =>
    obtain ⟨hext, gs, hgs, hall⟩ := h
    refine ⟨hext, gs ++ [((k, p), none)], by simp [hgs], fun g hg => ?_⟩
    rcases List.mem_append.mp hg with hg | hg
    · exact hall g hg
    · rw [List.mem_singleton.mp hg]
      exact .unpaid (hc k p hp) (fun _ hv => by cases hv) fun _ hv => by cases hv
  | crash =>
    obtain ⟨hext, gs, hgs, hall⟩ := h
    obtain ⟨gl, gr, v, rfl, rfl, rfl⟩ := ghosts_split hgs
    refine ⟨hext, gl ++ gr, by simp, fun g hg => hall g ?_⟩
    simp only [List.mem_append, List.mem_cons] at hg ⊢
    tauto
  | @load store history l k k' next r reply hl =>
    refine h.replace (fun _ _ _ hk => hk) (fun _ he => he) fun v hv => ?_
    obtain ⟨⟨rfl, _⟩, hnext⟩ := hv.safe
    cases reply with
    | error e => exact ⟨none, .unpaid (hnext (.error e) none rfl) (fun _ hw => by cases hw) fun _ hw => by cases hw⟩
    | ok loaded =>
      obtain ⟨revision, s⟩ := loaded
      have hk : env.key s = k' := hsound.keyed k' s (List.mem_of_getLast? hl.2)
      refine ⟨_, .unpaid (hnext (.ok (revision, s)) _ ⟨hk, rfl⟩) ?_ ?_⟩
      · rintro w ⟨⟩
        exact .loaded hl.1 hl.2
      · rintro w ⟨⟩
        rfl
  | @saveRefused store history l k revision s next r e =>
    refine h.replace (fun _ _ _ hk => hk) (fun _ he => he) fun v hv => ⟨none, ?_⟩
    exact .unpaid (hv.safe.2 (.error e) none rfl) (fun _ hw => by cases hw) fun _ hw => by cases hw
  | @save store history l k revision s next r hr =>
    have hlength := h.1.length_le (env.key s)
    refine h.replace (extends_append store (env.key s) s) (fun _ he => he) fun v hv => ?_
    obtain ⟨⟨w, rfl, rfl, rfl, _⟩, hnext⟩ := hv.safe
    refine ⟨_, ⟨hnext (.ok (w.revision + 1)) _ ⟨rfl, rfl⟩, ?_, fun _ _ _ => .inl ⟨_, rfl, ?_⟩⟩⟩
    · rintro w' ⟨⟩
      exact (hv.held w rfl).saved hr s
    · exact Nat.le_trans hlength (Nat.le_of_eq hr.symm)
  | @call store history l k y next r reply ha =>
    refine h.replace (fun _ _ _ hk => hk) (fun _ he => List.mem_append_left _ he) fun v hv => ?_
    obtain ⟨⟨w, rfl, _, _⟩, hnext⟩ := hv.safe
    refine ⟨_, ⟨hnext reply _ ⟨ha, rfl⟩, ?_, fun x hl hx => ?_⟩⟩
    · rintro w' ⟨⟩
      exact (hv.held w rfl).called ⟨y, reply⟩ (P.linear y)
    · rcases hv.late x hl (.later reply ha hx) with ⟨w', hw', hlate⟩ | hearly
      · cases hw'
        exact .inl ⟨_, rfl, hlate⟩
      · exact .inr hearly

theorem Late.steps (hsound : Sound env P c₀) (hc : Complies env P) (h : Relation.ReflTransGen (Step env) c₀ c) :
    Sound env P c ∧ Late env P c₀ c := by
  induction h with
  | refl => exact ⟨hsound, hsound.late⟩
  | tail _ hs ih => exact ⟨ih.1.step hc hs, ih.2.step ih.1 hc hs⟩

/-- A task that is about to make a linear call holds the save that pays for it; a task of the earlier
configuration could make the call, or the save is later. -/
theorem Late.call {next : R x → Program K S C E R ε α} (h : Late env P c₀ c) (hm : (k, .op (.call x) next) ∈ c.tasks)
    (hl : P.linear x) : ∃ v s, Held c.store c.history k v ∧ v.replaced = some s ∧ P.mints s v.state x ∧
      P.calls k v.state v.log x ∧
      ((c₀.store k).length ≤ v.revision ∨ ∃ t ∈ c₀.tasks, t.1 = k ∧ MayCall env x t.2) := by
  obtain ⟨_, gs, hgs, hall⟩ := h
  rw [hgs] at hm
  obtain ⟨⟨t, v⟩, hg, rfl⟩ := List.mem_map.mp hm
  have hlate := hall _ hg
  obtain ⟨⟨w, rfl, hcalls, hpaid⟩, _⟩ := hlate.safe
  obtain ⟨s, hs, hmint⟩ := hpaid hl
  refine ⟨w, s, hlate.held w rfl, hs, hmint, hcalls, ?_⟩
  rcases hlate.late x hl .here with ⟨w', hw', hrev⟩ | hearly
  · cases hw'
    exact .inl hrev
  · exact .inr hearly

end late

end SharedStore
