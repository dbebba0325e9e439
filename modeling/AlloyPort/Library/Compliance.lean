import AlloyPort.Library.SharedStore
import Mathlib.Data.List.Nodup
import Mathlib.Data.List.Induction

/-! Programs that comply with a protocol keep every store a chain of protocol steps, and no two
linear calls are ever paid for by one version. -/

namespace SharedStore

open Effect

variable {K S C E ε α : Type} {R : C → Type} [DecidableEq K]
variable {env : Environment K S C E R ε α} {P : Protocol K S C R} [DecidablePred P.linear]

def Complies (env : Environment K S C E R ε α) (P : Protocol K S C R) [DecidablePred P.linear] : Prop :=
  ∀ k p, env.start k p → wp (contract env P k) none p fun _ _ => True

structure Held (store : K → List S) (history : List (Event C R)) (k : K) (v : View S C R) : Prop where
  current : (store k)[v.revision]? = some v.state
  replaced : ∀ s, v.replaced = some s → ∃ r, v.revision = r + 1 ∧ (store k)[r]? = some s
  logged : ∀ e ∈ v.log, e ∈ history

/-- The version at the given key and index is the save that paid for the call. -/
def Paid (P : Protocol K S C R) (store : K → List S) (e : Event C R) (at_ : K × Nat) : Prop :=
  ∃ r s s', at_.2 = r + 1 ∧ (store at_.1)[r]? = some s ∧ (store at_.1)[r + 1]? = some s' ∧ P.mints s s' e.call

abbrev Ghost (K S C E : Type) (R : C → Type) (ε α : Type) :=
  (K × Program K S C E R ε α) × Option (View S C R)

def Ghost.token (g : Ghost K S C E R ε α) : List (K × Nat) :=
  match g.2 with
  | some v => if v.replaced.isSome then [(g.1.1, v.revision)] else []
  | none => []

structure Sound (env : Environment K S C E R ε α) (P : Protocol K S C R) [DecidablePred P.linear]
    (c : Config K S C E R ε α) : Prop where
  keyed : ∀ k, ∀ s ∈ c.store k, env.key s = k
  fresh : ∀ k s, (c.store k)[0]? = some s → env.fresh s
  linked : ∀ k i s s', (c.store k)[i]? = some s → (c.store k)[i + 1]? = some s' →
    ∃ log, (∀ e ∈ log, e ∈ c.history) ∧ P.step k s log s'
  answered : ∀ e ∈ c.history, env.answers e.call e.reply
  ghosts : ∃ (gs : List (Ghost K S C E R ε α)) (spent : List (K × Nat)),
    c.tasks = gs.map Prod.fst ∧
    (∀ g ∈ gs, wp (contract env P g.1.1) g.2 g.1.2 fun _ _ => True) ∧
    (∀ g ∈ gs, ∀ v, g.2 = some v → Held c.store c.history g.1.1 v) ∧
    List.Forall₂ (Paid P c.store) (c.history.filter fun e => P.linear e.call) spent ∧
    (spent ++ gs.flatMap Ghost.token).Nodup

def Extends (store store' : K → List S) : Prop :=
  ∀ k (i : Nat) s, (store k)[i]? = some s → (store' k)[i]? = some s

variable {store store' : K → List S} {history history' : List (Event C R)} {k : K} {v : View S C R} {at_ : K × Nat}
variable {c : Config K S C E R ε α} {s : S} {m n revision : Nat} {gs : List (Ghost K S C E R ε α)}
variable {l r : List (K × Program K S C E R ε α)} {t : K × Program K S C E R ε α} {spent : List (K × Nat)}
variable {next : Except E Nat → Program K S C E R ε α} {versions : List S} {fresh : S → Prop} {I : S → Prop}
  {guard : S → S → Prop}

omit [DecidableEq K] in
theorem Held.mono (h : Held store history k v) (hs : Extends store store') (hh : ∀ e ∈ history, e ∈ history') :
    Held store' history' k v where
  current := hs _ _ _ h.current
  replaced s he := by
    obtain ⟨r, hr, hg⟩ := h.replaced s he
    exact ⟨r, hr, hs _ _ _ hg⟩
  logged e he := hh e (h.logged e he)

omit [DecidableEq K] [DecidablePred P.linear] in
theorem Paid.mono {e : Event C R} (h : Paid P store e at_) (hs : Extends store store') : Paid P store' e at_ := by
  obtain ⟨r, s, s', hr, hg, hg', hm⟩ := h
  exact ⟨r, s, s', hr, hs _ _ _ hg, hs _ _ _ hg', hm⟩

omit [DecidableEq K] [DecidablePred P.linear] in
theorem Paid.lt {e : Event C R} (h : Paid P store e at_) : at_.2 < (store at_.1).length := by
  obtain ⟨r, s, s', hr, hg, hg', hm⟩ := h
  rw [hr]
  exact (List.getElem?_eq_some_iff.mp hg').choose

theorem extends_append (store : K → List S) (k : K) (s : S) :
    Extends store (Function.update store k (store k ++ [s])) := by
  intro k' i t h
  by_cases hk : k' = k
  · subst hk
    rw [Function.update_self, List.getElem?_append_left (List.getElem?_eq_some_iff.mp h).choose]
    exact h
  · rw [Function.update_of_ne hk]
    exact h

theorem sound_initial : Sound env P (Config.initial : Config K S C E R ε α) where
  keyed := by simp [Config.initial]
  fresh := by simp [Config.initial]
  linked := by simp [Config.initial]
  answered := by simp [Config.initial]
  ghosts := ⟨[], [], by simp [Config.initial]⟩

theorem Sound.create (h : Sound env P c) (hf : env.fresh s) (hn : c.store (env.key s) = []) :
    Sound env P { c with store := Function.update c.store (env.key s) [s] } := by
  have hg : Extends c.store (Function.update c.store (env.key s) [s]) := by
    simpa [hn] using extends_append c.store (env.key s) s
  obtain ⟨gs, spent, ht, hw, hv, hp, hd⟩ := h.ghosts
  constructor
  · intro k t ht
    by_cases hk : k = env.key s
    · subst hk
      simp only [Function.update_self, List.mem_singleton] at ht
      rw [ht]
    · simp only [Function.update_of_ne hk] at ht
      exact h.keyed k t ht
  · intro k t ht
    by_cases hk : k = env.key s
    · subst hk
      simp only [Function.update_self, List.getElem?_cons_zero, Option.some.injEq] at ht
      exact ht ▸ hf
    · simp only [Function.update_of_ne hk] at ht
      exact h.fresh k t ht
  · intro k i t t' ht ht'
    by_cases hk : k = env.key s
    · subst hk
      simp at ht'
    · simp only [Function.update_of_ne hk] at ht ht'
      exact h.linked k i t t' ht ht'
  · exact h.answered
  · exact ⟨gs, spent, ht, hw, fun g hgs v hgv => (hv g hgs v hgv).mono hg fun _ he => he,
      hp.imp fun _ _ hq => hq.mono hg, hd⟩

omit [DecidableEq K] in
theorem Held.loaded (hr : revision + 1 = (store k).length) (hs : (store k).getLast? = some s) :
    Held store history k ⟨revision, s, none, []⟩ := by
  refine ⟨?_, by simp, by simp⟩
  rw [List.getLast?_eq_getElem?] at hs
  simpa [← hr] using hs

theorem Held.saved (h : Held store history k v) (hr : v.revision + 1 = (store k).length) (s : S) :
    Held (Function.update store k (store k ++ [s])) history k ⟨v.revision + 1, s, some v.state, []⟩ := by
  refine ⟨?_, ?_, by simp⟩
  · simp only [Function.update_self]
    rw [hr, List.getElem?_concat_length]
  · rintro t ⟨⟩
    exact ⟨v.revision, rfl, extends_append store k s _ _ _ h.current⟩

omit [DecidableEq K] in
theorem Held.called (h : Held store history k v) (e : Event C R) (spent : Prop) [Decidable spent] :
    Held store (history ++ [e]) k { v with
      replaced := if spent then none else v.replaced, log := v.log ++ [e] } := by
  refine ⟨h.current, fun s hs => ?_, fun e' he => ?_⟩
  · split at hs
    · cases hs
    · exact h.replaced s hs
  · rcases List.mem_append.mp he with he | he
    · exact List.mem_append_left _ (h.logged e' he)
    · exact List.mem_append_right _ he

structure Others (env : Environment K S C E R ε α) (P : Protocol K S C R) [DecidablePred P.linear]
    (store : K → List S) (history : List (Event C R)) (gs : List (Ghost K S C E R ε α)) : Prop where
  safe : ∀ g ∈ gs, wp (contract env P g.1.1) g.2 g.1.2 fun _ _ => True
  held : ∀ g ∈ gs, ∀ v, g.2 = some v → Held store history g.1.1 v

theorem Others.mono (h : Others env P store history gs) (hs : Extends store store')
    (hh : ∀ e ∈ history, e ∈ history') : Others env P store' history' gs where
  safe := h.safe
  held g hg v hv := (h.held g hg v hv).mono hs hh

omit [DecidableEq K] in
theorem ghosts_split (h : l ++ t :: r = gs.map Prod.fst) :
    ∃ (gl gr : List (Ghost K S C E R ε α)) (v : Option (View S C R)),
      gs = gl ++ (t, v) :: gr ∧ l = gl.map Prod.fst ∧ r = gr.map Prod.fst := by
  obtain ⟨gl, gtr, rfl, hl, htr⟩ := List.map_eq_append_iff.mp h.symm
  obtain ⟨⟨t', v⟩, gr, rfl, hg, hr⟩ := List.map_eq_cons_iff.mp htr
  simp only at hg
  subst hg
  exact ⟨gl, gr, v, rfl, hl.symm, hr.symm⟩

theorem Sound.split (h : Sound env P ⟨store, history, l ++ t :: r⟩) :
    ∃ (gl gr : List (Ghost K S C E R ε α)) (v : Option (View S C R)) (spent : List (K × Nat)),
      l = gl.map Prod.fst ∧ r = gr.map Prod.fst ∧ Others env P store history (gl ++ gr) ∧
      wp (contract env P t.1) v t.2 (fun _ _ => True) ∧ (∀ w, v = some w → Held store history t.1 w) ∧
      List.Forall₂ (Paid P store) (history.filter fun e => P.linear e.call) spent ∧
      (spent ++ (gl.flatMap Ghost.token ++ (Ghost.token (t, v) ++ gr.flatMap Ghost.token))).Nodup := by
  obtain ⟨gs, spent, ht, hw, hv, hp, hd⟩ := h.ghosts
  obtain ⟨gl, gr, v, rfl, hl, hr⟩ := ghosts_split ht
  refine ⟨gl, gr, v, spent, hl, hr, ⟨?_, ?_⟩, ?_, ?_, hp, by simpa using hd⟩
  · intro g hg
    exact hw g (by simp only [List.mem_append, List.mem_cons] at hg ⊢; tauto)
  · intro g hg
    exact hv g (by simp only [List.mem_append, List.mem_cons] at hg ⊢; tauto)
  · exact hw (t, v) (by simp)
  · exact hv (t, v) (by simp)

theorem ghosts_join {gl gr : List (Ghost K S C E R ε α)} {v : Option (View S C R)}
    (ho : Others env P store history (gl ++ gr)) (hw : wp (contract env P t.1) v t.2 fun _ _ => True)
    (hv : ∀ w, v = some w → Held store history t.1 w)
    (hp : List.Forall₂ (Paid P store) (history.filter fun e => P.linear e.call) spent)
    (hd : (spent ++ (gl.flatMap Ghost.token ++ (Ghost.token (t, v) ++ gr.flatMap Ghost.token))).Nodup) :
    ∃ (gs : List (Ghost K S C E R ε α)) (spent : List (K × Nat)),
      gl.map Prod.fst ++ t :: gr.map Prod.fst = gs.map Prod.fst ∧
      (∀ g ∈ gs, wp (contract env P g.1.1) g.2 g.1.2 fun _ _ => True) ∧
      (∀ g ∈ gs, ∀ v, g.2 = some v → Held store history g.1.1 v) ∧
      List.Forall₂ (Paid P store) (history.filter fun e => P.linear e.call) spent ∧
      (spent ++ gs.flatMap Ghost.token).Nodup := by
  refine ⟨gl ++ (t, v) :: gr, spent, by simp, ?_, ?_, hp, by simpa using hd⟩
  · intro g hg
    simp only [List.mem_append, List.mem_cons] at hg
    rcases hg with hg | rfl | hg
    · exact ho.safe g (List.mem_append_left _ hg)
    · exact hw
    · exact ho.safe g (List.mem_append_right _ hg)
  · intro g hg
    simp only [List.mem_append, List.mem_cons] at hg
    rcases hg with hg | rfl | hg
    · exact ho.held g (List.mem_append_left _ hg)
    · exact hv
    · exact ho.held g (List.mem_append_right _ hg)

omit [DecidableEq K] in
theorem nodup_without {a b c : List (K × Nat)} (h : (spent ++ (a ++ (b ++ c))).Nodup) :
    (spent ++ (a ++ c)).Nodup := by
  refine h.sublist (List.Sublist.append_left (List.Sublist.append_left ?_ _) _)
  exact List.sublist_append_right b c

theorem Sound.start {p : Program K S C E R ε α} (h : Sound env P c)
    (hw : wp (contract env P k) none p fun _ _ => True) :
    Sound env P { c with tasks := c.tasks ++ [(k, p)] } := by
  obtain ⟨gs, spent, ht, hs, hv, hp, hd⟩ := h.ghosts
  refine ⟨h.keyed, h.fresh, h.linked, h.answered, ?_⟩
  have ho : Others env P c.store c.history (gs ++ []) := ⟨by simpa using hs, by simpa using hv⟩
  have hh := ghosts_join (t := (k, p)) (v := none) ho hw (by simp) hp (by simpa [Ghost.token] using hd)
  simpa [ht] using hh

theorem Sound.crash (h : Sound env P ⟨store, history, l ++ t :: r⟩) : Sound env P ⟨store, history, l ++ r⟩ := by
  obtain ⟨gl, gr, v, spent, rfl, rfl, ho, hw, hv, hp, hd⟩ := h.split
  refine ⟨h.keyed, h.fresh, h.linked, h.answered, gl ++ gr, spent, by simp, ho.safe, ho.held, hp, ?_⟩
  rw [List.flatMap_append]
  exact nodup_without hd

theorem Sound.load {k' : K} {next : Except E (Nat × S) → Program K S C E R ε α} {reply : Except E (Nat × S)}
    (h : Sound env P ⟨store, history, l ++ (k, .op (.load k') next) :: r⟩) (hl : Loads (store k') reply) :
    Sound env P ⟨store, history, l ++ (k, next reply) :: r⟩ := by
  obtain ⟨gl, gr, v, spent, rfl, rfl, ho, hw, hv, hp, hd⟩ := h.split
  obtain ⟨⟨rfl, _⟩, hnext⟩ := hw
  refine ⟨h.keyed, h.fresh, h.linked, h.answered, ?_⟩
  cases reply with
  | error e =>
    refine ghosts_join (v := none) ho (hnext (.error e) none rfl) (by simp) hp ?_
    simpa [Ghost.token] using nodup_without hd
  | ok loaded =>
    obtain ⟨revision, s⟩ := loaded
    obtain ⟨hr, hs⟩ := hl
    have hk : env.key s = k' := h.keyed k' s (List.mem_of_getLast? hs)
    refine ghosts_join (v := some ⟨revision, s, none, []⟩) ho (hnext (.ok (revision, s)) _ ⟨hk, rfl⟩) ?_ hp ?_
    · rintro w ⟨⟩
      exact .loaded hr hs
    · simpa [Ghost.token] using nodup_without hd

theorem Sound.saveRefused (h : Sound env P ⟨store, history, l ++ (k, .op (.save revision s) next) :: r⟩) (e : E) :
    Sound env P ⟨store, history, l ++ (k, next (.error e)) :: r⟩ := by
  obtain ⟨gl, gr, v, spent, rfl, rfl, ho, hw, hv, hp, hd⟩ := h.split
  refine ⟨h.keyed, h.fresh, h.linked, h.answered, ?_⟩
  refine ghosts_join (v := none) ho (hw.2 (.error e) none rfl) (by simp) hp ?_
  simpa [Ghost.token] using nodup_without hd

theorem Others.token_lt (h : Others env P store history gs) (hm : at_ ∈ gs.flatMap Ghost.token) :
    at_.2 < (store at_.1).length := by
  obtain ⟨⟨⟨k, p⟩, v⟩, hg, ht⟩ := List.mem_flatMap.mp hm
  cases v with
  | none => simp [Ghost.token] at ht
  | some w =>
    simp only [Ghost.token] at ht
    split at ht
    · rw [List.mem_singleton.mp ht]
      exact (List.getElem?_eq_some_iff.mp (h.held _ hg w rfl).current).choose
    · simp at ht

omit [DecidableEq K] [DecidablePred P.linear] in
theorem paid_lt {events : List (Event C R)}
    (h : List.Forall₂ (Paid P store) events spent) : ∀ at_ ∈ spent, at_.2 < (store at_.1).length := by
  induction h with
  | nil => simp
  | cons hp _ ih =>
    intro at_ hm
    rcases List.mem_cons.mp hm with rfl | hm
    · exact hp.lt
    · exact ih at_ hm

omit [DecidablePred P.linear] in
theorem linked_save (h : ∀ k i s s', (store k)[i]? = some s → (store k)[i + 1]? = some s' →
      ∃ log, (∀ e ∈ log, e ∈ history) ∧ P.step k s log s')
    (hv : Held store history k v) (hr : v.revision + 1 = (store k).length) (hs : P.step k v.state v.log s)
    (k' : K) (i : Nat) (t t' : S) (ht : (Function.update store k (store k ++ [s]) k')[i]? = some t)
    (ht' : (Function.update store k (store k ++ [s]) k')[i + 1]? = some t') :
    ∃ log, (∀ e ∈ log, e ∈ history) ∧ P.step k' t log t' := by
  by_cases hk : k' = k
  · subst hk
    rw [Function.update_self] at ht ht'
    have hi := (List.getElem?_eq_some_iff.mp ht').choose
    rw [List.length_append, List.length_singleton] at hi
    rw [List.getElem?_append_left (by omega)] at ht
    by_cases hlast : i + 1 < (store k').length
    · rw [List.getElem?_append_left hlast] at ht'
      exact h k' i t t' ht ht'
    · have hi' : i = v.revision := by omega
      subst hi'
      rw [hv.current] at ht
      rw [hr, List.getElem?_concat_length] at ht'
      cases ht
      cases ht'
      exact ⟨v.log, hv.logged, hs⟩
  · rw [Function.update_of_ne hk] at ht ht'
    exact h k' i t t' ht ht'

theorem Sound.save (h : Sound env P ⟨store, history, l ++ (k, .op (.save revision s) next) :: r⟩)
    (hr : revision + 1 = (store (env.key s)).length) :
    Sound env P ⟨Function.update store (env.key s) (store (env.key s) ++ [s]), history,
      l ++ (k, next (.ok (revision + 1))) :: r⟩ := by
  obtain ⟨gl, gr, v, spent, rfl, rfl, ho, ⟨⟨w, rfl, rfl, rfl, hstep⟩, hnext⟩, hv, hp, hd⟩ := h.split
  have hw := hv w rfl
  have he := extends_append store (env.key s) s
  refine ⟨?_, ?_, linked_save h.linked hw hr hstep, h.answered, ?_⟩
  · intro k' t ht
    by_cases hk : k' = env.key s
    · subst hk
      simp only [Function.update_self, List.mem_append, List.mem_singleton] at ht
      rcases ht with ht | rfl
      · exact h.keyed _ t ht
      · rfl
    · simp only [Function.update_of_ne hk] at ht
      exact h.keyed k' t ht
  · intro k' t ht
    by_cases hk : k' = env.key s
    · subst hk
      simp only [Function.update_self] at ht
      rw [List.getElem?_append_left (by omega)] at ht
      exact h.fresh _ t ht
    · simp only [Function.update_of_ne hk] at ht
      exact h.fresh k' t ht
  · refine ghosts_join (v := some ⟨w.revision + 1, s, some w.state, []⟩) (ho.mono he fun _ hm => hm)
      (hnext (.ok (w.revision + 1)) _ ⟨rfl, rfl⟩) ?_ (hp.imp fun _ _ hq => hq.mono he) ?_
    · rintro w' ⟨⟩
      exact hw.saved hr s
    · -- the new version is above every version spent or still held
      have hfresh : ∀ at_ ∈ spent ++ (gl ++ gr).flatMap Ghost.token, at_ ≠ (env.key s, w.revision + 1) := by
        rintro at_ hm rfl
        rcases List.mem_append.mp hm with hm | hm
        · have := paid_lt hp _ hm
          simp only at this
          omega
        · have := ho.token_lt hm
          simp only at this
          omega
      have hn := nodup_without hd
      rw [← List.flatMap_append] at hn
      have hc : ((env.key s, w.revision + 1) :: (spent ++ (gl ++ gr).flatMap Ghost.token)).Nodup :=
        List.nodup_cons.mpr ⟨fun hm => hfresh _ hm rfl, hn⟩
      refine (List.Perm.nodup_iff ?_).mp hc
      simp only [Ghost.token, Option.isSome_some, if_true, List.flatMap_append, List.singleton_append]
      rw [← List.append_assoc, ← List.append_assoc]
      exact List.perm_middle.symm

theorem Sound.call {c : C} {next : R c → Program K S C E R ε α}
    (h : Sound env P ⟨store, history, l ++ (k, .op (.call c) next) :: r⟩) {reply : R c}
    (ha : env.answers c reply) :
    Sound env P ⟨store, history ++ [⟨c, reply⟩], l ++ (k, next reply) :: r⟩ := by
  obtain ⟨gl, gr, _, spent, rfl, rfl, ho, ⟨⟨w, rfl, _, hpre⟩, hnext⟩, hv, hp, hd⟩ := h.split
  have hw := hv w rfl
  have hsub : ∀ e ∈ history, e ∈ history ++ [(⟨c, reply⟩ : Event C R)] := fun _ he => List.mem_append_left _ he
  refine ⟨h.keyed, h.fresh, ?_, ?_, ?_⟩
  · intro k' i s s' hs hs'
    obtain ⟨log, hlog, hstep⟩ := h.linked k' i s s' hs hs'
    exact ⟨log, fun e he => hsub e (hlog e he), hstep⟩
  · intro e he
    rcases List.mem_append.mp he with he | he
    · exact h.answered e he
    · rw [List.mem_singleton.mp he]
      exact ha
  · have ho' := ho.mono (fun _ _ _ hs => hs) hsub
    have hnext' := hnext reply _ ⟨ha, rfl⟩
    have hheld : ∀ w', some { w with
        replaced := if P.linear c then none else w.replaced, log := w.log ++ [⟨c, reply⟩] } = some w' →
        Held store (history ++ [(⟨c, reply⟩ : Event C R)]) k w' := by
      rintro w' ⟨⟩
      exact hw.called ⟨c, reply⟩ (P.linear c)
    by_cases hc : P.linear c
    · obtain ⟨s, hrep, hm⟩ := hpre hc
      obtain ⟨n, hn, hs⟩ := hw.replaced s hrep
      refine ghosts_join ho' hnext' hheld (?_ : List.Forall₂ _ _ (spent ++ [(k, w.revision)])) ?_
      · rw [List.filter_append]
        refine List.rel_append hp ?_
        simp only [List.filter_singleton, hc, decide_true, cond_true]
        refine .cons ⟨n, s, w.state, hn, hs, ?_, hm⟩ .nil
        rw [← hn]
        exact hw.current
      · refine (List.Perm.nodup_iff ?_).mp hd
        simp only [Ghost.token, hrep, hc, Option.isSome_some, if_true, List.append_assoc]
        exact List.Perm.append_left spent (List.perm_append_comm_assoc _ _ _)
    · refine ghosts_join ho' hnext' hheld (?_ : List.Forall₂ _ _ spent) ?_
      · rw [List.filter_append]
        simpa [hc] using hp
      · simpa [Ghost.token, hc] using hd

theorem Sound.step {c' : Config K S C E R ε α} (hc : Complies env P) (h : Sound env P c)
    (hs : Step env c c') : Sound env P c' := by
  cases hs with
  | create s hf hn => exact h.create hf hn
  | start k p hp => exact h.start (hc k p hp)
  | crash => exact h.crash
  | load reply hl => exact h.load hl
  | saveRefused e => exact h.saveRefused e
  | save hr => exact h.save hr
  | call reply ha => exact h.call ha

theorem Reachable.sound (hc : Complies env P) (h : Reachable env c) : Sound env P c := by
  induction h with
  | refl => exact sound_initial
  | tail _ hs ih => exact ih.step hc hs

inductive Run (fresh : S → Prop) (step : S → S → Prop) : List S → Prop where
  | nil : Run fresh step []
  | first {s : S} (hf : fresh s) : Run fresh step [s]
  | next {versions : List S} {s s' : S} (hr : Run fresh step (versions ++ [s])) (hs : step s s') :
      Run fresh step (versions ++ [s] ++ [s'])

omit [DecidableEq K] in
theorem run_of_linked {step : S → S → Prop} (hf : ∀ s, versions[0]? = some s → fresh s)
    (hs : ∀ i s s', versions[i]? = some s → versions[i + 1]? = some s' → step s s') :
    Run fresh step versions := by
  induction versions using List.reverseRecOn with
  | nil => exact .nil
  | append_singleton versions s' ih =>
    rcases List.eq_nil_or_concat versions with rfl | ⟨versions, s, rfl⟩
    · exact .first (hf s' (by simp))
    · rw [List.concat_eq_append] at ih hf hs ⊢
      refine .next (ih ?_ ?_) (hs versions.length s s' ?_ ?_)
      · intro t ht
        exact hf t (by rw [List.getElem?_append_left (by simp)]; exact ht)
      · intro i t t' ht ht'
        have hi := (List.getElem?_eq_some_iff.mp ht').choose
        refine hs i t t' ?_ ?_
        · rw [List.getElem?_append_left (by omega)]
          exact ht
        · rw [List.getElem?_append_left hi]
          exact ht'
      · rw [List.getElem?_append_left (by simp), List.getElem?_concat_length]
      · have hl : versions.length + 1 = (versions ++ [s]).length := by simp
        rw [hl, List.getElem?_concat_length]

/-- A step of the protocol whose calls were all made and answered as the environment allows. -/
def Protocol.Stepped (P : Protocol K S C R) (env : Environment K S C E R ε α) (history : List (Event C R)) (k : K)
    (s s' : S) : Prop :=
  ∃ log, (∀ e ∈ log, e ∈ history ∧ env.answers e.call e.reply) ∧ P.step k s log s'

theorem Sound.runWith (h : Sound env P c) (k : K)
    (hg : ∀ i s s', (c.store k)[i]? = some s → (c.store k)[i + 1]? = some s' → guard s s') :
    Run (fun s => env.fresh s ∧ env.key s = k) (fun s s' => P.Stepped env c.history k s s' ∧
      guard s s') (c.store k) := by
  refine run_of_linked (fun s hs => ⟨h.fresh k s hs, h.keyed k s (List.mem_of_getElem? hs)⟩) ?_
  intro i s s' hs hs'
  obtain ⟨log, hlog, hstep⟩ := h.linked k i s s' hs hs'
  exact ⟨⟨log, fun e he => ⟨hlog e he, h.answered e (hlog e he)⟩, hstep⟩, hg i s s' hs hs'⟩

theorem Sound.run (h : Sound env P c) (k : K) :
    Run (fun s => env.fresh s ∧ env.key s = k) (P.Stepped env c.history k) (c.store k) := by
  have hrun := h.runWith k (fun _ _ _ _ _ => trivial)
  simpa using hrun

theorem Run.invariant_upto {step : S → S → Prop} {J : List S → S → Prop}
    (h : Run fresh step versions) (hf : ∀ s, fresh s → J [s] s)
    (hs : ∀ before s s', J (before ++ [s]) s → step s s' → J (before ++ [s] ++ [s']) s') :
    ∀ (n : Nat) s, versions[n]? = some s → J (versions.take (n + 1)) s := by
  have hlast : ∀ before s, versions = before ++ [s] → J versions s ∧
      ∀ (n : Nat) t, versions[n]? = some t → J (versions.take (n + 1)) t := by
    induction h with
    | nil => simp
    | @first t hfresh =>
      intro before s hv
      obtain ⟨rfl, rfl⟩ : before = [] ∧ t = s := by
        cases before with
        | nil => simpa using hv
        | cons x before => simp at hv
      refine ⟨hf t hfresh, fun n u hu => ?_⟩
      obtain ⟨rfl, rfl⟩ : n = 0 ∧ t = u := by
        cases n with
        | zero => simpa using hu
        | succ n => simp at hu
      simpa using hf t hfresh
    | @next before t t' _ hstep ih =>
      intro before' s hv
      obtain ⟨hj, hall⟩ := ih before t rfl
      obtain ⟨_, hts⟩ := List.append_inj' hv rfl
      obtain rfl : t' = s := by simpa using hts
      have hj' := hs before t t' hj hstep
      refine ⟨hj', fun n u hu => ?_⟩
      by_cases hn : n < (before ++ [t]).length
      · rw [List.getElem?_append_left hn] at hu
        rw [List.take_append_of_le_length (by omega)]
        exact hall n u hu
      · have hlt := (List.getElem?_eq_some_iff.mp hu).choose
        rw [List.length_append, List.length_singleton] at hlt
        obtain rfl : n = (before ++ [t]).length := by omega
        rw [List.getElem?_concat_length] at hu
        cases hu
        rw [List.take_of_length_le (by simp)]
        exact hj'
  intro n s hn
  rcases List.eq_nil_or_concat versions with rfl | ⟨before, t, rfl⟩
  · simp at hn
  · exact (hlast before t (by rw [List.concat_eq_append])).2 n s hn

theorem Run.invariant {step : S → S → Prop}
    (h : Run fresh step versions) (hf : ∀ s, fresh s → I s) (hs : ∀ s s', step s s' → I s → I s') :
    ∀ s ∈ versions, I s := by
  induction h with
  | nil => simp
  | first hfresh => simpa using hf _ hfresh
  | next _ hstep ih =>
    intro s hm
    rcases List.mem_append.mp hm with hm | hm
    · exact ih s hm
    · rw [List.mem_singleton.mp hm]
      exact hs _ _ hstep (ih _ (by simp))

theorem Sound.stableWith (h : Sound env P c)
    (hs : ∀ s log s', P.step k s log s' → guard s s' → I s → I s') (hmn : m ≤ n) {t : S}
    (hg : ∀ i s s', m ≤ i → (c.store k)[i]? = some s → (c.store k)[i + 1]? = some s' → guard s s')
    (hm : (c.store k)[m]? = some s) (hn : (c.store k)[n]? = some t) (hI : I s) : I t := by
  obtain ⟨d, rfl⟩ := Nat.exists_eq_add_of_le hmn
  induction d generalizing t with
  | zero =>
    rw [Nat.add_zero, hm] at hn
    cases hn
    exact hI
  | succ d ih =>
    have hlt := (List.getElem?_eq_some_iff.mp hn).choose
    have hprev : (c.store k)[m + d]? = some ((c.store k).get ⟨m + d, by omega⟩) := by simp
    obtain ⟨log, _, hstep⟩ := h.linked k (m + d) _ t hprev hn
    exact hs _ log t hstep (hg (m + d) _ t (by omega) hprev hn) (ih (by omega) hprev)

theorem Sound.stable (h : Sound env P c)
    (hs : ∀ s log s', P.step k s log s' → I s → I s') (hmn : m ≤ n) {t : S}
    (hm : (c.store k)[m]? = some s) (hn : (c.store k)[n]? = some t) (hI : I s) : I t :=
  h.stableWith (fun s log s' hstep (_ : True) => hs s log s' hstep) hmn
    (fun _ _ _ _ _ _ => trivial) hm hn hI

theorem forall₂_filter_length_le_one {A B : Type} {r : A → B → Prop} {as : List A} {bs : List B} {q : A → Bool}
    (h : List.Forall₂ r as bs) (hd : bs.Nodup)
    (hq : ∀ a a' b b', q a = true → q a' = true → r a b → r a' b' → b = b') : (as.filter q).length ≤ 1 := by
  induction h with
  | nil => simp
  | @cons a b as bs hab hrest ih =>
    obtain ⟨hb, hd⟩ := List.nodup_cons.mp hd
    cases hqa : q a with
    | false => simpa [hqa] using ih hd
    | true =>
      have hnone : as.filter q = [] := by
        refine List.filter_eq_nil_iff.mpr fun a' ha' hqa' => ?_
        obtain ⟨hlen, hget⟩ := List.forall₂_iff_get.mp hrest
        obtain ⟨i, hi, rfl⟩ := List.getElem_of_mem ha'
        have hb' := hq a as[i] b bs[i] hqa hqa' hab (hget i hi (hlen ▸ hi))
        exact hb (hb' ▸ List.getElem_mem _)
      simp [hqa, hnone]

/-- If all the versions that pay for a call of kind `q` are one and the same, at most one such
call is ever made. -/
theorem Sound.linear_once (h : Sound env P c) {q : Event C R → Bool} (hl : ∀ e, q e = true → P.linear e.call)
    (hq : ∀ e e' at_ at_', q e = true → q e' = true → Paid P c.store e at_ → Paid P c.store e' at_' → at_ = at_') :
    (c.history.filter q).length ≤ 1 := by
  obtain ⟨gs, spent, ht, hw, hv, hp, hd⟩ := h.ghosts
  have hh := forall₂_filter_length_le_one hp (hd.sublist (List.sublist_append_left _ _)) hq
  rw [List.filter_filter] at hh
  have heq : (c.history.filter fun e => q e && decide (P.linear e.call)) = c.history.filter q := by
    refine List.filter_congr fun e _ => ?_
    cases hqe : q e with
    | false => rfl
    | true => simp [hl e hqe]
  rw [heq] at hh
  exact hh

end SharedStore
