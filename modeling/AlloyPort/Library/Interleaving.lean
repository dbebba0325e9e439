import Mathlib.Data.List.Forall2
import Mathlib.Data.List.Count
import AlloyPort.Library.Prog

/-! Tasks that interleave on a shared state. Every operation of a task is one atomic step; what it
answers and does is given by the world, which may also move on its own. The steps of the tasks
are kept in a log. -/

namespace Interleaving

open Effect

structure Event (Op : Type) (Reply : Op → Type) where
  task : Nat
  op : Op
  reply : Reply op

/-- What the operations may answer and do, how the state moves by itself, and which programs may be
started. -/
structure World (S Op : Type) (Reply : Op → Type) (ε α : Type) where
  acts : S → (o : Op) → Reply o → S → Prop
  moves : S → S → Prop
  starts : S → Prog Op Reply ε α → Prop

structure Config (S Op : Type) (Reply : Op → Type) (ε α : Type) where
  state : S
  tasks : List (Prog Op Reply ε α)
  log : List (Event Op Reply)

inductive Label (S Op : Type) (Reply : Op → Type) where
  | act (e : Event Op Reply)
  | move (s : S)
  | start

variable {S Op ε α G : Type} {Reply : Op → Type}

inductive Step (w : World S Op Reply ε α) : Config S Op Reply ε α → Label S Op Reply → Config S Op Reply ε α →
    Prop where
  | act {s s' tasks log i o next} (reply : Reply o) (ht : tasks[i]? = some (.op o next)) (ha : w.acts s o reply s') :
      Step w ⟨s, tasks, log⟩ (.act ⟨i, o, reply⟩) ⟨s', tasks.set i (next reply), log ++ [⟨i, o, reply⟩]⟩
  | move {s s' tasks log} (hm : w.moves s s') : Step w ⟨s, tasks, log⟩ (.move s') ⟨s', tasks, log⟩
  | start {s tasks log} (p : Prog Op Reply ε α) (hs : w.starts s p) :
      Step w ⟨s, tasks, log⟩ .start ⟨s, tasks ++ [p], log⟩

abbrev Guard (S Op : Type) (Reply : Op → Type) := S → List (Event Op Reply) → Label S Op Reply → Prop

inductive Run (w : World S Op Reply ε α) (guard : Guard S Op Reply) (c₀ : Config S Op Reply ε α) :
    Config S Op Reply ε α → Prop where
  | initial : Run w guard c₀ c₀
  | step {c label c'} (h : Run w guard c₀ c) (hs : Step w c label c') (hg : guard c.state c.log label) :
      Run w guard c₀ c'

/-- What a proof about the tasks keeps: a ghost for every task, under which the rest of its program
meets the contract, and an invariant of the state, the log and the ghosts. -/
structure Scheme (S Op : Type) (Reply : Op → Type) (ε α G : Type) where
  contract : Contract Op Reply G
  final : G → Except ε α → Prop
  invariant : S → List (Event Op Reply) → List G → Prop

def Scheme.Holds (m : Scheme S Op Reply ε α G) (c : Config S Op Reply ε α) : Prop :=
  ∃ gs, List.Forall₂ (fun p g => ends m.contract g p m.final) c.tasks gs ∧ m.invariant c.state c.log gs

structure Scheme.Kept (m : Scheme S Op Reply ε α G) (w : World S Op Reply ε α) (guard : Guard S Op Reply) : Prop where
  act : ∀ {s log gs i g o reply s'}, m.invariant s log gs → gs[i]? = some g → m.contract.pre g o →
    w.acts s o reply s' → guard s log (.act ⟨i, o, reply⟩) →
    ∃ g', m.contract.post g o reply g' ∧ m.invariant s' (log ++ [⟨i, o, reply⟩]) (gs.set i g')
  move : ∀ {s log gs s'}, m.invariant s log gs → w.moves s s' → guard s log (.move s') → m.invariant s' log gs
  start : ∀ {s log gs p}, m.invariant s log gs → w.starts s p →
    ∃ g, ends m.contract g p m.final ∧ m.invariant s log (gs ++ [g])

variable {β γ : Type} {i : Nat} {l : List β} {b : β} {R : β → γ → Prop} {b' : β} {r : List γ}

theorem forall₂_set (h : List.Forall₂ R l r)
    {c : γ} (hbc : R b c) : List.Forall₂ R (l.set i b) (r.set i c) := by
  induction h generalizing i with
  | nil => exact .nil
  | cons hd _ ih =>
    cases i with
    | zero => exact .cons hbc ‹_›
    | succ i => exact .cons hd ih

theorem forall₂_getElem? (h : List.Forall₂ R l r) (hb : l[i]? = some b) : ∃ c, r[i]? = some c ∧ R b c := by
  induction h generalizing i with
  | nil => simp at hb
  | cons hd _ ih =>
    cases i with
    | zero =>
      simp only [List.getElem?_cons_zero, Option.some.injEq] at hb
      exact ⟨_, rfl, hb ▸ hd⟩
    | succ i => exact ih hb

theorem getElem?_set_self (h : l[i]? = some b) : (l.set i b')[i]? = some b' := by
  rw [List.getElem?_set_self (List.getElem?_eq_some_iff.mp h).choose]

theorem getElem?_set_cases {j : Nat} {x : β} (h : (l.set i b)[j]? = some x) :
    i = j ∧ b = x ∨ i ≠ j ∧ l[j]? = some x := by
  rw [List.getElem?_set] at h
  split at h
  · split at h
    · exact .inl ⟨‹_›, Option.some.inj h⟩
    · cases h
  · exact .inr ⟨‹_›, h⟩

theorem map_set_same {f : β → γ} (h : l[i]? = some b)
    (hf : f b' = f b) : (l.set i b').map f = l.map f := by
  obtain ⟨hi, rfl⟩ := List.getElem?_eq_some_iff.mp h
  rw [List.map_set, hf, ← List.map_set, List.set_getElem_self]

theorem flatMap_set_same {f : β → List γ} (h : l[i]? = some b)
    (hf : f b' = f b) : (l.set i b').flatMap f = l.flatMap f := by
  rw [List.flatMap_def, List.flatMap_def, map_set_same h hf]

theorem set_self (h : l[i]? = some b) : l.set i b = l := by
  obtain ⟨hi, rfl⟩ := List.getElem?_eq_some_iff.mp h
  exact List.set_getElem_self hi

theorem flatMap_set_perm (f : β → List γ) (h : l[i]? = some b) :
    ∃ rest, (l.flatMap f).Perm (f b ++ rest) ∧ ∀ b', ((l.set i b').flatMap f).Perm (f b' ++ rest) := by
  induction l generalizing i with
  | nil => simp at h
  | cons a l ih =>
    cases i with
    | zero =>
      obtain rfl : a = b := by simpa using h
      exact ⟨l.flatMap f, by simp, fun b' => by simp⟩
    | succ i =>
      obtain ⟨rest, hl, hset⟩ := ih (i := i) (by simpa using h)
      refine ⟨f a ++ rest, ?_, fun b' => ?_⟩
      · rw [List.flatMap_cons]
        exact (hl.append_left (f a)).trans (List.perm_append_comm_assoc _ _ _)
      · rw [List.set_cons_succ, List.flatMap_cons]
        exact ((hset b').append_left (f a)).trans (List.perm_append_comm_assoc _ _ _)

variable {m : Scheme S Op Reply ε α G} {w : World S Op Reply ε α} {guard : Guard S Op Reply}
variable {c₀ c c' : Config S Op Reply ε α}

theorem Scheme.Kept.step {label : Label S Op Reply} (h : m.Kept w guard) (hc : m.Holds c) (hs : Step w c label c')
    (hg : guard c.state c.log label) : m.Holds c' := by
  obtain ⟨gs, htasks, hinv⟩ := hc
  cases hs with
  | act reply ht ha =>
    obtain ⟨g, hget, hpre, hnext⟩ := forall₂_getElem? htasks ht
    obtain ⟨g', hpost, hinv'⟩ := h.act hinv hget hpre ha hg
    exact ⟨_, forall₂_set htasks (hnext reply g' hpost), hinv'⟩
  | move hm => exact ⟨gs, htasks, h.move hinv hm hg⟩
  | start p hs =>
    obtain ⟨g, hends, hinv'⟩ := h.start hinv hs
    exact ⟨_, List.rel_append htasks (.cons hends .nil), hinv'⟩

theorem Scheme.Kept.run (h : m.Kept w guard) (h₀ : m.Holds c₀) (hr : Run w guard c₀ c) : m.Holds c := by
  induction hr with
  | initial => exact h₀
  | step _ hs hg ih => exact h.step ih hs hg

theorem Scheme.Holds.ended (h : m.Holds c) : ∃ gs, m.invariant c.state c.log gs ∧ gs.length = c.tasks.length ∧
    (∀ (i : Nat) a, c.tasks[i]? = some (Prog.ret a) → ∃ g, gs[i]? = some g ∧ m.final g (.ok a)) ∧
    ∀ (i : Nat) e, c.tasks[i]? = some (Prog.fail e) → ∃ g, gs[i]? = some g ∧ m.final g (.error e) := by
  obtain ⟨gs, htasks, hinv⟩ := h
  exact ⟨gs, hinv, htasks.length_eq.symm, fun i a hi => forall₂_getElem? htasks hi,
    fun i e hi => forall₂_getElem? htasks hi⟩

theorem Scheme.Holds.meets {e : Event Op Reply} (h : m.Holds c) (hs : Step w c (.act e) c') :
    ∃ gs g, m.invariant c.state c.log gs ∧ gs[e.task]? = some g ∧ m.contract.pre g e.op ∧
      w.acts c.state e.op e.reply c'.state := by
  obtain ⟨gs, htasks, hinv⟩ := h
  cases hs with
  | act reply ht ha =>
    obtain ⟨g, hget, hpre, _⟩ := forall₂_getElem? htasks ht
    exact ⟨gs, g, hinv, hget, hpre, ha⟩

variable {S Op ε α : Type} {Reply : Op → Type} {w : World S Op Reply ε α} {guard : Guard S Op Reply}
variable {c₀ c c' c'' : Config S Op Reply ε α}

theorem Run.trans (h : Run w guard c c') (h' : Run w guard c' c'') : Run w guard c c'' := by
  induction h' with
  | initial => exact h
  | step _ hs hg ih => exact ih.step hs hg

theorem Run.mono {guard' : Guard S Op Reply} (h : Run w guard c₀ c)
    (hg : ∀ s log label, guard s log label → guard' s log label) : Run w guard' c₀ c := by
  induction h with
  | initial => exact .initial
  | step _ hs hguard ih => exact ih.step hs (hg _ _ _ hguard)

structure Player (w : World S Op Reply ε α) (guard : Guard S Op Reply) where
  perform : S → (o : Op) → Option (Reply o × S)
  allows : S → List (Event Op Reply) → Event Op Reply → Bool
  acts : ∀ s o reply s', perform s o = some (reply, s') → w.acts s o reply s'
  guarded : ∀ s log e, allows s log e = true → guard s log (.act e)

namespace Player

def go (player : Player w guard) (i : Nat) (c : Config S Op Reply ε α) : Option (Config S Op Reply ε α) :=
  match c.tasks[i]? with
  | some (.op o next) =>
    match player.perform c.state o with
    | some (reply, s') =>
      if player.allows c.state c.log ⟨i, o, reply⟩ then
        some ⟨s', c.tasks.set i (next reply), c.log ++ [⟨i, o, reply⟩]⟩
      else none
    | none => none
  | _ => none

def play (player : Player w guard) : List Nat → Config S Op Reply ε α → Option (Config S Op Reply ε α)
  | [], c => some c
  | i :: schedule, c => (player.go i c).bind (player.play schedule)

variable {player : Player w guard} {schedule : List Nat}

theorem go_step {i : Nat} (h : player.go i c = some c') : ∃ label, Step w c label c' ∧ guard c.state c.log label := by
  obtain ⟨s, tasks, log⟩ := c
  unfold go at h
  split at h
  · rename_i o next htask
    split at h
    · rename_i reply s' hperform
      split at h
      · rename_i hallows
        cases h
        exact ⟨_, .act reply htask (player.acts _ _ _ _ hperform), player.guarded _ _ _ hallows⟩
      · cases h
    · cases h
  · cases h

theorem play_run (h : player.play schedule c = some c') : Run w guard c c' := by
  induction schedule generalizing c with
  | nil =>
    cases h
    exact .initial
  | cons i schedule ih =>
    obtain ⟨c₁, hgo, hplay⟩ := Option.bind_eq_some_iff.mp h
    obtain ⟨label, hstep, hguard⟩ := go_step hgo
    exact (Run.initial.step hstep hguard).trans (ih hplay)

theorem play_any {check : Config S Op Reply ε α → Bool}
    (h : (player.play schedule c).any check = true) : ∃ c', Run w guard c c' ∧ check c' = true := by
  cases hplay : player.play schedule c with
  | none =>
    rw [hplay] at h
    cases h
  | some c' =>
    rw [hplay] at h
    exact ⟨c', play_run hplay, h⟩

end Player

theorem run_starts {programs : List (Prog Op Reply ε α)} (hp : ∀ p ∈ programs, w.starts c.state p)
    (hg : guard c.state c.log .start) : Run w guard c { c with tasks := c.tasks ++ programs } := by
  induction programs generalizing c with
  | nil =>
    rw [List.append_nil]
    exact .initial
  | cons p programs ih =>
    have hfirst : Run w guard c { c with tasks := c.tasks ++ [p] } :=
      Run.initial.step (.start p (hp p List.mem_cons_self)) hg
    have hrest := ih (c := { c with tasks := c.tasks ++ [p] }) (fun q hq => hp q (List.mem_cons_of_mem _ hq)) hg
    simp only [List.append_assoc, List.singleton_append] at hrest
    exact hfirst.trans hrest

end Interleaving

/-! Two parties that send to each other over bounded ways, where a part of what goes up is answered down. The party at
the bottom sends without reading, the one at the top reads one frame at a time and answers it. -/

namespace Backpressure

/-- Whatever part of what goes up has been taken in, the rest of it fits the way up, or the answers to that part fit
the way down beside what is owed there already. -/
def Passes (up down : Nat) (kinds : List Bool) (owed : Nat) : Prop :=
  ∀ m < kinds.length, up < (kinds.drop m).length → owed + (kinds.take m).count true ≤ down

instance {up down owed : Nat} {kinds : List Bool} : Decidable (Passes up down kinds owed) := by
  unfold Passes
  infer_instance

variable {up down owed owed' : Nat} {kinds : List Bool} {k : Bool}

theorem passes_of_length_le (h : kinds.length ≤ up) : Passes up down kinds owed := by
  intro m _ hover
  rw [List.length_drop] at hover
  omega

theorem Passes.mono (h : Passes up down kinds owed) (hle : owed' ≤ owed) : Passes up down kinds owed' := by
  intro m hm hover
  have hfit := h m hm hover
  omega

theorem Passes.take (h : Passes up down (k :: kinds) owed) : Passes up down kinds (owed + if k then 1 else 0) := by
  intro m hm hover
  have hfit := h (m + 1) (by simpa using hm) (by simpa using hover)
  rw [List.take_succ_cons, List.count_cons] at hfit
  cases k <;> simp at hfit ⊢ <;> omega

theorem Passes.owed_le (h : Passes up down kinds owed) (hover : up < kinds.length) : owed ≤ down := by
  have hfit := h 0 (by omega) hover
  simpa using hfit

end Backpressure
