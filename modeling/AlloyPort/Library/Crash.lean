import Mathlib.Data.List.Basic
import Mathlib.Logic.Relation

/-! Computations that may stop at any point. Besides its end a computation reports every state that it passes
through; a crash leaves one of them. -/

def Crashing (S ε α : Type) := S → (Except ε α × S) × List S

namespace Crashing

variable {S ε ε' α β : Type}

instance : Monad (Crashing S ε) where
  pure a := fun s => ((.ok a, s), [])
  bind t f := fun s => match t s with
    | ((.ok a, s'), passed) => ((f a s').1, passed ++ (f a s').2)
    | ((.error e, s'), passed) => ((.error e, s'), passed)

def get : Crashing S ε S := fun s => ((.ok s, s), [])

def raise (e : ε) : Crashing S ε α := fun s => ((.error e, s), [])

def attempt (x : Except ε α) : Crashing S ε α := fun s => ((x, s), [])

def step (f : S → S) : Crashing S ε Unit := fun s => ((.ok (), f s), [f s])

def steps (f : β → S → S) : List β → Crashing S ε Unit
  | [] => pure ()
  | b :: rest => do
    step (f b)
    steps f rest

def mapError (f : ε → ε') (t : Crashing S ε α) : Crashing S ε' α :=
  fun s => (((t s).1.1.mapError f, (t s).1.2), (t s).2)

def run (t : Crashing S ε α) (s : S) : Except ε (α × S) := (t s).1.1.map fun a => (a, (t s).1.2)

/-- A state that a computation leaves which was stopped somewhere, or has ended. -/
def Leaves (t : Crashing S ε α) (s s' : S) : Prop := s' = s ∨ s' ∈ (t s).2 ∨ s' = (t s).1.2

def Preserves (I : S → Prop) (t : Crashing S ε α) : Prop := ∀ s, I s → (∀ s' ∈ (t s).2, I s') ∧ I (t s).1.2

section rules

variable {t : Crashing S ε α} {f : α → Crashing S ε β} {s : S} {I : S → Prop}
variable {a : α} {s' : S} {g : ε → ε'} {x : Except ε α} {l : List β}

@[simp] theorem run_pure : (pure a : Crashing S ε α).run s = .ok (a, s) := rfl

@[simp] theorem run_get : (get : Crashing S ε S).run s = .ok (s, s) := rfl

@[simp] theorem run_raise {e : ε} : (raise e : Crashing S ε α).run s = .error e := rfl

@[simp] theorem run_step {g : S → S} : (step g : Crashing S ε Unit).run s = .ok ((), g s) := rfl

@[simp] theorem run_attempt : (attempt x : Crashing S ε α).run s = x.map fun a => (a, s) := by
  cases x <;> rfl

@[simp] theorem attempt_ok_bind : (attempt (.ok a) : Crashing S ε α) >>= f = f a := rfl

@[simp] theorem run_bind : (t >>= f).run s = match t.run s with
    | .ok (a, s') => (f a).run s'
    | .error e => .error e := by
  simp only [run, bind]
  rcases t s with ⟨⟨x, s'⟩, passed⟩
  cases x <;> rfl

theorem run_bind_ok {b : β} :
    (t >>= f).run s = .ok (b, s') ↔ ∃ a s₁, t.run s = .ok (a, s₁) ∧ (f a).run s₁ = .ok (b, s') := by
  rw [run_bind]
  cases t.run s with
  | error e => simp
  | ok r =>
    obtain ⟨a, s₁⟩ := r
    simp

theorem run_attempt_ok : (attempt x : Crashing S ε α).run s = .ok (a, s') ↔ x = .ok a ∧ s' = s := by
  rw [run_attempt]
  cases x with
  | error e => simp [Except.map]
  | ok b => simp [Except.map, eq_comm]

theorem run_steps {g : β → S → S} :
    (steps g l : Crashing S ε Unit).run s = .ok ((), l.foldl (fun s b => g b s) s) := by
  induction l generalizing s with
  | nil => rfl
  | cons b rest ih => simp [steps, ih]

theorem run_mapError : (t.mapError g).run s = (t.run s).mapError g := by
  simp only [run, mapError]
  cases (t s).1.1 <;> rfl

theorem mapError_ok {a : α} : (Except.ok a).mapError g = .ok a := rfl

theorem preserves_pure : Preserves I (pure a : Crashing S ε α) := fun _ h => ⟨nofun, h⟩

theorem preserves_get : Preserves I (get : Crashing S ε S) := fun _ h => ⟨nofun, h⟩

theorem preserves_raise {e : ε} : Preserves I (raise e : Crashing S ε α) := fun _ h => ⟨nofun, h⟩

theorem preserves_step {g : S → S} (h : ∀ s, I s → I (g s)) : Preserves I (step g : Crashing S ε Unit) := by
  intro s hs
  refine ⟨fun s' hmem => ?_, h s hs⟩
  rw [List.mem_singleton.mp hmem]
  exact h s hs

theorem preserves_bind (h : Preserves I t) (hf : ∀ a, Preserves I (f a)) : Preserves I (t >>= f) := by
  intro s hs
  obtain ⟨hpassed, hend⟩ := h s hs
  simp only [bind]
  rcases hrun : t s with ⟨⟨x, s'⟩, passed⟩
  rw [hrun] at hpassed hend
  cases x with
  | error e => exact ⟨hpassed, hend⟩
  | ok a =>
    obtain ⟨hpassed', hend'⟩ := hf a s' hend
    refine ⟨fun s'' hmem => ?_, hend'⟩
    rcases List.mem_append.mp hmem with hmem | hmem
    · exact hpassed s'' hmem
    · exact hpassed' s'' hmem

theorem preserves_steps {g : β → S → S} (h : ∀ b ∈ l, ∀ s, I s → I (g b s)) :
    Preserves I (steps g l : Crashing S ε Unit) := by
  induction l with
  | nil => exact preserves_pure
  | cons b rest ih =>
    apply preserves_bind (preserves_step (h b List.mem_cons_self))
    exact fun _ => ih fun b' hb' => h b' (List.mem_cons_of_mem b hb')

theorem preserves_mapError (h : Preserves I t) : Preserves I (t.mapError g) := h

theorem preserves_ite {p : Prop} [Decidable p] {t' : Crashing S ε α} (h : Preserves I t) (h' : Preserves I t') :
    Preserves I (if p then t else t') := by
  split
  · exact h
  · exact h'

theorem Preserves.leaves (h : Preserves I t) (hs : I s) (hl : Leaves t s s') : I s' := by
  rcases hl with rfl | hmem | rfl
  · exact hs
  · exact (h s hs).1 s' hmem
  · exact (h s hs).2

theorem Preserves.run (h : Preserves I t) (hs : I s) (hr : t.run s = .ok (a, s')) : I s' := by
  have hend := (h s hs).2
  unfold Crashing.run at hr
  cases hx : (t s).1.1 with
  | error e =>
    rw [hx] at hr
    cases hr
  | ok b =>
    rw [hx] at hr
    cases hr
    exact hend

theorem Preserves.retried (h : Preserves I t) (hs : I s) (hl : Relation.ReflTransGen (Leaves t) s s') : I s' := by
  induction hl with
  | refl => exact hs
  | tail _ hl ih => exact h.leaves ih hl

end rules

section shows

variable {T : Type} {φ : S → T} {p : Crashing S ε α} {q : Crashing T ε α}

/-- Each state of the one computation shows a state of the other. -/
def Shows (φ : S → T) (p : Crashing S ε α) (q : Crashing T ε α) : Prop :=
  ∀ s, q (φ s) = (((p s).1.1, φ (p s).1.2), (p s).2.map φ)

theorem shows_pure {a : α} : Shows φ (pure a : Crashing S ε α) (pure a) := fun _ => rfl

theorem shows_raise {e : ε} : Shows φ (raise e : Crashing S ε α) (raise e) := fun _ => rfl

theorem shows_step {f : S → S} {g : T → T} (h : ∀ s, g (φ s) = φ (f s)) :
    Shows φ (step f : Crashing S ε Unit) (step g) := by
  intro s
  simp [step, h]

theorem shows_bind {f : α → Crashing S ε β} {g : α → Crashing T ε β} (h : Shows φ p q) (hf : ∀ a, Shows φ (f a) (g a)) :
    Shows φ (p >>= f) (q >>= g) := by
  intro s
  simp only [bind, h s]
  rcases p s with ⟨⟨x, s'⟩, passed⟩
  cases x with
  | error e => rfl
  | ok a => simp [hf a s']

theorem shows_get_bind {f : S → Crashing S ε β} {g : T → Crashing T ε β} (hf : ∀ s, Shows φ (f s) (g (φ s))) :
    Shows φ (get >>= f) (get >>= g) := by
  intro s
  have h := hf s s
  simp only [bind, get, h]
  rfl

theorem shows_steps {f : β → S → S} {g : β → T → T} {l : List β} (h : ∀ b s, g b (φ s) = φ (f b s)) :
    Shows φ (steps f l : Crashing S ε Unit) (steps g l) := by
  induction l with
  | nil => exact shows_pure
  | cons b rest ih => exact shows_bind (shows_step (h b)) fun _ => ih

theorem Shows.run (h : Shows φ p q) (s : S) : q.run (φ s) = (p.run s).map fun r => (r.1, φ r.2) := by
  simp only [Crashing.run, h s]
  cases (p s).1.1 <;> rfl

theorem Shows.run_ok_iff (h : Shows φ p q) {s : S} {a : α} {t : T} :
    q.run (φ s) = .ok (a, t) ↔ ∃ s', p.run s = .ok (a, s') ∧ φ s' = t := by
  rw [h.run]
  cases p.run s with
  | error e => simp [Except.map]
  | ok r => simp [Except.map, Prod.ext_iff]

theorem Shows.preserves {I : T → Prop} (h : Shows φ p q) (hq : Preserves I q) : Preserves (fun s => I (φ s)) p := by
  intro s hs
  obtain ⟨hpassed, hend⟩ := hq (φ s) hs
  rw [h s] at hpassed hend
  exact ⟨fun s' hmem => hpassed (φ s') (List.mem_map_of_mem hmem), hend⟩

end shows

end Crashing
