import Mathlib.Logic.Relation

/-! Transactions on a database. A transaction may fail, and it keeps the database it has reached
so that its caller decides what to commit. -/

namespace Database

def Transaction (D ε α : Type) := D → Except ε α × D

namespace Transaction

variable {D ε α β : Type}

instance : Monad (Transaction D ε) where
  pure a := fun d => (.ok a, d)
  bind t f := fun d => match t d with
    | (.ok a, d) => f a d
    | (.error e, d) => (.error e, d)

def read : Transaction D ε D := fun d => (.ok d, d)

def write (f : D → D) : Transaction D ε Unit := fun d => (.ok (), f d)

def raise (e : ε) : Transaction D ε α := fun d => (.error e, d)

def attempt (x : Except ε α) : Transaction D ε α := fun d => (x, d)

def forEach (f : α → Transaction D ε Unit) : List α → Transaction D ε Unit
  | [] => pure ()
  | a :: rest => do
    f a
    forEach f rest

def mapError {ε' : Type} (f : ε → ε') (t : Transaction D ε α) : Transaction D ε' α := fun d => match t d with
  | (.ok a, d) => (.ok a, d)
  | (.error e, d) => (.error (f e), d)

def recover (answer : ε → Option (Transaction D ε α)) (t : Transaction D ε α) : Transaction D ε α :=
  fun d => match t d with
  | (.ok a, d) => (.ok a, d)
  | (.error e, d) => match answer e with
    | some t' => t' d
    | none => (.error e, d)

/-- Runs a transaction; a failed one is rolled back, unless its error is one that is committed. -/
def runKeeping (keeps : ε → Bool) (t : Transaction D ε α) (d : D) : D × Except ε α :=
  match t d with
  | (.ok a, d') => (d', .ok a)
  | (.error e, d') => (if keeps e then d' else d, .error e)

def run (t : Transaction D ε α) (d : D) : D × Except ε α := t.runKeeping (fun _ => false) d

/-- How a transaction ends when it starts in `d`. -/
def wp (t : Transaction D ε α) (d : D) (Q : α → D → Prop) (E : ε → D → Prop) : Prop :=
  match t d with
  | (.ok a, d') => Q a d'
  | (.error e, d') => E e d'

variable {t : Transaction D ε α} {f : α → Transaction D ε β} {d : D}
variable {a : α} {d' : D} {Q Q' : α → D → Prop} {E E' : ε → D → Prop} {g : α → Transaction D ε Unit} {p : Prop}

theorem bind_ok (h : t d = (.ok a, d')) : (t >>= f) d = f a d' := by
  change (match t d with
    | (.ok a, d) => f a d
    | (.error e, d) => (.error e, d)) = f a d'
  rw [h]

theorem bind_error {e : ε} (h : t d = (.error e, d')) : (t >>= f) d = (.error e, d') := by
  change (match t d with
    | (.ok a, d) => f a d
    | (.error e, d) => (.error e, d)) = (.error e, d')
  rw [h]

@[simp] theorem wp_pure : (pure a : Transaction D ε α).wp d Q E ↔ Q a d :=
  Iff.rfl

@[simp] theorem wp_read {Q : D → D → Prop} : (read : Transaction D ε D).wp d Q E ↔ Q d d := Iff.rfl

@[simp] theorem wp_write {g : D → D} {Q : Unit → D → Prop} :
    (write g : Transaction D ε Unit).wp d Q E ↔ Q () (g d) := Iff.rfl

@[simp] theorem wp_raise {e : ε} : (raise e : Transaction D ε α).wp d Q E ↔ E e d := Iff.rfl

@[simp] theorem wp_attempt {x : Except ε α} :
    (attempt x : Transaction D ε α).wp d Q E ↔ (∀ a, x = .ok a → Q a d) ∧ ∀ e, x = .error e → E e d := by
  cases x with
  | error | ok => simp [wp, attempt]

@[simp] theorem wp_bind {Q : β → D → Prop} : (t >>= f).wp d Q E ↔ t.wp d (fun a d => (f a).wp d Q E) E := by
  simp only [wp, bind]
  cases t d with
  | mk x d' => cases x <;> exact Iff.rfl

@[simp] theorem wp_ite [Decidable p] {t t' : Transaction D ε α} :
    (if p then t else t').wp d Q E ↔ if p then t.wp d Q E else t'.wp d Q E := by
  split <;> exact Iff.rfl

@[simp] theorem wp_mapError {ε' : Type} {g : ε → ε'} {E : ε' → D → Prop} :
    (t.mapError g).wp d Q E ↔ t.wp d Q fun e d => E (g e) d := by
  simp only [wp, mapError]
  cases t d with
  | mk x d' => cases x <;> exact Iff.rfl

theorem wp_mono (h : t.wp d Q E) (hQ : ∀ a d, Q a d → Q' a d) (hE : ∀ e d, E e d → E' e d) : t.wp d Q' E' := by
  unfold wp at h ⊢
  split
  · rename_i a d' heq
    rw [heq] at h
    exact hQ a d' h
  · rename_i e d' heq
    rw [heq] at h
    exact hE e d' h

theorem wp_ok (h : t.wp d Q E) (ht : t d = (.ok a, d')) : Q a d' := by
  unfold wp at h
  rw [ht] at h
  exact h

theorem wp_and (h : t.wp d Q E) (h' : t.wp d Q' E') :
    t.wp d (fun a d => Q a d ∧ Q' a d) fun e d => E e d ∧ E' e d := by
  unfold wp at h h' ⊢
  split
  · rename_i a d' heq
    rw [heq] at h h'
    exact ⟨h, h'⟩
  · rename_i e d' heq
    rw [heq] at h h'
    exact ⟨h, h'⟩

theorem of_wp (h : t.wp d (fun _ _ => p) fun _ _ => p) : p := by
  unfold wp at h
  split at h <;> exact h

theorem wp_trivial : t.wp d (fun _ _ => True) fun _ _ => True := by
  unfold wp
  split <;> trivial

theorem wp_self : t.wp d (fun a d' => t d = (.ok a, d')) fun _ _ => True := by
  unfold wp
  split
  · rename_i heq
    exact heq
  · trivial

theorem wp_forEach {R : D → D → Prop} (hrefl : ∀ d, R d d) (htrans : ∀ {a b c}, R a b → R b c → R a c)
    (h : ∀ a d, (g a).wp d (fun _ d' => R d d') fun _ d' => R d d') (l : List α) :
    (forEach g l).wp d (fun _ d' => R d d') fun _ d' => R d d' := by
  induction l generalizing d with
  | nil => exact hrefl d
  | cons a l ih =>
    refine wp_bind.mpr (wp_mono (h a d) (fun _ d' hd => ?_) fun _ _ hd => hd)
    exact wp_mono ih (fun _ _ hr => htrans hd hr) fun _ _ hr => htrans hd hr

theorem wp_forEach_append {l : List α} {Q : Unit → D → Prop} :
    (forEach g (l ++ [a])).wp d Q E ↔ (forEach g l).wp d (fun _ d' => (g a).wp d' Q E) E := by
  induction l generalizing d with
  | nil => simp [forEach]
  | cons b l ih =>
    simp only [List.cons_append, forEach, wp_bind]
    refine ⟨fun h => wp_mono h (fun _ _ hrest => ih.mp hrest) fun _ _ he => he, fun h => ?_⟩
    exact wp_mono h (fun _ _ hrest => ih.mpr hrest) fun _ _ he => he

theorem runKeeping_cases {keeps : ε → Bool} (h : t.wp d Q E) :
    (∃ a, (t.runKeeping keeps d).2 = .ok a ∧ Q a (t.runKeeping keeps d).1) ∨
      ∃ e, (t.runKeeping keeps d).2 = .error e ∧
        (keeps e = false ∧ (t.runKeeping keeps d).1 = d ∨ keeps e = true ∧ E e (t.runKeeping keeps d).1) := by
  unfold wp at h
  unfold runKeeping
  split at h
  · rename_i a d' _
    exact .inl ⟨a, rfl, h⟩
  · rename_i e d' _
    refine .inr ⟨e, rfl, ?_⟩
    cases hk : keeps e with
    | false => exact .inl ⟨rfl, by simp⟩
    | true => exact .inr ⟨rfl, by simpa using h⟩

theorem run_outcome {F : ε → Prop} (h : t.wp d Q fun e _ => F e) :
    (∃ a, (t.run d).2 = .ok a ∧ Q a (t.run d).1) ∨ ∃ e, (t.run d).2 = .error e ∧ (t.run d).1 = d ∧ F e := by
  unfold wp at h
  unfold run runKeeping
  split at h
  · rename_i a d' _
    exact .inl ⟨a, rfl, h⟩
  · rename_i e d' _
    exact .inr ⟨e, rfl, rfl, h⟩

theorem run_cases (h : t.wp d Q fun _ _ => True) :
    (∃ a, (t.run d).2 = .ok a ∧ Q a (t.run d).1) ∨ ∃ e, (t.run d).2 = .error e ∧ (t.run d).1 = d := by
  rcases run_outcome h with ha | ⟨e, he, hd, -⟩
  · exact .inl ha
  · exact .inr ⟨e, he, hd⟩

theorem run_pair (h : t.wp d Q fun _ _ => True) :
    (∃ a d', t.run d = (d', .ok a) ∧ Q a d') ∨ ∃ e, t.run d = (d, .error e) := by
  rcases run_cases h with ⟨a, ha, hq⟩ | ⟨e, he, hd⟩
  · exact .inl ⟨a, _, Prod.ext rfl ha, hq⟩
  · exact .inr ⟨e, Prod.ext hd he⟩

theorem run_eq (h : t.wp d (fun b d'' => b = a ∧ d'' = d') fun _ _ => False) : t.run d = (d', .ok a) := by
  unfold wp at h
  unfold run runKeeping
  split at h
  · obtain ⟨rfl, rfl⟩ := h
    rfl
  · exact h.elim

def Keeps {γ : Type} (π : D → γ) (t : Transaction D ε α) : Prop := ∀ d, π (t d).2 = π d

section keeps

variable {γ : Type} {π : D → γ}

theorem keeps_pure {a : α} : Keeps π (pure a : Transaction D ε α) := fun _ => rfl

theorem keeps_read : Keeps π (read : Transaction D ε D) := fun _ => rfl

theorem keeps_raise {e : ε} : Keeps π (raise e : Transaction D ε α) := fun _ => rfl

theorem keeps_attempt {x : Except ε α} : Keeps π (attempt x : Transaction D ε α) := fun _ => rfl

theorem keeps_write {g : D → D} (h : ∀ d, π (g d) = π d) : Keeps π (write g : Transaction D ε Unit) := h

theorem keeps_bind (h : Keeps π t) (hf : ∀ a, Keeps π (f a)) : Keeps π (t >>= f) := by
  intro d
  simp only [bind]
  have hd := h d
  split
  · rename_i a d' heq
    rw [heq] at hd
    exact (hf a d').trans hd
  · rename_i e d' heq
    rw [heq] at hd
    exact hd

theorem keeps_ite {p : Prop} [Decidable p] {t t' : Transaction D ε α} (h : Keeps π t) (h' : Keeps π t') :
    Keeps π (if p then t else t') := by
  split
  · exact h
  · exact h'

theorem keeps_mapError {ε' : Type} {g : ε → ε'} (h : Keeps π t) : Keeps π (t.mapError g) := by
  intro d
  have hd := h d
  unfold mapError
  split
  · rename_i heq
    rw [heq] at hd
    exact hd
  · rename_i heq
    rw [heq] at hd
    exact hd

theorem keeps_forEach {g : α → Transaction D ε Unit} (h : ∀ a, Keeps π (g a)) (l : List α) : Keeps π (forEach g l) := by
  induction l with
  | nil => exact keeps_pure
  | cons a l ih => exact keeps_bind (h a) fun _ => ih

theorem Keeps.runKeeping (h : Keeps π t) (keeps : ε → Bool) (d : D) : π (t.runKeeping keeps d).1 = π d := by
  have hd := h d
  unfold Transaction.runKeeping
  split
  · rename_i heq
    rw [heq] at hd
    exact hd
  · rename_i heq
    rw [heq] at hd
    split
    · exact hd
    · rfl

theorem Keeps.wp (h : Keeps π t) : t.wp d (fun _ d' => π d' = π d) fun _ d' => π d' = π d := by
  have hd := h d
  unfold Transaction.wp
  split
  · rename_i heq
    rw [heq] at hd
    exact hd
  · rename_i heq
    rw [heq] at hd
    exact hd

theorem Keeps.run (h : Keeps π t) (d : D) : π (t.run d).1 = π d := h.runKeeping _ d

end keeps

def Respects (R : D → D → Prop) (t : Transaction D ε α) : Prop := ∀ d, R d (t d).2

section respects

variable {R : D → D → Prop}

theorem Keeps.respects {γ : Type} {π : D → γ} (h : Keeps π t) (hR : ∀ d d', π d' = π d → R d d') : Respects R t :=
  fun d => hR _ _ (h d)

theorem respects_pure (hrefl : ∀ d, R d d) {a : α} : Respects R (pure a : Transaction D ε α) := fun d => hrefl d

theorem respects_read (hrefl : ∀ d, R d d) : Respects R (read : Transaction D ε D) := fun d => hrefl d

theorem respects_raise (hrefl : ∀ d, R d d) {e : ε} : Respects R (raise e : Transaction D ε α) := fun d => hrefl d

theorem respects_attempt (hrefl : ∀ d, R d d) {x : Except ε α} : Respects R (attempt x : Transaction D ε α) :=
  fun d => hrefl d

theorem respects_write {g : D → D} (h : ∀ d, R d (g d)) : Respects R (write g : Transaction D ε Unit) := h

theorem respects_bind (htrans : ∀ {a b c}, R a b → R b c → R a c) (h : Respects R t) (hf : ∀ a, Respects R (f a)) :
    Respects R (t >>= f) := by
  intro d
  simp only [bind]
  have hd := h d
  split
  · rename_i a d' heq
    rw [heq] at hd
    exact htrans hd (hf a d')
  · rename_i e d' heq
    rw [heq] at hd
    exact hd

theorem respects_bind_wp {Q : α → D → Prop} (htrans : ∀ {a b c}, R a b → R b c → R a c) (h : R d (t d).2)
    (hQ : t.wp d Q fun _ _ => True) (hf : ∀ a d', Q a d' → R d' (f a d').2) : R d ((t >>= f) d).2 := by
  simp only [bind]
  unfold Transaction.wp at hQ
  split
  · rename_i a d' heq
    rw [heq] at h hQ
    exact htrans h (hf a d' hQ)
  · rename_i e d' heq
    rw [heq] at h
    exact h

theorem respects_mapError {ε' : Type} {g : ε → ε'} (h : Respects R t) : Respects R (t.mapError g) := by
  intro d
  have hd := h d
  unfold mapError
  split
  · rename_i heq
    rw [heq] at hd
    exact hd
  · rename_i heq
    rw [heq] at hd
    exact hd

theorem respects_recover (htrans : ∀ {a b c}, R a b → R b c → R a c) {answer : ε → Option (Transaction D ε α)}
    (h : Respects R t) (hanswer : ∀ e t', answer e = some t' → Respects R t') : Respects R (t.recover answer) := by
  intro d
  have hd := h d
  unfold recover
  split
  · rename_i heq
    rw [heq] at hd
    exact hd
  · rename_i e d' heq
    rw [heq] at hd
    split
    · rename_i t' ht'
      exact htrans hd (hanswer e t' ht' d')
    · exact hd

end respects

end Transaction

end Database
