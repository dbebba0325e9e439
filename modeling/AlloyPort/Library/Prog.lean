import Mathlib.Logic.Relation

/-! Programs of a fallible component that acts through operations. A program is the tree of
its operations with one continuation for every reply, so that a scheduler can stop it
between any two operations. -/

namespace Effect

inductive Prog (Op : Type) (Reply : Op → Type) (ε α : Type) where
  | ret (a : α)
  | fail (e : ε)
  | op (o : Op) (next : Reply o → Prog Op Reply ε α)

namespace Prog

def bind {Op : Type} {Reply : Op → Type} {ε α β : Type} :
    Prog Op Reply ε α → (α → Prog Op Reply ε β) → Prog Op Reply ε β
  | ret a, f => f a
  | fail e, _ => fail e
  | op o next, f => op o fun r => bind (next r) f

instance {Op : Type} {Reply : Op → Type} {ε : Type} : Monad (Prog Op Reply ε) where
  pure := ret
  bind := bind

def perform {Op : Type} {Reply : Op → Type} {ε : Type} (o : Op) : Prog Op Reply ε (Reply o) :=
  op o ret

/-- The `?` operator of the modelled code: an error result ends the program. -/
def attempt {Op : Type} {Reply : Op → Type} {ε α : Type} : Except ε α → Prog Op Reply ε α
  | .ok a => ret a
  | .error e => fail e

def result {Op : Type} {Reply : Op → Type} {ε ε' α : Type} : Prog Op Reply ε α → Prog Op Reply ε' (Except ε α)
  | ret a => ret (.ok a)
  | fail e => ret (.error e)
  | op o next => op o fun r => (next r).result

/-- The `map_err` of the modelled code. -/
def mapError {Op : Type} {Reply : Op → Type} {ε ε' α : Type} (f : ε → ε') : Prog Op Reply ε α → Prog Op Reply ε' α
  | ret a => ret a
  | fail e => fail (f e)
  | op o next => op o fun r => (next r).mapError f

end Prog

/-- What an operation may rely on and answer, over a state `G` that may be ghost. -/
structure Contract (Op : Type) (Reply : Op → Type) (G : Type) where
  pre : G → Op → Prop
  post : G → (o : Op) → Reply o → G → Prop

/-- Every operation of the program meets its precondition, whatever the replies are, and a
normal return meets `Q`. -/
def wp {Op : Type} {Reply : Op → Type} {G ε α : Type} (C : Contract Op Reply G) (g : G) :
    Prog Op Reply ε α → (G → α → Prop) → Prop
  | .ret a, Q => Q g a
  | .fail _, _ => True
  | .op o next, Q => C.pre g o ∧ ∀ r g', C.post g o r g' → wp C g' (next r) Q

variable {Op : Type} {Reply : Op → Type} {G ε α β : Type} {C : Contract Op Reply G}
variable {Q : G → α → Prop} {g : G} {a : α} {x : Except ε α}

@[simp] theorem wp_ret : wp C g (.ret a : Prog Op Reply ε α) Q ↔ Q g a := Iff.rfl

@[simp] theorem wp_pure : wp C g (pure a : Prog Op Reply ε α) Q ↔ Q g a := Iff.rfl

@[simp] theorem wp_fail {e : ε} : wp C g (.fail e : Prog Op Reply ε α) Q ↔ True := Iff.rfl

@[simp] theorem wp_attempt :
    wp C g (.attempt x : Prog Op Reply ε α) Q ↔ ∀ a, x = .ok a → Q g a := by
  cases x with
  | error | ok => simp [Prog.attempt]

@[simp] theorem mapError_eq_ok {ε ε' α : Type} {f : ε → ε'} {x : Except ε α} {a : α} :
    x.mapError f = .ok a ↔ x = .ok a := by
  cases x with
  | error | ok => constructor <;> intro h <;> cases h <;> rfl

theorem bind_eq_ok {ε α β : Type} {x : Except ε α} {f : α → Except ε β} {b : β} :
    (x >>= f) = .ok b ↔ ∃ a, x = .ok a ∧ f a = .ok b := by
  cases x with
  | error | ok => simp [Bind.bind, Except.bind]

theorem wp_mono {p : Prog Op Reply ε α} {Q' : G → α → Prop}
    (h : wp C g p Q) (hQ : ∀ g a, Q g a → Q' g a) : wp C g p Q' := by
  induction p generalizing g with
  | ret a => exact hQ g a h
  | fail e => trivial
  | op o next ih => exact ⟨h.1, fun r g' hr => ih r (h.2 r g' hr)⟩

theorem after_congr {o : Op} {P P' : Reply o → G → Prop} (h : ∀ r g', P r g' ↔ P' r g') :
    (C.pre g o ∧ ∀ r g', C.post g o r g' → P r g') ↔ C.pre g o ∧ ∀ r g', C.post g o r g' → P' r g' := by
  simp only [h]

@[simp] theorem wp_bind {p : Prog Op Reply ε α} {f : α → Prog Op Reply ε β}
    {Q : G → β → Prop} : wp C g (p >>= f) Q ↔ wp C g p fun g a => wp C g (f a) Q := by
  induction p generalizing g with
  | ret | fail => exact Iff.rfl
  | op o next ih => exact after_congr fun r _ => ih r

/-- Every operation of the program meets its precondition, whatever the replies are, and its end
meets `R`, be it a return or an error. -/
def ends {Op : Type} {Reply : Op → Type} {G ε α : Type} (C : Contract Op Reply G) (g : G) :
    Prog Op Reply ε α → (G → Except ε α → Prop) → Prop
  | .ret a, R => R g (.ok a)
  | .fail e, R => R g (.error e)
  | .op o next, R => C.pre g o ∧ ∀ r g', C.post g o r g' → ends C g' (next r) R

section ends

variable {ε' : Type} {g : G} {p : Prog Op Reply ε α}
variable {R : G → Except ε α → Prop}

@[simp] theorem ends_pure : ends C g (pure a : Prog Op Reply ε α) R ↔ R g (.ok a) := Iff.rfl

@[simp] theorem ends_fail {e : ε} : ends C g (.fail e : Prog Op Reply ε α) R ↔ R g (.error e) := Iff.rfl

@[simp] theorem ends_attempt : ends C g (.attempt x : Prog Op Reply ε α) R ↔ R g x := by
  cases x <;> exact Iff.rfl

theorem ends_mono {R' : G → Except ε α → Prop} (h : ends C g p R) (hR : ∀ g r, R g r → R' g r) : ends C g p R' := by
  induction p generalizing g with
  | ret | fail => exact hR g _ h
  | op o next ih => exact ⟨h.1, fun r g' hr => ih r (h.2 r g' hr)⟩

theorem ends_bind {f : α → Prog Op Reply ε β} {R : G → Except ε β → Prop} :
    ends C g (p >>= f) R ↔ ends C g p fun g r => match r with
      | .ok a => ends C g (f a) R
      | .error e => R g (.error e) := by
  induction p generalizing g with
  | ret | fail => exact Iff.rfl
  | op o next ih => exact after_congr fun r _ => ih r

theorem ends_still {o : Op} {f : Reply o → Prog Op Reply ε β} {R : G → Except ε β → Prop}
    (ho : C.pre g o ∧ ∀ r g', C.post g o r g' → g' = g) (h : ∀ r, ends C g (f r) R) :
    ends C g (.perform o >>= f) R := by
  refine ends_bind.mpr ⟨ho.1, fun r g' hr => ?_⟩
  rw [ho.2 r g' hr]
  exact h r

theorem ends_bind_cases {f : α → Prog Op Reply ε β} {R' : G → Except ε β → Prop} (h : ends C g p R)
    (herror : ∀ g' e, R g' (.error e) → R' g' (.error e)) (hok : ∀ g' a, R g' (.ok a) → ends C g' (f a) R') :
    ends C g (p >>= f) R' := by
  refine ends_bind.mpr (ends_mono h fun g' r hr => ?_)
  cases r with
  | error e => exact herror g' e hr
  | ok a => exact hok g' a hr

theorem ends_result {R : G → Except ε' (Except ε α) → Prop} :
    ends C g (p.result : Prog Op Reply ε' (Except ε α)) R ↔ ends C g p fun g r => R g (.ok r) := by
  induction p generalizing g with
  | ret | fail => exact Iff.rfl
  | op o next ih => exact after_congr fun r _ => ih r

theorem ends_mapError {f : ε → ε'} {R : G → Except ε' α → Prop} :
    ends C g (p.mapError f) R ↔ ends C g p fun g r => R g (r.mapError f) := by
  induction p generalizing g with
  | ret | fail => exact Iff.rfl
  | op o next ih => exact after_congr fun r _ => ih r

theorem ends_bind_mapError {f : α → Prog Op Reply ε' β} {raise : ε → ε'} {R' : G → Except ε' β → Prop}
    (h : ends C g p R) (herror : ∀ g' e, R g' (.error e) → R' g' (.error (raise e)))
    (hok : ∀ g' a, R g' (.ok a) → ends C g' (f a) R') : ends C g (p.mapError raise >>= f) R' := by
  refine ends_bind.mpr (ends_mapError.mpr (ends_mono h fun g' r hr => ?_))
  cases r with
  | error e => exact herror g' e hr
  | ok a => exact hok g' a hr

theorem ends_refine {G' : Type} {C' : Contract Op Reply G'} (r : G' → G) (hpre : ∀ g' o, C.pre (r g') o → C'.pre g' o)
    (hpost : ∀ g' o a g'', C'.post g' o a g'' → C.post (r g') o a (r g'')) {g' : G'}
    (h : ends C (r g') p R) : ends C' g' p fun g'' x => R (r g'') x := by
  induction p generalizing g' with
  | ret a => exact h
  | fail e => exact h
  | op o next ih => exact ⟨hpre g' o h.1, fun a g'' hr => ih a (h.2 a (r g'') (hpost g' o a g'' hr))⟩

theorem ends_weaken {C' : Contract Op Reply G} (hpre : ∀ g o, C.pre g o → C'.pre g o)
    (hpost : ∀ g o a g', C'.post g o a g' → C.post g o a g') (h : ends C g p R) :
    ends C' g p R := ends_refine (R := R) (fun g => g) hpre hpost h

end ends

def Performs (allowed : Op → Prop) : Prog Op Reply ε α → Prop
  | .ret _ => True
  | .fail _ => True
  | .op o next => allowed o ∧ ∀ r, Performs allowed (next r)

section performs

variable {allowed : Op → Prop} {ε' : Type} {p : Prog Op Reply ε α}

@[simp] theorem performs_pure : Performs allowed (pure a : Prog Op Reply ε α) := trivial

@[simp] theorem performs_fail {e : ε} : Performs allowed (.fail e : Prog Op Reply ε α) := trivial

@[simp] theorem performs_attempt : Performs allowed (.attempt x : Prog Op Reply ε α) := by
  cases x <;> trivial

theorem performs_bind {f : α → Prog Op Reply ε β} (hp : Performs allowed p) (hf : ∀ a, Performs allowed (f a)) :
    Performs allowed (p >>= f) := by
  induction p with
  | ret a => exact hf a
  | fail e => trivial
  | op o next ih => exact ⟨hp.1, fun r => ih r (hp.2 r)⟩

theorem performs_result (hp : Performs allowed p) :
    Performs allowed (p.result : Prog Op Reply ε' (Except ε α)) := by
  induction p with
  | ret a => trivial
  | fail e => trivial
  | op o next ih => exact ⟨hp.1, fun r => ih r (hp.2 r)⟩

theorem performs_mapError {f : ε → ε'} (hp : Performs allowed p) : Performs allowed (p.mapError f) := by
  induction p with
  | ret a => trivial
  | fail e => trivial
  | op o next ih => exact ⟨hp.1, fun r => ih r (hp.2 r)⟩

theorem performs_mono {allowed' : Op → Prop} (hp : Performs allowed p) (h : ∀ o, allowed o → allowed' o) :
    Performs allowed' p := by
  induction p with
  | ret a => trivial
  | fail e => trivial
  | op o next ih => exact ⟨h o hp.1, fun r => ih r (hp.2 r)⟩

theorem Performs.ends {g : G} {r : G → G → Prop} (hp : Performs allowed p) (hrefl : ∀ g, r g g)
    (htrans : ∀ {g g' g''}, r g g' → r g' g'' → r g g'')
    (h : ∀ o, allowed o → ∀ g, C.pre g o ∧ ∀ a g', C.post g o a g' → r g g') : ends C g p fun g' _ => r g g' := by
  induction p generalizing g with
  | ret | fail => exact hrefl g
  | op o next ih =>
    refine ⟨(h o hp.1 g).1, fun a g' hr => ?_⟩
    have hstep := (h o hp.1 g).2 a g' hr
    exact ends_mono (ih a (hp.2 a)) fun _ _ hrest => htrans hstep hrest

end performs

section handle

variable {Op' : Type} {Reply' : Op' → Type} {C' : Contract Op' Reply' G} {h : (o : Op) → Prog Op' Reply' ε (Reply o)}

/-- The program whose operations are carried out by programs of other operations. -/
def Prog.handle (h : (o : Op) → Prog Op' Reply' ε (Reply o)) : Prog Op Reply ε α → Prog Op' Reply' ε α
  | .ret a => .ret a
  | .fail e => .fail e
  | .op o next => (h o).bind fun r => (next r).handle h

theorem ends_handle {g : G} {p : Prog Op Reply ε α} {R : G → Except ε α → Prop}
    (hh : ∀ g o, C.pre g o → ends C' g (h o) fun g' r => ∃ a, r = .ok a ∧ C.post g o a g') (hp : ends C g p R) :
    ends C' g (p.handle h) R := by
  induction p generalizing g with
  | ret a => exact hp
  | fail e => exact hp
  | op o next ih =>
    refine ends_bind.mpr (ends_mono (hh g o hp.1) fun g' r hr => ?_)
    obtain ⟨a, rfl, hpost⟩ := hr
    exact ih a (hp.2 a g' hpost)

end handle

section tag

variable {T : Type}

def Prog.tag (t : T) : Prog Op Reply ε α → Prog (T × Op) (fun o => Reply o.2) ε α
  | .ret a => .ret a
  | .fail e => .fail e
  | .op o next => .op (t, o) fun r => (next r).tag t

def Contract.tagged (C : T → Contract Op Reply G) : Contract (T × Op) (fun o => Reply o.2) (T × G) where
  pre g o := g.1 = o.1 ∧ (C g.1).pre g.2 o.2
  post g o r g' := g'.1 = g.1 ∧ (C g.1).post g.2 o.2 r g'.2

theorem ends_tag {C : T → Contract Op Reply G} {t : T} {g : G} {p : Prog Op Reply ε α} {R : G → Except ε α → Prop}
    (h : ends (C t) g p R) : ends (Contract.tagged C) (t, g) (p.tag t) fun tg r => R tg.2 r := by
  induction p generalizing g with
  | ret a => exact h
  | fail e => exact h
  | op o next ih =>
    refine ⟨⟨rfl, h.1⟩, fun r g' hr => ?_⟩
    obtain ⟨t', g'⟩ := g'
    obtain ⟨ht, hr⟩ := hr
    dsimp only at ht
    subst ht
    exact ih r (h.2 r g' hr)

end tag

/-! Executions of one program over a state that also moves by itself between the operations. What the
program asked and was answered is kept in order. -/

abbrev Exchange (Op : Type) (Reply : Op → Type) := (o : Op) × Reply o

variable {S Op ε α β : Type} {Reply : Op → Type}

inductive Execution (acts : S → (o : Op) → Reply o → S → Prop) (moves : S → S → Prop) :
    S → Prog Op Reply ε α → List (Exchange Op Reply) → S → Except ε α → Prop where
  | ret {s a} : Execution acts moves s (.ret a) [] s (.ok a)
  | fail {s e} : Execution acts moves s (.fail e) [] s (.error e)
  | op {s s₁ s₂ s' o r next log x} (hm : Relation.ReflTransGen moves s s₁) (ha : acts s₁ o r s₂)
      (h : Execution acts moves s₂ (next r) log s' x) : Execution acts moves s (.op o next) (⟨o, r⟩ :: log) s' x

variable {acts : S → (o : Op) → Reply o → S → Prop} {moves : S → S → Prop} {s s' : S} {log : List (Exchange Op Reply)}
  {p : Prog Op Reply ε α} {f : α → Prog Op Reply ε β}

theorem Execution.bind {log' : List (Exchange Op Reply)} {s'' : S} {a : α} {x : Except ε β}
    (h : Execution acts moves s p log s' (.ok a)) (h' : Execution acts moves s' (f a) log' s'' x) :
    Execution acts moves s (p >>= f) (log ++ log') s'' x := by
  generalize hx : (.ok a : Except ε α) = y at h
  induction h with
  | ret =>
    cases hx
    exact h'
  | fail => cases hx
  | op hm ha _ ih => exact .op hm ha (ih h' hx)

theorem Execution.bind_inv {b : β} (h : Execution acts moves s (p >>= f) log s' (.ok b)) :
    ∃ log₁ log₂ a s₁, log = log₁ ++ log₂ ∧ Execution acts moves s p log₁ s₁ (.ok a) ∧
      Execution acts moves s₁ (f a) log₂ s' (.ok b) := by
  induction p generalizing s log with
  | ret a => exact ⟨[], log, a, s, rfl, .ret, h⟩
  | fail e => cases h
  | op o next ih =>
    cases h with
    | op hm ha h =>
      obtain ⟨log₁, log₂, a, s₁, rfl, hp, hf⟩ := ih _ h
      exact ⟨_ :: log₁, log₂, a, s₁, rfl, .op hm ha hp, hf⟩

theorem Execution.pure_inv {a b : α} (h : Execution acts moves s (pure a : Prog Op Reply ε α) log s' (.ok b)) :
    log = [] ∧ s' = s ∧ a = b := by
  cases h
  exact ⟨rfl, rfl, rfl⟩

theorem Execution.op_inv {o : Op} {next : Reply o → Prog Op Reply ε α} {x : Except ε α}
    (h : Execution acts moves s (.op o next) log s' x) :
    ∃ r s₁ s₂ rest, log = ⟨o, r⟩ :: rest ∧ Relation.ReflTransGen moves s s₁ ∧ acts s₁ o r s₂ ∧
      Execution acts moves s₂ (next r) rest s' x := by
  cases h with
  | op hm ha h => exact ⟨_, _, _, _, rfl, hm, ha, h⟩

theorem Execution.attempt_inv {x : Except ε α} {a : α} (h : Execution acts moves s (.attempt x) log s' (.ok a)) :
    log = [] ∧ s' = s ∧ x = .ok a := by
  cases x with
  | error e => cases h
  | ok b =>
    cases h
    exact ⟨rfl, rfl, rfl⟩

end Effect
