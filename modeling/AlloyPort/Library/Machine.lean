/-! Machines that take one action after another. What an action may be is left to a guard over the
history and the state, so that the runs of a machine can be restricted. -/

namespace Machine

variable {S A R : Type}

structure System (S A R : Type) where
  initial : S
  act : S → A → Option (S × R)

abbrev History (A R : Type) := List (A × R)

abbrev Guard (S A R : Type) := History A R → S → A → Prop

def anything : Guard S A R := fun _ _ _ => True

inductive Run (m : System S A R) (allowed : Guard S A R) : History A R → S → Prop where
  | start : Run m allowed [] m.initial
  | step {log s a s' r} (h : Run m allowed log s) (ha : allowed log s a) (hs : m.act s a = some (s', r)) :
      Run m allowed (log ++ [(a, r)]) s'

variable {m : System S A R} {allowed allowed' : Guard S A R} {log : History A R} {s : S}

theorem Run.invariant {I : History A R → S → Prop} (h : Run m allowed log s) (hinit : I [] m.initial)
    (hstep : ∀ log s a s' r, I log s → allowed log s a → m.act s a = some (s', r) → I (log ++ [(a, r)]) s') :
    I log s := by
  induction h with
  | start => exact hinit
  | step _ ha hs ih => exact hstep _ _ _ _ _ ih ha hs

/-- A machine comes to one state by what is done, whatever else allowed it. -/
theorem Run.unique {s' : S} {log' : History A R} (h : Run m allowed log s) (h' : Run m allowed' log' s')
    (hactions : log.map Prod.fst = log'.map Prod.fst) : s = s' := by
  induction h generalizing log' s' with
  | start =>
    cases h' with
    | start => rfl
    | step => simp at hactions
  | step _ _ hs ih =>
    cases h' with
    | start => simp at hactions
    | step h' _ hs' =>
      simp only [List.map_append, List.map_singleton] at hactions
      obtain ⟨hlog, ha⟩ := List.append_inj' hactions rfl
      obtain rfl := ih h' hlog
      cases (List.cons.inj ha).1
      rw [hs] at hs'
      cases hs'
      rfl

inductive Later (m : System S A R) (allowed : Guard S A R) (log : History A R) (s : S) : History A R → S → Prop where
  | refl : Later m allowed log s log s
  | step {log' s' a s'' r} (h : Later m allowed log s log' s') (ha : allowed log' s' a)
      (hs : m.act s' a = some (s'', r)) : Later m allowed log s (log' ++ [(a, r)]) s''

variable {log' : History A R} {s' : S} {test : History A R → S → A → Bool} {actions : List A}
variable {check : History A R → S → Bool}

theorem Later.run (h : Later m allowed log s log' s') (hrun : Run m allowed log s) : Run m allowed log' s' := by
  induction h with
  | refl => exact hrun
  | step _ ha hs ih => exact .step ih ha hs

theorem Later.head {s'' : S} {a : A} {r : R} (ha : allowed log s a) (hs : m.act s a = some (s', r))
    (h : Later m allowed (log ++ [(a, r)]) s' log' s'') : Later m allowed log s log' s'' := by
  induction h with
  | refl => exact .step .refl ha hs
  | step _ ha hs ih => exact .step ih ha hs

theorem Later.relates {T : S → S → Prop} (h : Later m allowed log s log' s')
    (hrun : Run m allowed log s) (hrefl : ∀ s, T s s) (htrans : ∀ s s' s'', T s s' → T s' s'' → T s s'')
    (hstep : ∀ log s a s' r, Run m allowed log s → allowed log s a → m.act s a = some (s', r) → T s s') : T s s' := by
  induction h with
  | refl => exact hrefl _
  | step hlater ha hs ih => exact htrans _ _ _ ih (hstep _ _ _ _ _ (hlater.run hrun) ha hs)

def playFrom (m : System S A R) (log : History A R) (s : S) : List A → Option (History A R × S)
  | [] => some (log, s)
  | a :: rest => do
    let (s', r) ← m.act s a
    playFrom m (log ++ [(a, r)]) s' rest

def play (m : System S A R) (actions : List A) : Option (History A R × S) := playFrom m [] m.initial actions

def allowedFrom (m : System S A R) (test : History A R → S → A → Bool) (log : History A R) (s : S) : List A → Bool
  | [] => true
  | a :: rest => test log s a && match m.act s a with
    | none => true
    | some (s', r) => allowedFrom m test (log ++ [(a, r)]) s' rest

theorem allowedFrom_true (log : History A R) (s : S) (actions : List A) :
    allowedFrom m (fun _ _ _ => true) log s actions = true := by
  induction actions generalizing log s with
  | nil => rfl
  | cons a rest ih =>
    rw [allowedFrom, Bool.true_and]
    cases m.act s a with
    | none => rfl
    | some next => exact ih _ _

theorem playFrom_run (htest : ∀ log s a, test log s a = true → allowed log s a) (h : Run m allowed log s)
    (hallowed : allowedFrom m test log s actions = true) (hplay : playFrom m log s actions = some (log', s')) :
    Run m allowed log' s' := by
  induction actions generalizing log s with
  | nil =>
    cases hplay
    exact h
  | cons a rest ih =>
    simp only [allowedFrom, Bool.and_eq_true] at hallowed
    cases hs : m.act s a with
    | none => simp [playFrom, hs] at hplay
    | some next =>
      obtain ⟨next, r⟩ := next
      simp only [playFrom, hs, Option.bind_eq_bind, Option.bind_some] at hplay
      simp only [hs] at hallowed
      exact ih (.step h (htest _ _ _ hallowed.1) hs) hallowed.2 hplay

theorem play_run (htest : ∀ log s a, test log s a = true → allowed log s a)
    (hallowed : allowedFrom m test [] m.initial actions = true)
    (hplay : play m actions = some (log, s)) : Run m allowed log s :=
  playFrom_run htest .start hallowed hplay

theorem playFrom_actions
    (h : playFrom m log s actions = some (log', s')) : log'.map Prod.fst = log.map Prod.fst ++ actions := by
  induction actions generalizing log s with
  | nil =>
    cases h
    exact (List.append_nil _).symm
  | cons a rest ih =>
    cases hs : m.act s a with
    | none => simp [playFrom, hs] at h
    | some next =>
      obtain ⟨next, r⟩ := next
      simp only [playFrom, hs, Option.bind_eq_bind, Option.bind_some] at h
      rw [ih h]
      simp

theorem play_reaches (m : System S A R) (allowed : Guard S A R) (test : History A R → S → A → Bool) (actions : List A)
    (check : History A R → S → Bool) (htest : ∀ log s a, test log s a = true → allowed log s a)
    (hallowed : allowedFrom m test [] m.initial actions = true)
    (hcheck : ((play m actions).any fun end_ => check end_.1 end_.2) = true) :
    ∃ log s, Run m allowed log s ∧ log.map Prod.fst = actions ∧ check log s = true := by
  cases hplay : play m actions with
  | none => simp [hplay] at hcheck
  | some end_ =>
    rw [hplay] at hcheck
    exact ⟨end_.1, end_.2, play_run htest hallowed hplay, playFrom_actions hplay, hcheck⟩

def playTested (m : System S A R) (test : History A R → S → A → Bool) (log : History A R) (s : S) :
    List A → Option (History A R × S)
  | [] => some (log, s)
  | a :: rest =>
    if test log s a = true then do
      let (s', r) ← m.act s a
      playTested m test (log ++ [(a, r)]) s' rest
    else none

theorem playTested_run (htest : ∀ log s a, test log s a = true → allowed log s a) (h : Run m allowed log s)
    (hplay : playTested m test log s actions = some (log', s')) :
    Run m allowed log' s' ∧ log'.map Prod.fst = log.map Prod.fst ++ actions := by
  induction actions generalizing log s with
  | nil =>
    cases hplay
    exact ⟨h, (List.append_nil _).symm⟩
  | cons a rest ih =>
    by_cases hpass : test log s a = true
    · cases hs : m.act s a with
      | none => simp [playTested, hpass, hs] at hplay
      | some next =>
        obtain ⟨next, r⟩ := next
        simp only [playTested, hpass, if_true, hs, Option.bind_eq_bind, Option.bind_some] at hplay
        obtain ⟨hrun, hactions⟩ := ih (.step h (htest _ _ _ hpass) hs) hplay
        exact ⟨hrun, by rw [hactions]; simp⟩
    · simp [playTested, hpass] at hplay

/-- A play under a test that ends as a check demands. A definition of this type is evaluated once. -/
structure Played (m : System S A R) (test : History A R → S → A → Bool) (actions : List A)
    (check : History A R → S → Bool) : Type where
  passes : ((playTested m test [] m.initial actions).any fun end_ => check end_.1 end_.2) = true

theorem Played.reaches (h : Played m test actions check) (htest : ∀ log s a, test log s a = true → allowed log s a) :
    ∃ log s, Run m allowed log s ∧ log.map Prod.fst = actions ∧ check log s = true := by
  have hpasses := h.passes
  cases hplay : playTested m test [] m.initial actions with
  | none => simp [hplay] at hpasses
  | some end_ =>
    rw [hplay] at hpasses
    obtain ⟨hrun, hactions⟩ := playTested_run htest .start hplay
    exact ⟨end_.1, end_.2, hrun, hactions, hpasses⟩

theorem Played.reaches_freely (h : Played m test actions check) :
    ∃ log s, Run m anything log s ∧ log.map Prod.fst = actions ∧ check log s = true :=
  h.reaches (fun _ _ _ _ => trivial)

end Machine
