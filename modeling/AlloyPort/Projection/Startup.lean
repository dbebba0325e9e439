import Mathlib.Data.Finset.Card
import AlloyPort.Projection.Producer
import AlloyPort.Control.Preparation

/-! The recovery of assignments at the start of the server. Every pass takes a bounded page of the preparing rows, the
ones first that were updated longest ago, and moves each row it has taken behind the ones that still wait. -/

namespace AlloyPort.Projection

open Effect hiding wp_bind wp_attempt wp_pure
open Database Transaction ControlDatabase SqliteControlRepository WorkerControlService

abbrev attemptIds (records : List AssignmentRecord) : List String :=
  records.map fun record => record.contract.attemptId.text

def preparingAssignmentCount (db : ControlDatabase) : Nat :=
  (db.assignments.entries.filter fun row => row.2.state = .preparing).length

def reconcilePasses : Nat → RunProgram RunFailure Unit
  | 0 => return ()
  | passes + 1 => do
    reconcilePreparingAssignments
    reconcilePasses passes

def reconcilePreparingAssignmentsAtStartup (count : Nat) : RunProgram RunFailure Unit :=
  reconcilePasses ((count + (PREPARATION_RECONCILE_BATCH_SIZE - 1)) / PREPARATION_RECONCILE_BATCH_SIZE)

section library

variable {α : Type} {p : α → Prop} {l : List α} {n : Nat}

/-- A page of a list in which those that wait stand first holds all of them, or holds no others. -/
theorem page_waiting (hl : l.Pairwise fun x y => p y → p x) :
    (∀ x ∈ l, p x → x ∈ l.take n) ∨ (l.take n).length = n ∧ ∀ x ∈ l.take n, p x := by
  induction l generalizing n with
  | nil => exact .inl fun x hx => by cases hx
  | cons x l ih =>
    obtain ⟨hx, hl⟩ := List.pairwise_cons.mp hl
    cases n with
    | zero => exact .inr ⟨rfl, fun y hy => by cases hy⟩
    | succ n =>
      by_cases hp : p x
      · rcases ih (n := n) hl with hall | ⟨hlength, hwait⟩
        · refine .inl fun y hy hpy => ?_
          rcases List.mem_cons.mp hy with rfl | hy
          · exact List.mem_cons_self
          · exact List.mem_cons_of_mem _ (hall y hy hpy)
        · refine .inr ⟨by simp [hlength], fun y hy => ?_⟩
          rcases List.mem_cons.mp hy with rfl | hy
          · exact hp
          · exact hwait y hy
      · refine .inl fun y hy hpy => ?_
        rcases List.mem_cons.mp hy with rfl | hy
        · exact absurd hpy hp
        · exact absurd (hx y hy hpy) hp

end library

/-- The row is still as it was when the server started: it prepares, and no pass has moved it. -/
def Waits (clock : Nat) (db : ControlDatabase) (attemptId : String) : Prop :=
  ∃ row, db.assignments.lookup attemptId = some row ∧ row.state = .preparing ∧ row.updatedAtMs < clock

section page

variable {clock limit : Nat} {db : ControlDatabase} {log : List ControlEvent}

theorem preparing_row (hdb : ControlRun log db) {record : AssignmentRecord}
    (h : record ∈ preparingAssignments db limit) :
    ∃ row, db.assignments.lookup record.contract.attemptId.text = some row ∧ row.workerId = record.workerId ∧
      row.state = .preparing ∧ row.updatedAtMs = record.updatedAtMs := by
  obtain ⟨entry, hentry, rfl⟩ := List.mem_map.mp (List.mem_mergeSort.mp (List.mem_of_mem_take h))
  obtain ⟨hentry, hs⟩ := List.mem_filter.mp hentry
  have hrow := AList.mem_lookup_iff.mpr hentry
  have hname : entry.2.record.contract.attemptId.text = entry.1 := hdb.keyed hrow
  exact ⟨entry.2, hname ▸ hrow, rfl, of_decide_eq_true hs, rfl⟩

theorem preparing_nodup (hdb : ControlRun log db) : (attemptIds (preparingAssignments db limit)).Nodup := by
  have hkeys : attemptIds (db.assignments.entries.map fun row => row.2.record) =
    db.assignments.entries.map Sigma.fst := by
    rw [attemptIds, List.map_map]
    exact List.map_congr_left fun entry hentry => hdb.keyed (AList.mem_lookup_iff.mpr hentry)
  have hall : (attemptIds (db.assignments.entries.map fun row => row.2.record)).Nodup :=
    hkeys ▸ db.assignments.nodupKeys
  unfold attemptIds preparingAssignments
  rw [List.map_take]
  refine (List.take_sublist _ _).nodup (((List.mergeSort_perm _ _).map _).nodup_iff.mpr ?_)
  exact ((List.filter_sublist.map _).map _).nodup hall

theorem updatedBefore_le {a b : AssignmentRecord} (h : updatedBefore a b = true) : a.updatedAtMs ≤ b.updatedAtMs := by
  simp only [updatedBefore, Bool.or_eq_true, Bool.and_eq_true, decide_eq_true_eq] at h
  omega

theorem updatedBefore_trans (a b c : AssignmentRecord) (h : updatedBefore a b = true) (h' : updatedBefore b c = true) :
    updatedBefore a c = true := by
  simp only [updatedBefore, Bool.or_eq_true, Bool.and_eq_true, decide_eq_true_eq] at h h' ⊢
  rcases h with h | ⟨h, hle⟩
  · omega
  · rcases h' with h' | ⟨h', hle'⟩
    · omega
    · exact .inr ⟨h.trans h', String.le_trans hle hle'⟩

theorem updatedBefore_total (a b : AssignmentRecord) : (updatedBefore a b || updatedBefore b a) = true := by
  simp only [updatedBefore, Bool.or_eq_true, Bool.and_eq_true, decide_eq_true_eq]
  have := String.le_total a.contract.attemptId.text b.contract.attemptId.text
  grind

theorem preparing_waiting (clock limit : Nat) (hdb : ControlRun log db) :
    (∀ a, Waits clock db a → a ∈ attemptIds (preparingAssignments db limit)) ∨
      (preparingAssignments db limit).length = limit ∧
        ∀ record ∈ preparingAssignments db limit, Waits clock db record.contract.attemptId.text := by
  have hsorted := List.pairwise_mergeSort updatedBefore_trans updatedBefore_total
    ((db.assignments.entries.filter fun row => row.2.state = .preparing).map fun row => row.2.record)
  rcases page_waiting (p := fun record : AssignmentRecord => record.updatedAtMs < clock) (n := limit)
    (hsorted.imp fun h hb => (updatedBefore_le h).trans_lt hb) with hall | ⟨hlength, hwait⟩
  · refine .inl fun a ⟨row, hrow, hs, ht⟩ => List.mem_map.mpr ⟨row.record, hall row.record ?_ ht, hdb.keyed hrow⟩
    refine List.mem_mergeSort.mpr (List.mem_map.mpr ⟨⟨a, row⟩, List.mem_filter.mpr ⟨?_, decide_eq_true hs⟩, rfl⟩)
    exact AList.mem_lookup_iff.mp hrow
  · refine .inr ⟨hlength, fun record hm => ?_⟩
    obtain ⟨row, hrow, _, hs, ht⟩ := preparing_row hdb hm
    exact ⟨row, hrow, hs, ht ▸ hwait record hm⟩

end page

/-- The start of the server: the attempts whose preparation was taken up, and whether the storage has failed or the
clock has left the range of SQLite. -/
structure Startup where
  state : RunsState
  attempted : List String
  failed : Bool

abbrev Startup.db (g : Startup) : ControlDatabase := g.state.service.db

def attempts : RunOp → List String
  | .service (.grantInput _ contract _) => [contract.attemptId.text]
  | _ => []

def fails : (o : RunOp) → o.Reply → Bool
  | .service .nowUnixMs, nowMs => decide (2 ^ 63 ≤ nowMs)
  | .service (.persist _), .error error => error.isStorage
  | .preparingAssignments _, .error _ => true
  | _, _ => false

def onTime (clock : Nat) : (o : RunOp) → o.Reply → Prop
  | .service .nowUnixMs, nowMs => clock ≤ nowMs
  | _, _ => True

def startingUp (clock : Nat) : Contract RunOp RunOp.Reply Startup where
  pre _ _ := True
  post g o reply g' := RunActs g.state o reply g'.state ∧ onTime clock o reply ∧
    g'.attempted = g.attempted ++ attempts o ∧ g'.failed = (g.failed || fails o reply)

/-- No worker registers, and what was seen or tried stays so. -/
structure Startup.Onward (g g' : Startup) : Prop where
  workers : g'.state.service.workers = g.state.service.workers
  failed : g.failed = true → g'.failed = true
  attempted : ∀ a ∈ g.attempted, a ∈ g'.attempted

def reconciling (clock : Nat) : Contract ServiceOp ServiceOp.Reply Startup where
  pre
    | _, .nowUnixMs | _, .grantInput .. | _, .recordRunStarted .. | _, .persist _ | _, .lockDelivery
    | _, .unlockDelivery | _, .worker _ => True
    | _, _ => False
  post g o reply g' := g.Onward g' ∧ match o, reply with
    | .persist operation, reply => ControlStep g.db ⟨operation, reply⟩ g'.db ∧
        ∀ error, reply = .error error → error.isStorage = true → g'.failed = true
    | .nowUnixMs, nowMs => g'.db = g.db ∧ clock ≤ nowMs ∧ (2 ^ 63 ≤ nowMs → g'.failed = true)
    | .worker workerId, found => g'.db = g.db ∧ found = g.state.service.workers.lookup workerId
    | .grantInput _ contract _, _ => g'.db = g.db ∧ contract.attemptId.text ∈ g'.attempted
    | _, _ => g'.db = g.db

variable {ε : Type} {clock : Nat} {g g' : Startup} {o : ServiceOp} {reply : o.Reply} {g'' : Startup}

theorem Startup.Onward.refl (g : Startup) : g.Onward g := ⟨rfl, id, fun _ h => h⟩

theorem Startup.Onward.trans (h : g.Onward g') (h' : g'.Onward g'') : g.Onward g'' :=
  ⟨h'.workers.trans h.workers, fun hf => h'.failed (h.failed hf), fun a ha => h'.attempted a (h.attempted a ha)⟩

theorem onward_of_post {o : RunOp} {reply : o.Reply} (h : (startingUp clock).post g o reply g')
    (hw : g'.state.service.workers = g.state.service.workers) : g.Onward g' := by
  obtain ⟨-, -, hattempted, hfailed⟩ := h
  exact ⟨hw, fun hf => by rw [hfailed, hf, Bool.true_or], fun a ha => hattempted ▸ List.mem_append_left _ ha⟩

theorem RunActs.serves {s s' : RunsState} (h : RunActs s (.service o) reply s') :
    ServiceActs s.service o reply s'.service := by
  cases h
  assumption

theorem post_service (ho : (reconciling clock).pre g o)
    (h : (startingUp clock).post g (.service o) reply g') : (reconciling clock).post g o reply g' := by
  have honward := onward_of_post h
  obtain ⟨hacts, hontime, hattempted, hfailed⟩ := h
  replace hacts := hacts.serves
  generalize hs' : g'.state.service = s' at hacts honward
  have hdb : g'.db = s'.db := congrArg ServiceState.db hs'
  cases hacts with
  | persist hstep =>
    refine ⟨honward rfl, by rw [hdb]; exact hstep, fun error he hstorage => ?_⟩
    subst he
    simp [hfailed, fails, hstorage]
  | nowUnixMs now =>
    refine ⟨honward rfl, hdb, hontime, fun hrange => ?_⟩
    simp only [hfailed, fails, decide_eq_true hrange, Bool.or_true]
  | worker workerId => exact ⟨honward rfl, hdb, rfl⟩
  | grantInput workerId contract nowMs reply =>
    exact ⟨honward rfl, hdb, hattempted ▸ List.mem_append_right _ List.mem_cons_self⟩
  | lockDelivery | unlockDelivery | recordRunStarted => exact ⟨honward rfl, hdb⟩
  | _ => exact ho.elim

theorem projected_reconciles (ho : (reconciling clock).pre g o) :
    ends (startingUp clock) g (projected o : RunProgram ε o.Reply) fun g' r =>
      ∃ reply, r = .ok reply ∧ (reconciling clock).post g o reply g' := by
  cases o with
  | recordRunStarted contract nowMs =>
    have hkept : ∀ {g g'} {o : RunOp} {reply : o.Reply}, (startingUp clock).post g o reply g' →
        (∀ {s s'}, RunActs s o reply s' → s'.service = s.service) → g.Onward g' ∧ g'.db = g.db := fun h hsame =>
      ⟨onward_of_post h (congrArg ServiceState.workers (hsame h.1)), congrArg ServiceState.db (hsame h.1)⟩
    refine ends_bind.mpr ⟨trivial, fun events g₁ h₁ => ?_⟩
    have honward₁ := hkept h₁ fun h => by cases h <;> rfl
    rcases events with error | _ | ⟨event, rest⟩
    · exact ⟨_, rfl, honward₁⟩
    · refine ends_bind.mpr ⟨trivial, fun appended g₂ h₂ => ⟨_, rfl, ?_⟩⟩
      have honward₂ := hkept h₂ fun h => by cases h; rfl
      exact ⟨honward₁.1.trans honward₂.1, honward₂.2.trans honward₁.2⟩
    · exact ⟨_, rfl, honward₁⟩
  | append | appendOutput => exact ho.elim
  | _ => exact ⟨trivial, fun reply g' h => ⟨reply, rfl, post_service ho h⟩⟩

/-- The attempts were taken up and do not wait any longer; the other rows are as they were. -/
structure Startup.Serves (clock : Nat) (g g' : Startup) (names : List String) : Prop where
  onward : g.Onward g'
  ran : ∃ log, ControlRun log g'.db
  attempted : ∀ a ∈ names, a ∈ g'.attempted
  served : ∀ a ∈ names, ¬ Waits clock g'.db a
  others : ∀ a, a ∉ names → g'.db.assignments.lookup a = g.db.assignments.lookup a

theorem Startup.Serves.still (h : g.Onward g') (hdb : g'.db = g.db) (hran : ∃ log, ControlRun log g.db) :
    g.Serves clock g' [] := ⟨h, hdb ▸ hran, nofun, nofun, fun _ _ => by rw [hdb]⟩

theorem waits_congr {db db' : ControlDatabase} {a : String}
    (h : db'.assignments.lookup a = db.assignments.lookup a) : Waits clock db' a ↔ Waits clock db a := by
  unfold Waits
  rw [h]

theorem Startup.Serves.trans {names names' : List String} (h : g.Serves clock g' names)
    (h' : g'.Serves clock g'' names') (hapart : ∀ a ∈ names, a ∉ names') : g.Serves clock g'' (names ++ names') where
  onward := h.onward.trans h'.onward
  ran := h'.ran
  attempted a ha := (List.mem_append.mp ha).elim (fun ha => h'.onward.attempted a (h.attempted a ha)) (h'.attempted a)
  served a ha := (List.mem_append.mp ha).elim
    (fun ha => (waits_congr (h'.others a (hapart a ha))).not.mpr (h.served a ha)) (h'.served a)
  others a ha := by
    rw [List.mem_append, not_or] at ha
    rw [h'.others a ha.2, h.others a ha.1]

/-- The end of a part of the recovery: it has served the attempts, or the storage has failed it. -/
def Served {α : Type} (clock : Nat) (g : Startup) (names : List String) : Startup → Except ε α → Prop
  | g', .ok _ => g.Serves clock g' names
  | g', .error _ => g'.failed = true

/-- The attempt does not wait after the step, and no other row was touched. -/
def Turns (clock : Nat) (db db' : ControlDatabase) (attemptId : String) : Prop :=
  ¬ Waits clock db' attemptId ∧ ∀ a, a ≠ attemptId → db'.assignments.lookup a = db.assignments.lookup a

section turns

variable {db : ControlDatabase} {attemptId workerId : String} {row : AssignmentRow} {nowMs : Nat}

theorem turns_update {f : AssignmentRow → AssignmentRow}
    (hf : ∀ row, (f row).state = .preparing → clock ≤ (f row).updatedAtMs) :
    Turns clock db (updateAssignment attemptId f db) attemptId := by
  refine ⟨fun ⟨row', hrow', hs, ht⟩ => ?_, fun a ha => congrArg Prod.fst (updateAssignment_other ha)⟩
  have hmap : (updateAssignment attemptId f db).assignments.lookup attemptId =
    (db.assignments.lookup attemptId).map f :=
    congrArg Prod.fst updateAssignment_attempt
  obtain ⟨row, -, rfl⟩ := Option.map_eq_some_iff.mp (hmap.symm.trans hrow')
  exact absurd (hf row hs) (by omega)

theorem toI64_late {stored : Except RepositoryError Nat} (h : toI64 nowMs = stored) :
    stored = .ok nowMs ∨ 2 ^ 63 ≤ nowMs := by
  unfold toI64 at h
  split at h
  · exact .inl h.symm
  · exact .inr (by omega)

theorem deferAssignmentPreparation_turns (hrow : db.assignments.lookup attemptId = some row)
    (hworker : row.workerId = workerId) (hs : row.state = .preparing) (hclock : clock ≤ nowMs) :
    (deferAssignmentPreparation attemptId workerId nowMs).wp db (fun _ db' => Turns clock db db' attemptId)
      fun _ _ => 2 ^ 63 ≤ nowMs := by
  unfold deferAssignmentPreparation
  simp only [wp_bind, wp_attempt, wp_read, hrow, hworker, hs, and_self, if_true, wp_write, wp_pure]
  refine ⟨fun retry hretry => ?_, fun e he => (toI64_late he).resolve_left fun h => by cases h⟩
  obtain rfl := toI64_eq hretry
  exact turns_update fun _ _ => hclock

theorem markAssignmentDispatchable_turns (hrow : db.assignments.lookup attemptId = some row)
    (hworker : row.workerId = workerId) (hs : row.state = .preparing) :
    (markAssignmentDispatchable attemptId workerId nowMs).wp db (fun _ db' => Turns clock db db' attemptId)
      fun _ _ => 2 ^ 63 ≤ nowMs := by
  unfold markAssignmentDispatchable assignmentIdentity findAssignment
  simp only [wp_bind, wp_read, hrow, wp_pure, hworker, ne_eq, not_true, Option.any_none, Bool.false_eq_true, or_self,
    if_false, hs, if_true, wp_attempt, wp_write]
  exact ⟨fun now _ => turns_update fun _ h => AttemptState.noConfusion h, fun e he =>
    (toI64_late he).resolve_left fun h => by cases h⟩

end turns

section passes

variable {record : AssignmentRecord} {operation : ControlOperation} {a : String} {nowMs : Nat}

theorem ends_turning {t : ControlTransaction operation.Result} (hexecute : operation.execute g.db = t.run g.db)
    (ht : t.wp g.db (fun _ db' => Turns clock g.db db' a) fun _ _ => 2 ^ 63 ≤ nowMs)
    (hlate : 2 ^ 63 ≤ nowMs → g.failed = true) (hran : ∃ log, ControlRun log g.db) (ha : a ∈ g.attempted) :
    ends (reconciling clock) g (persist operation id) (Served clock g [a]) := by
  refine ⟨trivial, fun reply g' ⟨honward, hstep, hfail⟩ => ends_attempt.mpr ?_⟩
  obtain ⟨log, hran⟩ := hran
  have hsettled := Transaction.run_outcome ht
  rw [← hexecute] at hsettled
  rcases hstep.ran_or_failed with hrun | ⟨e, hstorage, rfl⟩
  · rw [hrun] at hsettled
    rcases hsettled with ⟨x, rfl, hturns⟩ | ⟨e, rfl, -, hrange⟩
    · exact ⟨honward, ⟨_, hran.step hstep⟩, fun b hb => List.mem_singleton.mp hb ▸ honward.attempted a ha,
        fun b hb => List.mem_singleton.mp hb ▸ hturns.1, fun b hb => hturns.2 b (by simpa using hb)⟩
    · exact honward.failed (hlate hrange)
  · exact hfail e rfl hstorage

theorem ends_prepareAssignment_unconnected {workerId attemptId : String} (hworkers : g.state.service.workers = ∅) :
    ends (reconciling clock) g (prepareAssignment workerId attemptId) fun g' r =>
      r = .ok none ∧ g.Onward g' ∧ g'.db = g.db := by
  refine ends_bind.mpr ⟨trivial, fun _ g₁ ⟨h₁, hdb₁⟩ => ends_bind.mpr (ends_result.mpr (ends_bind.mpr ?_))⟩
  refine ⟨trivial, fun found g₂ ⟨h₂, hdb₂, hfound⟩ => ?_⟩
  obtain rfl : found = none := by rw [hfound, h₁.workers, hworkers]; rfl
  exact ends_bind.mpr ⟨trivial, fun _ g₃ ⟨h₃, hdb₃⟩ =>
    ⟨rfl, (h₁.trans h₂).trans h₃, hdb₃.trans (hdb₂.trans hdb₁)⟩⟩

theorem ends_reconcileAssignment {row : AssignmentRow} (hran : ∃ log, ControlRun log g.db)
    (hworkers : g.state.service.workers = ∅)
    (hrow : g.db.assignments.lookup record.contract.attemptId.text = some row)
    (hworker : row.workerId = record.workerId) (hs : row.state = .preparing) :
    ends (reconciling clock) g (reconcileAssignment record) (Served clock g [record.contract.attemptId.text]) := by
  refine ends_bind.mpr ⟨trivial, fun now g₁ ⟨h₁, hdb₁, hclock, hlate⟩ => ?_⟩
  refine ends_bind.mpr ⟨trivial, fun granted g₂ ⟨h₂, hdb₂, hattempted⟩ => ?_⟩
  have hfrom : ∀ {g₃ g' : Startup} {names}, g₂.Onward g₃ → g₃.db = g₂.db → g₃.Serves clock g' names →
      g.Serves clock g' names := fun h₃ hdb₃ hserves =>
    (Startup.Serves.still ((h₁.trans h₂).trans h₃) (hdb₃.trans (hdb₂.trans hdb₁)) hran).trans hserves nofun
  have hdefer : ∀ g₃ : Startup, g₂.Onward g₃ → g₃.db = g₂.db → ends (reconciling clock) g₃ (do
      let _ ← persist (.deferAssignmentPreparation record.contract.attemptId.text record.workerId now) id
      return () : ServiceProgram RepositoryError Unit) (Served clock g [record.contract.attemptId.text]) := by
    intro g₃ h₃ hdb₃
    have hdb : g₃.db = g.db := hdb₃.trans (hdb₂.trans hdb₁)
    exact ends_bind_cases (ends_turning (t := deferAssignmentPreparation _ _ now) rfl
      (deferAssignmentPreparation_turns (hdb ▸ hrow) hworker hs hclock)
      (fun h => h₃.failed (h₂.failed (hlate h))) (hdb ▸ hran) (h₃.attempted _ hattempted))
      (fun _ _ hr => hr) fun _ _ hr => hfrom h₃ hdb₃ hr
  cases granted with
  | error _ => exact hdefer g₂ (.refl _) rfl
  | ok _ =>
    refine ends_bind.mpr ⟨trivial, fun recorded g₃ ⟨h₃, hdb₃⟩ => ?_⟩
    cases recorded with
    | error _ => exact hdefer g₃ h₃ hdb₃
    | ok _ =>
      have hdb : g₃.db = g.db := hdb₃.trans (hdb₂.trans hdb₁)
      refine ends_bind_cases (ends_turning (t := markAssignmentDispatchable _ _ now) rfl
        (markAssignmentDispatchable_turns (hdb ▸ hrow) hworker hs)
        (fun h => h₃.failed (h₂.failed (hlate h))) (hdb ▸ hran) (h₃.attempted _ hattempted))
        (fun _ _ hr => hr) fun g₄ marked hr => ?_
      have hserves := hfrom h₃ hdb₃ hr
      split
      · exact hserves
      · refine ends_bind.mpr (ends_result.mpr (ends_mono
          (ends_prepareAssignment_unconnected (hserves.onward.workers.trans hworkers)) ?_))
        rintro g₅ _ ⟨rfl, h₅, hdb₅⟩
        exact hserves.trans (.still h₅ hdb₅ hserves.ran) fun _ _ => nofun

theorem ends_reconcileAll {records : List AssignmentRecord} (hran : ∃ log, ControlRun log g.db)
    (hworkers : g.state.service.workers = ∅)
    (hrows : ∀ record ∈ records, ∃ row, g.db.assignments.lookup record.contract.attemptId.text = some row ∧
      row.workerId = record.workerId ∧ row.state = .preparing)
    (hnodup : (attemptIds records).Nodup) :
    ends (startingUp clock) g (reconcileAll records) (Served clock g (attemptIds records)) := by
  induction records generalizing g with
  | nil => exact .still (.refl g) rfl hran
  | cons record records ih =>
    obtain ⟨row, hrow, hworker, hs⟩ := hrows record List.mem_cons_self
    obtain ⟨hfresh, hnodup⟩ := List.nodup_cons.mp hnodup
    refine ends_bind.mpr (ends_handle (fun _ _ ho => projected_reconciles ho) (ends_mapError.mpr (ends_mono
      (ends_reconcileAssignment hran hworkers hrow hworker hs) fun g₁ r hr => ?_)))
    cases r with
    | error _ => exact hr
    | ok _ =>
      refine ends_mono (ih hr.ran (hr.onward.workers.trans hworkers) (fun other hm => ?_) hnodup) fun g₂ r hr₂ => ?_
      · rw [hr.others _ fun hsame => ?_]
        · exact hrows other (List.mem_cons_of_mem _ hm)
        · rw [List.mem_singleton] at hsame
          exact hfresh (List.mem_map.mpr ⟨other, hm, hsame⟩)
      · cases r with
        | error _ => exact hr₂
        | ok _ => exact hr.trans hr₂ fun a ha => List.mem_singleton.mp ha ▸ hfresh

theorem ends_reconcilePreparingAssignments (hran : ∃ log, ControlRun log g.db)
    (hworkers : g.state.service.workers = ∅) : ends (startingUp clock) g reconcilePreparingAssignments
      (Served clock g (attemptIds (preparingAssignments g.db PREPARATION_RECONCILE_BATCH_SIZE))) := by
  obtain ⟨log, hlog⟩ := hran
  refine ends_bind.mpr ⟨trivial, fun reply g₁ h₁ => ends_bind.mpr (ends_attempt.mpr ?_)⟩
  cases reply with
  | error e => exact h₁.2.2.2.trans (Bool.or_true _)
  | ok page =>
    have hread : g₁.state = g.state ∧ page = preparingAssignments g.db PREPARATION_RECONCILE_BATCH_SIZE := by
      have hacts := h₁.1
      generalize g₁.state = s' at hacts
      cases hacts
      exact ⟨rfl, rfl⟩
    obtain ⟨hsame, rfl⟩ := hread
    have hdb : g₁.db = g.db := by rw [Startup.db, hsame]
    have honward := onward_of_post h₁ (by rw [hsame])
    refine ends_mono (ends_reconcileAll ⟨log, hdb ▸ hlog⟩ (honward.workers.trans hworkers) (fun record hm => ?_)
      (preparing_nodup hlog)) fun g₂ r hr => ?_
    · obtain ⟨row, hrow, hworker, hs, _⟩ := preparing_row hlog hm
      exact ⟨row, hdb ▸ hrow, hworker, hs⟩
    · cases r with
      | error _ => exact hr
      | ok _ => exact (Startup.Serves.still honward hdb ⟨log, hlog⟩).trans hr nofun

/-- By induction on the passes; `waiting` bounds the rows that are still to be taken up. -/
theorem ends_reconcilePasses {passes : Nat} {waiting : Finset String} (hran : ∃ log, ControlRun log g.db)
    (hworkers : g.state.service.workers = ∅) (hwaiting : ∀ a, Waits clock g.db a → a ∈ waiting)
    (hcard : waiting.card ≤ passes * PREPARATION_RECONCILE_BATCH_SIZE) :
    ends (startingUp clock) g (reconcilePasses passes) fun g' r => match r with
      | .ok () => (∀ a ∈ g.attempted, a ∈ g'.attempted) ∧ ∀ a, Waits clock g.db a → a ∈ g'.attempted
      | .error _ => g'.failed = true := by
  induction passes generalizing g waiting with
  | zero =>
    have hempty : waiting = ∅ := Finset.card_eq_zero.mp (by omega)
    exact ⟨fun _ ha => ha, fun a ha => absurd (hempty ▸ hwaiting a ha) (Finset.notMem_empty a)⟩
  | succ passes ih =>
    refine ends_bind_cases (ends_reconcilePreparingAssignments hran hworkers) (fun _ _ hr => hr) fun g₁ _ hr => ?_
    obtain ⟨log, hlog⟩ := hran
    have hstill : ∀ a, Waits clock g₁.db a → Waits clock g.db a ∧
        a ∉ (attemptIds (preparingAssignments g.db PREPARATION_RECONCILE_BATCH_SIZE)).toFinset := by
      intro a ha
      have hother := fun hm => hr.served a hm ha
      exact ⟨(waits_congr (hr.others a hother)).mp ha, fun hm => hother (List.mem_toFinset.mp hm)⟩
    have hleft : ∃ left : Finset String, (∀ a, Waits clock g₁.db a → a ∈ left) ∧
        left.card ≤ passes * PREPARATION_RECONCILE_BATCH_SIZE := by
      rcases preparing_waiting clock PREPARATION_RECONCILE_BATCH_SIZE hlog with hall | ⟨hlength, hwait⟩
      · exact ⟨∅, fun a ha => absurd (List.mem_toFinset.mpr (hall a (hstill a ha).1)) (hstill a ha).2, Nat.zero_le _⟩
      · refine ⟨waiting \ _, fun a ha => Finset.mem_sdiff.mpr ⟨hwaiting a (hstill a ha).1, (hstill a ha).2⟩, ?_⟩
        rw [Finset.card_sdiff_of_subset, List.toFinset_card_of_nodup (preparing_nodup hlog), List.length_map, hlength]
        · rw [Nat.succ_mul] at hcard
          omega
        · intro a ha
          obtain ⟨record, hm, rfl⟩ := List.mem_map.mp (List.mem_toFinset.mp ha)
          exact hwaiting _ (hwait record hm)
    obtain ⟨left, hwaits, hcard⟩ := hleft
    refine ends_mono (ih hr.ran (hr.onward.workers.trans hworkers) hwaits hcard) fun g₂ r hr₂ => ?_
    cases r with
    | error _ => exact hr₂
    | ok _ =>
      refine ⟨fun a ha => hr₂.1 a (hr.onward.attempted a ha), fun a ha => ?_⟩
      by_cases hm : a ∈ attemptIds (preparingAssignments g.db PREPARATION_RECONCILE_BATCH_SIZE)
      · exact hr₂.1 a (hr.attempted a hm)
      · exact hr₂.2 a ((waits_congr (hr.others a hm)).mpr ha)

end passes

/-- The start of the server takes up the preparation of every row that was preparing before, whichever preparations
fail, or the storage fails it. -/
theorem startup_attempts_preparing {controlLog : List ControlEvent} {s : RunsState}
    (hdb : ControlRun controlLog s.service.db) (hworkers : s.service.workers = ∅)
    (hclock : ∀ entry ∈ s.service.db.assignments.entries, entry.2.state = .preparing → entry.2.updatedAtMs < clock) :
    ends (startingUp clock) ⟨s, [], false⟩
      (reconcilePreparingAssignmentsAtStartup (preparingAssignmentCount s.service.db)) fun g r => match r with
        | .ok () => ∀ entry ∈ s.service.db.assignments.entries, entry.2.state = .preparing → entry.1 ∈ g.attempted
        | .error _ => g.failed = true := by
  let names := (s.service.db.assignments.entries.filter fun row => row.2.state = .preparing).map Sigma.fst
  have hwaiting : ∀ a, Waits clock s.service.db a → a ∈ names.toFinset := by
    rintro a ⟨row, hrow, hs, -⟩
    refine List.mem_toFinset.mpr (List.mem_map.mpr ⟨⟨a, row⟩, List.mem_filter.mpr ⟨?_, decide_eq_true hs⟩, rfl⟩)
    exact AList.mem_lookup_iff.mp hrow
  have hcard : names.toFinset.card ≤ preparingAssignmentCount s.service.db :=
    (List.toFinset_card_le names).trans (List.length_map _).le
  refine ends_mono (ends_reconcilePasses ⟨_, hdb⟩ hworkers hwaiting ?_) fun g r hr => ?_
  · unfold PREPARATION_RECONCILE_BATCH_SIZE
    omega
  · cases r with
    | error _ => exact hr
    | ok _ =>
      exact fun entry hentry hs => hr.2 entry.1
        ⟨entry.2, AList.mem_lookup_iff.mpr hentry, hs, hclock entry hentry hs⟩

def preparingContract (attemptId : String) (hname : isBlank attemptId = false) : AssignmentContract :=
  { sampleContract with
    assignmentId := ⟨attemptId, hname⟩, attemptId := ⟨attemptId, hname⟩, idempotencyKey := attemptId }

/-- Three rows, the one last that was stored first. -/
def samplePreparing : ControlDatabase :=
  executeAll [.storeAssignment "worker" (preparingContract "first" (by decide)) 10,
    .storeAssignment "worker" (preparingContract "second" (by decide)) 9,
    .storeAssignment "other" (preparingContract "third" (by decide)) 8] .empty

def samplePrepared : RunsState := ⟨{ (ServingConfig.initial .empty 0).state with db := samplePreparing }, .empty,
    .empty⟩

/-- Whatever else goes well, the input of one attempt is never granted. -/
def refusing (attemptId : String) : Contract RunOp RunOp.Reply Startup where
  pre _ _ := True
  post g o reply g' := (startingUp 11).post g o reply g' ∧ match o, reply with
    | .service (.grantInput _ contract _), reply => contract.attemptId.text = attemptId → reply.isOk = false
    | _, _ => True

theorem startup_attempts_preparing_sample : preparingAssignmentCount samplePreparing = 3 ∧
    ends (refusing "third") ⟨samplePrepared, [], false⟩ (reconcilePreparingAssignmentsAtStartup 3) fun g r =>
      match r with
      | .ok () => "first" ∈ g.attempted ∧ "second" ∈ g.attempted ∧ "third" ∈ g.attempted
      | .error _ => g.failed = true := by
  have hcount : preparingAssignmentCount samplePreparing = 3 := by decide +kernel
  have hrows : ∀ entry ∈ samplePreparing.assignments.entries, entry.2.state = .preparing ∧
    entry.2.updatedAtMs < 11 := by
    decide +kernel
  have hnames : samplePreparing.assignments.entries.map Sigma.fst = ["third", "second", "first"] := by decide +kernel
  obtain ⟨_, hrun⟩ : ∃ log, ControlRun log samplePreparing := ControlRun.empty.executeAll _
  have hstarts := startup_attempts_preparing (s := samplePrepared) hrun rfl fun entry hentry _ => (hrows entry hentry).2
  refine ⟨hcount, ends_weaken (fun _ _ _ => trivial) (fun _ _ _ _ h => h.1) (ends_mono (hcount ▸ hstarts) ?_)⟩
  intro g r hr
  cases r with
  | error _ => exact hr
  | ok _ =>
    have hattempted : ∀ name ∈ samplePreparing.assignments.entries.map Sigma.fst, name ∈ g.attempted :=
      fun name hname => by
      obtain ⟨entry, hentry, rfl⟩ := List.mem_map.mp hname
      exact hr entry hentry (hrows entry hentry).1
    rw [hnames] at hattempted
    exact ⟨hattempted _ (by decide), hattempted _ (by decide), hattempted _ (by decide)⟩

end AlloyPort.Projection
