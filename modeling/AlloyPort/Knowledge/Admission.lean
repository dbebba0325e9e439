import AlloyPort.Candidate.Correctness
import AlloyPort.Library.Table
import AlloyPort.Oracle.Performance

/-! The admission of knowledge. An entry is granted from the receipts its citations resolve to, and each
citation reads the first receipt with its digest. -/

namespace AlloyPort.Knowledge

open Candidate Oracle Lookup

inductive KnowledgeKind where
  | transformation
  | fact
  | failedRoute
  deriving DecidableEq

structure KnowledgeScope where
  soc : String
  cann : String
  operatorFamily : String

def KnowledgeScope.isValid (scope : KnowledgeScope) : Bool :=
  [scope.soc, scope.cann, scope.operatorFamily].all fun field => !isBlank field

inductive Citation where
  | correctness (digest : Sha256Digest)
  | performance (digest : Sha256Digest)
  | build (digest : Sha256Digest)

def Citation.digest : Citation → Sha256Digest
  | .correctness digest | .performance digest | .build digest => digest

inductive ResolvedCitation where
  | unresolved (digest : Sha256Digest)
  | correctness (digest : Sha256Digest) (taskId : TaskId) (candidateId : CandidateId) (verdict : CorrectnessVerdict)
  | performance (digest : Sha256Digest) (verdict : PerformanceVerdict)
  | build (digest : Sha256Digest) (taskId : TaskId) (candidateId : CandidateId) (passed : Bool)

def ResolvedCitation.digest : ResolvedCitation → Sha256Digest
  | .unresolved digest | .correctness digest .. | .performance digest _ | .build digest .. => digest

def ResolvedCitation.succeeded : ResolvedCitation → Option Bool
  | .unresolved _ => none
  | .correctness _ _ _ verdict => some (verdict = .pass)
  | .performance _ verdict => some (verdict = .improved)
  | .build _ _ _ passed => some passed

def ResolvedCitation.taskId : ResolvedCitation → Option TaskId
  | .correctness _ taskId .. | .build _ taskId .. => some taskId
  | .unresolved _ | .performance .. => none

inductive KnowledgeStatus where
  | proposed
  | supported
  | contested
  | retracted
  deriving DecidableEq

inductive AdmissionRefusal where
  | noCitations
  | invalidScope
  | unresolvedCitation
  | evidenceContradictsKind
  | foreignEvidence
  | unevidencedRetraction
  deriving DecidableEq

def AdmissionRefusal.rank : AdmissionRefusal → Nat
  | .noCitations => 0
  | .invalidScope => 1
  | .unresolvedCitation => 2
  | .evidenceContradictsKind => 3
  | .foreignEvidence => 4
  | .unevidencedRetraction => 5

variable {x : AdmissionRefusal} {xs : List AdmissionRefusal}

theorem AdmissionRefusal.rank_inj {y : AdmissionRefusal} (h : x.rank = y.rank) : x = y := by
  cases x <;> cases y <;> first | rfl | cases h

structure Retraction where
  reason : String
  citations : List Citation

structure KnowledgeEntry where
  id : String
  kind : KnowledgeKind
  scope : KnowledgeScope
  taskId : TaskId
  claim : String
  citations : List Citation
  retracts : Option Retraction

structure Admission where
  status : KnowledgeStatus
  refusals : List AdmissionRefusal

def checkCitation (entry : KnowledgeEntry) (resolved : List ResolvedCitation) (kind : KnowledgeKind)
    (refusals : List AdmissionRefusal) (citation : Citation) : List AdmissionRefusal :=
  match resolved.find? fun candidate => candidate.digest == citation.digest with
  | none => refusals ++ [AdmissionRefusal.unresolvedCitation]
  | some found =>
    match found.succeeded with
    | none => refusals ++ [AdmissionRefusal.unresolvedCitation]
    | some succeeded =>
      let refusals :=
        if found.taskId.any (· ≠ entry.taskId) then refusals ++ [AdmissionRefusal.foreignEvidence] else refusals
      let expected : Bool := kind ≠ .failedRoute
      if succeeded ≠ expected then refusals ++ [AdmissionRefusal.evidenceContradictsKind] else refusals

/-- `Vec::dedup`: of equal neighbours one is kept. -/
def dedup : List AdmissionRefusal → List AdmissionRefusal
  | [] => []
  | [x] => [x]
  | x :: y :: rest => if x = y then dedup (y :: rest) else x :: dedup (y :: rest)

/-- `sort_unstable` and `dedup`. -/
def sortedRefusals (refusals : List AdmissionRefusal) : List AdmissionRefusal :=
  dedup (refusals.insertionSort fun x y => x.rank ≤ y.rank)

def admitEntry (entry : KnowledgeEntry) (resolved : List ResolvedCitation) : Admission :=
  let refusals := if !entry.scope.isValid || isBlank entry.claim || isBlank entry.id then [.invalidScope] else []
  match entry.retracts with
  | some retraction =>
    let refusals :=
      if retraction.citations = [] ∨ isBlank retraction.reason = true then
        refusals ++ [AdmissionRefusal.unevidencedRetraction]
      else refusals
    let refusals := sortedRefusals (retraction.citations.foldl (checkCitation entry resolved .failedRoute) refusals)
    ⟨if refusals = [] then .retracted else .proposed, refusals⟩
  | none =>
    let refusals := if entry.citations = [] then refusals ++ [AdmissionRefusal.noCitations] else refusals
    let refusals := sortedRefusals (entry.citations.foldl (checkCitation entry resolved entry.kind) refusals)
    ⟨if refusals = [] then .supported else .proposed, refusals⟩

theorem mem_dedup : x ∈ dedup xs ↔ x ∈ xs := by
  induction xs using dedup.induct with
  | case1 => rfl
  | case2 y => rfl
  | case3 y rest ih =>
    rw [dedup, if_pos rfl, ih]
    simp
  | case4 y z rest hne ih =>
    rw [dedup, if_neg hne, List.mem_cons, ih, ← List.mem_cons]

theorem dedup_sorted (h : xs.Pairwise fun x y => x.rank ≤ y.rank) :
    (dedup xs).Pairwise fun x y => x.rank < y.rank := by
  induction xs using dedup.induct with
  | case1 => exact .nil
  | case2 y => exact List.pairwise_singleton _ _
  | case3 y rest ih =>
    rw [dedup, if_pos rfl]
    exact ih (List.pairwise_cons.mp h).2
  | case4 y z rest hne ih =>
    rw [dedup, if_neg hne]
    obtain ⟨hfirst, hrest⟩ := List.pairwise_cons.mp h
    refine List.pairwise_cons.mpr ⟨fun w hw => ?_, ih hrest⟩
    have hyz : y.rank < z.rank :=
      Nat.lt_of_le_of_ne (hfirst z List.mem_cons_self) fun heq => hne (AdmissionRefusal.rank_inj heq)
    rcases List.mem_cons.mp (mem_dedup.mp hw) with rfl | hmem
    · exact hyz
    · exact lt_of_lt_of_le hyz ((List.pairwise_cons.mp hrest).1 w hmem)

theorem mem_sortedRefusals {refusals : List AdmissionRefusal} : x ∈ sortedRefusals refusals ↔ x ∈ refusals := by
  rw [sortedRefusals, mem_dedup, List.mem_insertionSort]

theorem sortedRefusals_sorted (refusals : List AdmissionRefusal) :
    (sortedRefusals refusals).Pairwise fun x y => x.rank < y.rank := by
  refine dedup_sorted ?_
  exact List.pairwise_insertionSort (fun x y : AdmissionRefusal => x.rank ≤ y.rank) refusals

theorem sortedRefusals_eq_iff {ys : List AdmissionRefusal} :
    sortedRefusals xs = sortedRefusals ys ↔ ∀ x, x ∈ xs ↔ x ∈ ys := by
  constructor
  · intro h x
    rw [← mem_sortedRefusals, h, mem_sortedRefusals]
  · intro h
    have hperm : (sortedRefusals xs).Perm (sortedRefusals ys) := by
      refine (List.perm_ext_iff_of_nodup ?_ ?_).mpr fun x => by rw [mem_sortedRefusals, mem_sortedRefusals, h x]
      · exact (sortedRefusals_sorted xs).imp fun hlt heq => absurd (heq ▸ hlt) (Nat.lt_irrefl _)
      · exact (sortedRefusals_sorted ys).imp fun hlt heq => absurd (heq ▸ hlt) (Nat.lt_irrefl _)
    refine hperm.eq_of_pairwise (fun x y _ _ hxy hyx => ?_) (sortedRefusals_sorted xs) (sortedRefusals_sorted ys)
    exact absurd hxy (Nat.lt_asymm hyx)

/-- The citations that decide an entry, and the kind of entry they have to support. -/
def KnowledgeEntry.adjudicated (entry : KnowledgeEntry) : List Citation × KnowledgeKind :=
  match entry.retracts with
  | some retraction => (retraction.citations, .failedRoute)
  | none => (entry.citations, entry.kind)

def KnowledgeEntry.omissions (entry : KnowledgeEntry) : List AdmissionRefusal :=
  (if !entry.scope.isValid || isBlank entry.claim || isBlank entry.id then [AdmissionRefusal.invalidScope] else []) ++
    match entry.retracts with
    | some retraction =>
      if retraction.citations = [] ∨ isBlank retraction.reason = true then [.unevidencedRetraction] else []
    | none => if entry.citations = [] then [.noCitations] else []

def KnowledgeEntry.sought (entry : KnowledgeEntry) : KnowledgeStatus :=
  match entry.retracts with
  | some _ => .retracted
  | none => .supported

def unreadable (reading : Option ResolvedCitation) : Bool := (reading.bind ResolvedCitation.succeeded).isNone

def foreign (taskId : TaskId) (reading : Option ResolvedCitation) : Bool :=
  (reading.bind ResolvedCitation.taskId).any (· ≠ taskId)

def contradicts (kind : KnowledgeKind) (reading : Option ResolvedCitation) : Bool :=
  reading.bind ResolvedCitation.succeeded = some (kind = .failedRoute : Bool)

def KnowledgeEntry.raises (entry : KnowledgeEntry) (kind : KnowledgeKind) :
    AdmissionRefusal → Option ResolvedCitation → Bool
  | .unresolvedCitation => unreadable
  | .foreignEvidence => foreign entry.taskId
  | .evidenceContradictsKind => contradicts kind
  | _ => fun _ => false

section gate

variable {entry : KnowledgeEntry} {resolved resolved' : List ResolvedCitation} {kind : KnowledgeKind}
  {refusals : List AdmissionRefusal} {citation : Citation} {citations : List Citation} {x : AdmissionRefusal}

theorem mem_ite_append {p : Prop} [Decidable p] {y : AdmissionRefusal} :
    (x ∈ if p then refusals ++ [y] else refusals) ↔ x ∈ refusals ∨ p ∧ x = y := by
  by_cases h : p <;> simp [h]

theorem mem_checkCitation : x ∈ checkCitation entry resolved kind refusals citation ↔
    x ∈ refusals ∨ entry.raises kind x (first ResolvedCitation.digest resolved citation.digest) = true := by
  unfold checkCitation first
  cases hfound : resolved.find? fun candidate => candidate.digest == citation.digest with
  | none => cases x <;> simp [KnowledgeEntry.raises, unreadable, foreign, contradicts]
  | some found =>
    cases hsucceeded : found.succeeded with
    | none =>
      have htask : found.taskId = none := by
        cases found with
        | unresolved digest => rfl
        | correctness | performance | build => cases hsucceeded
      cases x <;> simp [KnowledgeEntry.raises, unreadable, foreign, contradicts, hsucceeded, htask]
    | some succeeded =>
      simp only [hsucceeded, mem_ite_append, or_assoc]
      by_cases hkind : kind = .failedRoute <;> cases succeeded <;> cases x <;>
        simp [KnowledgeEntry.raises, unreadable, foreign, contradicts, hsucceeded, hkind]

theorem mem_foldl_checkCitation : x ∈ citations.foldl (checkCitation entry resolved kind) refusals ↔
    x ∈ refusals ∨ (citations.map Citation.digest).any
      (fun digest => entry.raises kind x (first ResolvedCitation.digest resolved digest)) = true := by
  induction citations generalizing refusals with
  | nil => simp
  | cons citation rest ih =>
    rw [List.foldl_cons, ih, mem_checkCitation, List.map_cons, List.any_cons, Bool.or_eq_true, or_assoc]

def findings (entry : KnowledgeEntry) (resolved : List ResolvedCitation) : List AdmissionRefusal :=
  entry.adjudicated.1.foldl (checkCitation entry resolved entry.adjudicated.2) entry.omissions

theorem admitEntry_eq : admitEntry entry resolved =
    ⟨if sortedRefusals (findings entry resolved) = [] then entry.sought else .proposed,
      sortedRefusals (findings entry resolved)⟩ := by
  unfold admitEntry findings KnowledgeEntry.omissions KnowledgeEntry.adjudicated KnowledgeEntry.sought
  cases hretracts : entry.retracts with
  | some retraction =>
    dsimp only
    by_cases hbare : retraction.citations = [] ∨ isBlank retraction.reason = true
    · simp only [if_pos hbare]
    · simp only [if_neg hbare, List.append_nil]
  | none =>
    dsimp only
    by_cases hbare : entry.citations = []
    · simp only [if_pos hbare]
    · simp only [if_neg hbare, List.append_nil]

theorem mem_findings : x ∈ findings entry resolved ↔ x ∈ entry.omissions ∨
    (entry.adjudicated.1.map Citation.digest).any
      (fun digest => entry.raises entry.adjudicated.2 x (first ResolvedCitation.digest resolved digest)) = true :=
  mem_foldl_checkCitation

theorem admitEntry_eq_iff : admitEntry entry resolved' = admitEntry entry resolved ↔
    ∀ x, x ∈ findings entry resolved' ↔ x ∈ findings entry resolved := by
  rw [← sortedRefusals_eq_iff, admitEntry_eq, admitEntry_eq]
  constructor
  · intro h
    exact congrArg Admission.refusals h
  · intro h
    rw [h]

theorem not_mem_omissions {reading : Option ResolvedCitation} (h : entry.raises kind x reading = true) :
    x ∉ entry.omissions := by
  intro hmem
  have hcases : x = .invalidScope ∨ x = .unevidencedRetraction ∨ x = .noCitations := by
    rcases List.mem_append.mp hmem with hscope | hrest
    · split at hscope
      · exact .inl (List.mem_singleton.mp hscope)
      · cases hscope
    · cases hretracts : entry.retracts with
      | some retraction =>
        simp only [hretracts] at hrest
        split at hrest
        · exact .inr (.inl (List.mem_singleton.mp hrest))
        · cases hrest
      | none =>
        simp only [hretracts] at hrest
        split at hrest
        · exact .inr (.inr (List.mem_singleton.mp hrest))
        · cases hrest
  rcases hcases with rfl | rfl | rfl <;> cases h

theorem admitEntry_orderless_iff : (∀ resolved', resolved.Perm resolved' →
    admitEntry entry resolved' = admitEntry entry resolved) ↔
    ∀ x, Lookup.Settled ResolvedCitation.digest resolved (entry.adjudicated.1.map Citation.digest)
      (entry.raises entry.adjudicated.2 x) := by
  constructor
  · intro h x
    refine settled_iff.mpr fun resolved' hperm => ?_
    have hmem := admitEntry_eq_iff.mp (h resolved' hperm) x
    rw [mem_findings, mem_findings] at hmem
    by_cases homitted : x ∈ entry.omissions
    · have hnone : ∀ receipts : List ResolvedCitation, (entry.adjudicated.1.map Citation.digest).any
          (fun digest => entry.raises entry.adjudicated.2 x (first ResolvedCitation.digest receipts digest)) =
            false := by
        intro receipts
        refine List.any_eq_false.mpr fun digest _ hraises => ?_
        exact not_mem_omissions hraises homitted
      rw [hnone, hnone]
    · simp only [homitted, false_or] at hmem
      exact Bool.eq_iff_iff.mpr hmem
  · intro h resolved' hperm
    refine admitEntry_eq_iff.mpr fun x => ?_
    rw [mem_findings, mem_findings, (h x).any_eq hperm]

end gate

def ResolvedCitation.isOf : ResolvedCitation → Citation → Bool
  | .correctness .., .correctness _ | .performance .., .performance _ | .build .., .build _ => true
  | _, _ => false

def ResolvedCitation.outcome : ResolvedCitation → Option Bool
  | .correctness _ _ _ .pass | .performance _ .improved => some true
  | .correctness _ _ _ .fail | .performance _ .regressed => some false
  | .build _ _ _ passed => some passed
  | _ => none

structure Backs (entry : KnowledgeEntry) (citation : Citation) (receipt : ResolvedCitation) : Prop where
  kind : receipt.isOf citation = true
  task : receipt.taskId = some entry.taskId
  outcome : receipt.outcome = some (entry.adjudicated.2 ≠ .failedRoute : Bool)

/-- An entry is granted only when the receipt read for each citation backs it, and in any order of the receipts. -/
structure Adjudicates (entry : KnowledgeEntry) (resolved : List ResolvedCitation) : Prop where
  backed : (admitEntry entry resolved).status = .supported ∨ (admitEntry entry resolved).status = .retracted →
    ∀ citation ∈ entry.adjudicated.1, ∃ receipt,
      first ResolvedCitation.digest resolved citation.digest = some receipt ∧ Backs entry citation receipt
  orderless : ∀ resolved', resolved.Perm resolved' → admitEntry entry resolved' = admitEntry entry resolved

/-- For each refusal, a cited digest has it with every receipt of that digest, or no cited digest has it with any. -/
structure Consistent (entry : KnowledgeEntry) (resolved : List ResolvedCitation) : Prop where
  unreadable : Lookup.Settled ResolvedCitation.digest resolved (entry.adjudicated.1.map Citation.digest) unreadable
  foreign : Lookup.Settled ResolvedCitation.digest resolved (entry.adjudicated.1.map Citation.digest)
    (foreign entry.taskId)
  contradicts : Lookup.Settled ResolvedCitation.digest resolved (entry.adjudicated.1.map Citation.digest)
    (contradicts entry.adjudicated.2)

structure Acceptable (entry : KnowledgeEntry) (reading : Option ResolvedCitation) : Prop where
  readable : unreadable reading = false
  own : foreign entry.taskId reading = false
  agrees : contradicts entry.adjudicated.2 reading = false

structure Telling (citation : Citation) (receipt : ResolvedCitation) : Prop where
  kind : receipt.isOf citation = true
  owned : receipt.taskId.isSome = true
  decisive : receipt.outcome.isSome = true

section rulings

variable {entry : KnowledgeEntry} {resolved : List ResolvedCitation} {citation : Citation} {receipt : ResolvedCitation}

theorem succeeded_of_outcome {passed : Bool} (h : receipt.outcome = some passed) : receipt.succeeded = some passed := by
  cases receipt with
  | unresolved digest => cases h
  | correctness digest taskId candidateId verdict | performance digest verdict => cases verdict <;> cases h <;> rfl
  | build digest taskId candidateId passed' => exact h

theorem granted_iff : ((admitEntry entry resolved).status = .supported ∨
    (admitEntry entry resolved).status = .retracted) ↔ entry.omissions = [] ∧ ∀ citation ∈ entry.adjudicated.1,
      Acceptable entry (first ResolvedCitation.digest resolved citation.digest) := by
  have hsought : entry.sought = .supported ∨ entry.sought = .retracted := by
    unfold KnowledgeEntry.sought
    cases entry.retracts with
    | none => exact .inl rfl
    | some retraction => exact .inr rfl
  have hgranted : ((admitEntry entry resolved).status = .supported ∨ (admitEntry entry resolved).status = .retracted) ↔
      ∀ x, x ∉ findings entry resolved := by
    rw [admitEntry_eq, ← List.eq_nil_iff_forall_not_mem]
    by_cases hnone : findings entry resolved = []
    · simp [hnone, sortedRefusals, dedup, hsought]
    · have hsorted : sortedRefusals (findings entry resolved) ≠ [] := by
        obtain ⟨x, hx⟩ := List.exists_mem_of_ne_nil _ hnone
        exact List.ne_nil_of_mem (mem_sortedRefusals.mpr hx)
      simp [hnone, hsorted]
  rw [hgranted, List.eq_nil_iff_forall_not_mem]
  simp only [mem_findings, not_or, Bool.not_eq_true, List.any_eq_false, List.mem_map, forall_exists_index, and_imp,
    forall_apply_eq_imp_iff₂]
  constructor
  · intro h
    refine ⟨fun x => (h x).1, fun citation hcitation => ⟨?_, ?_, ?_⟩⟩
    · exact (h .unresolvedCitation).2 citation hcitation
    · exact (h .foreignEvidence).2 citation hcitation
    · exact (h .evidenceContradictsKind).2 citation hcitation
  · rintro ⟨homissions, haccepted⟩ x
    refine ⟨homissions x, fun citation hcitation => ?_⟩
    obtain ⟨hreadable, hown, hagrees⟩ := haccepted citation hcitation
    cases x with
    | unresolvedCitation => exact hreadable
    | foreignEvidence => exact hown
    | evidenceContradictsKind => exact hagrees
    | noCitations => rfl
    | invalidScope => rfl
    | unevidencedRetraction => rfl

theorem backs_of_telling (haccepted : Acceptable entry (some receipt)) (h : Telling citation receipt) :
    Backs entry citation receipt := by
  obtain ⟨taskId, htask⟩ := Option.isSome_iff_exists.mp h.owned
  obtain ⟨passed, hpassed⟩ := Option.isSome_iff_exists.mp h.decisive
  have hown := haccepted.own
  have hagrees := haccepted.agrees
  simp only [foreign, Option.bind_some, htask, Option.any_some, decide_eq_false_iff_not, not_not] at hown
  simp only [contradicts, Option.bind_some, succeeded_of_outcome hpassed, Option.some.injEq,
    decide_eq_false_iff_not] at hagrees
  refine ⟨h.kind, by rw [htask, hown], ?_⟩
  rw [hpassed]
  by_cases hkind : entry.adjudicated.2 = .failedRoute
  · simpa [hkind] using hagrees
  · simpa [hkind] using hagrees

theorem Backs.telling (h : Backs entry citation receipt) : Telling citation receipt :=
  ⟨h.kind, by rw [h.task]; rfl, by rw [h.outcome]; rfl⟩

theorem settled_raises_iff : (∀ x, Lookup.Settled ResolvedCitation.digest resolved
    (entry.adjudicated.1.map Citation.digest) (entry.raises entry.adjudicated.2 x)) ↔ Consistent entry resolved := by
  constructor
  · intro h
    exact ⟨h .unresolvedCitation, h .foreignEvidence, h .evidenceContradictsKind⟩
  · intro h x
    cases x with
    | unresolvedCitation => exact h.unreadable
    | foreignEvidence => exact h.foreign
    | evidenceContradictsKind => exact h.contradicts
    | noCitations | invalidScope | unevidencedRetraction => exact .inr fun _ _ _ _ => rfl

/-- The gate adjudicates exactly where the receipts of a digest agree, and no receipt it has nothing against is of
another kind, names no task or decides nothing. -/
theorem admission_adjudicates_iff (entry : KnowledgeEntry) (resolved : List ResolvedCitation) :
    Adjudicates entry resolved ↔ Consistent entry resolved ∧
      (entry.omissions = [] → (∀ citation ∈ entry.adjudicated.1,
          Acceptable entry (first ResolvedCitation.digest resolved citation.digest)) →
        ∀ citation ∈ entry.adjudicated.1, ∀ receipt,
          first ResolvedCitation.digest resolved citation.digest = some receipt → Telling citation receipt) := by
  constructor
  · intro h
    refine ⟨settled_raises_iff.mp (admitEntry_orderless_iff.mp h.orderless), fun homissions haccepted => ?_⟩
    intro citation hcitation receipt hfirst
    obtain ⟨receipt', hfirst', hbacks⟩ := h.backed (granted_iff.mpr ⟨homissions, haccepted⟩) citation hcitation
    obtain rfl := Option.some.inj (hfirst.symm.trans hfirst')
    exact hbacks.telling
  · rintro ⟨hconsistent, htelling⟩
    refine ⟨fun hgranted citation hcitation => ?_, admitEntry_orderless_iff.mpr (settled_raises_iff.mpr hconsistent)⟩
    obtain ⟨homissions, haccepted⟩ := granted_iff.mp hgranted
    have hacceptable := haccepted citation hcitation
    cases hfirst : first ResolvedCitation.digest resolved citation.digest with
    | none =>
      rw [hfirst] at hacceptable
      exact absurd hacceptable.readable (by decide)
    | some receipt =>
      rw [hfirst] at hacceptable
      exact ⟨receipt, rfl, backs_of_telling hacceptable
        (htelling homissions haccepted citation hcitation receipt hfirst)⟩

/-- A retraction is granted on a receipt that says only that the machine failed. -/
theorem retraction_rests_on_infra_error : ¬ ∀ entry resolved, Adjudicates entry resolved := by
  intro h
  let digest : Sha256Digest := ⟨[1]⟩
  let entry : KnowledgeEntry := ⟨"entry-1", .failedRoute, ⟨"Ascend950PR", "9.1.0", "reduction"⟩, ⟨"task", by decide⟩,
    "a route", [], some ⟨"it is in my way", [.correctness digest]⟩⟩
  obtain ⟨hbacked, -⟩ := h entry [.correctness digest entry.taskId ⟨"candidate", by decide⟩ .infraError]
  obtain ⟨receipt, hfirst, hbacks⟩ := hbacked (by decide) (.correctness digest) List.mem_cons_self
  cases hfirst
  exact absurd hbacks.outcome (by decide)

end rulings

end AlloyPort.Knowledge
