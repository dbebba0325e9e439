import AlloyPort.Oracle.Calibration
import AlloyPort.Library.Prog

/-! The verdict of the correctness oracle, and what a pass means for the numbers behind it. -/

namespace AlloyPort.Oracle

open Candidate Binary

section verdict

variable [Sha256] [OracleJson]

def validateExperimentRuns (experiment : ReductionCorrectnessExperiment) (reference candidate : ReductionRun)
    (plan : ReductionTolerancePlan) (corpus : ReductionCorpus) : Except ReductionCorrectnessError Unit :=
  if reference.role ≠ .cudaReference ∨ candidate.role ≠ .ascendCandidate ∨
      candidate.candidateId ≠ some experiment.candidateId ∨ reference.experimentDigest ≠ experiment.experimentDigest ∨
      candidate.experimentDigest ≠ experiment.experimentDigest ∨ reference.corpusDigest ≠ experiment.corpusDigest ∨
      candidate.corpusDigest ≠ experiment.corpusDigest ∨
      documentDigest (.plan plan) ≠ experiment.tolerancePlanDigest ∨
      documentDigest (.corpus corpus) ≠ experiment.corpusDigest then .error .experimentIdentityMismatch
  else .ok ()

/-- Whether a calibration is of this reference and of the tolerance derived from it. -/
def isCalibrated (experiment : ReductionCorrectnessExperiment) (reference : ReductionRun)
    (calibration : ReductionCalibrationReceipt) (policy : Option ReductionOraclePolicy) : Bool :=
  calibration.passed && calibration.oracleRevision = REDUCTION_ORACLE_REVISION_V1 &&
    calibration.corpusDigest = experiment.corpusDigest && calibration.referenceRunDigest =
      documentDigest (.run reference) &&
    policy.any fun derived => calibration.policyDigest = documentDigest (.policy derived)

def judge (calibrated : Bool) (reference candidate : ReductionRun) (policy : Option ReductionOraclePolicy)
    (corpus : ReductionCorpus) : CorrectnessVerdict × List ReductionOracleFailure :=
  match calibrated, policy with
  | true, some policy =>
    (if compareRuns reference candidate policy corpus = [] then .pass else .fail,
      compareRuns reference candidate policy corpus)
  | _, _ => (.unverifiable, [failure .calibrationUnavailable none none
      "the exact oracle, tolerance plan, corpus, and reference run were not calibrated against a measured floor"])

def evaluateReductionCorrectness (experiment : ReductionCorrectnessExperiment) (reference candidate : ReductionRun)
    (plan : ReductionTolerancePlan) (corpus : ReductionCorpus) (calibration : ReductionCalibrationReceipt) :
    Except ReductionCorrectnessError ReductionCorrectnessReceipt := do
  validateExperimentRuns experiment reference candidate plan corpus
  let policy ← derivedPolicy plan reference corpus
  let judged := judge (isCalibrated experiment reference calibration policy) reference candidate policy corpus
  return {
    oracleRevision := REDUCTION_ORACLE_REVISION_V1
    experiment := experiment
    referenceRunDigest := documentDigest (.run reference)
    candidateRunDigest := documentDigest (.run candidate)
    calibrationReceiptDigest := documentDigest (.calibration calibration)
    verdict := judged.1
    unverified := [.deviceExecution, .runnerAttestation]
    failures := judged.2 }

end verdict

structure Approximates (policy : ReductionOraclePolicy) (expected actual : ReductionObservation) : Prop where
  succeeds : actual.status = 0
  near : ∃ expectedBits actualBits x m y n, expected.outputBits = some expectedBits ∧
    actual.outputBits = some actualBits ∧
    Number.ofBits expectedBits = .finite x m ∧ Number.ofBits actualBits = .finite y n ∧
    |signed y n - signed x m| ≤ comparisonSlack * policy.tolerance (signed x m) ∧ (expectedBits = 0 → actualBits = 0)

structure CaseAgrees [Sha256] (policy : ReductionOraclePolicy) (item : ReductionCorpusCase)
    (expected actual : ReductionObservation) : Prop where
  keys : expected.key = caseKey item ∧ actual.key = caseKey item
  elements : expected.elements = item.elements ∧ actual.elements = item.elements
  inputs : expected.inputDigest = caseInputDigest item ∧ actual.inputDigest = caseInputDigest item
  success : expected.status = 0 → Approximates policy expected actual
  failure : expected.status ≠ 0 → actual.status = expected.status ∧ expected.outputBits = none ∧
    actual.outputBits = none

structure RunsAgree [Sha256] (policy : ReductionOraclePolicy) (corpus : ReductionCorpus)
    (reference candidate : ReductionRunReceipt) : Prop where
  referenceKeys : ∀ key, (∃ o ∈ reference.observations, o.key = key) ↔ ∃ item ∈ corpus.cases, caseKey item = key
  candidateKeys : ∀ key, (∃ o ∈ candidate.observations, o.key = key) ↔ ∃ item ∈ corpus.cases, caseKey item = key
  repetitions : ∀ item ∈ corpus.cases, ∀ repetition,
    (∃ other ∈ corpus.cases, caseKey other = (item.caseId, repetition)) ↔
    1 ≤ repetition ∧ repetition ≤ policy.requiredRepetitions
  attested : candidate.implementationInvoked = true ∧ candidate.synchronized = true
  cases : ∀ item ∈ corpus.cases, ∃ expected ∈ reference.observations, ∃ actual ∈ candidate.observations,
    CaseAgrees policy item expected actual

section agreement

variable {policy : ReductionOraclePolicy} {corpus : ReductionCorpus} {item : ReductionCorpusCase}
  {expected actual o : ReductionObservation} {reference candidate : ReductionRunReceipt} {key : CaseKey}
  {observations : List ReductionObservation} {caseId : String} {repetition : Nat}

theorem widen_lt {observed slackPercent tolerance : Nat} (h : widen observed slackPercent = some tolerance) :
    tolerance < 2 ^ 32 := by
  unfold widen at h
  split at h
  · rename_i hbound
    cases h
    exact hbound.2
  · cases h

theorem mem_orderedKeys {keys : List CaseKey} : key ∈ orderedKeys keys ↔ key ∈ keys := List.mem_insertionSort _

theorem mem_caseIds : caseId ∈ caseIds observations ↔ ∃ o ∈ observations, o.caseId = caseId := by
  rw [caseIds, List.mem_insertionSort, List.mem_dedup, List.mem_map]

theorem mem_repetitionsOf :
    repetition ∈ repetitionsOf observations caseId ↔ ∃ o ∈ observations, o.key = (caseId, repetition) := by
  rw [repetitionsOf, List.mem_insertionSort, List.mem_map]
  constructor
  · rintro ⟨o, ho, rfl⟩
    have hid := of_decide_eq_true (List.mem_filter.mp ho).2
    exact ⟨o, (List.mem_filter.mp ho).1, by rw [ReductionObservation.key, hid]⟩
  · rintro ⟨o, ho, hkey⟩
    have hid : o.caseId = caseId := congrArg Prod.fst hkey
    exact ⟨o, List.mem_filter.mpr ⟨ho, decide_eq_true hid⟩, congrArg Prod.snd hkey⟩

theorem mem_requiredRepetitions :
    repetition ∈ requiredRepetitions policy ↔ 1 ≤ repetition ∧ repetition ≤ policy.requiredRepetitions := by
  rw [requiredRepetitions, List.mem_range'_1]
  omega

theorem compareAttestations_nil {run : ReductionRun} (h : compareAttestations run = []) :
    run.implementationInvoked = true ∧ run.synchronized = true := by
  simpa [compareAttestations] using h

theorem compareOutputs_none (hfits : policy.Fits) (hstatus : expected.status = 0)
    (hsame : actual.status = expected.status)
    (h : compareOutputs policy expected actual = none) : Approximates policy expected actual := by
  unfold compareOutputs at h
  split at h
  · rename_i expectedBits actualBits hexpected hactual
    by_cases hfinite : (Number.ofBits expectedBits).isFinite = false ∨ (Number.ofBits actualBits).isFinite = false
    · rw [if_pos hfinite] at h
      cases h
    · rw [if_neg hfinite] at h
      by_cases hzero : expectedBits = 0 ∧ actualBits ≠ 0
      · rw [if_pos hzero] at h
        cases h
      · rw [if_neg hzero] at h
        by_cases hwithin : withinTolerance (.ofBits expectedBits) (.ofBits actualBits) policy = true
        · push Not at hfinite
          obtain ⟨x, m, hx⟩ := Number.finite_of_isFinite (Bool.ne_false_iff.mp hfinite.1)
          obtain ⟨y, n, hy⟩ := Number.finite_of_isFinite (Bool.ne_false_iff.mp hfinite.2)
          have hnear := withinTolerance_near hfits hx hy hwithin
          have hexact : expectedBits = 0 → actualBits = 0 := fun he => by_contra fun hne => hzero ⟨he, hne⟩
          exact ⟨hsame.trans hstatus, expectedBits, actualBits, x, m, y, n, hexpected, hactual, hx, hy, hnear, hexact⟩
        · rw [if_pos (Bool.not_eq_true _ ▸ hwithin)] at h
          cases h
  · rw [if_pos hstatus] at h
    cases h

theorem findCase_ok (hcorpus : (corpus.cases.map caseKey).Nodup) (hitem : item ∈ corpus.cases) :
    findCase corpus (caseKey item) = some item := by
  unfold findCase
  cases hfind : corpus.cases.find? fun other => caseKey other = caseKey item with
  | none => exact absurd (List.find?_eq_none.mp hfind item hitem) (by simp)
  | some found =>
    have hkey : caseKey found = caseKey item := by simpa using List.find?_some hfind
    rw [List.inj_on_of_nodup_map hcorpus (List.mem_of_find?_eq_some hfind) hitem hkey]

theorem findObservation_ok (ho : o ∈ candidate.observations) :
    findObservation candidate.toReductionRun o.key = some o := by
  unfold findObservation
  cases hfind : candidate.observations.find? fun other => other.key = o.key with
  | none => exact absurd (List.find?_eq_none.mp hfind o ho) (by simp)
  | some found =>
    have hkey : found.key = o.key := by simpa using List.find?_some hfind
    rw [candidate.eq_of_key (List.mem_of_find?_eq_some hfind) ho hkey]

variable [Sha256]

theorem compareCase_none (hfits : policy.Fits) (hexpected : expected ∈ reference.observations)
    (hactual : actual ∈ candidate.observations) (hkeys : expected.key = caseKey item ∧ actual.key = caseKey item)
    (h : compareCase policy item expected actual = none) : CaseAgrees policy item expected actual := by
  unfold compareCase at h
  by_cases hdiffers : expected.elements ≠ item.elements ∨ expected.inputDigest ≠ caseInputDigest item ∨
      actual.elements ≠ expected.elements ∨ actual.inputDigest ≠ expected.inputDigest
  · rw [if_pos hdiffers] at h
    cases h
  · rw [if_neg hdiffers] at h
    push Not at hdiffers
    obtain ⟨helements, hinput, helements', hinput'⟩ := hdiffers
    by_cases hstatus : actual.status = expected.status
    · rw [if_neg (not_not.mpr hstatus)] at h
      refine ⟨hkeys, ⟨helements, helements'.trans helements⟩, ⟨hinput, hinput'.trans hinput⟩, fun hzero => ?_,
        fun hne => ?_⟩
      · exact compareOutputs_none hfits hzero hstatus h
      · have hreference : expected.outputBits = none := by
          have hiff := reference.output_iff hexpected
          cases hbits : expected.outputBits with
          | none => rfl
          | some bits => exact absurd (hiff.mpr (by rw [hbits]; rfl)) hne
        have hcandidate : actual.outputBits = none := by
          have hiff := candidate.output_iff hactual
          cases hbits : actual.outputBits with
          | none => rfl
          | some bits => exact absurd (hiff.mpr (by rw [hbits]; rfl)) (hstatus ▸ hne)
        exact ⟨hstatus, hreference, hcandidate⟩
    · rw [if_pos hstatus] at h
      cases h

theorem compareRuns_nil (hcorpus : (corpus.cases.map caseKey).Nodup) (hfits : policy.Fits)
    (h : compareRuns reference.toReductionRun candidate.toReductionRun policy corpus = []) :
    RunsAgree policy corpus reference candidate := by
  unfold compareRuns at h
  split at h
  · cases h
  · split at h
    · simp at h
    · split at h
      · simp at h
      · rename_i hcover hsame
        have hcover := not_not.mp hcover
        have hsame := not_not.mp hsame
        obtain ⟨hrest, _⟩ := List.append_eq_nil_iff.mp h
        obtain ⟨hrest, hcases⟩ := List.append_eq_nil_iff.mp hrest
        obtain ⟨hattested, hrepetitions⟩ := List.append_eq_nil_iff.mp hrest
        have hreference : ∀ key, (∃ o ∈ reference.observations, o.key = key) ↔
          ∃ item ∈ corpus.cases, caseKey item = key := by
          intro key
          rw [← List.mem_map, ← List.mem_map, ← mem_orderedKeys, hcover, mem_orderedKeys]
        have hcandidate : ∀ key, (∃ o ∈ candidate.observations, o.key = key) ↔
          ∃ item ∈ corpus.cases, caseKey item = key := by
          intro key
          rw [← hreference, ← List.mem_map, ← List.mem_map, ← mem_orderedKeys, ← hsame, mem_orderedKeys]
        refine ⟨hreference, hcandidate, ?_, compareAttestations_nil hattested, ?_⟩
        · intro item hitem repetition
          obtain ⟨o, ho, hkey⟩ := (hreference _).mpr ⟨item, hitem, rfl⟩
          have hid : item.caseId ∈ caseIds reference.observations := mem_caseIds.mpr ⟨o, ho, congrArg Prod.fst hkey⟩
          have hall : repetitionsOf reference.observations item.caseId = requiredRepetitions policy := by
            by_contra hne
            have hany : (caseIds reference.observations).any (fun caseId =>
                repetitionsOf reference.observations caseId ≠ requiredRepetitions policy) = true :=
              List.any_eq_true.mpr ⟨_, hid, decide_eq_true hne⟩
            rw [if_pos hany] at hrepetitions
            cases hrepetitions
          rw [← hreference, ← mem_repetitionsOf, hall, mem_requiredRepetitions]
        · intro item hitem
          obtain ⟨expected, hexpected, hkey⟩ := (hreference _).mpr ⟨item, hitem, rfl⟩
          obtain ⟨actual, hactual, hkey'⟩ := (hcandidate _).mpr ⟨item, hitem, rfl⟩
          have hnone : compareKey candidate.toReductionRun policy corpus expected = none :=
            List.filterMap_eq_nil_iff.mp hcases expected ((List.mem_insertionSort _).mpr hexpected)
          have hfound : findObservation candidate.toReductionRun expected.key = some actual := by
            rw [hkey, ← hkey', findObservation_ok hactual]
          have hitemFound : findCase corpus expected.key = some item := by
            rw [hkey, findCase_ok hcorpus hitem]
          rw [compareKey, hfound, hitemFound] at hnone
          exact ⟨expected, hexpected, actual, hactual, compareCase_none hfits hexpected hactual ⟨hkey, hkey'⟩ hnone⟩

theorem judge_pass {policy : Option ReductionOraclePolicy} {calibrated : Bool} {run other : ReductionRun}
    (h : (judge calibrated run other policy corpus).1 = .pass) :
    ∃ derived, policy = some derived ∧ compareRuns run other derived corpus = [] := by
  unfold judge at h
  split at h
  · rename_i derived
    by_cases hnil : compareRuns run other derived corpus = []
    · exact ⟨derived, rfl, hnil⟩
    · rw [if_neg hnil] at h
      cases h
  · cases h

end agreement

section soundness

variable [Sha256] [OracleJson]

variable {experiment : ReductionCorrectnessExperiment} {reference candidate : ReductionRunReceipt}
  {plan : ReductionTolerancePlan} {corpus : ReductionCorpus} {calibration : ReductionCalibrationReceipt}
  {receipt : ReductionCorrectnessReceipt} {policy : ReductionOraclePolicy} {floor : ReductionNoiseFloor}
  {run : ReductionRun}

theorem derive_fits (h : plan.derive floor = .ok policy) : policy.Fits := by
  unfold ReductionTolerancePlan.derive ReductionOraclePolicy.deriveFromFloor at h
  split at h
  · rename_i habsolute hrelative
    cases h
    exact ⟨widen_lt habsolute, widen_lt hrelative⟩
  · cases h

theorem derivedPolicy_some (h : derivedPolicy plan run corpus = .ok (some policy)) :
    ∃ floor, measureReductionNoiseFloor run corpus = .ok floor ∧ plan.derive floor = .ok policy := by
  unfold derivedPolicy at h
  split at h
  · cases h
  · rename_i floor hfloor
    cases hderive : plan.derive floor with
    | error error =>
      rw [hderive] at h
      cases h
    | ok derived =>
      rw [hderive] at h
      cases h
      exact ⟨floor, hfloor, hderive⟩

def SpreadFits (plan : ReductionTolerancePlan) (run : ReductionRun) (corpus : ReductionCorpus) : Prop :=
  ∀ floor, measureReductionNoiseFloor run corpus = .ok floor →
    widen floor.observedAbsoluteNanos plan.slackPercent ≠ none ∧
    widen floor.observedRelativePpb plan.slackPercent ≠ none

theorem derivedPolicy_ok_iff :
    (∃ policy, derivedPolicy plan run corpus = .ok policy) ↔ SpreadFits plan run corpus := by
  unfold derivedPolicy SpreadFits
  cases hfloor : measureReductionNoiseFloor run corpus with
  | error error => simp
  | ok floor =>
    simp only [ReductionTolerancePlan.derive, ReductionOraclePolicy.deriveFromFloor, Except.ok.injEq, forall_eq']
    cases habsolute : widen floor.observedAbsoluteNanos plan.slackPercent with
    | none => simp [Except.map]
    | some tolerance => cases hrelative : widen floor.observedRelativePpb plan.slackPercent <;> simp [Except.map]

theorem oracle_judges_iff (hrole : reference.role = .cudaReference)
    (hcorpus : documentDigest (.corpus corpus) = reference.corpusDigest)
    (hvalid : validateExperimentRuns experiment reference.toReductionRun candidate.toReductionRun plan corpus =
      .ok ()) :
    (∃ calibration receipt, calibrateReductionOracle reference.toReductionRun plan corpus = .ok calibration ∧
      evaluateReductionCorrectness experiment reference.toReductionRun candidate.toReductionRun plan corpus
        calibration = .ok receipt) ↔ SpreadFits plan reference.toReductionRun corpus := by
  rw [← derivedPolicy_ok_iff]
  constructor
  · rintro ⟨calibration, receipt, hcalibration, _⟩
    rw [calibrateReductionOracle, if_neg (not_not.mpr hrole), if_neg (not_not.mpr hcorpus)] at hcalibration
    obtain ⟨policy, hpolicy, _⟩ := Effect.bind_eq_ok.mp hcalibration
    exact ⟨policy, hpolicy⟩
  · rintro ⟨policy, hpolicy⟩
    obtain ⟨calibration, hcalibration⟩ : ∃ calibration,
        calibrateReductionOracle reference.toReductionRun plan corpus = .ok calibration := by
      rw [calibrateReductionOracle, if_neg (not_not.mpr hrole), if_neg (not_not.mpr hcorpus), hpolicy]
      exact ⟨_, rfl⟩
    refine ⟨calibration, ?_⟩
    simp only [hcalibration, true_and, evaluateReductionCorrectness, hvalid, hpolicy]
    exact ⟨_, rfl⟩

/-- Runs that pass agree on every case, within the tolerance derived from what was measured on the reference. -/
theorem pass_is_sound {revision : String} {cases : List ReductionCorpusCase}
    (hcorpus : ReductionCorpus.new revision cases = .ok corpus)
    (h : evaluateReductionCorrectness experiment reference.toReductionRun candidate.toReductionRun plan corpus
      calibration = .ok receipt) (hpass : receipt.verdict = .pass) :
    ∃ floor policy, measureReductionNoiseFloor reference.toReductionRun corpus = .ok floor ∧
      plan.derive floor = .ok policy ∧ RunsAgree policy corpus reference candidate := by
  unfold evaluateReductionCorrectness at h
  obtain ⟨_, _, h⟩ := Effect.bind_eq_ok.mp h
  obtain ⟨derived, hderived, h⟩ := Effect.bind_eq_ok.mp h
  cases h
  obtain ⟨policy, hpolicy, hnil⟩ := judge_pass hpass
  rw [hpolicy] at hderived
  obtain ⟨floor, hfloor, hderive⟩ := derivedPolicy_some hderived
  exact ⟨floor, policy, hfloor, hderive, compareRuns_nil (ReductionCorpus.new_ok hcorpus) (derive_fits hderive) hnil⟩

end soundness

section sample

@[reducible] def sampleOracleJson : OracleJson where
  documentBytes
    | .run run => if run.role = .cudaReference then [1] else [2]
    | .floor _ => [3]
    | .policy _ => [4]
    | .plan _ => [5]
    | .calibration _ => [6]
    | .corpus _ => [7]
    | .receipt _ => [8]

attribute [local instance] transparentSha256 sampleOracleJson

def sampleCase (caseId : String) (repetition elements : Nat) (kind : ReductionCaseKind) : ReductionCorpusCase :=
  ⟨caseId, repetition, elements, 7, kind⟩

def sampleCases : List ReductionCorpusCase :=
  [("sum", 257, .valid), ("none", 0, .valid), ("tiny", 3, .valid), ("null", 1, .nullInput), ("full", 5, .valid)].flatMap
    fun item => [sampleCase item.1 1 item.2.1 item.2.2, sampleCase item.1 2 item.2.1 item.2.2]

def sampleCorpus : ReductionCorpus := ⟨"corpus", sampleCases⟩

def samplePlan : ReductionTolerancePlan := ⟨50, 2⟩

def sampleExperiment : ReductionCorrectnessExperiment :=
  .new ⟨"task", Eq.refl false⟩ ⟨"candidate", Eq.refl false⟩ ⟨[11]⟩ ⟨[12]⟩ ⟨[13]⟩ ⟨[14]⟩ ⟨[7]⟩ ⟨[5]⟩

def observe (item : ReductionCorpusCase) (result : Option UInt32) : ReductionObservation :=
  ⟨item.caseId, item.repetition, item.elements, caseInputDigest item, if result.isSome then 0 else 1, result, none⟩

def sampleRun (role : ReductionRunRole) (candidateId : Option CandidateId) (results : List (Option UInt32)) :
    ReductionRun where
  experimentDigest := sampleExperiment.experimentDigest
  role := role
  candidateId := candidateId
  implementationDigest := ⟨[15]⟩
  corpusDigest := ⟨[7]⟩
  environmentDigest := ⟨[16]⟩
  implementationInvoked := true
  synchronized := true
  observations := sampleCases.zipWith observe results

def sampleReference : ReductionRunReceipt :=
  ⟨sampleRun .cudaReference none
    [some 0x3f800000, some 0x3f80001e, some 0, some 0, some 0x29ef9422, some 0x29ef9422, none, none, none, none],
    by decide, by decide, by decide⟩

/-- The third sum is off by a little more than the tolerance, by less than a comparison in `binary64` can tell. -/
def sampleCandidate : ReductionRunReceipt :=
  ⟨sampleRun .ascendCandidate (some ⟨"candidate", Eq.refl false⟩)
    [some 0x3f800000, some 0x3f80001e, some 0, some 0, some 0x36b40500, some 0x36b40500, none, none, none, none],
    by decide, by decide, by decide⟩

def sampleVerdict : Option (ReductionCalibrationReceipt × ReductionCorrectnessReceipt) := do
  let calibration ← (calibrateReductionOracle sampleReference.toReductionRun samplePlan sampleCorpus).toOption
  let receipt ← (evaluateReductionCorrectness sampleExperiment sampleReference.toReductionRun
    sampleCandidate.toReductionRun samplePlan sampleCorpus calibration).toOption
  return (calibration, receipt)

theorem sample_passes : ∃ calibration receipt,
    calibrateReductionOracle sampleReference.toReductionRun samplePlan sampleCorpus = .ok calibration ∧
    evaluateReductionCorrectness sampleExperiment sampleReference.toReductionRun sampleCandidate.toReductionRun
      samplePlan sampleCorpus calibration = .ok receipt ∧ receipt.verdict = .pass := by
  have hverdict : sampleVerdict.any (fun found => found.2.verdict = .pass) = true := by decide +kernel
  unfold sampleVerdict at hverdict
  cases hcalibration : calibrateReductionOracle sampleReference.toReductionRun samplePlan sampleCorpus with
  | error error =>
    rw [hcalibration] at hverdict
    cases hverdict
  | ok calibration =>
    rw [hcalibration] at hverdict
    cases hreceipt : evaluateReductionCorrectness sampleExperiment sampleReference.toReductionRun
        sampleCandidate.toReductionRun samplePlan sampleCorpus calibration with
    | error error =>
      simp [Except.toOption, hreceipt] at hverdict
    | ok receipt =>
      simp [Except.toOption, hreceipt] at hverdict
      exact ⟨calibration, receipt, rfl, hreceipt, hverdict⟩

theorem sampleCorpus_new : ReductionCorpus.new "corpus" sampleCases = .ok sampleCorpus := by
  decide

theorem sample_runs_agree : ∃ floor policy,
    measureReductionNoiseFloor sampleReference.toReductionRun sampleCorpus = .ok floor ∧
      samplePlan.derive floor = .ok policy ∧ RunsAgree policy sampleCorpus sampleReference sampleCandidate := by
  obtain ⟨calibration, receipt, _, hreceipt, hpass⟩ := sample_passes
  exact pass_is_sound sampleCorpus_new hreceipt hpass

def samplePolicy : ReductionOraclePolicy := ⟨5365, 5365, 2, .measuredFloor ⟨[3]⟩ 50⟩

theorem sampleFloor_derives :
    (measureReductionNoiseFloor sampleReference.toReductionRun sampleCorpus).bind samplePlan.derive =
    .ok samplePolicy := by
  decide +kernel

theorem sample_difference : ∃ m n, Number.ofBits 0x29ef9422 = .finite false m ∧
    Number.ofBits 0x36b40500 = .finite false n ∧ samplePolicy.tolerance m < |n - m| :=
  ⟨15701026 * pow2 (-67), 11797760 * pow2 (-41), by decide +kernel, by decide +kernel, by decide +kernel⟩

/-- A pass with a valid input on which both runs fail, and with an output outside the exact tolerance. -/
theorem pass_admits_failing_valid_case :
    (∃ calibration receipt,
      calibrateReductionOracle sampleReference.toReductionRun samplePlan sampleCorpus = .ok calibration ∧
      evaluateReductionCorrectness sampleExperiment sampleReference.toReductionRun sampleCandidate.toReductionRun
        samplePlan sampleCorpus calibration = .ok receipt ∧ receipt.verdict = .pass) ∧
    (∃ item ∈ sampleCorpus.cases, item.kind = .valid ∧
      ∃ o ∈ sampleReference.observations, o.key = caseKey item ∧ o.status = 1) ∧
    (∃ floor, measureReductionNoiseFloor sampleReference.toReductionRun sampleCorpus = .ok floor ∧
      samplePlan.derive floor = .ok samplePolicy) ∧
    ∃ expected ∈ sampleReference.observations, ∃ actual ∈ sampleCandidate.observations, expected.key = actual.key ∧
      expected.outputBits = some 0x29ef9422 ∧ actual.outputBits = some 0x36b40500 ∧
      ∃ m n, Number.ofBits 0x29ef9422 = .finite false m ∧ Number.ofBits 0x36b40500 = .finite false n ∧
        samplePolicy.tolerance m < |n - m| := by
  have hfloor := sampleFloor_derives
  have hvalid : ∃ item ∈ sampleCorpus.cases, item.kind = .valid ∧
      ∃ o ∈ sampleReference.observations, o.key = caseKey item ∧ o.status = 1 := by decide
  have hobservations : ∃ expected ∈ sampleReference.observations, ∃ actual ∈ sampleCandidate.observations,
      expected.key = actual.key ∧ expected.outputBits = some 0x29ef9422 ∧ actual.outputBits = some 0x36b40500 := by
    decide
  obtain ⟨expected, hexpected, actual, hactual, hkey, hbits, hbits'⟩ := hobservations
  obtain ⟨floor, hmeasured, hderived⟩ := Effect.bind_eq_ok.mp hfloor
  exact ⟨sample_passes, hvalid, ⟨floor, hmeasured, hderived⟩,
    expected, hexpected, actual, hactual, hkey, hbits, hbits', sample_difference⟩

end sample

end AlloyPort.Oracle
