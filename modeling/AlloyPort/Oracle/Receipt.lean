import AlloyPort.Library.Binary
import AlloyPort.Candidate.Correctness

/-! What the correctness oracle reads and writes: the receipts of runs, the floor measured on one, the
tolerance derived from it, and the evidence of a calibration. Their schema versions are constants of
the encoding. -/

namespace AlloyPort.Oracle

open Candidate Framing

structure ReductionObservation where
  caseId : String
  repetition : Nat
  elements : Nat
  inputDigest : Sha256Digest
  status : Int
  outputBits : Option UInt32
  reorderOutputBits : Option UInt32
  deriving DecidableEq

abbrev CaseKey := String × Nat

def ReductionObservation.key (o : ReductionObservation) : CaseKey := (o.caseId, o.repetition)

def caseKey (item : ReductionCorpusCase) : CaseKey := (item.caseId, item.repetition)

def isCaseId (text : String) : Bool :=
  text ≠ "" && (utf8 text).length ≤ 128 && text.toList.all fun c => c.isAlphanum || c == '-' || c == '_'

def ReductionObservation.validate (o : ReductionObservation) : Except ReductionCorrectnessError Unit :=
  if isCaseId o.caseId = true ∧ o.repetition ≠ 0 ∧ (o.status = 0 ↔ o.outputBits.isSome = true) ∧
      (o.reorderOutputBits.isSome = true → o.outputBits.isSome = true) then .ok ()
  else .error .invalidObservation

def checkObservations : List CaseKey → List ReductionObservation → Except ReductionCorrectnessError Unit
  | _, [] => .ok ()
  | keys, o :: rest => do
    o.validate
    if o.key ∈ keys then .error .duplicateObservation else checkObservations (o.key :: keys) rest

structure ReductionRun where
  experimentDigest : Sha256Digest
  role : ReductionRunRole
  candidateId : Option CandidateId
  implementationDigest : Sha256Digest
  corpusDigest : Sha256Digest
  environmentDigest : Sha256Digest
  implementationInvoked : Bool
  synchronized : Bool
  observations : List ReductionObservation

structure ReductionRunReceipt extends ReductionRun where
  nonempty : observations ≠ []
  candidate : candidateId.isSome = true ↔ role = .ascendCandidate
  checked : checkObservations [] observations = .ok ()

def ReductionRunReceipt.new (run : ReductionRun) : Except ReductionCorrectnessError ReductionRunReceipt :=
  if h : run.observations ≠ [] ∧ (run.candidateId.isSome = true ↔ run.role = .ascendCandidate) then
    match hc : checkObservations [] run.observations with
    | .error error => .error error
    | .ok () => .ok ⟨run, h.1, h.2, hc⟩
  else .error .invalidRunContext

def ReductionCorpusCase.isValid (item : ReductionCorpusCase) : Bool :=
  isCaseId item.caseId && item.repetition ≠ 0 && !(item.kind = .nullInput && item.elements = 0) &&
    !(item.kind = .unsupportedSize && item.elements ≤ 1048576)

def ReductionCorpus.new (revision : String) (cases : List ReductionCorpusCase) :
    Except ReductionCorrectnessError ReductionCorpus :=
  if isBlank revision = true ∨ cases = [] ∨ cases.length > 256 then .error .invalidCorpus
  else if (∀ item ∈ cases, ReductionCorpusCase.isValid item = true) ∧
    (cases.map caseKey).Nodup then .ok ⟨revision, cases⟩
  else .error .invalidCorpus

def caseKindByte : ReductionCaseKind → UInt8
  | .valid => 1
  | .nullInput => 2
  | .nullOutput => 3
  | .unsupportedSize => 4

def caseInputDigest [Sha256] (item : ReductionCorpusCase) : Sha256Digest :=
  Sha256.digestBytes (utf8 "alloyport-reduction-input-v1" ++ 0 :: utf8 item.caseId ++ beBytes 2 item.repetition ++
    beBytes 8 item.elements ++ beBytes 4 item.seed ++ [caseKindByte item.kind])

structure ReductionNoiseFloor where
  corpusDigest : Sha256Digest
  referenceRunDigest : Sha256Digest
  observedAbsoluteNanos : Nat
  observedRelativePpb : Nat
  repetitionPairs : Nat
  reorderPairs : Nat
  deterministic : Bool
  deriving DecidableEq

structure ReductionTolerancePlan where
  slackPercent : Nat
  requiredRepetitions : Nat

inductive ToleranceProvenance where
  | measuredFloor (floorDigest : Sha256Digest) (slackPercent : Nat)
  | asserted (justification : String)
  deriving DecidableEq

structure ReductionOraclePolicy where
  absoluteToleranceNanos : Nat
  relativeTolerancePpb : Nat
  requiredRepetitions : Nat
  provenance : ToleranceProvenance
  deriving DecidableEq

inductive ReductionMutantKind where
  | arithmeticScale
  | indexingSwap
  | boundaryMask
  | accumulationError
  | invalidStatus
  | signedZero
  | nonFinite
  | nondeterminism
  | fallbackBypass
  | missingSynchronization
  | justOutsideTolerance
  deriving DecidableEq

def ReductionMutantKind.all : List ReductionMutantKind :=
  [.arithmeticScale, .indexingSwap, .boundaryMask, .accumulationError, .invalidStatus, .signedZero, .nonFinite,
    .nondeterminism, .justOutsideTolerance]

structure ReductionMutationDetection where
  mutant : ReductionMutantKind
  detected : Bool
  deriving DecidableEq

inductive ReductionBatteryScope where
  | comparatorOnly
  | comparatorAndImplementation
  deriving DecidableEq

structure ReductionCalibrationChecks where
  toleranceMeasured : Bool
  reorderedAuthorityAdmitted : Bool
  deriving DecidableEq

structure ReductionCalibrationReceipt where
  oracleRevision : String
  policyDigest : Sha256Digest
  corpusDigest : Sha256Digest
  referenceRunDigest : Sha256Digest
  batteryScope : ReductionBatteryScope
  noiseFloor : Option ReductionNoiseFloor
  checks : ReductionCalibrationChecks
  detections : List ReductionMutationDetection
  undetected : List ReductionMutantKind
  verdict : Bool
  deriving DecidableEq

def ReductionCalibrationReceipt.passed (receipt : ReductionCalibrationReceipt) : Bool :=
  receipt.verdict && receipt.checks.toleranceMeasured && receipt.checks.reorderedAuthorityAdmitted &&
    receipt.undetected.isEmpty

inductive ReductionOracleFailureKind where
  | calibrationUnavailable
  | observationSetMismatch
  | referenceNotAuthoritative
  | candidatePathNotInvoked
  | missingSynchronization
  | statusMismatch
  | missingOutput
  | nonFiniteOutput
  | signedZeroMismatch
  | numericMismatch
  | nondeterministicOutput
  deriving DecidableEq

structure ReductionOracleFailure where
  kind : ReductionOracleFailureKind
  caseId : Option String
  repetition : Option Nat
  detail : String

inductive UnverifiedAssumption where
  | deviceExecution
  | runnerAttestation

structure ReductionCorrectnessReceipt where
  oracleRevision : String
  experiment : ReductionCorrectnessExperiment
  referenceRunDigest : Sha256Digest
  candidateRunDigest : Sha256Digest
  calibrationReceiptDigest : Sha256Digest
  verdict : CorrectnessVerdict
  unverified : List UnverifiedAssumption
  failures : List ReductionOracleFailure

inductive OracleDocument where
  | run (run : ReductionRun)
  | floor (floor : ReductionNoiseFloor)
  | policy (policy : ReductionOraclePolicy)
  | plan (plan : ReductionTolerancePlan)
  | calibration (receipt : ReductionCalibrationReceipt)
  | receipt (receipt : ReductionCorrectnessReceipt)
  | corpus (corpus : ReductionCorpus)

class OracleJson where
  documentBytes : OracleDocument → List UInt8

def documentDigest [Sha256] [OracleJson] (document : OracleDocument) : Sha256Digest :=
  Sha256.digestBytes (OracleJson.documentBytes document)

def REDUCTION_ORACLE_REVISION_V1 : String := "cuda-reduction-differential-oracle-v1"

def widen (observed slackPercent : Nat) : Option Nat :=
  if 100 + slackPercent < 2 ^ 16 ∧ observed * (100 + slackPercent) / 100 < 2 ^ 32 then
    some (observed * (100 + slackPercent) / 100)
  else none

def ReductionOraclePolicy.deriveFromFloor [Sha256] [OracleJson] (floor : ReductionNoiseFloor)
    (slackPercent requiredRepetitions : Nat) : Except ReductionCorrectnessError ReductionOraclePolicy :=
  match widen floor.observedAbsoluteNanos slackPercent, widen floor.observedRelativePpb slackPercent with
  | some absoluteToleranceNanos, some relativeTolerancePpb =>
    .ok ⟨absoluteToleranceNanos, relativeTolerancePpb, requiredRepetitions,
      .measuredFloor (documentDigest (.floor floor)) slackPercent⟩
  | _, _ => .error .invalidCorpus

def ReductionTolerancePlan.derive [Sha256] [OracleJson] (plan : ReductionTolerancePlan) (floor : ReductionNoiseFloor) :
    Except ReductionCorrectnessError ReductionOraclePolicy :=
  ReductionOraclePolicy.deriveFromFloor floor plan.slackPercent plan.requiredRepetitions

section receipts

variable {run : ReductionRunReceipt} {observations : List ReductionObservation} {keys : List CaseKey}

theorem checkObservations_ok (h : checkObservations keys observations = .ok ()) :
    (∀ o ∈ observations, o.validate = .ok ()) ∧ (∀ o ∈ observations, o.key ∉ keys) ∧
      (observations.map ReductionObservation.key).Nodup := by
  induction observations generalizing keys with
  | nil => simp
  | cons o rest ih =>
    rw [checkObservations] at h
    cases hvalid : o.validate with
    | error error =>
      rw [hvalid] at h
      cases h
    | ok u =>
      rw [hvalid] at h
      change (if o.key ∈ keys then Except.error _ else checkObservations (o.key :: keys) rest) = .ok () at h
      by_cases hold : o.key ∈ keys
      · rw [if_pos hold] at h
        cases h
      · rw [if_neg hold] at h
        obtain ⟨hall, hnew, hnodup⟩ := ih h
        refine ⟨?_, ?_, ?_⟩
        · intro x hx
          rcases List.mem_cons.mp hx with rfl | hx
          · exact hvalid
          · exact hall x hx
        · intro x hx hmem
          rcases List.mem_cons.mp hx with rfl | hx
          · exact hold hmem
          · exact hnew x hx (List.mem_cons_of_mem _ hmem)
        · rw [List.map_cons, List.nodup_cons]
          refine ⟨fun hmem => ?_, hnodup⟩
          obtain ⟨x, hx, hkey⟩ := List.mem_map.mp hmem
          exact hnew x hx (hkey ▸ List.mem_cons_self)

theorem ReductionRunReceipt.output_iff (run : ReductionRunReceipt) {o : ReductionObservation}
    (ho : o ∈ run.observations) : o.status = 0 ↔ o.outputBits.isSome = true := by
  have hvalid := (checkObservations_ok run.checked).1 o ho
  unfold ReductionObservation.validate at hvalid
  split at hvalid
  · rename_i h
    exact h.2.2.1
  · cases hvalid

theorem ReductionRunReceipt.eq_of_key (run : ReductionRunReceipt) {a b : ReductionObservation}
    (ha : a ∈ run.observations) (hb : b ∈ run.observations) (hkey : a.key = b.key) : a = b :=
  List.inj_on_of_nodup_map (checkObservations_ok run.checked).2.2 ha hb hkey

theorem ReductionCorpus.new_ok {revision : String} {cases : List ReductionCorpusCase} {corpus : ReductionCorpus}
    (h : ReductionCorpus.new revision cases = .ok corpus) : (corpus.cases.map caseKey).Nodup := by
  unfold ReductionCorpus.new at h
  split at h
  · cases h
  · split at h
    · rename_i hgood
      cases h
      exact hgood.2
    · cases h

end receipts

open Binary

def failure (kind : ReductionOracleFailureKind) (caseId : Option String) (repetition : Option Nat) (detail : String) :
    ReductionOracleFailure := ⟨kind, caseId, repetition, detail⟩

def toleranceBound (expected : Number) (policy : ReductionOraclePolicy) : Number :=
  .max (.div binary64 (.ofNat policy.absoluteToleranceNanos) (.ofNat 1000000000))
    (.div binary64 (.mul binary64 expected.abs (.ofNat policy.relativeTolerancePpb)) (.ofNat 1000000000))

def withinTolerance (expected actual : Number) (policy : ReductionOraclePolicy) : Bool :=
  (Number.sub binary64 actual expected).abs.le (toleranceBound expected policy)

def keyLE (a b : CaseKey) : Prop := a.1 < b.1 ∨ a.1 = b.1 ∧ a.2 ≤ b.2

instance : DecidableRel keyLE := fun a b => inferInstanceAs (Decidable (a.1 < b.1 ∨ a.1 = b.1 ∧ a.2 ≤ b.2))

def orderedKeys (keys : List CaseKey) : List CaseKey := keys.insertionSort keyLE

def ordered (observations : List ReductionObservation) : List ReductionObservation :=
  observations.insertionSort fun a b => keyLE a.key b.key

def caseIds (observations : List ReductionObservation) : List String :=
  (observations.map ReductionObservation.caseId).dedup.insertionSort (· ≤ ·)

def repetitionsOf (observations : List ReductionObservation) (caseId : String) : List Nat :=
  ((observations.filter fun o => o.caseId = caseId).map ReductionObservation.repetition).insertionSort (· ≤ ·)

def requiredRepetitions (policy : ReductionOraclePolicy) : List Nat := List.range' 1 policy.requiredRepetitions

section outputs

variable (policy : ReductionOraclePolicy)

def compareOutputs (expected actual : ReductionObservation) : Option ReductionOracleFailure :=
  match expected.outputBits, actual.outputBits with
  | some expectedBits, some actualBits =>
    if (Number.ofBits expectedBits).isFinite = false ∨ (Number.ofBits actualBits).isFinite = false then
      some (failure .nonFiniteOutput expected.caseId expected.repetition "comparison contains a non-finite value")
    else if expectedBits = 0 ∧ actualBits ≠ 0 then
      some (failure .signedZeroMismatch expected.caseId expected.repetition
        "zero-element contract requires positive zero")
    else if withinTolerance (.ofBits expectedBits) (.ofBits actualBits) policy = false then
      some (failure .numericMismatch expected.caseId expected.repetition
        "candidate output exceeds the frozen absolute/relative tolerance")
    else none
  | _, _ =>
    if expected.status = 0 then
      some (failure .missingOutput expected.caseId expected.repetition "successful case lacks an fp32 output")
    else none

def compareCase [Sha256] (item : ReductionCorpusCase) (expected actual : ReductionObservation) :
    Option ReductionOracleFailure :=
  if expected.elements ≠ item.elements ∨ expected.inputDigest ≠ caseInputDigest item ∨
      actual.elements ≠ expected.elements ∨ actual.inputDigest ≠ expected.inputDigest then
    some (failure .observationSetMismatch expected.caseId expected.repetition "input identity differs")
  else if actual.status ≠ expected.status then
    some (failure .statusMismatch expected.caseId expected.repetition "public API status differs")
  else compareOutputs policy expected actual

def compareRepetitions (observations : List ReductionObservation) (caseId : String) : Option ReductionOracleFailure :=
  match (observations.filter fun o => o.caseId = caseId ∧ o.status = 0).filterMap fun o =>
    o.outputBits.map Number.ofBits with
  | [] => none
  | first :: rest =>
    if rest.any (fun value => !withinTolerance first value policy) = true then
      some (failure .nondeterministicOutput caseId none "repeated candidate observations disagree beyond tolerance")
    else none

end outputs

section runs

variable [Sha256] (reference candidate : ReductionRun) (policy : ReductionOraclePolicy) (corpus : ReductionCorpus)

def compareAttestations : List ReductionOracleFailure :=
  (if candidate.implementationInvoked = true then []
    else [failure .candidatePathNotInvoked none none "the generated Ascend implementation was not observed"]) ++
  if candidate.synchronized = true then []
  else [failure .missingSynchronization none none "device completion was not synchronized before observation"]

def findCase (key : CaseKey) : Option ReductionCorpusCase := corpus.cases.find? fun item => caseKey item = key

def findObservation (key : CaseKey) : Option ReductionObservation := candidate.observations.find? fun o => o.key = key

def compareKey (expected : ReductionObservation) : Option ReductionOracleFailure :=
  match findCase corpus expected.key, findObservation candidate expected.key with
  | some item, some actual => compareCase policy item expected actual
  | _, _ => none

def compareRuns : List ReductionOracleFailure :=
  if reference.implementationInvoked = false ∨ reference.synchronized = false then
    [failure .referenceNotAuthoritative none none "the CUDA authority path was not invoked and synchronized"]
  else if orderedKeys (reference.observations.map ReductionObservation.key) ≠ orderedKeys
    (corpus.cases.map caseKey) then
    compareAttestations candidate ++ [failure .observationSetMismatch none none
      "reference observations do not cover the exact frozen corpus"]
  else if orderedKeys (reference.observations.map ReductionObservation.key) ≠
      orderedKeys (candidate.observations.map ReductionObservation.key) then
    compareAttestations candidate ++ [failure .observationSetMismatch none none
      "reference and candidate observation keys differ"]
  else
    compareAttestations candidate ++
    (if (caseIds reference.observations).any (fun caseId =>
        repetitionsOf reference.observations caseId ≠ requiredRepetitions policy) = true then
      [failure .observationSetMismatch none none "the required repetition count is absent"] else []) ++
    (ordered reference.observations).filterMap (compareKey candidate policy corpus) ++
    (caseIds reference.observations).filterMap (compareRepetitions policy candidate.observations)

end runs

end AlloyPort.Oracle
