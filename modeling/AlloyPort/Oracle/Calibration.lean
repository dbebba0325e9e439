import AlloyPort.Oracle.Receipt

/-! Measuring the spread of a run, and showing that the tolerance derived from it still tells defects:
the battery of mutants of the receipt, and the reference in another order of summation. -/

namespace AlloyPort.Oracle

open Candidate Binary

section mutation

def updateFirst {α : Type} (p : α → Bool) (f : α → Option α) : List α → Option (List α)
  | [] => none
  | x :: xs => if p x = true then (f x).map (· :: xs) else (updateFirst p f xs).map (x :: ·)

def mutateOutput (mutation : Number → Number) (o : ReductionObservation) : Option ReductionObservation :=
  o.outputBits.map fun bits => { o with outputBits := some (mutation (.ofBits bits)).toBits }

def mutateValue (mutation : Number → Number) : List ReductionObservation → Option (List ReductionObservation) :=
  updateFirst (fun o => o.status = 0 ∧ o.outputBits ≠ some 0) (mutateOutput mutation)

def mutateSizedValue (elements : Nat) (mutation : Number → Number) :
    List ReductionObservation → Option (List ReductionObservation) :=
  updateFirst (fun o => o.status = 0 ∧ o.repetition = 1 ∧ o.elements = elements) (mutateOutput mutation)

def justOutside (policy : ReductionOraclePolicy) (o : ReductionObservation) : Option ReductionObservation := do
  let bits ← o.outputBits
  let value := Number.ofBits bits
  let bound := toleranceBound value policy
  let step := Number.mulAdd binary32 (bound.convert binary32) (.ofBits 0x3f866666) (.ofBits 0x34000000)
  let perturbed := (Number.add binary32 value step).toBits
  -- a tolerance below one representable step is exceeded by the next number
  let perturbed ← if perturbed = bits then if bits.toNat + 1 < 2 ^ 32 then some (bits + 1) else none else some perturbed
  if perturbed = bits ∨ (Number.ofBits perturbed).isFinite = false then none
  else some { o with outputBits := some perturbed }

def swapOutputs (observations : List ReductionObservation) : Option (List ReductionObservation) :=
  match (observations.filter fun o => o.status = 0 ∧ o.repetition = 1).take 2 with
  | [left, right] => some (observations.map fun o =>
      if o.key = left.key then { o with outputBits := right.outputBits }
      else if o.key = right.key then { o with outputBits := left.outputBits } else o)
  | _ => none

def mutateObservations (policy : ReductionOraclePolicy) (observations : List ReductionObservation) :
    ReductionMutantKind → Option (List ReductionObservation)
  | .fallbackBypass | .missingSynchronization => none
  | .arithmeticScale => mutateValue (Number.mul binary32 · (.ofBits 0x3f8ccccd)) observations
  | .boundaryMask => mutateSizedValue 257 (fun _ => .finite false 0) observations
  | .accumulationError => mutateValue (Number.add binary32 · (.ofBits 0x3c23d70a)) observations
  | .invalidStatus => updateFirst (fun o => o.status ≠ 0)
      (fun o => some { o with status := 0, outputBits := some 0 }) observations
  | .signedZero => updateFirst (fun o => o.outputBits = some 0)
      (fun o => some { o with outputBits := some 0x80000000 }) observations
  | .nonFinite => updateFirst (fun o => o.status = 0) (fun o =>
    some { o with outputBits := some 0x7f800000 }) observations
  | .nondeterminism => updateFirst (fun o => o.status = 0 ∧ o.repetition > 1)
      (mutateOutput (Number.add binary32 · (.ofBits 0x3f800000))) observations
  | .justOutsideTolerance => updateFirst (fun o => o.status = 0 ∧
    o.outputBits.isSome = true) (justOutside policy) observations
  | .indexingSwap => swapOutputs observations

def calibrationMutantId : CandidateId := ⟨"candidate-calibration-mutant", by decide⟩

def reorderedAuthorityId : CandidateId := ⟨"candidate-reordered-authority", by decide⟩

def applyMutant (run : ReductionRun) (mutant : ReductionMutantKind) (policy : ReductionOraclePolicy) :
    Option ReductionRun :=
  (mutateObservations policy run.observations mutant).map fun observations =>
    { run with role := .ascendCandidate, candidateId := some calibrationMutantId, observations := observations }

end mutation

section reordering

def outputsOf (observations : List ReductionObservation) (caseId : String) : List UInt32 :=
  (observations.filter fun o => o.caseId = caseId).filterMap ReductionObservation.outputBits

def rotateOutputs (all : List ReductionObservation) : List String → List ReductionObservation →
    List ReductionObservation
  | _, [] => []
  | consumed, o :: rest =>
    if o.outputBits = none then o :: rotateOutputs all consumed rest
    else
      let outputs := outputsOf all o.caseId
      { o with outputBits := outputs[(consumed.count o.caseId + 1) % outputs.length]? } ::
        rotateOutputs all (o.caseId :: consumed) rest

def reorderedAuthority (reference : ReductionRun) : Option ReductionRun :=
  let reordered (observations : List ReductionObservation) : ReductionRun :=
    { reference with role := .ascendCandidate, candidateId := some reorderedAuthorityId, observations := observations }
  if reference.observations.any (fun o => o.reorderOutputBits.isSome) = true then
    some (reordered (reference.observations.map fun o => { o with outputBits := o.reorderOutputBits.or o.outputBits }))
  else if (caseIds reference.observations).all (fun caseId => (outputsOf reference.observations caseId).length < 2) =
    true then
    none
  else some (reordered (rotateOutputs reference.observations [] reference.observations))

end reordering

section floor

def spread (left right : UInt32) : Except ReductionCorrectnessError (Number × Number) :=
  match Number.ofBits left, Number.ofBits right with
  | .finite x m, .finite y n =>
    let error := (Number.sub binary64 (.finite y n) (.finite x m)).abs
    .ok (error, if m = 0 then .finite false 0 else .div binary64 error (.finite false m))
  | _, _ => .error .invalidObservation

def scaleToUnits (value unitsPerOne : Number) : Nat :=
  match Number.mul binary64 value unitsPerOne with
  | .finite negative magnitude =>
    let scaled := Int.ceil (signed negative magnitude)
    if scaled ≤ 0 then 0 else if scaled ≥ 2 ^ 64 then 2 ^ 64 - 1 else scaled.toNat
  | _ => 0

structure Spread where
  absolute : Number
  relative : Number
  deterministic : Bool

def Spread.none : Spread := ⟨.finite false 0, .finite false 0, true⟩

def widenSpread : Spread → List (UInt32 × UInt32) → Except ReductionCorrectnessError Spread
  | found, [] => .ok found
  | found, (left, right) :: rest => do
    let (error, ratio) ← spread left right
    widenSpread ⟨found.absolute.max error, found.relative.max ratio, found.deterministic && left = right⟩ rest

def reorderPairs (observations : List ReductionObservation) : List (UInt32 × UInt32) :=
  observations.filterMap fun o => match o.outputBits, o.reorderOutputBits with
    | some bits, some reorderBits => some (bits, reorderBits)
    | _, _ => none

def repetitionPairs (observations : List ReductionObservation) : List (UInt32 × UInt32) :=
  (caseIds observations).flatMap fun caseId =>
    (outputsOf observations caseId).zip (outputsOf observations caseId).tail

def saturatingCount {α : Type} (items : List α) : Nat := min items.length (2 ^ 32 - 1)

variable [Sha256] [OracleJson]

def measureReductionNoiseFloor (reference : ReductionRun) (corpus : ReductionCorpus) :
    Except ReductionCorrectnessError ReductionNoiseFloor :=
  if reference.role ≠ .cudaReference then .error .referenceRoleRequired
  else if documentDigest (.corpus corpus) ≠ reference.corpusDigest then .error .experimentIdentityMismatch
  else do
    let successful := saturatingCount (reference.observations.filterMap ReductionObservation.outputBits)
    let reordered := saturatingCount (reorderPairs reference.observations)
    let repeated := saturatingCount (repetitionPairs reference.observations)
    let found ← widenSpread .none (reorderPairs reference.observations)
    if reordered ≠ 0 ∧ reordered ≠ successful then .error .noiseFloorUnavailable
    else do
      let found ← widenSpread found (repetitionPairs reference.observations)
      if repeated = 0 ∧ reordered = 0 then .error .noiseFloorUnavailable
      else return {
        corpusDigest := reference.corpusDigest
        referenceRunDigest := documentDigest (.run reference)
        observedAbsoluteNanos := scaleToUnits found.absolute (.ofNat 1000000000)
        observedRelativePpb := scaleToUnits found.relative (.ofNat 1000000000)
        repetitionPairs := repeated
        reorderPairs := reordered
        deterministic := found.deterministic }

/-- The tolerance that a plan derives from what is measured on a run, if anything is. -/
def derivedPolicy (plan : ReductionTolerancePlan) (reference : ReductionRun) (corpus : ReductionCorpus) :
    Except ReductionCorrectnessError (Option ReductionOraclePolicy) :=
  match measureReductionNoiseFloor reference corpus with
  | .error _ => .ok none
  | .ok floor => (plan.derive floor).map some

def noDerivedPolicyDigest : Sha256Digest := Sha256.digestBytes (utf8 "alloyport-reduction-no-derived-policy")

def mutantDetections (reference : ReductionRun) (corpus : ReductionCorpus) :
    Option ReductionOraclePolicy → List ReductionMutationDetection
  | none => ReductionMutantKind.all.map fun mutant => ⟨mutant, false⟩
  | some policy => ReductionMutantKind.all.map fun mutant => ⟨mutant,
      (applyMutant reference mutant policy).any fun candidate => compareRuns reference candidate policy corpus ≠ []⟩

def reorderingAdmitted (reference : ReductionRun) (corpus : ReductionCorpus) : Option ReductionOraclePolicy → Bool
  | none => false
  | some policy => (reorderedAuthority reference).any fun candidate =>
    compareRuns reference candidate policy corpus = []

def calibrateReductionOracle (reference : ReductionRun) (plan : ReductionTolerancePlan) (corpus : ReductionCorpus) :
    Except ReductionCorrectnessError ReductionCalibrationReceipt :=
  if reference.role ≠ .cudaReference then .error .referenceRoleRequired
  else if documentDigest (.corpus corpus) ≠ reference.corpusDigest then .error .experimentIdentityMismatch
  else do
    let policy ← derivedPolicy plan reference corpus
    let detections := mutantDetections reference corpus policy
    let undetected := (detections.filter fun item => !item.detected).map ReductionMutationDetection.mutant
    let admitted := reorderingAdmitted reference corpus policy
    return {
      oracleRevision := REDUCTION_ORACLE_REVISION_V1
      policyDigest := (policy.map fun derived => documentDigest (.policy derived)).getD noDerivedPolicyDigest
      corpusDigest := reference.corpusDigest
      referenceRunDigest := documentDigest (.run reference)
      batteryScope := .comparatorOnly
      noiseFloor := (measureReductionNoiseFloor reference corpus).toOption
      checks := ⟨policy.isSome, admitted⟩
      detections := detections
      undetected := undetected
      verdict := policy.isSome && admitted && undetected.isEmpty }

end floor

def ReductionOraclePolicy.tolerance (policy : ReductionOraclePolicy) (expected : ℚ) : ℚ :=
  max (policy.absoluteToleranceNanos / 10 ^ 9) (|expected| * policy.relativeTolerancePpb / 10 ^ 9)

def comparisonSlack : ℚ := 1 + 1 / 2 ^ 51

structure ReductionOraclePolicy.Fits (policy : ReductionOraclePolicy) : Prop where
  absolute : policy.absoluteToleranceNanos < 2 ^ 32
  relative : policy.relativeTolerancePpb < 2 ^ 32

def InRange (q : ℚ) : Prop := q = 0 ∨ pow2 (-200) ≤ q ∧ q ≤ pow2 200

variable {policy : ReductionOraclePolicy} {x y : Bool} {m n q d t r : ℚ}

theorem InRange.nonneg (h : InRange q) : 0 ≤ q := by
  rcases h with rfl | ⟨hlow, _⟩
  · exact le_rfl
  · exact (pow2_pos _).le.trans hlow

theorem round_bounds (h : InRange q) : q * (1 - pow2 (-53)) ≤ binary64.round q ∧
    binary64.round q ≤ q * (1 + pow2 (-53)) := by
  have hnormal : binary64.Normal q := h.imp_right fun hrange => (pow2_le (by decide)).trans hrange.1
  have hclose := abs_le.mp (round_close hnormal)
  have hprecision : pow2 (-(binary64.precision : Int)) = pow2 (-53) := rfl
  rw [hprecision] at hclose
  constructor <;> linarith

theorem unit_53 : pow2 (-53) = 1 / 2 ^ 53 := by
  rw [pow2_eq]
  norm_num

theorem ofRat_inRange (h : InRange q) : Number.ofRat binary64 false q = .finite false (binary64.round q) := by
  have hnonneg := h.nonneg
  have hhigh : q ≤ pow2 200 := by
    rcases h with rfl | ⟨_, hhigh⟩
    · exact (pow2_pos _).le
    · exact hhigh
  refine ofRat_of_nonneg hnonneg ((round_bounds h).2.trans_lt ?_)
  have hlt : pow2 200 * (1 + pow2 (-53)) < pow2 binary64.maxExponent := by
    have hdouble : pow2 200 * 2 = pow2 201 := by
      rw [show (201 : Int) = 200 + 1 by norm_num, pow2_add, pow2_eq 1, zpow_one]
    have hsmall : 1 + pow2 (-53) ≤ 2 := by
      rw [unit_53]
      norm_num
    have hmax : pow2 201 < pow2 binary64.maxExponent := by
      rw [pow2_eq, pow2_eq]
      exact zpow_lt_zpow_right₀ (by norm_num) (by decide)
    calc pow2 200 * (1 + pow2 (-53)) ≤ pow2 200 * 2 := mul_le_mul_of_nonneg_left hsmall (pow2_pos _).le
      _ = pow2 201 := hdouble
      _ < pow2 binary64.maxExponent := hmax
  have hfactor : 0 ≤ 1 + pow2 (-53) := by
    rw [unit_53]
    norm_num
  exact (mul_le_mul_of_nonneg_right hhigh hfactor).trans_lt hlt

theorem slack_of_rounded (hround : d * (1 - pow2 (-53)) ≤ r) (ht : 0 ≤ t) (h : r ≤ t * (1 + pow2 (-53)) ^ 2) :
    d ≤ comparisonSlack * t := by
  rw [unit_53] at hround h
  have hnumber : (1 + 1 / 2 ^ 53 : ℚ) ^ 2 ≤ (1 + 1 / 2 ^ 51) * (1 - 1 / 2 ^ 53) := by norm_num
  have hscaled := mul_le_mul_of_nonneg_left hnumber ht
  have hchain : d * (1 - 1 / 2 ^ 53) ≤ comparisonSlack * t * (1 - 1 / 2 ^ 53) := by
    unfold comparisonSlack
    linarith
  exact le_of_mul_le_mul_right hchain (by norm_num)

section bound

theorem inRange_units {k : Nat} (hk : k < 2 ^ 32) : InRange ((k : ℚ) / 1000000000) := by
  rcases Nat.eq_zero_or_pos k with rfl | hpos
  · exact .inl (by simp)
  · have hone : (1 : ℚ) ≤ k := by exact_mod_cast hpos
    have hlt : (k : ℚ) < 2 ^ 32 := by exact_mod_cast hk
    have hlow : pow2 (-200) ≤ 1 / 1000000000 := by
      rw [pow2_eq]
      norm_num
    have hhigh : (2 : ℚ) ^ 32 / 1000000000 ≤ pow2 200 := by
      rw [pow2_eq]
      norm_num
    refine .inr ⟨hlow.trans ?_, le_trans ?_ hhigh⟩
    · exact div_le_div_of_nonneg_right hone (by norm_num)
    · exact div_le_div_of_nonneg_right hlt.le (by norm_num)

theorem inRange_product {k : Nat} (hm : m = 0 ∨ pow2 (-149) ≤ m) (hhigh : m < pow2 128) (hk : k < 2 ^ 32) :
    m * k = 0 ∨ pow2 (-149) ≤ m * k ∧ m * k ≤ pow2 160 := by
  rcases hm with rfl | hlow
  · exact .inl (zero_mul _)
  · rcases Nat.eq_zero_or_pos k with rfl | hpos
    · exact .inl (by simp)
    · have hone : (1 : ℚ) ≤ k := by exact_mod_cast hpos
      have hlt : (k : ℚ) ≤ pow2 32 := by
        have hpow : pow2 32 = ((2 ^ 32 : Nat) : ℚ) := rfl
        rw [hpow]
        exact_mod_cast hk.le
      have hmpos := (pow2_pos (-149)).trans_le hlow
      have hsum : pow2 128 * pow2 32 = pow2 160 := by
        rw [← pow2_add]
        rfl
      refine .inr ⟨hlow.trans (le_mul_of_one_le_right hmpos.le hone), ?_⟩
      rw [← hsum]
      exact mul_le_mul hhigh.le hlt (by positivity) (pow2_pos _).le

theorem InRange.of_product (h : q = 0 ∨ pow2 (-149) ≤ q ∧ q ≤ pow2 160) : InRange q :=
  h.imp_right fun hrange => ⟨(pow2_le (by decide)).trans hrange.1, hrange.2.trans (pow2_le (by decide))⟩

theorem inRange_quotient (h : q = 0 ∨ pow2 (-149) ≤ q ∧ q ≤ pow2 160) : InRange (binary64.round q / 1000000000) := by
  have hbounds := round_bounds (.of_product h)
  rw [unit_53] at hbounds
  rcases h with rfl | ⟨hlow, hhigh⟩
  · exact .inl (by simp [Format.round])
  · have hqpos := (pow2_pos (-149)).trans_le hlow
    have hscale : pow2 (-200) ≤ pow2 (-149) * (1 - 1 / 2 ^ 53) / 1000000000 := by
      simp only [pow2_eq]
      norm_num
    have hscale' : pow2 160 * (1 + 1 / 2 ^ 53) / 1000000000 ≤ pow2 200 := by
      simp only [pow2_eq]
      norm_num
    have hlow' := mul_le_mul_of_nonneg_right hlow (show (0 : ℚ) ≤ 1 - 1 / 2 ^ 53 by norm_num)
    have hhigh' := mul_le_mul_of_nonneg_right hhigh (show (0 : ℚ) ≤ 1 + 1 / 2 ^ 53 by norm_num)
    refine .inr ⟨hscale.trans ?_, le_trans ?_ hscale'⟩
    · exact div_le_div_of_nonneg_right (hlow'.trans hbounds.1) (by norm_num)
    · exact div_le_div_of_nonneg_right (hbounds.2.trans hhigh') (by norm_num)

theorem toleranceBound_finite (hfits : policy.Fits) (hm : m = 0 ∨ pow2 (-149) ≤ m) (hhigh : m < pow2 128) :
    ∃ b, toleranceBound (.finite x m) policy = .finite false b ∧ 0 ≤ b ∧
      b ≤ max ((policy.absoluteToleranceNanos : ℚ) / 10 ^ 9) (m * policy.relativeTolerancePpb / 10 ^ 9) *
        (1 + pow2 (-53)) ^ 2 := by
  have hproduct := inRange_product hm hhigh hfits.relative
  have hunits := inRange_units hfits.absolute
  have hquotient := inRange_quotient hproduct
  have hbillion : ((1000000000 : Nat) : ℚ) = 1000000000 := by norm_num
  have habsolute : Number.div binary64 (.ofNat policy.absoluteToleranceNanos) (.ofNat 1000000000) =
      .finite false (binary64.round (policy.absoluteToleranceNanos / 1000000000)) := by
    simp only [Number.ofNat, Number.div, hbillion, signed, Bool.false_eq_true, if_false, Bool.xor_self]
    rw [if_neg (by norm_num)]
    exact ofRat_inRange hunits
  have hrelative : Number.div binary64 (.mul binary64 (Number.finite x m).abs (.ofNat policy.relativeTolerancePpb))
      (.ofNat 1000000000) = .finite false (binary64.round
        (binary64.round (m * policy.relativeTolerancePpb) / 1000000000)) := by
    simp only [Number.abs, Number.ofNat, Number.mul, signed, Bool.false_eq_true, if_false, Bool.xor_self]
    rw [ofRat_inRange (.of_product hproduct)]
    simp only [Number.div, hbillion, signed, Bool.false_eq_true, if_false, Bool.xor_self]
    rw [if_neg (by norm_num)]
    exact ofRat_inRange hquotient
  refine ⟨_, by rw [toleranceBound, habsolute, hrelative, max_finite],
    le_max_of_le_left (round_nonneg hunits.nonneg), ?_⟩
  have hpower : (1 : ℚ) ≤ 1 + pow2 (-53) := by
    rw [unit_53]
    norm_num
  have hsquare : 1 + pow2 (-53) ≤ (1 + pow2 (-53)) ^ 2 := by
    rw [sq]
    exact le_mul_of_one_le_left (by linarith) hpower
  have hbound := (round_bounds hunits).2
  have hfirst := (round_bounds (.of_product hproduct)).2
  have hsecond := (round_bounds hquotient).2
  have hunitsPos := hunits.nonneg
  rw [show (10 : ℚ) ^ 9 = 1000000000 by norm_num]
  refine max_le ?_ ?_
  · calc binary64.round (policy.absoluteToleranceNanos / 1000000000)
        ≤ policy.absoluteToleranceNanos / 1000000000 * (1 + pow2 (-53)) := hbound
      _ ≤ policy.absoluteToleranceNanos / 1000000000 * (1 + pow2 (-53)) ^ 2 :=
        mul_le_mul_of_nonneg_left hsquare hunitsPos
      _ ≤ _ := mul_le_mul_of_nonneg_right (le_max_left _ _) (by positivity)
  · calc binary64.round (binary64.round (m * policy.relativeTolerancePpb) / 1000000000)
        ≤ binary64.round (m * policy.relativeTolerancePpb) / 1000000000 * (1 + pow2 (-53)) := hsecond
      _ ≤ m * policy.relativeTolerancePpb * (1 + pow2 (-53)) / 1000000000 * (1 + pow2 (-53)) :=
        mul_le_mul_of_nonneg_right (div_le_div_of_nonneg_right hfirst (by norm_num)) (by linarith)
      _ = m * policy.relativeTolerancePpb / 1000000000 * (1 + pow2 (-53)) ^ 2 := by ring
      _ ≤ _ := mul_le_mul_of_nonneg_right (le_max_right _ _) (by positivity)

end bound

section comparison

variable {expectedBits actualBits : UInt32}

theorem inRange_difference (hx : Number.ofBits expectedBits = .finite x m)
    (hy : Number.ofBits actualBits = .finite y n) : InRange |signed y n - signed x m| := by
  obtain ⟨⟨k, hk⟩, hmHigh⟩ := ofBits_finite hx
  obtain ⟨⟨l, hl⟩, hnHigh⟩ := ofBits_finite hy
  have hunit := pow2_pos (-149)
  have hmultiple : ∃ z : Int, signed y n - signed x m = z * pow2 (-149) := by
    refine ⟨(if y then -(l : Int) else l) - (if x then -(k : Int) else k), ?_⟩
    cases x <;> cases y <;> simp only [signed, hk, hl, Bool.false_eq_true, if_false, if_true] <;> push_cast <;> ring
  obtain ⟨z, hz⟩ := hmultiple
  have hm0 : 0 ≤ m := by
    rw [hk]
    positivity
  have hn0 : 0 ≤ n := by
    rw [hl]
    positivity
  have hsigned : ∀ (s : Bool) (v : ℚ), 0 ≤ v → |signed s v| = v := by
    intro s v hv
    cases s <;> simp [signed, abs_of_nonneg hv]
  have hsum : |signed y n - signed x m| ≤ pow2 200 := by
    have htriangle := abs_sub (signed y n) (signed x m)
    rw [hsigned y n hn0, hsigned x m hm0] at htriangle
    have hdouble : pow2 128 + pow2 128 ≤ pow2 200 := by
      simp only [pow2_eq]
      norm_num
    linarith
  by_cases hzero : z = 0
  · left
    rw [hz, hzero]
    simp
  · right
    have hone : (1 : ℚ) ≤ |(z : ℚ)| := by exact_mod_cast Int.one_le_abs hzero
    refine ⟨?_, hsum⟩
    rw [hz, abs_mul, abs_of_pos hunit]
    calc pow2 (-200) ≤ pow2 (-149) := pow2_le (by decide)
      _ ≤ |(z : ℚ)| * pow2 (-149) := le_mul_of_one_le_left hunit.le hone

theorem withinTolerance_near (hfits : policy.Fits) (hx : Number.ofBits expectedBits = .finite x m)
    (hy : Number.ofBits actualBits = .finite y n)
    (h : withinTolerance (.ofBits expectedBits) (.ofBits actualBits) policy = true) :
    |signed y n - signed x m| ≤ comparisonSlack * policy.tolerance (signed x m) := by
  obtain ⟨⟨k, hk⟩, hmHigh⟩ := ofBits_finite hx
  have hmLow : m = 0 ∨ pow2 (-149) ≤ m := by
    rcases Nat.eq_zero_or_pos k with rfl | hpos
    · exact .inl (by simp [hk])
    · have hone : (1 : ℚ) ≤ k := by exact_mod_cast hpos
      rw [hk]
      exact .inr (le_mul_of_one_le_left (pow2_pos _).le hone)
  have hm0 : 0 ≤ m := by
    rcases hmLow with rfl | hlow
    · exact le_rfl
    · exact (pow2_pos _).le.trans hlow
  have habs : |signed x m| = m := by
    cases x <;> simp [signed, abs_of_nonneg hm0]
  obtain ⟨b, hbound, _, hclose⟩ := toleranceBound_finite (x := x) hfits hmLow hmHigh
  rw [withinTolerance, hx, hy, hbound] at h
  have hrounded := (abs_sub_le h).trans hclose
  have ht : 0 ≤ policy.tolerance (signed x m) := le_max_of_le_left (by positivity)
  refine slack_of_rounded (round_bounds (inRange_difference hx hy)).1 ht ?_
  rw [ReductionOraclePolicy.tolerance, habs]
  exact hrounded

end comparison

end AlloyPort.Oracle
