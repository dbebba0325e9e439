import AlloyPort.Oracle.Evaluation

/-! What a reference has to be for its spread to be measured, and for the tolerance derived from it to fit
its representation: then, and only then, the oracle judges. -/

namespace AlloyPort.Oracle

open Candidate Binary

def BILLION_UNITS : Number := .ofNat 1000000000

def comparedPairs (observations : List ReductionObservation) : List (UInt32 × UInt32) :=
  reorderPairs observations ++ repetitionPairs observations

/-- Something is compared, in every case that is compared in another order, and it is numbers. -/
structure Measurable (observations : List ReductionObservation) : Prop where
  nonempty : comparedPairs observations ≠ []
  covered : reorderPairs observations ≠ [] → saturatingCount (reorderPairs observations) =
    saturatingCount (observations.filterMap ReductionObservation.outputBits)
  finite : ∀ pair ∈ comparedPairs observations,
    (Number.ofBits pair.1).isFinite = true ∧ (Number.ofBits pair.2).isFinite = true

def PairFits (slackPercent : Nat) (pair : UInt32 × UInt32) : Prop :=
  match spread pair.1 pair.2 with
  | .ok (distance, ratio) => widen (scaleToUnits distance BILLION_UNITS) slackPercent ≠ none ∧
      widen (scaleToUnits ratio BILLION_UNITS) slackPercent ≠ none
  | .error _ => True

instance (slackPercent : Nat) (pair : UInt32 × UInt32) : Decidable (PairFits slackPercent pair) :=
  match h : spread pair.1 pair.2 with
  | .ok (distance, ratio) =>
    decidable_of_iff (widen (scaleToUnits distance BILLION_UNITS) slackPercent ≠ none ∧
      widen (scaleToUnits ratio BILLION_UNITS) slackPercent ≠ none) (by rw [PairFits, h])
  | .error _ => .isTrue (by rw [PairFits, h]; trivial)

section units

variable {slackPercent m n : Nat} {p q : ℚ}

theorem widen_ne_none_mono (h : m ≤ n) (hn : widen n slackPercent ≠ none) : widen m slackPercent ≠ none := by
  have hscaled : m * (100 + slackPercent) / 100 ≤ n * (100 + slackPercent) / 100 :=
    Nat.div_le_div_right (Nat.mul_le_mul_right _ h)
  by_cases hfits : 100 + slackPercent < 2 ^ 16 ∧ n * (100 + slackPercent) / 100 < 2 ^ 32
  · rw [widen, if_pos ⟨hfits.1, hscaled.trans_lt hfits.2⟩]
    exact Option.some_ne_none _
  · rw [widen, if_neg hfits] at hn
    exact absurd rfl hn

/-- What a pair of numbers of `binary32` can be apart, relatively or not. -/
def Spreads (q : ℚ) : Prop := 0 ≤ q ∧ q ≤ pow2 300

theorem Spreads.max (hp : Spreads p) (hq : Spreads q) : Spreads (max p q) :=
  ⟨le_max_of_le_left hp.1, max_le hp.2 hq.2⟩

theorem scaled_below (hq : Spreads q) : q * 1000000000 ≤ pow2 330 := by
  have hsum : pow2 330 = pow2 300 * pow2 30 := by rw [← pow2_add]; rfl
  have hbillion : (1000000000 : ℚ) ≤ pow2 30 := by
    rw [pow2_eq]
    norm_num
  rw [hsum]
  exact mul_le_mul hq.2 hbillion (by norm_num) (pow2_pos _).le

theorem scaleToUnits_eq (hq : Spreads q) : scaleToUnits (.finite false q) BILLION_UNITS =
    min (⌈binary64.round (q * 1000000000)⌉.toNat) (2 ^ 64 - 1) := by
  have hnonneg : 0 ≤ q * 1000000000 := mul_nonneg hq.1 (by norm_num)
  have hround : binary64.round (q * 1000000000) < pow2 binary64.maxExponent := by
    refine (round_le_of_le (by decide) (by decide) hnonneg (scaled_below hq)).trans_lt ?_
    rw [pow2_eq, pow2_eq]
    exact zpow_lt_zpow_right₀ (by norm_num) (by decide)
  have hmul : Number.mul binary64 (.finite false q) BILLION_UNITS =
    .finite false (binary64.round (q * 1000000000)) := by
    have hbillion : ((1000000000 : Nat) : ℚ) = 1000000000 := by norm_num
    simp only [BILLION_UNITS, Number.ofNat, Number.mul, signed, Bool.false_eq_true, if_false, Bool.xor_self, hbillion]
    exact ofRat_of_nonneg hnonneg hround
  rw [scaleToUnits, hmul]
  simp only [signed, Bool.false_eq_true, if_false]
  have hceil : (0 : Int) ≤ ⌈binary64.round (q * 1000000000)⌉ := Int.ceil_nonneg (round_nonneg hnonneg)
  generalize ⌈binary64.round (q * 1000000000)⌉ = scaled at hceil
  split
  · omega
  · split <;> omega

theorem scaleToUnits_mono (hp : Spreads p) (hq : Spreads q) (h : p ≤ q) :
    scaleToUnits (.finite false p) BILLION_UNITS ≤ scaleToUnits (.finite false q) BILLION_UNITS := by
  have hscaled : p * 1000000000 ≤ q * 1000000000 := mul_le_mul_of_nonneg_right h (by norm_num)
  have hround : binary64.round (p * 1000000000) ≤ binary64.round (q * 1000000000) :=
    round_mono (by decide) (mul_nonneg hp.1 (by norm_num)) hscaled
  have hceil := Int.toNat_le_toNat (Int.ceil_mono hround)
  rw [scaleToUnits_eq hp, scaleToUnits_eq hq]
  exact min_le_min_right _ hceil

theorem widen_max (hp : Spreads p) (hq : Spreads q) :
    widen (scaleToUnits (.finite false (max p q)) BILLION_UNITS) slackPercent ≠ none ↔
      widen (scaleToUnits (.finite false p) BILLION_UNITS) slackPercent ≠ none ∧
      widen (scaleToUnits (.finite false q) BILLION_UNITS) slackPercent ≠ none := by
  constructor
  · intro h
    exact ⟨widen_ne_none_mono (scaleToUnits_mono hp (hp.max hq) (le_max_left _ _)) h,
      widen_ne_none_mono (scaleToUnits_mono hq (hp.max hq) (le_max_right _ _)) h⟩
  · rintro ⟨hfirst, hsecond⟩
    rcases max_choice p q with heq | heq <;> rw [heq]
    · exact hfirst
    · exact hsecond

end units

section spreads

variable {left right : UInt32} {x y : Bool} {m n : ℚ}

theorem spread_finite (hleft : Number.ofBits left = .finite x m) (hright : Number.ofBits right = .finite y n) :
    ∃ distance ratio, spread left right = .ok (.finite false distance, .finite false ratio) ∧ Spreads distance ∧
      Spreads ratio := by
  obtain ⟨⟨k, hk⟩, hmHigh⟩ := ofBits_finite hleft
  obtain ⟨⟨l, hl⟩, hnHigh⟩ := ofBits_finite hright
  have hm0 : 0 ≤ m := by
    rw [hk]
    exact mul_nonneg (Nat.cast_nonneg k) (pow2_pos _).le
  have hn0 : 0 ≤ n := by
    rw [hl]
    exact mul_nonneg (Nat.cast_nonneg l) (pow2_pos _).le
  have hsum : |signed y n + signed (!x) m| ≤ pow2 129 := by
    have hdouble : pow2 129 = pow2 128 + pow2 128 := by
      rw [show (129 : Int) = 128 + 1 by norm_num, pow2_add, pow2_eq 1, zpow_one]
      ring
    have hsigned : ∀ (s : Bool) (v : ℚ), 0 ≤ v → |signed s v| = v := by
      intro s v hv
      cases s <;> simp [signed, abs_of_nonneg hv]
    have htriangle := abs_add_le (signed y n) (signed (!x) m)
    rw [hsigned y n hn0, hsigned (!x) m hm0] at htriangle
    linarith
  have hdistance : binary64.round |signed y n + signed (!x) m| ≤ pow2 129 :=
    round_le_of_le (by decide) (by decide) (abs_nonneg _) hsum
  have hpositive : 0 ≤ binary64.round |signed y n + signed (!x) m| := round_nonneg (abs_nonneg _)
  have hlarge : pow2 129 < pow2 binary64.maxExponent := by
    rw [pow2_eq, pow2_eq]
    exact zpow_lt_zpow_right₀ (by norm_num) (by decide)
  have herror : (Number.sub binary64 (.finite y n) (.finite x m)).abs =
      .finite false (binary64.round |signed y n + signed (!x) m|) := by
    simp only [Number.sub, Number.neg, Number.add, Number.ofRat, if_pos (hdistance.trans_lt hlarge), Number.abs]
  have hspreads : Spreads (binary64.round |signed y n + signed (!x) m|) :=
    ⟨hpositive, hdistance.trans (pow2_le (by decide))⟩
  by_cases hzero : m = 0
  · refine ⟨_, 0, ?_, hspreads, le_rfl, (pow2_pos _).le⟩
    simp only [spread, hleft, hright, herror, if_pos hzero]
  · have hone : (1 : ℚ) ≤ k := by
      have hk0 : k ≠ 0 := by
        rintro rfl
        exact hzero (by rw [hk]; simp)
      exact_mod_cast Nat.one_le_iff_ne_zero.mpr hk0
    have hmLow : pow2 (-149) ≤ m := by
      rw [hk]
      exact le_mul_of_one_le_left (pow2_pos _).le hone
    have hquotient : binary64.round |signed y n + signed (!x) m| / m ≤ pow2 278 := by
      rw [div_le_iff₀ ((pow2_pos _).trans_le hmLow)]
      refine hdistance.trans ?_
      have hproduct : pow2 129 = pow2 278 * pow2 (-149) := by rw [← pow2_add]; rfl
      rw [hproduct]
      exact mul_le_mul_of_nonneg_left hmLow (pow2_pos _).le
    have hnonneg := div_nonneg hpositive hm0
    have hratio : binary64.round (binary64.round |signed y n + signed (!x) m| / m) ≤ pow2 278 :=
      round_le_of_le (by decide) (by decide) hnonneg hquotient
    have hbelow : pow2 278 < pow2 binary64.maxExponent := by
      rw [pow2_eq, pow2_eq]
      exact zpow_lt_zpow_right₀ (by norm_num) (by decide)
    have hdivided := ofRat_of_nonneg hnonneg (hratio.trans_lt hbelow)
    refine ⟨_, _, ?_, hspreads, round_nonneg hnonneg, hratio.trans (pow2_le (by decide))⟩
    rw [spread, hleft, hright]
    simp only [herror, if_neg hzero]
    generalize binary64.round |signed y n + signed (!x) m| = distance at hdivided
    rw [← hdivided]
    simp only [Number.div, if_neg hzero, signed, Bool.false_eq_true, if_false, Bool.xor_self]

theorem spread_error (h : ¬((Number.ofBits left).isFinite = true ∧ (Number.ofBits right).isFinite = true)) :
    spread left right = .error .invalidObservation := by
  unfold spread
  split
  · rename_i hleft hright
    rw [hleft, hright] at h
    exact absurd ⟨rfl, rfl⟩ h
  · rfl

end spreads

section floor

variable {slackPercent : Nat} {found found' : Spread} {pairs rest : List (UInt32 × UInt32)}

theorem widenSpread_append : widenSpread found (pairs ++ rest) =
    (widenSpread found pairs).bind fun found => widenSpread found rest := by
  induction pairs generalizing found with
  | nil => rfl
  | cons pair pairs ih =>
    simp only [List.cons_append, widenSpread]
    cases spread pair.1 pair.2 with
    | error error => rfl
    | ok measured => exact ih

structure Spread.Measured (found : Spread) (distance ratio : ℚ) : Prop where
  absolute : found.absolute = .finite false distance
  relative : found.relative = .finite false ratio
  distance : Spreads distance
  ratio : Spreads ratio

def Spread.Fits (slackPercent : Nat) (found : Spread) : Prop :=
  widen (scaleToUnits found.absolute BILLION_UNITS) slackPercent ≠ Option.none ∧
    widen (scaleToUnits found.relative BILLION_UNITS) slackPercent ≠ Option.none

theorem widenSpread_measures (slackPercent : Nat) {absolute relative : ℚ} (hfound : found.Measured absolute relative)
    (hfinite : ∀ pair ∈ pairs, (Number.ofBits pair.1).isFinite = true ∧ (Number.ofBits pair.2).isFinite = true) :
    ∃ found', widenSpread found pairs = .ok found' ∧ (∃ absolute relative, found'.Measured absolute relative) ∧
      (found'.Fits slackPercent ↔ found.Fits slackPercent ∧ ∀ pair ∈ pairs, PairFits slackPercent pair) := by
  induction pairs generalizing found absolute relative with
  | nil => exact ⟨found, rfl, ⟨_, _, hfound⟩, by simp⟩
  | cons pair pairs ih =>
    obtain ⟨hleft, hright⟩ := hfinite pair List.mem_cons_self
    obtain ⟨x, m, hm⟩ := Number.finite_of_isFinite hleft
    obtain ⟨y, n, hn⟩ := Number.finite_of_isFinite hright
    obtain ⟨distance, ratio, hspread, hdistance, hratio⟩ := spread_finite hm hn
    have hnext : Spread.Measured ⟨found.absolute.max (.finite false distance), found.relative.max (.finite false ratio),
        found.deterministic && pair.1 = pair.2⟩ (max absolute distance) (max relative ratio) := by
      refine ⟨?_, ?_, hfound.distance.max hdistance, hfound.ratio.max hratio⟩
      · exact (congrArg (Number.max · _) hfound.absolute).trans (max_finite _ _)
      · exact (congrArg (Number.max · _) hfound.relative).trans (max_finite _ _)
    obtain ⟨found', hwiden, hmeasured, hfits⟩ := ih hnext fun pair hpair => hfinite pair (List.mem_cons_of_mem _ hpair)
    have hpair : PairFits slackPercent pair ↔
        widen (scaleToUnits (.finite false distance) BILLION_UNITS) slackPercent ≠ none ∧
        widen (scaleToUnits (.finite false ratio) BILLION_UNITS) slackPercent ≠ none := by
      rw [PairFits, hspread]
    refine ⟨found', ?_, hmeasured, ?_⟩
    · simp only [widenSpread, hspread]
      exact hwiden
    · rw [hfits, List.forall_mem_cons, hpair]
      simp only [Spread.Fits, hfound.absolute, hfound.relative, max_finite, widen_max hfound.distance hdistance,
        widen_max hfound.ratio hratio]
      tauto

theorem widenSpread_finite (h : widenSpread found pairs = .ok found') :
    ∀ pair ∈ pairs, (Number.ofBits pair.1).isFinite = true ∧ (Number.ofBits pair.2).isFinite = true := by
  induction pairs generalizing found with
  | nil => simp
  | cons pair pairs ih =>
    by_cases hfinite : (Number.ofBits pair.1).isFinite = true ∧ (Number.ofBits pair.2).isFinite = true
    · obtain ⟨measured, _, hrest⟩ := Effect.bind_eq_ok.mp h
      exact List.forall_mem_cons.mpr ⟨hfinite, ih hrest⟩
    · simp only [widenSpread, spread_error hfinite] at h
      cases h

theorem none_measured : Spread.none.Measured 0 0 :=
  ⟨rfl, rfl, ⟨le_rfl, (pow2_pos _).le⟩, ⟨le_rfl, (pow2_pos _).le⟩⟩

theorem none_fits {pair : UInt32 × UInt32}
    (hfinite : (Number.ofBits pair.1).isFinite = true ∧ (Number.ofBits pair.2).isFinite = true)
    (h : PairFits slackPercent pair) : Spread.none.Fits slackPercent := by
  obtain ⟨x, m, hm⟩ := Number.finite_of_isFinite hfinite.1
  obtain ⟨y, n, hn⟩ := Number.finite_of_isFinite hfinite.2
  obtain ⟨distance, ratio, hspread, hdistance, hratio⟩ := spread_finite hm hn
  rw [PairFits, hspread] at h
  obtain ⟨habsolute, hrelative⟩ := h
  exact ⟨widen_ne_none_mono (scaleToUnits_mono none_measured.distance hdistance hdistance.1) habsolute,
    widen_ne_none_mono (scaleToUnits_mono none_measured.ratio hratio hratio.1) hrelative⟩

theorem saturatingCount_eq_zero {α : Type} {items : List α} : saturatingCount items = 0 ↔ items = [] := by
  rw [saturatingCount, ← List.length_eq_zero_iff]
  omega

end floor

section judging

variable [Sha256] [OracleJson] {run : ReductionRun} {reference candidate : ReductionRunReceipt}
  {experiment : ReductionCorrectnessExperiment} {plan : ReductionTolerancePlan} {corpus : ReductionCorpus}
  {floor : ReductionNoiseFloor} {slackPercent : Nat}

theorem measurable_of_ok (h : measureReductionNoiseFloor run corpus = .ok floor) : Measurable run.observations := by
  unfold measureReductionNoiseFloor at h
  split at h
  · cases h
  · split at h
    · cases h
    · obtain ⟨found, hreorder, h⟩ := Effect.bind_eq_ok.mp h
      by_cases hpartial : saturatingCount (reorderPairs run.observations) ≠ 0 ∧
          saturatingCount (reorderPairs run.observations) ≠
            saturatingCount (run.observations.filterMap ReductionObservation.outputBits)
      · rw [if_pos hpartial] at h
        cases h
      · rw [if_neg hpartial] at h
        obtain ⟨found', hrepeat, h⟩ := Effect.bind_eq_ok.mp h
        by_cases hempty : saturatingCount (repetitionPairs run.observations) = 0 ∧
            saturatingCount (reorderPairs run.observations) = 0
        · rw [if_pos hempty] at h
          cases h
        · refine ⟨?_, ?_, ?_⟩
          · intro hnone
            obtain ⟨hreorders, hrepeats⟩ := List.append_eq_nil_iff.mp hnone
            exact hempty ⟨saturatingCount_eq_zero.mpr hrepeats, saturatingCount_eq_zero.mpr hreorders⟩
          · intro hsome
            by_contra hdiffers
            exact hpartial ⟨fun hzero => hsome (saturatingCount_eq_zero.mp hzero), hdiffers⟩
          · intro pair hpair
            rcases List.mem_append.mp hpair with hpair | hpair
            · exact widenSpread_finite hreorder pair hpair
            · exact widenSpread_finite hrepeat pair hpair

theorem measured_fits_iff (slackPercent : Nat) (hrole : run.role = .cudaReference)
    (hcorpus : documentDigest (.corpus corpus) = run.corpusDigest) (hmeasurable : Measurable run.observations) :
    ∃ floor, measureReductionNoiseFloor run corpus = .ok floor ∧
      (widen floor.observedAbsoluteNanos slackPercent ≠ none ∧ widen floor.observedRelativePpb slackPercent ≠ none ↔
        ∀ pair ∈ comparedPairs run.observations, PairFits slackPercent pair) := by
  obtain ⟨found', hwiden, _, hfits⟩ := widenSpread_measures slackPercent none_measured hmeasurable.finite
  have hall : found'.Fits slackPercent ↔ ∀ pair ∈ comparedPairs run.observations, PairFits slackPercent pair := by
    rw [hfits]
    refine and_iff_right_of_imp fun hpairs => ?_
    obtain ⟨pair, hpair⟩ := List.exists_mem_of_ne_nil _ hmeasurable.nonempty
    exact none_fits (hmeasurable.finite pair hpair) (hpairs pair hpair)
  rw [comparedPairs, widenSpread_append] at hwiden
  obtain ⟨found, hreorder, hrepeat⟩ := Effect.bind_eq_ok.mp hwiden
  have hpartial : ¬(saturatingCount (reorderPairs run.observations) ≠ 0 ∧
      saturatingCount (reorderPairs run.observations) ≠
        saturatingCount (run.observations.filterMap ReductionObservation.outputBits)) := by
    rintro ⟨hsome, hdiffers⟩
    exact hdiffers (hmeasurable.covered fun hnone => hsome (saturatingCount_eq_zero.mpr hnone))
  have hempty : ¬(saturatingCount (repetitionPairs run.observations) = 0 ∧
      saturatingCount (reorderPairs run.observations) = 0) := by
    rintro ⟨hrepeats, hreorders⟩
    exact hmeasurable.nonempty (List.append_eq_nil_iff.mpr
      ⟨saturatingCount_eq_zero.mp hreorders, saturatingCount_eq_zero.mp hrepeats⟩)
  refine ⟨⟨run.corpusDigest, documentDigest (.run run), scaleToUnits found'.absolute BILLION_UNITS,
    scaleToUnits found'.relative BILLION_UNITS, saturatingCount (repetitionPairs run.observations),
    saturatingCount (reorderPairs run.observations), found'.deterministic⟩, ?_, hall⟩
  rw [measureReductionNoiseFloor, if_neg (not_not.mpr hrole), if_neg (not_not.mpr hcorpus)]
  refine Effect.bind_eq_ok.mpr ⟨found, hreorder, ?_⟩
  rw [if_neg hpartial]
  refine Effect.bind_eq_ok.mpr ⟨found', hrepeat, ?_⟩
  rw [if_neg hempty]
  rfl

theorem spreadFits_iff (hrole : run.role = .cudaReference)
    (hcorpus : documentDigest (.corpus corpus) = run.corpusDigest) : SpreadFits plan run corpus ↔
      (Measurable run.observations → ∀ pair ∈ comparedPairs run.observations, PairFits plan.slackPercent pair) := by
  constructor
  · intro hfits hmeasurable
    obtain ⟨floor, hfloor, hiff⟩ := measured_fits_iff plan.slackPercent hrole hcorpus hmeasurable
    exact hiff.mp (hfits floor hfloor)
  · intro hpairs floor hfloor
    have hmeasurable := measurable_of_ok hfloor
    obtain ⟨floor', hfloor', hiff⟩ := measured_fits_iff plan.slackPercent hrole hcorpus hmeasurable
    cases hfloor.symm.trans hfloor'
    exact hiff.mpr (hpairs hmeasurable)

theorem uncalibrated_unverifiable {calibration : ReductionCalibrationReceipt} {receipt : ReductionCorrectnessReceipt}
    (h : evaluateReductionCorrectness experiment reference.toReductionRun candidate.toReductionRun plan corpus
      calibration = .ok receipt) (hpassed : calibration.passed = false) : receipt.verdict = .unverifiable := by
  unfold evaluateReductionCorrectness at h
  obtain ⟨_, _, h⟩ := Effect.bind_eq_ok.mp h
  obtain ⟨policy, _, h⟩ := Effect.bind_eq_ok.mp h
  cases h
  have huncalibrated : isCalibrated experiment reference.toReductionRun calibration policy = false := by
    simp [isCalibrated, hpassed]
  simp only [huncalibrated, judge]

/-- The calibration and the judgement of runs that are bound to an experiment give a verdict just where the
distances of the compared outputs of the reference fit, and evidence that is not calibrated is unverifiable. -/
theorem oracle_returns_verdict_iff
    (hbound : validateExperimentRuns experiment reference.toReductionRun candidate.toReductionRun plan corpus =
      .ok ()) :
    (∃ calibration receipt, calibrateReductionOracle reference.toReductionRun plan corpus = .ok calibration ∧
      evaluateReductionCorrectness experiment reference.toReductionRun candidate.toReductionRun plan corpus
        calibration = .ok receipt ∧ (calibration.passed = false → receipt.verdict = .unverifiable)) ↔
      (Measurable reference.observations →
        ∀ pair ∈ comparedPairs reference.observations, PairFits plan.slackPercent pair) := by
  have hfacts := hbound
  unfold validateExperimentRuns at hfacts
  split at hfacts
  · cases hfacts
  · rename_i hall
    simp only [not_or, not_not] at hall
    have hrole : reference.role = .cudaReference := hall.1
    have hcorpus : documentDigest (.corpus corpus) = reference.corpusDigest := by
      obtain ⟨_, _, _, _, _, hreference, _, _, hcorpus⟩ := hall
      exact hcorpus.trans hreference.symm
    rw [← spreadFits_iff hrole hcorpus, ← oracle_judges_iff hrole hcorpus hbound]
    constructor
    · rintro ⟨calibration, receipt, hcalibrated, hjudged, _⟩
      exact ⟨calibration, receipt, hcalibrated, hjudged⟩
    · rintro ⟨calibration, receipt, hcalibrated, hjudged⟩
      exact ⟨calibration, receipt, hcalibrated, hjudged, uncalibrated_unverifiable hjudged⟩

end judging

section sample

attribute [local instance] transparentSha256 sampleOracleJson

theorem oracle_returns_verdict_sample :
    ∃ calibration receipt, calibrateReductionOracle sampleReference.toReductionRun samplePlan sampleCorpus =
      .ok calibration ∧
      evaluateReductionCorrectness sampleExperiment sampleReference.toReductionRun sampleCandidate.toReductionRun
        samplePlan
        sampleCorpus calibration = .ok receipt ∧ (calibration.passed = false → receipt.verdict = .unverifiable) :=
  (oracle_returns_verdict_iff (by decide)).mpr fun _ pair hpair => by
    have hall : (comparedPairs sampleReference.observations).all (fun pair => PairFits samplePlan.slackPercent pair) =
      true := by
      decide +kernel
    exact of_decide_eq_true (List.all_eq_true.mp hall pair hpair)

def wideReference : ReductionRunReceipt :=
  ⟨sampleRun .cudaReference none
    [some 0x3f800000, some 0x41100000, some 0, some 0, some 0x29ef9422, some 0x29ef9422, none, none, none, none],
    by decide, by decide, by decide⟩

theorem wide_spread_is_an_error :
    validateExperimentRuns sampleExperiment wideReference.toReductionRun sampleCandidate.toReductionRun samplePlan
      sampleCorpus = .ok () ∧
    calibrateReductionOracle wideReference.toReductionRun samplePlan sampleCorpus = .error .invalidCorpus ∧
    ¬∃ calibration receipt, calibrateReductionOracle wideReference.toReductionRun samplePlan sampleCorpus =
      .ok calibration ∧
      evaluateReductionCorrectness sampleExperiment wideReference.toReductionRun sampleCandidate.toReductionRun
        samplePlan
        sampleCorpus calibration = .ok receipt ∧ (calibration.passed = false → receipt.verdict = .unverifiable) := by
  have hfails : calibrateReductionOracle wideReference.toReductionRun samplePlan sampleCorpus =
    .error .invalidCorpus := by
    decide +kernel
  refine ⟨by decide, hfails, ?_⟩
  rintro ⟨calibration, _, hcalibrated, _⟩
  cases hfails.symm.trans hcalibrated

end sample

end AlloyPort.Oracle
