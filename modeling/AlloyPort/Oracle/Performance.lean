import AlloyPort.Identity
import AlloyPort.Library.Checked
import Mathlib.Data.List.Sort

/-! The judgement of timings. A measured duration keeps its spread, and a difference of medians counts
where it clears the noise of both sides. An operation that overflows, or an index out of bounds, gives
nothing. -/

namespace AlloyPort.Oracle

open Checked IntType

inductive PerformanceError where
  | tooFewSamples
  | emptySample
  | serialization
  deriving DecidableEq

def MINIMUM_TIMED_SAMPLES : Nat := 5

def BILLION : Int := 1000000000

structure MeasuredDuration where
  samplesNanos : List UInt64
  discardedWarmupSamples : UInt32
  minNanos : UInt64
  medianNanos : UInt64
  maxNanos : UInt64
  relativeSpreadPpb : Int
  deriving DecidableEq

inductive PerformanceBaseline where
  | previousRevision
  | siblingCandidate
  | measuredRoofline
  | proxy
  deriving DecidableEq

inductive PerformanceRefusal where
  | crossEnvironmentComparison
  | proxyCannotEstablishSpeed

def PerformanceRefusal.rank : PerformanceRefusal → Nat
  | .crossEnvironmentComparison => 0
  | .proxyCannotEstablishSpeed => 1

inductive PerformanceVerdict where
  | improved
  | regressed
  | noResult
  | unverifiable
  deriving DecidableEq

structure PerformanceComparison where
  baseline : PerformanceBaseline
  baselineEnvironmentDigest : Sha256Digest
  candidateEnvironmentDigest : Sha256Digest
  baselineDuration : MeasuredDuration
  candidateDuration : MeasuredDuration

def PERFORMANCE_RECEIPT_SCHEMA_V1 : Nat := 1

structure PerformanceReceipt extends PerformanceComparison where
  schemaVersion : Nat
  verdict : PerformanceVerdict
  medianChangePpb : Int
  combinedNoisePpb : Int
  refusals : List PerformanceRefusal

section source

def fromSamples (samplesNanos : List UInt64) (discardedWarmupSamples : UInt32) :
    Option (Except PerformanceError MeasuredDuration) :=
  if samplesNanos.length < MINIMUM_TIMED_SAMPLES then some (.error .tooFewSamples)
  else if 0 ∈ samplesNanos then some (.error .emptySample)
  else do
    let samples := samplesNanos.insertionSort (· ≤ ·)
    let minNanos ← samples[0]?
    let maxNanos ← samples[samples.length - 1]?
    let medianNanos ← samples[samples.length / 2]?
    let range ← u64.checked (maxNanos.toNat - minNanos.toNat)
    let scaled ← u128.checked (range * BILLION)
    let spread ← u128.quotient scaled medianNanos.toNat
    return .ok {
      samplesNanos := samplesNanos
      discardedWarmupSamples := discardedWarmupSamples
      minNanos := minNanos
      medianNanos := medianNanos
      maxNanos := maxNanos
      relativeSpreadPpb := (u64.checked spread).getD u64.greatest }

def MeasuredDuration.noiseBandNanos (d : MeasuredDuration) : Option Int := do
  let range ← u64.checked (d.maxNanos.toNat - d.minNanos.toNat)
  u64.quotient range 2

def ratioPpb (value reference : Int) : Option Int :=
  if reference = 0 then some 0
  else do
    let scaled ← i128.checked (value * BILLION)
    i128.quotient scaled reference

def scalePpb (value reference : Int) : Option Int :=
  if reference = 0 then some u64.greatest
  else do
    let scaled ← u128.checked (value * BILLION)
    let quotient ← u128.quotient scaled reference
    return (u64.checked quotient).getD u64.greatest

def performanceRefusals (comparison : PerformanceComparison) : List PerformanceRefusal :=
  (if comparison.baseline = .proxy then [PerformanceRefusal.proxyCannotEstablishSpeed] else []) ++
    if comparison.baselineEnvironmentDigest ≠ comparison.candidateEnvironmentDigest then
      [PerformanceRefusal.crossEnvironmentComparison]
    else []

def performanceVerdict (refusals : List PerformanceRefusal) (medianChangePpb combinedNoisePpb : Int) :
    PerformanceVerdict :=
  if refusals = [] then
    if (medianChangePpb.natAbs : Int) ≤ combinedNoisePpb then .noResult
    else if medianChangePpb < 0 then .improved
    else .regressed
  else .unverifiable

def judgePerformance (comparison : PerformanceComparison) : Option PerformanceReceipt := do
  let baselineMedian : Int := comparison.baselineDuration.medianNanos.toNat
  let candidateMedian : Int := comparison.candidateDuration.medianNanos.toNat
  let ratio ← ratioPpb candidateMedian baselineMedian
  let medianChangePpb := (i64.checked (i128.saturating (ratio - BILLION))).getD i64.greatest
  let baselineNoise ← comparison.baselineDuration.noiseBandNanos
  let candidateNoise ← comparison.candidateDuration.noiseBandNanos
  let combinedNoisePpb ← scalePpb (u64.saturating (baselineNoise + candidateNoise)) baselineMedian
  return {
    toPerformanceComparison := comparison
    schemaVersion := PERFORMANCE_RECEIPT_SCHEMA_V1
    verdict := performanceVerdict (performanceRefusals comparison) medianChangePpb combinedNoisePpb
    medianChangePpb := medianChangePpb
    combinedNoisePpb := combinedNoisePpb
    refusals := (performanceRefusals comparison).insertionSort fun l r => l.rank ≤ r.rank }

end source

section samples

variable {samplesNanos : List UInt64} {discardedWarmupSamples : UInt32} {d : MeasuredDuration}

structure MeasuredDuration.Summarizes (d : MeasuredDuration) (samplesNanos : List UInt64) : Prop where
  kept : d.samplesNanos = samplesNanos
  least : d.minNanos ∈ samplesNanos ∧ ∀ s ∈ samplesNanos, d.minNanos ≤ s
  greatest : d.maxNanos ∈ samplesNanos ∧ ∀ s ∈ samplesNanos, s ≤ d.maxNanos
  median : (samplesNanos.insertionSort (· ≤ ·))[samplesNanos.length / 2]? = some d.medianNanos
  positive : ∀ s ∈ samplesNanos, 0 < s.toNat

def MeasuredDuration.range (d : MeasuredDuration) : Int := d.maxNanos.toNat - d.minNanos.toNat

instance uint64_total : Std.Total (fun l r : UInt64 => l ≤ r) := ⟨fun l r => by
  rw [UInt64.le_iff_toNat_le, UInt64.le_iff_toNat_le]
  exact Nat.le_total _ _⟩

instance uint64_trans : IsTrans UInt64 (fun l r => l ≤ r) := ⟨fun _ _ _ h h' => UInt64.le_trans h h'⟩

theorem insertionSort_getElem_le {i j : Nat} (hij : i ≤ j) (hj : j < (samplesNanos.insertionSort (· ≤ ·)).length) :
    (samplesNanos.insertionSort (· ≤ ·))[i] ≤ (samplesNanos.insertionSort (· ≤ ·))[j] := by
  have hordered := List.pairwise_insertionSort (fun l r : UInt64 => l ≤ r) samplesNanos
  rcases Nat.lt_or_eq_of_le hij with hlt | heq
  · exact List.pairwise_iff_getElem.mp hordered i j _ hj hlt
  · subst heq
    exact UInt64.le_refl _

theorem range_holds {least greatest : UInt64} (h : least ≤ greatest) : u64.Holds (greatest.toNat - least.toNat) := by
  have hle : least.toNat ≤ greatest.toNat := h
  have hlt := greatest.toNat_lt
  simp only [IntType.Holds, u64]
  omega

theorem scaled_holds {value : Int} (h : u64.Holds value) : u128.Holds (value * BILLION) := by
  simp only [IntType.Holds, u64, u128, BILLION] at h ⊢
  omega

theorem fromSamples_measures (hlength : MINIMUM_TIMED_SAMPLES ≤ samplesNanos.length) (hzero : 0 ∉ samplesNanos) :
    ∃ d, fromSamples samplesNanos discardedWarmupSamples = some (.ok d) ∧ d.Summarizes samplesNanos := by
  have hfive : 5 ≤ samplesNanos.length := hlength
  have hpositive : ∀ s ∈ samplesNanos, 0 < s.toNat := by
    intro s hs
    refine Nat.pos_of_ne_zero fun hs0 => hzero ?_
    rwa [← UInt64.toNat_inj.mp (hs0.trans UInt64.toNat_zero.symm)]
  obtain ⟨samples, hsamples⟩ : ∃ samples, samples = samplesNanos.insertionSort (· ≤ ·) := ⟨_, rfl⟩
  have hmem : ∀ s, s ∈ samples ↔ s ∈ samplesNanos := fun s => hsamples ▸ List.mem_insertionSort _
  have hsize : samples.length = samplesNanos.length := hsamples ▸ List.length_insertionSort _ _
  have hfirst : 0 < samples.length := by omega
  have hlast : samples.length - 1 < samples.length := by omega
  have hmiddle : samples.length / 2 < samples.length := by omega
  have hle : ∀ i j (hij : i ≤ j) (hj : j < samples.length), samples[i] ≤ samples[j] := by
    subst hsamples
    exact fun i j hij hj => insertionSort_getElem_le hij hj
  have hrange := range_holds (hle 0 (samples.length - 1) (Nat.zero_le _) hlast)
  have hscaled := scaled_holds hrange
  have hmedian : (0 : Int) < samples[samples.length / 2].toNat := by
    exact_mod_cast hpositive _ ((hmem _).mp (List.getElem_mem hmiddle))
  have hquotient := quotient_of_nonneg hscaled.1 hmedian (le_refl 0) hscaled.2
  refine ⟨⟨samplesNanos, discardedWarmupSamples, samples[0], samples[samples.length / 2], samples[samples.length - 1],
    (u64.checked ((samples[samples.length - 1].toNat - samples[0].toNat) * BILLION /
      samples[samples.length / 2].toNat)).getD u64.greatest⟩, ?_, ?_⟩
  · rw [fromSamples, if_neg (not_lt.mpr hlength), if_neg hzero]
    simp only [← hsamples, List.getElem?_eq_getElem hfirst, List.getElem?_eq_getElem hlast,
      List.getElem?_eq_getElem hmiddle, Option.bind_eq_bind, Option.bind_some, checked_of_holds hrange,
      checked_of_holds hscaled, hquotient]
    rfl
  · refine ⟨rfl, ⟨(hmem _).mp (List.getElem_mem hfirst), ?_⟩, ⟨(hmem _).mp (List.getElem_mem hlast), ?_⟩, ?_, hpositive⟩
    · intro s hs
      obtain ⟨i, hi, rfl⟩ := List.getElem_of_mem ((hmem s).mpr hs)
      exact hle 0 i (Nat.zero_le i) hi
    · intro s hs
      obtain ⟨i, hi, rfl⟩ := List.getElem_of_mem ((hmem s).mpr hs)
      exact hle i (samples.length - 1) (by omega) hlast
    · rw [← hsamples, ← hsize]
      exact List.getElem?_eq_getElem hmiddle

theorem fromSamples_total (samplesNanos : List UInt64) (discardedWarmupSamples : UInt32) :
    ∃ result, fromSamples samplesNanos discardedWarmupSamples = some result := by
  by_cases hlength : samplesNanos.length < MINIMUM_TIMED_SAMPLES
  · exact ⟨_, if_pos hlength⟩
  · by_cases hzero : 0 ∈ samplesNanos
    · exact ⟨_, (if_neg hlength).trans (if_pos hzero)⟩
    · obtain ⟨d, hd, _⟩ := fromSamples_measures (not_lt.mp hlength) hzero
      exact ⟨_, hd⟩

theorem fromSamples_ok (h : fromSamples samplesNanos discardedWarmupSamples = some (.ok d)) :
    d.Summarizes samplesNanos := by
  by_cases hlength : samplesNanos.length < MINIMUM_TIMED_SAMPLES
  · rw [fromSamples, if_pos hlength] at h
    cases h
  · by_cases hzero : 0 ∈ samplesNanos
    · rw [fromSamples, if_neg hlength, if_pos hzero] at h
      cases h
    · obtain ⟨d', hd', hsummary⟩ := fromSamples_measures (not_lt.mp hlength) hzero
      rw [hd'] at h
      cases h
      exact hsummary

theorem MeasuredDuration.Summarizes.median_pos (h : d.Summarizes samplesNanos) : (0 : Int) < d.medianNanos.toNat := by
  have hmem := List.mem_of_getElem? h.median
  exact_mod_cast h.positive _ ((List.mem_insertionSort _).mp hmem)

theorem MeasuredDuration.Summarizes.ordered (h : d.Summarizes samplesNanos) : d.minNanos ≤ d.maxNanos :=
  h.least.2 _ h.greatest.1

end samples

section comparison

variable {b h d k : Int}

theorem saving_clears_iff (hb : 0 < b) : h * BILLION / b < -(-d * BILLION / b) ↔
    ¬∃ k : Int, d * BILLION ≤ k * b ∧ k * b ≤ h * BILLION := by
  rw [← not_le, not_iff_not]
  constructor
  · intro hle
    have hfloor : -(h * BILLION / b) ≤ -d * BILLION / b := by omega
    have hbelow := (Int.le_ediv_iff_mul_le hb).mp hfloor
    exact ⟨h * BILLION / b, by linarith, Int.ediv_mul_le _ hb.ne'⟩
  · rintro ⟨k, hlow, hhigh⟩
    have hk : k ≤ h * BILLION / b := (Int.le_ediv_iff_mul_le hb).mpr hhigh
    have hk' : -k ≤ -d * BILLION / b := (Int.le_ediv_iff_mul_le hb).mpr (by linarith)
    omega

/-- A loss clears the noise in parts per billion, where a whole number of parts lies between them that can
be represented. -/
theorem loss_clears_iff (hb : 0 < b) (limit : Int) : h * BILLION / b < min (d * BILLION / b) limit ↔
    ∃ k : Int, k ≤ limit ∧ h * BILLION < k * b ∧ k * b ≤ d * BILLION := by
  constructor
  · intro hlt
    refine ⟨min (d * BILLION / b) limit, min_le_right _ _, (Int.ediv_lt_iff_lt_mul hb).mp hlt, ?_⟩
    exact (Int.le_ediv_iff_mul_le hb).mp (min_le_left _ _)
  · rintro ⟨k, hlimit, hlow, hhigh⟩
    have hk : h * BILLION / b < k := (Int.ediv_lt_iff_lt_mul hb).mpr hlow
    exact hk.trans_le (le_min ((Int.le_ediv_iff_mul_le hb).mpr hhigh) hlimit)

end comparison

section judgement

variable {comparison : PerformanceComparison} {d : MeasuredDuration}

structure MeasuredDuration.Sound (d : MeasuredDuration) : Prop where
  positive : (0 : Int) < d.medianNanos.toNat
  ordered : d.minNanos ≤ d.maxNanos

def PerformanceComparison.saving (comparison : PerformanceComparison) : Int :=
  comparison.baselineDuration.medianNanos.toNat - comparison.candidateDuration.medianNanos.toNat

def PerformanceComparison.wholeNoise (comparison : PerformanceComparison) : Int :=
  comparison.baselineDuration.range / 2 + comparison.candidateDuration.range / 2

def PerformanceComparison.unit (comparison : PerformanceComparison) : Int :=
  comparison.baselineDuration.medianNanos.toNat

theorem MeasuredDuration.Sound.range_bounds (hd : d.Sound) : u64.Holds d.range :=
  range_holds hd.ordered

theorem noiseBandNanos_eq (hd : d.Sound) : d.noiseBandNanos = some (d.range / 2) := by
  have hrange := hd.range_bounds
  have hquotient := quotient_of_nonneg (b := 2) hrange.1 (by decide) (le_refl 0) hrange.2
  rw [MeasuredDuration.noiseBandNanos, checked_of_holds (range_holds hd.ordered)]
  exact hquotient

theorem ratioPpb_eq {value reference : Int} (hvalue : u64.Holds value) (hreference : 0 < reference) :
    ratioPpb value reference = some (value * BILLION / reference) := by
  have hholds : i128.Holds (value * BILLION) := by
    simp only [IntType.Holds, u64, i128, BILLION] at hvalue ⊢
    omega
  have hnonneg : 0 ≤ value * BILLION := mul_nonneg hvalue.1 (by decide)
  rw [ratioPpb, if_neg hreference.ne', checked_of_holds hholds]
  exact quotient_of_nonneg hnonneg hreference (by decide) hholds.2

theorem scalePpb_eq {value reference : Int} (hvalue : u64.Holds value) (hreference : 0 < reference) :
    scalePpb value reference = some (min (value * BILLION / reference) u64.greatest) := by
  have hholds := scaled_holds hvalue
  have hnonneg : 0 ≤ value * BILLION / reference := Int.ediv_nonneg hholds.1 hreference.le
  rw [scalePpb, if_neg hreference.ne', checked_of_holds hholds]
  have hquotient := quotient_of_nonneg hholds.1 hreference (le_refl 0) hholds.2
  have hsaturated : (u64.checked (value * BILLION / reference)).getD u64.greatest =
      min (value * BILLION / reference) u64.greatest := by
    rw [checked_getD_greatest hnonneg (by decide), saturating, min_comm]
    exact max_eq_right (le_min hnonneg (by decide))
  simp only [Option.bind_eq_bind, Option.bind_some, hquotient, hsaturated]
  rfl

theorem judgePerformance_eq (hbaseline : comparison.baselineDuration.Sound)
    (hcandidate : comparison.candidateDuration.Sound) :
    ∃ receipt, judgePerformance comparison = some receipt ∧
      receipt.verdict = performanceVerdict (performanceRefusals comparison)
      (min (-comparison.saving * BILLION / comparison.unit) i64.greatest)
      (min (comparison.wholeNoise * BILLION / comparison.unit) u64.greatest) := by
  have hunit : 0 < comparison.unit := hbaseline.positive
  have hvalue : u64.Holds comparison.candidateDuration.medianNanos.toNat := by
    have hlt := comparison.candidateDuration.medianNanos.toNat_lt
    simp only [IntType.Holds, u64]
    omega
  have hfirst := hbaseline.range_bounds
  have hsecond := hcandidate.range_bounds
  have hnoise : u64.Holds comparison.wholeNoise := by
    simp only [IntType.Holds, u64, PerformanceComparison.wholeNoise] at hfirst hsecond ⊢
    omega
  have hshift : comparison.candidateDuration.medianNanos.toNat * BILLION / comparison.unit - BILLION =
      -comparison.saving * BILLION / comparison.unit := by
    have hsum : (comparison.candidateDuration.medianNanos.toNat : Int) * BILLION =
        -comparison.saving * BILLION + BILLION * comparison.unit := by
      simp only [PerformanceComparison.saving, PerformanceComparison.unit]
      ring
    rw [hsum, Int.add_mul_ediv_right _ _ hunit.ne']
    omega
  have hchange : (i64.checked (i128.saturating (-comparison.saving * BILLION / comparison.unit))).getD i64.greatest =
      min (-comparison.saving * BILLION / comparison.unit) i64.greatest := by
    have hlow : -BILLION ≤ -comparison.saving * BILLION / comparison.unit := by
      rw [← hshift]
      have hnonneg : 0 ≤ comparison.candidateDuration.medianNanos.toNat * BILLION / comparison.unit :=
        Int.ediv_nonneg (mul_nonneg hvalue.1 (by decide)) hunit.le
      omega
    have hhigh : -comparison.saving * BILLION / comparison.unit ≤
      comparison.candidateDuration.medianNanos.toNat * BILLION := by
      rw [← hshift]
      have hle := Int.ediv_le_self comparison.unit (mul_nonneg hvalue.1 (show 0 ≤ BILLION by decide))
      have hbillion : 0 ≤ BILLION := by decide
      omega
    have hwide : i128.Holds (-comparison.saving * BILLION / comparison.unit) := by
      simp only [IntType.Holds, u64, i128, BILLION] at hvalue hlow hhigh ⊢
      omega
    have hleast : i64.least ≤ -comparison.saving * BILLION / comparison.unit := by
      refine le_trans ?_ hlow
      decide
    rw [saturating_of_holds hwide, checked_getD_greatest hleast (by decide), saturating, min_comm]
    exact max_eq_right (le_min hleast (by decide))
  have hratio := ratioPpb_eq hvalue hunit
  have hscale := scalePpb_eq hnoise hunit
  simp only [PerformanceComparison.unit] at hratio hscale hshift hchange ⊢
  have hsum : u64.saturating (comparison.baselineDuration.range / 2 + comparison.candidateDuration.range / 2) =
      comparison.wholeNoise := saturating_of_holds hnoise
  refine ⟨⟨comparison, PERFORMANCE_RECEIPT_SCHEMA_V1, performanceVerdict (performanceRefusals comparison)
    (min (-comparison.saving * BILLION / comparison.baselineDuration.medianNanos.toNat) i64.greatest)
    (min (comparison.wholeNoise * BILLION / comparison.baselineDuration.medianNanos.toNat) u64.greatest),
    min (-comparison.saving * BILLION / comparison.baselineDuration.medianNanos.toNat) i64.greatest,
    min (comparison.wholeNoise * BILLION / comparison.baselineDuration.medianNanos.toNat) u64.greatest,
    (performanceRefusals comparison).insertionSort fun l r => l.rank ≤ r.rank⟩, ?_, rfl⟩
  simp only [judgePerformance, hratio, noiseBandNanos_eq hbaseline, noiseBandNanos_eq hcandidate, hsum, hscale, hshift,
    hchange, Option.bind_eq_bind, Option.bind_some]
  rfl

end judgement

section exactness

variable {comparison : PerformanceComparison} {change : Int}

def PerformanceComparison.Comparable (comparison : PerformanceComparison) : Prop :=
  comparison.baselineEnvironmentDigest = comparison.candidateEnvironmentDigest ∧ comparison.baseline ≠ .proxy

def PerformanceComparison.noise (comparison : PerformanceComparison) : ℚ :=
  (comparison.baselineDuration.range : ℚ) / 2 + (comparison.candidateDuration.range : ℚ) / 2

structure PerformanceVerdict.Exact (verdict : PerformanceVerdict) (comparison : PerformanceComparison) : Prop where
  improved : verdict = .improved ↔ comparison.Comparable ∧ comparison.noise < comparison.saving
  regressed : verdict = .regressed ↔ comparison.Comparable ∧ comparison.noise < ((-comparison.saving : Int) : ℚ)
  noResult : verdict = .noResult ↔ comparison.Comparable ∧ ¬comparison.noise < comparison.saving ∧
    ¬comparison.noise < ((-comparison.saving : Int) : ℚ)

def PerformanceComparison.OddRanges (comparison : PerformanceComparison) : Prop :=
  comparison.baselineDuration.range % 2 = 1 ∧ comparison.candidateDuration.range % 2 = 1

/-- A whole number of parts per billion of the baseline lies from a saving to the noise. -/
def PerformanceComparison.Covered (comparison : PerformanceComparison) : Prop :=
  ∃ k : Int, comparison.saving * BILLION ≤ k * comparison.unit ∧ k * comparison.unit ≤ comparison.wholeNoise * BILLION

/-- A whole number of parts per billion that can be represented lies between the noise and a loss. -/
def PerformanceComparison.Exceeded (comparison : PerformanceComparison) : Prop :=
  ∃ k : Int, k ≤ i64.greatest ∧ comparison.wholeNoise * BILLION < k * comparison.unit ∧
    k * comparison.unit ≤ -comparison.saving * BILLION

/-- The rounding to whole nanoseconds and to parts per billion leaves the order of the change and the noise. -/
structure PerformanceComparison.Discerned (comparison : PerformanceComparison) : Prop where
  saving : 0 < comparison.saving → comparison.saving ≤ comparison.wholeNoise → comparison.Covered
  savingTie : comparison.saving = comparison.wholeNoise + 1 → ¬comparison.OddRanges
  loss : comparison.noise < ((-comparison.saving : Int) : ℚ) → comparison.Exceeded
  lossTie : -comparison.saving = comparison.wholeNoise + 1 → comparison.OddRanges → ¬comparison.Exceeded

theorem PerformanceComparison.noise_lt_iff (comparison : PerformanceComparison) (z : Int) : comparison.noise < z ↔
    comparison.wholeNoise < z ∧ ¬(z = comparison.wholeNoise + 1 ∧ comparison.OddRanges) := by
  have hexact : comparison.noise < z ↔ comparison.baselineDuration.range + comparison.candidateDuration.range <
    2 * z := by
    rw [PerformanceComparison.noise, ← add_div, div_lt_iff₀ (by norm_num), mul_comm]
    exact_mod_cast Iff.rfl
  rw [hexact, PerformanceComparison.wholeNoise, PerformanceComparison.OddRanges]
  omega

theorem performanceVerdict_cases {P : PerformanceVerdict → Prop} {noise : Int}
    (hsmall : ¬noise < change.natAbs → P .noResult) (hfaster : noise < change.natAbs → change < 0 → P .improved)
    (hslower : noise < change.natAbs → ¬change < 0 → P .regressed) : P (performanceVerdict [] change noise) := by
  rw [performanceVerdict, if_pos rfl]
  split
  · exact hsmall (by omega)
  · split
    · exact hfaster (by omega) (by assumption)
    · exact hslower (by omega) (by assumption)

theorem performanceVerdict_improved {noise : Int} :
    performanceVerdict [] change noise = .improved ↔ noise < change.natAbs ∧ change < 0 := by
  apply performanceVerdict_cases (P := fun verdict => verdict = .improved ↔ _) <;> grind

theorem performanceVerdict_regressed {noise : Int} :
    performanceVerdict [] change noise = .regressed ↔ noise < change.natAbs ∧ ¬change < 0 := by
  apply performanceVerdict_cases (P := fun verdict => verdict = .regressed ↔ _) <;> grind

theorem performanceVerdict_noResult {noise : Int} :
    performanceVerdict [] change noise = .noResult ↔ ¬noise < change.natAbs := by
  apply performanceVerdict_cases (P := fun verdict => verdict = .noResult ↔ _) <;> grind

theorem performanceRefusals_nil_iff : performanceRefusals comparison = [] ↔ comparison.Comparable := by
  by_cases hproxy : comparison.baseline = .proxy <;>
    by_cases hsame : comparison.baselineEnvironmentDigest = comparison.candidateEnvironmentDigest <;>
    simp [performanceRefusals, PerformanceComparison.Comparable, hproxy, hsame]

theorem change_clears_iff (hbaseline : comparison.baselineDuration.Sound) :
    (min (comparison.wholeNoise * BILLION / comparison.unit) u64.greatest <
        (min (-comparison.saving * BILLION / comparison.unit) i64.greatest).natAbs ↔
      (0 < comparison.saving ∧ ¬comparison.Covered) ∨ (comparison.saving ≤ 0 ∧ comparison.Exceeded)) ∧
    (min (-comparison.saving * BILLION / comparison.unit) i64.greatest < 0 ↔ 0 < comparison.saving) := by
  have hunit : 0 < comparison.unit := hbaseline.positive
  have hcovered := saving_clears_iff (h := comparison.wholeNoise) (d := comparison.saving) hunit
  have hexceeded := loss_clears_iff (h := comparison.wholeNoise) (d := -comparison.saving) hunit i64.greatest
  have hwide : i64.greatest < u64.greatest := by decide
  by_cases hsaving : 0 < comparison.saving
  · have hneg : -comparison.saving * BILLION / comparison.unit < 0 := by
      refine Int.ediv_neg_of_neg_of_pos ?_ hunit
      simp only [BILLION]
      omega
    have hlow : -BILLION ≤ -comparison.saving * BILLION / comparison.unit := by
      rw [Int.le_ediv_iff_mul_le hunit]
      have hle : comparison.saving ≤ comparison.unit := by
        simp only [PerformanceComparison.saving, PerformanceComparison.unit]
        omega
      have hscaled := mul_le_mul_of_nonneg_right hle (show 0 ≤ BILLION by decide)
      linarith
    have hsmall : BILLION < u64.greatest := by decide
    have hlimit : (0 : Int) < i64.greatest := by decide
    rw [PerformanceComparison.Covered, ← hcovered]
    generalize -comparison.saving * BILLION / comparison.unit = change at hneg hlow
    generalize comparison.wholeNoise * BILLION / comparison.unit = noise
    omega
  · have hnonneg : 0 ≤ -comparison.saving * BILLION / comparison.unit := by
      refine Int.ediv_nonneg (mul_nonneg ?_ (by decide)) hunit.le
      omega
    have hlimit : (0 : Int) < i64.greatest := by decide
    rw [PerformanceComparison.Exceeded, ← hexceeded]
    generalize -comparison.saving * BILLION / comparison.unit = change at hnonneg
    generalize comparison.wholeNoise * BILLION / comparison.unit = noise
    omega

theorem Covered.saving_le (h : comparison.Covered) : comparison.saving ≤ comparison.wholeNoise := by
  obtain ⟨k, hlow, hhigh⟩ := h
  exact le_of_mul_le_mul_right (hlow.trans hhigh) (show 0 < BILLION by decide)

theorem Exceeded.lt_loss (h : comparison.Exceeded) : comparison.wholeNoise < -comparison.saving := by
  obtain ⟨k, _, hlow, hhigh⟩ := h
  exact lt_of_mul_lt_mul_right (hlow.trans_le hhigh) (show 0 ≤ BILLION by decide)

theorem exact_iff_discerned (hnoise : 0 ≤ comparison.wholeNoise) {improved regressed : Prop}
    (himproved : improved ↔ 0 < comparison.saving ∧ ¬comparison.Covered)
    (hregressed : regressed ↔ comparison.saving ≤ 0 ∧ comparison.Exceeded) :
    ((improved ↔ comparison.noise < comparison.saving) ∧
      (regressed ↔ comparison.noise < ((-comparison.saving : Int) : ℚ))) ↔ comparison.Discerned := by
  have hsaving := comparison.noise_lt_iff comparison.saving
  have hloss := comparison.noise_lt_iff (-comparison.saving)
  rw [himproved, hregressed]
  constructor
  · rintro ⟨hfaster, hslower⟩
    refine ⟨?_, ?_, fun hclear => (hslower.mpr hclear).2, ?_⟩
    · intro hpos hle
      by_contra huncovered
      have hlt := (hsaving.mp (hfaster.mp ⟨hpos, huncovered⟩)).1
      omega
    · intro htie hodd
      have hclear := hfaster.mp ⟨by omega, fun hcovered => by have hle := Covered.saving_le hcovered; omega⟩
      exact (hsaving.mp hclear).2 ⟨htie, hodd⟩
    · intro htie hodd hexceeded
      have hclear := hslower.mp ⟨by omega, hexceeded⟩
      exact (hloss.mp hclear).2 ⟨htie, hodd⟩
  · intro hdiscerned
    refine ⟨⟨?_, ?_⟩, ⟨?_, ?_⟩⟩
    · rintro ⟨hpos, huncovered⟩
      refine hsaving.mpr ⟨?_, fun htie => hdiscerned.savingTie htie.1 htie.2⟩
      by_contra hle
      exact huncovered (hdiscerned.saving hpos (not_lt.mp hle))
    · intro hclear
      have hlt := (hsaving.mp hclear).1
      exact ⟨by omega, fun hcovered => by have hle := Covered.saving_le hcovered; omega⟩
    · rintro ⟨_, hexceeded⟩
      exact hloss.mpr ⟨Exceeded.lt_loss hexceeded, fun htie => hdiscerned.lossTie htie.1 htie.2 hexceeded⟩
    · intro hclear
      have hlt := (hloss.mp hclear).1
      exact ⟨by omega, hdiscerned.loss hclear⟩

/-- Timings are judged as their exact half ranges demand just where the rounding leaves the order of the
change and the noise, and nothing overflows on the way. -/
theorem performance_judged_exactly_iff {baselineSamples candidateSamples : List UInt64}
    {baselineWarmup candidateWarmup : UInt32}
    (hbaseline : fromSamples baselineSamples baselineWarmup = some (.ok comparison.baselineDuration))
    (hcandidate : fromSamples candidateSamples candidateWarmup = some (.ok comparison.candidateDuration)) :
    ((∀ samplesNanos discardedWarmupSamples, ∃ result, fromSamples samplesNanos discardedWarmupSamples = some result) ∧
      ∃ receipt, judgePerformance comparison = some receipt ∧ receipt.verdict.Exact comparison) ↔
      (comparison.Comparable → comparison.Discerned) := by
  have hfirst := fromSamples_ok hbaseline
  have hsecond := fromSamples_ok hcandidate
  have hsound : comparison.baselineDuration.Sound := ⟨hfirst.median_pos, hfirst.ordered⟩
  have hsound' : comparison.candidateDuration.Sound := ⟨hsecond.median_pos, hsecond.ordered⟩
  have hnoise : 0 ≤ comparison.wholeNoise := by
    have hrange := hsound.range_bounds.1
    have hrange' := hsound'.range_bounds.1
    simp only [u64, PerformanceComparison.wholeNoise] at hrange hrange' ⊢
    omega
  obtain ⟨receipt, hjudged, hverdict⟩ := judgePerformance_eq hsound hsound'
  have hreceipt : (∃ receipt, judgePerformance comparison = some receipt ∧ receipt.verdict.Exact comparison) ↔
      receipt.verdict.Exact comparison := by
    rw [hjudged]
    exact ⟨fun ⟨_, heq, hexact⟩ => Option.some.inj heq ▸ hexact, fun hexact => ⟨_, rfl, hexact⟩⟩
  rw [and_iff_right fromSamples_total, hreceipt]
  by_cases hcomparable : comparison.Comparable
  · rw [performanceRefusals_nil_iff.mpr hcomparable] at hverdict
    obtain ⟨hclears, hsign⟩ := change_clears_iff hsound
    have himproved : receipt.verdict = .improved ↔ 0 < comparison.saving ∧ ¬comparison.Covered := by
      rw [hverdict, performanceVerdict_improved, hclears, hsign]
      constructor
      · rintro ⟨hcase | hcase, hpos⟩
        · exact hcase
        · omega
      · exact fun hcase => ⟨.inl hcase, hcase.1⟩
    have hregressed : receipt.verdict = .regressed ↔ comparison.saving ≤ 0 ∧ comparison.Exceeded := by
      rw [hverdict, performanceVerdict_regressed, hclears, hsign]
      constructor
      · rintro ⟨hcase | hcase, hnonpos⟩
        · exact absurd hcase.1 hnonpos
        · exact hcase
      · exact fun hcase => ⟨.inr hcase, not_lt.mpr hcase.1⟩
    have hnone : receipt.verdict = .noResult ↔ ¬receipt.verdict = .improved ∧ ¬receipt.verdict = .regressed := by
      rw [himproved, hregressed, ← not_or, ← hclears, hverdict, performanceVerdict_noResult]
    rw [← exact_iff_discerned hnoise himproved hregressed]
    constructor
    · rintro ⟨hfaster, hslower, _⟩ _
      rw [and_iff_right hcomparable] at hfaster hslower
      exact ⟨hfaster, hslower⟩
    · intro hexact
      obtain ⟨hfaster, hslower⟩ := hexact hcomparable
      refine ⟨by rw [hfaster, and_iff_right hcomparable], by rw [hslower, and_iff_right hcomparable], ?_⟩
      rw [hnone, hfaster, hslower, and_iff_right hcomparable]
  · refine ⟨fun _ hcomparable' => absurd hcomparable' hcomparable, fun _ => ?_⟩
    have hrefused : performanceRefusals comparison ≠ [] := fun hnil => hcomparable (performanceRefusals_nil_iff.mp hnil)
    rw [performanceVerdict, if_neg hrefused] at hverdict
    constructor <;> simp [hverdict, hcomparable]

end exactness

section sample

def sampleComparison (baselineDuration candidateDuration : MeasuredDuration) : PerformanceComparison :=
  ⟨.previousRevision, ⟨[1]⟩, ⟨[1]⟩, baselineDuration, candidateDuration⟩

def sampleBaseline : MeasuredDuration := ⟨[1000, 1010, 1005, 995, 1002], 3, 995, 1002, 1010, 14970059⟩

def sampleImproved : MeasuredDuration := ⟨[500, 505, 502, 498, 501], 3, 498, 501, 505, 13972055⟩

theorem performance_judged_exactly_sample :
    ∃ receipt, judgePerformance (sampleComparison sampleBaseline sampleImproved) = some receipt ∧
      receipt.verdict.Exact (sampleComparison sampleBaseline sampleImproved) := by
  have hloss : ¬(sampleComparison sampleBaseline sampleImproved).noise <
      ((-(sampleComparison sampleBaseline sampleImproved).saving : Int) : ℚ) := by decide +kernel
  have hdiscerned : (sampleComparison sampleBaseline sampleImproved).Discerned :=
    ⟨fun _ hle => absurd hle (by decide), fun htie => absurd htie (by decide), fun hclear => absurd hclear hloss,
      fun htie => absurd htie (by decide)⟩
  have hbaseline : fromSamples [1000, 1010, 1005, 995, 1002] 3 =
      some (.ok (sampleComparison sampleBaseline sampleImproved).baselineDuration) := by decide
  have hcandidate : fromSamples [500, 505, 502, 498, 501] 3 =
      some (.ok (sampleComparison sampleBaseline sampleImproved).candidateDuration) := by decide
  exact ((performance_judged_exactly_iff hbaseline hcandidate).mpr fun _ => hdiscerned).2

def oddBaseline : MeasuredDuration := ⟨[10, 10, 10, 10, 11], 3, 10, 10, 11, 100000000⟩

def oddCandidate : MeasuredDuration := ⟨[9, 9, 9, 9, 10], 3, 9, 9, 10, 111111111⟩

/-- A saving of the sum of two half ranges is judged to be an improvement. -/
theorem saving_of_noise_judged_improved :
    fromSamples [10, 10, 10, 10, 11] 3 = some (.ok oddBaseline) ∧
    fromSamples [9, 9, 9, 9, 10] 3 = some (.ok oddCandidate) ∧
    ((sampleComparison oddBaseline oddCandidate).saving : ℚ) = (sampleComparison oddBaseline oddCandidate).noise ∧
    (judgePerformance (sampleComparison oddBaseline oddCandidate)).map PerformanceReceipt.verdict = some .improved ∧
    ¬∃ receipt, judgePerformance (sampleComparison oddBaseline oddCandidate) = some receipt ∧
      receipt.verdict.Exact (sampleComparison oddBaseline oddCandidate) := by
  have htie : ((sampleComparison oddBaseline oddCandidate).saving : ℚ) =
    (sampleComparison oddBaseline oddCandidate).noise := by
    decide +kernel
  have hverdict : (judgePerformance (sampleComparison oddBaseline oddCandidate)).map PerformanceReceipt.verdict =
      some .improved := by decide
  refine ⟨by decide, by decide, htie, hverdict, ?_⟩
  rintro ⟨receipt, hjudged, hexact⟩
  rw [hjudged] at hverdict
  have hclear := (hexact.improved.mp (Option.some.inj hverdict)).2
  exact absurd htie hclear.ne'

end sample

end AlloyPort.Oracle
