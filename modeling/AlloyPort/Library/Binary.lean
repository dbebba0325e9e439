import Mathlib.Data.Rat.Floor
import Mathlib.Algebra.Order.Field.Power
import Mathlib.Tactic.Positivity

/-! Binary floating point over exact rationals. A number of a format is a rational, an infinity or no
number, and an operation rounds its exact result once: to the nearest, and to even in the middle. -/

namespace Binary

def pow2 : Int → ℚ
  | .ofNat n => ((2 ^ n : Nat) : ℚ)
  | .negSucc n => mkRat 1 (2 ^ (n + 1))

/-- Numbers have so many binary digits, are multiples of the power with the least exponent, and lie
below the power with the greatest. -/
structure Format where
  precision : Nat
  minExponent : Int
  maxExponent : Int

def binary32 : Format := ⟨24, -149, 128⟩

def binary64 : Format := ⟨53, -1074, 1024⟩

def binade (q : ℚ) : Int :=
  if pow2 ((q.num.natAbs.log2 : Int) - q.den.log2) ≤ q then (q.num.natAbs.log2 : Int) - q.den.log2
  else (q.num.natAbs.log2 : Int) - q.den.log2 - 1

def halfEven (q : ℚ) : Int :=
  if q - q.floor < 1 / 2 then q.floor
  else if 1 / 2 < q - q.floor then q.floor + 1
  else if q.floor % 2 = 0 then q.floor else q.floor + 1

def Format.unit (fmt : Format) (q : ℚ) : ℚ := pow2 (max (binade q + 1 - fmt.precision) fmt.minExponent)

def Format.round (fmt : Format) (q : ℚ) : ℚ := if q = 0 then 0 else halfEven (q / fmt.unit q) * fmt.unit q

section rounding

variable {q : ℚ} {fmt : Format}

theorem pow2_eq (e : Int) : pow2 e = (2 : ℚ) ^ e := by
  cases e with
  | ofNat n => simp [pow2]
  | negSucc n =>
    rw [pow2, zpow_negSucc, Rat.mkRat_eq_div]
    push_cast
    rw [one_div]

theorem pow2_pos (e : Int) : 0 < pow2 e := by
  rw [pow2_eq]
  positivity

theorem pow2_add (d e : Int) : pow2 (d + e) = pow2 d * pow2 e := by
  simp only [pow2_eq]
  exact zpow_add₀ (by norm_num) d e

theorem pow2_le {d e : Int} (h : d ≤ e) : pow2 d ≤ pow2 e := by
  simp only [pow2_eq]
  exact zpow_le_zpow_right₀ (by norm_num) h

theorem pow2_natCast (n : Nat) : pow2 n = 2 ^ n := by
  rw [pow2_eq]
  exact zpow_natCast _ _

theorem log2_bounds (h : 0 < q) : pow2 ((q.num.natAbs.log2 : Int) - q.den.log2 - 1) ≤ q ∧
    q < pow2 ((q.num.natAbs.log2 : Int) - q.den.log2 + 1) := by
  have hnum : 0 < q.num := Rat.num_pos.mpr h
  have hcast : (q.num.natAbs : ℚ) = q.num := by
    rw [← Int.cast_natCast, Int.natAbs_of_nonneg hnum.le]
  have hden : (0 : ℚ) < q.den := by exact_mod_cast q.den_pos
  have hq : q * q.den = q.num.natAbs := by rw [hcast, Rat.mul_den_eq_num]
  have hnumLow : (2 : ℚ) ^ q.num.natAbs.log2 ≤ q.num.natAbs := by exact_mod_cast Nat.log2_self_le (by omega)
  have hnumHigh : (q.num.natAbs : ℚ) < 2 ^ (q.num.natAbs.log2 + 1) := by exact_mod_cast Nat.lt_log2_self
  have hdenLow : (2 : ℚ) ^ q.den.log2 ≤ q.den := by exact_mod_cast Nat.log2_self_le q.den_nz
  have hdenHigh : (q.den : ℚ) < 2 ^ (q.den.log2 + 1) := by exact_mod_cast Nat.lt_log2_self
  have hlow : pow2 ((q.num.natAbs.log2 : Int) - q.den.log2 - 1) * 2 ^ (q.den.log2 + 1) = 2 ^ q.num.natAbs.log2 := by
    rw [← pow2_natCast, ← pow2_natCast, ← pow2_add]
    congr 1
    push_cast
    ring
  have hhigh : pow2 ((q.num.natAbs.log2 : Int) - q.den.log2 + 1) * 2 ^ q.den.log2 = 2 ^ (q.num.natAbs.log2 + 1) := by
    rw [← pow2_natCast, ← pow2_natCast, ← pow2_add]
    congr 1
    push_cast
    ring
  constructor
  · by_contra hlt
    have hbelow := mul_lt_mul (not_le.mp hlt) hdenHigh.le hden (pow2_pos _).le
    rw [hlow, hq] at hbelow
    exact absurd hbelow (not_lt.mpr hnumLow)
  · by_contra hge
    have habove := mul_le_mul (not_lt.mp hge) hdenLow (by positivity) h.le
    rw [hhigh, hq] at habove
    exact absurd habove (not_le.mpr hnumHigh)

theorem binade_le (h : 0 < q) : pow2 (binade q) ≤ q := by
  unfold binade
  split
  · assumption
  · exact (log2_bounds h).1

theorem lt_binade_succ (h : 0 < q) : q < pow2 (binade q + 1) := by
  unfold binade
  split
  · exact (log2_bounds h).2
  · rename_i hbelow
    rw [sub_add_cancel]
    exact not_le.mp hbelow

theorem halfEven_near (q : ℚ) : |(halfEven q : ℚ) - q| ≤ 1 / 2 := by
  have hfloor : (q.floor : ℚ) ≤ q := Rat.floor_le q
  have hceil : q < q.floor + 1 := by exact_mod_cast Rat.lt_floor_add_one q
  rw [abs_le]
  unfold halfEven
  split
  · constructor <;> linarith
  · split
    · push_cast
      constructor <;> linarith
    · split
      · constructor <;> linarith
      · push_cast
        constructor <;> linarith

theorem unit_pos (fmt : Format) (q : ℚ) : 0 < fmt.unit q := pow2_pos _

theorem round_near (h : 0 < q) : |fmt.round q - q| ≤ fmt.unit q / 2 := by
  have hunit := unit_pos fmt q
  have hsplit : fmt.round q - q = (halfEven (q / fmt.unit q) - q / fmt.unit q) * fmt.unit q := by
    rw [Format.round, if_neg h.ne', sub_mul, div_mul_cancel₀ q hunit.ne']
  rw [hsplit, abs_mul, abs_of_pos hunit]
  have hnear := mul_le_mul_of_nonneg_right (halfEven_near (q / fmt.unit q)) hunit.le
  linarith

def Format.Normal (fmt : Format) (q : ℚ) : Prop := q = 0 ∨ pow2 (fmt.minExponent + fmt.precision) ≤ q

theorem round_close (h : fmt.Normal q) : |fmt.round q - q| ≤ q * pow2 (-fmt.precision) := by
  rcases h with rfl | hlarge
  · simp [Format.round]
  · have hpos : 0 < q := (pow2_pos _).trans_le hlarge
    have hunit : fmt.minExponent ≤ binade q + 1 - fmt.precision := by
      by_contra hsmall
      have hle : pow2 (binade q + 1) ≤ pow2 (fmt.minExponent + fmt.precision) := pow2_le (by omega)
      exact absurd (hlarge.trans_lt (lt_binade_succ hpos)) (not_lt.mpr hle)
    have hexact : fmt.unit q = pow2 (binade q) * pow2 (1 - fmt.precision) := by
      rw [Format.unit, max_eq_left hunit, ← pow2_add]
      congr 1
      ring
    have hhalf : pow2 (1 - fmt.precision) / 2 = pow2 (-fmt.precision) := by
      have htwo : pow2 1 = 2 := by
        rw [pow2_eq]
        norm_num
      rw [sub_eq_add_neg, pow2_add, htwo]
      ring
    calc |fmt.round q - q| ≤ fmt.unit q / 2 := round_near hpos
      _ = pow2 (binade q) * pow2 (-fmt.precision) := by rw [hexact, mul_div_assoc, hhalf]
      _ ≤ q * pow2 (-fmt.precision) := mul_le_mul_of_nonneg_right (binade_le hpos) (pow2_pos _).le

end rounding

section order

variable {p q : ℚ} {fmt : Format}

theorem halfEven_bounds (q : ℚ) : q.floor ≤ halfEven q ∧ halfEven q ≤ q.floor + 1 := by
  unfold halfEven
  split
  · omega
  · split
    · omega
    · split <;> omega

theorem halfEven_mono (h : p ≤ q) : halfEven p ≤ halfEven q := by
  have hfloor : p.floor ≤ q.floor := Rat.floor_monotone h
  have hp := halfEven_bounds p
  have hq := halfEven_bounds q
  rcases Int.lt_or_eq_of_le hfloor with hlt | heq
  · omega
  · have hfraction : p - p.floor ≤ q - q.floor := by
      rw [heq]
      exact sub_le_sub_right h _
    unfold halfEven at hp hq ⊢
    rw [heq] at hp hfraction ⊢
    by_cases hbelow : q - q.floor < 1 / 2
    · rw [if_pos hbelow, if_pos (hfraction.trans_lt hbelow)]
    · rw [if_neg hbelow]
      by_cases habove : 1 / 2 < q - q.floor
      · rw [if_pos habove]
        split
        · omega
        · split
          · exact le_rfl
          · split <;> omega
      · rw [if_neg habove, if_neg (show ¬1 / 2 < p - q.floor from fun hp => habove (hp.trans_le hfraction))]
        by_cases hsmall : p - q.floor < 1 / 2
        · rw [if_pos hsmall]
          split <;> omega
        · rw [if_neg hsmall]

theorem halfEven_intCast (n : Int) : halfEven n = n := by
  have hfloor : (n : ℚ).floor = n := Rat.floor_intCast n
  rw [halfEven, hfloor, sub_self, if_pos (by norm_num)]

theorem binade_mono (hp : 0 < p) (h : p ≤ q) : binade p ≤ binade q := by
  by_contra hlt
  have hpow : pow2 (binade q + 1) ≤ pow2 (binade p) := pow2_le (by omega)
  exact absurd (lt_binade_succ (hp.trans_le h)) (not_lt.mpr ((hpow.trans (binade_le hp)).trans h))

variable {e : Int}

theorem pow2_div {d : Int} (h : d ≤ e) : pow2 e / pow2 d = ((2 ^ (e - d).toNat : Int) : ℚ) := by
  have hsplit : pow2 e = 2 ^ (e - d).toNat * pow2 d := by
    rw [← pow2_natCast, ← pow2_add]
    congr 1
    omega
  rw [hsplit, mul_div_cancel_right₀ _ (pow2_pos d).ne']
  norm_num

theorem round_le_pow2 (hp : 0 < p) (h : p ≤ pow2 e) (hunit : max (binade p + 1 - fmt.precision) fmt.minExponent ≤ e) :
    fmt.round p ≤ pow2 e := by
  have hpos := unit_pos fmt p
  have hscaled : p / fmt.unit p ≤ ((2 ^ (e - max (binade p + 1 - fmt.precision) fmt.minExponent).toNat : Int) : ℚ) := by
    rw [← pow2_div hunit]
    exact div_le_div_of_nonneg_right h hpos.le
  have hrounded := halfEven_mono hscaled
  rw [halfEven_intCast] at hrounded
  have hcast : (halfEven (p / fmt.unit p) : ℚ) ≤ pow2 e / fmt.unit p := by
    rw [Format.unit, pow2_div hunit]
    exact_mod_cast hrounded
  rw [Format.round, if_neg hp.ne']
  exact (le_div_iff₀ hpos).mp hcast

theorem pow2_le_round (hp : 0 < p) (h : pow2 e ≤ p) (hunit : max (binade p + 1 - fmt.precision) fmt.minExponent ≤ e) :
    pow2 e ≤ fmt.round p := by
  have hpos := unit_pos fmt p
  have hscaled : ((2 ^ (e - max (binade p + 1 - fmt.precision) fmt.minExponent).toNat : Int) : ℚ) ≤ p / fmt.unit p := by
    rw [← pow2_div hunit]
    exact div_le_div_of_nonneg_right h hpos.le
  have hrounded := halfEven_mono hscaled
  rw [halfEven_intCast] at hrounded
  have hcast : pow2 e / fmt.unit p ≤ (halfEven (p / fmt.unit p) : ℚ) := by
    rw [Format.unit, pow2_div hunit]
    exact_mod_cast hrounded
  rw [Format.round, if_neg hp.ne']
  exact (div_le_iff₀ hpos).mp hcast

theorem binade_le_of_le_pow2 (hp : 0 < p) (h : p ≤ pow2 e) : binade p ≤ e := by
  by_contra hlt
  have hnext : pow2 e < pow2 (e + 1) := by
    rw [pow2_eq, pow2_eq]
    exact zpow_lt_zpow_right₀ (by norm_num) (by omega)
  have hpow : pow2 (e + 1) ≤ pow2 (binade p) := pow2_le (by omega)
  exact absurd ((hnext.trans_le hpow).trans_le (binade_le hp)) (not_lt.mpr h)

theorem round_le_of_le (hprecision : 0 < fmt.precision) (hmin : fmt.minExponent ≤ e) (hp : 0 ≤ p) (h : p ≤ pow2 e) :
    fmt.round p ≤ pow2 e := by
  rcases hp.eq_or_lt with heq | hpos
  · rw [← heq, Format.round, if_pos rfl]
    exact (pow2_pos e).le
  · have hbinade := binade_le_of_le_pow2 hpos h
    exact round_le_pow2 hpos h (by omega)

theorem round_nonneg (h : 0 ≤ q) : 0 ≤ fmt.round q := by
  rcases h.eq_or_lt with heq | hpos
  · rw [← heq, Format.round, if_pos rfl]
  · rw [Format.round, if_neg hpos.ne']
    have hscaled : ((0 : Int) : ℚ) ≤ q / fmt.unit q := by
      rw [Int.cast_zero]
      exact div_nonneg h (unit_pos fmt q).le
    have hrounded := halfEven_mono hscaled
    rw [halfEven_intCast] at hrounded
    exact mul_nonneg (by exact_mod_cast hrounded) (unit_pos fmt q).le

theorem round_mono (hprecision : 0 < fmt.precision) (hp : 0 ≤ p) (h : p ≤ q) : fmt.round p ≤ fmt.round q := by
  rcases hp.eq_or_lt with heq | hpos
  · rw [← heq, Format.round, if_pos rfl]
    exact round_nonneg (hp.trans h)
  · have hq := hpos.trans_le h
    have hbinade := binade_mono hpos h
    by_cases hunit : max (binade p + 1 - fmt.precision) fmt.minExponent =
      max (binade q + 1 - fmt.precision) fmt.minExponent
    · have hsame : fmt.unit p = fmt.unit q := congrArg pow2 hunit
      rw [Format.round, Format.round, if_neg hpos.ne', if_neg hq.ne', hsame]
      have hscaled := halfEven_mono (div_le_div_of_nonneg_right h (unit_pos fmt q).le)
      exact mul_le_mul_of_nonneg_right (by exact_mod_cast hscaled) (unit_pos fmt q).le
    · -- the greater number lies in a higher binade, and the power of two between them is a multiple of both units
      have hhigher : pow2 (binade p + 1) ≤ pow2 (binade q) := pow2_le (by omega)
      have hbelow : p ≤ pow2 (binade q) := (lt_binade_succ hpos).le.trans hhigher
      exact (round_le_pow2 hpos hbelow (by omega)).trans (pow2_le_round hq (binade_le hq) (by omega))

end order

inductive Number where
  | nan
  | infinite (negative : Bool)
  | finite (negative : Bool) (magnitude : ℚ)
  deriving DecidableEq

def signed (negative : Bool) (magnitude : ℚ) : ℚ := if negative then -magnitude else magnitude

namespace Number

def ofNat (n : Nat) : Number := .finite false n

def ofRat (fmt : Format) (negative : Bool) (q : ℚ) : Number :=
  if fmt.round |q| < pow2 fmt.maxExponent then .finite (if q = 0 then negative else q < 0) (fmt.round |q|)
  else .infinite (q < 0)

def isFinite : Number → Bool
  | .finite _ _ => true
  | _ => false

def neg : Number → Number
  | .nan => .nan
  | .infinite negative => .infinite !negative
  | .finite negative magnitude => .finite (!negative) magnitude

def abs : Number → Number
  | .nan => .nan
  | .infinite _ => .infinite false
  | .finite _ magnitude => .finite false magnitude

def add (fmt : Format) : Number → Number → Number
  | .nan, _ | _, .nan => .nan
  | .infinite x, .infinite y => if x = y then .infinite x else .nan
  | .infinite x, _ => .infinite x
  | _, .infinite y => .infinite y
  | .finite x m, .finite y n => ofRat fmt (x && y) (signed x m + signed y n)

def sub (fmt : Format) (x y : Number) : Number := add fmt x y.neg

def mul (fmt : Format) : Number → Number → Number
  | .nan, _ | _, .nan => .nan
  | .infinite x, .infinite y => .infinite (x ^^ y)
  | .infinite x, .finite y n => if n = 0 then .nan else .infinite (x ^^ y)
  | .finite x m, .infinite y => if m = 0 then .nan else .infinite (x ^^ y)
  | .finite x m, .finite y n => ofRat fmt (x ^^ y) (signed x m * signed y n)

def div (fmt : Format) : Number → Number → Number
  | .nan, _ | _, .nan => .nan
  | .infinite _, .infinite _ => .nan
  | .infinite x, .finite y _ => .infinite (x ^^ y)
  | .finite x _, .infinite y => .finite (x ^^ y) 0
  | .finite x m, .finite y n =>
    if n = 0 then if m = 0 then .nan else .infinite (x ^^ y)
    else ofRat fmt (x ^^ y) (signed x m / signed y n)

def mulAdd (fmt : Format) : Number → Number → Number → Number
  | .finite x m, .finite y n, .finite z o =>
    ofRat fmt ((x ^^ y) && z) (signed x m * signed y n + signed z o)
  | x, y, z => add fmt (mul fmt x y) z

def convert (fmt : Format) : Number → Number
  | .finite negative magnitude => ofRat fmt negative (signed negative magnitude)
  | x => x

def le : Number → Number → Bool
  | .nan, _ | _, .nan => false
  | .infinite true, _ | _, .infinite false => true
  | .infinite false, _ | _, .infinite true => false
  | .finite x m, .finite y n => signed x m ≤ signed y n

def max : Number → Number → Number
  | .nan, y => y
  | x, .nan => x
  | x, y => if x.le y then y else x

def ofBits (bits : UInt32) : Number :=
  let negative : Bool := bits.toNat / 2 ^ 31 = 1
  let exponent : Nat := bits.toNat / 2 ^ 23 % 2 ^ 8
  let fraction : Nat := bits.toNat % 2 ^ 23
  if exponent = 255 then if fraction = 0 then .infinite negative else .nan
  else if exponent = 0 then .finite negative (fraction * pow2 (-149))
  else .finite negative ((2 ^ 23 + fraction : Nat) * pow2 ((exponent : Int) - 150))

def signBit (negative : Bool) : Nat := if negative then 2 ^ 31 else 0

def toBits : Number → UInt32
  | .nan => 0x7fc00000
  | .infinite negative => UInt32.ofNat (signBit negative + 0x7f800000)
  | .finite negative magnitude =>
    if magnitude = 0 then UInt32.ofNat (signBit negative)
    else if binade magnitude < -126 then UInt32.ofNat (signBit negative + (magnitude / pow2 (-149)).floor.toNat)
    else UInt32.ofNat (signBit negative + (binade magnitude + 126).toNat * 2 ^ 23 +
      (magnitude / pow2 (binade magnitude - 23)).floor.toNat)

end Number

section exact

variable {fmt : Format} {q : ℚ} {x y negative : Bool} {m n : ℚ}

theorem signed_not (x : Bool) (m : ℚ) : signed (!x) m = -signed x m := by
  cases x <;> simp [signed]

theorem Number.finite_of_isFinite {x : Number} (h : x.isFinite = true) : ∃ negative m, x = .finite negative m := by
  cases x with
  | nan => cases h
  | infinite negative => cases h
  | finite negative m => exact ⟨negative, m, rfl⟩

theorem ofRat_of_nonneg (h : 0 ≤ q) (hbound : fmt.round q < pow2 fmt.maxExponent) :
    Number.ofRat fmt false q = .finite false (fmt.round q) := by
  have habs : |q| = q := abs_of_nonneg h
  by_cases hzero : q = 0
  · simp only [Number.ofRat, habs, if_pos hbound, if_pos hzero]
  · have hsign : decide (q < 0) = false := decide_eq_false (not_lt.mpr h)
    simp only [Number.ofRat, habs, if_pos hbound, if_neg hzero, hsign]

theorem max_finite (m n : ℚ) : Number.max (.finite false m) (.finite false n) = .finite false (max m n) := by
  by_cases hle : m ≤ n
  · simp [Number.max, Number.le, signed, hle]
  · simp [Number.max, Number.le, signed, hle, max_eq_left (not_le.mp hle).le]

theorem abs_sub_le (h : (Number.sub fmt (.finite y n) (.finite x m)).abs.le (.finite false q) = true) :
    fmt.round |signed y n - signed x m| ≤ q := by
  have hsum : signed y n + signed (!x) m = signed y n - signed x m := by rw [signed_not, sub_eq_add_neg]
  simp only [Number.sub, Number.neg, Number.add, hsum, Number.ofRat] at h
  split at h
  · simpa [Number.abs, Number.le, signed] using h
  · cases h

theorem ofBits_finite {bits : UInt32} (h : Number.ofBits bits = .finite negative m) :
    (∃ k : Nat, m = k * pow2 (-149)) ∧ m < pow2 128 := by
  have hfraction : bits.toNat % 2 ^ 23 < 2 ^ 23 := Nat.mod_lt _ (by norm_num)
  have hexponent : bits.toNat / 2 ^ 23 % 2 ^ 8 < 2 ^ 8 := Nat.mod_lt _ (by norm_num)
  generalize hf : bits.toNat % 2 ^ 23 = fraction at hfraction
  generalize he : bits.toNat / 2 ^ 23 % 2 ^ 8 = exponent at hexponent
  simp only [Number.ofBits, hf, he] at h
  by_cases htop : exponent = 255
  · rw [if_pos htop] at h
    split at h <;> cases h
  · rw [if_neg htop] at h
    by_cases hsub : exponent = 0
    · rw [if_pos hsub] at h
      cases h
      refine ⟨⟨fraction, rfl⟩, ?_⟩
      have hpow : pow2 23 = ((2 ^ 23 : Nat) : ℚ) := rfl
      have hsmall : (fraction : ℚ) < pow2 23 := by
        rw [hpow]
        exact_mod_cast hfraction
      have hpos := pow2_pos (-149)
      calc (fraction : ℚ) * pow2 (-149) < pow2 23 * pow2 (-149) := mul_lt_mul_of_pos_right hsmall hpos
        _ = pow2 (-126) := by rw [← pow2_add]; norm_num
        _ ≤ pow2 128 := pow2_le (by norm_num)
    · rw [if_neg hsub] at h
      cases h
      have hsplit : pow2 ((exponent : Int) - 150) = 2 ^ (exponent - 1) * pow2 (-149) := by
        rw [← pow2_natCast, ← pow2_add]
        congr 1
        omega
      refine ⟨⟨(2 ^ 23 + fraction) * 2 ^ (exponent - 1), ?_⟩, ?_⟩
      · rw [hsplit]
        push_cast
        ring
      · have hsmall : ((2 ^ 23 + fraction : Nat) : ℚ) < pow2 24 := by
          have hlt : 2 ^ 23 + fraction < 2 ^ 24 := by omega
          have hcast : ((2 ^ 23 + fraction : Nat) : ℚ) < ((2 ^ 24 : Nat) : ℚ) := by exact_mod_cast hlt
          have hpow : pow2 24 = ((2 ^ 24 : Nat) : ℚ) := rfl
          rw [hpow]
          exact hcast
        calc ((2 ^ 23 + fraction : Nat) : ℚ) * pow2 ((exponent : Int) - 150)
            < pow2 24 * pow2 ((exponent : Int) - 150) := mul_lt_mul_of_pos_right hsmall (pow2_pos _)
          _ = pow2 (24 + ((exponent : Int) - 150)) := (pow2_add _ _).symm
          _ ≤ pow2 128 := pow2_le (by omega)

end exact

end Binary
