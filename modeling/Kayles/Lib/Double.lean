import Mathlib.Algebra.Order.Floor.Ring
import Mathlib.Data.Int.Log
import Mathlib.Data.Rat.Floor
import Mathlib.Tactic.FieldSimp
import Mathlib.Tactic.Linarith
import Mathlib.Tactic.NormNum
import Mathlib.Tactic.Positivity
import Mathlib.Tactic.Ring

set_option autoImplicit false

/-! # Double-precision numbers

A value of the binary64 format is a rational number, an infinity or NaN; the two zeros are one.
Comparisons with NaN are false, and the result of an operation is the exact one rounded to the nearest
value of the format, a tie to the even one. What the proofs need of the rounding is that it does not
cross an integer, nor any other value of the format. -/

/-- A value of the format, with one zero. -/
inductive Double where
  | finite (value : ℚ)
  | infinity (negative : Bool)
  | nan
  deriving DecidableEq, Repr

namespace Double

/-! ## Comparisons -/

/-- `x < y`. -/
def lt : Double → Double → Bool
  | .finite x, .finite y => decide (x < y)
  | .finite _, .infinity negative => !negative
  | .infinity negative, .finite _ => negative
  | .infinity negative, .infinity negative' => negative && !negative'
  | _, _ => false

/-- `x == y`. -/
def eq : Double → Double → Bool
  | .finite x, .finite y => decide (x = y)
  | .infinity negative, .infinity negative' => negative == negative'
  | _, _ => false

/-- Between two finite bounds there are numbers only, and NaN. -/
theorem eq_nan_or_between {x : Double} {a b : ℚ} (ha : x.lt (.finite a) = false)
    (hb : (finite b).lt x = false) :
    x = nan ∨ ∃ value, x = .finite value ∧ a ≤ value ∧ value ≤ b := by
  cases x with
  | finite value => exact .inr ⟨value, rfl, by simpa [lt] using ha, by simpa [lt] using hb⟩
  | infinity negative =>
      obtain rfl : negative = false := ha
      simp [lt] at hb
  | nan => exact .inl rfl

/-! ## Rounding -/

/-- The nearest integer, the even one of two. -/
def roundEven (x : ℚ) : ℤ :=
  if x - ⌊x⌋ < 1 / 2 then ⌊x⌋
  else if 1 / 2 < x - ⌊x⌋ then ⌊x⌋ + 1
  else ⌊x⌋ + ⌊x⌋ % 2

/-- The distance of the values of the format around `x`: a significand has 53 bits, and the smallest
    exponent is that of the subnormal numbers. -/
def ulp (x : ℚ) : ℚ := 2 ^ (max (Int.log 2 |x|) (-1022) - 52)

/-- The nearest value of the format. -/
def round (x : ℚ) : Double :=
  let value := roundEven (x / ulp x) * ulp x
  if 2 ^ 1024 ≤ |value| then .infinity (decide (x < 0)) else .finite value

theorem round_ne_nan (x : ℚ) : round x ≠ nan := by
  unfold round
  simp only
  split <;> exact fun h => by cases h

theorem floor_le_roundEven (x : ℚ) : ⌊x⌋ ≤ roundEven x := by
  have hmod := Int.emod_nonneg ⌊x⌋ (by decide : (2 : ℤ) ≠ 0)
  unfold roundEven
  split_ifs <;> omega

theorem le_roundEven {n : ℤ} {x : ℚ} (h : n ≤ x) : n ≤ roundEven x :=
  (Int.le_floor.2 h).trans (floor_le_roundEven x)

theorem roundEven_le {n : ℤ} {x : ℚ} (h : x ≤ n) : roundEven x ≤ n := by
  have hmod := Int.emod_lt_of_pos ⌊x⌋ (by decide : (0 : ℤ) < 2)
  rcases h.eq_or_lt with rfl | hlt
  · simp [roundEven]
  · have hfloor : ⌊x⌋ < n := Int.floor_lt.2 hlt
    unfold roundEven
    split_ifs <;> omega

theorem ulp_pos (x : ℚ) : 0 < ulp x := zpow_pos (by decide) _

/-- Below 2^53 the integers are values of the format. -/
theorem exists_mul_ulp (n : ℤ) {x : ℚ} (hx : |x| < 2 ^ 53) : ∃ k : ℤ, (k : ℚ) * ulp x = n := by
  have hlog : Int.log 2 |x| ≤ 52 := by
    rcases (abs_nonneg x).eq_or_lt with hzero | hpos
    · rw [← hzero, Int.log_zero_right]
      decide
    · have hlt := (Int.lt_zpow_iff_log_lt (by decide : 1 < 2) (x := 53) hpos).1 (by exact_mod_cast hx)
      omega
  obtain ⟨k, hk⟩ : ∃ k : ℕ, max (Int.log 2 |x|) (-1022) - 52 = -(k : ℤ) :=
    ⟨(52 - max (Int.log 2 |x|) (-1022)).toNat, by omega⟩
  refine ⟨n * 2 ^ k, ?_⟩
  rw [ulp, hk, zpow_neg, zpow_natCast]
  push_cast
  rw [mul_assoc, mul_inv_cancel₀ (by positivity), mul_one]

/-- **Rounding does not cross an integer.** -/
theorem round_between {a b : ℤ} {x : ℚ} (ha : a ≤ x) (hb : x ≤ b)
    (hmax : |(a : ℚ)| < 2 ^ 53 ∧ |(b : ℚ)| < 2 ^ 53) :
    ∃ value : ℚ, round x = .finite value ∧ a ≤ value ∧ value ≤ b := by
  obtain ⟨ha', hb'⟩ := And.intro (abs_lt.1 hmax.1) (abs_lt.1 hmax.2)
  have hx : |x| < 2 ^ 53 := abs_lt.2 ⟨ha'.1.trans_le ha, hb.trans_lt hb'.2⟩
  have hpos := ulp_pos x
  obtain ⟨j, hj⟩ := exists_mul_ulp a hx
  obtain ⟨k, hk⟩ := exists_mul_ulp b hx
  have hlow : (a : ℚ) ≤ roundEven (x / ulp x) * ulp x := by
    have hle : (j : ℚ) ≤ x / ulp x := by
      rw [le_div_iff₀ hpos, hj]
      exact ha
    rw [← hj]
    exact mul_le_mul_of_nonneg_right (by exact_mod_cast le_roundEven hle) hpos.le
  have hhigh : roundEven (x / ulp x) * ulp x ≤ b := by
    have hle : x / ulp x ≤ k := by
      rw [div_le_iff₀ hpos, hk]
      exact hb
    rw [← hk]
    exact mul_le_mul_of_nonneg_right (by exact_mod_cast roundEven_le hle) hpos.le
  have hsmall : |roundEven (x / ulp x) * ulp x| < 2 ^ 53 :=
    abs_lt.2 ⟨ha'.1.trans_le hlow, hhigh.trans_lt hb'.2⟩
  have hpow : (2 : ℚ) ^ 53 < 2 ^ 1024 := pow_lt_pow_right₀ (by decide) (by decide)
  exact ⟨_, if_neg (not_le.2 (hsmall.trans hpow)), hlow, hhigh⟩

/-! ## Operations -/

def neg : Double → Double
  | .finite x => .finite (-x)
  | .infinity negative => .infinity !negative
  | .nan => .nan

def mul : Double → Double → Double
  | .finite x, .finite y => round (x * y)
  | .infinity negative, .finite y =>
    if y = 0 then .nan else .infinity (negative ^^ decide (y < 0))
  | .finite x, .infinity negative =>
    if x = 0 then .nan else .infinity (decide (x < 0) ^^ negative)
  | .infinity negative, .infinity negative' => .infinity (negative ^^ negative')
  | _, _ => .nan

/-- `x - y`. -/
def sub : Double → Double → Double
  | .finite x, .finite y => round (x - y)
  | .infinity negative, .finite _ => .infinity negative
  | .finite _, .infinity negative => .infinity !negative
  | .infinity negative, .infinity negative' =>
    if negative = negative' then .nan else .infinity negative
  | _, _ => .nan

/-- The conversion of an integer. -/
def ofInt (n : ℤ) : Double := round n

/-- `static_cast<uint64_t>`: the fraction is dropped. The behaviour is undefined (`none`) if what is
    left does not fit. -/
def toUInt64 : Double → Option UInt64
  | .finite x =>
    let n := if 0 ≤ x then ⌊x⌋ else ⌈x⌉
    if 0 ≤ n ∧ n < 2 ^ 64 then some (UInt64.ofNat n.toNat) else none
  | _ => none

/-- `static_cast` to a signed integer of 64 bits, as `toUInt64`. -/
def toInt64 : Double → Option ℤ
  | .finite x =>
    let n := if 0 ≤ x then ⌊x⌋ else ⌈x⌉
    if -2 ^ 63 ≤ n ∧ n < 2 ^ 63 then some n else none
  | _ => none

theorem toUInt64_between {a b : ℕ} {x : ℚ} (ha : a ≤ x) (hb : x ≤ b) (hmax : b < 2 ^ 64) :
    ∃ n, (finite x).toUInt64 = some n ∧ a ≤ n.toNat ∧ n.toNat ≤ b := by
  have hnonneg : 0 ≤ x := (Nat.cast_nonneg a).trans ha
  have hlow : (a : ℤ) ≤ ⌊x⌋ := Int.le_floor.2 (by exact_mod_cast ha)
  have hhigh : ⌊x⌋ ≤ (b : ℤ) := by exact_mod_cast (Int.floor_le x).trans hb
  have hfits : 0 ≤ ⌊x⌋ ∧ ⌊x⌋ < 2 ^ 64 := by omega
  refine ⟨UInt64.ofNat ⌊x⌋.toNat, ?_, ?_⟩
  · simp only [toUInt64, if_pos hnonneg, if_pos hfits]
  · rw [UInt64.toNat_ofNat_of_lt' (by show _ < 2 ^ 64; omega)]
    omega

/-! ## Values of the format -/

section Exact

variable {x y v : ℚ} {k : ℤ}

/-- A multiple of the distance between the values is one of them. -/
theorem round_of_mul_ulp (hx : (k : ℚ) * ulp x = x) (hmax : |x| < 2 ^ 1024) :
    round x = .finite x := by
  have hdiv : x / ulp x = k := by
    rw [div_eq_iff (ulp_pos x).ne', hx]
  have heven : roundEven (x / ulp x) = k := by
    rw [hdiv]
    simp [roundEven]
  unfold round
  simp only [heven, hx]
  exact if_neg (not_le.2 hmax)

/-- Rounding does not cross a value of the format. -/
theorem round_le_of_mul_ulp (h : round x = .finite y) (hv : (k : ℚ) * ulp x = v) (hle : x ≤ v) :
    y ≤ v := by
  have hpos := ulp_pos x
  have hdiv : x / ulp x ≤ k := by
    rwa [div_le_iff₀ hpos, hv]
  unfold round at h
  simp only at h
  split at h
  · exact absurd h (by simp)
  · obtain rfl := finite.inj h
    rw [← hv]
    exact mul_le_mul_of_nonneg_right (by exact_mod_cast roundEven_le hdiv) hpos.le

theorem round_ofInt {n : ℤ} (hn : |(n : ℚ)| < 2 ^ 53) : ofInt n = .finite n := by
  obtain ⟨k, hk⟩ := exists_mul_ulp n hn
  exact round_of_mul_ulp hk (hn.trans (pow_lt_pow_right₀ (by decide) (by decide)))

theorem nonneg_of_round (h : round x = .finite y) (hx : 0 ≤ x) : 0 ≤ y := by
  unfold round at h
  simp only at h
  split at h
  · exact absurd h (by simp)
  · obtain rfl := finite.inj h
    have hquot : ((0 : ℤ) : ℚ) ≤ x / ulp x := by
      rw [Int.cast_zero]
      exact div_nonneg hx (ulp_pos x).le
    exact mul_nonneg (by exact_mod_cast le_roundEven hquot) (ulp_pos x).le

/-- From 1 on the values of the format are multiples of 2^-52. -/
theorem exists_eq_div_of_round (h : round x = .finite y) (hy : 1 ≤ y) :
    ∃ k : ℤ, y = k / 2 ^ 52 := by
  rcases lt_or_ge |x| 1 with hlt | hge
  · -- nothing between -1 and 1 is rounded to more than 1
    obtain ⟨hlow, hhigh⟩ := abs_lt.1 hlt
    obtain ⟨value, hvalue, -, hle⟩ := round_between (a := -1) (b := 1) (x := x)
      (by push_cast; exact hlow.le) (by push_cast; exact hhigh.le) (by norm_num)
    obtain rfl := finite.inj (h.symm.trans hvalue)
    push_cast at hle
    refine ⟨2 ^ 52, ?_⟩
    rw [le_antisymm hle hy]
    norm_num
  · have hpos : 0 < |x| := one_pos.trans_le hge
    have hlog : 0 ≤ Int.log 2 |x| :=
      (Int.zpow_le_iff_le_log (by decide) hpos).1 (by simpa using hge)
    obtain ⟨e, he⟩ := Int.eq_ofNat_of_zero_le hlog
    have hulp : ulp x = 2 ^ e / 2 ^ 52 := by
      rw [ulp, he, max_eq_left (by omega), zpow_sub₀ (by decide)]
      norm_cast
    unfold round at h
    simp only at h
    split at h
    · exact absurd h (by simp)
    · obtain rfl := finite.inj h
      refine ⟨roundEven (x / ulp x) * 2 ^ e, ?_⟩
      rw [hulp]
      push_cast
      ring

/-- The fraction of a multiple of 2^-52 is one. -/
theorem exists_fract_eq_div (hk : x = k / 2 ^ 52) : ∃ j : ℤ, Int.fract x = j / 2 ^ 52 := by
  have hmul : x * 2 ^ 52 = k := by
    rw [hk, div_mul_cancel₀ _ (by positivity)]
  refine ⟨k - ⌊x⌋ * 2 ^ 52, ?_⟩
  rw [Int.fract, eq_div_iff (by positivity), sub_mul, hmul]
  push_cast
  norm_num

/-- The fraction of a value of the format from 1 on is one, too. -/
theorem round_fract (hk : x = k / 2 ^ 52) : round (Int.fract x) = .finite (Int.fract x) := by
  have hnonneg := Int.fract_nonneg x
  have hlt := Int.fract_lt_one x
  obtain ⟨j, hj⟩ := exists_fract_eq_div hk
  have hlog : Int.log 2 |Int.fract x| ≤ 0 := by
    rw [abs_of_nonneg hnonneg]
    rcases hnonneg.eq_or_lt with hzero | hpos
    · rw [← hzero, Int.log_zero_right]
    · have := (Int.lt_zpow_iff_log_lt (by decide : 1 < 2) (x := 0) hpos).1 (by simpa using hlt)
      omega
  obtain ⟨e, he⟩ : ∃ e : ℕ, max (Int.log 2 |Int.fract x|) (-1022) = -(e : ℤ) :=
    ⟨(-max (Int.log 2 |Int.fract x|) (-1022)).toNat, by omega⟩
  have hulp : ulp (Int.fract x) = (2 ^ e)⁻¹ / 2 ^ 52 := by
    rw [ulp, he, zpow_sub₀ (by decide), zpow_neg]
    norm_cast
  refine round_of_mul_ulp (k := j * 2 ^ e) ?_ ?_
  · rw [hulp, hj]
    push_cast
    field_simp
  · rw [abs_of_nonneg hnonneg]
    exact hlt.trans (one_lt_pow₀ (by decide) (by decide))

theorem ulp_le (x : ℚ) : ulp x ≤ max |x| 1 / 2 ^ 52 := by
  have hpow : (2 : ℚ) ^ max (Int.log 2 |x|) (-1022) ≤ max |x| 1 := by
    rcases (abs_nonneg x).eq_or_lt with hzero | hpos
    · rw [← hzero, Int.log_zero_right]
      norm_num
    · rcases max_cases (Int.log 2 |x|) (-1022) with ⟨hmax, -⟩ | ⟨hmax, -⟩
      · rw [hmax]
        exact le_max_of_le_left (by exact_mod_cast Int.zpow_log_le_self (by decide) hpos)
      · rw [hmax]
        exact le_max_of_le_right (zpow_le_one_of_nonpos₀ (by norm_num) (by decide))
  rw [ulp, zpow_sub₀ (by decide)]
  exact div_le_div_of_nonneg_right hpow (by positivity)

/-- The fraction of a value of the format, counted in parts of `n`, is less than `n`. -/
theorem round_fract_mul {n : ℕ} (hn : 0 < n) (hmax : n < 2 ^ 53) (hk : x = k / 2 ^ 52) :
    ∃ y, round (Int.fract x * n) = .finite y ∧ ⌊Int.fract x * n⌋ ≤ y ∧ y ≤ ⌈Int.fract x * n⌉ ∧
      y < n := by
  have hnq : (1 : ℚ) ≤ n := by exact_mod_cast hn
  have hmaxq : (n : ℚ) < 2 ^ 53 := by exact_mod_cast hmax
  have hnonneg := Int.fract_nonneg x
  have hfract : Int.fract x ≤ 1 - 1 / 2 ^ 52 := by
    obtain ⟨j, hj⟩ := exists_fract_eq_div hk
    have hlt : (j : ℚ) < (2 ^ 52 : ℤ) := by
      have hone := Int.fract_lt_one x
      rw [hj, div_lt_one (by positivity)] at hone
      exact_mod_cast hone
    have hle : j ≤ 2 ^ 52 - 1 := Int.le_sub_one_of_lt (by exact_mod_cast hlt)
    have hleq : (j : ℚ) ≤ 2 ^ 52 - 1 := by exact_mod_cast hle
    rw [hj, div_le_iff₀ (by positivity)]
    linarith
  have hp : 0 ≤ Int.fract x * n := mul_nonneg hnonneg (by linarith)
  have hpn : Int.fract x * n ≤ (1 - 1 / 2 ^ 52) * n :=
    mul_le_mul_of_nonneg_right hfract (by linarith)
  have hlen : Int.fract x * n ≤ n := by linarith
  have habs : |Int.fract x * n| < 2 ^ 53 := by
    rw [abs_of_nonneg hp]
    exact hlen.trans_lt hmaxq
  have hfloor : |(⌊Int.fract x * n⌋ : ℚ)| < 2 ^ 53 := by
    rw [abs_of_nonneg (by exact_mod_cast Int.floor_nonneg.2 hp)]
    exact (Int.floor_le _).trans_lt (hlen.trans_lt hmaxq)
  have hceil : |(⌈Int.fract x * n⌉ : ℚ)| < 2 ^ 53 := by
    rw [abs_of_nonneg (by exact_mod_cast Int.ceil_nonneg hp)]
    have hle : ⌈Int.fract x * n⌉ ≤ (n : ℤ) := Int.ceil_le.2 (by exact_mod_cast hlen)
    exact lt_of_le_of_lt (by exact_mod_cast hle) hmaxq
  obtain ⟨y, hy, hlow, hhigh⟩ := round_between (Int.floor_le _) (Int.le_ceil _) ⟨hfloor, hceil⟩
  refine ⟨y, hy, hlow, hhigh, ?_⟩
  -- the value of the format before `n` is not exceeded
  obtain ⟨j, hj⟩ := exists_mul_ulp n habs
  have hulp : ulp (Int.fract x * n) ≤ n / 2 ^ 52 := by
    refine (ulp_le _).trans (div_le_div_of_nonneg_right ?_ (by positivity))
    rw [abs_of_nonneg hp]
    exact max_le hlen hnq
  have hle : y ≤ n - ulp (Int.fract x * n) := by
    refine round_le_of_mul_ulp (k := j - 1) hy ?_ (by linarith)
    push_cast at hj ⊢
    rw [sub_mul, hj, one_mul]
  linarith [ulp_pos (Int.fract x * n)]

end Exact

end Double
