import Kayles.Implementation.Sockets
import Kayles.Proofs.Configuration

set_option autoImplicit false

/-! # The timeout of a socket

Both programs split the timeout, a `double`, into whole seconds and microseconds. A timeout that is
a number is a value of the format that is at least 1, so its fraction is one, too, and the product
with a million stays below a million: `setsockopt` gets a timeout that is in its range and never
zero, which would mean to wait forever. -/

namespace Kayles

/-! ## What `strtod` returns -/

section Strtod

variable {text str rest : List Char} {value : ℚ}

theorem exists_round_of_scanNumber {isDigit : Char → Bool} {base radix : ℕ} {letter : Char}
    {x : Double} (h : scanNumber isDigit base letter radix str = some (x, rest)) :
    ∃ y : ℚ, 0 ≤ y ∧ x = .round y := by
  unfold scanNumber at h
  simp only at h
  split at h
  · exact absurd h (by simp)
  · obtain ⟨rfl, -⟩ := Prod.mk.inj (Option.some.inj h)
    exact ⟨_, mul_nonneg (by positivity) (zpow_nonneg (Nat.cast_nonneg _) _), rfl⟩

/-- Behind the sign, a number is rounded from one that is not negative. -/
theorem exists_round_of_scanDouble (h : scanDouble str = some (.finite value, rest)) :
    ∃ y : ℚ, 0 ≤ y ∧ Double.round y = .finite value := by
  unfold scanDouble at h
  simp only [Option.orElse_eq_orElse, Option.orElse_eq_or, Option.or_eq_some_iff,
    Option.map_eq_some_iff, Option.bind_eq_some_iff, Prod.mk.injEq, reduceCtorEq, false_and,
    and_false, exists_false, false_or] at h
  rcases h with ⟨-, -, -, hhex | ⟨-, hdecimal⟩⟩
  · obtain ⟨digits, -, hhex⟩ := hhex
    obtain ⟨y, hy, hround⟩ := exists_round_of_scanNumber hhex
    exact ⟨y, hy, hround.symm⟩
  · obtain ⟨y, hy, hround⟩ := exists_round_of_scanNumber hdecimal
    exact ⟨y, hy, hround.symm⟩

/-- A positive result of `strtod` is rounded. -/
theorem exists_round_of_strtod (h : (strtod text).1 = .finite value) (hpos : 0 < value) :
    ∃ y, Double.round y = .finite value := by
  unfold strtod at h
  simp only at h
  split at h
  · obtain rfl := Double.finite.inj h
    exact absurd hpos (lt_irrefl 0)
  · next magnitude rest hscan =>
      split at h
      · -- the sign of a number makes it negative
        cases magnitude with
        | finite x =>
            obtain ⟨y, hy, hround⟩ := exists_round_of_scanDouble hscan
            have hx := Double.nonneg_of_round hround hy
            have hneg : -x = value := Double.finite.inj h
            linarith
        | infinity negative => exact absurd h (by simp [Double.neg])
        | nan => exact absurd h (by simp [Double.neg])
      · simp only at h
        subst h
        obtain ⟨y, -, hround⟩ := exists_round_of_scanDouble hscan
        exact ⟨y, hround⟩

end Strtod

/-! ## Seconds and microseconds -/

/-- What the timeout of a socket is for a timeout that is a number. -/
structure TimevalOf (value : ℚ) (tv : Timeval) : Prop where
  sec : tv.sec = ⌊value⌋
  sec_between : 1 ≤ tv.sec ∧ tv.sec ≤ 99
  usec_between : 0 ≤ tv.usec ∧ tv.usec < 1000000
  exact : |value * 1000000 - (tv.sec * 1000000 + tv.usec : ℤ)| < 1

/-- The number of microseconds is one of the two integers around the exact one. -/
theorem abs_sub_floor_lt {x y : ℚ} (hlow : ⌊x⌋ ≤ y) (hhigh : y ≤ ⌈x⌉) : |x - ⌊y⌋| < 1 := by
  have hfloor : ⌊x⌋ ≤ ⌊y⌋ := Int.le_floor.2 hlow
  have hceil : ⌊y⌋ ≤ ⌈x⌉ := by exact_mod_cast (Int.floor_le y).trans hhigh
  have hfloorq : (⌊x⌋ : ℚ) ≤ ⌊y⌋ := by exact_mod_cast hfloor
  have hceilq : (⌊y⌋ : ℚ) ≤ ⌈x⌉ := by exact_mod_cast hceil
  exact abs_lt.2 ⟨by linarith [Int.ceil_lt_add_one x], by linarith [Int.lt_floor_add_one x]⟩

theorem toInt64_of_nonneg {x : ℚ} (hx : 0 ≤ x) (hmax : x < 2 ^ 53) :
    (Double.finite x).toInt64 = some ⌊x⌋ := by
  have hnonneg : 0 ≤ ⌊x⌋ := Int.floor_nonneg.2 hx
  have hlt : ⌊x⌋ < 2 ^ 53 := Int.floor_lt.2 (by exact_mod_cast hmax)
  simp only [Double.toInt64, if_pos hx]
  exact if_pos ⟨by omega, by omega⟩

/-- **The timeout of a socket**, for a value of the format in the range of the option. -/
theorem exists_timeval {x value : ℚ} (hround : Double.round x = .finite value) (hmin : 1 ≤ value)
    (hmax : value ≤ 99) : ∃ tv, timeval (.finite value) = some tv ∧ TimevalOf value tv := by
  obtain ⟨k, hk⟩ := Double.exists_eq_div_of_round hround hmin
  have hsec : 1 ≤ ⌊value⌋ ∧ ⌊value⌋ ≤ 99 :=
    ⟨Int.le_floor.2 (by exact_mod_cast hmin), by exact_mod_cast (Int.floor_le value).trans hmax⟩
  have hsmall : |(⌊value⌋ : ℚ)| < 2 ^ 53 := by
    rw [abs_of_nonneg (by exact_mod_cast zero_le_one.trans hsec.1)]
    linarith [Int.floor_le value]
  obtain ⟨y, hy, hlow, hhigh, hlt⟩ :=
    Double.round_fract_mul (n := 1000000) (by decide) (by decide) hk
  push_cast at hy hlow hhigh hlt
  have hfract : 0 ≤ Int.fract value * 1000000 := mul_nonneg (Int.fract_nonneg value) (by norm_num)
  have hnonneg : 0 ≤ y := le_trans (by exact_mod_cast Int.floor_nonneg.2 hfract) hlow
  refine ⟨⟨⌊value⌋, ⌊y⌋⟩, ?_, rfl, hsec, ⟨Int.floor_nonneg.2 hnonneg, ?_⟩, ?_⟩
  · have hsub : (Double.finite value).sub (.ofInt ⌊value⌋) = .finite (Int.fract value) := by
      rw [Double.round_ofInt hsmall]
      exact Double.round_fract hk
    have hmul : (Double.finite (Int.fract value)).mul (.finite 1000000) = .finite y := hy
    rw [timeval, toInt64_of_nonneg (by linarith) (by linarith)]
    simp only [Option.bind_eq_bind, Option.bind_some, hsub, hmul]
    rw [toInt64_of_nonneg hnonneg (by linarith)]
    rfl
  · exact Int.floor_lt.2 (by exact_mod_cast hlt)
  · have hexact := abs_sub_floor_lt hlow hhigh
    push_cast
    rwa [show value * 1000000 - (⌊value⌋ * 1000000 + ⌊y⌋)
      = Int.fract value * 1000000 - ⌊y⌋ by rw [Int.fract]; ring]

/-- The milliseconds of the sweep are one of the two integers around the exact number. -/
theorem abs_sub_timeoutMs_lt {value : ℚ} (hmin : 1 ≤ value) (hmax : value ≤ 99) :
    ∃ ms, timeoutMs (.finite value) = some ms ∧ |value * 1000 - ms.toNat| < 1 := by
  have hpos : 0 ≤ value * 1000 := by linarith
  have hfloor : |(⌊value * 1000⌋ : ℚ)| < 2 ^ 53 := by
    rw [abs_of_nonneg (by exact_mod_cast Int.floor_nonneg.2 hpos)]
    linarith [Int.floor_le (value * 1000)]
  have hceil : |(⌈value * 1000⌉ : ℚ)| < 2 ^ 53 := by
    rw [abs_of_nonneg (by exact_mod_cast Int.ceil_nonneg hpos)]
    linarith [Int.ceil_lt_add_one (value * 1000)]
  obtain ⟨product, hround, hlow, hhigh⟩ :=
    Double.round_between (Int.floor_le _) (Int.le_ceil _) ⟨hfloor, hceil⟩
  have hnonneg : 0 ≤ product := le_trans (by exact_mod_cast Int.floor_nonneg.2 hpos) hlow
  have hlt : ⌊product⌋ < 2 ^ 64 := by
    refine Int.floor_lt.2 ?_
    push_cast
    linarith [Int.ceil_lt_add_one (value * 1000)]
  have hms : 0 ≤ ⌊product⌋ := Int.floor_nonneg.2 hnonneg
  refine ⟨UInt64.ofNat ⌊product⌋.toNat, ?_, ?_⟩
  · rw [timeoutMs, Double.mul, hround]
    simp only [Double.toUInt64, if_pos hnonneg]
    exact if_pos ⟨hms, hlt⟩
  · have hcast : ((UInt64.ofNat ⌊product⌋.toNat).toNat : ℤ) = ⌊product⌋ := by
      rw [UInt64.toNat_ofNat_of_lt' (by show _ < 2 ^ 64; omega)]
      exact Int.toNat_of_nonneg hms
    rw [← Int.cast_natCast, hcast]
    exact abs_sub_floor_lt hlow hhigh

/-- **The timeout of a socket** of either program is undefined if it is NaN. Else it is the timeout
of the option to the microsecond, with whole seconds to wait and less than a million microseconds
more; and the timeout that the sweep uses is the same to the millisecond. -/
theorem socket_timeout (program : Program) {opts : List Opt} {config : AppConfig}
    (h : program.parse opts = .ok config) :
    (config.timeout = .nan ∧ timeval config.timeout = none ∧ timeoutMs config.timeout = none) ∨
    ∃ value tv ms, config.timeout = .finite value ∧ timeval config.timeout = some tv ∧
      TimevalOf value tv ∧ timeoutMs config.timeout = some ms ∧
      |tv.sec * 1000000 + tv.usec - ms.toNat * 1000| ≤ 1000 := by
  have hflag : Flag.t.letter ∈ program.allowedFlags := by cases program <;> decide
  obtain ⟨text, config₀, -, hvalid, rfl⟩ := exists_assign_of_allowed h hflag
  obtain ⟨hvalue, hcases⟩ := validateAndConvertDouble_cases hvalid
  have htimeout : (config₀.assign program.isServer (.flag .t text)).timeout = (strtod text).1 :=
    hvalue
  rw [htimeout]
  rcases hcases with hnan | ⟨value, hvalue, hmin, hmax⟩
  · rw [hnan]
    exact .inl ⟨rfl, rfl, rfl⟩
  · obtain ⟨x, hround⟩ := exists_round_of_strtod hvalue (by linarith)
    obtain ⟨tv, htv, hof⟩ := exists_timeval hround hmin hmax
    obtain ⟨ms, hms, hlt⟩ := abs_sub_timeoutMs_lt hmin hmax
    rw [hvalue]
    refine .inr ⟨value, tv, ms, rfl, htv, hof, hms, ?_⟩
    have hexact := abs_lt.1 hof.exact
    have hmilli := abs_lt.1 hlt
    push_cast at hexact
    have hdiff : |((tv.sec * 1000000 + tv.usec - ms.toNat * 1000 : ℤ) : ℚ)| < (1001 : ℤ) := by
      push_cast
      exact abs_lt.2 ⟨by linarith, by linarith⟩
    have hint : |tv.sec * 1000000 + tv.usec - (ms.toNat * 1000 : ℤ)| < 1001 := by
      exact_mod_cast hdiff
    omega

/-- With `-t 1.9`, which no `double` is, a socket waits for a microsecond less than 1900 ms. -/
theorem socket_timeout_server :
    ∃ config value, Program.server.parse
        [.flag .r ['1'], .flag .a ['h'], .flag .p ['0'], .flag .t ['1', '.', '9']] = .ok config ∧
      config.timeout = .finite value ∧ timeval config.timeout = some ⟨1, 899999⟩ ∧
      TimevalOf value ⟨1, 899999⟩ ∧ timeoutMs config.timeout = some 1900 := by
  -- the closest `double` is below 1.9; its product with 1000 rounds up to 1900
  have hparse : Program.server.parse
      [.flag .r ['1'], .flag .a ['h'], .flag .p ['0'], .flag .t ['1', '.', '9']] = .ok
        { address := ['h'], pawnRow := ['1'], port := 0
          timeout := .finite (4278419646001971 / 2251799813685248) } := by
    decide +kernel
  have htimeval : timeval (.finite (4278419646001971 / 2251799813685248)) = some ⟨1, 899999⟩ := by
    decide +kernel
  have htimeoutMs : timeoutMs (.finite (4278419646001971 / 2251799813685248)) = some 1900 := by
    decide +kernel
  rcases socket_timeout .server hparse with ⟨hnan, -⟩ | ⟨value, tv, ms, hvalue, htv, hof, -⟩
  · exact absurd hnan (by simp)
  · obtain rfl := Double.finite.inj hvalue
    obtain rfl := Option.some.inj (htimeval.symm.trans htv)
    exact ⟨_, _, hparse, rfl, htimeval, hof, htimeoutMs⟩

end Kayles
