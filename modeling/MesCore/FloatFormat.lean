import MesCore.Rounding
import Mathlib.Data.Int.Log
import Mathlib.Algebra.Order.Field.Power
import Mathlib.Tactic.Positivity

namespace MesCore
set_option autoImplicit true

section
variable {q : ℚ} {n : ℤ}

theorem roundHalfEven_lt (h : q < n - 1 / 2) : roundHalfEven q < n := by
  have hle := (abs_le.1 (nearestEven_roundHalfEven q).le).1
  have hlt : (roundHalfEven q : ℚ) < n := by linarith
  exact_mod_cast hlt

theorem roundHalfEven_le (h : q ≤ n) : roundHalfEven q ≤ n := by
  apply Int.lt_add_one_iff.1
  apply roundHalfEven_lt
  rw [Int.cast_add, Int.cast_one]
  linarith

theorem le_roundHalfEven (h : n ≤ q) : n ≤ roundHalfEven q := by
  have hneg : -q ≤ ((-n : ℤ) : ℚ) := by
    rw [Int.cast_neg]
    exact neg_le_neg h
  have hle := roundHalfEven_le hneg
  rw [roundHalfEven_neg] at hle
  exact neg_le_neg_iff.1 hle

theorem le_roundHalfEven_of_even (hn : Even n) (h : n - 1 / 2 ≤ q) : n ≤ roundHalfEven q := by
  by_contra hlt
  have hstep : roundHalfEven q ≤ n - 1 := by omega
  have hcast : (roundHalfEven q : ℚ) ≤ n - 1 := by exact_mod_cast hstep
  have hfar : 1 / 2 ≤ q - roundHalfEven q := by linarith
  rcases nearestEven_roundHalfEven q with hnear | ⟨hhalf, heven⟩
  · exact absurd hnear (not_lt.2 (hfar.trans (le_abs_self _)))
  · have htop : q - roundHalfEven q ≤ 1 / 2 := hhalf ▸ le_abs_self _
    have hge : (n : ℚ) - 1 ≤ roundHalfEven q := by linarith
    have hpred : roundHalfEven q = n - 1 := by
      apply le_antisymm hstep
      exact_mod_cast hge
    rw [hpred] at heven
    exact Int.not_even_iff_odd.2 (hn.sub_odd odd_one) heven

end

/-- A binary floating-point format: the bits of a significand, the exponent of the last bit of the
smallest numbers, and the power of two that is too large. -/
structure FloatFormat where
  precision : ℕ
  leastExp : ℤ
  topExp : ℤ
  precision_pos : 0 < precision
  least_le : leastExp + precision ≤ topExp

namespace FloatFormat

section
variable (f : FloatFormat)

def ulpExp (q : ℚ) : ℤ := max (Int.log 2 |q| + 1 - f.precision) f.leastExp

/-- To nearest, ties to even, as if no power of two were too large. -/
def nearest (q : ℚ) : ℚ := roundHalfEven (q / 2 ^ f.ulpExp q) * 2 ^ f.ulpExp q

def top : ℚ := 2 ^ f.topExp

def largest : ℚ := 2 ^ f.topExp - 2 ^ (f.topExp - f.precision)

def overflow : ℚ := 2 ^ f.topExp - 2 ^ (f.topExp - f.precision - 1)

end

section
variable {f : FloatFormat} {q : ℚ} {n : ℤ}

theorem nearest_zero (f : FloatFormat) : f.nearest 0 = 0 := by
  have h : roundHalfEven 0 = 0 := by
    rw [roundHalfEven_eq_iff, NearestEven, Int.cast_zero, sub_zero, abs_zero]
    exact .inl (by norm_num)
  rw [nearest, zero_div, h, Int.cast_zero, zero_mul]

theorem nearest_neg (f : FloatFormat) (q : ℚ) : f.nearest (-q) = -f.nearest q := by
  rw [nearest, nearest, ulpExp, abs_neg, ← ulpExp, neg_div, roundHalfEven_neg, Int.cast_neg,
    neg_mul]

theorem two_zpow_pos (e : ℤ) : (0 : ℚ) < 2 ^ e := zpow_pos (by norm_num) e

theorem two_pow_mul (m : ℕ) (e : ℤ) : ((2 ^ m : ℤ) : ℚ) * 2 ^ e = 2 ^ (e + m) := by
  rw [Int.cast_pow, Int.cast_ofNat, ← zpow_natCast, ← zpow_add₀ (by norm_num), add_comm]

theorem nearest_le (h : q ≤ n * 2 ^ f.ulpExp q) : f.nearest q ≤ n * 2 ^ f.ulpExp q := by
  have hdiv : q / 2 ^ f.ulpExp q ≤ n := (div_le_iff₀ (two_zpow_pos _)).2 h
  have hround : (roundHalfEven (q / 2 ^ f.ulpExp q) : ℚ) ≤ n := by
    exact_mod_cast roundHalfEven_le hdiv
  exact mul_le_mul_of_nonneg_right hround (two_zpow_pos _).le

theorem le_nearest (h : n * 2 ^ f.ulpExp q ≤ q) : n * 2 ^ f.ulpExp q ≤ f.nearest q := by
  have hdiv : (n : ℚ) ≤ q / 2 ^ f.ulpExp q := (le_div_iff₀ (two_zpow_pos _)).2 h
  have hround : (n : ℚ) ≤ roundHalfEven (q / 2 ^ f.ulpExp q) := by
    exact_mod_cast le_roundHalfEven hdiv
  exact mul_le_mul_of_nonneg_right hround (two_zpow_pos _).le

theorem nearest_nonneg (f : FloatFormat) (h : 0 ≤ q) : 0 ≤ f.nearest q := by
  have hzero : ((0 : ℤ) : ℚ) * 2 ^ f.ulpExp q ≤ q := by rwa [Int.cast_zero, zero_mul]
  have hle := le_nearest hzero
  rwa [Int.cast_zero, zero_mul] at hle

theorem abs_nearest (f : FloatFormat) (q : ℚ) : |f.nearest q| = f.nearest |q| := by
  rcases le_total 0 q with h | h
  · rw [abs_of_nonneg h, abs_of_nonneg (nearest_nonneg f h)]
  · have hneg := nearest_nonneg f (neg_nonneg.2 h)
    rw [nearest_neg] at hneg
    rw [abs_of_nonpos h, abs_of_nonpos (neg_nonneg.1 hneg), nearest_neg]

theorem nearest_le_two_zpow (hk : f.ulpExp q ≤ k) (h : q ≤ 2 ^ k) : f.nearest q ≤ 2 ^ k := by
  obtain ⟨m, rfl⟩ := Int.exists_add_of_le hk
  rw [← two_pow_mul] at h ⊢
  exact nearest_le h

theorem two_zpow_le_nearest (hk : f.ulpExp q ≤ k) (h : 2 ^ k ≤ q) : 2 ^ k ≤ f.nearest q := by
  obtain ⟨m, rfl⟩ := Int.exists_add_of_le hk
  rw [← two_pow_mul] at h ⊢
  exact le_nearest h

theorem nearest_pos (h : 2 ^ f.leastExp ≤ q) : 0 < f.nearest q := by
  have hq : 0 < q := (two_zpow_pos _).trans_le h
  have hulp : (2 : ℚ) ^ f.ulpExp q ≤ q := by
    rw [ulpExp, abs_of_pos hq]
    rcases max_cases (Int.log 2 q + 1 - f.precision) f.leastExp with ⟨hmax, -⟩ | ⟨hmax, -⟩
    · have hpos := f.precision_pos
      have hlog : (2 : ℚ) ^ Int.log 2 q ≤ q := Int.zpow_log_le_self (by norm_num) hq
      rw [hmax]
      exact (zpow_le_zpow_right₀ (by norm_num) (by omega)).trans hlog
    · rwa [hmax]
  exact (two_zpow_pos _).trans_le (two_zpow_le_nearest le_rfl hulp)

end

section
variable (f : FloatFormat) {q : ℚ}

theorem two_zpow_pred (e : ℤ) : (2 : ℚ) ^ (e - 1) + 2 ^ (e - 1) = 2 ^ e := by
  rw [← two_mul, ← zpow_one_add₀ (by norm_num), add_sub_cancel]

theorem two_zpow_pred_le_overflow : 2 ^ (f.topExp - 1) ≤ f.overflow := by
  have hpos := f.precision_pos
  have hle : (2 : ℚ) ^ (f.topExp - f.precision - 1) ≤ 2 ^ (f.topExp - 1) :=
    zpow_le_zpow_right₀ (by norm_num) (by omega)
  have htop := two_zpow_pred f.topExp
  rw [overflow]
  linarith

theorem two_zpow_pred_le_largest : 2 ^ (f.topExp - 1) ≤ f.largest := by
  have hpos := f.precision_pos
  have hle : (2 : ℚ) ^ (f.topExp - f.precision) ≤ 2 ^ (f.topExp - 1) :=
    zpow_le_zpow_right₀ (by norm_num) (by omega)
  have htop := two_zpow_pred f.topExp
  rw [largest]
  linarith

theorem overflow_pos : 0 < f.overflow := (two_zpow_pos _).trans_le f.two_zpow_pred_le_overflow

theorem largest_lt_overflow : f.largest < f.overflow :=
  sub_lt_sub_left (zpow_lt_zpow_right₀ (by norm_num) (by omega)) _

theorem overflow_lt_top : f.overflow < f.top := sub_lt_self _ (two_zpow_pos _)

theorem nearest_div_pos (hrange : f.leastExp + f.topExp ≤ 0) {a n : ℚ} (ha : 1 ≤ a) (hn : 0 < n)
    (hlt : n < f.top) : 0 < f.nearest (a / n) := by
  apply nearest_pos
  rw [le_div_iff₀ hn]
  calc (2 : ℚ) ^ f.leastExp * n ≤ 2 ^ f.leastExp * 2 ^ f.topExp :=
        mul_le_mul_of_nonneg_left hlt.le (two_zpow_pos _).le
    _ = 2 ^ (f.leastExp + f.topExp) := (zpow_add₀ (by norm_num) _ _).symm
    _ ≤ 1 := zpow_le_one_of_nonpos₀ (by norm_num) hrange
    _ ≤ a := ha

theorem largest_add_one_le (h : f.precision < f.topExp) : f.largest + 1 ≤ f.overflow := by
  have hsplit := two_zpow_pred (f.topExp - f.precision)
  have hone : (1 : ℚ) ≤ 2 ^ (f.topExp - f.precision - 1) := one_le_zpow₀ (by norm_num) (by omega)
  rw [largest, overflow]
  linarith

theorem overflow_eq :
    f.overflow = (((2 ^ f.precision : ℤ) : ℚ) - 1 / 2) * 2 ^ (f.topExp - f.precision) := by
  have htop := two_pow_mul f.precision (f.topExp - f.precision)
  rw [sub_add_cancel] at htop
  have hhalf := two_zpow_pred (f.topExp - f.precision)
  rw [sub_mul, htop, overflow]
  linarith

theorem largest_eq :
    f.largest = ((2 ^ f.precision - 1 : ℤ) : ℚ) * 2 ^ (f.topExp - f.precision) := by
  have htop := two_pow_mul f.precision (f.topExp - f.precision)
  rw [sub_add_cancel] at htop
  rw [Int.cast_sub, sub_mul, htop, Int.cast_one, one_mul, largest]

theorem ulpExp_of_log (hq : 0 < q) (h : Int.log 2 q = f.topExp - 1) :
    f.ulpExp q = f.topExp - f.precision := by
  have hle := f.least_le
  rw [ulpExp, abs_of_pos hq, h]
  omega

theorem nearest_le_largest (h0 : 0 ≤ q) (h : q < f.overflow) : f.nearest q ≤ f.largest := by
  rcases h0.eq_or_lt with rfl | hq
  · rw [nearest_zero]
    exact (two_zpow_pos _).le.trans f.two_zpow_pred_le_largest
  have hlog : Int.log 2 q < f.topExp :=
    (Int.lt_zpow_iff_log_lt (by norm_num) hq).1 (h.trans f.overflow_lt_top)
  rcases (Int.le_sub_one_of_lt hlog).eq_or_lt with heq | hlt
  · have hulp := f.ulpExp_of_log hq heq
    have hdiv : q / 2 ^ f.ulpExp q < ((2 ^ f.precision : ℤ) : ℚ) - 1 / 2 := by
      rw [div_lt_iff₀ (two_zpow_pos _), hulp, ← overflow_eq]
      exact h
    have hround := Int.le_sub_one_of_lt (roundHalfEven_lt hdiv)
    rw [nearest, hulp, largest_eq] at *
    exact mul_le_mul_of_nonneg_right (by exact_mod_cast hround) (two_zpow_pos _).le
  · have hpos := f.precision_pos
    have hleast := f.least_le
    have hulp : f.ulpExp q ≤ f.topExp - 1 := by
      rw [ulpExp, abs_of_pos hq]
      omega
    have hle : q ≤ 2 ^ (f.topExp - 1) := ((Int.lt_zpow_iff_log_lt (by norm_num) hq).2 hlt).le
    exact (nearest_le_two_zpow hulp hle).trans f.two_zpow_pred_le_largest

theorem top_le_nearest (h : f.overflow ≤ q) : f.top ≤ f.nearest q := by
  have hq : 0 < q := f.overflow_pos.trans_le h
  have hpos := f.precision_pos
  have hleast := f.least_le
  have hlog : f.topExp - 1 ≤ Int.log 2 q :=
    (Int.zpow_le_iff_le_log (by norm_num) hq).1 (f.two_zpow_pred_le_overflow.trans h)
  rcases hlog.eq_or_lt with heq | hlt
  · have hulp := f.ulpExp_of_log hq heq.symm
    have hdiv : ((2 ^ f.precision : ℤ) : ℚ) - 1 / 2 ≤ q / 2 ^ f.ulpExp q := by
      rw [le_div_iff₀ (two_zpow_pos _), hulp, ← overflow_eq]
      exact h
    have heven : Even (2 ^ f.precision : ℤ) := (even_two).pow_of_ne_zero hpos.ne'
    have hround := le_roundHalfEven_of_even heven hdiv
    have htop := two_pow_mul f.precision (f.topExp - f.precision)
    rw [sub_add_cancel] at htop
    rw [top, ← htop, nearest, hulp] at *
    exact mul_le_mul_of_nonneg_right (by exact_mod_cast hround) (two_zpow_pos _).le
  · have hulp : f.ulpExp q ≤ Int.log 2 q := by
      rw [ulpExp, abs_of_pos hq]
      omega
    have hle : (2 : ℚ) ^ Int.log 2 q ≤ q := Int.zpow_log_le_self (by norm_num) hq
    have htop : f.top ≤ 2 ^ Int.log 2 q := zpow_le_zpow_right₀ (by norm_num) (by omega)
    exact htop.trans (two_zpow_le_nearest hulp hle)

theorem abs_nearest_lt_top_iff : |f.nearest q| < f.top ↔ |q| < f.overflow := by
  rw [abs_nearest]
  constructor
  · intro h
    by_contra hge
    exact absurd h (not_lt.2 (f.top_le_nearest (not_lt.1 hge)))
  · intro h
    have hle := f.nearest_le_largest (abs_nonneg q) h
    exact hle.trans_lt (f.largest_lt_overflow.trans f.overflow_lt_top)

end

end FloatFormat
end MesCore
