import Spns.Lib.Rounding

/-!
# Double precision numbers

The numbers of the 64-bit binary format are rational numbers here, and an
operation rounds its exact result to the nearest of them.  Results beyond the
largest number are infinite.  There are no signs of zero and of infinity.

The error of an operation on numbers of moderate size is a small fraction of
the exact result, and these fractions add up.  An integer that is rounded from
a result with such an error is the right one unless the exact result is close
to the middle between two integers.
-/

namespace Spns.Lib.Binary64

open Spns.Lib.Rounding

/-- The distance of the numbers around `x`: there are 53 bits for the digits,
and none for less than the smallest number. -/
def unit (x : ℚ) : ℚ :=
  2 ^ max (Int.log 2 |x| - 52) (-1074)

/-- The nearest multiple of the distance; ties go to the even one. -/
def nearest (x : ℚ) : ℚ :=
  roundHalfEven (x / unit x) * unit x

inductive Number where
  | finite (value : ℚ)
  | infinite
  deriving DecidableEq

/-- The number that is stored for an exact result. -/
def ofRat (x : ℚ) : Number :=
  if |nearest x| < 2 ^ 1024 then .finite (nearest x) else .infinite

/-- Divide a number by another one, which is not zero. -/
def divide (dividend : ℚ) : Number → Number
  | .finite divisor => ofRat (dividend / divisor)
  | .infinite => .finite 0

/-- Multiply by a number that is not zero. -/
def times (factor : ℚ) : Number → Number
  | .finite value => ofRat (value * factor)
  | .infinite => .infinite

/-! ## Relative errors -/

/-- `y` differs from `x` by that fraction of `x` at most. -/
def Within (error y x : ℚ) : Prop :=
  |y - x| ≤ error * x

namespace Within

variable {error other x y z w : ℚ}

theorem iff_bounds : Within error y x ↔ (1 - error) * x ≤ y ∧ y ≤ (1 + error) * x := by
  rw [Within, abs_le]
  constructor
  · rintro ⟨low, high⟩
    constructor <;> linarith
  · rintro ⟨low, high⟩
    constructor <;> linarith

theorem mono (near : Within error y x) (nonneg : 0 ≤ x) (more : error ≤ other) :
    Within other y x :=
  le_trans near (mul_le_mul_of_nonneg_right more nonneg)

theorem mul_const (near : Within error y x) {factor : ℚ} (positive : 0 < factor) :
    Within error (y * factor) (x * factor) := by
  rw [Within, ← sub_mul, abs_mul, abs_of_pos positive, ← mul_assoc]
  exact mul_le_mul_of_nonneg_right near positive.le

/-- The errors of two operations after one another. -/
theorem trans (second : Within other z y) (first : Within error y x) (otherNonneg : 0 ≤ other) :
    Within (error + other + error * other) z x := by
  obtain ⟨low, high⟩ := iff_bounds.mp first
  have step : |z - x| ≤ |z - y| + |y - x| := abs_sub_le z y x
  have bound : other * y ≤ other * ((1 + error) * x) := mul_le_mul_of_nonneg_left high otherNonneg
  rw [Within] at second first ⊢
  linarith

/-- The error of a quotient of two numbers that have errors. -/
theorem div (dividend : Within error y x) (divisor : Within error w z) (nonneg : 0 ≤ x)
    (positive : 0 < z) (errorNonneg : 0 ≤ error) (small : error ≤ 1 / 3) :
    Within (3 * error) (y / w) (x / z) := by
  obtain ⟨low, high⟩ := iff_bounds.mp dividend
  obtain ⟨below, above⟩ := iff_bounds.mp divisor
  have divisorPositive : 0 < w := lt_of_lt_of_le (by nlinarith) below
  refine iff_bounds.mpr ⟨?_, ?_⟩
  · rw [← mul_div_assoc, div_le_div_iff₀ positive divisorPositive]
    calc
      (1 - 3 * error) * x * w ≤ (1 - error) / (1 + error) * x * w := by
        refine mul_le_mul_of_nonneg_right (mul_le_mul_of_nonneg_right ?_ nonneg) divisorPositive.le
        rw [le_div_iff₀ (by linarith)]
        nlinarith
      _ = (1 - error) * x * (w / (1 + error)) := by
        ring
      _ ≤ y * z :=
        mul_le_mul low ((div_le_iff₀ (by linarith)).mpr (by linarith))
          (div_nonneg divisorPositive.le (by linarith)) (le_trans (by nlinarith) low)
  · rw [← mul_div_assoc, div_le_div_iff₀ divisorPositive positive]
    calc
      y * z ≤ (1 + error) * x * (w / (1 - error)) :=
        mul_le_mul high ((le_div_iff₀ (by linarith)).mpr (by linarith)) positive.le (by nlinarith)
      _ = (1 + error) / (1 - error) * x * w := by
        ring
      _ ≤ (1 + 3 * error) * x * w := by
        refine mul_le_mul_of_nonneg_right (mul_le_mul_of_nonneg_right ?_ nonneg) divisorPositive.le
        rw [div_le_iff₀ (by linarith)]
        nlinarith

end Within

/-! ## One operation -/

/-- The relative error of one operation. -/
def roundoff : ℚ :=
  2 ^ (-53 : Int)

/-- The relative error of a few operations. -/
def tolerance : ℚ :=
  2 ^ (-50 : Int)

/-- Large enough for all 53 bits, and far from the largest number. -/
def Normal (x : ℚ) : Prop :=
  2 ^ (-1022 : Int) ≤ x ∧ x ≤ 2 ^ (1022 : Int)

instance (x : ℚ) : Decidable (Normal x) :=
  inferInstanceAs (Decidable (_ ∧ _))

theorem unit_pos (x : ℚ) : 0 < unit x :=
  zpow_pos (by norm_num) _

theorem nearest_error (x : ℚ) : |nearest x - x| ≤ unit x / 2 := by
  obtain ⟨low, high⟩ := roundHalfEven_bounds (x / unit x)
  have split : nearest x - x = (roundHalfEven (x / unit x) - x / unit x) * unit x := by
    rw [sub_mul, div_mul_cancel₀ x (unit_pos x).ne']
    rfl
  have half : |roundHalfEven (x / unit x) - x / unit x| ≤ 1 / 2 := by
    rw [abs_le]
    constructor <;> linarith
  rw [split, abs_mul, abs_of_pos (unit_pos x)]
  linarith [mul_le_mul_of_nonneg_right half (unit_pos x).le]

theorem Normal.pos {x : ℚ} (normal : Normal x) : 0 < x :=
  lt_of_lt_of_le (zpow_pos (by norm_num) _) normal.1

theorem Normal.unit_le {x : ℚ} (normal : Normal x) : unit x ≤ 2 ^ (-52 : Int) * x := by
  have positive := normal.pos
  have log : (2 : ℚ) ^ Int.log 2 x ≤ x := by
    exact_mod_cast Int.zpow_log_le_self (b := 2) (by norm_num) positive
  rw [unit, abs_of_pos positive]
  rcases max_choice (Int.log 2 x - 52) (-1074) with digits | smallest
  · rw [digits, sub_eq_add_neg, zpow_add₀ (by norm_num), mul_comm]
    exact mul_le_mul_of_nonneg_left log (zpow_nonneg (by norm_num) _)
  · rw [smallest]
    calc
      (2 : ℚ) ^ (-1074 : Int) = 2 ^ (-52 : Int) * 2 ^ (-1022 : Int) := by
        rw [← zpow_add₀ (by norm_num)]
        norm_num
      _ ≤ 2 ^ (-52 : Int) * x :=
        mul_le_mul_of_nonneg_left normal.1 (zpow_nonneg (by norm_num) _)

theorem Normal.within_nearest {x : ℚ} (normal : Normal x) : Within roundoff (nearest x) x := by
  refine (nearest_error x).trans ?_
  calc
    unit x / 2 ≤ 2 ^ (-52 : Int) * x / 2 :=
      div_le_div_of_nonneg_right normal.unit_le (by norm_num)
    _ = roundoff * x := by
      rw [roundoff]
      norm_num
      ring

theorem Normal.ofRat_eq {x : ℚ} (normal : Normal x) : ofRat x = .finite (nearest x) := by
  obtain ⟨low, high⟩ := Within.iff_bounds.mp normal.within_nearest
  have positive := normal.pos
  have below : nearest x ≤ 2 * 2 ^ (1022 : Int) := by
    refine high.trans (mul_le_mul ?_ normal.2 positive.le (by norm_num))
    norm_num [roundoff]
  refine if_pos ?_
  rw [abs_of_nonneg (le_trans (mul_nonneg (by norm_num [roundoff]) positive.le) low)]
  refine lt_of_le_of_lt below ?_
  calc
    (2 : ℚ) * 2 ^ (1022 : Int) = 2 ^ (1023 : Int) := by
      rw [← zpow_one_add₀ (by norm_num)]
      norm_num
    _ < 2 ^ 1024 := by
      rw [← zpow_natCast]
      exact zpow_lt_zpow_right₀ (by norm_num) (by norm_num)

theorem ofRat_zero : ofRat 0 = .finite 0 := by
  decide +kernel

/-! ## A rounded product of a quotient -/

/-- No integer and a half is within that fraction of `x`. -/
def ClearOfHalves (x : ℚ) : Prop :=
  tolerance * x < |x - (x.floor + 1 / 2)|

instance (x : ℚ) : Decidable (ClearOfHalves x) :=
  inferInstanceAs (Decidable (_ < _))

/-- Such a number and one with a small error are rounded to the same integer. -/
theorem ClearOfHalves.roundHalfEven_eq {x y : ℚ} (clear : ClearOfHalves x)
    (near : Within tolerance y x) : roundHalfEven y = roundHalfEven x := by
  obtain ⟨low, high⟩ := abs_le.mp near
  have floor := x.floor_le
  have next := x.lt_floor_add_one
  push_cast at next
  rw [ClearOfHalves] at clear
  rcases lt_or_ge x (x.floor + 1 / 2) with below | above
  · rw [abs_of_neg (by linarith)] at clear
    have rounded : roundHalfEven x = x.floor :=
      Rounding.roundHalfEven_eq (by linarith) below
    rw [rounded]
    exact Rounding.roundHalfEven_eq (by linarith) (by linarith)
  · rw [abs_of_nonneg (by linarith)] at clear
    have nonneg : 0 ≤ tolerance * x := (abs_nonneg (y - x)).trans near
    have rounded : roundHalfEven x = x.floor + 1 := by
      apply Rounding.roundHalfEven_eq <;> push_cast <;> linarith
    rw [rounded]
    apply Rounding.roundHalfEven_eq <;> push_cast <;> linarith

/-- Far from the ends of the range. -/
def Moderate (x : ℚ) : Prop :=
  2 ^ (-1000 : Int) ≤ x ∧ x ≤ 2 ^ (1000 : Int)

instance (x : ℚ) : Decidable (Moderate x) :=
  inferInstanceAs (Decidable (_ ∧ _))

theorem Moderate.normal_of_within {x y : ℚ} (moderate : Moderate x)
    (near : Within tolerance y x) {factor : ℚ} (atLeast : 1 ≤ factor)
    (atMost : factor ≤ 2 ^ (20 : Int)) : Normal (y * factor) := by
  obtain ⟨low, high⟩ := Within.iff_bounds.mp near
  obtain ⟨large, small⟩ := moderate
  have positive : 0 < x := lt_of_lt_of_le (zpow_pos (by norm_num) _) large
  have half : 2 ^ (-1 : Int) * x ≤ y :=
    le_trans (mul_le_mul_of_nonneg_right (by norm_num [tolerance]) positive.le) low
  have double : y ≤ 2 ^ (1 : Int) * x :=
    high.trans (mul_le_mul_of_nonneg_right (by norm_num [tolerance]) positive.le)
  have nonneg : 0 ≤ y := le_trans (by positivity) half
  constructor
  · calc
      (2 : ℚ) ^ (-1022 : Int) ≤ 2 ^ ((-1 : Int) + -1000) :=
        zpow_le_zpow_right₀ (by norm_num) (by norm_num)
      _ = 2 ^ (-1 : Int) * 2 ^ (-1000 : Int) :=
        zpow_add₀ (by norm_num) _ _
      _ ≤ y := le_trans (mul_le_mul_of_nonneg_left large (by norm_num)) half
      _ ≤ y * factor := le_mul_of_one_le_right nonneg atLeast
  · calc
      y * factor ≤ 2 ^ (1 : Int) * 2 ^ (1000 : Int) * 2 ^ (20 : Int) :=
        mul_le_mul (double.trans (mul_le_mul_of_nonneg_left small (by norm_num))) atMost
          (by linarith) (by positivity)
      _ = 2 ^ ((1 : Int) + 1000 + 20) := by
        rw [zpow_add₀ (by norm_num), zpow_add₀ (by norm_num)]
      _ ≤ 2 ^ (1022 : Int) :=
        zpow_le_zpow_right₀ (by norm_num) (by norm_num)

theorem Moderate.normal {x : ℚ} (moderate : Moderate x) : Normal x := by
  have same : Within tolerance x x := by
    rw [Within, sub_self, abs_zero]
    exact mul_nonneg (by norm_num [tolerance]) (le_trans (by norm_num) moderate.1)
  simpa using moderate.normal_of_within same le_rfl (by norm_num)

/-- Numbers of moderate size, divided and multiplied in double precision: the
result differs little from the exact one. -/
theorem exists_times_divide {dividend divisor : ℚ} (dividendModerate : Moderate dividend)
    (divisorModerate : Moderate divisor) (quotientModerate : Moderate (dividend / divisor))
    (factor : ℚ) (atLeast : 1 ≤ factor) (atMost : factor ≤ 2 ^ (20 : Int)) :
    ∃ result, times factor (divide (nearest dividend) (.finite (nearest divisor))) =
        .finite result ∧
      Within tolerance result (dividend / divisor * factor) := by
  have nonneg : 0 ≤ roundoff := by norm_num [roundoff]
  have quotientPositive := quotientModerate.normal.pos
  -- the errors of the two operands and of the three operations add up to less than eight
  have operands := dividendModerate.normal.within_nearest.div
    divisorModerate.normal.within_nearest dividendModerate.normal.pos.le
    divisorModerate.normal.pos nonneg (by norm_num [roundoff])
  have operandsNear : Within tolerance _ _ :=
    operands.mono quotientPositive.le (by norm_num [roundoff, tolerance])
  have quotientNormal := quotientModerate.normal_of_within operandsNear le_rfl (by norm_num)
  rw [mul_one] at quotientNormal
  have quotient := quotientNormal.within_nearest.trans operands nonneg
  have quotientNear : Within tolerance _ _ :=
    quotient.mono quotientPositive.le (by norm_num [roundoff, tolerance])
  have productNormal := quotientModerate.normal_of_within quotientNear atLeast atMost
  have product := productNormal.within_nearest.trans (quotient.mul_const (by linarith)) nonneg
  refine ⟨_, ?_, product.mono (by positivity) (by norm_num [roundoff, tolerance])⟩
  rw [divide, quotientNormal.ofRat_eq, times, productNormal.ofRat_eq]

end Spns.Lib.Binary64
