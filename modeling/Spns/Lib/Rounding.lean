import Mathlib

/-!
# Rounding to the nearest integer

Rational numbers are rounded to the nearest integer, and to the even one of
two that are equally near.  A quotient by a positive number is rounded to the
same integer as its dividend in few cases only.
-/

namespace Spns.Lib.Rounding

/-- The nearest integer; ties go to the even one. -/
def roundHalfEven (x : ℚ) : Int :=
  let below := x.floor
  if x - below < 1 / 2 then below
  else if 1 / 2 < x - below then below + 1
  else if below % 2 = 0 then below
  else below + 1

theorem roundHalfEven_bounds (x : ℚ) :
    x - 1 / 2 ≤ roundHalfEven x ∧ (roundHalfEven x : ℚ) ≤ x + 1 / 2 := by
  have low := x.floor_le
  have high := x.lt_floor_add_one
  push_cast at high
  simp only [roundHalfEven]
  split_ifs with under above even
  · constructor <;> linarith
  · push_cast
    constructor <;> linarith
  · constructor <;> linarith
  · push_cast
    constructor <;> linarith

/-- A number halfway between two integers is rounded to an even one. -/
theorem roundHalfEven_even {x : ℚ}
    (halfway : x = roundHalfEven x + 1 / 2 ∨ x = roundHalfEven x - 1 / 2) :
    roundHalfEven x % 2 = 0 := by
  have low := x.floor_le
  have high := x.lt_floor_add_one
  push_cast at high
  simp only [roundHalfEven] at halfway ⊢
  split_ifs at halfway ⊢ with under above even
  · rcases halfway with tie | tie <;> linarith
  · push_cast at halfway
    rcases halfway with tie | tie <;> linarith
  · exact even
  · omega

/-- An integer that is nearer than one half is the nearest one. -/
theorem roundHalfEven_eq {x : ℚ} {value : Int} (low : (value : ℚ) - 1 / 2 < x)
    (high : x < value + 1 / 2) : roundHalfEven x = value := by
  obtain ⟨lower, upper⟩ := roundHalfEven_bounds x
  have less : (roundHalfEven x : ℚ) < ((value + 1 : Int) : ℚ) := by
    push_cast
    linarith
  have more : ((value - 1 : Int) : ℚ) < (roundHalfEven x : ℚ) := by
    push_cast
    linarith
  have atMost := Int.cast_lt.mp less
  have atLeast := Int.cast_lt.mp more
  omega

/-- Numbers up to one half are rounded to zero. -/
theorem roundHalfEven_eq_zero {x : ℚ} (nonneg : 0 ≤ x) (small : x ≤ 1 / 2) : roundHalfEven x = 0 := by
  rcases lt_or_eq_of_le small with less | half
  · exact roundHalfEven_eq (by norm_num; linarith) (by norm_num; linarith)
  · rw [half]
    decide +kernel

/-- A number above one half and a quotient of it are rounded to the same integer
only if that is one. -/
theorem roundHalfEven_eq_one {x : ℚ} (large : 1 / 2 < x) {count : Nat} (several : 2 ≤ count)
    (same : roundHalfEven (x / count) = roundHalfEven x) : roundHalfEven x = 1 := by
  have two : (2 : ℚ) ≤ count := by exact_mod_cast several
  obtain ⟨-, upper⟩ := roundHalfEven_bounds (x / count)
  obtain ⟨lower, -⟩ := roundHalfEven_bounds x
  rw [same, ← sub_le_iff_le_add, le_div_iff₀ (by linarith)] at upper
  have positive : (0 : ℚ) < roundHalfEven x := by linarith
  have atLeast : 1 ≤ roundHalfEven x := Int.cast_pos.mp positive
  have one : (1 : ℚ) ≤ roundHalfEven x := by exact_mod_cast atLeast
  have below : (roundHalfEven x : ℚ) < 2 := by nlinarith
  have atMost : roundHalfEven x < 2 := by exact_mod_cast below
  omega

/-- When a number and its quotient are rounded to the same integer. -/
theorem roundHalfEven_div_eq_iff {x : ℚ} (nonneg : 0 ≤ x) {count : Nat} (positive : 0 < count) :
    roundHalfEven (x / count) = roundHalfEven x ↔
      count = 1 ∨ x ≤ 1 / 2 ∨ count = 2 ∧ 1 < x ∧ x < 3 / 2 := by
  have countPositive : (0 : ℚ) < count := Nat.cast_pos.mpr positive
  constructor
  · intro same
    by_contra! other
    obtain ⟨notOne, large, notTwo⟩ := other
    have rounded := roundHalfEven_eq_one large (by omega) same
    have quotientRounded : roundHalfEven (x / count) = 1 := same.trans rounded
    -- one is odd, so neither of the two lies halfway
    have notHalfway : x ≠ 3 / 2 := by
      intro halfway
      have even := roundHalfEven_even (x := x) (Or.inl (by rw [rounded, halfway]; norm_num))
      omega
    have quotientNotHalfway : x / count ≠ 1 / 2 := by
      intro halfway
      have even := roundHalfEven_even (x := x / count)
        (Or.inr (by rw [quotientRounded, halfway]; norm_num))
      omega
    obtain ⟨lower, -⟩ := roundHalfEven_bounds x
    obtain ⟨-, upper⟩ := roundHalfEven_bounds (x / count)
    rw [rounded] at lower
    rw [quotientRounded] at upper
    push_cast at lower upper
    have below : x < 3 / 2 := lt_of_le_of_ne (by linarith) notHalfway
    have quotientAbove : 1 / 2 < x / count := lt_of_le_of_ne (by linarith) quotientNotHalfway.symm
    have above : 1 / 2 * count < x := (lt_div_iff₀ countPositive).mp quotientAbove
    have isTwo : count = 2 := by
      have less : (count : ℚ) < 3 := by linarith
      have natural : count < 3 := by exact_mod_cast less
      omega
    have one : 1 < x := by
      rw [isTwo] at above
      push_cast at above
      linarith
    exact absurd (notTwo isTwo one) (not_le.mpr below)
  · rintro (one | small | ⟨two, low, high⟩)
    · rw [one, Nat.cast_one, div_one]
    · have smaller : x / count ≤ x := div_le_self nonneg (Nat.one_le_cast.mpr positive)
      rw [roundHalfEven_eq_zero nonneg small,
        roundHalfEven_eq_zero (div_nonneg nonneg countPositive.le) (smaller.trans small)]
    · have one : roundHalfEven x = 1 := by
        apply roundHalfEven_eq <;> push_cast <;> linarith
      rw [one, two]
      apply roundHalfEven_eq <;> push_cast <;> linarith

end Spns.Lib.Rounding
