import Mathlib

/-! # Decimal arithmetic

Decimals are rationals; an operation of a decimal context rounds its exact result to as many digits
as the context keeps, ties to even.  `roundHalfEven` rounds to an integer, `roundDigits n` to `n`
significant digits.  The bounds of a context on exponents are left out. -/

namespace Lib

/-- The nearest integer; of two, the even one. -/
def roundHalfEven (x : ℚ) : ℤ :=
  if x - ⌊x⌋ < 1 / 2 then ⌊x⌋
  else if 1 / 2 < x - ⌊x⌋ then ⌊x⌋ + 1
  else if Even ⌊x⌋ then ⌊x⌋
  else ⌊x⌋ + 1

theorem floor_le_roundHalfEven (x : ℚ) : ⌊x⌋ ≤ roundHalfEven x := by
  unfold roundHalfEven
  split_ifs <;> omega

/-- The number rounded to `n` significant digits. -/
def roundDigits (n : ℕ) (q : ℚ) : ℚ :=
  if q = 0 then 0
  else
    let exponent : ℤ := Int.log 10 |q| - (n - 1)
    roundHalfEven (q / 10 ^ exponent) * 10 ^ exponent

theorem roundDigits_pos {n : ℕ} {q : ℚ} (hn : 0 < n) (hq : 0 < q) : 0 < roundDigits n q := by
  unfold roundDigits
  rw [if_neg hq.ne']
  have hexp : Int.log 10 |q| = Int.log 10 |q| - (n - 1) + (n - 1) := by omega
  generalize hdef : Int.log 10 |q| - ((n : ℤ) - 1) = exponent at hexp
  have hten : (0 : ℚ) < 10 ^ exponent := by positivity
  -- The first digit of the quotient stands before the point.
  have hlog : (10 : ℚ) ^ Int.log 10 |q| ≤ |q| := by
    have h := Int.zpow_log_le_self (b := 10) (r := |q|) (by norm_num) (by positivity)
    exact_mod_cast h
  have hone : (1 : ℚ) ≤ q / 10 ^ exponent := by
    rw [le_div_iff₀ hten, one_mul]
    calc (10 : ℚ) ^ exponent ≤ 10 ^ Int.log 10 |q| := by
          apply zpow_le_zpow_right₀ (by norm_num)
          omega
      _ ≤ |q| := hlog
      _ = q := abs_of_pos hq
  have hfloor : (1 : ℤ) ≤ ⌊q / 10 ^ exponent⌋ := Int.le_floor.mpr (by exact_mod_cast hone)
  have hround : (0 : ℤ) < roundHalfEven (q / 10 ^ exponent) := by
    have hle := floor_le_roundHalfEven (q / 10 ^ exponent)
    omega
  have hcast : (0 : ℚ) < roundHalfEven (q / 10 ^ exponent) := by exact_mod_cast hround
  dsimp only
  positivity

end Lib
