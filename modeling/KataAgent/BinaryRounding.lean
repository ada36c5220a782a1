import Mathlib.Data.Int.Log
import Mathlib.Data.Rat.Floor
import Mathlib.Tactic.Linarith
import Mathlib.Tactic.NormNum

namespace KataAgent
set_option autoImplicit true

/-- The nearest integer, and half way between two of them the even one. -/
def roundEven (x : ℚ) : ℤ :=
  if Int.fract x < 1 / 2 then ⌊x⌋
  else if 1 / 2 < Int.fract x then ⌊x⌋ + 1
  else if Even ⌊x⌋ then ⌊x⌋ else ⌊x⌋ + 1

/-- The exponent of the last bit of a number with `p` bits behind the first one. -/
def lastPlace (p : ℕ) (x : ℚ) : ℤ := Int.log 2 x - p

/-- The nearest number with `p` bits behind the first one, for exponents without bounds. -/
def roundBinary (p : ℕ) (x : ℚ) : ℚ := roundEven (x / 2 ^ lastPlace p x) * 2 ^ lastPlace p x

section
variable {x y : ℚ} {n : ℤ} {p : ℕ}

theorem floor_le_roundEven (x : ℚ) : ⌊x⌋ ≤ roundEven x := by
  rw [roundEven]
  split_ifs <;> omega

theorem roundEven_le_floor (x : ℚ) : roundEven x ≤ ⌊x⌋ + 1 := by
  rw [roundEven]
  split_ifs <;> omega

@[simp] theorem roundEven_intCast (n : ℤ) : roundEven n = n := by
  rw [roundEven, Int.fract_intCast, Int.floor_intCast, if_pos (by norm_num)]

theorem roundEven_mono (h : x ≤ y) : roundEven x ≤ roundEven y := by
  rcases (Int.floor_mono h).lt_or_eq with hlt | heq
  · have hx := roundEven_le_floor x
    have hy := floor_le_roundEven y
    omega
  · have hfract : Int.fract x ≤ Int.fract y := by
      rw [Int.fract, Int.fract, heq]
      linarith
    rw [roundEven, roundEven, heq]
    split_ifs with h1 h2 h3 h4 h5 h6
    all_goals first | omega | exact absurd hfract (by linarith)

theorem le_roundEven (h : (n : ℚ) ≤ x) : n ≤ roundEven x := by
  rw [← roundEven_intCast n]
  exact roundEven_mono h

theorem roundEven_le (h : x ≤ (n : ℚ)) : roundEven x ≤ n := by
  rw [← roundEven_intCast n]
  exact roundEven_mono h

theorem lastPlace_pos (p : ℕ) (x : ℚ) : (0 : ℚ) < 2 ^ lastPlace p x := zpow_pos (by norm_num) _

theorem pow_mul_lastPlace (p : ℕ) (x : ℚ) :
    (2 : ℚ) ^ p * 2 ^ lastPlace p x = 2 ^ Int.log 2 x := by
  rw [lastPlace, ← zpow_natCast, ← zpow_add₀ (by norm_num)]
  congr 1
  omega

theorem le_roundBinary (hx : 0 < x) : 2 ^ Int.log 2 x ≤ roundBinary p x := by
  have hplace := lastPlace_pos p x
  have hlow : ((2 ^ p : ℤ) : ℚ) ≤ x / 2 ^ lastPlace p x := by
    rw [le_div_iff₀ hplace]
    push_cast
    rw [pow_mul_lastPlace]
    exact Int.zpow_log_le_self (by decide) hx
  have hround : ((2 ^ p : ℤ) : ℚ) ≤ roundEven (x / 2 ^ lastPlace p x) :=
    Int.cast_le.2 (le_roundEven hlow)
  rw [roundBinary, ← pow_mul_lastPlace p x]
  push_cast at hround
  exact mul_le_mul_of_nonneg_right hround hplace.le

theorem roundBinary_le (p : ℕ) (x : ℚ) : roundBinary p x ≤ 2 ^ (Int.log 2 x + 1) := by
  have hplace := lastPlace_pos p x
  have hhigh : x / 2 ^ lastPlace p x ≤ ((2 ^ p * 2 : ℤ) : ℚ) := by
    rw [div_le_iff₀ hplace]
    push_cast
    rw [mul_right_comm, pow_mul_lastPlace, ← zpow_add_one₀ (by norm_num)]
    exact (Int.lt_zpow_succ_log_self (by decide) x).le
  have hround : (roundEven (x / 2 ^ lastPlace p x) : ℚ) ≤ ((2 ^ p * 2 : ℤ) : ℚ) :=
    Int.cast_le.2 (roundEven_le hhigh)
  rw [roundBinary, zpow_add_one₀ (by norm_num), ← pow_mul_lastPlace p x, mul_right_comm]
  push_cast at hround
  exact mul_le_mul_of_nonneg_right hround hplace.le

theorem roundBinary_zero (p : ℕ) : roundBinary p 0 = 0 := by
  have hzero : roundEven 0 = 0 := roundEven_intCast 0
  rw [roundBinary, zero_div, hzero, Int.cast_zero, zero_mul]

theorem roundBinary_nonneg (hx : 0 ≤ x) : 0 ≤ roundBinary p x := by
  rcases hx.eq_or_lt with rfl | hx
  · rw [roundBinary_zero]
  · exact le_trans (zpow_pos (by norm_num) _).le (le_roundBinary hx)

theorem roundBinary_mono (hx : 0 ≤ x) (h : x ≤ y) : roundBinary p x ≤ roundBinary p y := by
  rcases hx.eq_or_lt with rfl | hx
  · rw [roundBinary_zero]
    exact roundBinary_nonneg h
  rcases (Int.log_mono_right hx h : Int.log 2 x ≤ Int.log 2 y).lt_or_eq with hlt | heq
  · -- a power of two lies between them
    calc roundBinary p x ≤ 2 ^ (Int.log 2 x + 1) := roundBinary_le p x
      _ ≤ 2 ^ Int.log 2 y := zpow_le_zpow_right₀ (by norm_num) hlt
      _ ≤ roundBinary p y := le_roundBinary (hx.trans_le h)
  · have hplace := lastPlace_pos p y
    have hround : (roundEven (x / 2 ^ lastPlace p y) : ℚ) ≤ roundEven (y / 2 ^ lastPlace p y) :=
      Int.cast_le.2 (roundEven_mono (div_le_div_of_nonneg_right h hplace.le))
    have hlast : lastPlace p x = lastPlace p y := by rw [lastPlace, heq, lastPlace]
    rw [roundBinary, roundBinary, hlast]
    exact mul_le_mul_of_nonneg_right hround hplace.le

end

end KataAgent
