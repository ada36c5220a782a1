import Mathlib.Data.Nat.Bitwise

namespace BitFields
set_option autoImplicit true

/-- The bits from `lo` on, as many as the length says. -/
def mask (lo length : Nat) : Nat := (2 ^ length - 1) <<< lo

theorem testBit_mask (lo length i : Nat) :
    (mask lo length).testBit i = decide (lo ≤ i ∧ i < lo + length) := by
  rw [mask, Nat.testBit_shiftLeft, Nat.testBit_two_pow_sub_one, ← Bool.decide_and, decide_eq_decide]
  omega

theorem and_mask (n lo length : Nat) :
    n &&& mask lo length = (n / 2 ^ lo % 2 ^ length) * 2 ^ lo := by
  rw [← Nat.shiftLeft_eq, ← Nat.shiftRight_eq_div_pow]
  apply Nat.eq_of_testBit_eq
  intro i
  rw [Nat.testBit_and, testBit_mask, Nat.testBit_shiftLeft, Nat.testBit_mod_two_pow,
    Nat.testBit_shiftRight]
  by_cases hlo : lo ≤ i
  · have hlength : lo ≤ i ∧ i < lo + length ↔ i - lo < length := by omega
    rw [Nat.add_sub_cancel' hlo, decide_eq_true hlo, decide_eq_decide.2 hlength, Bool.true_and,
      Bool.and_comm]
  · rw [decide_eq_false hlo, decide_eq_false fun h => hlo h.1, Bool.and_false, Bool.false_and]

/-- Pieces of a number that do not overlap are added up. -/
theorem or_shift (h : a < 2 ^ k) (b : Nat) : a ||| b * 2 ^ k = a + b * 2 ^ k := by
  rw [Nat.or_comm, ← Nat.shiftLeft_eq, ← Nat.shiftLeft_add_eq_or_of_lt h, Nat.shiftLeft_eq,
    Nat.add_comm]

end BitFields
