import Mathlib.Data.Nat.Bitwise
import Mathlib.Algebra.Group.Nat.Defs
/-!
# Masks of powers of two

What `&`, `|` and `~` with a power of two do to a number of `w` bits, in
terms of quotient and remainder: an address rounded down to a multiple,
and a flag in the top bit.
-/

namespace ObcSdk

namespace Masks

variable {n s k w : ℕ}

/-- The low bits are the remainder. -/
theorem and_low : n &&& (2 ^ k - 1) = n % 2 ^ k := Nat.and_two_pow_sub_one_eq_mod n k

/-- **Without the low bits a number is rounded down.** -/
theorem and_not_low (hn : n < 2 ^ w) (hk : k ≤ w) :
    n &&& (2 ^ w - 1 - (2 ^ k - 1)) = 2 ^ k * (n / 2 ^ k) := by
  have hmask : 2 ^ w - 1 - (2 ^ k - 1) = 2 ^ k * (2 ^ (w - k) - 1) := by
    rw [Nat.mul_sub, ← pow_add, Nat.add_sub_cancel' hk, mul_one]
    have := Nat.one_le_two_pow (n := k)
    omega
  rw [hmask]
  refine Nat.eq_of_testBit_eq fun i => ?_
  rw [Nat.testBit_and, Nat.testBit_two_pow_mul, Nat.testBit_two_pow_mul,
    Nat.testBit_two_pow_sub_one, Nat.testBit_div_two_pow]
  by_cases hi : k ≤ i
  · rw [Nat.sub_add_cancel hi]
    by_cases hiw : i < w
    · simp [hi, show i - k < w - k by omega]
    · have hbit : n.testBit i = false :=
        Nat.testBit_lt_two_pow (hn.trans_le (Nat.pow_le_pow_right (by omega) (by omega)))
      simp [hbit]
  · simp [hi]

/-- The top bit is clear in the numbers below it. -/
theorem and_top (hn : n < 2 ^ (k + 1)) : n &&& 2 ^ k = 0 ↔ n < 2 ^ k := by
  rw [Nat.and_two_pow, Nat.testBit_eq_decide_div_mod_eq]
  have hlt : n / 2 ^ k < 2 := by
    rw [Nat.div_lt_iff_lt_mul (Nat.two_pow_pos k), ← pow_succ']
    exact hn
  have hdiv : n / 2 ^ k = 0 ↔ n < 2 ^ k := Nat.div_eq_zero_iff_lt (Nat.two_pow_pos k)
  rw [← hdiv]
  rcases Nat.le_one_iff_eq_zero_or_eq_one.1 (Nat.le_of_lt_succ hlt) with h0 | h1
  · simp [h0]
  · simp [h1]

/-- Set in a number below it, it is added. -/
theorem or_top (hs : s < 2 ^ k) : s ||| 2 ^ k = s + 2 ^ k := by
  have h := Nat.two_pow_add_eq_or_of_lt hs 1
  rw [mul_one] at h
  rw [Nat.or_comm, ← h, Nat.add_comm]

/-- And cleared it is gone. -/
theorem add_top_and_not_top (hs : s < 2 ^ k) :
    (s + 2 ^ k) &&& (2 ^ (k + 1) - 1 - 2 ^ k) = s := by
  have hmask : 2 ^ (k + 1) - 1 - 2 ^ k = 2 ^ k - 1 := by
    rw [pow_succ]
    omega
  rw [hmask, and_low, Nat.add_mod_right, Nat.mod_eq_of_lt hs]

end Masks

end ObcSdk
