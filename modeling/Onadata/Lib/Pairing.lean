import Mathlib.Algebra.Ring.Parity
import Mathlib.Tactic.Ring

/-!
# `Onadata.Lib.Pairing`: one number for two, and numbers as doubles

* `cantorPair` counts the pairs of natural numbers along the diagonals: those with the sum `w` come
  after the `w * (w + 1) / 2` pairs with a smaller sum. `cantorPair_inj`: different pairs have
  different numbers.
* `roundDouble` is the double nearest to a natural number, which is a natural number again. Of two
  that are as near, it is the one with an even significand. Numbers that need no more than 53 bits
  stay as they are (`roundDouble_of_le`).
-/

set_option autoImplicit false

namespace Onadata.Lib

/-- How many bits of a number are more than the significand of a double has. -/
def extraBits (n : Nat) : Nat :=
  n.log2 + 1 - 53

/-- The significand that is nearest to `n`, for a unit of `unit`. -/
def nearestSignificand (n unit : Nat) : Nat :=
  let below := n / unit
  let rest := n % unit
  if 2 * rest < unit ∨ (2 * rest = unit ∧ below % 2 = 0) then below else below + 1

/-- The exponent of the first power of two that is too large for a double. -/
def maxExponent : Nat := 1024

/-- The nearest double of a number, or none where it is too large for one. -/
def roundDouble (n : Nat) : Option Nat :=
  let unit := 2 ^ extraBits n
  let rounded := nearestSignificand n unit * unit
  if rounded < 2 ^ maxExponent then some rounded else none

theorem nearestSignificand_one (n : Nat) : nearestSignificand n 1 = n := by
  unfold nearestSignificand
  simp [Nat.mod_one]

/-- The numbers that have 53 bits or fewer are doubles. -/
theorem roundDouble_of_lt {n : Nat} (h : n < 2 ^ 53) : roundDouble n = some n := by
  have hbits : extraBits n = 0 := by
    unfold extraBits
    by_cases hzero : n = 0
    · subst hzero
      decide
    · have hlog := (Nat.log2_lt hzero).mpr h
      omega
  unfold roundDouble
  simp only [hbits, Nat.pow_zero, nearestSignificand_one, Nat.mul_one]
  have hlarge : n < 2 ^ maxExponent :=
    Nat.lt_of_lt_of_le h (Nat.pow_le_pow_right (by decide) (by decide))
  simp [hlarge]

/-- A double that is nearest to a positive number is positive. -/
theorem roundDouble_pos {n rounded : Nat} (hpos : 0 < n) (h : roundDouble n = some rounded) :
    0 < rounded := by
  have hunit : 2 ^ extraBits n ≤ n := by
    have hlog : 2 ^ n.log2 ≤ n := Nat.log2_self_le (Nat.ne_of_gt hpos)
    refine Nat.le_trans (Nat.pow_le_pow_right (by decide) ?_) hlog
    unfold extraBits
    omega
  have hsignificand : 0 < nearestSignificand n (2 ^ extraBits n) := by
    have hbelow : 0 < n / 2 ^ extraBits n := Nat.div_pos hunit (Nat.two_pow_pos _)
    unfold nearestSignificand
    simp only
    split <;> omega
  unfold roundDouble at h
  simp only at h
  split at h
  · obtain rfl := Option.some_inj.mp h
    exact Nat.mul_pos hsignificand (Nat.two_pow_pos _)
  · cases h

/-- The number of the pairs with a sum less than `w`. -/
def triangle (w : Nat) : Nat :=
  w * (w + 1) / 2

/-- The number of a pair. -/
def cantorPair (a b : Nat) : Nat :=
  triangle (a + b) + b

theorem two_mul_triangle (w : Nat) : 2 * triangle w = w * (w + 1) :=
  Nat.mul_div_cancel' (Nat.even_mul_succ_self w).two_dvd

theorem triangle_succ (w : Nat) : triangle (w + 1) = triangle w + (w + 1) := by
  have h := two_mul_triangle w
  have hsucc := two_mul_triangle (w + 1)
  have hexpand : (w + 1) * (w + 1 + 1) = w * (w + 1) + 2 * (w + 1) := by ring
  omega

theorem triangle_mono {w w' : Nat} (h : w ≤ w') : triangle w ≤ triangle w' := by
  induction h with
  | refl => exact Nat.le_refl _
  | step _ ih =>
      rw [triangle_succ]
      omega

/-- A number is at least that of the sum. -/
theorem le_triangle (w : Nat) : w ≤ triangle w := by
  induction w with
  | zero => exact Nat.zero_le _
  | succ w ih =>
      rw [triangle_succ]
      omega

/-- The pairs with a smaller sum come before. -/
theorem cantorPair_lt_triangle (a b : Nat) : cantorPair a b < triangle (a + b + 1) := by
  unfold cantorPair
  rw [triangle_succ]
  omega

theorem sum_le_of_cantorPair_eq {a b a' b' : Nat} (h : cantorPair a b = cantorPair a' b') :
    a + b ≤ a' + b' := by
  by_contra hlt
  have hmono : triangle (a' + b' + 1) ≤ triangle (a + b) := triangle_mono (by omega)
  have hbefore := cantorPair_lt_triangle a' b'
  unfold cantorPair at h hbefore
  omega

/-- Different pairs have different numbers. -/
theorem cantorPair_inj {a b a' b' : Nat} (h : cantorPair a b = cantorPair a' b') :
    a = a' ∧ b = b' := by
  have hsum : a + b = a' + b' :=
    Nat.le_antisymm (sum_le_of_cantorPair_eq h) (sum_le_of_cantorPair_eq h.symm)
  unfold cantorPair at h
  rw [hsum] at h
  omega

/-- A number is not less than the first one of its pair. -/
theorem left_le_cantorPair (a b : Nat) : a ≤ cantorPair a b := by
  have h := le_triangle (a + b)
  unfold cantorPair
  omega

end Onadata.Lib
