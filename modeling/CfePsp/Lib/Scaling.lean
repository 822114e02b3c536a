import Mathlib.Algebra.Order.Group.Nat
import Mathlib.Tactic.Common

set_option relaxedAutoImplicit false
set_option autoImplicit false

/-!
# Scaling with a product that wraps

A number is scaled by a ratio `q / c` by multiplying first and dividing then. The product is formed
modulo `m`, and once it wraps, the result is wrong and smaller than the one before.

## Main results

* `Scaling.mod_div_eq_iff` — the scaled number is exact if and only if the product does not wrap.
* `Scaling.exists_drop` — where the product first wraps, the scaled number falls.
-/

namespace Scaling

variable {m q c n p : ℕ}

/-- A quotient of a product modulo `m` is exact if and only if the product is less than `m`.

**Proof sketch.** A product that wraps loses at least `m`, which is at least one divisor. -/
theorem mod_div_eq_iff (hc : 0 < c) (hcm : c ≤ m) : p % m / c = p / c ↔ p < m := by
  constructor
  · intro h
    by_contra hge
    have hlost : p % m + c ≤ p := by
      have hmod := Nat.mod_add_div p m
      have hquot : 1 ≤ p / m := (Nat.one_le_div_iff (hc.trans_le hcm)).2 (not_lt.1 hge)
      have hmul : m * 1 ≤ m * (p / m) := Nat.mul_le_mul_left m hquot
      omega
    have hless : (p % m + c) / c ≤ p / c := Nat.div_le_div_right hlost
    rw [Nat.add_div_right _ hc] at hless
    omega
  · intro h
    rw [Nat.mod_eq_of_lt h]

/-- A number up to the divisor is scaled to at most the factor. -/
lemma div_le (h : n ≤ c) : q * n / c ≤ q := by
  refine Nat.div_le_of_le_mul ?_
  rw [Nat.mul_comm c]
  exact Nat.mul_le_mul_left q h

/-- A part of the divisor is scaled to less than the factor, whether or not the product wraps. -/
lemma mod_div_lt (hq : 0 < q) (h : n < c) : q * n % m / c < q := by
  rw [Nat.div_lt_iff_lt_mul (Nat.zero_lt_of_lt h)]
  exact lt_of_le_of_lt (Nat.mod_le _ _) (Nat.mul_lt_mul_of_pos_left h hq)

/-- The number after the last one whose product does not wrap is scaled to less. -/
lemma drop (hc : 0 < c) (hlow : n * q < m) (hhigh : m ≤ (n + 1) * q) (hsmall : 2 * q + c ≤ m) :
    (n + 1) * q % m / c < n * q / c := by
  rw [Nat.succ_mul] at hhigh ⊢
  have hmod : (n * q + q) % m = n * q + q - m := by
    rw [Nat.mod_eq_sub_mod hhigh, Nat.mod_eq_of_lt (by omega)]
  have hlost : n * q + q - m + c ≤ n * q := by omega
  have hless : (n * q + q - m + c) / c ≤ n * q / c := Nat.div_le_div_right hlost
  rw [Nat.add_div_right _ hc] at hless
  rw [hmod]
  omega

/-- **Where the product first wraps, the scaled number falls.** If the product of `k` wraps, there
is a number below `k` whose product does not, and whose successor is scaled to less. -/
theorem exists_drop {k : ℕ} (hc : 0 < c) (hsmall : 2 * q + c ≤ m) (hk : m ≤ k * q) :
    ∃ n < k, n * q < m ∧ (n + 1) * q % m / c < n * q / c := by
  have hq : 0 < q := by
    refine Nat.pos_of_ne_zero fun hzero => ?_
    rw [hzero, Nat.mul_zero] at hk
    omega
  obtain ⟨n, hn⟩ : ∃ n, (m - 1) / q = n := ⟨_, rfl⟩
  have hlow : n * q ≤ m - 1 := hn ▸ Nat.div_mul_le_self (m - 1) q
  have hhigh : m - 1 < (n + 1) * q := by
    rw [Nat.mul_comm]
    exact hn ▸ Nat.lt_mul_div_succ (m - 1) hq
  refine ⟨n, ?_, by omega, drop hc (by omega) (by omega) hsmall⟩
  by_contra hle
  have := Nat.mul_le_mul_right q (not_lt.1 hle)
  omega

end Scaling
