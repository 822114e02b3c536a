import Mathlib.Algebra.Order.BigOperators.Group.Finset
import Mathlib.Tactic.Common

set_option relaxedAutoImplicit false
set_option autoImplicit false

/-!
# Rounded means

The mean of a family of natural numbers over a finite set, rounded down.

## Main definitions

* `Means.mean` — the mean of `f` over `s`.

## Main results

* `Means.exists_le_mean`, `Means.exists_mean_le` — a mean lies between two values.
* `Means.mean_lt_mean` — a value that grows by at least the number of the values raises the mean.
-/

namespace Means

variable {ι : Type*} {s : Finset ι} {f g : ι → ℕ}

/-- The mean of `f` over `s`, rounded down. -/
def mean (s : Finset ι) (f : ι → ℕ) : ℕ := (∑ k ∈ s, f k) / s.card

/-- Some value is not above the mean. -/
theorem exists_le_mean (hs : s.Nonempty) : ∃ i ∈ s, f i ≤ mean s f := by
  have hlt : ∑ k ∈ s, f k < ∑ _k ∈ s, (mean s f + 1) := by
    rw [Finset.sum_const_nat fun _ _ => rfl]
    exact Nat.lt_mul_div_succ _ hs.card_pos
  obtain ⟨i, hi, hfi⟩ := Finset.exists_lt_of_sum_lt hlt
  exact ⟨i, hi, Nat.lt_succ_iff.1 hfi⟩

/-- Some value is not below the mean. -/
theorem exists_mean_le (hs : s.Nonempty) : ∃ i ∈ s, mean s f ≤ f i := by
  refine Finset.exists_le_of_sum_le hs ?_
  rw [Finset.sum_const_nat fun _ _ => rfl]
  exact Nat.mul_div_le _ _

/-- The mean grows when one value grows by at least the number of the values and the others stay. -/
theorem mean_lt_mean {i : ι} (hi : i ∈ s) (hgrow : f i + s.card ≤ g i)
    (hsame : ∀ k ∈ s, k ≠ i → f k = g k) : mean s f < mean s g := by
  classical
  have hrest : ∑ k ∈ s.erase i, f k = ∑ k ∈ s.erase i, g k :=
    Finset.sum_congr rfl fun k hk =>
      hsame k (Finset.mem_of_mem_erase hk) (Finset.ne_of_mem_erase hk)
  have hsum : ∑ k ∈ s, f k + s.card ≤ ∑ k ∈ s, g k := by
    rw [← Finset.add_sum_erase s f hi, ← Finset.add_sum_erase s g hi, hrest]
    omega
  calc mean s f < (∑ k ∈ s, f k + s.card) / s.card := by
        rw [Nat.add_div_right _ (Finset.card_pos.2 ⟨i, hi⟩)]
        exact Nat.lt_succ_self _
    _ ≤ mean s g := Nat.div_le_div_right hsum

end Means
