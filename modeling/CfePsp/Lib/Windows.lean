import Mathlib.Data.Nat.ModEq
import Mathlib.Data.Nat.Bitwise
import Mathlib.Tactic.Common

set_option relaxedAutoImplicit false
set_option autoImplicit false

/-!
# Free-running counters and sliding windows

A ring of `2 ^ k` slots is often indexed by two `w`-bit counters that only ever count up and
wrap around: the slot of a counter value is its low `k` bits, the fill level is the difference
of the two. The lemmas here relate such counters to the natural numbers they count, so that an
argument about the ring can be made about natural numbers that never wrap.

## Main results

* `Window.mod_ne_mod` — two numbers less than `n` apart have different residues mod `n`.
* `Window.toNat_ofNat_sub_ofNat` — the difference of two wrapping counters is the true
  difference as long as that fits in the word.
* `Window.toNat_and_mask` — masking with `2 ^ k - 1` is the residue mod `2 ^ k`.
-/

namespace Window

/-- Two numbers less than `n` apart occupy different slots of a ring of `n` slots. -/
lemma mod_ne_mod {n i j : ℕ} (hij : i < j) (hj : j < i + n) : i % n ≠ j % n := by
  intro h
  have hdvd : n ∣ j - i := (Nat.modEq_iff_dvd' hij.le).1 h
  have := Nat.le_of_dvd (by omega) hdvd
  omega

/-- The difference of two free-running counters is the number of increments between them. -/
lemma toNat_ofNat_sub_ofNat {w n r : ℕ} (hr : r ≤ n) (hn : n < r + 2 ^ w) :
    (BitVec.ofNat w n - BitVec.ofNat w r).toNat = n - r := by
  have hsub : BitVec.ofNat w n - BitVec.ofNat w r = BitVec.ofNat w (n - r) := by
    obtain ⟨d, rfl⟩ := Nat.exists_eq_add_of_le hr
    rw [Nat.add_sub_cancel_left, BitVec.ofNat_add, BitVec.add_comm, BitVec.add_sub_cancel]
  rw [hsub, BitVec.toNat_ofNat, Nat.mod_eq_of_lt (by omega)]

/-- Masking a word with `2 ^ k - 1` takes its residue modulo `2 ^ k`. -/
lemma toNat_and_mask {w k : ℕ} (hk : k ≤ w) (x : BitVec w) :
    (x &&& BitVec.ofNat w (2 ^ k - 1)).toNat = x.toNat % 2 ^ k := by
  have hlt : 2 ^ k - 1 < 2 ^ w := by
    have := Nat.pow_le_pow_right (by omega : 0 < 2) hk
    have := Nat.two_pow_pos k
    omega
  rw [BitVec.toNat_and, BitVec.toNat_ofNat, Nat.mod_eq_of_lt hlt, Nat.and_two_pow_sub_one_eq_mod]

/-- The low `k` bits of a word are zero if and only if it is a multiple of `2 ^ k`. -/
lemma and_mask_eq_zero_iff {w k : ℕ} (hk : k ≤ w) (x : BitVec w) :
    x &&& BitVec.ofNat w (2 ^ k - 1) = 0 ↔ 2 ^ k ∣ x.toNat := by
  rw [← BitVec.toNat_inj, toNat_and_mask hk, Nat.dvd_iff_mod_eq_zero]
  rfl

/-- The next bit of a multiple of `2 ^ k` tells whether it is one of `2 ^ (k + 1)`. -/
lemma and_bit_eq_zero_iff {w k : ℕ} (hk : k < w) {x : BitVec w} (h : 2 ^ k ∣ x.toNat) :
    x &&& BitVec.ofNat w (2 ^ k) = 0 ↔ 2 ^ (k + 1) ∣ x.toNat := by
  have hbits : 2 ^ (k + 1) - 1 = 2 ^ k ||| (2 ^ k - 1) := by
    have hpos := Nat.two_pow_pos k
    have hor := Nat.two_pow_add_eq_or_of_lt (i := k) (b := 2 ^ k - 1) (by omega) 1
    rw [Nat.mul_one] at hor
    rw [← hor, Nat.pow_succ]
    omega
  rw [← and_mask_eq_zero_iff hk x, hbits, BitVec.ofNat_or, BitVec.and_or_distrib_left,
    (and_mask_eq_zero_iff (by omega) x).2 h]
  simp

/-- Subtracting a number that is not larger. -/
lemma toNat_sub_ofNat {w d : ℕ} {x : BitVec w} (h : d ≤ x.toNat) :
    (x - BitVec.ofNat w d).toNat = x.toNat - d := by
  have hd : (BitVec.ofNat w d).toNat = d := by
    rw [BitVec.toNat_ofNat, Nat.mod_eq_of_lt (lt_of_le_of_lt h x.isLt)]
  rw [BitVec.toNat_sub_of_le (BitVec.le_def.2 (hd.le.trans h)), hd]

/-- The low `k` bits of a free-running counter are those of the number it counts. -/
lemma toNat_ofNat_mod {w k n : ℕ} (hk : k ≤ w) :
    (BitVec.ofNat w n).toNat % 2 ^ k = n % 2 ^ k := by
  rw [BitVec.toNat_ofNat, Nat.mod_mod_of_dvd _ (Nat.pow_dvd_pow 2 hk)]

end Window
