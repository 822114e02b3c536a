import Mathlib.Algebra.Group.Nat.Defs
import Mathlib.Tactic.Common

set_option relaxedAutoImplicit false
set_option autoImplicit false

/-!
# Intervals of a wrapping address space

An interval of `size` cells from `start` on is often handled by its two ends, the last cell being
`start + size - 1` computed in the width of an address. That is the true last cell for every
interval that is not empty and does not pass the end of the address space; the empty interval at
the address `0` gets the last cell of the whole space instead.

## Main definitions

* `Interval.last` — the last cell, as computed.
* `Interval.Within` — an interval lies in another, as a comparison of the computed ends.

## Main results

* `Interval.last_lt_iff` — when the computed last cell lies before the first one.
* `Interval.within_iff` — the comparison of the ends against exact containment.
* `Interval.Within.part` — what contains an interval contains its parts.
-/

namespace Interval

variable {w : ℕ}

/-- The last cell of `size` cells from `start` on, in wrapping arithmetic. -/
def last (start size : BitVec w) : BitVec w := start + size - 1

/-- The first interval lies in the second, going by the computed ends. -/
def Within (a s start size : BitVec w) : Prop :=
  start ≤ a ∧ a ≤ last start size ∧ last a s ≤ last start size

instance (a s start size : BitVec w) : Decidable (Within a s start size) :=
  inferInstanceAs (Decidable (_ ∧ _ ∧ _))

lemma eq_zero_iff (x : BitVec w) : x = 0 ↔ x.toNat = 0 := by
  rw [← BitVec.toNat_inj]
  simp

/-- The computed last cell of an interval that does not pass the end of the space and is not the
empty one at `0`. -/
lemma toNat_last {start size : BitVec w} (hend : start.toNat + size.toNat ≤ 2 ^ w)
    (hpos : 0 < start.toNat + size.toNat) :
    (last start size).toNat = start.toNat + size.toNat - 1 := by
  have hstart := start.isLt
  have hsize := size.isLt
  have hone : 1 % 2 ^ w = 1 := Nat.mod_eq_of_lt (by omega)
  rw [last, BitVec.toNat_sub, BitVec.toNat_add, BitVec.ofNat_eq_ofNat, BitVec.toNat_ofNat, hone]
  rcases Nat.lt_or_ge (start.toNat + size.toNat) (2 ^ w) with hlt | hge
  · rw [Nat.mod_eq_of_lt hlt]
    have hsplit : 2 ^ w - 1 + (start.toNat + size.toNat) =
        start.toNat + size.toNat - 1 + 2 ^ w := by omega
    rw [hsplit, Nat.add_mod_right, Nat.mod_eq_of_lt (by omega)]
  · have hfull : start.toNat + size.toNat = 2 ^ w := by omega
    rw [hfull, Nat.mod_self, Nat.add_zero, Nat.mod_eq_of_lt (by omega)]

/-- The empty interval at `0` ends with the last cell of the space. -/
lemma toNat_last_zero : (last (0 : BitVec w) 0).toNat = 2 ^ w - 1 := by
  have hones : last (0 : BitVec w) 0 = BitVec.allOnes w := by
    simp [last, BitVec.neg_one_eq_allOnes]
  rw [hones, BitVec.toNat_allOnes]

/-- A last cell past the end of the space comes round to before the first. -/
lemma toNat_last_of_wrap {start size : BitVec w} (hend : 2 ^ w < start.toNat + size.toNat) :
    (last start size).toNat = start.toNat + size.toNat - 1 - 2 ^ w := by
  have hstart := start.isLt
  have hsize := size.isLt
  have hone : 1 % 2 ^ w = 1 := Nat.mod_eq_of_lt (by omega)
  have hsum : (start.toNat + size.toNat) % 2 ^ w = start.toNat + size.toNat - 2 ^ w := by
    rw [Nat.mod_eq_sub_mod (Nat.le_of_lt hend), Nat.mod_eq_of_lt (by omega)]
  rw [last, BitVec.toNat_sub, BitVec.toNat_add, BitVec.ofNat_eq_ofNat, BitVec.toNat_ofNat, hone,
    hsum]
  have hsplit : 2 ^ w - 1 + (start.toNat + size.toNat - 2 ^ w) =
      start.toNat + size.toNat - 1 - 2 ^ w + 2 ^ w := by omega
  rw [hsplit, Nat.add_mod_right, Nat.mod_eq_of_lt (by omega)]

/-- The computed last cell lies before the first exactly when the interval passes the end of the
space, or is empty and not at `0`. -/
lemma last_lt_iff (start size : BitVec w) :
    last start size < start ↔
      2 ^ w < start.toNat + size.toNat ∨ (size = 0 ∧ start ≠ 0) := by
  have hsize := size.isLt
  rw [BitVec.lt_def, Ne, eq_zero_iff, eq_zero_iff]
  rcases Nat.lt_or_ge (2 ^ w) (start.toNat + size.toNat) with hwrap | hend
  · rw [toNat_last_of_wrap hwrap]
    omega
  · rcases Nat.eq_zero_or_pos (start.toNat + size.toNat) with hnil | hpos
    · obtain rfl : start = 0 := (eq_zero_iff start).2 (by omega)
      obtain rfl : size = 0 := (eq_zero_iff size).2 (by omega)
      rw [toNat_last_zero]
      simp
    · rw [toNat_last hend hpos]
      omega

/-- **Containment by the ends.** For an interval that passes the test `a ≤ last a s` and one that
does not pass the end of the space, the comparison of the ends is exact containment, with one
exception: the empty interval at `0` contains everything. -/
lemma within_iff {a s start size : BitVec w} (htest : ¬last a s < a)
    (hend : start.toNat + size.toNat ≤ 2 ^ w) :
    Within a s start size ↔ (start = 0 ∧ size = 0) ∨
      (0 < s.toNat ∧ start.toNat ≤ a.toNat ∧
        a.toNat + s.toNat ≤ start.toNat + size.toNat) := by
  have ha := a.isLt
  have hs := s.isLt
  rw [last_lt_iff, Ne, eq_zero_iff, eq_zero_iff] at htest
  rw [Within, BitVec.le_def, BitVec.le_def, BitVec.le_def, eq_zero_iff, eq_zero_iff]
  -- the last cell asked for: exact, or that of the space for the empty interval at `0`
  have hasked : (0 < s.toNat ∧ (last a s).toNat = a.toNat + s.toNat - 1) ∨
      (a.toNat = 0 ∧ s.toNat = 0 ∧ (last a s).toNat = 2 ^ w - 1) := by
    rcases Nat.eq_zero_or_pos s.toNat with hnil | hpos
    · obtain rfl : s = 0 := (eq_zero_iff s).2 hnil
      obtain rfl : a = 0 := (eq_zero_iff a).2 (by omega)
      exact .inr ⟨by simp, by simp, toNat_last_zero⟩
    · exact .inl ⟨hpos, toNat_last (by omega) (by omega)⟩
  rcases Nat.eq_zero_or_pos (start.toNat + size.toNat) with hnil | hpos
  · obtain rfl : start = 0 := (eq_zero_iff start).2 (by omega)
    obtain rfl : size = 0 := (eq_zero_iff size).2 (by omega)
    rw [toNat_last_zero]
    have hlast := (last a s).isLt
    omega
  · rw [toNat_last hend hpos]
    have hsize := size.isLt
    omega

section Parts

variable {a s a' s' start size : BitVec w}

/-- A part of an interval passes the test `a ≤ last a s` if the interval does. -/
lemma not_last_lt_part (hpos : 0 < s'.toNat)
    (hhigh : a'.toNat + s'.toNat ≤ a.toNat + s.toNat) (hend : a.toNat + s.toNat ≤ 2 ^ w) :
    ¬last a' s' < a' := by
  rw [last_lt_iff, eq_zero_iff]
  omega

/-- **Containment of the parts.** An interval that contains another one, going by the ends, contains
its parts that are not empty, whatever its own ends are. -/
lemma Within.part (h : Within a s start size) (hpos : 0 < s'.toNat)
    (hlow : a.toNat ≤ a'.toNat) (hhigh : a'.toNat + s'.toNat ≤ a.toNat + s.toNat)
    (hend : a.toNat + s.toNat ≤ 2 ^ w) : Within a' s' start size := by
  rw [Within, BitVec.le_def, BitVec.le_def, BitVec.le_def] at h ⊢
  rw [toNat_last hend (by omega)] at h
  rw [toNat_last (Nat.le_trans hhigh hend) (by omega)]
  omega

end Parts

end Interval
