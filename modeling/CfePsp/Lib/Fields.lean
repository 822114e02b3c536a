import CfePsp.Lib.Windows

set_option relaxedAutoImplicit false
set_option autoImplicit false

/-!
# Words made of a high and a low field

An identifier is often a word whose high bits say what it is and whose low `k` bits are an index:
made by adding or or-ing the index to a base whose low bits are zero, and taken apart by masks.
The lemmas here say what the masks do to the number in the word.

## Main results

* `Field.toNat_and_not_mask` — the high field is the word with its low bits zeroed.
* `Field.or_eq_add` — or-ing an index to a base whose low bits are zero adds it.
* `Field.toNat_or_mask` — or-ing the mask sets the low bits.
* `Field.toNat_shiftLeft_or` — a field is shifted into place and or-ed with the one below it.
-/

namespace Field

variable {w k : ℕ}

/-- A word is made of its two fields. -/
lemma toNat_fields (mask x : BitVec w) :
    (x &&& ~~~mask).toNat + (x &&& mask).toNat = x.toNat := by
  have hdisjoint : (x &&& ~~~mask) &&& (x &&& mask) = 0 := by
    ext i hi
    simp only [BitVec.getElem_and, BitVec.getElem_not]
    cases x[i] <;> cases mask[i] <;> simp
  have hjoin : (x &&& ~~~mask) ||| (x &&& mask) = x := by
    ext i hi
    simp only [BitVec.getElem_or, BitVec.getElem_and, BitVec.getElem_not]
    cases x[i] <;> cases mask[i] <;> simp
  rw [← BitVec.toNat_add_of_and_eq_zero hdisjoint,
    BitVec.add_eq_or_of_and_eq_zero _ _ hdisjoint, hjoin]

/-- Masking the low bits out leaves the multiple of `2 ^ k` below. -/
lemma toNat_and_not_mask (hk : k ≤ w) (x : BitVec w) :
    (x &&& ~~~BitVec.ofNat w (2 ^ k - 1)).toNat = x.toNat - x.toNat % 2 ^ k := by
  have hfields := toNat_fields (BitVec.ofNat w (2 ^ k - 1)) x
  rw [Window.toNat_and_mask hk] at hfields
  omega

/-- A base whose low bits are zero and an index have no bit in common. -/
lemma and_eq_zero {base index : BitVec w} (hbase : base.toNat % 2 ^ k = 0)
    (hindex : index.toNat < 2 ^ k) : base &&& index = 0 := by
  apply BitVec.eq_of_toNat_eq
  obtain ⟨m, hm⟩ := Nat.dvd_of_mod_eq_zero hbase
  rw [BitVec.toNat_and, hm, Nat.mul_comm, ← Nat.shiftLeft_eq]
  refine Nat.eq_of_testBit_eq fun i => ?_
  rw [Nat.testBit_and, Nat.testBit_shiftLeft]
  rcases Nat.lt_or_ge i k with hlt | hge
  · simp [Nat.not_le.2 hlt]
  · have hbit : index.toNat.testBit i = false :=
      Nat.testBit_lt_two_pow (hindex.trans_le (Nat.pow_le_pow_right (by omega) hge))
    simp [hbit]

/-- Or-ing an index to a base whose low bits are zero adds it. -/
lemma or_eq_add {base index : BitVec w} (hbase : base.toNat % 2 ^ k = 0)
    (hindex : index.toNat < 2 ^ k) : base ||| index = base + index :=
  (BitVec.add_eq_or_of_and_eq_zero _ _ (and_eq_zero hbase hindex)).symm

/-- The sum of a base whose low bits are zero and an index does not overflow. -/
lemma toNat_add {base index : BitVec w} (hbase : base.toNat % 2 ^ k = 0)
    (hindex : index.toNat < 2 ^ k) : (base + index).toNat = base.toNat + index.toNat :=
  BitVec.toNat_add_of_and_eq_zero (and_eq_zero hbase hindex)

/-- Or-ing the mask to a base whose low bits are zero sets them. -/
lemma toNat_or_mask {base : BitVec w} (hk : k ≤ w) (hbase : base.toNat % 2 ^ k = 0) :
    (base ||| BitVec.ofNat w (2 ^ k - 1)).toNat = base.toNat + (2 ^ k - 1) := by
  have hpos := Nat.two_pow_pos k
  have hle := Nat.pow_le_pow_right (show 0 < 2 by omega) hk
  have hmask : (BitVec.ofNat w (2 ^ k - 1)).toNat = 2 ^ k - 1 := by
    rw [BitVec.toNat_ofNat, Nat.mod_eq_of_lt (by omega)]
  rw [or_eq_add hbase (by omega), toNat_add hbase (by omega), hmask]

/-- Two fields that are shifted into place and or-ed make up the word. -/
lemma toNat_shiftLeft_or {high low : BitVec w} (hhigh : high.toNat * 2 ^ k < 2 ^ w)
    (hlow : low.toNat < 2 ^ k) : (high <<< k ||| low).toNat = high.toNat * 2 ^ k + low.toNat := by
  have hbase : (high <<< k).toNat = high.toNat * 2 ^ k := by
    rw [BitVec.toNat_shiftLeft, Nat.shiftLeft_eq, Nat.mod_eq_of_lt hhigh]
  have hzero : (high <<< k).toNat % 2 ^ k = 0 := by rw [hbase, Nat.mul_mod_left]
  rw [or_eq_add hzero hlow, toNat_add hzero hlow, hbase]

/-- A field repeated above itself. -/
lemma toNat_or_shiftLeft_self {x : BitVec w} (hw : k + k ≤ w) (hx : x.toNat < 2 ^ k) :
    (x ||| x <<< k).toNat = x.toNat * (2 ^ k + 1) := by
  have hhigh : x.toNat * 2 ^ k < 2 ^ w := by
    calc x.toNat * 2 ^ k < 2 ^ k * 2 ^ k := Nat.mul_lt_mul_of_pos_right hx (Nat.two_pow_pos k)
      _ = 2 ^ (k + k) := (Nat.pow_add 2 k k).symm
      _ ≤ 2 ^ w := Nat.pow_le_pow_right (by omega) hw
  rw [BitVec.or_comm, toNat_shiftLeft_or hhigh hx, Nat.mul_succ]

end Field
