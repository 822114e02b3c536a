import CfePsp.Lib.Fields
import CfePsp.Lib.Scaling
import CfePsp.Sysmon.ReadChannels

set_option relaxedAutoImplicit false
set_option autoImplicit false

/-!
# The codes of the loads

The system monitor drivers report a load as an analog-to-digital converter of
`CFE_PSP_IODRIVER_ADC_BITWIDTH` bits would: a proportion in units of `1/0x1000`, which has twelve
bits unless it is the whole, expanded to 24 bits by repeating it.

## Main definitions

* `CfePsp.Sysmon.fullScale` — the largest code.
* `CfePsp.Sysmon.proportion` — a proportion in units of `1/0x1000`.
* `CfePsp.Sysmon.expanded` — twelve bits, repeated.

## Main results

* `CfePsp.Sysmon.toNat_expand` — the expanded code as a number, also of the whole.
* `CfePsp.Sysmon.expand_le_fullScale_iff` — the whole does not fit 24 bits, all else does.
* `CfePsp.Sysmon.expand_rest_anti` — the load of the rest falls with the idle time.
-/

namespace CfePsp.Sysmon

/-- The largest code: `CFE_PSP_IODRIVER_ADC_BITWIDTH` ones. -/
def fullScale : ℕ := 2 ^ 24 - 1

/-- The proportion of `n` to `d`, in units of `1/0x1000`. -/
def proportion (n d : ℕ) : ℕ := 0x1000 * n / d

/-- A code of twelve bits expanded to 24. -/
def expanded (c : ℕ) : ℕ := c ||| c <<< 12

section Expand

variable {load load' : AdcCode}

/-- The expanded code, up to the code of the whole. -/
lemma toNat_expand (h : load.toNat ≤ 0x1000) :
    (load ||| load <<< 12).toNat = load.toNat * 4097 := by
  rcases Nat.lt_or_eq_of_le h with hlt | heq
  · exact Field.toNat_or_shiftLeft_self (k := 12) (by omega) hlt
  · -- the whole has one bit more, which is still not in its own way
    obtain rfl : load = 0x1000 := BitVec.eq_of_toNat_eq heq
    rfl

/-- The code of the whole is too large. -/
lemma expand_le_fullScale_iff (h : load.toNat ≤ 0x1000) :
    (load ||| load <<< 12).toNat ≤ fullScale ↔ load.toNat < 0x1000 := by
  rw [toNat_expand h, fullScale]
  omega

/-- Expanding keeps the order. -/
lemma expand_mono (h : load.toNat ≤ load'.toNat) (h' : load'.toNat ≤ 0x1000) :
    (load ||| load <<< 12).toNat ≤ (load' ||| load' <<< 12).toNat := by
  rw [toNat_expand (h.trans h'), toNat_expand h']
  exact Nat.mul_le_mul_right 4097 h

/-- Twelve bits expanded are a multiple of the number. -/
lemma expanded_eq {c : ℕ} (h : c < 0x1000) : expanded c = c * 4097 := by
  have hor := Nat.shiftLeft_add_eq_or_of_lt (i := 12) h c
  rw [expanded, Nat.lor_comm, ← hor, Nat.shiftLeft_eq]
  omega

/-- Different numbers of twelve bits have different codes. -/
lemma expanded_inj {c c' : ℕ} (h : c < 0x1000) (h' : c' < 0x1000) :
    expanded c = expanded c' ↔ c = c' := by
  rw [expanded_eq h, expanded_eq h']
  omega

lemma expanded_le {c c' : ℕ} (h : c ≤ c') (h' : c' < 0x1000) : expanded c ≤ expanded c' := by
  rw [expanded_eq (lt_of_le_of_lt h h'), expanded_eq h']
  exact Nat.mul_le_mul_right 4097 h

lemma expanded_le_fullScale {c : ℕ} (h : c < 0x1000) : expanded c ≤ fullScale := by
  rw [expanded_eq h, fullScale]
  omega

/-- The expanded code is that of the number. -/
lemma toNat_expand_eq (h : load.toNat < 0x1000) :
    (load ||| load <<< 12).toNat = expanded load.toNat := by
  rw [toNat_expand h.le, expanded_eq h]

end Expand

section Proportion

variable {n n' d : ℕ}

lemma proportion_le (h : n ≤ d) : proportion n d ≤ 0x1000 := Scaling.div_le h

/-- Twelve bits are enough for all but the whole. -/
lemma proportion_lt_iff (hd : 0 < d) : proportion n d < 0x1000 ↔ n < d := by
  rw [proportion, Nat.div_lt_iff_lt_mul hd]
  omega

lemma proportion_mono (h : n ≤ n') : proportion n d ≤ proportion n' d :=
  Nat.div_le_div_right (Nat.mul_le_mul_left 0x1000 h)

/-- A proportion in 32 bits, of a number whose product with the unit has as many. -/
lemma toNat_proportion {x scale : Uint32} (h : x.toNat < 2 ^ 20) :
    (0x1000 * x / scale).toNat = proportion x.toNat scale.toNat := by
  have hunit : (0x1000 : Uint32).toNat = 0x1000 := rfl
  rw [BitVec.toNat_udiv, BitVec.toNat_mul, hunit, Nat.mod_eq_of_lt (by omega), proportion]

end Proportion

/-! ## The load from the idle time

A monitor that measures the idle time has it as `p` units out of `d` and takes the rest for the
load. -/

section Rest

variable {load load' : AdcCode} {p p' d : ℕ}

/-- The code fits 24 bits unless the idle time is less than a unit. -/
lemma expand_rest_le_fullScale_iff (hd : 0 < d) (h : load.toNat = proportion (d - p) d) :
    (load ||| load <<< 12).toNat ≤ fullScale ↔ 1 ≤ p := by
  have hle : load.toNat ≤ 0x1000 := h ▸ proportion_le (Nat.sub_le d p)
  rw [expand_le_fullScale_iff hle, h, proportion_lt_iff hd]
  omega

/-- With more idle time the load is not higher. -/
lemma expand_rest_anti (h : load.toNat = proportion (d - p) d)
    (h' : load'.toNat = proportion (d - p') d) (hp : p' ≤ p) :
    (load ||| load <<< 12).toNat ≤ (load' ||| load' <<< 12).toNat := by
  have hle : load'.toNat ≤ 0x1000 := h' ▸ proportion_le (Nat.sub_le d p')
  refine expand_mono ?_ hle
  rw [h, h']
  exact proportion_mono (Nat.sub_le_sub_left hp d)

end Rest

end CfePsp.Sysmon
