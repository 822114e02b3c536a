import Mathlib.Order.Basic
import CfePsp.Basic

set_option relaxedAutoImplicit false
set_option autoImplicit false

/-!
# The clock of the FreeRTOS ports

`CFE_PSP_GetTime` and `CFE_PSP_Get_Timebase` sample a 32-bit tick counter. Neither counts how often
it rolled over: the upper word of the time base is always zero.

## Main definitions

* `CfePsp.Freertos.Clock` — the tick rate, and the conversion that the OSAL supplies.
* `CfePsp.Freertos.getTime`, `CfePsp.Freertos.getTimebase` — the two functions, at an uptime.

## Main results

* `CfePsp.Freertos.clock_monotone_iff` — two samples are in order exactly when the low 32 bits of
  the uptime are.
* `CfePsp.Freertos.clock_monotone_of_lt` — the clock is monotone until the counter first rolls over.

## Design

The uptime is the true number of ticks since the boot, without bound. The microseconds are an
`int64` in the source; `microsecs_lt` shows that the product they are computed from is one.
-/

namespace CfePsp.Freertos

/-- The parameters of the clock: a positive tick rate, and a monotone conversion to `OS_time_t`. -/
structure Clock (τ : Type) [LE τ] where
  /-- `configTICK_RATE_HZ`. -/
  tickRateHz : Uint32
  tickRate_pos : 0 < tickRateHz
  /-- `OS_TimeFromTotalMicroseconds`. -/
  osTimeFromTotalMicroseconds : ℤ → τ
  monotone : ∀ x y, x ≤ y → osTimeFromTotalMicroseconds x ≤ osTimeFromTotalMicroseconds y

variable {τ : Type} [LE τ] {c : Clock τ} {t₁ t₂ : ℕ}

/-- `HLP_u32GetLoResTick`, after `t` ticks. -/
def getLoResTick (t : ℕ) : Uint32 := BitVec.ofNat 32 t

/-- `CFE_PSP_GetTimerTicksPerSecond`. -/
def getTimerTicksPerSecond (c : Clock τ) : Uint32 := c.tickRateHz

/-- `CFE_PSP_GetTimerLow32Rollover`. -/
def getTimerLow32Rollover : Uint32 := 0

/-- The number at which the lower word of the time base rolls over; zero stands for `2 ^ 32`. -/
def low32Modulus : ℕ := if getTimerLow32Rollover = 0 then 2 ^ 32 else getTimerLow32Rollover.toNat

/-- The microseconds that `CFE_PSP_GetTime` computes. -/
def microsecs (c : Clock τ) (ticks : Uint32) : ℤ :=
  (ticks.toNat * (1000 * 1000) : ℤ) / (getTimerTicksPerSecond c).toNat

/-- `CFE_PSP_GetTime`, after `t` ticks. -/
def getTime (c : Clock τ) (t : ℕ) : τ :=
  c.osTimeFromTotalMicroseconds (microsecs c (getLoResTick t))

/-- `CFE_PSP_Get_Timebase`, after `t` ticks: the upper and the lower word. -/
def getTimebase (t : ℕ) : Uint32 × Uint32 := (0, getLoResTick t)

/-- The 64-bit time base. -/
def timebase (t : ℕ) : ℕ := (getTimebase t).1.toNat * low32Modulus + (getTimebase t).2.toNat

/-- The product in `CFE_PSP_GetTime` fits an `int64`. -/
lemma microsecs_lt (ticks : Uint32) : (ticks.toNat * (1000 * 1000) : ℤ) < 2 ^ 63 := by
  have hticks := ticks.isLt
  omega

/-- The time base is the low part of the uptime. -/
lemma timebase_eq (t : ℕ) : timebase t = t % 2 ^ 32 := by
  simp [timebase, getTimebase, getLoResTick]

/-- More ticks are more microseconds. -/
lemma microsecs_mono {x y : Uint32} (h : x.toNat ≤ y.toNat) : microsecs c x ≤ microsecs c y := by
  have hrate : (0 : ℤ) < (getTimerTicksPerSecond c).toNat := by
    exact_mod_cast c.tickRate_pos
  refine Int.ediv_le_ediv hrate ?_
  omega

/-- The samples at two instants are in order: the time and the time base do not go back. -/
def InOrder (c : Clock τ) (t₁ t₂ : ℕ) : Prop :=
  getTime c t₁ ≤ getTime c t₂ ∧ timebase t₁ ≤ timebase t₂

/-- Samples whose tick counters are in order are in order. -/
lemma inOrder_of_le (h : t₁ % 2 ^ 32 ≤ t₂ % 2 ^ 32) : InOrder c t₁ t₂ := by
  refine ⟨c.monotone _ _ (microsecs_mono ?_), ?_⟩
  · rwa [getLoResTick, getLoResTick, BitVec.toNat_ofNat, BitVec.toNat_ofNat]
  · rwa [timebase_eq, timebase_eq]

/-- **The clock of FreeRTOS.** The samples at two instants are in order exactly when the low 32 bits
of the uptime are. -/
theorem clock_monotone_iff : InOrder c t₁ t₂ ↔ t₁ % 2 ^ 32 ≤ t₂ % 2 ^ 32 := by
  constructor
  · rintro ⟨-, htimebase⟩
    rwa [timebase_eq, timebase_eq] at htimebase
  · exact inOrder_of_le

/-- The clock is monotone as long as the counter did not roll over. -/
theorem clock_monotone_of_lt (h : t₁ ≤ t₂) (hlt : t₂ < 2 ^ 32) : InOrder c t₁ t₂ := by
  refine inOrder_of_le ?_
  rwa [Nat.mod_eq_of_lt (h.trans_lt hlt), Nat.mod_eq_of_lt hlt]

/-- A clock of 1 kHz, whose `OS_time_t` counts tenths of a microsecond. -/
def kiloHertz : Clock ℤ where
  tickRateHz := 1000
  tickRate_pos := by decide
  osTimeFromTotalMicroseconds us := 10 * us
  monotone := fun _ _ h => Int.mul_le_mul_of_nonneg_left h (by decide)

/-- After some fifty days the samples start again from zero. -/
theorem clock_not_monotone : ¬InOrder kiloHertz (2 ^ 32 - 1) (2 ^ 32) := by
  rintro ⟨-, h⟩
  rw [timebase_eq, timebase_eq] at h
  revert h
  decide

end CfePsp.Freertos
