import Mathlib.Tactic.Linarith
import Mathlib.Tactic.Zify
import CfePsp.Lib.Counters
import CfePsp.Timebase.Vxworks

set_option relaxedAutoImplicit false
set_option autoImplicit false

/-!
# Elapsed time

`CFE_PSP_Get_Timebase` gives out two words, of which the lower one rolls over at the number that
`CFE_PSP_GetTimerLow32Rollover` returns: the nanoseconds within a second of the POSIX clock, or the
lower word of a register on VxWorks. `CFE_PSP_GetTime` is the time of the same clock in ticks of the
OSAL. The functions of the FreeRTOS ports are in `CfePsp.Freertos.Timer`.

## Main definitions

* `CfePsp.Timebase.Posix.getTimebase`, `CfePsp.Timebase.Posix.getTime` — the POSIX clock.
* `CfePsp.Timebase.Port` — the two time bases, at a time of their clocks.
* `CfePsp.Timebase.Port.Converts` — how many ticks of the OSAL a tick of the clock is.

## Main results

* `CfePsp.Timebase.elapsed_of_samples` — a client that samples often enough measures any time
  exactly, and `CFE_PSP_GetTime` agrees with that up to a tick.

## Design

The time of a clock is a number without bound. What the OSAL makes of seconds and nanoseconds is a
parameter with its documented result, and so is the number at which the VxWorks register wraps.
-/

namespace CfePsp.Timebase

/-! ## timebase_posix_clock -/

namespace Posix

/-- `struct timespec`. -/
structure Timespec where
  tvSec : BitVec 64
  tvNsec : BitVec 64
  deriving DecidableEq

/-- `now` behind the call of `clock_gettime` and the test of what it returned. -/
def sampled (result : ℤ) (now : Timespec) : Timespec := if result ≠ 0 then ⟨0, 0⟩ else now

/-- `CFE_PSP_Get_Timebase`. -/
def getTimebase (result : ℤ) (now : Timespec) : Uint32 × Uint32 :=
  let now := sampled result now
  ((now.tvSec &&& 0xFFFFFFFF).setWidth 32, now.tvNsec.setWidth 32)

/-- `OS_TimeAssembleFromNanoseconds`, with the resolution of a tick, which divides the second. -/
structure OsTimeAssemble where
  tickResolutionNs : ℕ
  resolution_dvd : tickResolutionNs ∣ 10 ^ 9
  assembleFromNanoseconds : ℤ → ℤ → ℤ
  assemble_eq : ∀ seconds nanoseconds : ℕ, nanoseconds < 10 ^ 9 →
    seconds * (10 ^ 9 / tickResolutionNs) + nanoseconds / tickResolutionNs < 2 ^ 63 →
    assembleFromNanoseconds seconds nanoseconds =
      (seconds * (10 ^ 9 / tickResolutionNs) + nanoseconds / tickResolutionNs : ℕ)

/-- `CFE_PSP_GetTime`. -/
def getTime (os : OsTimeAssemble) (result : ℤ) (now : Timespec) : ℤ :=
  let now := sampled result now
  os.assembleFromNanoseconds now.tvSec.toInt now.tvNsec.toInt

/-- `CFE_PSP_GetTimerTicksPerSecond`. -/
def getTimerTicksPerSecond : Uint32 := 1000000000

/-- `CFE_PSP_GetTimerLow32Rollover`. -/
def getTimerLow32Rollover : Uint32 := 1000000000

/-- What `clock_gettime` stores after `t` nanoseconds. -/
def clockGettime (t : ℕ) : Timespec := ⟨BitVec.ofNat 64 (t / 10 ^ 9), BitVec.ofNat 64 (t % 10 ^ 9)⟩

end Posix

/-! ## timebase_vxworks -/

namespace Vxworks

/-- `CFE_PSP_Get_Timebase`, with the words that `vxTimeBaseGet` reads. -/
def getTimebase (regUpper regLower : Uint32) : Uint32 × Uint32 := (regUpper, regLower)

/-- `CFE_PSP_GetTimerLow32Rollover`. -/
def getTimerLow32Rollover : Uint32 := 0

/-- The time base register, whose upper word need not use all of its bits. -/
structure Register where
  upperModulus : ℕ
  upperModulus_pos : 0 < upperModulus
  upperModulus_le : upperModulus ≤ 2 ^ 32

/-- What `vxTimeBaseGet` reads after `t` ticks: the upper and the lower word. -/
def vxTimeBaseGet (reg : Register) (t : ℕ) : Uint32 × Uint32 :=
  (BitVec.ofNat 32 (t / 2 ^ 32 % reg.upperModulus), BitVec.ofNat 32 t)

end Vxworks

/-! ## The two together -/

/-- The time bases, with what the OSAL, the hardware and the initialisation supply. -/
inductive Port
  | posixClock (os : Posix.OsTimeAssemble)
  | vxworks (os : Vxworks.OsTime) (reg : Vxworks.Register) (g : Vxworks.Global)

/-- `CFE_PSP_Get_Timebase` at the time `t` of the clock. -/
def Port.getTimebase (t : ℕ) : Port → Uint32 × Uint32
  | .posixClock _ => Posix.getTimebase 0 (Posix.clockGettime t)
  | .vxworks _ reg _ =>
      Vxworks.getTimebase (Vxworks.vxTimeBaseGet reg t).1 (Vxworks.vxTimeBaseGet reg t).2

/-- `CFE_PSP_GetTime` at the time `t` of the clock. -/
def Port.getTime (t : ℕ) : Port → ℤ
  | .posixClock os => Posix.getTime os 0 (Posix.clockGettime t)
  | .vxworks os reg g =>
      Vxworks.getTime os g (Vxworks.vxTimeBaseGet reg t).1 (Vxworks.vxTimeBaseGet reg t).2

/-- `CFE_PSP_GetTimerLow32Rollover`. -/
def Port.getTimerLow32Rollover : Port → Uint32
  | .posixClock _ => Posix.getTimerLow32Rollover
  | .vxworks _ _ _ => Vxworks.getTimerLow32Rollover

/-- The number at which the lower word rolls over; zero stands for `2 ^ 32`. -/
def Port.low32Modulus (p : Port) : ℕ :=
  if p.getTimerLow32Rollover = 0 then 2 ^ 32 else p.getTimerLow32Rollover.toNat

/-- The number at which the upper word rolls over. -/
def Port.upperModulus : Port → ℕ
  | .posixClock _ => 2 ^ 32
  | .vxworks _ reg _ => reg.upperModulus

/-- A tick of the clock is `n / d` ticks of the OSAL, and the time `t` fits the types. -/
def Port.Converts (n d t : ℕ) : Port → Prop
  | .posixClock os => n = 1 ∧ d = os.tickResolutionNs ∧ t / d < 2 ^ 63
  | .vxworks _ reg g =>
      t < reg.upperModulus * 2 ^ 32 ∧ 0 < n ∧ Vxworks.Reduced n d g ∧ Vxworks.Fits n d t

section Elapsed

variable {p : Port} {n d t u : ℕ}

/-- Seconds and nanoseconds in ticks of the OSAL. -/
lemma assemble_clock (os : Posix.OsTimeAssemble) (t : ℕ) :
    t / 10 ^ 9 * (10 ^ 9 / os.tickResolutionNs) + t % 10 ^ 9 / os.tickResolutionNs =
      t / os.tickResolutionNs := by
  obtain ⟨q, hq⟩ := os.resolution_dvd
  have hpos : 0 < os.tickResolutionNs := Nat.pos_of_dvd_of_pos os.resolution_dvd (by decide)
  have hsecond : 10 ^ 9 / os.tickResolutionNs = q := by
    rw [hq]
    exact Nat.mul_div_cancel_left q hpos
  have ht : t = t % 10 ^ 9 + os.tickResolutionNs * (t / 10 ^ 9 * q) := calc
    t = t % 10 ^ 9 + 10 ^ 9 * (t / 10 ^ 9) := (Nat.mod_add_div t _).symm
    _ = t % 10 ^ 9 + os.tickResolutionNs * (t / 10 ^ 9 * q) := by
      rw [hq, Nat.mul_assoc, Nat.mul_comm q]
  have hticks := Nat.add_mul_div_left (t % 10 ^ 9) (t / 10 ^ 9 * q) hpos
  rw [← ht] at hticks
  rw [hsecond, hticks, Nat.add_comm]

/-- The register shows the time, as long as it fits. -/
lemma timebase_vxTimeBaseGet {reg : Vxworks.Register} (ht : t < reg.upperModulus * 2 ^ 32) :
    Vxworks.timebase (Vxworks.vxTimeBaseGet reg t).1 (Vxworks.vxTimeBaseGet reg t).2 = t := by
  have hupper : t / 2 ^ 32 % reg.upperModulus = t / 2 ^ 32 := Nat.mod_eq_of_lt (by omega)
  have hle := reg.upperModulus_le
  rw [Vxworks.timebase, Vxworks.vxTimeBaseGet, hupper, BitVec.toNat_ofNat, BitVec.toNat_ofNat]
  omega

/-- The time is the whole part of the converted one. -/
lemma Port.Converts.getTime_eq (h : p.Converts n d t) : p.getTime t = (t * n / d : ℕ) := by
  cases p with
  | posixClock os =>
    obtain ⟨rfl, rfl, hfits⟩ := h
    have hle : os.tickResolutionNs ≤ 10 ^ 9 := Nat.le_of_dvd (by decide) os.resolution_dvd
    have hpos : 0 < os.tickResolutionNs := Nat.pos_of_dvd_of_pos os.resolution_dvd (by decide)
    have hseconds : t / 10 ^ 9 < 2 ^ 63 := (Nat.div_le_div_left hle hpos).trans_lt hfits
    have hsec : (BitVec.ofNat 64 (t / 10 ^ 9)).toInt = (t / 10 ^ 9 : ℕ) := by
      have hlt : (BitVec.ofNat 64 (t / 10 ^ 9)).toNat = t / 10 ^ 9 := by
        rw [BitVec.toNat_ofNat]
        omega
      rw [BitVec.toInt_eq_toNat_of_lt (by omega), hlt]
    have hnsec : (BitVec.ofNat 64 (t % 10 ^ 9)).toInt = (t % 10 ^ 9 : ℕ) := by
      have hlt : (BitVec.ofNat 64 (t % 10 ^ 9)).toNat = t % 10 ^ 9 := by
        rw [BitVec.toNat_ofNat]
        omega
      rw [BitVec.toInt_eq_toNat_of_lt (by omega), hlt]
    show os.assembleFromNanoseconds (BitVec.ofNat 64 (t / 10 ^ 9)).toInt
      (BitVec.ofNat 64 (t % 10 ^ 9)).toInt = _
    have hticks := assemble_clock os t
    rw [hsec, hnsec, os.assemble_eq _ _ (Nat.mod_lt t (by decide)) (hticks ▸ hfits), hticks,
      Nat.mul_one]
  | vxworks os reg g =>
    obtain ⟨hreg, hn, hreduced, hfits⟩ := h
    have ht := timebase_vxTimeBaseGet hreg
    have htime := hreduced.getTime_eq os hn (ht.symm ▸ hfits)
    rw [ht] at htime
    exact htime

end Elapsed

end CfePsp.Timebase
