import CfePsp.Sysmon.LoadCode

set_option relaxedAutoImplicit false
set_option autoImplicit false

/-!
# The load that the FreeRTOS monitor reports

`freertos_sysmon_update_state` compares the run time of the idle task with the total run time since
its last call. Both counters have 32 bits and wrap round.

## Main definitions

* `CfePsp.Sysmon.FreertosLoad.updateState` — the function of the source.
* `CfePsp.Sysmon.FreertosLoad.Reports` — what an update is to leave behind.

## Main results

* `CfePsp.Sysmon.FreertosLoad.update_reports_iff` — it does unless the idle time is less than a
  hundredth.

## Design

A `TickType_t` has 32 bits. What the two counters read is the argument of an update.
-/

namespace CfePsp.Sysmon.FreertosLoad

/-! ## The program -/

/-- `freertos_sysmon_cpuload_core_t`. -/
structure Core where
  lastRunTime : Uint32
  idleLastUptime : Uint32
  avgLoad : AdcCode
  deriving DecidableEq

/-- `FREERTOS_SYSMON_MAX_SCALE`. -/
def maxScale : Uint32 := 100

/-- `idle_percent_since_last_report`. -/
def idlePercent (idleUptimeElapsed totalElapsed : Uint32) : Uint32 :=
  (idleUptimeElapsed.setWidth 64 * 100 / totalElapsed.setWidth 64).setWidth 32

/-- `freertos_sysmon_update_state`, with the readings of the two counters. -/
def updateState (idleTaskUptime currentUptime : Uint32) (core : Core) : Core :=
  let idleUptimeElapsed := idleTaskUptime - core.idleLastUptime
  let totalElapsed := currentUptime - core.lastRunTime
  { avgLoad :=
      if 0 < totalElapsed then
        let currentLoad := maxScale - idlePercent idleUptimeElapsed totalElapsed
        let avgLoad := 0x1000 * currentLoad / maxScale
        avgLoad ||| avgLoad <<< 12
      else 0
    idleLastUptime := idleTaskUptime
    lastRunTime := currentUptime }

/-! ## What it is to report -/

/-- The counters at two consecutive updates. -/
structure Sample where
  core : Core
  idleTaskUptime : Uint32
  currentUptime : Uint32

namespace Sample

/-- The idle time between the updates. -/
def idle (x : Sample) : ℕ := (x.idleTaskUptime - x.core.idleLastUptime).toNat

/-- The time between the updates. -/
def total (x : Sample) : ℕ := (x.currentUptime - x.core.lastRunTime).toNat

/-- The state after the second update. -/
def updated (x : Sample) : Core := updateState x.idleTaskUptime x.currentUptime x.core

/-- The load that it reports. -/
def load (x : Sample) : ℕ := x.updated.avgLoad.toNat

/-- The idle time is part of the time, and some time elapsed. -/
structure Proper (x : Sample) : Prop where
  total_pos : 0 < x.total
  idle_le : x.idle ≤ x.total

end Sample

/-- **What an update is to leave behind**: a code of 24 bits, which is zero for an idle CPU, full
scale for a busy one and not above that of less idle time of the same total, and the readings. -/
structure Reports (x : Sample) : Prop where
  range : x.load ≤ fullScale
  idle : x.idle = x.total → x.load = 0
  busy : x.idle = 0 → x.load = fullScale
  monotone : ∀ y : Sample, y.Proper → y.total = x.total → y.idle ≤ x.idle → x.load ≤ y.load
  idle_saved : x.updated.idleLastUptime = x.idleTaskUptime
  total_saved : x.updated.lastRunTime = x.currentUptime

/-! ## The load in exact numbers -/

section Load

variable {x y : Sample}

/-- The percentage of the idle time, which is at most 100. -/
def Sample.percent (x : Sample) : ℕ := 100 * x.idle / x.total

lemma Sample.Proper.percent_le (h : x.Proper) : x.percent ≤ 100 := Scaling.div_le h.idle_le

/-- The percentage that is computed, in 64 bits. -/
lemma toNat_idlePercent (h : x.Proper) :
    (idlePercent (x.idleTaskUptime - x.core.idleLastUptime)
      (x.currentUptime - x.core.lastRunTime)).toNat = x.percent := by
  have hidle : ((x.idleTaskUptime - x.core.idleLastUptime).setWidth 64).toNat = x.idle :=
    BitVec.toNat_setWidth_of_le (by omega)
  have htotal : ((x.currentUptime - x.core.lastRunTime).setWidth 64).toNat = x.total :=
    BitVec.toNat_setWidth_of_le (by omega)
  have hhundred : (100 : BitVec 64).toNat = 100 := rfl
  have hlt : x.idle < 2 ^ 32 := BitVec.isLt _
  have hle := h.percent_le
  rw [idlePercent, BitVec.toNat_setWidth, BitVec.toNat_udiv, BitVec.toNat_mul, hidle, htotal,
    hhundred, Nat.mod_eq_of_lt (a := x.idle * 100) (by omega), Nat.mul_comm]
  exact Nat.mod_eq_of_lt (Nat.lt_of_le_of_lt hle (by omega))

/-- The load in units of `1/0x1000`. -/
lemma exists_load (h : x.Proper) :
    ∃ c : AdcCode, c.toNat = proportion (100 - x.percent) 100 ∧
      x.load = (c ||| c <<< 12).toNat := by
  obtain ⟨percent, hpercent⟩ : ∃ percent, idlePercent (x.idleTaskUptime - x.core.idleLastUptime)
    (x.currentUptime - x.core.lastRunTime) = percent := ⟨_, rfl⟩
  have hnat : percent.toNat = x.percent := hpercent ▸ toNat_idlePercent h
  have hle := h.percent_le
  have hpos : 0 < x.currentUptime - x.core.lastRunTime := BitVec.lt_def.2 h.total_pos
  have hload : (maxScale - percent).toNat = 100 - x.percent := by
    have hscale : maxScale.toNat = 100 := rfl
    rw [BitVec.toNat_sub, hscale, hnat]
    omega
  refine ⟨0x1000 * (maxScale - percent) / maxScale, ?_, ?_⟩
  · rw [toNat_proportion (by omega), hload]
    rfl
  · simp only [Sample.load, Sample.updated, updateState, if_pos hpos, hpercent]

/-- The load is a code of 24 bits unless the CPU was idle for less than a hundredth of the time. -/
lemma load_le_iff (h : x.Proper) : x.load ≤ fullScale ↔ x.total ≤ 100 * x.idle := by
  obtain ⟨c, hc, hload⟩ := exists_load h
  have hpercent : 1 ≤ x.percent ↔ x.total ≤ 100 * x.idle := Nat.one_le_div_iff h.total_pos
  rw [hload, expand_rest_le_fullScale_iff (by omega) hc, hpercent]

/-- A CPU that was idle all the time has no load. -/
lemma load_of_idle (h : x.Proper) (hidle : x.idle = x.total) : x.load = 0 := by
  obtain ⟨c, hc, hload⟩ := exists_load h
  have hpercent : x.percent = 100 := by
    rw [Sample.percent, hidle, Nat.mul_div_cancel _ h.total_pos]
  rw [hpercent] at hc
  obtain rfl : c = 0 := BitVec.eq_of_toNat_eq hc
  exact hload

/-- With more idle time of the same total the load is not higher. -/
lemma load_le (hx : x.Proper) (hy : y.Proper) (htotal : y.total = x.total)
    (hidle : y.idle ≤ x.idle) : x.load ≤ y.load := by
  obtain ⟨c, hc, hloadx⟩ := exists_load hx
  obtain ⟨d, hd, hloady⟩ := exists_load hy
  have hpercent : y.percent ≤ x.percent := by
    rw [Sample.percent, Sample.percent, htotal]
    exact Nat.div_le_div_right (Nat.mul_le_mul_left 100 hidle)
  rw [hloadx, hloady]
  exact expand_rest_anti hc hd hpercent

/-- **The load of the FreeRTOS monitor.** For all counters, wrapped or not, an update reports the
load as it should if and only if the idle time is at least a hundredth of the total.

**Proof sketch.** The percentage of the idle time is rounded down. Only if it is zero is the load
the whole, which twelve bits do not hold. -/
theorem update_reports_iff (h : x.Proper) : Reports x ↔ x.total ≤ 100 * x.idle := by
  constructor
  · intro hreports
    exact (load_le_iff h).1 hreports.range
  · intro hidle
    refine ⟨(load_le_iff h).2 hidle, load_of_idle h, fun hbusy => ?_, ?_, rfl, rfl⟩
    · have hpos := h.total_pos
      omega
    · intro y hy htotal hle
      exact load_le h hy htotal hle

/-- The counters of a CPU that was idle for a quarter of the time, both having wrapped. -/
def quarterIdle : Sample := ⟨⟨0xFFFFFF00, 0xFFFFFFF0, 0⟩, 0x30, 0⟩

/-- Its load is reported as it should. -/
theorem reports_quarterIdle : Reports quarterIdle :=
  (update_reports_iff ⟨by decide, by decide⟩).2 (by decide)

/-- A CPU that was never idle in 1000 ticks. -/
def neverIdle : Sample := ⟨⟨0, 0, 0⟩, 0, 1000⟩

/-- Its code has 25 bits. -/
theorem not_reports_neverIdle : neverIdle.load = 0x1001000 ∧ ¬Reports neverIdle := by
  refine ⟨by decide, fun h => ?_⟩
  have hrange := h.range
  revert hrange
  decide

end Load

end CfePsp.Sysmon.FreertosLoad
