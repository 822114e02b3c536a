import CfePsp.Sysmon.LoadCode

set_option relaxedAutoImplicit false
set_option autoImplicit false

/-!
# The load that the RTEMS monitor reports

`rtems_cpu_usage_vistor` is called for the threads of the system one after another. The load of a
core is made from the percentage of the time that its idle thread ran, in thousandths.

## Main definitions

* `CfePsp.Sysmon.Rtems.cpuUsageVisitor` — the function of the source.
* `CfePsp.Sysmon.Rtems.Reports` — what it is to store for an idle thread.

## Main results

* `CfePsp.Sysmon.Rtems.visit_reports_iff` — it does for the idle times between a hundred-thousandth
  of the total and the total.

## Design

The functions of RTEMS on time stamps are parameters. A thread has the name and the times that RTEMS
returns for it. A visit has no result when it leaves the table.
-/

namespace CfePsp.Sysmon.Rtems

/-! ## The program -/

/-- The functions of RTEMS on time stamps, which are integers. -/
structure Timestamps where
  /-- `_Timestamp_Subtract`, of a start and an end. -/
  subtract : ℤ → ℤ → ℤ
  /-- `_Timestamp_Divide`: the integer part of a percentage and its thousandths. -/
  divide : ℤ → ℤ → Uint32 × Uint32
  divide_ival : ∀ idle total : ℕ, idle ≤ total → 0 < total →
    (divide idle total).1.toNat = 100 * idle / total
  divide_fval : ∀ idle total : ℕ, idle ≤ total → 0 < total →
    (divide idle total).2.toNat = 100000 * idle / total % 1000

/-- `rtems_sysmon_cpuload_core_t`. -/
structure Core where
  avgLoad : AdcCode
  lastRunTime : ℤ
  idleLastUptime : ℤ

/-- `num_cpus` and `per_core` of `rtems_sysmon_cpuload_state_t`. -/
structure State (maxCpus : ℕ) where
  numCpus : BitVec 8
  perCore : Vector Core maxCpus

/-- A thread that is visited: its name, and the CPU time it used. -/
structure Thread where
  name : List UInt8
  cpuTimeUsed : ℤ

/-- `RTEMS_SYSMON_MAX_SCALE`. -/
def maxScale : Uint32 := 100000

/-- `"IDLE"`. -/
def idleName : List UInt8 := [73, 68, 76, 69]

/-- `while (fval > 999)`. -/
def trim (fval : Uint32) : Uint32 :=
  if 999 < fval then trim (fval / 10) else fval
termination_by fval.toNat
decreasing_by
  next h =>
    have hlt : 999 < fval.toNat := h
    have hten : (10 : Uint32).toNat = 10 := rfl
    rw [BitVec.toNat_udiv, hten]
    omega

/-- The load that is stored for a percentage. -/
def loadOf (ival fval : Uint32) (totalElapsed : ℤ) : AdcCode :=
  if 100 ≤ ival then 0xFFFFFF
  else if totalElapsed = 0 then 0
  else
    let avgLoad := maxScale - (ival * 1000 + trim fval)
    let avgLoad := 0x1000 * avgLoad / maxScale
    avgLoad ||| avgLoad <<< 12

/-- The core after a visit of its idle thread. -/
def visitIdle (ts : Timestamps) (thread : Thread) (currentUptime : ℤ) (core : Core) : Core :=
  let idleUptimeElapsed := ts.subtract core.idleLastUptime thread.cpuTimeUsed
  let totalElapsed := ts.subtract core.lastRunTime currentUptime
  let (ival, fval) := ts.divide idleUptimeElapsed totalElapsed
  { lastRunTime := currentUptime
    idleLastUptime := thread.cpuTimeUsed
    avgLoad := loadOf ival fval totalElapsed }

/-- `rtems_cpu_usage_vistor`: whether the iteration ends, and the state. -/
def cpuUsageVisitor {maxCpus : ℕ} (ts : Timestamps) (thread : Thread) (currentUptime : ℤ)
    (state : State maxCpus) : Option (Bool × State maxCpus) :=
  if h : state.numCpus.toNat < maxCpus then
    if thread.name.take 4 = idleName then
      let core := visitIdle ts thread currentUptime state.perCore[state.numCpus.toNat]
      let numCpus := state.numCpus + 1
      some (decide (maxCpus ≤ numCpus.toNat),
        { numCpus, perCore := state.perCore.set state.numCpus.toNat core h })
    else some (false, state)
  else none

/-! ## What it is to report -/

/-- A visit of an idle thread, and how much of the time since the last one was idle time. -/
structure Visit (maxCpus : ℕ) where
  ts : Timestamps
  thread : Thread
  currentUptime : ℤ
  state : State maxCpus
  name_eq : thread.name.take 4 = idleName
  core : Core
  core_eq : state.perCore[state.numCpus.toNat]? = some core
  idle : ℕ
  total : ℕ
  idle_eq : ts.subtract core.idleLastUptime thread.cpuTimeUsed = idle
  total_eq : ts.subtract core.lastRunTime currentUptime = total
  idle_le : idle ≤ total
  total_pos : 0 < total

/-- The visit stores the load in `per_core[num_cpus]`. -/
def Visit.Stores {maxCpus : ℕ} (x : Visit maxCpus) (load : ℕ) : Prop :=
  ∃ ends next core, cpuUsageVisitor x.ts x.thread x.currentUptime x.state = some (ends, next) ∧
    next.perCore[x.state.numCpus.toNat]? = some core ∧ load = core.avgLoad.toNat

/-- **What a visit of an idle thread is to store**: a code of 24 bits, which is zero for an idle
core, full scale for a busy one and not above that of less idle time of the same total. -/
structure Reports {maxCpus : ℕ} (x : Visit maxCpus) (load : ℕ) : Prop where
  range : load ≤ fullScale
  idle : x.idle = x.total → load = 0
  busy : x.idle = 0 → load = fullScale
  monotone : ∀ (y : Visit maxCpus) (load' : ℕ), y.Stores load' → y.total = x.total →
    y.idle ≤ x.idle → load ≤ load'

/-! ## The load in exact numbers -/

section Load

variable {maxCpus : ℕ} {x y : Visit maxCpus}

/-- The load that is stored. -/
def Visit.load (x : Visit maxCpus) : ℕ :=
  (visitIdle x.ts x.thread x.currentUptime x.core).avgLoad.toNat

/-- A visit of an idle thread stores its load, in the table. -/
lemma stores_iff {load : ℕ} : x.Stores load ↔ load = x.load := by
  obtain ⟨hlt, hcore⟩ := Vector.getElem?_eq_some_iff.1 x.core_eq
  have hvisit : cpuUsageVisitor x.ts x.thread x.currentUptime x.state =
      some (decide (maxCpus ≤ (x.state.numCpus + 1).toNat),
        { numCpus := x.state.numCpus + 1
          perCore := x.state.perCore.set x.state.numCpus.toNat
            (visitIdle x.ts x.thread x.currentUptime x.core) hlt }) := by
    rw [cpuUsageVisitor, dif_pos hlt, if_pos x.name_eq, hcore]
  constructor
  · rintro ⟨ends, next, core, hnext, hstored, rfl⟩
    rw [hvisit] at hnext
    cases hnext
    rw [Vector.getElem?_set_self] at hstored
    obtain rfl := Option.some.inj hstored
    rfl
  · rintro rfl
    exact ⟨_, _, _, hvisit, Vector.getElem?_set_self hlt, rfl⟩

lemma trim_of_le {fval : Uint32} (h : fval.toNat ≤ 999) : trim fval = fval := by
  have hle : ¬999 < fval := fun hlt => absurd (BitVec.lt_def.1 hlt) (not_lt.2 h)
  rw [trim, if_neg hle]

/-- The thousandths of the percentage of the idle time. -/
def Visit.thousandths (x : Visit maxCpus) : ℕ := 100000 * x.idle / x.total

/-- The integer part of the percentage, from its thousandths. -/
lemma Visit.percent_eq (x : Visit maxCpus) : 100 * x.idle / x.total = x.thousandths / 1000 := by
  have hscale : 100000 * x.idle = 100 * x.idle * 1000 := by omega
  rw [Visit.thousandths, Nat.div_div_eq_div_mul, hscale,
    Nat.mul_div_mul_right _ _ (by omega)]

/-- An idle core is taken for a busy one. -/
lemma load_of_idle (h : x.idle = x.total) : x.load = fullScale := by
  have hival : (x.ts.divide x.idle x.total).1.toNat = 100 := by
    rw [x.ts.divide_ival _ _ x.idle_le x.total_pos, h, Nat.mul_div_cancel _ x.total_pos]
  have hle : (100 : Uint32) ≤ (x.ts.divide x.idle x.total).1 := BitVec.le_def.2 hival.ge
  simp only [Visit.load, visitIdle, x.idle_eq, x.total_eq, loadOf, if_pos hle]
  rfl

/-- The load of any other core, in units of `1/0x1000`. -/
lemma exists_load (h : x.idle < x.total) :
    ∃ c : AdcCode, c.toNat = proportion (100000 - x.thousandths) 100000 ∧
      x.load = (c ||| c <<< 12).toNat := by
  obtain ⟨ival, hival⟩ : ∃ ival, (x.ts.divide x.idle x.total).1 = ival := ⟨_, rfl⟩
  obtain ⟨fval, hfval⟩ : ∃ fval, (x.ts.divide x.idle x.total).2 = fval := ⟨_, rfl⟩
  have hi : ival.toNat = x.thousandths / 1000 := by
    rw [← hival, x.ts.divide_ival _ _ x.idle_le x.total_pos, x.percent_eq]
  have hf : fval.toNat = x.thousandths % 1000 := by
    rw [← hfval, x.ts.divide_fval _ _ x.idle_le x.total_pos]
    rfl
  have hlt : x.thousandths < 100000 := by
    rw [Visit.thousandths, Nat.div_lt_iff_lt_mul x.total_pos]
    omega
  have hsmall : ¬(100 : Uint32) ≤ ival := by
    rw [BitVec.le_def, hi]
    show ¬100 ≤ _
    omega
  have htotal : ¬(x.total : ℤ) = 0 := by
    have := x.total_pos
    omega
  have hthousandths : (ival * 1000 + trim fval).toNat = x.thousandths := by
    have hthousand : (1000 : Uint32).toNat = 1000 := rfl
    rw [trim_of_le (by omega), BitVec.toNat_add, BitVec.toNat_mul, hi, hf, hthousand]
    omega
  have hload : (maxScale - (ival * 1000 + trim fval)).toNat = 100000 - x.thousandths := by
    have hscale : maxScale.toNat = 100000 := rfl
    rw [BitVec.toNat_sub, hscale, hthousandths]
    omega
  refine ⟨0x1000 * (maxScale - (ival * 1000 + trim fval)) / maxScale, ?_, ?_⟩
  · rw [toNat_proportion (by omega), hload]
    rfl
  · simp only [Visit.load, visitIdle, x.idle_eq, x.total_eq, hival, hfval, loadOf, if_neg hsmall,
      if_neg htotal]

/-- The load of a core that is not idle is a code of 24 bits unless the idle time is less than a
hundred-thousandth of the total. -/
lemma load_le_iff (h : x.idle < x.total) : x.load ≤ fullScale ↔ x.total ≤ 100000 * x.idle := by
  obtain ⟨c, hc, hload⟩ := exists_load h
  have hidle : 1 ≤ x.thousandths ↔ x.total ≤ 100000 * x.idle := Nat.one_le_div_iff x.total_pos
  rw [hload, expand_rest_le_fullScale_iff (by omega) hc, hidle]

/-- With more idle time of the same total the load is not higher, as long as the core is not
idle. -/
lemma load_le (htotal : y.total = x.total) (hidle : y.idle ≤ x.idle) (h : x.idle < x.total) :
    x.load ≤ y.load := by
  obtain ⟨c, hc, hloadx⟩ := exists_load h
  obtain ⟨d, hd, hloady⟩ := exists_load (x := y) (by omega)
  have hthousandths : y.thousandths ≤ x.thousandths := by
    rw [Visit.thousandths, Visit.thousandths, htotal]
    exact Nat.div_le_div_right (Nat.mul_le_mul_left 100000 hidle)
  rw [hloadx, hloady]
  exact expand_rest_anti hc hd hthousandths

/-- **The load of the RTEMS monitor.** A visit of an idle thread stores the load as it should if and
only if the core was neither idle all the time nor idle for less than a hundred-thousandth of it. -/
theorem visit_reports_iff (x : Visit maxCpus) :
    (∃ load, x.Stores load ∧ Reports x load) ↔ x.idle < x.total ∧ x.total ≤ 100000 * x.idle := by
  constructor
  · rintro ⟨load, hload, h⟩
    obtain rfl := stores_iff.1 hload
    have hlt : x.idle < x.total := by
      refine lt_of_le_of_ne x.idle_le fun heq => ?_
      have hzero := h.idle heq
      rw [load_of_idle heq] at hzero
      revert hzero
      decide
    exact ⟨hlt, (load_le_iff hlt).1 h.range⟩
  · rintro ⟨hlt, hidle⟩
    refine ⟨x.load, stores_iff.2 rfl, (load_le_iff hlt).2 hidle, fun heq => ?_, fun hbusy => ?_, ?_⟩
    · exact absurd heq hlt.ne
    · have hpos := x.total_pos
      omega
    · intro y load' hload' htotal hle
      obtain rfl := stores_iff.1 hload'
      exact load_le htotal hle hlt

/-- Time stamps that are subtracted and divided exactly. -/
def exactTimestamps : Timestamps where
  subtract start stop := stop - start
  divide idle total :=
    (BitVec.ofNat 32 (100 * idle.toNat / total.toNat),
      BitVec.ofNat 32 (100000 * idle.toNat / total.toNat % 1000))
  divide_ival := by
    intro idle total hle hpos
    have hbound : 100 * idle / total ≤ 100 := Scaling.div_le hle
    rw [BitVec.toNat_ofNat]
    exact Nat.mod_eq_of_lt (by simp only [Int.toNat_natCast]; omega)
  divide_fval := by
    intro idle total _ _
    have hbound := Nat.mod_lt (100000 * idle / total) (show 0 < 1000 by omega)
    rw [BitVec.toNat_ofNat]
    exact Nat.mod_eq_of_lt (by simp only [Int.toNat_natCast]; omega)

/-- A single core that was idle for 1000 units of time out of 1000. -/
def alwaysIdle : Visit 1 where
  ts := exactTimestamps
  thread := ⟨idleName, 1000⟩
  currentUptime := 1000
  state := ⟨0, #v[⟨0, 0, 0⟩]⟩
  name_eq := rfl
  core := ⟨0, 0, 0⟩
  core_eq := rfl
  idle := 1000
  total := 1000
  idle_eq := rfl
  total_eq := rfl
  idle_le := le_rfl
  total_pos := by decide

/-- It is reported as fully loaded. -/
theorem not_reports_alwaysIdle :
    alwaysIdle.Stores fullScale ∧ ¬∃ load, alwaysIdle.Stores load ∧ Reports alwaysIdle load := by
  have hload : fullScale = alwaysIdle.load := (load_of_idle rfl).symm
  refine ⟨stores_iff.2 hload, ?_⟩
  rintro ⟨load, hstores, h⟩
  have hzero := h.idle rfl
  rw [stores_iff.1 hstores, ← hload] at hzero
  revert hzero
  decide

end Load

end CfePsp.Sysmon.Rtems
