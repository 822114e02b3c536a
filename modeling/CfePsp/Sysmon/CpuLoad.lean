import CfePsp.Lib.Means
import CfePsp.Lib.Runs
import CfePsp.Lib.Scaling
import CfePsp.Sysmon.LoadCode
import CfePsp.Sysmon.Schedstat

set_option relaxedAutoImplicit false
set_option autoImplicit false

/-!
# The aggregate load of the CPUs

`linux_sysmon_calc_aggregate_cpu` averages the loads of the cores `0, …, num_cpus - 1`, where
`num_cpus` is one more than the highest CPU number of the last pass. A run consists of passes over
arbitrary files and of reads of the aggregate, from the cleared state on.

## Main definitions

* `CfePsp.Sysmon.Linux.calcAggregateCpu` — the function of the source.
* `CfePsp.Sysmon.Linux.step` — the passes and the reads.
* `CfePsp.Sysmon.Linux.InRange` — what holds of every state of a run.

## Main results

* `CfePsp.Sysmon.Linux.sampleRange` — the ranges of the samples and of the aggregate.
* `CfePsp.Sysmon.Linux.calcAggregateCpu_of_pos` — the aggregate is the mean over the cores below the
  counter.

## Design

A pass and a read are atomic. A read has no result when its loop runs out of fuel, leaves the table
or divides by zero.
-/

namespace CfePsp.Sysmon.Linux

/-! ## The aggregate -/

/-- The loop of `linux_sysmon_calc_aggregate_cpu` from `cpu` on. -/
def sumLoop {w : ℕ} (state : CpuloadState w) :
    (fuel : ℕ) → (cpu : BitVec 8) → (sum : Uint32) → Option (BitVec 8 × Uint32)
  | 0, _, _ => none
  | fuel + 1, cpu, sum =>
    if cpu < state.numCpus then
      match state.perCore[cpu.toNat]? with
      | none => none
      | some core => sumLoop state fuel (cpu + 1) (sum + core.avgLoad)
    else some (cpu, sum)

/-- `/`. -/
def divide (a b : Uint32) : Option Uint32 := if b = 0 then none else some (a / b)

/-- `linux_sysmon_calc_aggregate_cpu`: the status and `*Val`. A `uint8_t` that counts up passes at
most 256 tests. -/
def calcAggregateCpu {w : ℕ} (state : CpuloadState w) : Option (ℤ × AdcCode) :=
  match sumLoop state 256 0 0 with
  | none => none
  | some (cpu, sum) =>
    if cpu = 0 then some (Status.error, 0)
    else (divide sum (cpu.setWidth 32)).map fun val => (Status.success, val)

/-! ## Runs -/

/-- A pass with the file it reads, or a read of the aggregate with what it returns. -/
inductive Event
  | pass (elapsedMs : Uint32) (reader : Reader) (stack : Vector UInt8 lineDataSize)
      (file : List UInt8)
  | aggregate (statusCode : ℤ) (val : AdcCode)

/-- The state after `memset`. -/
def cleared (w : ℕ) : CpuloadState w := ⟨0, Vector.replicate maxCpus ⟨0, 0⟩⟩

/-- The passes and the reads. -/
def step {w : ℕ} (toMs : BitVec w → Uint32) (state : CpuloadState w) :
    Event → Option (CpuloadState w)
  | .pass elapsedMs reader stack file => updateSchedstat toMs elapsedMs reader stack file state
  | .aggregate statusCode val =>
    if calcAggregateCpu state = some (statusCode, val) then some state else none

/-- Whether an event is a pass. -/
def Event.isPass : Event → Bool
  | .pass .. => true
  | .aggregate .. => false

/-! ## A sample is a code of 24 bits -/

section Sample

variable {w : ℕ} {toMs : BitVec w → Uint32} {elapsedMs : Uint32}

/-- The quotient has twelve bits, whether or not the product wraps. -/
lemma toNat_scaled_lt {cpuTimeMs : Uint32} (h : cpuTimeMs < elapsedMs) :
    (0x1000 * cpuTimeMs / elapsedMs).toNat < 0x1000 := by
  rw [BitVec.toNat_udiv, BitVec.toNat_mul]
  exact Scaling.mod_div_lt (by decide) (BitVec.lt_def.1 h)

/-- A new sample is in range, for every elapsed time. -/
lemma toNat_sample_le (runTime : BitVec w) (core : Core w) :
    (sample toMs elapsedMs runTime core).avgLoad.toNat ≤ 0xFFFFFF := by
  unfold sample
  simp only
  split
  · decide
  · next hlt =>
    split
    · decide
    · have hcode := toNat_scaled_lt (BitVec.not_le.1 hlt)
      exact (expand_le_fullScale_iff hcode.le).2 hcode

end Sample

/-! ## The range of a state -/

section Range

variable {w : ℕ} {toMs : BitVec w → Uint32} {elapsedMs : Uint32} {state : CpuloadState w}

/-- The `avg_load` of a core. -/
def CpuloadState.load (state : CpuloadState w) (k : ℕ) : ℕ :=
  if h : k < maxCpus then state.perCore[k].avgLoad.toNat else 0

/-- What holds of every state of a run: the samples have 24 bits, and the counter fits the table. -/
structure InRange (state : CpuloadState w) : Prop where
  load_le : ∀ k, state.load k ≤ 0xFFFFFF
  numCpus_le : state.numCpus.toNat ≤ maxCpus

/-- The same of the variables of a pass. -/
structure Pass.InRange (pass : Pass w) : Prop where
  avgLoad_le : ∀ k (hk : k < maxCpus), pass.perCore[k].avgLoad.toNat ≤ 0xFFFFFF
  highest_lt : pass.highestCpuNum.toNat < maxCpus

lemma inRange_cleared : InRange (cleared w) := by
  refine ⟨fun k => ?_, Nat.zero_le _⟩
  unfold CpuloadState.load cleared
  split
  · simp
  · exact Nat.zero_le _

/-- A line keeps the range. -/
lemma Pass.InRange.applyLine {pass : Pass w} (h : pass.InRange) (line : List UInt8) :
    (applyLine toMs elapsedMs pass line).InRange := by
  unfold Linux.applyLine
  cases cpuLine w line with
  | none => exact h
  | some use =>
    simp only
    by_cases hlt : use.cpuNum.toNat < maxCpus
    · refine ⟨fun k hk => ?_, ?_⟩
      · rw [pass.record_perCore hlt hk]
        split
        · exact toNat_sample_le _ _
        · exact h.avgLoad_le k hk
      · unfold Pass.record
        rw [dif_pos hlt]
        simp only
        split
        · exact hlt
        · exact h.highest_lt
    · rw [pass.record_of_le (by omega)]
      exact h

/-- The variables at the beginning of a pass. -/
lemma InRange.pass (h : InRange state) : Pass.InRange ⟨state.perCore, 0⟩ := by
  refine ⟨fun k hk => ?_, Nat.succ_pos 127⟩
  have := h.load_le k
  rwa [CpuloadState.load, dif_pos hk] at this

variable (toMs elapsedMs) in
/-- The variables at the end of a pass. -/
lemma InRange.foldl (h : InRange state) (lines : List (List UInt8)) :
    Pass.InRange (lines.foldl (applyLine toMs elapsedMs) ⟨state.perCore, 0⟩) :=
  List.foldlRecOn lines _ h.pass fun _ hpass line _ => hpass.applyLine line

/-- The counter of a pass is one more than its highest CPU number, without a wrap. -/
lemma toNat_numCpus {pass : Pass w} (h : pass.InRange) :
    ((1 + pass.highestCpuNum).setWidth 8).toNat = 1 + pass.highestCpuNum.toNat := by
  have hlt : pass.highestCpuNum.toNat < 128 := h.highest_lt
  have hone : (1 : Uint32).toNat = 1 := rfl
  rw [BitVec.toNat_setWidth, BitVec.toNat_add, hone]
  omega

variable (toMs elapsedMs) in
/-- A pass keeps the range, and leaves a counter from 1 to 128. -/
lemma InRange.applyFile (h : InRange state) (file : List UInt8) :
    InRange (applyFile toMs elapsedMs file state) ∧
      0 < (Linux.applyFile toMs elapsedMs file state).numCpus.toNat := by
  have hpass := h.foldl toMs elapsedMs (handledLines file)
  have hnum := toNat_numCpus hpass
  have hlt : _ < maxCpus := hpass.highest_lt
  refine ⟨⟨fun k => ?_, ?_⟩, ?_⟩
  · unfold CpuloadState.load
    split
    · next hk => exact hpass.avgLoad_le k hk
    · exact Nat.zero_le _
  · show ((1 + _ : Uint32).setWidth 8).toNat ≤ maxCpus
    rw [hnum]
    omega
  · show 0 < ((1 + _ : Uint32).setWidth 8).toNat
    rw [hnum]
    omega

end Range

/-! ## The sum -/

section Sum

variable {w : ℕ} {state : CpuloadState w}

/-- The sum over the cores fits 32 bits. -/
lemma sum_load_lt (h : InRange state) {n : ℕ} (hn : n ≤ maxCpus) :
    ∑ k ∈ Finset.range n, state.load k < 2 ^ 32 := by
  have hle : ∑ k ∈ Finset.range n, state.load k ≤ ∑ _k ∈ Finset.range n, 0xFFFFFF :=
    Finset.sum_le_sum fun k _ => h.load_le k
  rw [Finset.sum_const_nat fun _ _ => rfl, Finset.card_range] at hle
  unfold maxCpus at hn
  omega

/-- **The loop of the aggregate.** It stays in the table and ends with the exact sum of the loads.

**Proof sketch.** Induction on the fuel, which exceeds the number of cores ahead. The sum so far is
exact, since the sum of one core more fits 32 bits too. -/
lemma sumLoop_eq (h : InRange state) {fuel : ℕ} {cpu : BitVec 8} {sum : Uint32}
    (hfuel : state.numCpus.toNat - cpu.toNat < fuel) (hcpu : cpu.toNat ≤ state.numCpus.toNat)
    (hsum : sum.toNat = ∑ k ∈ Finset.range cpu.toNat, state.load k) :
    ∃ total : Uint32, sumLoop state fuel cpu sum = some (state.numCpus, total) ∧
      total.toNat = ∑ k ∈ Finset.range state.numCpus.toNat, state.load k := by
  induction fuel generalizing cpu sum with
  | zero => omega
  | succ fuel ih =>
    rw [sumLoop]
    have hmax : state.numCpus.toNat ≤ 128 := h.numCpus_le
    by_cases hlt : cpu < state.numCpus
    · have hlt' : cpu.toNat < state.numCpus.toNat := BitVec.lt_def.1 hlt
      have hk : cpu.toNat < maxCpus := lt_of_lt_of_le hlt' h.numCpus_le
      have hone : (1 : BitVec 8).toNat = 1 := rfl
      have hnext : (cpu + 1).toNat = cpu.toNat + 1 := by
        rw [BitVec.toNat_add, hone]
        omega
      have hload : state.load cpu.toNat = state.perCore[cpu.toNat].avgLoad.toNat := dif_pos hk
      have hfits := sum_load_lt h (n := cpu.toNat + 1) hk
      rw [Finset.sum_range_succ] at hfits
      rw [if_pos hlt, Vector.getElem?_eq_getElem hk]
      refine ih (by omega) (by omega) ?_
      rw [hnext, Finset.sum_range_succ, BitVec.toNat_add, hsum, ← hload, Nat.mod_eq_of_lt hfits]
    · have hle : ¬cpu.toNat < state.numCpus.toNat := mt BitVec.lt_def.2 hlt
      have heq : cpu = state.numCpus := BitVec.eq_of_toNat_eq (by omega)
      rw [if_neg hlt, ← heq]
      exact ⟨sum, rfl, hsum⟩

/-- The whole loop. -/
lemma sumLoop_all (h : InRange state) :
    ∃ total : Uint32, sumLoop state 256 0 0 = some (state.numCpus, total) ∧
      total.toNat = ∑ k ∈ Finset.range state.numCpus.toNat, state.load k := by
  have := state.numCpus.isLt
  refine sumLoop_eq h ?_ (Nat.zero_le _) rfl
  omega

/-- Without a pass the aggregate is an error. -/
lemma calcAggregateCpu_of_eq_zero (h : state.numCpus = 0) :
    calcAggregateCpu state = some (Status.error, 0) := by
  have hloop : sumLoop state 256 0 0 = some (0, 0) := by
    rw [sumLoop, h]
    rfl
  unfold calcAggregateCpu
  rw [hloop]
  rfl

/-- After a pass the aggregate is the mean of the loads of the cores `0, …, num_cpus - 1`. -/
lemma calcAggregateCpu_of_pos (h : InRange state) (hpos : 0 < state.numCpus.toNat) :
    ∃ val : AdcCode, calcAggregateCpu state = some (Status.success, val) ∧
      val.toNat = Means.mean (Finset.range state.numCpus.toNat) state.load := by
  obtain ⟨total, hloop, htotal⟩ := sumLoop_all h
  have hne : state.numCpus ≠ 0 := by
    rintro hzero
    rw [hzero] at hpos
    exact absurd hpos (Nat.lt_irrefl 0)
  have hcpu : (state.numCpus.setWidth 32).toNat = state.numCpus.toNat := by
    rw [BitVec.toNat_setWidth]
    omega
  have hdiv : state.numCpus.setWidth 32 ≠ (0 : Uint32) := by
    intro hzero
    rw [hzero] at hcpu
    have : (0 : Uint32).toNat = 0 := rfl
    omega
  refine ⟨total / state.numCpus.setWidth 32, ?_, ?_⟩
  · unfold calcAggregateCpu divide
    simp only [hloop, if_neg hne, if_neg hdiv, Option.map_some]
  · rw [BitVec.toNat_udiv, hcpu, htotal, Means.mean, Finset.card_range]

end Sum

/-! ## Runs from the cleared state -/

section Runs

variable {w : ℕ} {toMs : BitVec w → Uint32} {tr : List Event} {state : CpuloadState w}

/-- A pass of a run applies its file. -/
lemma step_pass (elapsedMs : Uint32) (reader : Reader) (stack : Vector UInt8 lineDataSize)
    (file : List UInt8) (state : CpuloadState w) :
    step toMs state (.pass elapsedMs reader stack file) =
      some (applyFile toMs elapsedMs file state) :=
  updateSchedstat_eq reader stack file state

/-- A run goes on with a pass over any file. -/
lemma run_pass {start : CpuloadState w} (hrun : Transition.run (step toMs) start tr = some state)
    (elapsedMs : Uint32) (reader : Reader) (stack : Vector UInt8 lineDataSize) (file : List UInt8) :
    Transition.run (step toMs) start (tr ++ [.pass elapsedMs reader stack file]) =
      some (applyFile toMs elapsedMs file state) :=
  Transition.run_concat.2 ⟨state, hrun, step_pass elapsedMs reader stack file state⟩

/-- A run goes on with a read of the aggregate. -/
lemma run_aggregate {start : CpuloadState w} {statusCode : ℤ} {val : AdcCode}
    (hrun : Transition.run (step toMs) start tr = some state)
    (hcalc : calcAggregateCpu state = some (statusCode, val)) :
    Transition.run (step toMs) start (tr ++ [.aggregate statusCode val]) = some state :=
  Transition.run_concat.2 ⟨state, hrun, if_pos hcalc⟩

/-- A step keeps the range, and a pass sets the counter. -/
lemma InRange.step {next : CpuloadState w} (h : InRange state) {e : Event}
    (hstep : step toMs state e = some next) :
    InRange next ∧ (0 < next.numCpus.toNat ↔ 0 < state.numCpus.toNat ∨ e.isPass = true) := by
  cases e with
  | pass elapsedMs reader stack file =>
    rw [step_pass] at hstep
    cases hstep
    obtain ⟨hrange, hpos⟩ := h.applyFile toMs elapsedMs file
    exact ⟨hrange, iff_of_true hpos (.inr rfl)⟩
  | aggregate statusCode val =>
    unfold Linux.step at hstep
    simp only at hstep
    split at hstep
    · cases hstep
      exact ⟨h, by simp [Event.isPass]⟩
    · cases hstep

/-- Every state of a run is in range, and its counter tells whether a pass was made. -/
lemma inRange_of_run (hrun : Transition.run (step toMs) (cleared w) tr = some state) :
    InRange state ∧ (0 < state.numCpus.toNat ↔ ∃ e ∈ tr, e.isPass = true) := by
  refine Transition.run_invariant
    (P := fun tr s => InRange s ∧ (0 < s.numCpus.toNat ↔ ∃ e ∈ tr, e.isPass = true))
    ⟨inRange_cleared, by simp [cleared]⟩ ?_ hrun
  rintro tr s e t ⟨hs, hpos⟩ hstep
  obtain ⟨ht, hpos'⟩ := hs.step hstep
  refine ⟨ht, ?_⟩
  rw [hpos', hpos]
  simp [or_and_right, exists_or]

/-- **The ranges of the samples.** In every run of passes, over any files and with any elapsed
times, and reads of the aggregate, every sample is a code of 24 bits, and the counter is 0 before
the first pass and from 1 to 128 after it. Another pass ends and stays in the table; the loop of the
aggregate ends, stays in the table, and its 32-bit sum is the exact one; the aggregate divides by a
counter that is not 0 and lies between two of the samples. -/
theorem sampleRange (hrun : Transition.run (step toMs) (cleared w) tr = some state) :
    (∀ k (hk : k < maxCpus), state.perCore[k].avgLoad.toNat ≤ 0xFFFFFF) ∧
    ((∀ e ∈ tr, e.isPass = false) → state.numCpus = 0) ∧
    ((∃ e ∈ tr, e.isPass = true) → 1 ≤ state.numCpus.toNat ∧ state.numCpus.toNat ≤ 128) ∧
    (∀ elapsedMs reader stack file, ∃ next,
      step toMs state (.pass elapsedMs reader stack file) = some next) ∧
    (∃ total : Uint32, sumLoop state 256 0 0 = some (state.numCpus, total) ∧
      total.toNat = ∑ k ∈ Finset.range state.numCpus.toNat, state.load k) ∧
    ∃ statusCode val, calcAggregateCpu state = some (statusCode, val) ∧
      (state.numCpus = 0 → statusCode = Status.error) ∧
      (state.numCpus ≠ 0 → statusCode = Status.success ∧
        ∃ i < state.numCpus.toNat, ∃ j < state.numCpus.toNat,
          state.load i ≤ val.toNat ∧ val.toNat ≤ state.load j) := by
  obtain ⟨hrange, hpos⟩ := inRange_of_run hrun
  refine ⟨fun k hk => ?_, fun hnone => ?_, fun hsome => ⟨hpos.2 hsome, hrange.numCpus_le⟩, ?_,
    sumLoop_all hrange, ?_⟩
  · exact hrange.pass.avgLoad_le k hk
  · have hzero : ¬0 < state.numCpus.toNat := by
      rw [hpos]
      rintro ⟨e, he, hpass⟩
      exact Bool.false_ne_true ((hnone e he).symm.trans hpass)
    exact BitVec.eq_of_toNat_eq (Nat.eq_zero_of_not_pos hzero)
  · intro elapsedMs reader stack file
    exact ⟨_, step_pass elapsedMs reader stack file state⟩
  · by_cases hzero : state.numCpus = 0
    · exact ⟨_, _, calcAggregateCpu_of_eq_zero hzero, fun _ => rfl, fun h => absurd hzero h⟩
    · have hcount : 0 < state.numCpus.toNat := by
        refine Nat.pos_of_ne_zero fun h => hzero ?_
        exact BitVec.eq_of_toNat_eq h
      obtain ⟨val, hcalc, hval⟩ := calcAggregateCpu_of_pos hrange hcount
      have hne : (Finset.range state.numCpus.toNat).Nonempty := ⟨0, Finset.mem_range.2 hcount⟩
      obtain ⟨i, hi, hle⟩ := Means.exists_le_mean (f := state.load) hne
      obtain ⟨j, hj, hge⟩ := Means.exists_mean_le (f := state.load) hne
      rw [← hval] at hle hge
      exact ⟨_, _, hcalc, fun h => absurd h hzero, fun _ =>
        ⟨rfl, i, Finset.mem_range.1 hi, j, Finset.mem_range.1 hj, hle, hge⟩⟩

end Runs

/-- Nanoseconds in milliseconds, on a machine with 64 bits. -/
def milliseconds (ns : BitVec 64) : Uint32 := BitVec.ofNat 32 (ns.toNat / 1000000)

/-- A reader that delivers what is requested. -/
def fullReader : Reader := ⟨fun _ n => n, fun _ _ h => h, fun _ n => Nat.le_refl n⟩

/-- A pass with the elapsed time 0 over a file, with a stack of zeros. -/
def firstPass (file : List UInt8) : Event :=
  .pass 0 fullReader (Vector.replicate lineDataSize 0) file

/-- The line of a CPU whose counter is at `tenths` tenths of a second:
`cpu0 0 0 0 0 0 0 300000000 0 0`, for a CPU and a number below 10. -/
def counterLine (cpu tenths : UInt8) : List UInt8 :=
  cpuPrefix ++ [48 + cpu] ++ (List.replicate 6 [32, 48]).flatten ++
    [32, 48 + tenths] ++ List.replicate 8 48 ++ [32, 48, 32, 48, newline]

/-- A file with the counters of two CPUs. -/
def twoCpuFile (tenths₀ tenths₁ : UInt8) : List UInt8 :=
  counterLine 0 tenths₀ ++ counterLine 1 tenths₁

/-- A second in which the two CPUs are busy for 0.2 and for 0.5 seconds, with a read of the
aggregate before it and one after it. -/
def twoPasses : List Event :=
  [firstPass (twoCpuFile 1 2), .aggregate Status.success 0xFFFFFF,
    .pass 1000 fullReader (Vector.replicate lineDataSize 0) (twoCpuFile 3 7),
    .aggregate Status.success 0x599D99]

/-- The aggregate of the run is between the loads of the two CPUs. -/
theorem sampleRange_of_twoPasses :
    ∃ state : CpuloadState 64,
      Transition.run (step milliseconds) (cleared 64) twoPasses = some state ∧
        (∀ k (hk : k < maxCpus), state.perCore[k].avgLoad.toNat ≤ 0xFFFFFF) ∧
        (1 ≤ state.numCpus.toNat ∧ state.numCpus.toNat ≤ 128) ∧
        ∃ i < state.numCpus.toNat, ∃ j < state.numCpus.toNat,
          state.load i ≤ 0x599D99 ∧ 0x599D99 ≤ state.load j := by
  have hnil : Transition.run (step milliseconds) (cleared 64) [] = some (cleared 64) := rfl
  have hfirst := run_pass hnil 0 fullReader (Vector.replicate lineDataSize 0) (twoCpuFile 1 2)
  have hfull : calcAggregateCpu (applyFile milliseconds 0 (twoCpuFile 1 2) (cleared 64)) =
      some (Status.success, 0xFFFFFF) := by decide +kernel
  have hread := run_aggregate hfirst hfull
  have hsecond := run_pass hread 1000 fullReader (Vector.replicate lineDataSize 0) (twoCpuFile 3 7)
  have hcalc : calcAggregateCpu (applyFile milliseconds 1000 (twoCpuFile 3 7)
      (applyFile milliseconds 0 (twoCpuFile 1 2) (cleared 64))) =
      some (Status.success, 0x599D99) := by decide +kernel
  have hrun := run_aggregate hsecond hcalc
  obtain ⟨hrange, -, hcount, -, -, statusCode, val, hval, -, hbetween⟩ := sampleRange hrun
  obtain ⟨-, rfl⟩ := Prod.mk.inj (Option.some.inj (hcalc.symm.trans hval))
  have hpos := hcount ⟨_, List.mem_append_left _ (List.mem_append_right _ List.mem_cons_self), rfl⟩
  refine ⟨_, hrun, hrange, hpos, (hbetween ?_).2⟩
  rintro hzero
  rw [hzero] at hpos
  exact absurd hpos.1 (by decide)

end CfePsp.Sysmon.Linux
