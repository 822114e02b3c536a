import CfePsp.Sysmon.CpuMean

set_option relaxedAutoImplicit false
set_option autoImplicit false

/-!
# The CPUs of `/proc/schedstat`

A pass samples a core with every line of the file that names it, as far as the pass goes: a line of
256 or more bytes is taken for malformed data, whatever it begins with, and ends the pass.

## Main definitions

* `CfePsp.Sysmon.Linux.runTimesOf` — the run-time counters that some lines have for a core.
* `CfePsp.Sysmon.Linux.KeepsCpus` — each core has its last counter, and the highest CPU is counted.

## Main results

* `CfePsp.Sysmon.Linux.perCore_foldl` — a core is sampled with its own counters, in order.
* `CfePsp.Sysmon.Linux.keepsCpus_untilLong` — a pass keeps the CPUs of the lines before the first
  one that is too long.
-/

namespace CfePsp.Sysmon.Linux

/-- The run-time counters of the lines that name the core `k`, in order. A line without eight
columns has the counter 0. -/
def runTimesOf (w : ℕ) (lines : List (List UInt8)) (k : ℕ) : List (BitVec w) :=
  ((lines.filterMap (cpuLine w)).filter (·.cpuNum.toNat = k)).map (·.runTime)

/-- Each core below 128 that is on one of the lines has the counter of its last such line, and
`num_cpus` is one more than the largest of these cores. -/
def KeepsCpus {w : ℕ} (lines : List (List UInt8)) (state : CpuloadState w) : Prop :=
  (∀ k (hk : k < maxCpus) (runTime : BitVec w), (runTimesOf w lines k).getLast? = some runTime →
    state.perCore[k].lastRunTime = runTime) ∧
  ∀ k, IsGreatest {k | ∃ line ∈ lines, Lists w line k} k → state.numCpus.toNat = k + 1

section Samples

variable {w : ℕ} {toMs : BitVec w → Uint32} {elapsedMs : Uint32}

lemma runTimesOf_cons (line : List UInt8) (lines : List (List UInt8)) (k : ℕ) :
    runTimesOf w (line :: lines) k = runTimesOf w [line] k ++ runTimesOf w lines k := by
  unfold runTimesOf
  rw [← List.map_append, ← List.filter_append, ← List.filterMap_append, List.singleton_append]

/-- A line samples the core that it names. -/
lemma perCore_applyLine (line : List UInt8) (pass : Pass w) {k : ℕ} (hk : k < maxCpus) :
    (applyLine toMs elapsedMs pass line).perCore[k] =
      (runTimesOf w [line] k).foldl (fun core runTime => sample toMs elapsedMs runTime core)
        pass.perCore[k] := by
  unfold applyLine runTimesOf
  cases huse : cpuLine w line with
  | none => simp [huse]
  | some use =>
    simp only [List.filterMap_cons, huse, List.filterMap_nil]
    by_cases heq : use.cpuNum.toNat = k
    · subst heq
      rw [pass.record_perCore hk hk, if_pos rfl]
      simp
    · simp only [List.filter_cons, heq, decide_false, Bool.false_eq_true, if_false,
        List.filter_nil, List.map_nil, List.foldl_nil]
      by_cases hlt : use.cpuNum.toNat < maxCpus
      · rw [pass.record_perCore hlt hk, if_neg (Ne.symm heq)]
      · rw [pass.record_of_le (Nat.le_of_not_lt hlt)]

/-- A core is sampled with its own counters, in order. -/
lemma perCore_foldl (lines : List (List UInt8)) (pass : Pass w) {k : ℕ} (hk : k < maxCpus) :
    (lines.foldl (applyLine toMs elapsedMs) pass).perCore[k] =
      (runTimesOf w lines k).foldl (fun core runTime => sample toMs elapsedMs runTime core)
        pass.perCore[k] := by
  induction lines generalizing pass with
  | nil => rfl
  | cons line lines ih =>
    rw [List.foldl_cons, ih, perCore_applyLine line pass hk, runTimesOf_cons line lines,
      List.foldl_append]

variable (toMs elapsedMs) in
/-- A core that was sampled has the counter of its last sample. -/
lemma lastRunTime_foldl (runTimes : List (BitVec w)) (core : Core w) :
    (runTimes.foldl (fun core runTime => sample toMs elapsedMs runTime core) core).lastRunTime =
      runTimes.getLast?.getD core.lastRunTime := by
  induction runTimes generalizing core with
  | nil => rfl
  | cons runTime runTimes ih =>
    rw [List.foldl_cons, ih, List.getLast?_cons, Option.getD_some]
    rfl

/-- The highest number of a pass is a core of the table, which is counted without a wrap. -/
lemma toNat_numCpus_foldl (perCore : Vector (Core w) maxCpus) {lines : List (List UInt8)} {k : ℕ}
    (h : IsGreatest {k | ∃ line ∈ lines, Lists w line k} k) :
    ((1 + (lines.foldl (applyLine toMs elapsedMs) ⟨perCore, 0⟩).highestCpuNum).setWidth
      8).toNat = k + 1 := by
  obtain ⟨high, hhigh, -, hall, hone⟩ := highest_foldl toMs elapsedMs lines ⟨perCore, 0⟩
  obtain ⟨⟨line, hline, hlists⟩, hmax⟩ := h
  have hle := hall line hline k hlists
  have heq : high = k := by
    rcases hone with hzero | hhighest
    · have hzero' : high = 0 := hzero
      omega
    · exact le_antisymm (hmax hhighest) hle
  obtain ⟨-, -, -, hlt⟩ := hlists
  have hone' : (1 : Uint32).toNat = 1 := rfl
  unfold maxCpus at hlt
  rw [BitVec.toNat_setWidth, BitVec.toNat_add, hhigh, heq, hone']
  omega

/-- A pass keeps the CPUs of the lines that it handles. -/
lemma keepsCpus_applyFile (file : List UInt8) (state : CpuloadState w) :
    KeepsCpus (handledLines file) (applyFile toMs elapsedMs file state) := by
  refine ⟨fun k hk runTime hlast => ?_, fun k hk => toNat_numCpus_foldl state.perCore hk⟩
  show ((handledLines file).foldl (applyLine toMs elapsedMs)
    ⟨state.perCore, 0⟩).perCore[k].lastRunTime = runTime
  rw [perCore_foldl _ _ hk, lastRunTime_foldl, hlast, Option.getD_some]

variable (toMs elapsedMs) in
/-- **The CPUs before the first line that is too long.** However `read` splits a file of ended lines
and whatever is on the stack, a pass ends, and it keeps the CPUs of the lines before the first one
of 256 or more bytes: each core below 128 that is on one of them has the counter of its last such
line, and `num_cpus` is one more than the largest of these cores. -/
theorem keepsCpus_untilLong {lines : List (List UInt8)} (hlines : ∀ line ∈ lines, newline ∉ line)
    (reader : Reader) (stack : Vector UInt8 lineDataSize) (state : CpuloadState w) :
    ∃ state', updateSchedstat toMs elapsedMs reader stack (Lines.text newline lines) state =
        some state' ∧
      KeepsCpus (lines.takeWhile fun line => line.length < lineDataSize) state' := by
  refine ⟨_, updateSchedstat_eq reader stack (Lines.text newline lines) state, ?_⟩
  have hhandled : handledLines (Lines.text newline lines) = _ := Lines.fitting_text hlines
  rw [← hhandled]
  exact keepsCpus_applyFile (Lines.text newline lines) state

end Samples

/-- `cpu1 0 0 0 0 0 0 5 0 0`. -/
def cpu1Line : List UInt8 :=
  [99, 112, 117, 49, 32, 48, 32, 48, 32, 48, 32, 48, 32, 48, 32, 48, 32, 53, 32, 48, 32, 48]

/-- A line of 256 bytes that names no CPU. -/
def domainLine : List UInt8 := List.replicate 256 100

/-- The line of a CPU in front of the long one counts. -/
theorem keepsCpus_cpu1Line :
    (∀ line ∈ [cpu1Line, domainLine], newline ∉ line) ∧
    ∃ state', updateSchedstat milliseconds 0 fullReader (Vector.replicate lineDataSize 0)
        (Lines.text newline [cpu1Line, domainLine]) (cleared 64) = some state' ∧
      KeepsCpus [cpu1Line] state' := by
  have hlines : ∀ line ∈ [cpu1Line, domainLine], newline ∉ line := by decide +kernel
  have hfits : ([cpu1Line, domainLine].takeWhile fun line => line.length < lineDataSize) =
      [cpu1Line] := by decide +kernel
  have hkeeps := keepsCpus_untilLong milliseconds 0 hlines fullReader
    (Vector.replicate lineDataSize 0) (cleared 64)
  rw [hfits] at hkeeps
  exact ⟨hlines, hkeeps⟩

/-- **A line that is lost.** Behind a long line that names no CPU, the line of CPU 1 has no effect:
the core keeps its counter, and one CPU is counted. -/
theorem not_keepsCpus_domainLine :
    ∃ lines : List (List UInt8), (∀ line ∈ lines, newline ∉ line) ∧
      (∀ line ∈ lines, line.take 3 = cpuPrefix → line.length < lineDataSize) ∧
      ∃ state', updateSchedstat milliseconds 0 fullReader (Vector.replicate lineDataSize 0)
          (Lines.text newline lines) (cleared 64) = some state' ∧ ¬KeepsCpus lines state' := by
  have hlines : ∀ line ∈ [domainLine, cpu1Line], newline ∉ line := by decide +kernel
  refine ⟨[domainLine, cpu1Line], hlines, by decide +kernel, _,
    updateSchedstat_eq fullReader _ _ _, ?_⟩
  have hnone : handledLines (Lines.text newline [domainLine, cpu1Line]) = [] :=
    (Lines.fitting_text hlines).trans (by decide +kernel)
  rintro ⟨hlast, -⟩
  have hfive := hlast 1 (by decide) 5 (by decide +kernel)
  unfold applyFile at hfive
  simp only [hnone, List.foldl_nil] at hfive
  have hzero : ∀ k (hk : k < maxCpus), (cleared 64).perCore[k].lastRunTime = 0 := by
    simp [cleared]
  exact absurd (hfive.symm.trans (hzero 1 (by decide))) (by decide)

end CfePsp.Sysmon.Linux
