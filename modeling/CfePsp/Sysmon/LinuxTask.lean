import CfePsp.Lib.Backlog
import CfePsp.Sysmon.LinuxLoad

set_option relaxedAutoImplicit false
set_option autoImplicit false

/-!
# The schedule of the Linux monitor

`linux_sysmon_Task` is to take a sample every 30 seconds. It adds up the times at which the samples
are due and waits for the difference to the time of the last sample, so that the time it needs for
a pass makes one sample late, and not the later ones. The waiting time is truncated to milliseconds
and to the range of an `int`.

## Main definitions

* `CfePsp.Sysmon.Linux.Task.turn` — a turn of the loop.
* `CfePsp.Sysmon.Linux.Task.TaskState.lateness` — how much later than due a sample is taken.

## Main results

* `CfePsp.Sysmon.Linux.Task.lateness_of_run` — the samples do not drift, and a task that is at most
  `2 ^ 31` ms late catches up.
* `CfePsp.Sysmon.Linux.Task.loads_of_run` — on a task that is on time, every pass leaves the exact
  loads of the cores whose counters grew by less than `2 ^ 32` ms.

## Design

A time is a number of ticks of the OSAL, of which a millisecond has some number; the clock does not
wrap. A turn is given by what its surroundings do: the ticks from a reading of the clock to the call
of `poll`, and those from the end of the timeout to the next reading. No signal handler interrupts
`poll`, which would end the wait before the timeout.
-/

namespace CfePsp.Sysmon.Linux.Task

open Transition

variable {w : ℕ} {ticks : ℕ} {toMs : BitVec w → Uint32}

/-! ## The program -/

/-- A turn of the loop: how long it is busy before it waits, how late it reads the clock after it
has waited, and the file of its pass. -/
structure Turn where
  busy : ℕ
  late : ℕ
  reader : Reader
  stack : Vector UInt8 lineDataSize
  file : List UInt8

/-- The time and the delay of a turn together. -/
def Turn.time (e : Turn) : ℕ := e.busy + e.late

/-- The variables of the task, and the state of the driver. -/
structure TaskState (w : ℕ) where
  currSample : ℤ
  nextSample : ℤ
  msecDiff : Uint32
  cpuLoad : CpuloadState w

/-- `OS_TimeFromTotalSeconds(LINUX_SYSMON_SAMPLE_DELAY)`, with a number of ticks in a
millisecond. -/
def sampleDelay (ticks : ℕ) : ℤ := 30000 * ticks

/-- `OS_TimeGetTotalMilliseconds`, as an `int`. -/
def totalMilliseconds (ticks : ℕ) (time : ℤ) : Uint32 := BitVec.ofInt 32 (time.tdiv ticks)

/-- How long `poll` waits, in ticks. -/
def wait (ticks : ℕ) (msecDiff : Uint32) : ℤ :=
  if 0 < msecDiff.toInt then msecDiff.toInt * ticks else 0

/-- The state in front of the loop, after the first pass. -/
def enter (toMs : BitVec w → Uint32) (now : ℤ) (reader : Reader)
    (stack : Vector UInt8 lineDataSize) (file : List UInt8) (state : CpuloadState w) :
    Option (TaskState w) :=
  (updateSchedstat toMs 0 reader stack file state).map fun cpuLoad => ⟨now, now, 0, cpuLoad⟩

/-- A turn of the loop. -/
def turn (ticks : ℕ) (toMs : BitVec w → Uint32) (s : TaskState w) (e : Turn) :
    Option (TaskState w) :=
  let nextSample := s.nextSample + sampleDelay ticks
  let msecDiff := totalMilliseconds ticks (nextSample - s.currSample)
  let currSample := s.currSample + e.busy + wait ticks msecDiff + e.late
  let msecDiff := totalMilliseconds ticks (currSample - s.currSample)
  (updateSchedstat toMs msecDiff e.reader e.stack e.file s.cpuLoad).map fun cpuLoad =>
    { currSample, nextSample, msecDiff, cpuLoad }

/-- How much after its due time the last sample was taken. -/
def TaskState.lateness (s : TaskState w) : ℤ := s.currSample - s.nextSample

/-! ## Waiting -/

section Waiting

variable {time : ℤ}

lemma toInt_totalMilliseconds (hlow : -(2 ^ 31) ≤ time.tdiv ticks)
    (hhigh : time.tdiv ticks < 2 ^ 31) :
    (totalMilliseconds ticks time).toInt = time.tdiv ticks := by
  rw [totalMilliseconds, BitVec.toInt_ofInt]
  exact Int.bmod_eq_of_le (by omega) (by omega)

/-- The task does not wait when the next sample is due already. -/
lemma wait_of_nonpos (hticks : 0 < ticks) (hlow : -(2 ^ 31 * ticks) ≤ time) (hhigh : time ≤ 0) :
    wait ticks (totalMilliseconds ticks time) = 0 := by
  have hneg : time.tdiv ticks = -((-time) / ticks) := by
    rw [← Int.tdiv_eq_ediv_of_nonneg (by omega), Int.neg_tdiv, neg_neg]
  have hnonneg : 0 ≤ -time / ticks := Int.ediv_nonneg (by omega) (by omega)
  have hle : -time / ticks ≤ 2 ^ 31 := by
    have hquot := Int.ediv_le_ediv (by omega : (0 : ℤ) < ticks) (by omega : -time ≤ 2 ^ 31 * ticks)
    rwa [Int.mul_ediv_cancel _ (by omega)] at hquot
  have hint : (totalMilliseconds ticks time).toInt = time.tdiv ticks :=
    toInt_totalMilliseconds (by omega) (by omega)
  rw [wait, hint, if_neg (by omega)]

/-- Otherwise it waits for the whole milliseconds until then. -/
lemma wait_of_nonneg (hticks : 0 < ticks) (hlow : 0 ≤ time) (hhigh : time < 2 ^ 31 * ticks) :
    0 ≤ wait ticks (totalMilliseconds ticks time) ∧
      wait ticks (totalMilliseconds ticks time) ≤ time ∧
      time < wait ticks (totalMilliseconds ticks time) + ticks := by
  have hquot : time.tdiv ticks = time / ticks := Int.tdiv_eq_ediv_of_nonneg hlow
  have hnonneg : 0 ≤ time / ticks := Int.ediv_nonneg hlow (by omega)
  have hlt : time / ticks < 2 ^ 31 := Int.ediv_lt_of_lt_mul (by omega) hhigh
  have hint : (totalMilliseconds ticks time).toInt = time.tdiv ticks :=
    toInt_totalMilliseconds (by omega) (by omega)
  have hwait : wait ticks (totalMilliseconds ticks time) = time / ticks * ticks := by
    rw [wait, hint, hquot]
    split_ifs with hpos
    · rfl
    · have hzero : time / ticks = 0 := by omega
      rw [hzero, zero_mul]
  have hrest := Int.lt_ediv_add_one_mul_self time (by omega : (0 : ℤ) < ticks)
  rw [add_mul, one_mul] at hrest
  rw [hwait]
  exact ⟨mul_nonneg hnonneg (by omega), Int.ediv_mul_le time (by omega), hrest⟩

end Waiting

/-! ## The schedule -/

section Schedule

variable {s t : TaskState w} {e : Turn} {tr : List Turn} {bound : ℤ}

/-- What a turn does to the times, and that its pass applies the file. -/
lemma turn_spec (hs : turn ticks toMs s e = some t) :
    t.nextSample = s.nextSample + sampleDelay ticks ∧
    t.lateness = s.lateness - sampleDelay ticks + e.time +
      wait ticks (totalMilliseconds ticks (sampleDelay ticks - s.lateness)) ∧
    t.msecDiff = totalMilliseconds ticks (t.currSample - s.currSample) ∧
    t.cpuLoad = applyFile toMs t.msecDiff e.file s.cpuLoad := by
  have hdue : s.nextSample + sampleDelay ticks - s.currSample =
      sampleDelay ticks - s.lateness := by
    rw [TaskState.lateness]
    ring
  simp only [turn, updateSchedstat_eq, Option.map_some, hdue] at hs
  obtain rfl := Option.some.inj hs
  refine ⟨rfl, ?_, rfl, rfl⟩
  simp only [TaskState.lateness, Turn.time]
  push_cast
  ring

/-- The lateness is that of the ideal schedule, which waits to the tick, up to a millisecond. -/
structure OnIdeal (ticks : ℕ) (ideal lateness : ℤ) : Prop where
  early : -(ticks : ℤ) < lateness
  low : ideal - ticks < lateness
  high : lateness ≤ ideal
  fits : ideal ≤ 2 ^ 31 * ticks

/-- A turn follows the ideal schedule. -/
lemma OnIdeal.turn {ideal : ℤ} (hticks : 0 < ticks) (h : OnIdeal ticks ideal s.lateness)
    (he : (e.time : ℤ) ≤ sampleDelay ticks) (hs : turn ticks toMs s e = some t) :
    OnIdeal ticks (Backlog.next (sampleDelay ticks) ideal e.time) t.lateness := by
  obtain ⟨-, hlate, -, -⟩ := turn_spec hs
  obtain ⟨hearly, hlow, hhigh, hfits⟩ := h
  have htime : (0 : ℤ) ≤ e.time := Int.natCast_nonneg _
  rw [hlate, Backlog.next]
  unfold sampleDelay at he ⊢
  rcases le_total s.lateness (30000 * ticks) with hdue | hdue
  · -- there is time left until the next sample is due
    have hleft : 0 ≤ 30000 * (ticks : ℤ) - s.lateness := by omega
    obtain ⟨hnonneg, hle, hlt⟩ := wait_of_nonneg hticks hleft (by omega)
    constructor <;> omega
  · have hover : 30000 * (ticks : ℤ) - s.lateness ≤ 0 := by omega
    rw [wait_of_nonpos hticks (by omega) hover]
    constructor <;> omega

/-- Any number of turns follows the ideal schedule, and counts the due times up. -/
lemma onIdeal_of_run (hticks : 0 < ticks) (hearly : -(ticks : ℤ) < s.lateness)
    (hfits : s.lateness ≤ 2 ^ 31 * ticks) (htr : ∀ e ∈ tr, (e.time : ℤ) ≤ sampleDelay ticks)
    (hrun : run (turn ticks toMs) s tr = some t) :
    OnIdeal ticks (Backlog.after (sampleDelay ticks) s.lateness (tr.map fun e => (e.time : ℤ)))
        t.lateness ∧
      t.nextSample = s.nextSample + tr.length * sampleDelay ticks := by
  revert htr
  refine run_invariant (P := fun tr t => (∀ e ∈ tr, (e.time : ℤ) ≤ sampleDelay ticks) →
    OnIdeal ticks (Backlog.after (sampleDelay ticks) s.lateness (tr.map fun e => (e.time : ℤ)))
        t.lateness ∧ t.nextSample = s.nextSample + tr.length * sampleDelay ticks) ?_ ?_ hrun
  · intro _
    refine ⟨⟨hearly, ?_, le_refl _, hfits⟩, by simp⟩
    simp only [List.map_nil, Backlog.after_nil]
    omega
  · intro tr u e t ih hs htr
    obtain ⟨hideal, hdue⟩ := ih fun e he => htr e (List.mem_append_left _ he)
    refine ⟨?_, ?_⟩
    · rw [List.map_append, List.map_singleton, Backlog.after_concat]
      exact hideal.turn hticks (htr e (by simp)) hs
    · rw [(turn_spec hs).1, hdue, List.length_append, List.length_singleton]
      push_cast
      ring

/-- Turns that do not take longer than `bound` work the lateness off. -/
lemma lateness_bounds (hticks : 0 < ticks) (hbound : bound ≤ sampleDelay ticks)
    (hearly : -(ticks : ℤ) < s.lateness) (hfits : s.lateness ≤ 2 ^ 31 * ticks)
    (htr : ∀ e ∈ tr, (e.time : ℤ) ≤ bound) (hrun : run (turn ticks toMs) s tr = some t) :
    -(ticks : ℤ) < t.lateness ∧
      t.lateness ≤ max (s.lateness - tr.length * (sampleDelay ticks - bound)) bound ∧
      t.nextSample = s.nextSample + tr.length * sampleDelay ticks := by
  obtain ⟨hideal, hdue⟩ := onIdeal_of_run hticks hearly hfits
    (fun e he => (htr e he).trans hbound) hrun
  have htimes : ∀ u ∈ tr.map fun e => (e.time : ℤ), u ≤ bound := by
    intro u hu
    obtain ⟨e, he, rfl⟩ := List.mem_map.1 hu
    exact htr e he
  have hafter := @Backlog.after_le _ _ s.lateness _ hbound htimes
  rw [List.length_map] at hafter
  exact ⟨hideal.early, hideal.high.trans hafter, hdue⟩

/-- **The samples do not drift.** If a task is less than a millisecond early and at most `2 ^ 31` ms
late, then after turns that do not take longer than `bound`, and that is at most the delay between
two samples, a sample is taken less than a millisecond before the time it is due, counted from the
start, and at most by `bound` after it, as soon as the turns have worked the lateness off.

**Proof sketch.** The lateness follows that of an ideal schedule. The difference to the next due
time fits the `int` that `poll` gets. -/
theorem lateness_of_run (hticks : 0 < ticks) (hbound : bound ≤ sampleDelay ticks)
    (hearly : -(ticks : ℤ) < s.lateness) (hfits : s.lateness ≤ 2 ^ 31 * ticks)
    (htr : ∀ e ∈ tr, (e.time : ℤ) ≤ bound) (hrun : run (turn ticks toMs) s tr = some t) :
    s.nextSample + tr.length * sampleDelay ticks - ticks < t.currSample ∧
      t.currSample ≤ s.nextSample + tr.length * sampleDelay ticks +
        max (s.lateness - tr.length * (sampleDelay ticks - bound)) bound := by
  obtain ⟨hlow, hhigh, hdue⟩ := lateness_bounds hticks hbound hearly hfits htr hrun
  rw [TaskState.lateness] at hlow hhigh
  omega

/-- A task that has just been started, and was suspended for 50 seconds in its first turn. -/
def suspended : TaskState 64 := ⟨500000, 0, 0, cleared 64⟩

/-- A turn of two milliseconds, over a file without lines. -/
def shortTurn : Turn := ⟨10, 10, fullReader, Vector.replicate lineDataSize 0, []⟩

/-- It is on time again at its third sample. -/
theorem lateness_of_run_of_suspended : ∃ t,
    run (turn 10 milliseconds) suspended [shortTurn, shortTurn, shortTurn] = some t ∧
      900000 - 10 < t.currSample ∧ t.currSample ≤ 900000 + 20 := by
  have hrun : ∃ t, run (turn 10 milliseconds) suspended [shortTurn, shortTurn, shortTurn] =
      some t := by
    simp only [run, List.foldlM_cons, List.foldlM_nil, turn, updateSchedstat_eq, Option.map_some,
      Option.bind_eq_bind, Option.bind_some, Option.pure_def]
    exact ⟨_, rfl⟩
  obtain ⟨t, ht⟩ := hrun
  have hbound : (20 : ℤ) ≤ sampleDelay 10 := by decide
  exact ⟨t, ht, lateness_of_run (by decide) hbound (by decide) (by decide) (by decide) ht⟩

end Schedule

/-! ## The loads -/

section Loads

variable {s t u : TaskState w} {e : Turn} {tr : List Turn} {now : ℤ} {reader : Reader}
  {stack : Vector UInt8 lineDataSize} {file : List UInt8} {state : CpuloadState w}

/-- The elapsed time between two samples of a task that is on time. -/
lemma toNat_msecDiff (hticks : 0 < ticks) (hlow : (ticks : ℤ) < t.currSample - u.currSample)
    (hhigh : t.currSample - u.currSample < 60000 * ticks)
    (hmsec : t.msecDiff = totalMilliseconds ticks (t.currSample - u.currSample)) :
    (t.msecDiff.toNat : ℤ) = (t.currSample - u.currSample) / ticks ∧
      0 < t.msecDiff.toNat ∧ t.msecDiff.toNat < 60000 := by
  have hquot : (t.currSample - u.currSample).tdiv ticks = (t.currSample - u.currSample) / ticks :=
    Int.tdiv_eq_ediv_of_nonneg (by omega)
  have hpos : 1 ≤ (t.currSample - u.currSample) / ticks :=
    (Int.le_ediv_iff_mul_le (by omega)).2 (by omega)
  have hlt : (t.currSample - u.currSample) / ticks < 60000 := Int.ediv_lt_of_lt_mul (by omega) hhigh
  have hint : (totalMilliseconds ticks (t.currSample - u.currSample)).toInt =
      (t.currSample - u.currSample).tdiv ticks := toInt_totalMilliseconds (by omega) (by omega)
  rw [← hmsec, hquot, BitVec.toInt_eq_toNat_cond] at hint
  have hword := t.msecDiff.isLt
  split_ifs at hint <;> omega

/-- **The loads of a task that is on time.** As long as the turns of a task leave two milliseconds
of the delay between the samples, every pass gets the time that elapsed since the last sample in
milliseconds, which is neither 0 nor as large as to make a product overflow, and leaves every core
whose counter grew, by less than `2 ^ 32` ms, with the exact proportion of the two.

**Proof sketch.** The lateness at both samples is between a millisecond before the time they were
due and the delay without two milliseconds. -/
theorem loads_of_run (hms : ExactMs toMs) (hticks : 0 < ticks)
    (henter : enter toMs now reader stack file state = some s)
    (hrun : run (turn ticks toMs) s tr = some u) (hs : turn ticks toMs u e = some t)
    (htr : ∀ e' ∈ tr ++ [e], (e'.time : ℤ) + 2 * ticks ≤ sampleDelay ticks) :
    (t.msecDiff.toNat : ℤ) = (t.currSample - u.currSample) / ticks ∧
      0 < t.msecDiff.toNat ∧ t.msecDiff.toNat < 60000 ∧
      ∀ k d, Grew e.file u.cpuLoad k d → d / 10 ^ 6 < 2 ^ 32 →
        t.cpuLoad.load k = saturatedLoad (d / 10 ^ 6) t.msecDiff.toNat := by
  have hstart : s.lateness = 0 := by
    simp only [enter, updateSchedstat_eq, Option.map_some] at henter
    obtain rfl := Option.some.inj henter
    exact sub_self now
  have hdelay : sampleDelay ticks = 30000 * ticks := rfl
  have hbound : ∀ e' ∈ tr ++ [e], (e'.time : ℤ) ≤ sampleDelay ticks - 2 * ticks := fun e' he' => by
    have := htr e' he'
    omega
  have hbounds : ∀ {tr : List Turn} {t : TaskState w},
      (∀ e' ∈ tr, (e'.time : ℤ) ≤ sampleDelay ticks - 2 * ticks) →
      run (turn ticks toMs) s tr = some t →
      -(ticks : ℤ) < t.lateness ∧ t.lateness ≤ sampleDelay ticks - 2 * ticks := by
    intro tr t htr hrun
    obtain ⟨hlow, hhigh, -⟩ := lateness_bounds hticks (by omega) (by omega) (by omega) htr hrun
    have hworked : 0 ≤ (tr.length : ℤ) * (sampleDelay ticks - (sampleDelay ticks - 2 * ticks)) :=
      mul_nonneg (by omega) (by omega)
    omega
  obtain ⟨hlow, hhigh⟩ := hbounds (fun e' he' => hbound e' (List.mem_append_left _ he')) hrun
  obtain ⟨hlow', hhigh'⟩ := hbounds hbound (run_concat.2 ⟨u, hrun, hs⟩)
  obtain ⟨hdue, -, hmsec, hload⟩ := turn_spec hs
  rw [TaskState.lateness] at hlow hhigh hlow' hhigh'
  obtain ⟨hexact, hpos, hlt⟩ := toNat_msecDiff hticks (by omega) (by omega) hmsec
  refine ⟨hexact, hpos, hlt, fun k d hgrew hd => ?_⟩
  rw [hload, load_of_grew hms hgrew hd]
  exact (driverLoad_eq_iff (by omega)).2 ⟨hpos, by omega⟩

/-- A task after the pass in front of the loop, over the counters of two CPUs. -/
def started : TaskState 64 :=
  ⟨0, 0, 0, applyFile milliseconds 0 (twoCpuFile 1 2) (cleared 64)⟩

/-- The same task two milliseconds after its second sample was due. -/
def sampled : TaskState 64 :=
  ⟨300020, 300000, 30002, applyFile milliseconds 30002 (twoCpuFile 3 7) started.cpuLoad⟩

/-- The third sample of the task: since the second one, the CPUs were busy for 0.1 and for 0.2
seconds. -/
theorem loads_of_run_of_sampled : ∃ t : TaskState 64,
    run (turn 10 milliseconds) started [{ shortTurn with file := twoCpuFile 3 7 }] = some sampled ∧
      turn 10 milliseconds sampled { shortTurn with file := twoCpuFile 4 9 } = some t ∧
      0 < t.msecDiff.toNat ∧ t.cpuLoad.load 0 = saturatedLoad 100 t.msecDiff.toNat ∧
      t.cpuLoad.load 1 = saturatedLoad 200 t.msecDiff.toNat := by
  have henter : enter milliseconds 0 fullReader shortTurn.stack (twoCpuFile 1 2) (cleared 64) =
      some started := by
    rw [enter, updateSchedstat_eq]
    rfl
  have hsecond : turn 10 milliseconds started { shortTurn with file := twoCpuFile 3 7 } =
      some sampled := by
    simp only [turn, updateSchedstat_eq]
    rfl
  have hrun : run (turn 10 milliseconds) started [{ shortTurn with file := twoCpuFile 3 7 }] =
      some sampled :=
    run_cons.2 ⟨sampled, hsecond, run_nil sampled⟩
  obtain ⟨t, ht⟩ : ∃ t, turn 10 milliseconds sampled { shortTurn with file := twoCpuFile 4 9 } =
      some t := by
    simp only [turn, updateSchedstat_eq]
    exact ⟨_, rfl⟩
  have hgrew₀ : Grew (twoCpuFile 4 9) sampled.cpuLoad 0 100000000 :=
    ⟨by decide, [], 400000000, by decide +kernel, by decide +kernel⟩
  have hgrew₁ : Grew (twoCpuFile 4 9) sampled.cpuLoad 1 200000000 :=
    ⟨by decide, [], 900000000, by decide +kernel, by decide +kernel⟩
  obtain ⟨-, hpos, -, hloads⟩ :=
    loads_of_run exactMs_milliseconds (by decide) henter hrun ht (by decide)
  exact ⟨t, hrun, ht, hpos, hloads 0 _ hgrew₀ (by decide), hloads 1 _ hgrew₁ (by decide)⟩

end Loads

end CfePsp.Sysmon.Linux.Task
