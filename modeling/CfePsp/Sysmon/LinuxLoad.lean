import CfePsp.Sysmon.SchedstatCpus

set_option relaxedAutoImplicit false
set_option autoImplicit false

/-!
# The load of a core of Linux

A pass computes the load of a core from the growth of its run-time counter and the elapsed time, in
milliseconds, as a saturated proportion. The product with `0x1000` is formed in 32 bits, and the
test for an elapsed time of 0 comes behind one that such a time always passes.

## Main definitions

* `CfePsp.Sysmon.Linux.Grew` — how far the counter of a core grew since its last sample.
* `CfePsp.Sysmon.Linux.saturatedLoad` — the load that a pass is to leave.
* `CfePsp.Sysmon.Linux.driverLoad` — the load that a pass leaves.

## Main results

* `CfePsp.Sysmon.Linux.load_of_grew` — a pass leaves the load `driverLoad`.
* `CfePsp.Sysmon.Linux.avgLoad_eq_saturated_iff` — the load is the saturated proportion if and only
  if some time elapsed, and the core took all of it or less than `2^20` ms.

## Design

A core may be on several lines of a file. The growth is then that of the last line over the one
before it. An `unsigned long` has `w` bits, and a counter that wraps grows by the difference modulo
`2^w`, as in the source.
-/

namespace CfePsp.Sysmon.Linux

/-! ## The proportion -/

/-- The conversion of nanoseconds into milliseconds by the OSAL is exact up to the floor, where the
result fits an `unsigned int`. -/
def ExactMs {w : ℕ} (toMs : BitVec w → Uint32) : Prop :=
  ∀ ns : BitVec w, ns.toNat / 10 ^ 6 < 2 ^ 32 → (toMs ns).toNat = ns.toNat / 10 ^ 6

/-- With its last sample of the pass, the counter of the core `k` grew by `d` nanoseconds. -/
def Grew {w : ℕ} (file : List UInt8) (state : CpuloadState w) (k d : ℕ) : Prop :=
  ∃ (hk : k < maxCpus) (before : List (BitVec w)) (runTime : BitVec w),
    runTimesOf w (handledLines file) k = before ++ [runTime] ∧
      (runTime - before.getLast?.getD state.perCore[k].lastRunTime).toNat = d

/-- The saturated proportion of `t` to the elapsed time, as a code. -/
def saturatedLoad (t elapsed : ℕ) : ℕ :=
  if elapsed = 0 then 0
  else if elapsed ≤ t then fullScale
  else expanded (proportion t elapsed)

/-- The load that a pass computes. -/
def driverLoad (t elapsed : ℕ) : ℕ :=
  if elapsed ≤ t then fullScale else expanded (0x1000 * t % 2 ^ 32 / elapsed)

section Driver

variable {t t' elapsed : ℕ}

/-- The quotient of the driver has twelve bits, whether or not the product wraps. -/
lemma quotient_lt (h : t < elapsed) : 0x1000 * t % 2 ^ 32 / elapsed < 0x1000 :=
  Scaling.mod_div_lt (by decide) h

lemma driverLoad_le (t elapsed : ℕ) : driverLoad t elapsed ≤ fullScale := by
  unfold driverLoad
  split
  · exact le_rfl
  · next hlt => exact expanded_le_fullScale (quotient_lt (not_le.1 hlt))

/-- The driver computes the saturated proportion if and only if some time elapsed, and the product
does not wrap where it is used. -/
lemma driverLoad_eq_iff (he : elapsed < 2 ^ 31) :
    driverLoad t elapsed = saturatedLoad t elapsed ↔ 0 < elapsed ∧ (elapsed ≤ t ∨ t < 2 ^ 20) := by
  unfold driverLoad saturatedLoad
  by_cases hzero : elapsed = 0
  · subst hzero
    simp [fullScale]
  rw [if_neg hzero]
  by_cases hle : elapsed ≤ t
  · simp [hle, Nat.pos_of_ne_zero hzero]
  have hlt := not_le.1 hle
  have hexact := Scaling.mod_div_eq_iff (m := 2 ^ 32) (p := 0x1000 * t) (Nat.pos_of_ne_zero hzero)
    (by omega)
  rw [if_neg hle, if_neg hle,
    expanded_inj (quotient_lt hlt) ((proportion_lt_iff (by omega)).2 hlt), proportion, hexact]
  omega

/-- More time gives no lower load, as long as the product of the larger one does not wrap. -/
lemma driverLoad_mono (h : t ≤ t') (hexact : elapsed ≤ t' ∨ t' < 2 ^ 20) :
    driverLoad t elapsed ≤ driverLoad t' elapsed := by
  by_cases hle : elapsed ≤ t'
  · have hfull : driverLoad t' elapsed = fullScale := if_pos hle
    exact hfull ▸ driverLoad_le t elapsed
  · have hlt' := not_le.1 hle
    have hlt : ¬elapsed ≤ t := by omega
    rw [driverLoad, driverLoad, if_neg hlt, if_neg hle]
    refine expanded_le ?_ (quotient_lt hlt')
    rw [Nat.mod_eq_of_lt (by omega), Nat.mod_eq_of_lt (by omega)]
    exact proportion_mono h

/-- For an elapsed time of more than `2^20` ms, the load falls where the product first wraps. -/
lemma exists_driverLoad_lt (he : elapsed < 2 ^ 31) (hlong : 2 ^ 20 < elapsed) :
    ∃ n < 2 ^ 20, driverLoad (n + 1) elapsed < driverLoad n elapsed := by
  obtain ⟨n, hn, hlow, hfall⟩ := Scaling.exists_drop (m := 2 ^ 32) (q := 0x1000) (c := elapsed)
    (k := elapsed - 1) (by omega) (by omega) (by omega)
  refine ⟨n, by omega, ?_⟩
  rw [Nat.mul_comm n, Nat.mul_comm (n + 1)] at hfall
  have hfits : 0x1000 * n % 2 ^ 32 = 0x1000 * n := Nat.mod_eq_of_lt (by omega)
  have hquot : 0x1000 * n % 2 ^ 32 / elapsed < 0x1000 := quotient_lt (by omega)
  rw [hfits] at hquot
  rw [driverLoad, driverLoad, if_neg (by omega), if_neg (by omega), hfits, expanded_eq hquot,
    expanded_eq (lt_trans hfall hquot)]
  exact Nat.mul_lt_mul_of_pos_right hfall (Nat.succ_pos 4096)

end Driver

/-! ## Passes -/

section Passes

variable {w : ℕ} {toMs : BitVec w → Uint32} {elapsedMs : Uint32} {file : List UInt8}
  {state : CpuloadState w} {k d : ℕ}

/-- The load of a new sample. -/
lemma toNat_avgLoad_sample (hms : ExactMs toMs) {runTime : BitVec w} {core : Core w}
    (h : (runTime - core.lastRunTime).toNat / 10 ^ 6 < 2 ^ 32) :
    (sample toMs elapsedMs runTime core).avgLoad.toNat =
      driverLoad ((runTime - core.lastRunTime).toNat / 10 ^ 6) elapsedMs.toNat := by
  have htime := hms (runTime - core.lastRunTime) h
  unfold sample driverLoad
  simp only
  rw [← htime]
  by_cases hle : elapsedMs ≤ toMs (runTime - core.lastRunTime)
  · rw [if_pos hle, if_pos (BitVec.le_def.1 hle)]
    rfl
  · have hlt : (toMs (runTime - core.lastRunTime)).toNat < elapsedMs.toNat :=
      BitVec.lt_def.1 (BitVec.not_le.1 hle)
    have hne : elapsedMs ≠ 0 := by
      rintro rfl
      exact absurd hlt (Nat.not_lt_zero _)
    have hquot : (0x1000 * toMs (runTime - core.lastRunTime) / elapsedMs).toNat =
        0x1000 * (toMs (runTime - core.lastRunTime)).toNat % 2 ^ 32 / elapsedMs.toNat := by
      rw [BitVec.toNat_udiv, BitVec.toNat_mul]
      rfl
    rw [if_neg hle, if_neg hne, if_neg (not_le.2 hlt), ← hquot, toNat_expand_eq]
    rw [hquot]
    exact quotient_lt hlt

/-- The load of a core that a pass samples depends on the growth of its counter only. -/
lemma load_of_grew (hms : ExactMs toMs) (h : Grew file state k d) (hd : d / 10 ^ 6 < 2 ^ 32) :
    (applyFile toMs elapsedMs file state).load k = driverLoad (d / 10 ^ 6) elapsedMs.toNat := by
  obtain ⟨hk, before, runTime, hruns, rfl⟩ := h
  unfold CpuloadState.load
  rw [dif_pos hk]
  show ((handledLines file).foldl (applyLine toMs elapsedMs)
    ⟨state.perCore, 0⟩).perCore[k].avgLoad.toNat = _
  have hlast := lastRunTime_foldl toMs elapsedMs before state.perCore[k]
  rw [perCore_foldl _ _ hk, hruns, List.foldl_concat]
  rw [← hlast] at hd ⊢
  exact toNat_avgLoad_sample hms hd

/-- A pass in which the counter of the core `k` grew by `d` nanoseconds leaves the load `load`. -/
def PassLoads (toMs : BitVec w → Uint32) (elapsedMs : Uint32) (k d load : ℕ) : Prop :=
  ∃ (reader : Reader) (stack : Vector UInt8 lineDataSize) (file : List UInt8)
    (state state' : CpuloadState w), Grew file state k d ∧
      updateSchedstat toMs elapsedMs reader stack file state = some state' ∧ load = state'.load k

lemma PassLoads.eq {load : ℕ} (h : PassLoads toMs elapsedMs k d load) (hms : ExactMs toMs)
    (hd : d / 10 ^ 6 < 2 ^ 32) : load = driverLoad (d / 10 ^ 6) elapsedMs.toNat := by
  obtain ⟨reader, stack, file, state, state', hgrew, hpass, rfl⟩ := h
  rw [updateSchedstat_eq] at hpass
  cases hpass
  exact load_of_grew hms hgrew hd

lemma PassLoads.lt {load : ℕ} (h : PassLoads toMs elapsedMs k d load) : d < 2 ^ w := by
  obtain ⟨-, -, -, -, -, ⟨-, -, -, -, rfl⟩, -⟩ := h
  exact BitVec.isLt _

/-- A growth that a counter can have occurs with every core: the file has one line, and the sample
before is as much behind it. -/
lemma exists_grew (hw : 7 ≤ w) (hk : k < maxCpus) (hd : d < 2 ^ w) :
    ∃ (file : List UInt8) (state : CpuloadState w), Grew file state k d := by
  obtain ⟨use, huse, hnum⟩ := cpuLine_digits hw hk
  obtain ⟨last, hlast⟩ : ∃ last, last + BitVec.ofNat w d = use.runTime :=
    ⟨_, BitVec.sub_add_cancel use.runTime _⟩
  refine ⟨cpuFile k, ⟨0, Vector.replicate maxCpus ⟨0, last⟩⟩, hk, [], use.runTime, ?_, ?_⟩
  · rw [handledLines_cpuFile k hk, runTimesOf]
    simp [huse, hnum]
  · rw [List.getLast?_nil, Option.getD_none, Vector.getElem_replicate]
    show (use.runTime - last).toNat = d
    rw [← hlast, BitVec.add_comm, BitVec.add_sub_cancel, BitVec.toNat_ofNat, Nat.mod_eq_of_lt hd]

/-- Every load that the driver computes is left by some pass. -/
lemma exists_passLoads (hms : ExactMs toMs) (hw : 7 ≤ w) (elapsedMs : Uint32) (hd : d < 2 ^ w)
    (hms' : d / 10 ^ 6 < 2 ^ 32) :
    PassLoads toMs elapsedMs 0 d (driverLoad (d / 10 ^ 6) elapsedMs.toNat) := by
  obtain ⟨file, state, hgrew⟩ := exists_grew hw (Nat.succ_pos 127) hd
  exact ⟨fullReader, Vector.replicate lineDataSize 0, file, state, _, hgrew,
    updateSchedstat_eq _ _ _ _, (load_of_grew hms hgrew hms').symm⟩

/-- **The load of the Linux monitor.** For every elapsed time that is not negative:
1. a pass in which the counter of a core grew by `d` nanoseconds ends, and leaves that core with the
   saturated proportion if and only if some time elapsed, and the core took all of it or less than
   `2^20` ms;
2. for a positive time, the load is nondecreasing in the growth if and only if the time is at most
   `2^20` ms, or no counter can grow by as much.

**Proof sketch.** For a long time, the load of the growth at which the product first wraps is less
than that of the growth before. -/
theorem avgLoad_eq_saturated_iff (hms : ExactMs toMs) (he : elapsedMs.toNat < 2 ^ 31) :
    (∀ (reader : Reader) (stack : Vector UInt8 lineDataSize) (file : List UInt8)
      (state : CpuloadState w) (k d : ℕ), Grew file state k d → d / 10 ^ 6 < 2 ^ 32 →
        ∃ state', updateSchedstat toMs elapsedMs reader stack file state = some state' ∧
          (state'.load k = saturatedLoad (d / 10 ^ 6) elapsedMs.toNat ↔
            0 < elapsedMs.toNat ∧
              (elapsedMs.toNat ≤ d / 10 ^ 6 ∨ d / 10 ^ 6 < 2 ^ 20))) ∧
    (0 < elapsedMs.toNat →
      ((∀ k k' d d' load load', PassLoads toMs elapsedMs k d load →
        PassLoads toMs elapsedMs k' d' load' → d ≤ d' → d' / 10 ^ 6 < 2 ^ 32 → load ≤ load') ↔
      elapsedMs.toNat ≤ 2 ^ 20 ∨ 2 ^ w ≤ 2 ^ 20 * 10 ^ 6)) := by
  refine ⟨fun reader stack file state k d hgrew hd => ?_, fun _ => ⟨fun hmono => ?_, ?_⟩⟩
  · refine ⟨_, updateSchedstat_eq reader stack file state, ?_⟩
    rw [load_of_grew hms hgrew hd]
    exact driverLoad_eq_iff he
  · by_contra hlong
    obtain ⟨hlong, hwide⟩ := not_or.1 hlong
    obtain ⟨n, hn, hfall⟩ := exists_driverLoad_lt he (not_le.1 hlong)
    have hw : 7 ≤ w := by
      by_contra hsmall
      have hpow : 2 ^ w ≤ 2 ^ 6 := Nat.pow_le_pow_right (by decide) (by omega)
      omega
    have hless : n * 10 ^ 6 / 10 ^ 6 = n := Nat.mul_div_cancel n (by decide)
    have hmore : (n + 1) * 10 ^ 6 / 10 ^ 6 = n + 1 := Nat.mul_div_cancel (n + 1) (by decide)
    have hbefore := exists_passLoads (d := n * 10 ^ 6) hms hw elapsedMs (by omega) (by omega)
    have hafter := exists_passLoads (d := (n + 1) * 10 ^ 6) hms hw elapsedMs (by omega) (by omega)
    rw [hless] at hbefore
    rw [hmore] at hafter
    have hle := hmono _ _ _ _ _ _ hbefore hafter (by omega) (by omega)
    omega
  · intro hshort k k' d d' load load' hload hload' hle hd'
    have hwide := hload'.lt
    rw [hload.eq hms (by omega), hload'.eq hms hd']
    exact driverLoad_mono (Nat.div_le_div_right hle) (by omega)

end Passes

/-- `cpu1 0 0 0 0 0 0 1048576000000 0 0`, the only line of a file. -/
def gapFile : List UInt8 :=
  [99, 112, 117, 49, 32, 48, 32, 48, 32, 48, 32, 48, 32, 48, 32, 48, 32, 49, 48, 52, 56, 53, 55, 54,
    48, 48, 48, 48, 48, 48, 32, 48, 32, 48, 10]

lemma exactMs_milliseconds : ExactMs milliseconds := by
  intro ns h
  unfold milliseconds
  rw [BitVec.toNat_ofNat]
  exact Nat.mod_eq_of_lt h

/-- In a second of which the core took 5 ns, its load is right. -/
theorem avgLoad_eq_saturated_offlineFile :
    (1000 : Uint32).toNat < 2 ^ 31 ∧ ExactMs milliseconds ∧
    ∃ state', updateSchedstat milliseconds 1000 fullReader (Vector.replicate lineDataSize 0)
        offlineFile (cleared 64) = some state' ∧ state'.load 1 = saturatedLoad 0 1000 := by
  refine ⟨by decide, exactMs_milliseconds, ?_⟩
  have hgrew : Grew offlineFile (cleared 64) 1 5 :=
    ⟨by decide, [], 5, by decide +kernel, by decide +kernel⟩
  obtain ⟨state', hpass, hload⟩ := (avgLoad_eq_saturated_iff exactMs_milliseconds
    (show (1000 : Uint32).toNat < 2 ^ 31 by decide)).1 fullReader (Vector.replicate lineDataSize 0)
    offlineFile (cleared 64) 1 5 hgrew (by decide)
  exact ⟨state', hpass, hload.2 (by decide)⟩

/-- **Loads that are wrong.** A first pass, with an elapsed time of 0, leaves the full load; and a
core that took `2^20` ms of one more has no load. -/
theorem avgLoad_ne_saturated :
    (Grew offlineFile (cleared 64) 1 5 ∧
      ∃ state', updateSchedstat milliseconds 0 fullReader (Vector.replicate lineDataSize 0)
          offlineFile (cleared 64) = some state' ∧
        state'.load 1 = 0xFFFFFF ∧ saturatedLoad (5 / 10 ^ 6) 0 = 0) ∧
    Grew gapFile (cleared 64) 1 1048576000000 ∧
      ∃ state', updateSchedstat milliseconds 1048577 fullReader (Vector.replicate lineDataSize 0)
          gapFile (cleared 64) = some state' ∧
        state'.load 1 = 0 ∧ saturatedLoad (1048576000000 / 10 ^ 6) 1048577 = 0xFFFFFF := by
  refine ⟨⟨⟨by decide, [], 5, by decide +kernel, by decide +kernel⟩, _,
    updateSchedstat_eq fullReader _ _ _, by decide +kernel, by decide⟩,
    ⟨by decide, [], 1048576000000, by decide +kernel, by decide +kernel⟩, _,
    updateSchedstat_eq fullReader _ _ _, by decide +kernel, by decide +kernel⟩

end CfePsp.Sysmon.Linux
