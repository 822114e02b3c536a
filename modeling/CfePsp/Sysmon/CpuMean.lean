import CfePsp.Sysmon.CpuLoad

set_option relaxedAutoImplicit false
set_option autoImplicit false

/-!
# The mean of the listed CPUs

`linux_sysmon` takes the number of the CPUs from the highest one that is listed, and keeps the load
of a CPU that is no longer listed. This module compares the aggregate with the mean of the CPUs that
the last pass found in the file.

## Main definitions

* `CfePsp.Sysmon.Linux.listedCpus` — the CPU numbers that a pass finds.
* `CfePsp.Sysmon.Linux.AggregateIsMean` — the aggregate is the mean of their loads, and an error if
  there is none.

## Main results

* `CfePsp.Sysmon.Linux.numCpus_applyFile` — the counter is one more than the largest number listed.
* `CfePsp.Sysmon.Linux.aggregateIsMean_iff` — the aggregate is the mean after every sequence of
  passes that ends with a certain one if and only if this one lists the CPUs `0, …, m`.

## Design

The files of the earlier passes are arbitrary. The converse needs a file that lists one given CPU,
for which an `unsigned long` of seven bits would do.
-/

namespace CfePsp.Sysmon.Linux

/-! ## The mean of the listed CPUs -/

/-- The CPU numbers below 128 that a pass finds in a file. -/
def listedCpus (w : ℕ) (file : List UInt8) : Finset ℕ :=
  (((handledLines file).filterMap (cpuLine w)).map (·.cpuNum.toNat)).toFinset.filter (· < maxCpus)

/-- The aggregate is the mean of the CPUs listed in `file`, and an error if there is none. -/
def AggregateIsMean {w : ℕ} (file : List UInt8) (state : CpuloadState w) : Prop :=
  ∃ statusCode val, calcAggregateCpu state = some (statusCode, val) ∧
    ((listedCpus w file).Nonempty → statusCode = Status.success ∧
      val.toNat = Means.mean (listedCpus w file) state.load) ∧
    (listedCpus w file = ∅ → statusCode = Status.error)

section Listed

variable {w : ℕ} {toMs : BitVec w → Uint32} {elapsedMs : Uint32} {file : List UInt8}

/-- A line lists the CPU `k`. -/
def Lists (w : ℕ) (line : List UInt8) (k : ℕ) : Prop :=
  ∃ use : CpuUse w, cpuLine w line = some use ∧ use.cpuNum.toNat = k ∧ k < maxCpus

lemma mem_listedCpus {k : ℕ} :
    k ∈ listedCpus w file ↔ ∃ line ∈ handledLines file, Lists w line k := by
  unfold listedCpus Lists
  simp only [Finset.mem_filter, List.mem_toFinset, List.mem_map, List.mem_filterMap]
  constructor
  · rintro ⟨⟨use, ⟨line, hline, huse⟩, hk⟩, hlt⟩
    exact ⟨line, hline, use, huse, hk, hlt⟩
  · rintro ⟨line, hline, use, huse, hk, hlt⟩
    exact ⟨⟨use, ⟨line, hline, huse⟩, hk⟩, hlt⟩

/-- A line that lists no CPU changes nothing. -/
lemma applyLine_of_not_lists {line : List UInt8} (h : ∀ k, ¬Lists w line k) (pass : Pass w) :
    applyLine toMs elapsedMs pass line = pass := by
  unfold applyLine
  cases huse : cpuLine w line with
  | none => rfl
  | some use =>
    refine pass.record_of_le (Nat.le_of_not_lt fun hlt => ?_)
    exact h _ ⟨use, huse, rfl, hlt⟩

/-- A line that lists a CPU raises the highest number to it. -/
lemma highest_applyLine {line : List UInt8} {k : ℕ} (h : Lists w line k) (pass : Pass w) :
    (applyLine toMs elapsedMs pass line).highestCpuNum.toNat =
      max pass.highestCpuNum.toNat k := by
  obtain ⟨use, huse, rfl, hlt⟩ := h
  unfold applyLine Pass.record
  simp only [huse, dif_pos hlt]
  split
  · next hgt =>
    have := BitVec.lt_def.1 hgt
    omega
  · next hle =>
    have := BitVec.le_def.1 (BitVec.not_lt.1 hle)
    omega

variable (toMs elapsedMs) in
/-- The highest number after some lines: at least the numbers listed, and one of them unless it is
the number before.

**Proof sketch.** Induction on the lines, from the first one on. A line that lists a CPU makes its
number one that is reached; the lines after it can only raise it. -/
lemma highest_foldl (lines : List (List UInt8)) (pass : Pass w) :
    ∃ high : ℕ, (lines.foldl (applyLine toMs elapsedMs) pass).highestCpuNum.toNat = high ∧
      pass.highestCpuNum.toNat ≤ high ∧
      (∀ line ∈ lines, ∀ k, Lists w line k → k ≤ high) ∧
      (high = pass.highestCpuNum.toNat ∨ ∃ line ∈ lines, Lists w line high) := by
  induction lines generalizing pass with
  | nil => exact ⟨_, rfl, le_rfl, by simp, .inl rfl⟩
  | cons line lines ih =>
    obtain ⟨high, hhigh, hge, hall, hone⟩ := ih (applyLine toMs elapsedMs pass line)
    refine ⟨high, hhigh, ?_⟩
    by_cases hlists : ∃ k, Lists w line k
    · obtain ⟨k, hk⟩ := hlists
      rw [highest_applyLine hk pass] at hge hone
      refine ⟨by omega, ?_, ?_⟩
      · intro line' hline' j hj
        rcases List.mem_cons.1 hline' with rfl | hline'
        · obtain ⟨use, huse, rfl, -⟩ := hk
          obtain ⟨use', huse', rfl, -⟩ := hj
          obtain rfl : use = use' := Option.some.inj (huse.symm.trans huse')
          omega
        · exact hall line' hline' j hj
      · rcases hone with hmax | ⟨line', hline', hlists'⟩
        · rcases Nat.le_total k pass.highestCpuNum.toNat with hle | hle
          · exact .inl (hmax.trans (Nat.max_eq_left hle))
          · rw [hmax, Nat.max_eq_right hle]
            exact .inr ⟨line, List.mem_cons_self, hk⟩
        · exact .inr ⟨line', List.mem_cons_of_mem _ hline', hlists'⟩
    · rw [applyLine_of_not_lists (not_exists.1 hlists)] at hge hone
      refine ⟨hge, ?_, ?_⟩
      · intro line' hline' j hj
        rcases List.mem_cons.1 hline' with rfl | hline'
        · exact absurd ⟨j, hj⟩ hlists
        · exact hall line' hline' j hj
      · rcases hone with hkept | ⟨line', hline', hlists'⟩
        · exact .inl hkept
        · exact .inr ⟨line', List.mem_cons_of_mem _ hline', hlists'⟩

variable (toMs elapsedMs file) in
/-- The counter after a pass is one more than the largest number listed, if there is one. -/
lemma numCpus_applyFile {state : CpuloadState w} (h : InRange state) :
    (∀ k ∈ listedCpus w file, k < (applyFile toMs elapsedMs file state).numCpus.toNat) ∧
    ((listedCpus w file).Nonempty →
      (applyFile toMs elapsedMs file state).numCpus.toNat - 1 ∈ listedCpus w file) := by
  obtain ⟨high, hhigh, -, hall, hone⟩ :=
    highest_foldl toMs elapsedMs (handledLines file) ⟨state.perCore, 0⟩
  have hnum : (applyFile toMs elapsedMs file state).numCpus.toNat = 1 + high := by
    rw [← hhigh]
    exact toNat_numCpus (h.foldl toMs elapsedMs (handledLines file))
  rw [hnum, Nat.add_sub_cancel_left]
  refine ⟨fun k hk => ?_, fun ⟨k, hk⟩ => ?_⟩
  · obtain ⟨line, hline, hlists⟩ := mem_listedCpus.1 hk
    have := hall line hline k hlists
    omega
  · rcases hone with hzero | hline
    · -- only CPU 0 can be listed
      obtain ⟨line, hline, hlists⟩ := mem_listedCpus.1 hk
      have hle := hall line hline k hlists
      have hzero' : high = 0 := hzero
      obtain rfl : k = high := by omega
      exact hk
    · exact mem_listedCpus.2 hline

/-- After a pass that lists the CPUs `0, …, m`, the aggregate is the mean of their loads: the
counter is `m + 1`. -/
lemma aggregateIsMean_applyFile {state : CpuloadState w} (h : InRange state) {m : ℕ}
    (hlisted : listedCpus w file = Finset.range (m + 1)) :
    AggregateIsMean file (applyFile toMs elapsedMs file state) := by
  obtain ⟨hnext, hpos⟩ := h.applyFile toMs elapsedMs file
  obtain ⟨hall, hone⟩ := numCpus_applyFile toMs elapsedMs file h
  have hm : m ∈ listedCpus w file := hlisted ▸ Finset.self_mem_range_succ m
  have hnum : (applyFile toMs elapsedMs file state).numCpus.toNat = m + 1 := by
    have hlow := hall m hm
    have hhigh := hone ⟨m, hm⟩
    rw [hlisted, Finset.mem_range] at hhigh
    omega
  obtain ⟨val, hcalc, hval⟩ := calcAggregateCpu_of_pos hnext hpos
  refine ⟨_, val, hcalc, fun _ => ⟨rfl, ?_⟩, fun hempty => ?_⟩
  · rw [hval, hnum, hlisted]
  · rw [hempty] at hm
    exact absurd hm (Finset.notMem_empty m)

end Listed

/-! ## What the passes before leave -/

section Exact

variable {w : ℕ} {toMs : BitVec w → Uint32} {elapsedMs : Uint32} {file : List UInt8}

/-- What a line leaves in a core depends on what was in that core only. -/
lemma perCore_applyLine_congr {pass pass' : Pass w} {k : ℕ} (hk : k < maxCpus)
    (h : pass.perCore[k] = pass'.perCore[k]) (line : List UInt8) :
    (applyLine toMs elapsedMs pass line).perCore[k] =
      (applyLine toMs elapsedMs pass' line).perCore[k] := by
  unfold applyLine
  cases cpuLine w line with
  | none => exact h
  | some use =>
    simp only
    by_cases hlt : use.cpuNum.toNat < maxCpus
    · rw [pass.record_perCore hlt hk, pass'.record_perCore hlt hk, h]
    · rw [pass.record_of_le (by omega), pass'.record_of_le (by omega), h]

/-- So does what a pass leaves there. -/
lemma perCore_applyFile_congr {state state' : CpuloadState w} {k : ℕ} (hk : k < maxCpus)
    (h : state.perCore[k] = state'.perCore[k]) :
    (applyFile toMs elapsedMs file state).perCore[k] =
      (applyFile toMs elapsedMs file state').perCore[k] := by
  suffices ∀ (lines : List (List UInt8)) (pass pass' : Pass w),
      pass.perCore[k] = pass'.perCore[k] →
        (lines.foldl (applyLine toMs elapsedMs) pass).perCore[k] =
          (lines.foldl (applyLine toMs elapsedMs) pass').perCore[k] from
    this (handledLines file) ⟨state.perCore, 0⟩ ⟨state'.perCore, 0⟩ h
  intro lines
  induction lines with
  | nil => exact fun _ _ h => h
  | cons line lines ih => exact fun _ _ h => ih _ _ (perCore_applyLine_congr hk h line)

/-- A pass leaves a core alone that it does not list. -/
lemma perCore_applyFile_of_notMem (state : CpuloadState w) {k : ℕ} (hk : k < maxCpus)
    (h : k ∉ listedCpus w file) :
    (applyFile toMs elapsedMs file state).perCore[k] = state.perCore[k] := by
  have hlines : ∀ line ∈ handledLines file, ¬Lists w line k :=
    fun line hline hlists => h (mem_listedCpus.2 ⟨line, hline, hlists⟩)
  refine List.foldlRecOn (motive := fun pass : Pass w => pass.perCore[k] = state.perCore[k])
    (handledLines file) _ rfl fun pass hpass line hline => ?_
  rw [← hpass]
  unfold applyLine
  cases huse : cpuLine w line with
  | none => rfl
  | some use =>
    simp only
    by_cases hlt : use.cpuNum.toNat < maxCpus
    · rw [pass.record_perCore hlt hk, if_neg]
      rintro rfl
      exact hlines line hline ⟨use, huse, rfl, hk⟩
    · rw [pass.record_of_le (by omega)]

/-- The decimal digits of a number below 1000, as characters. -/
def digits (k : ℕ) : List UInt8 :=
  [k / 100, k / 10, k].map fun n => UInt8.ofNat (48 + n % 10)

/-- A file with one line, which lists the CPU `k` only. -/
def cpuFile (k : ℕ) : List UInt8 := cpuPrefix ++ digits k ++ [newline]

open CString in
/-- The digits of a CPU number are digits of that number. -/
lemma digits_spec : ∀ k < maxCpus, chars (digits k) = digits k ∧
    (∀ c ∈ digits k, isdigit c) ∧ decimal (digits k) = k := by
  decide +kernel

lemma handledLines_cpuFile :
    ∀ k < maxCpus, handledLines (cpuFile k) = [cpuPrefix ++ digits k] := by
  decide +kernel

/-- The line of the file lists its CPU. -/
lemma cpuLine_digits (hw : 7 ≤ w) {k : ℕ} (hk : k < maxCpus) :
    ∃ use : CpuUse w, cpuLine w (cpuPrefix ++ digits k) = some use ∧ use.cpuNum.toNat = k := by
  obtain ⟨hchars, hdigits, hvalue⟩ := digits_spec k hk
  have hsmall : k < 2 ^ w := lt_of_lt_of_le hk (Nat.pow_le_pow_right (Nat.succ_pos 1) hw)
  have hscan : CString.scanUlong w (digits k) = some (CString.ulongOf w false k, []) := by
    have hread : CString.scanUlong w (digits k ++ []) = some (CString.ulongOf w false _, []) :=
      CString.scanUlong_digits hdigits (List.cons_ne_nil _ _) nofun
    rwa [List.append_nil, hvalue] at hread
  refine ⟨CpuUse.update ⟨-1, 0⟩ (columns w 10 (digits k)), ?_, ?_⟩
  · have hprefix : (cpuPrefix ++ digits k).take 3 = cpuPrefix := rfl
    unfold cpuLine
    rw [if_pos hprefix]
    show some (CpuUse.update _ (columns w 10 (CString.chars (digits k)))) = _
    rw [hchars]
  · have hcolumn : (columns w 10 (digits k))[0]? = some (CString.ulongOf w false k) := by
      rw [columns, hscan]
      rfl
    have hk' : k < 128 := hk
    unfold CpuUse.update
    simp only [hcolumn, Option.map_some, Option.getD_some, BitVec.toNat_setWidth]
    rw [CString.toNat_ulongOf hsmall]
    omega

variable (toMs) in
/-- After a first pass over the file the CPU it lists has the maximal load, the others none. -/
lemma load_applyFile_cpuFile (hw : 7 ≤ w) {k : ℕ} (hk : k < maxCpus) :
    (applyFile toMs 0 (cpuFile k) (cleared w)).load k = 0xFFFFFF ∧
      ∀ j (hj : j < maxCpus), j ≠ k →
        (applyFile toMs 0 (cpuFile k) (cleared w)).perCore[j] = (cleared w).perCore[j] := by
  obtain ⟨use, huse, hnum⟩ := cpuLine_digits hw hk
  subst hnum
  have happly : (applyFile toMs 0 (cpuFile use.cpuNum.toNat) (cleared w)).perCore =
      (Pass.record toMs 0 ⟨(cleared w).perCore, 0⟩ use).perCore := by
    unfold applyFile
    simp only [handledLines_cpuFile _ hk, List.foldl_cons, List.foldl_nil, applyLine, huse]
  refine ⟨?_, fun j hj hne => ?_⟩
  · unfold CpuloadState.load
    rw [dif_pos hk]
    simp only [happly, Pass.record_perCore _ hk hk, if_pos, sample]
    rw [if_pos (BitVec.le_def.2 (Nat.zero_le _))]
    rfl
  · simp only [happly, Pass.record_perCore _ hk hj, if_neg hne]

/-- What an aggregate that is the mean of the listed CPUs says about the listing. -/
lemma AggregateIsMean.mean_eq {state : CpuloadState w} (h : InRange state)
    (hmean : AggregateIsMean file (applyFile toMs elapsedMs file state)) :
    (listedCpus w file).Nonempty ∧
      Means.mean (Finset.range (applyFile toMs elapsedMs file state).numCpus.toNat)
          (applyFile toMs elapsedMs file state).load =
        Means.mean (listedCpus w file) (applyFile toMs elapsedMs file state).load := by
  obtain ⟨hnext, hpos⟩ := h.applyFile toMs elapsedMs file
  obtain ⟨val, hcalc, hval⟩ := calcAggregateCpu_of_pos hnext hpos
  obtain ⟨statusCode, val', hcalc', hlisted, hempty⟩ := hmean
  obtain ⟨rfl, rfl⟩ := Prod.mk.inj (Option.some.inj (hcalc.symm.trans hcalc'))
  have hne : (listedCpus w file).Nonempty := by
    rw [Finset.nonempty_iff_ne_empty]
    intro hnone
    exact absurd (hempty hnone) (by decide)
  exact ⟨hne, hval.symm.trans (hlisted hne).2⟩

/-- Below a bound of a set that is no initial segment, some number is not in it. -/
lemma exists_notMem_of_gap {s : Finset ℕ} {n : ℕ} (hpos : 0 < n) (hbelow : ∀ k ∈ s, k < n)
    (hgap : ¬∃ m, s = Finset.range (m + 1)) : ∃ g < n, g ∉ s := by
  by_contra hfull
  push Not at hfull
  refine hgap ⟨n - 1, Finset.ext fun k => ?_⟩
  rw [Nat.sub_add_cancel hpos, Finset.mem_range]
  exact ⟨hbelow k, hfull k⟩

/-- The counter after a pass depends on the file only. -/
lemma numCpus_applyFile_congr {state state' : CpuloadState w} (h : InRange state)
    (h' : InRange state') (hne : (listedCpus w file).Nonempty) :
    (applyFile toMs elapsedMs file state').numCpus.toNat =
      (applyFile toMs elapsedMs file state).numCpus.toNat := by
  obtain ⟨hbelow, htop⟩ := numCpus_applyFile toMs elapsedMs file h
  obtain ⟨hbelow', htop'⟩ := numCpus_applyFile toMs elapsedMs file h'
  have hpos := (h.applyFile toMs elapsedMs file).2
  have hpos' := (h'.applyFile toMs elapsedMs file).2
  have hle := hbelow _ (htop' hne)
  have hge := hbelow' _ (htop hne)
  omega

variable (toMs elapsedMs) in
/-- The loads after a pass that does not list the CPU `g`, made at the very beginning and made after
a pass that lists `g` only. -/
lemma load_applyFile_of_notMem (hw : 7 ≤ w) {g : ℕ} (hg : g < maxCpus)
    (h : g ∉ listedCpus w file) :
    (applyFile toMs elapsedMs file (cleared w)).load g = 0 ∧
    (applyFile toMs elapsedMs file (applyFile toMs 0 (cpuFile g) (cleared w))).load g = 0xFFFFFF ∧
    ∀ k, k ≠ g → (applyFile toMs elapsedMs file (cleared w)).load k =
      (applyFile toMs elapsedMs file (applyFile toMs 0 (cpuFile g) (cleared w))).load k := by
  obtain ⟨hload, hsame⟩ := load_applyFile_cpuFile toMs hw hg
  unfold CpuloadState.load at hload ⊢
  refine ⟨?_, ?_, fun k hkg => ?_⟩
  · rw [dif_pos hg, perCore_applyFile_of_notMem _ hg h]
    simp [cleared]
  · rw [dif_pos hg, perCore_applyFile_of_notMem _ hg h]
    rwa [dif_pos hg] at hload
  · split
    · next hk => rw [perCore_applyFile_congr hk (hsame k hk hkg)]
    · rfl

/-- **Exactly the listings without a gap.** For a pass over a file, the aggregate after it is the
mean of the CPUs listed there, whatever passes came before, if and only if these are the CPUs
`0, …, m`.

**Proof sketch.** If no CPU is listed, the aggregate is no error. If the CPU `g` below the largest
one is not listed, compare the pass at the very beginning with the pass after another one that lists
`g` only: the loads of the listed CPUs are the same, but the load of `g` enters the two aggregates
with 0 and with the maximum. -/
theorem aggregateIsMean_iff (hw : 7 ≤ w) (reader : Reader) (stack : Vector UInt8 lineDataSize) :
    (∀ (tr : List Event) (state : CpuloadState w),
      Transition.run (step toMs) (cleared w) (tr ++ [.pass elapsedMs reader stack file]) =
        some state → AggregateIsMean file state) ↔
    ∃ m, listedCpus w file = Finset.range (m + 1) := by
  constructor
  · intro hall
    have hnil : Transition.run (step toMs) (cleared w) [] = some (cleared w) := rfl
    have hcleared := inRange_cleared (w := w)
    obtain ⟨hne, hmean⟩ := (hall _ _ (run_pass hnil elapsedMs reader stack file)).mean_eq hcleared
    obtain ⟨hbelow, -⟩ := numCpus_applyFile toMs elapsedMs file hcleared
    obtain ⟨hrange, hpos⟩ := hcleared.applyFile toMs elapsedMs file
    by_contra hgap
    obtain ⟨g, hg, hunlisted⟩ := exists_notMem_of_gap hpos hbelow hgap
    have hg' : g < maxCpus := lt_of_lt_of_le hg hrange.numCpus_le
    -- the same pass after a pass that lists `g` only
    have hfirst := run_pass hnil 0 reader stack (cpuFile g)
    have hafter := (inRange_of_run hfirst).1
    obtain ⟨-, hmean'⟩ := (hall _ _ (run_pass hfirst elapsedMs reader stack file)).mean_eq hafter
    rw [numCpus_applyFile_congr hcleared hafter hne] at hmean'
    obtain ⟨hzero, hfull, hothers⟩ := load_applyFile_of_notMem toMs elapsedMs hw hg' hunlisted
    have hlt := Means.mean_lt_mean (Finset.mem_range.2 hg)
      (by
        have := hrange.numCpus_le
        unfold maxCpus at this
        rw [hzero, hfull, Finset.card_range]
        omega)
      fun k _ hkg => hothers k hkg
    have hlisted : Means.mean (listedCpus w file) (applyFile toMs elapsedMs file (cleared w)).load =
        Means.mean (listedCpus w file) (applyFile toMs elapsedMs file
          (applyFile toMs 0 (cpuFile g) (cleared w))).load := by
      unfold Means.mean
      rw [Finset.sum_congr rfl fun k hk => hothers k fun hkg => hunlisted (hkg ▸ hk)]
    exact absurd (hmean.trans (hlisted.trans hmean'.symm)) (Nat.ne_of_lt hlt)
  · rintro ⟨m, hlisted⟩ tr state hrun
    obtain ⟨u, hu, hstep⟩ := Transition.run_concat.1 hrun
    rw [step_pass] at hstep
    cases hstep
    exact aggregateIsMean_applyFile (inRange_of_run hu).1 hlisted

end Exact

/-- `cpu1 0 0 0 0 0 0 5 0 0`, the only line of a file: CPU 0 is off-line. -/
def offlineFile : List UInt8 :=
  [99, 112, 117, 49, 32, 48, 32, 48, 32, 48, 32, 48, 32, 48, 32, 48, 32, 53, 32, 48, 32, 48, 10]

/-- The same with CPU 0 on-line. -/
def onlineFile : List UInt8 := [99, 112, 117, 48, 32, 49, 10] ++ offlineFile

/-- After a pass over the file with both CPUs, the aggregate is their mean. -/
theorem aggregateIsMean_of_onlineFile :
    ∃ state : CpuloadState 64,
      Transition.run (step milliseconds) (cleared 64)
        [firstPass offlineFile, firstPass onlineFile] = some state ∧
        AggregateIsMean onlineFile state := by
  have hnil : Transition.run (step milliseconds) (cleared 64) [] = some (cleared 64) := rfl
  have hfirst := run_pass hnil 0 fullReader (Vector.replicate lineDataSize 0) offlineFile
  have hrun := run_pass hfirst 0 fullReader (Vector.replicate lineDataSize 0) onlineFile
  exact ⟨_, hrun, (aggregateIsMean_iff (by decide) fullReader _).2 ⟨1, by decide +kernel⟩ _ _ hrun⟩

/-- With CPU 0 off-line its load of 0 enters the aggregate. -/
theorem aggregateIsMean_fails :
    ∃ state : CpuloadState 64,
      Transition.run (step milliseconds) (cleared 64) [firstPass offlineFile] = some state ∧
        ¬AggregateIsMean offlineFile state := by
  refine ⟨_, run_pass (Transition.run_nil (cleared 64)) 0 fullReader _ offlineFile, ?_⟩
  rintro ⟨statusCode, val, hcalc, hmean, -⟩
  have hlisted : listedCpus 64 offlineFile = {1} := by decide +kernel
  have hcalc' : calcAggregateCpu (applyFile milliseconds 0 offlineFile (cleared 64)) =
      some (Status.success, 0x7FFFFF) := by decide +kernel
  obtain ⟨-, rfl⟩ := Prod.mk.inj (Option.some.inj (hcalc'.symm.trans hcalc))
  have hval := (hmean ⟨1, by rw [hlisted]; exact Finset.mem_singleton_self 1⟩).2
  rw [hlisted] at hval
  exact absurd hval (by decide +kernel)

end CfePsp.Sysmon.Linux
