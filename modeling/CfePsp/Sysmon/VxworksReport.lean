import Mathlib.Data.List.Induction
import Mathlib.Logic.Function.Basic
import CfePsp.Sysmon.LoadCode

set_option relaxedAutoImplicit false
set_option autoImplicit false

/-!
# The report that the VxWorks monitor reads

`spyReportCommon` calls `vxworks_sysmon_update_stat` for every line of its report. The function
takes the next element of `per_core`, clears the arguments that are kept in it, and looks at the
name of the line and at the number of cores after that.

## Main definitions

* `CfePsp.Sysmon.VxworksReport.updateStat` — the function, for one line.
* `CfePsp.Sysmon.VxworksReport.report` — the calls for a report.
* `CfePsp.Sysmon.VxworksReport.Recorded` — what a report is to leave in the table.

## Main results

* `CfePsp.Sysmon.VxworksReport.recorded_iff` — it does so unless a line follows the `IDLE` line that
  fills the table, or a count or a difference does not fit its type.

## Design

The elements of `per_core` are numbered; those from `maxCpus` on are the memory behind the table.
An `int` wraps round.
-/

namespace CfePsp.Sysmon.VxworksReport

/-! ## The program -/

/-- The arguments of a call behind the format. The integers are `int`. -/
structure Line where
  name : List UInt8
  placeholders : List UInt8 × List UInt8 × List UInt8
  totalIdlePercent : BitVec 32
  totalIdleTicks : BitVec 32
  idlePercentSinceLastReport : BitVec 32
  idleTicksSinceLastReport : BitVec 32
  deriving DecidableEq

/-- `vxworks_sysmon_va_arg_t`. -/
structure VaArg where
  name : Option (List UInt8)
  placeholder : Option (List UInt8)
  totalIdlePercent : BitVec 32
  totalIdleTicks : BitVec 32
  idlePercentSinceLastReport : BitVec 32
  idleTicksSinceLastReport : BitVec 32
  deriving DecidableEq

/-- `vxworks_sysmon_cpuload_core_t`. -/
structure Core where
  avgLoad : AdcCode
  idleState : VaArg
  deriving DecidableEq

/-- `num_cpus` and `per_core`, and the elements of `per_core` that were accessed so far. -/
structure State where
  numCpus : BitVec 8
  perCore : ℕ → Core
  accesses : List ℕ

/-- `VXWORKS_SYSMON_MAX_SCALE`. -/
def maxScale : BitVec 32 := 100

/-- `"IDLE"`. -/
def idleName : List UInt8 := [73, 68, 76, 69]

/-- The comparison of the name of a line. -/
def Line.IsIdle (line : Line) : Prop := line.name.take 4 = idleName

instance (line : Line) : Decidable line.IsIdle :=
  inferInstanceAs (Decidable (_ = _))

/-- `avg_load` for a value of `curr_load`. -/
def loadOf (currLoad : BitVec 32) : AdcCode :=
  if 100 ≤ currLoad.toInt then 0xFFFFFF
  else if currLoad.toInt ≤ 0 then 0
  else
    let avgLoad := 0x1000 * currLoad / maxScale
    avgLoad ||| avgLoad <<< 12

/-- `vxworks_sysmon_update_stat`. -/
def updateStat (maxCpus : ℕ) (state : State) (line : Line) : State :=
  let k := state.numCpus.toNat
  -- the element is written to before the number of cores is compared
  let core := { state.perCore k with idleState := ⟨some line.name, none, 0, 0, 0, 0⟩ }
  let state := { state with
    perCore := Function.update state.perCore k core, accesses := state.accesses ++ [k] }
  if line.IsIdle then
    if k < maxCpus then
      let idleState : VaArg :=
        { name := some line.name
          placeholder := some line.placeholders.2.2
          totalIdlePercent := line.totalIdlePercent
          totalIdleTicks := line.totalIdleTicks
          idlePercentSinceLastReport := line.idlePercentSinceLastReport
          idleTicksSinceLastReport := line.idleTicksSinceLastReport }
      let currLoad := maxScale - line.idlePercentSinceLastReport
      { state with
        perCore := Function.update state.perCore k ⟨loadOf currLoad, idleState⟩
        numCpus := state.numCpus + 1 }
    else state
  else state

/-- The calls for a report, after `num_cpus = 0`. -/
def report (maxCpus : ℕ) (perCore : ℕ → Core) (lines : List Line) : State :=
  lines.foldl (updateStat maxCpus) ⟨0, perCore, []⟩

/-! ## What a report is to leave -/

/-- The `IDLE` lines of a report. -/
def idleLines (lines : List Line) : List Line := lines.filter fun line => decide line.IsIdle

/-- The load for a percentage of idle time, in exact arithmetic. -/
def derivedLoad (idlePercent : ℤ) : ℕ :=
  if idlePercent ≤ 0 then fullScale
  else if 100 ≤ idlePercent then 0
  else expanded (proportion (100 - idlePercent).toNat 100)

/-- **What a report is to leave**: only elements of the table were accessed, the number of cores is
that of the `IDLE` lines or the size of the table, and each core has the load of its line, which is
a code of 24 bits. -/
structure Recorded (maxCpus : ℕ) (lines : List Line) (s : State) : Prop where
  in_table : ∀ k ∈ s.accesses, k < maxCpus
  numCpus_eq : s.numCpus.toNat = min (idleLines lines).length maxCpus
  load_eq : ∀ k < s.numCpus.toNat, ∃ line, (idleLines lines)[k]? = some line ∧
    (s.perCore k).avgLoad.toNat = derivedLoad line.idlePercentSinceLastReport.toInt
  load_le : ∀ k < s.numCpus.toNat, (s.perCore k).avgLoad.toNat ≤ fullScale

/-! ## The load of a line -/

section Load

variable {p : BitVec 32}

/-- `100 - p` does not overflow. -/
def PercentInRange (p : BitVec 32) : Prop := -2147483547 ≤ p.toInt

instance : DecidablePred PercentInRange := fun p => inferInstanceAs (Decidable (_ ≤ p.toInt))

/-- The difference as an `int`. -/
lemma toInt_currLoad (p : BitVec 32) :
    (maxScale - p).toInt =
      if -2147483547 ≤ p.toInt then 100 - p.toInt else 100 - p.toInt - 2 ^ 32 := by
  have hscale : maxScale.toInt = 100 := rfl
  have hlow := BitVec.le_toInt p
  have hhigh := BitVec.toInt_lt (x := p)
  rw [BitVec.toInt_sub, hscale, Int.bmod_def]
  split_ifs <;> omega

/-- The code of a percentage between the ends of the scale. -/
lemma toNat_loadOf (hlow : 0 < p.toInt) (hhigh : p.toInt < 100) :
    (loadOf (maxScale - p)).toNat = expanded (proportion (100 - p.toInt).toNat 100) := by
  have hint : (maxScale - p).toInt = 100 - p.toInt := by
    rw [toInt_currLoad, if_pos (by omega)]
  have hnat : (maxScale - p).toNat = (100 - p.toInt).toNat := by
    have hlt := (maxScale - p).isLt
    have hcast := BitVec.toInt_eq_toNat_cond (maxScale - p)
    split_ifs at hcast <;> omega
  have hcode : (0x1000 * (maxScale - p) / maxScale).toNat =
      proportion (100 - p.toInt).toNat 100 := by
    rw [toNat_proportion (by omega), hnat]
    rfl
  have hlt : proportion (100 - p.toInt).toNat 100 < 0x1000 :=
    (proportion_lt_iff (by omega)).2 (by omega)
  rw [loadOf, if_neg (by omega), if_neg (by omega), ← hcode]
  exact toNat_expand_eq (hcode ▸ hlt)

/-- The load that is stored has 24 bits, and it is the exact one if the difference is. -/
lemma loadOf_spec (p : BitVec 32) :
    (loadOf (maxScale - p)).toNat ≤ fullScale ∧
      ((loadOf (maxScale - p)).toNat = derivedLoad p.toInt ↔ PercentInRange p) := by
  have hint := toInt_currLoad p
  unfold PercentInRange
  by_cases hrange : -2147483547 ≤ p.toInt
  · rw [if_pos hrange] at hint
    rcases lt_or_ge 0 p.toInt with hpos | hbusy
    · rcases lt_or_ge p.toInt 100 with hlt | hidle
      · have hload := toNat_loadOf hpos hlt
        have hexact : derivedLoad p.toInt = expanded (proportion (100 - p.toInt).toNat 100) := by
          rw [derivedLoad, if_neg (by omega), if_neg (by omega)]
        have hcode : proportion (100 - p.toInt).toNat 100 < 0x1000 :=
          (proportion_lt_iff (by omega)).2 (by omega)
        refine ⟨?_, iff_of_true (hload.trans hexact.symm) hrange⟩
        rw [hload]
        exact expanded_le_fullScale hcode
      · rw [loadOf, if_neg (by omega), if_pos (by omega), derivedLoad, if_neg (by omega),
          if_pos hidle]
        exact ⟨Nat.zero_le _, iff_of_true rfl hrange⟩
    · rw [loadOf, if_pos (by omega), derivedLoad, if_pos hbusy]
      exact ⟨le_rfl, iff_of_true rfl hrange⟩
  · -- the difference has become negative
    rw [if_neg hrange] at hint
    have hlow := BitVec.le_toInt p
    rw [loadOf, if_neg (by omega), if_pos (by omega), derivedLoad, if_pos (by omega)]
    exact ⟨Nat.zero_le _, iff_of_false (by decide) hrange⟩

end Load

/-! ## A line of the report -/

section Lines

variable {maxCpus : ℕ} {perCore : ℕ → Core} {lines : List Line} {line : Line} {s t : State}

/-- What a call does, as far as the number of cores and the loads go. -/
lemma updateStat_cases (maxCpus : ℕ) (s : State) (line : Line) :
    (updateStat maxCpus s line).accesses = s.accesses ++ [s.numCpus.toNat] ∧
    ((line.IsIdle ∧ s.numCpus.toNat < maxCpus ∧
        (updateStat maxCpus s line).numCpus = s.numCpus + 1 ∧
        ∀ k, ((updateStat maxCpus s line).perCore k).avgLoad =
          if k = s.numCpus.toNat then loadOf (maxScale - line.idlePercentSinceLastReport)
          else (s.perCore k).avgLoad) ∨
      (¬(line.IsIdle ∧ s.numCpus.toNat < maxCpus) ∧
        (updateStat maxCpus s line).numCpus = s.numCpus ∧
        ∀ k, ((updateStat maxCpus s line).perCore k).avgLoad = (s.perCore k).avgLoad)) := by
  -- clearing the arguments leaves the loads alone
  have hcleared : ∀ va k, (Function.update s.perCore s.numCpus.toNat
      { s.perCore s.numCpus.toNat with idleState := va } k).avgLoad = (s.perCore k).avgLoad := by
    intro va k
    by_cases hk : k = s.numCpus.toNat
    · subst hk
      rw [Function.update_self]
    · rw [Function.update_of_ne hk]
  by_cases hidle : line.IsIdle
  · by_cases hroom : s.numCpus.toNat < maxCpus
    · simp only [updateStat, if_pos hidle, if_pos hroom, true_and]
      refine .inl ⟨hidle, hroom, fun k => ?_⟩
      by_cases hk : k = s.numCpus.toNat
      · subst hk
        rw [Function.update_self, if_pos rfl]
      · rw [Function.update_of_ne hk, if_neg hk, hcleared]
    · simp only [updateStat, if_pos hidle, if_neg hroom, true_and]
      exact .inr ⟨fun h => hroom h.2, hcleared _⟩
  · simp only [updateStat, if_neg hidle, true_and]
    exact .inr ⟨fun h => hidle h.1, hcleared _⟩

lemma report_concat : report maxCpus perCore (lines ++ [line]) =
    updateStat maxCpus (report maxCpus perCore lines) line := by
  rw [report, List.foldl_append]
  rfl

lemma idleLines_concat : idleLines (lines ++ [line]) =
    idleLines lines ++ if line.IsIdle then [line] else [] := by
  rw [idleLines, List.filter_append]
  congr 1
  by_cases h : line.IsIdle
  · simp [h]
  · simp [h]

/-- A line more is at most one `IDLE` line more. -/
lemma length_idleLines_concat (lines : List Line) (line : Line) :
    (idleLines lines).length ≤ (idleLines (lines ++ [line])).length ∧
      (idleLines (lines ++ [line])).length ≤ (idleLines lines).length + 1 := by
  rw [idleLines_concat, List.length_append]
  split_ifs
  · simp
  · simp

/-- The state after some lines: the number of cores counts the `IDLE` lines up to the size of the
table, and each core has the load of its line. -/
structure Counted (maxCpus : ℕ) (lines : List Line) (s : State) : Prop where
  numCpus_eq : s.numCpus.toNat = min (idleLines lines).length maxCpus
  load_eq : ∀ k < min (idleLines lines).length maxCpus, ∃ line, (idleLines lines)[k]? = some line ∧
    (s.perCore k).avgLoad = loadOf (maxScale - line.idlePercentSinceLastReport)

/-- An `IDLE` line with room in the table is the one whose place is the number of cores. -/
lemma Counted.idle (h : Counted maxCpus lines s) (hidle : line.IsIdle)
    (hroom : s.numCpus.toNat < maxCpus)
    (hfits : min (idleLines (lines ++ [line])).length maxCpus ≤ 255)
    (hnext : t.numCpus = s.numCpus + 1)
    (hload : ∀ k, (t.perCore k).avgLoad =
      if k = s.numCpus.toNat then loadOf (maxScale - line.idlePercentSinceLastReport)
      else (s.perCore k).avgLoad) : Counted maxCpus (lines ++ [line]) t := by
  have hnum := h.numCpus_eq
  have hcount : min (idleLines lines).length maxCpus = (idleLines lines).length := by omega
  have hlines : idleLines (lines ++ [line]) = idleLines lines ++ [line] := by
    rw [idleLines_concat, if_pos hidle]
  have hlen : (idleLines (lines ++ [line])).length = (idleLines lines).length + 1 := by
    rw [hlines, List.length_append, List.length_singleton]
  have hone : (1 : BitVec 8).toNat = 1 := rfl
  rw [hcount] at hnum
  refine ⟨?_, fun k hk => ?_⟩
  · rw [hnext, BitVec.toNat_add, hnum, hone]
    omega
  · rw [hload, hnum, hlines]
    by_cases hlast : k = (idleLines lines).length
    · subst hlast
      rw [if_pos rfl, List.getElem?_concat_length]
      exact ⟨line, rfl, rfl⟩
    · rw [if_neg hlast, List.getElem?_append_left (by omega)]
      exact h.load_eq k (by omega)

/-- Any other line changes neither the number of cores nor a load. -/
lemma Counted.skip (h : Counted maxCpus lines s)
    (hnot : ¬(line.IsIdle ∧ s.numCpus.toNat < maxCpus)) (hnext : t.numCpus = s.numCpus)
    (hload : ∀ k, (t.perCore k).avgLoad = (s.perCore k).avgLoad) :
    Counted maxCpus (lines ++ [line]) t := by
  have hnum := h.numCpus_eq
  have hcount : min (idleLines (lines ++ [line])).length maxCpus =
      min (idleLines lines).length maxCpus := by
    rw [idleLines_concat, List.length_append]
    split_ifs with hidle
    · -- the table is full
      have hfull : ¬s.numCpus.toNat < maxCpus := fun hlt => hnot ⟨hidle, hlt⟩
      rw [List.length_singleton]
      omega
    · rw [List.length_nil, Nat.add_zero]
  refine ⟨by rw [hnext, hnum, hcount], fun k hk => ?_⟩
  rw [hcount] at hk
  obtain ⟨counted, hcounted, hk'⟩ := h.load_eq k hk
  refine ⟨counted, ?_, (hload k).trans hk'⟩
  rw [idleLines_concat, List.getElem?_append_left (by omega), hcounted]

variable (perCore) in
/-- **The lines so far.** As long as the number of cores fits its `uint8_t`, a report counts its
lines.

**Proof sketch.** Induction on the lines from the right. -/
lemma report_spec (hfits : min (idleLines lines).length maxCpus ≤ 255) :
    Counted maxCpus lines (report maxCpus perCore lines) := by
  induction lines using List.reverseRecOn with
  | nil => exact ⟨(Nat.zero_min maxCpus).symm, fun k hk => by simp [idleLines] at hk⟩
  | append_singleton lines line ih =>
    have hlen := length_idleLines_concat lines line
    have hbefore := ih (by omega)
    rw [report_concat]
    obtain ⟨-, ⟨hidle, hroom, hnext, hload⟩ | ⟨hnot, hnext, hload⟩⟩ :=
      updateStat_cases maxCpus (report maxCpus perCore lines) line
    · exact hbefore.idle hidle hroom hfits hnext hload
    · exact hbefore.skip hnot hnext hload

/-- The calls stay in the table exactly if it is not full before the last line. -/
lemma in_table_iff (hmax : 1 ≤ maxCpus) (hfits : min (idleLines lines).length maxCpus ≤ 255) :
    (∀ k ∈ (report maxCpus perCore lines).accesses, k < maxCpus) ↔
      (idleLines lines.dropLast).length < maxCpus := by
  induction lines using List.reverseRecOn with
  | nil => exact iff_of_true (fun k hk => by simp [report] at hk) hmax
  | append_singleton lines line ih =>
    have hlen := length_idleLines_concat lines line
    have hfits' : min (idleLines lines).length maxCpus ≤ 255 := by omega
    have hbefore : (idleLines lines.dropLast).length ≤ (idleLines lines).length :=
      ((List.dropLast_sublist lines).filter _).length_le
    rw [report_concat, (updateStat_cases maxCpus _ line).1, (report_spec perCore hfits').numCpus_eq,
      List.dropLast_concat]
    simp only [List.mem_append, List.mem_singleton, or_imp, forall_and, forall_eq, ih hfits']
    omega

/-- **The report of the VxWorks monitor.** For every size of the table and every sequence of lines,
the calls stay in the table, count the `IDLE` lines up to its size and store their loads if and only
if no line follows the `IDLE` line that fills the table, there are less than 256 `IDLE` lines, and
no percentage makes the difference to 100 overflow.

**Proof sketch.** The element is cleared before the number of cores is compared, so that any line
behind the one that fills the table clears memory behind it. Where the count fits its type,
`report_spec` says what is stored. -/
theorem recorded_iff (hmax : 1 ≤ maxCpus) :
    Recorded maxCpus lines (report maxCpus perCore lines) ↔
      (idleLines lines.dropLast).length < maxCpus ∧ (idleLines lines).length ≤ 255 ∧
        ∀ line ∈ idleLines lines, PercentInRange line.idlePercentSinceLastReport := by
  have hlast : (idleLines lines).length ≤ (idleLines lines.dropLast).length + 1 := by
    rcases List.eq_nil_or_concat lines with rfl | ⟨before, line, rfl⟩
    · simp
    · rw [List.concat_eq_append, List.dropLast_concat]
      exact (length_idleLines_concat before line).2
  constructor
  · intro h
    have hfits : min (idleLines lines).length maxCpus ≤ 255 := by
      have hbyte := (report maxCpus perCore lines).numCpus.isLt
      have heq := h.numCpus_eq
      omega
    obtain ⟨hnum, hloads⟩ := report_spec perCore hfits
    have hroom := (in_table_iff hmax hfits).1 h.in_table
    refine ⟨hroom, by omega, fun line hline => ?_⟩
    obtain ⟨k, hk⟩ := List.mem_iff_getElem?.1 hline
    have hlt : k < min (idleLines lines).length maxCpus := by
      have := (List.getElem?_eq_some_iff.1 hk).1
      omega
    obtain ⟨line', hline', hexact⟩ := h.load_eq k (hnum ▸ hlt)
    obtain ⟨line'', hline'', hstored⟩ := hloads k hlt
    obtain rfl := Option.some.inj (hk.symm.trans hline')
    obtain rfl := Option.some.inj (hk.symm.trans hline'')
    rw [hstored] at hexact
    exact (loadOf_spec _).2.1 hexact
  · rintro ⟨hroom, hbyte, hpercent⟩
    have hfits : min (idleLines lines).length maxCpus ≤ 255 := by omega
    obtain ⟨hnum, hloads⟩ := report_spec perCore hfits
    refine ⟨(in_table_iff hmax hfits).2 hroom, hnum, fun k hk => ?_, fun k hk => ?_⟩
    · obtain ⟨line, hline, hstored⟩ := hloads k (hnum ▸ hk)
      refine ⟨line, hline, ?_⟩
      rw [hstored]
      exact (loadOf_spec _).2.2 (hpercent line (List.mem_of_getElem? hline))
    · obtain ⟨line, -, hstored⟩ := hloads k (hnum ▸ hk)
      rw [hstored]
      exact (loadOf_spec _).1

/-- A line with a name and a percentage of idle time. -/
def lineOf (name : List UInt8) (idlePercent : BitVec 32) : Line :=
  ⟨name, ([], [], []), 95, 7990, idlePercent, 1998⟩

/-- `"KERNEL"`. -/
def kernelName : List UInt8 := [75, 69, 82, 78, 69, 76]

/-- A table of one core without samples. -/
def unsampled : ℕ → Core := fun _ => ⟨0, none, none, 0, 0, 0, 0⟩

/-- A report of the kernel and an idle core fills a table of one. -/
theorem recorded_of_idleLast :
    Recorded 1 [lineOf kernelName 3, lineOf idleName 97]
      (report 1 unsampled [lineOf kernelName 3, lineOf idleName 97]) :=
  (recorded_iff (le_refl 1)).2 ⟨by decide, by decide, by decide⟩

/-- Any line behind the idle core is written behind the table. -/
theorem not_recorded_idleFirst :
    ¬Recorded 1 [lineOf idleName 97, lineOf kernelName 3]
      (report 1 unsampled [lineOf idleName 97, lineOf kernelName 3]) := by
  intro h
  have hroom := (in_table_iff (le_refl 1) (by decide)).1 h.in_table
  revert hroom
  decide

end Lines

end CfePsp.Sysmon.VxworksReport
