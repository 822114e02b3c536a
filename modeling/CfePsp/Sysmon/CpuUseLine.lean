import CfePsp.Basic
import CfePsp.Lib.CString

set_option relaxedAutoImplicit false
set_option autoImplicit false

/-!
# The lines of `/proc/schedstat` that describe a CPU

`linux_sysmon_read_cpuuse_line` takes the number of a CPU and its run time from a line of up to ten
columns. The line is a string in memory; the scan stops in front of its NUL.

## Main definitions

* `CfePsp.Sysmon.Linux.readCpuuseLine` — the scan, on the memory from the pointer on.
* `CfePsp.Sysmon.Linux.columns` — the numbers of a string, as repeated calls of `strtoul` find them.
* `CfePsp.Sysmon.Linux.Yields` — these calls themselves.
* `CfePsp.Sysmon.Linux.CpuUseLine` — a line of ten numbers.

## Main results

* `CfePsp.Sysmon.Linux.readCpuuseLine_append` — the scan ends, reads nothing behind the NUL, and
  sets the CPU number from column 0 and the run time from column 7, where the line has them.
* `CfePsp.Sysmon.Linux.readCpuuseLine_columns` — the columns are what `strtoul` yields, and for a
  line of ten numbers these are the number of the CPU and the seventh counter.

## Design

An `unsigned long` has `w` bits. Memory that is read behind its end has no result.
-/

namespace CfePsp.Sysmon.Linux

open CString

/-- The outputs of `linux_sysmon_read_cpuuse_line`. -/
@[ext]
structure CpuUse (w : ℕ) where
  cpuNum : Uint32
  runTime : BitVec w
  deriving DecidableEq

/-! ## The scan -/

/-- `while (isspace((unsigned char)*line_data)) ++line_data`. -/
def skipSpace : List UInt8 → Option (List UInt8)
  | [] => none
  | c :: mem => if isspace c then skipSpace mem else some (c :: mem)

/-- `switch (val_count)`: where the value of a column goes. -/
def CpuUse.store {w : ℕ} (use : CpuUse w) (valCount : ℕ) (value : BitVec w) : CpuUse w :=
  match valCount with
  | 0 => { use with cpuNum := value.setWidth 32 }
  | 7 => { use with runTime := value }
  | _ => use

/-- The loop of `linux_sysmon_read_cpuuse_line` with `left` of its ten turns ahead. -/
def readCpuuse {w : ℕ} : (left : ℕ) → (lineData : List UInt8) → CpuUse w → Option (CpuUse w)
  | 0, _, use => some use
  | _ + 1, [], _ => none
  | left + 1, c :: mem, use =>
    if c = 0 then some use
    else
      match skipSpace (c :: mem) with
      | none => none
      | some lineData =>
        match strtoul w lineData with
        | none => none
        | some (value, valEnd) =>
          -- both point into the line, so that they are equal if as much follows them
          if valEnd.length = lineData.length then some use
          else readCpuuse left valEnd (use.store (9 - left) value)

/-- `linux_sysmon_read_cpuuse_line`. -/
def readCpuuseLine {w : ℕ} (lineData : List UInt8) (use : CpuUse w) : Option (CpuUse w) :=
  readCpuuse 10 lineData use

/-! ## What it reads -/

/-- The first `n` numbers of a string, up to the first position without a number. -/
def columns (w : ℕ) : (n : ℕ) → List UInt8 → List (BitVec w)
  | 0, _ => []
  | n + 1, s =>
    match scanUlong w s with
    | none => []
    | some (value, rest) => value :: columns w n rest

/-- The outputs with what a line has in their columns. -/
def CpuUse.update {w : ℕ} (use : CpuUse w) (values : List (BitVec w)) : CpuUse w where
  cpuNum := (values[0]?.map (·.setWidth 32)).getD use.cpuNum
  runTime := values[7]?.getD use.runTime

section Scan

variable {w : ℕ} {s : List UInt8}

lemma skipSpace_append (s t : List UInt8) :
    skipSpace (s ++ 0 :: t) = some (s.dropWhile isspace ++ 0 :: t) := by
  induction s with
  | nil => rfl
  | cons c s ih =>
    rw [List.cons_append, skipSpace, List.dropWhile_cons, ih]
    split <;> rfl

/-- The values of a line stored one after the other, the first one in column `k`. -/
def CpuUse.storeFrom (use : CpuUse w) (k : ℕ) : List (BitVec w) → CpuUse w
  | [] => use
  | value :: values => (use.store k value).storeFrom (k + 1) values

/-- Only column 0 is stored as the CPU number. -/
lemma cpuNum_storeFrom (use : CpuUse w) (k : ℕ) (values : List (BitVec w)) :
    (use.storeFrom (k + 1) values).cpuNum = use.cpuNum := by
  induction values generalizing use k with
  | nil => rfl
  | cons value values ih =>
    rw [CpuUse.storeFrom, ih]
    unfold CpuUse.store
    split
    · contradiction
    · rfl
    · rfl

lemma runTime_store_of_ne (use : CpuUse w) {k : ℕ} (hk : k ≠ 7) (value : BitVec w) :
    (use.store k value).runTime = use.runTime := by
  unfold CpuUse.store
  split
  · rfl
  · contradiction
  · rfl

/-- Only column 7 is stored as the run time. -/
lemma runTime_storeFrom (use : CpuUse w) (k : ℕ) (values : List (BitVec w)) :
    (use.storeFrom k values).runTime =
      if k ≤ 7 then values[7 - k]?.getD use.runTime else use.runTime := by
  induction values generalizing use k with
  | nil => simp [CpuUse.storeFrom]
  | cons value values ih =>
    rw [CpuUse.storeFrom, ih]
    rcases Nat.lt_trichotomy k 7 with hk | rfl | hk
    · have hsucc : 7 - k = 7 - (k + 1) + 1 := by omega
      rw [if_pos (by omega), if_pos (by omega), runTime_store_of_ne use (by omega), hsucc,
        List.getElem?_cons_succ]
    · rfl
    · rw [if_neg (by omega), if_neg (by omega), runTime_store_of_ne use (by omega)]

/-- Storing a line from its first column on updates the outputs. -/
lemma storeFrom_zero (use : CpuUse w) (values : List (BitVec w)) :
    use.storeFrom 0 values = use.update values := by
  ext1
  · cases values with
    | nil => rfl
    | cons value values => exact cpuNum_storeFrom _ _ _
  · exact runTime_storeFrom use 0 values

/-- The loop stores the columns of the string.

**Proof sketch.** Induction on the turns ahead. In every turn white space is skipped, which does not
change the number that comes next, and the end pointer moves exactly when there is a number. -/
lemma readCpuuse_append {left : ℕ} (hleft : left ≤ 10) (h : 0 ∉ s) (t : List UInt8)
    (use : CpuUse w) :
    readCpuuse left (s ++ 0 :: t) use = some (use.storeFrom (10 - left) (columns w left s)) := by
  induction left generalizing s use with
  | zero => rfl
  | succ left ih =>
    cases s with
    | nil => rfl
    | cons c s =>
      have hc : c ≠ 0 := fun hc => h (by simp [hc])
      have hrest : 0 ∉ (c :: s).dropWhile isspace :=
        fun h0 => h ((List.dropWhile_suffix _).subset h0)
      rw [List.cons_append, readCpuuse, if_neg hc, ← List.cons_append, skipSpace_append]
      simp only [strtoul_append hrest, scanUlong_dropWhile]
      rw [columns]
      cases hscan : scanUlong w (c :: s) with
      | none => simp only [if_pos, CpuUse.storeFrom]
      | some p =>
        obtain ⟨value, rest⟩ := p
        have hspace : scanUlong w ((c :: s).dropWhile isspace) = some (value, rest) := by
          rw [scanUlong_dropWhile, hscan]
        obtain ⟨hsuffix, hlt⟩ := scanUlong_suffix hspace
        have hne : (rest ++ 0 :: t).length ≠ ((c :: s).dropWhile isspace ++ 0 :: t).length := by
          simp only [List.length_append]
          omega
        have hturn : 10 - (left + 1) = 9 - left := by omega
        have hnext : 9 - left + 1 = 10 - left := by omega
        simp only [if_neg hne, CpuUse.storeFrom, hturn, hnext]
        exact ih (by omega) (fun h0 => hrest (hsuffix.subset h0)) _

/-- **The scan of a line.** It reads the string and nothing behind its NUL; it sets the CPU number
if there is a column 0, and the run time if there is a column 7. -/
theorem readCpuuseLine_append (h : 0 ∉ s) (t : List UInt8) (use : CpuUse w) :
    readCpuuseLine (s ++ 0 :: t) use = some (use.update (columns w 10 s)) := by
  unfold readCpuuseLine
  rw [readCpuuse_append le_rfl h, Nat.sub_self, storeFrom_zero]

end Scan

/-! ## Lines of ten numbers -/

/-- The values that skipping white space and calling `strtoul` yield, again and again from a pointer
on: up to the first position without a number, which the NUL is, and at most `n` of them. -/
inductive Yields (w : ℕ) : (n : ℕ) → (mem : List UInt8) → List (BitVec w) → Prop
  | full (mem : List UInt8) : Yields w 0 mem []
  | stop {n : ℕ} {mem : List UInt8} (value : BitVec w)
      (h : strtoul w (mem.dropWhile isspace) = some (value, mem.dropWhile isspace)) :
      Yields w (n + 1) mem []
  | value {n : ℕ} {mem valEnd : List UInt8} {value : BitVec w} {values : List (BitVec w)}
      (h : strtoul w (mem.dropWhile isspace) = some (value, valEnd))
      (hne : valEnd ≠ mem.dropWhile isspace) (hrest : Yields w n valEnd values) :
      Yields w (n + 1) mem (value :: values)

/-- What the scan of a line is to leave: the CPU number is set if the line has a column 0, the run
time if it has a column 7, and what is not set is kept. -/
structure Extracted {w : ℕ} (values : List (BitVec w)) (use out : CpuUse w) : Prop where
  cpuNum_set : ∀ h : 1 ≤ values.length, out.cpuNum = values[0].setWidth 32
  cpuNum_kept : values.length < 1 → out.cpuNum = use.cpuNum
  runTime_set : ∀ h : 8 ≤ values.length, out.runTime = values[7]
  runTime_kept : values.length < 8 → out.runTime = use.runTime

/-- A line as `/proc/schedstat` has it behind `cpu`: the number of the CPU and nine counters, with
any white space between and around them. -/
structure CpuUseLine where
  cpu : Numeral
  counters : Vector Numeral 9
  separated : ∀ n ∈ counters.toList, n.space ≠ []
  trailing : List UInt8
  trailing_isspace : ∀ c ∈ trailing, isspace c

namespace CpuUseLine

/-- The numbers of the line. -/
def numerals (line : CpuUseLine) : List Numeral := line.cpu :: line.counters.toList

/-- Its characters. -/
def text (line : CpuUseLine) : List UInt8 := line.numerals.flatMap Numeral.text ++ line.trailing

/-- The number of the CPU. -/
def cpuNum (line : CpuUseLine) : ℕ := line.cpu.value

/-- The seventh counter. -/
def runTime (line : CpuUseLine) : ℕ := line.counters[6].value

end CpuUseLine

section Lines

variable {w : ℕ} {s : List UInt8}

/-- The outputs with the columns of a line are what the scan is to leave. -/
lemma extracted_update (values : List (BitVec w)) (use : CpuUse w) :
    Extracted values use (use.update values) := by
  constructor
  · intro h
    have hcolumn : values[0]? = some values[0] := List.getElem?_eq_getElem h
    rw [CpuUse.update, hcolumn, Option.map_some, Option.getD_some]
  · intro h
    have hcolumn : values[0]? = none := List.getElem?_eq_none (by omega)
    rw [CpuUse.update, hcolumn, Option.map_none, Option.getD_none]
  · intro h
    have hcolumn : values[7]? = some values[7] := List.getElem?_eq_getElem h
    rw [CpuUse.update, hcolumn, Option.getD_some]
  · intro h
    have hcolumn : values[7]? = none := List.getElem?_eq_none (by omega)
    rw [CpuUse.update, hcolumn, Option.getD_none]

/-- What follows a number of a line does not go on with a digit. -/
lemma isdigit_head? {ns : List Numeral} (hsep : ∀ n ∈ ns, n.space ≠ []) {trailing : List UInt8}
    (htrailing : ∀ c ∈ trailing, isspace c) :
    ∀ c ∈ (ns.flatMap Numeral.text ++ trailing).head?, isdigit c = false := by
  intro c hc
  refine isdigit_eq_false_of_isspace ?_
  cases ns with
  | nil => exact htrailing c (List.mem_of_mem_head? hc)
  | cons n ns =>
    obtain ⟨sp, space, hspace⟩ := List.exists_cons_of_ne_nil (hsep n List.mem_cons_self)
    refine n.space_isspace c ?_
    rw [List.flatMap_cons, Numeral.text, hspace] at hc
    obtain rfl := Option.some.inj hc
    rw [hspace]
    exact List.mem_cons_self

/-- The columns of numerals with white space between them are their numbers.

**Proof sketch.** Induction on the numerals. Each is read up to its last digit, as the next one
begins with white space. -/
lemma columns_numerals (ns : List Numeral) (hsep : ∀ n ∈ ns.tail, n.space ≠ [])
    {trailing : List UInt8} (htrailing : ∀ c ∈ trailing, isspace c) (k : ℕ) :
    columns w (ns.length + k) (ns.flatMap Numeral.text ++ trailing) =
      ns.map fun n => ulongOf w false n.value := by
  induction ns with
  | nil =>
    cases k with
    | zero => rfl
    | succ k =>
      rw [List.length_nil, Nat.zero_add, columns, List.flatMap_nil, List.nil_append,
        scanUlong_space htrailing]
      rfl
  | cons n ns ih =>
    rw [List.tail_cons] at hsep
    have hscan := n.scanUlong_text w (isdigit_head? hsep htrailing)
    rw [List.flatMap_cons, List.append_assoc, List.length_cons, Nat.add_right_comm, columns, hscan,
      List.map_cons]
    simp only
    rw [ih fun m hm => hsep m (List.mem_of_mem_tail hm)]

/-- The ten columns of a line. -/
lemma CpuUseLine.columns_text (line : CpuUseLine) :
    columns w 10 line.text = line.numerals.map fun n => ulongOf w false n.value := by
  have hlen : line.numerals.length = 10 := by
    rw [CpuUseLine.numerals, List.length_cons, Vector.length_toList]
  have hcolumns := columns_numerals (w := w) line.numerals line.separated line.trailing_isspace 0
  rwa [hlen] at hcolumns

/-- The CPU number and the run time of a line, where they fit their types. -/
lemma CpuUseLine.eq_of_extracted (line : CpuUseLine) {use out : CpuUse w}
    (h : Extracted (columns w 10 line.text) use out) :
    (line.cpuNum < 2 ^ 32 → line.cpuNum < 2 ^ w → out.cpuNum.toNat = line.cpuNum) ∧
      (line.runTime < 2 ^ w → out.runTime.toNat = line.runTime) := by
  rw [line.columns_text] at h
  have hlen : (line.numerals.map fun n => ulongOf w false n.value).length = 10 := by
    rw [List.length_map, CpuUseLine.numerals, List.length_cons, Vector.length_toList]
  constructor
  · intro hint hulong
    have hcpu := h.cpuNum_set (by omega)
    rw [List.getElem_map] at hcpu
    rw [hcpu, BitVec.toNat_setWidth]
    exact (congrArg (· % 2 ^ 32) (toNat_ulongOf hulong)).trans (Nat.mod_eq_of_lt hint)
  · intro hulong
    have hrun := h.runTime_set (by omega)
    rw [List.getElem_map] at hrun
    rw [hrun]
    exact toNat_ulongOf hulong

/-- Repeated calls of `strtoul` yield the columns of the string. -/
lemma yields_columns (n : ℕ) (h : 0 ∉ s) (t : List UInt8) :
    Yields w n (s ++ 0 :: t) (columns w n s) := by
  induction n generalizing s with
  | zero => exact .full _
  | succ n ih =>
    have hspace : 0 ∉ s.dropWhile isspace := fun h0 => h ((List.dropWhile_suffix _).subset h0)
    have hcall := strtoul_append (w := w) hspace t
    rw [scanUlong_dropWhile, ← dropWhile_isspace_append] at hcall
    rw [columns]
    cases hscan : scanUlong w s with
    | none =>
      rw [hscan] at hcall
      exact .stop 0 hcall
    | some p =>
      obtain ⟨value, rest⟩ := p
      rw [hscan] at hcall
      rw [← scanUlong_dropWhile] at hscan
      obtain ⟨hsuffix, hlt⟩ := scanUlong_suffix hscan
      refine .value hcall ?_ (ih fun h0 => hspace (hsuffix.subset h0))
      intro heq
      have hlen := congrArg List.length heq
      rw [dropWhile_isspace_append, List.length_append, List.length_append] at hlen
      omega

/-- **The columns of a line.** For every string the scan ends, reads nothing behind the NUL, and
sets the CPU number to the first value that repeated calls of `strtoul` yield, and the run time to
the eighth, if there are so many; else it keeps them. For a CPU number and nine counters, with any
white space, these are the number and the seventh counter.

**Proof sketch.** The loop stores the columns of the string, whatever follows it. -/
theorem readCpuuseLine_columns (h : 0 ∉ s) (use : CpuUse w) :
    ∃ values out, (∀ t, Yields w 10 (s ++ 0 :: t) values) ∧
      (∀ t, readCpuuseLine (s ++ 0 :: t) use = some out) ∧ Extracted values use out ∧
      ∀ line : CpuUseLine, line.text = s →
        (line.cpuNum < 2 ^ 32 → line.cpuNum < 2 ^ w → out.cpuNum.toNat = line.cpuNum) ∧
        (line.runTime < 2 ^ w → out.runTime.toNat = line.runTime) := by
  have hextracted := extracted_update (columns w 10 s) use
  refine ⟨columns w 10 s, use.update (columns w 10 s), yields_columns 10 h,
    fun t => readCpuuseLine_append h t use, hextracted, ?_⟩
  rintro line rfl
  exact line.eq_of_extracted hextracted

/-- A digit behind a tab. -/
def tabbed (c : UInt8) (h : isdigit c) : Numeral :=
  ⟨[9], [c], List.forall_mem_singleton.2 rfl, List.forall_mem_singleton.2 h, List.cons_ne_nil _ _⟩

/-- The CPU 2 and the counters 1 to 9, with a blank at the end. -/
def tabbedLine : CpuUseLine where
  cpu := tabbed 50 rfl
  counters := #v[tabbed 49 rfl, tabbed 50 rfl, tabbed 51 rfl, tabbed 52 rfl, tabbed 53 rfl,
    tabbed 54 rfl, tabbed 55 rfl, tabbed 56 rfl, tabbed 57 rfl]
  separated := by decide
  trailing := [32]
  trailing_isspace := List.forall_mem_singleton.2 rfl

/-- The scan finds the number 2 and the counter 7. -/
theorem readCpuuseLine_tabbedLine :
    ∃ out : CpuUse 64, readCpuuseLine (tabbedLine.text ++ [0]) ⟨0, 0⟩ = some out ∧
      out.cpuNum.toNat = 2 ∧ out.runTime.toNat = 7 := by
  obtain ⟨values, out, -, hread, -, hline⟩ :=
    readCpuuseLine_columns (w := 64) (s := tabbedLine.text) (by decide) ⟨0, 0⟩
  obtain ⟨hcpu, hrun⟩ := hline tabbedLine rfl
  exact ⟨out, hread [], hcpu (by decide) (by decide), hrun (by decide)⟩

end Lines

end CfePsp.Sysmon.Linux
