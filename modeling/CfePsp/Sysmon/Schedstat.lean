import CfePsp.Lib.Lines
import CfePsp.Sysmon.CpuUseLine
import CfePsp.Sysmon.ReadChannels

set_option relaxedAutoImplicit false
set_option autoImplicit false

/-!
# Reading `/proc/schedstat`

`linux_sysmon_update_schedstat` reads the file through a window of 256 bytes. It handles the lines
in the window as soon as they are complete and moves what follows them to the front.

## Main definitions

* `CfePsp.Sysmon.Linux.updateSchedstat` — one pass over the file, on the bytes of the window.
* `CfePsp.Sysmon.Linux.Reader` — how `read` splits a file.
* `CfePsp.Sysmon.Linux.applyLine` — what a line of the file stands for.
* `CfePsp.Sysmon.Linux.handledLines` — the lines of a file that a pass handles.

## Main results

* `CfePsp.Sysmon.Linux.updateSchedstat_eq` — a pass applies these lines in order, however the file
  is split.

## Design

The window holds whatever was on the stack when the pass begins. An error of `read` ends a pass as
the end of the file does, so that it is a pass over a shorter file. The loops have fuel; a pass that
runs out of it, or reads outside its memory, has no result. An `unsigned long` has `w` bits, and the
conversion of nanoseconds into milliseconds by the OSAL is a parameter `toMs`. The `int` of elapsed
milliseconds is given by its bits, since the code compares it with an `unsigned int`.
-/

namespace CfePsp.Sysmon.Linux

open CString

/-! ## The state (`linux_sysmon_cpuload_state_t`) -/

/-- `LINUX_SYSMON_MAX_CPUS`. -/
def maxCpus : ℕ := 128

/-- `linux_sysmon_cpuload_core_t`. -/
@[ext]
structure Core (w : ℕ) where
  avgLoad : AdcCode
  lastRunTime : BitVec w
  deriving DecidableEq

/-- What the passes write: `num_cpus` and `per_core`. -/
@[ext]
structure CpuloadState (w : ℕ) where
  numCpus : BitVec 8
  perCore : Vector (Core w) maxCpus
  deriving DecidableEq

/-- The variables of a pass that outlive a line: the table and `highest_cpu_num`. -/
@[ext]
structure Pass (w : ℕ) where
  perCore : Vector (Core w) maxCpus
  highestCpuNum : Uint32
  deriving DecidableEq

/-! ## Handling of a line -/

/-- The new sample of a core. -/
def sample {w : ℕ} (toMs : BitVec w → Uint32) (elapsedMs : Uint32) (runTime : BitVec w)
    (core : Core w) : Core w :=
  let cpuTimeMs := toMs (runTime - core.lastRunTime)
  { lastRunTime := runTime
    avgLoad :=
      if elapsedMs ≤ cpuTimeMs then 0xFFFFFF
      else if elapsedMs = 0 then 0
      else
        let load := 0x1000 * cpuTimeMs / elapsedMs
        load ||| load <<< 12 }

/-- What becomes of the numbers of a line: a core of the table gets a new sample. -/
def Pass.record {w : ℕ} (toMs : BitVec w → Uint32) (elapsedMs : Uint32) (pass : Pass w)
    (use : CpuUse w) : Pass w :=
  if h : use.cpuNum.toNat < maxCpus then
    { perCore :=
        pass.perCore.set use.cpuNum.toNat
          (sample toMs elapsedMs use.runTime pass.perCore[use.cpuNum.toNat]) h
      highestCpuNum :=
        if pass.highestCpuNum < use.cpuNum then use.cpuNum else pass.highestCpuNum }
  else pass

/-- `"cpu"`. -/
def cpuPrefix : List UInt8 := [99, 112, 117]

/-- The part of the loop that handles the line at the start of the window. -/
def handleLine {w : ℕ} (toMs : BitVec w → Uint32) (elapsedMs : Uint32) (pass : Pass w)
    (lineData : List UInt8) : Option (Pass w) :=
  if lineData.take 3 = cpuPrefix then
    (readCpuuseLine (lineData.drop 3) ⟨-1, 0⟩).map (pass.record toMs elapsedMs)
  else some pass

/-! ## The window -/

/-- `sizeof(line_data)`. -/
def lineDataSize : ℕ := 256

/-- The character that ends a line. -/
def newline : UInt8 := 10

/-- `line_data` and `line_size`. -/
structure Window where
  lineData : List UInt8
  lineSize : ℕ
  length_lineData : lineData.length = lineDataSize
  lineSize_le : lineSize ≤ lineDataSize

namespace Window

/-- The window at the beginning of a pass: whatever is on the stack, and `line_size = 0`. -/
def ofStack (stack : Vector UInt8 lineDataSize) : Window :=
  ⟨stack.toList, 0, stack.length_toList, Nat.zero_le _⟩

/-- The window after `read` stored a piece behind the bytes that are there. -/
def append (win : Window) (piece : List UInt8)
    (h : piece.length ≤ lineDataSize - win.lineSize) : Window where
  lineData :=
    win.lineData.take win.lineSize ++ piece ++ win.lineData.drop (win.lineSize + piece.length)
  lineSize := win.lineSize + piece.length
  length_lineData := by
    have := win.length_lineData
    have := win.lineSize_le
    simp only [List.length_append, List.length_take, List.length_drop]
    omega
  lineSize_le := by
    have := win.lineSize_le
    omega

/-- The bytes of the window after `*eol_p = 0`. -/
def terminate (win : Window) (eol : ℕ) : List UInt8 := win.lineData.set eol 0

/-- The window after the line that ends at `eol` was handled: `memmove` brings what follows it to
the front. -/
def dropLine (win : Window) (eol : ℕ) : Window where
  -- without anything behind the line both branches of the source leave `line_size = 0`
  lineData :=
    ((win.terminate eol).drop (eol + 1)).take (win.lineSize - (eol + 1)) ++
      (win.terminate eol).drop (win.lineSize - (eol + 1))
  lineSize := win.lineSize - (eol + 1)
  length_lineData := by
    have := win.length_lineData
    have := win.lineSize_le
    simp only [terminate, List.length_append, List.length_take, List.length_drop, List.length_set]
    omega
  lineSize_le := by
    have := win.lineSize_le
    omega

end Window

/-! ## The pass -/

/-- How `read` splits a file: how many bytes it delivers, given what is left of the file and how
many bytes are requested. -/
structure Reader where
  count : List UInt8 → ℕ → ℕ
  count_pos : ∀ file n, 0 < n → 0 < count file n
  count_le : ∀ file n, count file n ≤ n

/-- `read`: at the end of the file the piece is empty. -/
def Reader.read (reader : Reader) (file : List UInt8) (n : ℕ) : List UInt8 :=
  file.take (reader.count file n)

lemma Reader.length_read_le (reader : Reader) (file : List UInt8) (n : ℕ) :
    (reader.read file n).length ≤ n :=
  (List.length_take_le _ _).trans (reader.count_le file n)

section Program

variable {w : ℕ} (toMs : BitVec w → Uint32) (elapsedMs : Uint32)

/-- `while (eol_p != NULL)`. -/
def lineLoop : (fuel : ℕ) → Pass w → Window → (eol : Option ℕ) → Option (Pass w × Window)
  | _, pass, win, none => some (pass, win)
  | 0, _, _, some _ => none
  | fuel + 1, pass, win, some eol =>
    match handleLine toMs elapsedMs pass (win.terminate eol) with
    | none => none
    | some pass =>
      let win := win.dropLine eol
      lineLoop fuel pass win (memchr win.lineData newline win.lineSize)

/-- `while (true)`. -/
def readLoop (reader : Reader) :
    (fuel : ℕ) → Pass w → Window → (file : List UInt8) → Option (Pass w)
  | 0, _, _, _ => none
  | fuel + 1, pass, win, file =>
    let piece := reader.read file (lineDataSize - win.lineSize)
    if piece = [] then some pass
    else
      let win' := win.append piece (reader.length_read_le _ _)
      let eol := memchr (win'.lineData.drop win.lineSize) newline piece.length
      match lineLoop toMs elapsedMs lineDataSize pass win' (eol.map (win.lineSize + ·)) with
      | none => none
      | some (pass, win) =>
        if lineDataSize ≤ win.lineSize then some pass
        else readLoop reader fuel pass win (file.drop piece.length)

/-- `linux_sysmon_update_schedstat`, with what the stack holds in place of `line_data`. -/
def updateSchedstat (reader : Reader) (stack : Vector UInt8 lineDataSize) (file : List UInt8)
    (state : CpuloadState w) : Option (CpuloadState w) :=
  (readLoop toMs elapsedMs reader (file.length + 1) ⟨state.perCore, 0⟩ (Window.ofStack stack)
    file).map fun pass =>
      { perCore := pass.perCore, numCpus := (1 + pass.highestCpuNum).setWidth 8 }

end Program

/-! ## What a pass does -/

/-- The numbers of a line that begins with `cpu`; without a column the CPU number is `-1` and the
run time is 0. -/
def cpuLine (w : ℕ) (line : List UInt8) : Option (CpuUse w) :=
  if line.take 3 = cpuPrefix then
    some (CpuUse.update ⟨-1, 0⟩ (columns w 10 (chars (line.drop 3))))
  else none

/-- The lines of a file that a pass handles: those that end before the first one of 256 or more
bytes. -/
def handledLines (file : List UInt8) : List (List UInt8) :=
  Lines.fitting newline lineDataSize file

section Meaning

variable {w : ℕ} (toMs : BitVec w → Uint32) (elapsedMs : Uint32)

/-- What a line does to the table. -/
def applyLine (pass : Pass w) (line : List UInt8) : Pass w :=
  match cpuLine w line with
  | none => pass
  | some use => pass.record toMs elapsedMs use

/-- The state after the lines that a pass handles were applied in order. -/
def applyFile (file : List UInt8) (state : CpuloadState w) : CpuloadState w :=
  let pass := (handledLines file).foldl (applyLine toMs elapsedMs) ⟨state.perCore, 0⟩
  { perCore := pass.perCore, numCpus := (1 + pass.highestCpuNum).setWidth 8 }

end Meaning

/-! ## The window as a text -/

namespace Window

/-- The bytes of the window that came from the file. -/
def content (win : Window) : List UInt8 := win.lineData.take win.lineSize

lemma length_content (win : Window) : win.content.length = win.lineSize := by
  have := win.length_lineData
  have := win.lineSize_le
  simp only [content, List.length_take]
  omega

/-- A piece comes behind the bytes that are there. -/
lemma content_append (win : Window) (piece : List UInt8)
    (h : piece.length ≤ lineDataSize - win.lineSize) :
    (win.append piece h).content = win.content ++ piece := by
  have hlen : win.lineSize + piece.length = (win.content ++ piece).length := by
    rw [List.length_append, length_content]
  show (win.content ++ piece ++ _).take (win.lineSize + piece.length) = _
  rw [hlen, List.take_append_length]

/-- The bytes of the window whose content begins with a line. -/
lemma lineData_eq {win : Window} {line more : List UInt8}
    (h : win.content = line ++ newline :: more) :
    win.lineData = line ++ newline :: (more ++ win.lineData.drop win.lineSize) := by
  calc win.lineData = win.content ++ win.lineData.drop win.lineSize :=
        (List.take_append_drop _ _).symm
    _ = line ++ newline :: (more ++ win.lineData.drop win.lineSize) := by
        rw [h, List.append_assoc, List.cons_append]

/-- The end of the first line becomes its NUL. -/
lemma terminate_eq {win : Window} {line more : List UInt8}
    (h : win.content = line ++ newline :: more) :
    win.terminate line.length = line ++ 0 :: (more ++ win.lineData.drop win.lineSize) := by
  unfold terminate
  conv_lhs => rw [lineData_eq h]
  rw [List.set_append_right _ _ le_rfl, Nat.sub_self, List.set_cons_zero]

/-- What follows the first line comes to the front. -/
lemma content_dropLine {win : Window} {line more : List UInt8}
    (h : win.content = line ++ newline :: more) : (win.dropLine line.length).content = more := by
  have hlen : win.lineSize - (line.length + 1) = more.length := by
    rw [← length_content, h]
    simp only [List.length_append, List.length_cons]
    omega
  have hmore : (win.terminate line.length).drop (line.length + 1) =
      more ++ win.lineData.drop win.lineSize := by
    rw [terminate_eq h, List.drop_length_add_append, List.drop_succ_cons, List.drop_zero]
  show (((win.terminate line.length).drop (line.length + 1)).take
    (win.lineSize - (line.length + 1)) ++ _).take (win.lineSize - (line.length + 1)) = more
  rw [hmore, hlen, List.take_append_length, List.take_append_length]

/-- A search of the window finds the first end of a line that came from the file. -/
lemma memchr_content {win : Window} {line more : List UInt8} (hline : newline ∉ line)
    (h : win.content = line ++ newline :: more) :
    memchr win.lineData newline win.lineSize = some line.length := by
  rw [lineData_eq h]
  refine memchr_append hline _ ?_
  rw [← length_content, h, List.length_append, List.length_cons]
  omega

/-- The bytes that were there have no end of a line, so that the search begins behind them. -/
lemma memchr_append_piece {win : Window} (hopen : newline ∉ win.content) (piece : List UInt8)
    (h : piece.length ≤ lineDataSize - win.lineSize) :
    memchr (win.append piece h).lineData newline (win.append piece h).lineSize =
      (memchr ((win.append piece h).lineData.drop win.lineSize) newline piece.length).map
        (win.lineSize + ·) := by
  refine memchr_add ?_ ?_ piece.length
  · have htake : (win.append piece h).lineData.take win.lineSize = win.content := by
      show (win.content ++ piece ++ _).take win.lineSize = win.content
      rw [← length_content, List.append_assoc, List.take_append_length]
    rwa [htake]
  · rw [(win.append piece h).length_lineData]
    exact win.lineSize_le

end Window

/-! ## The loops -/

section Loops

variable {w : ℕ} {toMs : BitVec w → Uint32} {elapsedMs : Uint32}

/-- The first three characters of a string do not depend on what follows it, as far as `strncmp`
compares them. -/
lemma take_eq_cpuPrefix_iff (line t : List UInt8) :
    (line ++ 0 :: t).take 3 = cpuPrefix ↔ line.take 3 = cpuPrefix := by
  match line with
  | [] => simp [cpuPrefix]
  | [a] => simp [cpuPrefix]
  | [a, b] => simp [cpuPrefix]
  | a :: b :: c :: line => simp

/-- A terminated line at the start of the window does what it stands for. -/
lemma handleLine_eq (pass : Pass w) (line t : List UInt8) :
    handleLine toMs elapsedMs pass (line ++ 0 :: t) =
      some (applyLine toMs elapsedMs pass line) := by
  unfold handleLine applyLine cpuLine
  by_cases hcpu : line.take 3 = cpuPrefix
  · have hlen : 3 ≤ line.length := by
      have := congrArg List.length hcpu
      simp only [List.length_take, cpuPrefix, List.length_cons, List.length_nil] at this
      omega
    obtain ⟨t', ht'⟩ := exists_chars (line.drop 3) t
    rw [if_pos ((take_eq_cpuPrefix_iff line t).2 hcpu), if_pos hcpu,
      List.drop_append_of_le_length hlen, ht', readCpuuseLine_append (notMem_chars _)]
    rfl
  · rw [if_neg (mt (take_eq_cpuPrefix_iff line t).1 hcpu), if_neg hcpu]

variable (toMs elapsedMs) in
/-- **The inner loop.** It applies the complete lines of the window and leaves the rest.

**Proof sketch.** Induction on the text in the window: a turn of the loop handles its first line and
brings the text after it to the front. -/
lemma lineLoop_eq {fuel : ℕ} {win : Window} (hfuel : win.content.length ≤ fuel) (pass : Pass w) :
    ∃ win' : Window, win'.content = Lines.rest newline win.content ∧
      lineLoop toMs elapsedMs fuel pass win (memchr win.lineData newline win.lineSize) =
        some ((Lines.complete newline win.content).foldl (applyLine toMs elapsedMs) pass,
          win') := by
  obtain ⟨text, htext⟩ : ∃ text, win.content = text := ⟨_, rfl⟩
  rw [htext] at hfuel ⊢
  induction text using Lines.text_induction newline generalizing fuel win pass with
  | lastLine text hopen =>
    refine ⟨win, by rw [htext, Lines.rest_of_notMem hopen], ?_⟩
    have hnone : memchr win.lineData newline win.lineSize = none := by
      refine memchr_of_notMem ?_
      rw [← htext] at hopen
      exact hopen
    rw [hnone, lineLoop, Lines.complete_of_notMem hopen, List.foldl_nil]
  | line line more hline ih =>
    cases fuel with
    | zero => simp at hfuel
    | succ fuel =>
      have hmore := Window.content_dropLine htext
      have hfuel' : more.length ≤ fuel := by
        simp only [List.length_append, List.length_cons] at hfuel
        omega
      obtain ⟨win', hrest, hloop⟩ := ih (applyLine toMs elapsedMs pass line) hfuel' hmore
      refine ⟨win', by rw [hrest, Lines.rest_cons hline], ?_⟩
      rw [Window.memchr_content hline htext, lineLoop, Window.terminate_eq htext, handleLine_eq,
        Lines.complete_cons hline, List.foldl_cons]
      exact hloop

variable (toMs elapsedMs) in
/-- **A turn of the outer loop.** The search of a new piece is a search of the whole window, so that
the lines which the piece completes are applied. -/
lemma lineLoop_append {win : Window} (hopen : newline ∉ win.content) {piece : List UInt8}
    (hle : piece.length ≤ lineDataSize - win.lineSize) (pass : Pass w) :
    ∃ win' : Window, win'.content = Lines.rest newline (win.content ++ piece) ∧
      lineLoop toMs elapsedMs lineDataSize pass (win.append piece hle)
          ((memchr ((win.append piece hle).lineData.drop win.lineSize) newline piece.length).map
            (win.lineSize + ·)) =
        some ((Lines.complete newline (win.content ++ piece)).foldl (applyLine toMs elapsedMs) pass,
          win') := by
  have hfits : (win.append piece hle).content.length ≤ lineDataSize := by
    rw [Window.length_content]
    exact (win.append piece hle).lineSize_le
  rw [← Window.memchr_append_piece hopen piece hle, ← Window.content_append win piece hle]
  exact lineLoop_eq toMs elapsedMs hfits pass

/-- A piece is empty at the end of the file only. -/
lemma Reader.read_eq_nil_iff (reader : Reader) {file : List UInt8} {n : ℕ} (hn : 0 < n) :
    reader.read file n = [] ↔ file = [] := by
  have := reader.count_pos file n hn
  unfold Reader.read
  rw [List.take_eq_nil_iff]
  constructor
  · rintro (h | h)
    · omega
    · exact h
  · exact .inr

/-- What a piece leaves of the file. -/
lemma Reader.read_append_drop (reader : Reader) (file : List UInt8) (n : ℕ) :
    reader.read file n ++ file.drop (reader.read file n).length = file :=
  List.prefix_iff_eq_append.1 (List.take_prefix _ _)

lemma readLoop_of_read_eq_nil {reader : Reader} {fuel : ℕ} {pass : Pass w} {win : Window}
    {file : List UInt8} (h : reader.read file (lineDataSize - win.lineSize) = []) :
    readLoop toMs elapsedMs reader (fuel + 1) pass win file = some pass :=
  if_pos h

lemma readLoop_of_read_ne_nil {reader : Reader} {fuel : ℕ} {pass : Pass w} {win : Window}
    {file piece : List UInt8} (h : reader.read file (lineDataSize - win.lineSize) = piece)
    (hle : piece.length ≤ lineDataSize - win.lineSize) (hne : piece ≠ []) :
    readLoop toMs elapsedMs reader (fuel + 1) pass win file =
      match lineLoop toMs elapsedMs lineDataSize pass (win.append piece hle)
          ((memchr ((win.append piece hle).lineData.drop win.lineSize) newline piece.length).map
            (win.lineSize + ·)) with
      | none => none
      | some (pass, win) =>
        if lineDataSize ≤ win.lineSize then some pass
        else readLoop toMs elapsedMs reader fuel pass win (file.drop piece.length) := by
  subst h
  exact if_neg hne

/-- **The outer loop.** From a window without an end of line that is not full, it applies the lines
that fit of what is in the window and what is left of the file.

**Proof sketch.** Induction on the fuel, which exceeds what is left of the file. A piece makes the
window a text that fits; its lines are applied, and its rest is either shorter than the window, or
the beginning of a line that does not fit. -/
lemma readLoop_eq (reader : Reader) {fuel : ℕ} {file : List UInt8} (hfuel : file.length < fuel)
    {win : Window} (hopen : newline ∉ win.content) (hsize : win.lineSize < lineDataSize)
    (pass : Pass w) :
    readLoop toMs elapsedMs reader fuel pass win file =
      some ((handledLines (win.content ++ file)).foldl (applyLine toMs elapsedMs) pass) := by
  induction fuel generalizing file win pass with
  | zero => omega
  | succ fuel ih =>
    have hreq : 0 < lineDataSize - win.lineSize := by omega
    have hle := reader.length_read_le file (lineDataSize - win.lineSize)
    have hsplit := reader.read_append_drop file (lineDataSize - win.lineSize)
    have hend : reader.read file (lineDataSize - win.lineSize) = [] ↔ file = [] :=
      reader.read_eq_nil_iff hreq
    obtain ⟨piece, hread⟩ : ∃ piece, reader.read file (lineDataSize - win.lineSize) = piece :=
      ⟨_, rfl⟩
    rw [hread] at hle hsplit hend
    by_cases hnil : piece = []
    · rw [readLoop_of_read_eq_nil (hread.trans hnil), hend.1 hnil, List.append_nil, handledLines,
        Lines.fitting_of_notMem hopen, List.foldl_nil]
    · obtain ⟨win', hrest, hloop⟩ := lineLoop_append toMs elapsedMs hopen hle pass
      have hfits : (win.content ++ piece).length ≤ lineDataSize := by
        rw [List.length_append, Window.length_content]
        omega
      have hhandled : handledLines (win.content ++ file) =
          Lines.complete newline (win.content ++ piece) ++
            handledLines (win'.content ++ file.drop piece.length) := by
        conv_lhs => rw [← hsplit, ← List.append_assoc]
        rw [hrest]
        exact Lines.fitting_append hfits _
      rw [readLoop_of_read_ne_nil hread hle hnil, hloop, hhandled, List.foldl_append]
      have hopen' : newline ∉ win'.content := hrest ▸ Lines.notMem_rest _
      by_cases hfull : lineDataSize ≤ win'.lineSize
      · have hnone : handledLines (win'.content ++ file.drop piece.length) = [] :=
          Lines.fitting_eq_nil hopen' (by rwa [Window.length_content]) _
        rw [hnone, List.foldl_nil]
        exact if_pos hfull
      · have hshorter : (file.drop piece.length).length < fuel := by
          have := List.length_pos_iff.2 hnil
          have := congrArg List.length hsplit
          rw [List.length_append] at this
          omega
        refine (if_neg hfull).trans ?_
        exact ih hshorter hopen' (by omega) _

/-- A pass applies the lines of the file that it handles. -/
lemma updateSchedstat_eq (reader : Reader) (stack : Vector UInt8 lineDataSize) (file : List UInt8)
    (state : CpuloadState w) :
    updateSchedstat toMs elapsedMs reader stack file state =
      some (applyFile toMs elapsedMs file state) := by
  unfold updateSchedstat applyFile
  have hempty : (Window.ofStack stack).content = [] := rfl
  have hopen : newline ∉ (Window.ofStack stack).content := by simp [hempty]
  have hsize : (Window.ofStack stack).lineSize < lineDataSize := Nat.succ_pos 255
  rw [readLoop_eq reader (Nat.lt_succ_self file.length) hopen hsize, hempty, List.nil_append]
  rfl

/-! ## Lines and cores -/

/-- A line changes the core it names and no other one. -/
lemma Pass.record_perCore (pass : Pass w) {use : CpuUse w} (h : use.cpuNum.toNat < maxCpus) {k : ℕ}
    (hk : k < maxCpus) :
    (pass.record toMs elapsedMs use).perCore[k] =
      if k = use.cpuNum.toNat then sample toMs elapsedMs use.runTime pass.perCore[k]
      else pass.perCore[k] := by
  unfold Pass.record
  simp only [dif_pos h, Vector.getElem_set]
  by_cases heq : use.cpuNum.toNat = k
  · subst heq
    simp
  · rw [if_neg heq, if_neg (Ne.symm heq)]

lemma Pass.record_of_le (pass : Pass w) {use : CpuUse w} (h : maxCpus ≤ use.cpuNum.toNat) :
    pass.record toMs elapsedMs use = pass := by
  unfold Pass.record
  rw [dif_neg (by omega)]

end Loops

/-- **Reading the file in pieces.** However `read` splits the file and whatever is on the stack, a
pass ends with the state that results from applying, in order, the lines that end before the first
one of 256 or more bytes. Of these, a line that begins with `cpu` and has a CPU number below 128
gives that core a new sample and leaves the others alone; other lines change nothing. -/
theorem updateSchedstat_lineByLine {w : ℕ} (toMs : BitVec w → Uint32) (elapsedMs : Uint32)
    (file : List UInt8) (state : CpuloadState w) :
    (∀ (reader : Reader) (stack : Vector UInt8 lineDataSize),
      updateSchedstat toMs elapsedMs reader stack file state =
        some (applyFile toMs elapsedMs file state)) ∧
    (∀ (pass : Pass w) (line : List UInt8) (use : CpuUse w), cpuLine w line = some use →
      use.cpuNum.toNat < maxCpus → ∀ (k : ℕ) (hk : k < maxCpus),
        (applyLine toMs elapsedMs pass line).perCore[k] =
          if k = use.cpuNum.toNat then sample toMs elapsedMs use.runTime pass.perCore[k]
          else pass.perCore[k]) ∧
    ∀ (pass : Pass w) (line : List UInt8),
      (∀ use : CpuUse w, cpuLine w line = some use → maxCpus ≤ use.cpuNum.toNat) →
        applyLine toMs elapsedMs pass line = pass := by
  refine ⟨fun reader stack => updateSchedstat_eq reader stack file state, ?_, ?_⟩
  · intro pass line use huse hlt k hk
    unfold applyLine
    rw [huse]
    exact pass.record_perCore hlt hk
  · intro pass line hline
    unfold applyLine
    cases hcpu : cpuLine w line with
    | none => rfl
    | some use => exact pass.record_of_le (hline use hcpu)

end CfePsp.Sysmon.Linux
