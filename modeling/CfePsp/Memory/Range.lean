import Mathlib.Data.List.Induction
import CfePsp.Basic
import CfePsp.Lib.Intervals

set_option relaxedAutoImplicit false
set_option autoImplicit false

/-!
# The system memory table of `cfe_psp_memrange.c`

`CFE_PSP_MemRangeSet` fills in slots of the table `SysMemoryTable`, which starts zeroed;
`CFE_PSP_MemValidateRange` looks for a slot that contains a range. The marker for an unused slot
is `CFE_PSP_MEM_INVALID`, which is not zero, and nothing stores it: a slot that was never filled
in is looked at as well, as the empty interval at the address `0`.

## Main definitions

* `CfePsp.Memory.MemTable` — `CFE_PSP_MemTable_t`.
* `CfePsp.Memory.memRangeSet`, `CfePsp.Memory.memValidateRange` — the two functions.
* `CfePsp.Memory.configured` — what a sequence of calls of `MemRangeSet` configured.
* `CfePsp.Memory.InConfigured` — a range lies in configured memory.

## Main results

* `CfePsp.Memory.getElem?_memRangeSets` — the table holds what was configured, and zeros.
* `CfePsp.Memory.memValidateRange_exact_iff` — `MemValidateRange` accepts exactly configured
  memory unless a slot with start and size zero answers in its place.
* `CfePsp.Memory.memValidateRange_part` — with a range it accepts the parts of that range.

## Design

`cpuaddr` and `size_t` are words of the same width `w`, whatever it is; the table has any number
of slots.
-/

namespace CfePsp.Memory

variable {w : ℕ}

/-! ## Constants (`cfe_psp.h`) -/

/-- `CFE_PSP_MEM_RAM`. -/
def memRam : Uint32 := 1
/-- `CFE_PSP_MEM_EEPROM`. -/
def memEeprom : Uint32 := 2
/-- `CFE_PSP_MEM_ANY`. -/
def memAny : Uint32 := 3
/-- `CFE_PSP_MEM_INVALID`. -/
def memInvalid : Uint32 := 4

/-- `CFE_PSP_MEM_SIZE_BYTE`, `CFE_PSP_MEM_SIZE_WORD` and `CFE_PSP_MEM_SIZE_DWORD`. -/
def memSizes (w : ℕ) : List (BitVec w) := [0x01, 0x02, 0x04]

/-- `CFE_PSP_MEM_ATTR_READ`, `CFE_PSP_MEM_ATTR_WRITE` and `CFE_PSP_MEM_ATTR_READWRITE`. -/
def memAttrs : List Uint32 := [0x02, 0x01, 0x03]

/-! ## The table -/

/-- `CFE_PSP_MemTable_t`. -/
structure MemTable (w : ℕ) where
  memoryType : Uint32
  wordSize : BitVec w
  startAddr : BitVec w
  size : BitVec w
  attributes : Uint32
  deriving DecidableEq

/-- A slot of the zero-initialised table. -/
instance : Zero (MemTable w) := ⟨⟨0, 0, 0, 0, 0⟩⟩

/-- The arguments of a call of `CFE_PSP_MemRangeSet`: the slot and its contents. -/
structure RangeCall (w : ℕ) where
  rangeNum : Uint32
  entry : MemTable w
  deriving DecidableEq

/-- The parameter checks of `CFE_PSP_MemRangeSet` for a table of `n` slots. -/
def rangeCheck (n : ℕ) (call : RangeCall w) : ℤ :=
  if n ≤ call.rangeNum.toNat then Status.invalidMemRange
  else if call.entry.memoryType ≠ memRam ∧ call.entry.memoryType ≠ memEeprom then
    Status.invalidMemType
  else if call.entry.wordSize ∉ memSizes w then Status.invalidMemWordsize
  else if call.entry.attributes ∉ memAttrs then Status.invalidMemAttr
  else Status.success

/-- `CFE_PSP_MemRangeSet`: return code and table. -/
def memRangeSet (table : List (MemTable w)) (call : RangeCall w) : ℤ × List (MemTable w) :=
  let status := rangeCheck table.length call
  if status = Status.success then (status, table.set call.rangeNum.toNat call.entry)
  else (status, table)

/-- The search loop of `CFE_PSP_MemValidateRange` over the slots that are left. -/
def searchTable (address size : BitVec w) (memoryType : Uint32) :
    List (MemTable w) → ℤ → ℤ
  | [], returnCode => returnCode
  | e :: rest, returnCode =>
      if e.memoryType ≠ memInvalid then
        let endInTable := e.startAddr + e.size - 1
        if e.startAddr ≤ address ∧ address ≤ endInTable then
          if address + size - 1 ≤ endInTable then
            if memoryType = memAny then Status.success
            else if memoryType = memRam ∧ e.memoryType = memRam then Status.success
            else if memoryType = memEeprom ∧ e.memoryType = memEeprom then Status.success
            else searchTable address size memoryType rest Status.invalidMemType
          else searchTable address size memoryType rest Status.invalidMemRange
        else searchTable address size memoryType rest Status.invalidMemAddr
      else searchTable address size memoryType rest returnCode

/-- `CFE_PSP_MemValidateRange`. -/
def memValidateRange (table : List (MemTable w)) (address size : BitVec w)
    (memoryType : Uint32) : ℤ :=
  if memoryType ≠ memAny ∧ memoryType ≠ memRam ∧ memoryType ≠ memEeprom then
    Status.invalidMemType
  else if address + size - 1 < address then Status.invalidMemRange
  else searchTable address size memoryType table Status.invalidMemAddr

/-! ## What was configured -/

/-- The table of `n` slots after a sequence of calls, starting zeroed. -/
def memRangeSets (n : ℕ) (calls : List (RangeCall w)) : List (MemTable w) :=
  calls.foldl (fun table call => (memRangeSet table call).2) (List.replicate n 0)

/-- The call is accepted by a table of `n` slots. -/
def RangeCall.Accepted (n : ℕ) (call : RangeCall w) : Prop := rangeCheck n call = Status.success

instance (n : ℕ) (call : RangeCall w) : Decidable (call.Accepted n) :=
  inferInstanceAs (Decidable (_ = _))

/-- The contents that the latest accepted call for the slot `i` gave it. -/
def configured (n : ℕ) (calls : List (RangeCall w)) (i : ℕ) : Option (MemTable w) :=
  (calls.reverse.find? fun call =>
    decide (call.Accepted n) && decide (call.rangeNum.toNat = i)).map RangeCall.entry

/-- The type asked for admits a slot. -/
def Admits (memoryType : Uint32) (e : MemTable w) : Prop :=
  memoryType = memAny ∨ memoryType = e.memoryType

instance (memoryType : Uint32) (e : MemTable w) : Decidable (Admits memoryType e) :=
  inferInstanceAs (Decidable (_ ∨ _))

/-- The range is not empty, does not pass the end of the address space, and lies in a slot that
was configured, of a type that is admitted. -/
def InConfigured (n : ℕ) (calls : List (RangeCall w)) (address size : BitVec w)
    (memoryType : Uint32) : Prop :=
  0 < size.toNat ∧ address.toNat + size.toNat ≤ 2 ^ w ∧
    ∃ i e, configured n calls i = some e ∧ Admits memoryType e ∧
      e.startAddr.toNat ≤ address.toNat ∧
      address.toNat + size.toNat ≤ e.startAddr.toNat + e.size.toNat

/-- A slot with start and size zero, populated or not, whose type the request admits. -/
def Phantom (memoryType : Uint32) (e : MemTable w) : Prop :=
  e.startAddr = 0 ∧ e.size = 0 ∧ Admits memoryType e

instance (memoryType : Uint32) (e : MemTable w) : Decidable (Phantom memoryType e) :=
  inferInstanceAs (Decidable (_ ∧ _ ∧ _))

/-! ## The table holds what was configured -/

section Table

variable {n : ℕ} {table : List (MemTable w)} {call : RangeCall w} {calls : List (RangeCall w)}

@[simp] lemma length_memRangeSet : (memRangeSet table call).2.length = table.length := by
  simp only [memRangeSet]
  split_ifs
  · exact List.length_set
  · rfl

lemma memRangeSets_concat :
    memRangeSets n (calls ++ [call]) = (memRangeSet (memRangeSets n calls) call).2 := by
  simp [memRangeSets]

@[simp] lemma length_memRangeSets : (memRangeSets n calls).length = n := by
  induction calls using List.reverseRecOn with
  | nil => simp [memRangeSets]
  | append_singleton calls call ih => rw [memRangeSets_concat, length_memRangeSet, ih]

/-- What a call must satisfy to be accepted. -/
lemma rangeCheck_success_iff :
    rangeCheck n call = Status.success ↔ call.rangeNum.toNat < n ∧
      (call.entry.memoryType = memRam ∨ call.entry.memoryType = memEeprom) ∧
      call.entry.wordSize ∈ memSizes w ∧ call.entry.attributes ∈ memAttrs := by
  have hcode : ∀ c ∈ [Status.invalidMemRange, Status.invalidMemType, Status.invalidMemWordsize,
      Status.invalidMemAttr], c ≠ Status.success := by decide
  rw [rangeCheck]
  split_ifs with hnum htype hsize hattr
  · exact iff_of_false (hcode _ (by simp)) fun h => absurd h.1 (not_lt.2 hnum)
  · exact iff_of_false (hcode _ (by simp)) fun h => h.2.1.elim htype.1 htype.2
  · exact iff_of_true rfl
      ⟨not_le.1 hnum, by rwa [not_and_or, not_not, not_not] at htype, hsize, hattr⟩
  · exact iff_of_false (hcode _ (by simp)) fun h => hattr h.2.2.2
  · exact iff_of_false (hcode _ (by simp)) fun h => hsize h.2.2.1

/-- A slot of double words that may be read and written is accepted wherever there is one. -/
lemma accepted_dword_readwrite {rangeNum memoryType : Uint32} {startAddr size : BitVec w}
    (htype : memoryType = memRam ∨ memoryType = memEeprom) :
    (⟨rangeNum, ⟨memoryType, 0x04, startAddr, size, 0x03⟩⟩ : RangeCall w).Accepted n ↔
      rangeNum.toNat < n := by
  rw [RangeCall.Accepted, rangeCheck_success_iff]
  constructor
  · intro h
    exact h.1
  · intro h
    exact ⟨h, htype, by simp [memSizes], by simp [memAttrs]⟩

/-- A call succeeds exactly when it is accepted, and then it fills in its slot. -/
lemma memRangeSet_success_iff :
    (memRangeSet table call).1 = Status.success ↔ call.Accepted table.length := by
  simp only [memRangeSet, RangeCall.Accepted]
  split_ifs with h
  · exact Iff.rfl
  · exact Iff.rfl

lemma memRangeSet_of_accepted (h : call.Accepted table.length) :
    (memRangeSet table call).2 = table.set call.rangeNum.toNat call.entry := by
  simp only [memRangeSet, if_pos (show rangeCheck table.length call = Status.success from h)]

/-- An accepted call is for a slot of the table, with a type of its own. -/
lemma RangeCall.Accepted.bounds (h : call.Accepted n) :
    call.rangeNum.toNat < n ∧
      (call.entry.memoryType = memRam ∨ call.entry.memoryType = memEeprom) :=
  ⟨(rangeCheck_success_iff.1 h).1, (rangeCheck_success_iff.1 h).2.1⟩

lemma RangeCall.Accepted.memoryType_ne (h : call.Accepted n) :
    call.entry.memoryType ≠ memInvalid := by
  rcases h.bounds.2 with htype | htype
  · rw [htype]
    decide
  · rw [htype]
    decide

/-- A later accepted call for the slot takes precedence; any other changes nothing. -/
lemma configured_concat (i : ℕ) :
    configured n (calls ++ [call]) i =
      if call.Accepted n ∧ call.rangeNum.toNat = i then some call.entry
      else configured n calls i := by
  simp only [configured, List.reverse_append, List.reverse_singleton, List.singleton_append,
    List.find?_cons]
  by_cases h : call.Accepted n ∧ call.rangeNum.toNat = i
  · simp [h.1, h.2]
  · have hfalse : (decide (call.Accepted n) && decide (call.rangeNum.toNat = i)) = false := by
      rw [Bool.eq_false_iff]
      simpa using h
    rw [hfalse, if_neg h]

/-- **The table holds what was configured**, and zeros in the slots that were not. -/
lemma getElem?_memRangeSets (i : ℕ) (hi : i < n) :
    (memRangeSets n calls)[i]? = some ((configured n calls i).getD 0) := by
  induction calls using List.reverseRecOn with
  | nil => simp [memRangeSets, configured, hi]
  | append_singleton calls call ih =>
    rw [memRangeSets_concat, configured_concat, memRangeSet]
    by_cases hacc : call.Accepted n
    · have hcheck : rangeCheck (memRangeSets n calls).length call = Status.success := by
        rw [length_memRangeSets]
        exact hacc
      simp only [if_pos hcheck]
      by_cases hnum : call.rangeNum.toNat = i
      · subst hnum
        rw [if_pos ⟨hacc, rfl⟩, List.getElem?_set_self (by simpa using hi)]
        rfl
      · rw [if_neg fun h => hnum h.2, List.getElem?_set_ne hnum, ih]
    · have hcheck : ¬rangeCheck (memRangeSets n calls).length call = Status.success := by
        rw [length_memRangeSets]
        exact hacc
      rw [if_neg hcheck, if_neg fun h => hacc h.1, ih]

/-- What is configured was configured by an accepted call. -/
lemma exists_call_of_configured {i : ℕ} {e : MemTable w} (h : configured n calls i = some e) :
    ∃ call ∈ calls, call.Accepted n ∧ call.rangeNum.toNat = i ∧ call.entry = e := by
  obtain ⟨call, hfind, rfl⟩ := Option.map_eq_some_iff.1 h
  have hmem := List.mem_reverse.1 (List.mem_of_find?_eq_some hfind)
  have hcall := List.find?_some hfind
  simp only [Bool.and_eq_true, decide_eq_true_eq] at hcall
  exact ⟨call, hmem, hcall.1, hcall.2, rfl⟩

end Table

/-! ## The search -/

section Search

variable {address size : BitVec w} {memoryType : Uint32}

/-- A slot the search stops at. -/
def Answers (address size : BitVec w) (memoryType : Uint32) (e : MemTable w) : Prop :=
  e.memoryType ≠ memInvalid ∧ Interval.Within address size e.startAddr e.size ∧
    Admits memoryType e

/-- The type asked for is one of those that `MemValidateRange` knows. -/
def KnownType (memoryType : Uint32) : Prop :=
  memoryType = memAny ∨ memoryType = memRam ∨ memoryType = memEeprom

lemma KnownType.not_refused (h : KnownType memoryType) :
    ¬(memoryType ≠ memAny ∧ memoryType ≠ memRam ∧ memoryType ≠ memEeprom) := by
  rintro ⟨hany, hram, heeprom⟩
  rcases h with h | h | h
  · exact hany h
  · exact hram h
  · exact heeprom h

/-- The cascade of type comparisons. -/
lemma admits_iff (hknown : KnownType memoryType) (e : MemTable w) :
    Admits memoryType e ↔ memoryType = memAny ∨ (memoryType = memRam ∧ e.memoryType = memRam) ∨
      (memoryType = memEeprom ∧ e.memoryType = memEeprom) := by
  rw [Admits]
  rcases hknown with rfl | rfl | rfl
  · exact iff_of_true (.inl rfl) (.inl rfl)
  · simp [memRam, memAny, memEeprom, eq_comm]
  · simp [memRam, memAny, memEeprom, eq_comm]

/-- **The search succeeds exactly when it meets a slot it stops at.** -/
lemma searchTable_success_iff (hknown : KnownType memoryType) (table : List (MemTable w))
    {returnCode : ℤ} (hcode : returnCode ≠ Status.success) :
    searchTable address size memoryType table returnCode = Status.success ↔
      ∃ e ∈ table, Answers address size memoryType e := by
  induction table generalizing returnCode with
  | nil => simpa [searchTable] using hcode
  | cons e rest ih =>
    have hrest : ∀ {rc : ℤ}, rc ≠ Status.success → ¬Answers address size memoryType e →
        (searchTable address size memoryType rest rc = Status.success ↔
          ∃ e' ∈ e :: rest, Answers address size memoryType e') := by
      intro rc hrc hnot
      rw [ih hrc]
      simp [hnot]
    have hfound : Answers address size memoryType e →
        ((Status.success : ℤ) = Status.success ↔
          ∃ e' ∈ e :: rest, Answers address size memoryType e') := fun h =>
      iff_of_true rfl ⟨e, List.mem_cons_self, h⟩
    simp only [searchTable]
    split_ifs with hvalid hstart hend hany hram heeprom
    · exact hfound ⟨hvalid, ⟨hstart.1, hstart.2, hend⟩, (admits_iff hknown e).2 (.inl hany)⟩
    · exact hfound ⟨hvalid, ⟨hstart.1, hstart.2, hend⟩,
        (admits_iff hknown e).2 (.inr (.inl hram))⟩
    · exact hfound ⟨hvalid, ⟨hstart.1, hstart.2, hend⟩,
        (admits_iff hknown e).2 (.inr (.inr heeprom))⟩
    · refine hrest (by decide) fun h => ?_
      rcases (admits_iff hknown e).1 h.2.2 with h | h | h
      · exact hany h
      · exact hram h
      · exact heeprom h
    · exact hrest (by decide) fun h => hend h.2.1.2.2
    · exact hrest (by decide) fun h => hstart ⟨h.2.1.1, h.2.1.2.1⟩
    · exact hrest hcode fun h => hvalid h.1

/-- `MemValidateRange` succeeds exactly when the range passes its test and some slot answers. -/
lemma memValidateRange_success_iff (hknown : KnownType memoryType) (table : List (MemTable w)) :
    memValidateRange table address size memoryType = Status.success ↔
      ¬Interval.last address size < address ∧
        ∃ e ∈ table, Answers address size memoryType e := by
  rw [memValidateRange, if_neg hknown.not_refused]
  by_cases hwrap : address + size - 1 < address
  · rw [if_pos hwrap]
    exact iff_of_false (by decide) fun h => h.1 hwrap
  · rw [if_neg hwrap, searchTable_success_iff hknown table (by decide)]
    exact (and_iff_right hwrap).symm

end Search

/-! ## Parts of a range -/

section Part

variable {address size address' size' : BitVec w} {memoryType : Uint32}

/-- A slot that answers for a range answers for its parts, also for a request for any type. -/
lemma Answers.part {e : MemTable w} (h : Answers address size memoryType e)
    (hpos : 0 < size'.toNat) (hlow : address.toNat ≤ address'.toNat)
    (hhigh : address'.toNat + size'.toNat ≤ address.toNat + size.toNat)
    (hend : address.toNat + size.toNat ≤ 2 ^ w) :
    Answers address' size' memoryType e ∧ Answers address' size' memAny e := by
  obtain ⟨hvalid, hwithin, hadmits⟩ := h
  have hpart := hwithin.part hpos hlow hhigh hend
  exact ⟨⟨hvalid, hpart, hadmits⟩, hvalid, hpart, .inl rfl⟩

/-- **Validation of the parts.** With a range, `MemValidateRange` accepts every part of it that is
not empty, for the same type of memory and for any type, whatever the table holds.

**Proof sketch.** A range that is accepted does not pass the end of the address space, so that the
end of a part is not behind its end; the slot that contains the range contains the part. -/
theorem memValidateRange_part (hknown : KnownType memoryType) {table : List (MemTable w)}
    (haccepted : memValidateRange table address size memoryType = Status.success)
    (hpos : 0 < size'.toNat) (hlow : address.toNat ≤ address'.toNat)
    (hhigh : address'.toNat + size'.toNat ≤ address.toNat + size.toNat) :
    memValidateRange table address' size' memoryType = Status.success ∧
      memValidateRange table address' size' memAny = Status.success := by
  obtain ⟨htest, e, he, hanswers⟩ := (memValidateRange_success_iff hknown table).1 haccepted
  rw [Interval.last_lt_iff, Interval.eq_zero_iff] at htest
  have hend : address.toNat + size.toNat ≤ 2 ^ w := by omega
  have htest' := Interval.not_last_lt_part hpos hhigh hend
  obtain ⟨hsame, hany⟩ := hanswers.part hpos hlow hhigh hend
  exact ⟨(memValidateRange_success_iff hknown table).2 ⟨htest', e, he, hsame⟩,
    (memValidateRange_success_iff (.inl rfl) table).2 ⟨htest', e, he, hany⟩⟩

/-- Four bytes of a range in EEPROM, in a table whose first slot comes round. -/
theorem memValidateRange_part_of_two :
    memValidateRange [⟨memRam, 1, 0xFFFFFFF0#32, 0x20, 3⟩, ⟨memEeprom, 1, 0x8000, 0x100, 3⟩]
        0x8010 16 memEeprom = Status.success ∧
    memValidateRange [⟨memRam, 1, 0xFFFFFFF0#32, 0x20, 3⟩, ⟨memEeprom, 1, 0x8000, 0x100, 3⟩]
        0x8014 4 memEeprom = Status.success := by
  have haccepted : memValidateRange [⟨memRam, 1, 0xFFFFFFF0#32, 0x20, 3⟩,
      ⟨memEeprom, 1, 0x8000, 0x100, 3⟩] 0x8010 16 memEeprom = Status.success := by decide
  exact ⟨haccepted,
    (memValidateRange_part (.inr (.inr rfl)) haccepted (by decide) (by decide) (by decide)).1⟩

end Part

/-! ## Exactly configured memory -/

section Exact

variable {n : ℕ} {calls : List (RangeCall w)} {address size : BitVec w} {memoryType : Uint32}

/-- No accepted call configures memory past the end of the address space. -/
def InSpace (n : ℕ) (calls : List (RangeCall w)) : Prop :=
  ∀ call ∈ calls, call.Accepted n →
    call.entry.startAddr.toNat + call.entry.size.toNat ≤ 2 ^ w

instance (n : ℕ) (calls : List (RangeCall w)) : Decidable (InSpace n calls) :=
  inferInstanceAs (Decidable (∀ call ∈ calls, call.Accepted n → _ ≤ _))

/-- A slot has a number, and holds what was configured for that. -/
lemma exists_slot_of_mem {e : MemTable w} (he : e ∈ memRangeSets n calls) :
    ∃ i < n, (configured n calls i).getD 0 = e := by
  obtain ⟨i, hi⟩ := List.mem_iff_getElem?.1 he
  have hlt : i < n := by
    have := (List.getElem?_eq_some_iff.1 hi).1
    rwa [length_memRangeSets] at this
  rw [getElem?_memRangeSets i hlt] at hi
  exact ⟨i, hlt, Option.some.inj hi⟩

/-- A slot holds what was configured for it, or was never filled in. -/
lemma slot_of_mem {e : MemTable w} (he : e ∈ memRangeSets n calls) :
    (∃ i, configured n calls i = some e) ∨ e = 0 := by
  obtain ⟨i, -, rfl⟩ := exists_slot_of_mem he
  cases hconf : configured n calls i with
  | none => exact .inr rfl
  | some e => exact .inl ⟨i, hconf⟩

/-- No slot is marked `CFE_PSP_MEM_INVALID`, and none passes the end of the address space. -/
lemma slot_bounds (hspace : InSpace n calls) {e : MemTable w} (he : e ∈ memRangeSets n calls) :
    e.memoryType ≠ memInvalid ∧ e.startAddr.toNat + e.size.toNat ≤ 2 ^ w := by
  rcases slot_of_mem he with ⟨i, hi⟩ | rfl
  · obtain ⟨call, hmem, hacc, -, rfl⟩ := exists_call_of_configured hi
    exact ⟨hacc.memoryType_ne, hspace call hmem hacc⟩
  · have htype : (0 : MemTable w).memoryType ≠ memInvalid := by
      show (0 : Uint32) ≠ memInvalid
      decide
    refine ⟨htype, ?_⟩
    show (0 : BitVec w).toNat + (0 : BitVec w).toNat ≤ 2 ^ w
    simp

/-- A configured slot is in the table. -/
lemma mem_of_configured {i : ℕ} {e : MemTable w} (h : configured n calls i = some e) :
    e ∈ memRangeSets n calls := by
  obtain ⟨call, -, hacc, rfl, -⟩ := exists_call_of_configured h
  have hslot : (memRangeSets n calls)[call.rangeNum.toNat]? = _ :=
    getElem?_memRangeSets call.rangeNum.toNat hacc.bounds.1
  rw [h] at hslot
  exact List.mem_of_getElem? hslot

/-- What `MemValidateRange` accepts: configured memory, and whatever passes its test when there
is a slot with start and size zero. -/
lemma memValidateRange_accepts_iff (hspace : InSpace n calls) (hknown : KnownType memoryType) :
    memValidateRange (memRangeSets n calls) address size memoryType = Status.success ↔
      InConfigured n calls address size memoryType ∨
        (¬Interval.last address size < address ∧
          ∃ e ∈ memRangeSets n calls, Phantom memoryType e) := by
  rw [memValidateRange_success_iff hknown]
  constructor
  · rintro ⟨htest, e, he, -, hwithin, hadmits⟩
    have hbounds := slot_bounds hspace he
    have hcases := (Interval.within_iff htest hbounds.2).1 hwithin
    rcases hcases with ⟨hstart, hsize⟩ | ⟨hpos, hlow, hhigh⟩
    · exact .inr ⟨htest, e, he, hstart, hsize, hadmits⟩
    · refine .inl ⟨hpos, Nat.le_trans hhigh hbounds.2, ?_⟩
      rcases slot_of_mem he with ⟨i, hi⟩ | rfl
      · exact ⟨i, e, hi, hadmits, hlow, hhigh⟩
      · -- a slot that was never filled in contains nothing
        have hzero : (0 : MemTable w).startAddr.toNat + (0 : MemTable w).size.toNat = 0 := by
          show (0 : BitVec w).toNat + (0 : BitVec w).toNat = 0
          simp
        omega
  · rintro (⟨hpos, hend, i, e, hi, hadmits, hlow, hhigh⟩ | ⟨htest, e, he, hstart, hsize, hadmits⟩)
    · have he := mem_of_configured hi
      have hbounds := slot_bounds hspace he
      have htest : ¬Interval.last address size < address := by
        rw [Interval.last_lt_iff]
        rintro (hwrap | ⟨hzero, -⟩)
        · omega
        · simp [hzero] at hpos
      exact ⟨htest, e, he, hbounds.1,
        (Interval.within_iff htest hbounds.2).2 (.inr ⟨hpos, hlow, hhigh⟩), hadmits⟩
    · have hbounds := slot_bounds hspace he
      exact ⟨htest, e, he, hbounds.1,
        (Interval.within_iff htest hbounds.2).2 (.inl ⟨hstart, hsize⟩), hadmits⟩

/-- **When `MemValidateRange` accepts exactly configured memory.** For every sequence of calls
of `MemRangeSet` and every request, its answer is right if and only if the request fails the test
for its end, or no slot with start and size zero has a type the request admits, or the range lies
in configured memory anyway. Slots that were never filled in have start and size zero and are
admitted by requests for any type of memory.

**Proof sketch.** `memValidateRange_accepts_iff`: the ends of a slot with start and size zero
are `0` and the last address, so that it contains every range. -/
theorem memValidateRange_exact_iff (hspace : InSpace n calls) (hknown : KnownType memoryType) :
    (memValidateRange (memRangeSets n calls) address size memoryType = Status.success ↔
        InConfigured n calls address size memoryType) ↔
      address + size - 1 < address ∨ (∀ e ∈ memRangeSets n calls, ¬Phantom memoryType e) ∨
        InConfigured n calls address size memoryType := by
  rw [memValidateRange_accepts_iff hspace hknown]
  constructor
  · intro hiff
    by_contra hcond
    obtain ⟨htest, hphantom, hout⟩ := by simpa only [not_or] using hcond
    push Not at hphantom
    exact hout (hiff.1 (.inr ⟨htest, hphantom⟩))
  · rintro hcond
    refine ⟨?_, .inl⟩
    rintro (hin | ⟨htest, e, he, hphantom⟩)
    · exact hin
    · rcases hcond with hwrap | hnone | hin
      · exact absurd hwrap htest
      · exact absurd hphantom (hnone e he)
      · exact hin

/-- A table of two slots, both filled in, and a request inside the first. -/
theorem memValidateRange_exact_iff_of_two :
    memValidateRange (memRangeSets 2 [⟨0, ⟨memRam, 1, 0x1000, 0x100, 3⟩⟩,
      ⟨1, ⟨memEeprom, 1, 0x8000#32, 0x100, 3⟩⟩]) 0x1010 4 memAny = Status.success ↔
    InConfigured 2 [⟨0, ⟨memRam, 1, 0x1000, 0x100, 3⟩⟩,
      ⟨1, ⟨memEeprom, 1, 0x8000#32, 0x100, 3⟩⟩] 0x1010 4 memAny :=
  (memValidateRange_exact_iff (by decide) (.inl rfl)).2 (.inr (.inl (by decide)))

/-- With a single slot filled in, four bytes that nobody configured are accepted. -/
theorem memValidateRange_accepts_unconfigured :
    memValidateRange (memRangeSets 10 [⟨0, ⟨memRam, 1, 0x8000#32, 0x100, 3⟩⟩]) 0x1000 4 memAny =
        Status.success ∧
      ¬InConfigured 10 [⟨0, ⟨memRam, 1, 0x8000#32, 0x100, 3⟩⟩] 0x1000 4 memAny := by
  refine ⟨by decide, ?_⟩
  rintro ⟨-, -, i, e, hi, -, hlow, -⟩
  obtain ⟨call, hcall, -, -, rfl⟩ := exists_call_of_configured hi
  obtain rfl := List.mem_singleton.1 hcall
  exact absurd hlow (by decide)

end Exact

end CfePsp.Memory
