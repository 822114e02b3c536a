import CfePsp.Basic
import CfePsp.Lib.Cells

set_option relaxedAutoImplicit false
set_option autoImplicit false

/-!
# Access to the critical data store

`CFE_PSP_WriteToCDS` and `CFE_PSP_ReadFromCDS` are the same in all ports but for the names of
their return codes: a check of the requested range against the size of the CDS, and a `memcpy`.
The end of the range is computed in 32 bits.

## Main definitions

* `CfePsp.Memory.writeToCDS`, `CfePsp.Memory.readFromCDS` — the two functions, for a port.
* `CfePsp.Memory.CdsContract` — accesses succeed exactly inside the CDS and stay there.

## Main results

* `CfePsp.Memory.cdsContract_iff` — the contract is met exactly by the requests whose end does
  not wrap round, or that the wrapping makes no difference to.

## Design

The memory from `CDSMemory.BlockPtr` on is a function of the distance from there; the CDS is its
first `size` bytes, and what lies behind is memory as well. The size is a `size_t`, or a
configured constant, and here any natural number.
-/

namespace CfePsp.Memory

/-! ## The functions -/

/-- The ports, each with a `cfe_psp_memory.c` of its own. -/
inductive Port
  | pcLinux
  | mcp750Vxworks
  | pcRtems
  | sharedFreertos
  deriving DecidableEq

/-- The return code of a successful access. -/
def Port.successCode : Port → ℤ
  | .pcLinux | .mcp750Vxworks => Status.success
  | .pcRtems | .sharedFreertos => Status.osSuccess

/-- The return code of a refused access. -/
def Port.errorCode : Port → ℤ
  | .pcLinux | .mcp750Vxworks => Status.error
  | .pcRtems | .sharedFreertos => Status.osError

/-- The check of a request: its offset is in the CDS and the 32-bit sum is not past the end. -/
def RangeOk (size : ℕ) (cdsOffset numBytes : Uint32) : Prop :=
  cdsOffset.toNat < size ∧ (cdsOffset + numBytes).toNat ≤ size

instance (size : ℕ) (cdsOffset numBytes : Uint32) :
    Decidable (RangeOk size cdsOffset numBytes) :=
  inferInstanceAs (Decidable (_ ∧ _))

/-- `CFE_PSP_WriteToCDS`: return code and the memory from the CDS on. -/
def writeToCDS (p : Port) (size : ℕ) (mem : ℕ → UInt8) (ptrToDataToWrite : Option (ℕ → UInt8))
    (cdsOffset numBytes : Uint32) : ℤ × (ℕ → UInt8) :=
  match ptrToDataToWrite with
  | none => (p.errorCode, mem)
  | some data =>
      if RangeOk size cdsOffset numBytes then
        (p.successCode, Cells.overlay mem data cdsOffset.toNat numBytes.toNat)
      else (p.errorCode, mem)

/-- `CFE_PSP_ReadFromCDS`: return code and the caller's memory. -/
def readFromCDS (p : Port) (size : ℕ) (mem : ℕ → UInt8) (ptrToDataToRead : Option (ℕ → UInt8))
    (cdsOffset numBytes : Uint32) : ℤ × Option (ℕ → UInt8) :=
  match ptrToDataToRead with
  | none => (p.errorCode, none)
  | some data =>
      if RangeOk size cdsOffset numBytes then
        (p.successCode,
          some (Cells.overlay data (fun i => mem (cdsOffset.toNat + i)) 0 numBytes.toNat))
      else (p.errorCode, some data)

/-! ## What one call does -/

section Calls

variable {p : Port} {size : ℕ} {mem data : ℕ → UInt8} {off n : Uint32}

lemma Port.successCode_ne_errorCode (p : Port) : p.successCode ≠ p.errorCode := by
  cases p <;> decide

/-- An accepted write copies the data into the memory from the offset on. -/
lemma writeToCDS_of_ok (h : RangeOk size off n) :
    writeToCDS p size mem (some data) off n =
      (p.successCode, Cells.overlay mem data off.toNat n.toNat) :=
  if_pos h

/-- A refused write copies nothing. -/
lemma writeToCDS_of_not_ok (h : ¬RangeOk size off n) :
    writeToCDS p size mem (some data) off n = (p.errorCode, mem) :=
  if_neg h

/-- An accepted read copies the memory from the offset on. -/
lemma readFromCDS_of_ok (h : RangeOk size off n) :
    readFromCDS p size mem (some data) off n = (p.successCode,
      some (Cells.overlay data (fun i => mem (off.toNat + i)) 0 n.toNat)) :=
  if_pos h

/-- A refused read copies nothing. -/
lemma readFromCDS_of_not_ok (h : ¬RangeOk size off n) :
    readFromCDS p size mem (some data) off n = (p.errorCode, some data) :=
  if_neg h

/-- A write succeeds exactly when the check does. -/
lemma writeToCDS_success_iff :
    (writeToCDS p size mem (some data) off n).1 = p.successCode ↔ RangeOk size off n := by
  by_cases h : RangeOk size off n
  · rw [writeToCDS_of_ok h]
    exact iff_of_true rfl h
  · rw [writeToCDS_of_not_ok h]
    exact iff_of_false p.successCode_ne_errorCode.symm h

/-- A read succeeds exactly when the check does. -/
lemma readFromCDS_success_iff :
    (readFromCDS p size mem (some data) off n).1 = p.successCode ↔ RangeOk size off n := by
  by_cases h : RangeOk size off n
  · rw [readFromCDS_of_ok h]
    exact iff_of_true rfl h
  · rw [readFromCDS_of_not_ok h]
    exact iff_of_false p.successCode_ne_errorCode.symm h

end Calls

/-! ## The contract -/

/-- The requested range lies in the CDS, in exact arithmetic. -/
def InCds (size : ℕ) (off n : Uint32) : Prop :=
  off.toNat < size ∧ off.toNat + n.toNat ≤ size

/-- **The contract of CDS accesses**, for one request: it succeeds exactly inside the CDS, and
then touches the requested bytes of the CDS and nothing else; a refused request copies
nothing. -/
structure CdsContract (p : Port) (size : ℕ) (off n : Uint32) : Prop where
  write_iff : ∀ mem data,
    (writeToCDS p size mem (some data) off n).1 = p.successCode ↔ InCds size off n
  write_frame : ∀ mem data a, (writeToCDS p size mem (some data) off n).2 a ≠ mem a →
    (writeToCDS p size mem (some data) off n).1 = p.successCode ∧
      a < size ∧ off.toNat ≤ a ∧ a < off.toNat + n.toNat
  write_data : ∀ mem data,
    (writeToCDS p size mem (some data) off n).1 = p.successCode →
      ∀ i < n.toNat, (writeToCDS p size mem (some data) off n).2 (off.toNat + i) = data i
  read_iff : ∀ mem data,
    (readFromCDS p size mem (some data) off n).1 = p.successCode ↔ InCds size off n
  read_only : ∀ mem mem' data,
    (∀ a < size, off.toNat ≤ a → a < off.toNat + n.toNat → mem a = mem' a) →
      readFromCDS p size mem (some data) off n = readFromCDS p size mem' (some data) off n
  read_data : ∀ mem data,
    (readFromCDS p size mem (some data) off n).1 = p.successCode →
      (readFromCDS p size mem (some data) off n).2 =
        some fun i => if i < n.toNat then mem (off.toNat + i) else data i
  read_refused : ∀ mem data,
    (readFromCDS p size mem (some data) off n).1 ≠ p.successCode →
      (readFromCDS p size mem (some data) off n).2 = some data

section Contract

variable {p : Port} {size : ℕ} {off n : Uint32}

/-- The check is exact when the sum does not wrap round, and when it makes no difference that it
does. -/
lemma rangeOk_iff_inCds_iff :
    (RangeOk size off n ↔ InCds size off n) ↔
      size ≤ off.toNat ∨ off.toNat + n.toNat < 2 ^ 32 ∨ off.toNat + n.toNat ≤ size := by
  have hn := n.isLt
  have hsum : (off + n).toNat = (off.toNat + n.toNat) % 2 ^ 32 := BitVec.toNat_add off n
  rw [RangeOk, InCds, hsum]
  by_cases hwrap : off.toNat + n.toNat < 2 ^ 32
  · rw [Nat.mod_eq_of_lt hwrap]
    exact iff_of_true Iff.rfl (.inr (.inl hwrap))
  · -- the sum wraps round to less than the offset, which the check has found in the CDS
    have hoff := off.isLt
    have hmod : (off.toNat + n.toNat) % 2 ^ 32 = off.toNat + n.toNat - 2 ^ 32 := by omega
    rw [hmod]
    constructor
    · intro hiff
      by_contra hcond
      obtain ⟨hlt, -, hgt⟩ := by simpa only [not_or, not_le] using hcond
      exact absurd (hiff.1 ⟨hlt, by omega⟩).2 (not_le.2 hgt)
    · rintro (hge | hlt | hle)
      · exact iff_of_false (fun h => by omega) fun h => by omega
      · exact absurd hlt hwrap
      · exact and_congr_right fun _ => iff_of_true (by omega) hle

/-- A request whose check is exact meets the contract. -/
lemma cdsContract_of_iff (h : RangeOk size off n ↔ InCds size off n) :
    CdsContract p size off n where
  write_iff mem data := writeToCDS_success_iff.trans h
  write_frame mem data a ha := by
    by_cases hok : RangeOk size off n
    · have hin := (h.1 hok).2
      rw [writeToCDS_of_ok hok] at ha ⊢
      have hmem := Cells.mem_of_overlay_ne ha
      exact ⟨rfl, by omega, hmem⟩
    · rw [writeToCDS_of_not_ok hok] at ha
      exact absurd rfl ha
  write_data mem data hsucc i hi := by
    rw [writeToCDS_of_ok (writeToCDS_success_iff.1 hsucc)]
    show Cells.overlay mem data off.toNat n.toNat (off.toNat + i) = data i
    rw [Cells.overlay_of_mem (by omega), Nat.add_sub_cancel_left]
  read_iff mem data := readFromCDS_success_iff.trans h
  read_only mem mem' data hagree := by
    by_cases hok : RangeOk size off n
    · have hin := (h.1 hok).2
      rw [readFromCDS_of_ok hok, readFromCDS_of_ok hok]
      congr 2
      refine Cells.overlay_congr fun i hi => hagree _ (by omega) (by omega) (by omega)
    · rw [readFromCDS_of_not_ok hok, readFromCDS_of_not_ok hok]
  read_data mem data hsucc := by
    rw [readFromCDS_of_ok (readFromCDS_success_iff.1 hsucc)]
    refine congrArg some (funext fun i => ?_)
    simp [Cells.overlay]
  read_refused mem data href := by
    rw [readFromCDS_of_not_ok fun hok => href (readFromCDS_success_iff.2 hok)]

/-- **When CDS accesses stay in the CDS.** In every port, for every size of the CDS and every
content, a request meets the contract if and only if its offset is past the end of the CDS, or
its end is below `2 ^ 32`, or its end is in the CDS after all. -/
theorem cdsContract_iff (p : Port) (size : ℕ) (off n : Uint32) :
    CdsContract p size off n ↔
      size ≤ off.toNat ∨ off.toNat + n.toNat < 2 ^ 32 ∨ off.toNat + n.toNat ≤ size := by
  rw [← rangeOk_iff_inCds_iff]
  refine ⟨fun h => ?_, cdsContract_of_iff⟩
  exact writeToCDS_success_iff.symm.trans (h.write_iff (fun _ => 0) fun _ => 0)

/-- In a CDS of 128 KiB, a write at the offset `16` whose end wraps round to `0` succeeds, and
overwrites the first byte behind the CDS. -/
theorem cdsContract_fails_on_wrap :
    ¬CdsContract .pcLinux 0x20000 16 0xFFFFFFF0 ∧
      (writeToCDS .pcLinux 0x20000 (fun _ => 0) (some fun _ => 1) 16 0xFFFFFFF0).1 =
        Status.success ∧
      (writeToCDS .pcLinux 0x20000 (fun _ => 0) (some fun _ => 1) 16 0xFFFFFFF0).2 0x20000 = 1 := by
  refine ⟨fun h => ?_, by decide, by decide⟩
  exact absurd ((h.write_iff (fun _ => 0) fun _ => 0).1 (by decide)).2 (by decide)

end Contract

end CfePsp.Memory
