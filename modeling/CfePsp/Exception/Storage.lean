import Mathlib.Logic.Function.Basic
import CfePsp.Basic
import CfePsp.Lib.Cells
import CfePsp.Lib.Windows

set_option relaxedAutoImplicit false
set_option autoImplicit false

/-!
# The exception log of `cfe_psp_exceptionstorage.c`

A ring of `CFE_PSP_MAX_EXCEPTION_ENTRIES` log entries with two free-running `uint32` counters.
Exception handlers write entries, the application pops them with
`CFE_PSP_Exception_GetSummary` and fetches their context with
`CFE_PSP_Exception_CopyContext`.

## Main definitions

* `CfePsp.Exception.Config` — the build constants; the capacity is a power of two.
* `CfePsp.Exception.Storage` — `CFE_PSP_ExceptionStorage_t`.
* `CfePsp.Exception.getNextContextBuffer`, `CfePsp.Exception.writeComplete`,
  `CfePsp.Exception.exceptionHandler` — the writer's side.
* `CfePsp.Exception.getCount`, `CfePsp.Exception.getSummary`, `CfePsp.Exception.copyContext`,
  `CfePsp.Exception.reset` — the reader's side.

## Main results

* `CfePsp.Exception.exceptionHandler_of_full`, `CfePsp.Exception.exceptionHandler_of_room` — all
  that one activation of a handler does to the storage.
* `CfePsp.Exception.getSummary_of_empty`, `CfePsp.Exception.getSummary_of_pending` — all that
  one call of `GetSummary` does.
-/

namespace CfePsp.Exception

/-- The constants the exception storage is built with. `CFE_PSP_MAX_EXCEPTION_ENTRIES` must
always be a power of two, and the size of a context is returned as an `int32`. -/
structure Config extends Osal where
  /-- The binary logarithm of `CFE_PSP_MAX_EXCEPTION_ENTRIES`. -/
  logEntries : ℕ
  logEntries_le : logEntries ≤ 31
  /-- `sizeof(CFE_PSP_Exception_ContextDataEntry_t)`. -/
  infoBytes : ℕ
  infoBytes_lt : infoBytes < 2 ^ 31

namespace Config

variable (c : Config)

/-- `CFE_PSP_MAX_EXCEPTION_ENTRIES`. -/
def maxEntries : ℕ := 2 ^ c.logEntries

/-- `CFE_PSP_MAX_EXCEPTION_ENTRY_MASK`. -/
def entryMask : Uint32 := BitVec.ofNat 32 (c.maxEntries - 1)

/-- `CFE_PSP_EXCEPTION_ID_BASE`. -/
def idBase : Uint32 := (c.osObjectTypeUser + 0x101) <<< osObjectTypeShift

lemma maxEntries_pos : 0 < c.maxEntries := Nat.two_pow_pos _

lemma maxEntries_le : c.maxEntries ≤ 2 ^ 31 :=
  Nat.pow_le_pow_right (by omega) c.logEntries_le

/-- A build with `2 ^ k` entries and one byte of context, to evaluate the definitions on. -/
def small (k : Fin 32) : Config where
  osObjectTypeUser := 0x10
  exceptionType_ne := by decide
  logEntries := k
  logEntries_le := by omega
  infoBytes := 1
  infoBytes_lt := by decide

end Config

/-! ## The data -/

section Data

variable (c : Config) (τ : Type)

/-- `CFE_PSP_Exception_LogData_t`; `τ` is `CFE_PSP_Exception_SysTaskId_t`. -/
structure LogData where
  contextId : Uint32
  contextSize : Uint32
  sysTaskId : τ
  contextInfo : Fin c.infoBytes → UInt8

/-- `CFE_PSP_ExceptionStorage_t`. -/
structure Storage where
  numWritten : Uint32
  numRead : Uint32
  entries : Fin c.maxEntries → LogData c τ

/-- What an exception handler captures. The size it reports is that of a prefix of the context
it has filled in, such as `offsetof(…, bt_addrs[NumAddrs])`. -/
structure Capture where
  contextSize : Uint32
  contextInfo : Fin c.infoBytes → UInt8
  sysTaskId : τ
  size_le : contextSize.toNat ≤ c.infoBytes

end Data

variable {c : Config} {τ : Type}

/-- A capture of one byte of context, by task `t`. -/
def Capture.ofByte {k : Fin 32} (x : UInt8) (t : ℕ) : Capture (Config.small k) ℕ where
  contextSize := 1
  contextInfo := fun _ => x
  sysTaskId := t
  size_le := Nat.le_refl 1

/-- An entry after `memset(Buffer, 0, sizeof(*Buffer))`. -/
instance [Zero τ] : Zero (LogData c τ) :=
  ⟨{ contextId := 0, contextSize := 0, sysTaskId := 0, contextInfo := fun _ => 0 }⟩

/-- Zeroed storage, as a power-on reset leaves it. -/
instance [Zero τ] : Zero (Storage c τ) :=
  ⟨{ numWritten := 0, numRead := 0, entries := fun _ => 0 }⟩

/-- The bytes a `memcpy` from `&Buffer->context_info` reads. -/
def LogData.infoByte (d : LogData c τ) (i : ℕ) : UInt8 :=
  if h : i < c.infoBytes then d.contextInfo ⟨i, h⟩ else 0

/-- The bytes of the context that a handler captured. -/
def Capture.infoByte (f : Capture c τ) (i : ℕ) : UInt8 :=
  if h : i < c.infoBytes then f.contextInfo ⟨i, h⟩ else 0

/-- The entry a handler leaves behind when it fills in the buffer with id `id`. -/
def Capture.toLogData (f : Capture c τ) (id : Uint32) : LogData c τ :=
  { contextId := id, contextSize := f.contextSize, sysTaskId := f.sysTaskId,
    contextInfo := f.contextInfo }

/-- The entry holds, apart from its id, what the handler captured. -/
def LogData.Holds (d : LogData c τ) (f : Capture c τ) : Prop :=
  d.contextSize = f.contextSize ∧ d.sysTaskId = f.sysTaskId ∧ d.contextInfo = f.contextInfo

/-- Store an entry. -/
def Storage.setEntry (s : Storage c τ) (b : Fin c.maxEntries) (d : LogData c τ) :
    Storage c τ :=
  { s with entries := Function.update s.entries b d }

/-! ## The functions -/

/-- `CFE_PSP_Exception_GetBuffer`: the index of the entry it points to. -/
def getBuffer (c : Config) (seq : Uint32) : Fin c.maxEntries :=
  ⟨(seq &&& c.entryMask).toNat, by
    have h : (seq &&& c.entryMask).toNat = seq.toNat % 2 ^ c.logEntries :=
      Window.toNat_and_mask (Nat.le_succ_of_le c.logEntries_le) seq
    rw [h]
    exact Nat.mod_lt _ c.maxEntries_pos⟩

/-- `CFE_PSP_Exception_Reset`. -/
def reset (s : Storage c τ) : Storage c τ :=
  { s with numRead := s.numWritten }

/-- `CFE_PSP_Exception_GetNextContextBuffer`: the buffer handed out (`none` for `NULL`) and the
storage, in which that buffer has been cleared and given its id. -/
def getNextContextBuffer [Zero τ] (s : Storage c τ) :
    Option (Fin c.maxEntries) × Storage c τ :=
  let nextWrite := s.numWritten
  if BitVec.ofNat 32 c.maxEntries ≤ nextWrite - s.numRead then
    (none, s)
  else
    let buffer := getBuffer c nextWrite
    (some buffer, s.setEntry buffer
      { (0 : LogData c τ) with contextId := c.idBase + (nextWrite &&& osObjectIndexMask) })

/-- The handler fills in the fields of the buffer it was given. -/
def fill (f : Capture c τ) (b : Fin c.maxEntries) (s : Storage c τ) : Storage c τ :=
  s.setEntry b (f.toLogData (s.entries b).contextId)

/-- `CFE_PSP_Exception_WriteComplete`. -/
def writeComplete (s : Storage c τ) : Storage c τ :=
  let s := { s with numWritten := s.numWritten + 1 }
  -- the *next* entry expires, in case its context is being copied out
  let buffer := getBuffer c s.numWritten
  s.setEntry buffer { s.entries buffer with contextId := 0 }

/-- One complete activation of an exception handler, such as `CFE_PSP_ExceptionSigHandler`. -/
def exceptionHandler [Zero τ] (f : Capture c τ) (s : Storage c τ) : Storage c τ :=
  match getNextContextBuffer s with
  | (none, s) => s
  | (some b, s) => writeComplete (fill f b s)

/-- `CFE_PSP_Exception_GetCount`. -/
def getCount (s : Storage c τ) : Uint32 :=
  s.numWritten - s.numRead

/-- The arguments of `CFE_PSP_Exception_GetSummary`: which of the pointers are not `NULL`, and
`ReasonSize`. -/
structure SummaryArgs where
  contextLogId : Bool
  taskId : Bool
  reasonBuf : Bool
  reasonSize : Uint32
  deriving DecidableEq

/-- The outputs of `CFE_PSP_Exception_GetSummary`; `none` where nothing was stored. -/
structure SummaryOut where
  contextLogId : Option Uint32 := none
  taskId : Option Uint32 := none
  reason : Option String := none
  deriving DecidableEq

/-- What the calls out of `GetSummary` return: the OSAL id found by
`OS_TaskFindIdBySystemData` and the text of `CFE_PSP_ExceptionGetSummary_Impl`, `none` on
failure. -/
structure SummaryExternals where
  foundTask : Option Uint32
  summary : Option String

/-- `CFE_PSP_Exception_GetSummary`: return code, outputs and the storage afterwards. -/
def getSummary (a : SummaryArgs) (x : SummaryExternals) (s : Storage c τ) :
    ℤ × SummaryOut × Storage c τ :=
  let numStored := getCount s
  if numStored = 0 then
    (Status.noExceptionData, {}, s)
  else
    let buffer := s.entries (getBuffer c s.numRead)
    let out : SummaryOut :=
      { contextLogId := if a.contextLogId then some buffer.contextId else none
        taskId := if a.taskId then some (x.foundTask.getD osObjectIdUndefined) else none
        reason := if a.reasonBuf && decide (0 < a.reasonSize) then some (x.summary.getD "")
          else none }
    (Status.success, out, { s with numRead := s.numRead + 1 })

/-- `CFE_PSP_Exception_CopyContext`: return code and the memory from `ContextBuf` on. -/
def copyContext (s : Storage c τ) (contextLogId : Uint32) (contextBuf : ℕ → UInt8)
    (contextSize : Uint32) : ℤ × (ℕ → UInt8) :=
  let seqId := contextLogId - c.idBase
  if osObjectIndexMask < seqId then
    (Status.noExceptionData, contextBuf)
  else
    let buffer := s.entries (getBuffer c seqId)
    if buffer.contextId ≠ contextLogId then
      (Status.noExceptionData, contextBuf)
    else
      let actualSize :=
        if buffer.contextSize ≤ contextSize then buffer.contextSize else contextSize
      (actualSize.toInt, Cells.overlay contextBuf buffer.infoByte 0 actualSize.toNat)

/-! ## What one call does -/

@[simp] lemma getBuffer_val (seq : Uint32) :
    (getBuffer c seq : ℕ) = seq.toNat % c.maxEntries :=
  Window.toNat_and_mask (Nat.le_succ_of_le c.logEntries_le) seq

/-- The buffer of a counter value depends only on the number counted, not on the wrapping. -/
lemma getBuffer_ofNat_val (n : ℕ) :
    (getBuffer c (BitVec.ofNat 32 n) : ℕ) = n % c.maxEntries := by
  rw [getBuffer_val]
  exact Window.toNat_ofNat_mod (Nat.le_succ_of_le c.logEntries_le)

/-- Counter values less than a ring apart have different buffers. -/
lemma getBuffer_ofNat_ne {i j : ℕ} (hij : i < j) (hj : j < i + c.maxEntries) :
    getBuffer c (BitVec.ofNat 32 i) ≠ getBuffer c (BitVec.ofNat 32 j) := by
  intro h
  have hval := congrArg Fin.val h
  rw [getBuffer_ofNat_val, getBuffer_ofNat_val] at hval
  exact Window.mod_ne_mod hij hj hval

/-- The id that the entry with sequence number `seq` is given. -/
def Config.entryId (c : Config) (seq : Uint32) : Uint32 :=
  c.idBase + (seq &&& osObjectIndexMask)

@[simp] lemma setEntry_numWritten (s : Storage c τ) (b : Fin c.maxEntries) (d : LogData c τ) :
    (s.setEntry b d).numWritten = s.numWritten := rfl

@[simp] lemma setEntry_entries_self (s : Storage c τ) (b : Fin c.maxEntries)
    (d : LogData c τ) : (s.setEntry b d).entries b = d := by
  simp [Storage.setEntry]

lemma setEntry_entries_of_ne (s : Storage c τ) {b b' : Fin c.maxEntries} (d : LogData c τ)
    (h : b' ≠ b) : (s.setEntry b d).entries b' = s.entries b' := by
  simp [Storage.setEntry, h]

@[simp] lemma writeComplete_numWritten (s : Storage c τ) :
    (writeComplete s).numWritten = s.numWritten + 1 := rfl

/-- `WriteComplete` leaves an id of zero in the entry that is written next. -/
lemma writeComplete_expires (s : Storage c τ) :
    ((writeComplete s).entries (getBuffer c (s.numWritten + 1))).contextId = 0 := by
  simp [writeComplete]

/-- `WriteComplete` changes the entry that is written next and no other. -/
lemma writeComplete_entries_of_ne (s : Storage c τ) {b : Fin c.maxEntries}
    (h : b ≠ getBuffer c (s.numWritten + 1)) : (writeComplete s).entries b = s.entries b :=
  setEntry_entries_of_ne _ _ h

/-- `WriteComplete` changes nothing but ids. -/
lemma writeComplete_holds (s : Storage c τ) (b : Fin c.maxEntries) (f : Capture c τ) :
    ((writeComplete s).entries b).Holds f ↔ (s.entries b).Holds f := by
  by_cases h : b = getBuffer c (s.numWritten + 1)
  · subst h
    simp [writeComplete, LogData.Holds]
  · rw [writeComplete_entries_of_ne s h]

/-- `WriteComplete` keeps an id of zero. -/
lemma writeComplete_contextId_of_zero (s : Storage c τ) (b : Fin c.maxEntries)
    (h : (s.entries b).contextId = 0) : ((writeComplete s).entries b).contextId = 0 := by
  by_cases hb : b = getBuffer c (s.numWritten + 1)
  · rw [hb]
    exact writeComplete_expires s
  · rw [writeComplete_entries_of_ne s hb, h]

section Handler

variable [Zero τ] (f : Capture c τ) {s : Storage c τ}

/-- A handler finds no buffer exactly when the counters are a full ring apart. -/
lemma getNextContextBuffer_eq_none :
    (getNextContextBuffer s).1 = none ↔ BitVec.ofNat 32 c.maxEntries ≤ getCount s := by
  by_cases h : BitVec.ofNat 32 c.maxEntries ≤ s.numWritten - s.numRead
  · simp [getNextContextBuffer, getCount, h]
  · simp [getNextContextBuffer, getCount, h]

/-- A handler that finds the ring full leaves the storage alone. -/
lemma exceptionHandler_of_full (h : BitVec.ofNat 32 c.maxEntries ≤ getCount s) :
    exceptionHandler f s = s := by
  have hnext : getNextContextBuffer s = (none, s) := if_pos h
  simp [exceptionHandler, hnext]

/-- A handler that finds room stores one complete entry, with the id of the current count, and
completes the write. -/
lemma exceptionHandler_of_room (h : ¬BitVec.ofNat 32 c.maxEntries ≤ getCount s) :
    exceptionHandler f s = writeComplete
      (s.setEntry (getBuffer c s.numWritten) (f.toLogData (c.entryId s.numWritten))) := by
  have hnext : getNextContextBuffer s = (some (getBuffer c s.numWritten),
      s.setEntry (getBuffer c s.numWritten)
        { (0 : LogData c τ) with contextId := c.entryId s.numWritten }) := if_neg h
  simp only [exceptionHandler, hnext, fill, setEntry_entries_self]
  congr 1
  simp [Storage.setEntry]

end Handler

/-- `GetSummary` on an empty log stores nothing and consumes nothing. -/
lemma getSummary_of_empty (a : SummaryArgs) (x : SummaryExternals) {s : Storage c τ}
    (h : getCount s = 0) : getSummary a x s = (Status.noExceptionData, {}, s) :=
  if_pos h

/-- `GetSummary` with something pending succeeds, whatever the calls out return; it reports the
id in the oldest entry's slot and counts that entry as read. -/
lemma getSummary_of_pending (a : SummaryArgs) (x : SummaryExternals) {s : Storage c τ}
    (h : getCount s ≠ 0) :
    (getSummary a x s).1 = Status.success ∧
      (getSummary a x s).2.1.contextLogId =
        (if a.contextLogId then some (s.entries (getBuffer c s.numRead)).contextId else none) ∧
      (getSummary a x s).2.2 = { s with numRead := s.numRead + 1 } := by
  unfold getSummary
  simp only [if_neg h, and_self]

end CfePsp.Exception
