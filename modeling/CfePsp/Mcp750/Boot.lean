import CfePsp.Lib.Sessions
import CfePsp.Memory.ReservedLayout

set_option relaxedAutoImplicit false
set_option autoImplicit false

/-!
# Boots of mcp750-vxworks

The start-up code decodes the reset register in a fixed order. Before a session that began with a
processor reset it stores the type of a power-on in the boot record, so that the next boot is a
power-on if this one fails. The boot record is read for a software hard reset only.

## Main definitions

* `CfePsp.Mcp750.osApplicationStartup`, `CfePsp.Mcp750.restart` — the functions.
* `CfePsp.Mcp750.machine` — boots and sessions of the board.
* `CfePsp.Mcp750.Escalates` — the reset registers that lead to a power-on when one is due.

## Main results

* `CfePsp.Mcp750.failed_processor_boot_iff` — in every run, the boot after a failed processor boot
  is a power-on exactly for these registers.
-/

namespace CfePsp.Mcp750

open Memory (CfeConfig RecordSizes ReservedMemoryMap MemoryBlock)
open PcLinux (rstTypeProcessor rstTypePoweron)

variable {w : ℕ}

/-! ## The functions -/

/-- The board: where its reserved memory is, how it is configured, and the byte order. -/
structure Board (w : ℕ) where
  sysMemTop : BitVec w
  cfg : CfeConfig
  records : RecordSizes w
  endian : Words.Endian

/-- `CFE_PSP_ReservedMemoryMap`, as each boot sets it up. -/
def Board.map (b : Board w) : ReservedMemoryMap w :=
  (Memory.Mcp750.setupReservedMemoryMap b.sysMemTop b.cfg b.records).1

/-- `MCP750_ReservedMemBlock`. -/
def Board.block (b : Board w) : MemoryBlock w :=
  (Memory.Mcp750.setupReservedMemoryMap b.sysMemTop b.cfg b.records).2

/-- The address of `BootPtr->bsp_reset_type`, the first word of the boot record. -/
def Board.bootWord (b : Board w) : ℕ := b.map.bootPtr.toNat

/-- `BootPtr->bsp_reset_type`. -/
def Board.bspResetType (b : Board w) (mem : ℕ → UInt8) : Uint32 :=
  Words.loadWord b.endian mem b.bootWord

/-- The memory after a store to `BootPtr->bsp_reset_type`. -/
def Board.setBspResetType (b : Board w) (resetType : Uint32) (mem : ℕ → UInt8) : ℕ → UInt8 :=
  Words.storeWord b.endian mem b.bootWord resetType

/-- The masks of the reset register, which the board support package defines. -/
structure ResetMasks where
  /-- `SYS_REG_BLRR_PWRON`. -/
  pwron : BitVec 8
  /-- `SYS_REG_BLRR_PBRST`. -/
  pbrst : BitVec 8
  /-- `SYS_REG_BLRR_FBTN`. -/
  fbtn : BitVec 8
  /-- `SYS_REG_BLRR_WDT2`. -/
  wdt2 : BitVec 8
  /-- `SYS_REG_BLRR_SWSRST`. -/
  swsrst : BitVec 8
  /-- `SYS_REG_BLRR_SWHRST`. -/
  swhrst : BitVec 8

/-- The decoding of the reset register in `OS_Application_Startup`. The type after the front panel
button is written as a subtype in the source. -/
def decodeReset (masks : ResetMasks) (resetRegister : BitVec 8) (bspResetType : Uint32) : Start :=
  if resetRegister &&& masks.pwron ≠ 0 then ⟨rstTypePoweron, RstSubtype.powerCycle⟩
  else if resetRegister &&& masks.pbrst ≠ 0 then ⟨rstTypePoweron, RstSubtype.pushButton⟩
  else if resetRegister &&& masks.fbtn ≠ 0 then ⟨RstSubtype.pushButton, 3⟩
  else if resetRegister &&& masks.wdt2 ≠ 0 then ⟨rstTypeProcessor, RstSubtype.hwWatchdog⟩
  else if resetRegister &&& masks.swsrst ≠ 0 then ⟨rstTypeProcessor, RstSubtype.resetCommand⟩
  else if resetRegister &&& masks.swhrst ≠ 0 then
    if bspResetType = rstTypePoweron then ⟨rstTypePoweron, RstSubtype.resetCommand⟩
    else ⟨rstTypeProcessor, RstSubtype.resetCommand⟩
  else ⟨rstTypePoweron, RstSubtype.undefinedReset⟩

/-- `OS_Application_Startup` of mcp750-vxworks: how cFE is started, and the memory. -/
def osApplicationStartup (b : Board w) (masks : ResetMasks) (resetRegister : BitVec 8)
    (mem : ℕ → UInt8) : Start × (ℕ → UInt8) :=
  let start := decodeReset masks resetRegister (b.bspResetType mem)
  -- if cFE fails to boot with a processor reset, the next one is meant to be a power-on
  let mem := if start.resetType = rstTypeProcessor then b.setBspResetType rstTypePoweron mem
    else mem
  (start, Memory.Mcp750.initProcessorReservedMemory b.endian b.map b.block start.resetType mem)

/-- `CFE_PSP_Restart` of mcp750-vxworks: what it leaves in the memory. -/
def restart (b : Board w) (resetType : Uint32) (mem : ℕ → UInt8) : ℕ → UInt8 :=
  if resetType = rstTypePoweron then b.setBspResetType rstTypePoweron mem
  else b.setBspResetType rstTypeProcessor mem

/-- A store of the running software, to a byte that is not part of `bsp_reset_type`. -/
structure AppStore (b : Board w) where
  address : ℕ
  value : UInt8
  outside : ¬(b.bootWord ≤ address ∧ address < b.bootWord + 4)

/-- Boots and sessions of the board. -/
def machine (b : Board w) (masks : ResetMasks) :
    Sessions.Machine (ℕ → UInt8) (BitVec 8) Start (AppStore b) Uint32 where
  boot := osApplicationStartup b masks
  act st mem := Function.update mem st.address st.value
  restart := restart b

/-- The reset registers after which a boot is a power-on when the boot record asks for one: a power
or button bit is set, or neither the watchdog bit nor the soft reset bit is. -/
def Escalates (masks : ResetMasks) (resetRegister : BitVec 8) : Prop :=
  resetRegister &&& masks.pwron ≠ 0 ∨ resetRegister &&& masks.pbrst ≠ 0 ∨
    resetRegister &&& masks.fbtn ≠ 0 ∨
    resetRegister &&& masks.wdt2 = 0 ∧ resetRegister &&& masks.swsrst = 0

instance (masks : ResetMasks) (resetRegister : BitVec 8) :
    Decidable (Escalates masks resetRegister) :=
  inferInstanceAs (Decidable (_ ∨ _))

/-! ## One boot -/

section OneBoot

variable {b : Board w} {masks : ResetMasks} {mem : ℕ → UInt8} {reg : BitVec 8} {t : Uint32}

@[simp] lemma bspResetType_setBspResetType : b.bspResetType (b.setBspResetType t mem) = t :=
  Words.loadWord_storeWord

/-- A processor boot leaves the type of a power-on behind. -/
lemma bspResetType_of_processor
    (h : (osApplicationStartup b masks reg mem).1.resetType = rstTypeProcessor) :
    b.bspResetType (osApplicationStartup b masks reg mem).2 = rstTypePoweron := by
  have hdecode : (decodeReset masks reg (b.bspResetType mem)).resetType = rstTypeProcessor := h
  simp only [osApplicationStartup, hdecode, if_pos, Memory.Mcp750.initProcessorReservedMemory,
    ne_eq, not_true_eq_false, if_false, bspResetType_setBspResetType]

/-- Any other boot leaves the type of a processor reset behind. -/
lemma bspResetType_of_other
    (h : (osApplicationStartup b masks reg mem).1.resetType ≠ rstTypeProcessor) :
    b.bspResetType (osApplicationStartup b masks reg mem).2 = rstTypeProcessor := by
  have hdecode : (decodeReset masks reg (b.bspResetType mem)).resetType ≠ rstTypeProcessor := h
  simp only [osApplicationStartup, if_neg hdecode, Memory.Mcp750.initProcessorReservedMemory,
    if_pos hdecode]
  exact Words.loadWord_storeWord

/-- The stores of the running software leave the word alone. -/
lemma bspResetType_act (st : AppStore b) :
    b.bspResetType ((machine b masks).act st mem) = b.bspResetType mem := by
  refine Words.loadWord_congr fun a hlo hhi => ?_
  have hne : a ≠ st.address := by
    rintro rfl
    exact st.outside ⟨hlo, hhi⟩
  exact Function.update_of_ne hne _ _

/-- When the boot record asks for a power-on, exactly the registers of `Escalates` lead to one. -/
lemma decodeReset_poweron_iff :
    (decodeReset masks reg rstTypePoweron).resetType = rstTypePoweron ↔ Escalates masks reg := by
  unfold decodeReset Escalates
  split
  next hpwron => exact iff_of_true rfl (.inl hpwron)
  next hpwron =>
  split
  next hpbrst => exact iff_of_true rfl (.inr (.inl hpbrst))
  next hpbrst =>
  split
  next hfbtn => exact iff_of_true rfl (.inr (.inr (.inl hfbtn)))
  next hfbtn =>
  split
  next hwdt2 =>
    refine iff_of_false (by decide) ?_
    rintro (h | h | h | ⟨h, -⟩)
    exacts [hpwron h, hpbrst h, hfbtn h, hwdt2 h]
  next hwdt2 =>
  split
  next hswsrst =>
    refine iff_of_false (by decide) ?_
    rintro (h | h | h | ⟨-, h⟩)
    exacts [hpwron h, hpbrst h, hfbtn h, hswsrst h]
  next hswsrst =>
    -- what is left is the hard reset, which asks the boot record, and the unknown ones
    refine iff_of_true ?_ (.inr (.inr (.inr ⟨not_not.1 hwdt2, not_not.1 hswsrst⟩)))
    split
    · rfl
    · rfl

end OneBoot

/-! ## Main result -/

section Escalation

variable {b : Board w} {masks : ResetMasks} {mem : ℕ → UInt8}
  {tr : List (Sessions.Event (BitVec 8) (AppStore b) Uint32)}
  {s : Sessions.State (ℕ → UInt8) Start Uint32}

/-- What the boot record holds during a session: the type of a power-on if the session began with a
processor reset, and that of a processor reset otherwise. -/
def BootInv (b : Board w) (start : Start) (mem : ℕ → UInt8) : Prop :=
  b.bspResetType mem =
    if start.resetType = rstTypeProcessor then rstTypePoweron else rstTypeProcessor

/-- **The boot record in every run**: during a session, and after it failed, the invariant holds. -/
lemma bootInv_of_run
    (hrun : Transition.run (Sessions.step (machine b masks)) ⟨mem, .off⟩ tr = some s) :
    Sessions.Known (machine b masks) (BootInv b) s := by
  refine Sessions.run_known (fun reg mem => ?_) (fun start mem st h => ?_) hrun
  · unfold BootInv
    split
    next h => exact bspResetType_of_processor h
    next h => exact bspResetType_of_other h
  · exact (bspResetType_act st).trans h

/-- After a failed processor boot the boot record asks for a power-on. -/
lemma bspResetType_of_failed
    (hrun : Transition.run (Sessions.step (machine b masks)) ⟨mem, .off⟩ tr = some s)
    {start : Start} (hdown : s.phase = .down start .failed)
    (hprocessor : start.resetType = rstTypeProcessor) :
    b.bspResetType s.mem = rstTypePoweron := by
  have hknown := bootInv_of_run hrun
  unfold Sessions.Known at hknown
  rw [hdown] at hknown
  exact hknown.trans (if_pos hprocessor)

/-- **Failed processor boots of mcp750-vxworks.** In every run, when a boot came up with a processor
reset and its session ended without a restart, the next boot is a power-on exactly if its reset
register has a power or button bit, or neither the watchdog bit nor the soft reset bit. -/
theorem failed_processor_boot_iff
    (hrun : Transition.run (Sessions.step (machine b masks)) ⟨mem, .off⟩ tr = some s)
    {start : Start} (hdown : s.phase = .down start .failed)
    (hprocessor : start.resetType = rstTypeProcessor) (reg : BitVec 8) :
    (osApplicationStartup b masks reg s.mem).1.resetType = rstTypePoweron ↔
      Escalates masks reg := by
  show (decodeReset masks reg (b.bspResetType s.mem)).resetType = rstTypePoweron ↔ _
  rw [bspResetType_of_failed hrun hdown hprocessor]
  exact decodeReset_poweron_iff

end Escalation

/-- A board at the 31 MiB mark. -/
def sampleBoard : Board 32 := ⟨0x1F00000, ⟨0x20000, 0x28000, 0x100000, 512, 4096⟩, ⟨16, 1000⟩, .big⟩

/-- The bits of the reset register, in the order they are looked at. -/
def sampleMasks : ResetMasks := ⟨0x01, 0x02, 0x04, 0x08, 0x10, 0x20⟩

/-- A boot after a software hard reset, whose session fails. -/
def failedSession : List (Sessions.Event (BitVec 8) (AppStore sampleBoard) Uint32) :=
  [.boot 0x20, .fail]

/-- After a failed processor boot, a software hard reset is a power-on. -/
theorem failed_processor_boot_of_hardReset :
    ∃ s, Transition.run (Sessions.step (machine sampleBoard sampleMasks)) ⟨fun _ => 0, .off⟩
        failedSession = some s ∧
      (osApplicationStartup sampleBoard sampleMasks 0x20 s.mem).1.resetType = rstTypePoweron := by
  refine ⟨_, rfl, ?_⟩
  have hrun : Transition.run (Sessions.step (machine sampleBoard sampleMasks)) ⟨fun _ => 0, .off⟩
    failedSession = some _ := rfl
  exact (failed_processor_boot_iff hrun rfl (by decide) 0x20).2 (by decide)

/-- After a failed processor boot, a watchdog reset is a processor reset once more. -/
theorem failed_processor_boot_of_watchdog :
    ∃ s start, Transition.run (Sessions.step (machine sampleBoard sampleMasks))
        ⟨fun _ => 0, .off⟩ failedSession = some s ∧
      s.phase = .down start .failed ∧ start.resetType = rstTypeProcessor ∧
      (osApplicationStartup sampleBoard sampleMasks 0x08 s.mem).1.resetType ≠ rstTypePoweron :=
  ⟨_, _, rfl, rfl, by decide, by decide⟩

end CfePsp.Mcp750
