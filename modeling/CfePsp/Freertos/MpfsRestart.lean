import CfePsp.Freertos.ReservedMemory
import CfePsp.Lib.Sessions
import CfePsp.Lib.Words
import CfePsp.PcLinux.Boot

set_option relaxedAutoImplicit false
set_option autoImplicit false

/-!
# Restarts of mpfs-discovery

`CFE_PSP_Restart` leaves the type of the next reset in the boot record and resets the processor. The
start-up code reads the reset status register, and for a software reset the boot record, and
`CFE_PSP_InitProcessorReservedMemory` clears the reserved memory on a power-on only. The three
functions share one word of memory that outlives the reset.

## Main definitions

* `CfePsp.Freertos.Mpfs.osApplicationStartup`, `CfePsp.Freertos.Mpfs.restart` and
  `CfePsp.Freertos.initProcessorReservedMemory` — the functions.
* `CfePsp.Freertos.Mpfs.machine` — boots and sessions of the board.
* `CfePsp.Freertos.Mpfs.Honoured` — the next boot does what the restart asked for.

## Main results

* `CfePsp.Freertos.Mpfs.restart_honoured_iff` — in every run, a commanded restart is honoured
  exactly when a power-on was requested.
-/

namespace CfePsp.Freertos

open Memory
open PcLinux (rstTypeProcessor rstTypePoweron)

variable {w : ℕ}

/-! ## The reserved memory -/

/-- A board whose reserved memory was set up: the map is sound, and the boot record has its four
words, the first of which is `bsp_reset_type`. -/
structure Board (w : ℕ) where
  size : Uint32
  alloc : BitVec w
  cfg : CfeConfig
  records : RecordSizes w
  map : ReservedMemoryMap w
  /-- The byte order of the processor. -/
  endian : Words.Endian
  sound : MapSound size alloc cfg records map
  bootRecord_size : records.bootRecord.toNat = 16

/-- A board from a configuration that fits: `CFE_PSP_SetupReservedMemoryMap` sets its map up. -/
def Board.ofFits (size : Uint32) (alloc : BitVec w) (cfg : CfeConfig) (records : RecordSizes w)
    (endian : Words.Endian) (hw : 32 ≤ w) (hspace : alloc.toNat + size.toNat ≤ 2 ^ w)
    (hfits : Fits size cfg records) (hle : ¬size.toNat < totalSize cfg records % 2 ^ 32)
    (hboot : records.bootRecord.toNat = 16) : Board w where
  size := size
  alloc := alloc
  cfg := cfg
  records := records
  map := (setupReservedMemoryMap size alloc cfg records (ReservedMemoryMap.zero memTableSize)).2
  endian := endian
  sound := mapSound_setup hw hspace hfits hle
  bootRecord_size := hboot

/-- The address of `bsp_reset_type`. -/
def Board.bootWord (b : Board w) : ℕ := b.map.bootPtr.toNat

/-- `BootPtr->bsp_reset_type`. -/
def Board.bspResetType (b : Board w) (mem : ℕ → UInt8) : Uint32 :=
  Words.loadWord b.endian mem b.bootWord

/-- The memory after a store to `BootPtr->bsp_reset_type`. -/
def Board.setBspResetType (b : Board w) (resetType : Uint32) (mem : ℕ → UInt8) : ℕ → UInt8 :=
  Words.storeWord b.endian mem b.bootWord resetType

/-- `CFE_PSP_InitProcessorReservedMemory` of the FreeRTOS ports. -/
def initProcessorReservedMemory (b : Board w) (restartType : Uint32) (mem : ℕ → UInt8) :
    ℕ → UInt8 :=
  if restartType = rstTypePoweron then
    let mem := zeroArea mem ⟨b.map.cdsMemory.blockPtr.toNat, b.cfg.cdsSize.toNat⟩
    let mem := zeroArea mem ⟨b.map.resetMemory.blockPtr.toNat, b.cfg.resetAreaSize.toNat⟩
    let mem := zeroArea mem ⟨b.map.userReservedMemory.blockPtr.toNat, b.cfg.userReservedSize.toNat⟩
    let mem := zeroArea mem ⟨b.map.bootPtr.toNat, b.records.bootRecord.toNat⟩
    let mem := zeroArea mem ⟨b.map.exceptionStoragePtr.toNat, b.records.exceptionStorage.toNat⟩
    b.setBspResetType rstTypeProcessor mem
  else
    b.setBspResetType rstTypePoweron mem

namespace Mpfs

/-! ## Restart and start-up -/

/-- `CFE_PSP_Restart` of mpfs-discovery: what it leaves in the memory. -/
def restart (b : Board w) (resetType : Uint32) (mem : ℕ → UInt8) : ℕ → UInt8 :=
  if resetType = rstTypePoweron then b.setBspResetType rstTypePoweron mem
  else b.setBspResetType rstTypePoweron mem

/-- The masks of the reset status register, which the hardware library defines. -/
structure ResetMasks where
  /-- `RESET_SR_CPU_SOFTCB_BUS_RESET_MASK`. -/
  softcb : Uint32
  /-- `RESET_SR_DEBUGER_RESET_MASK`. -/
  debuger : Uint32
  /-- `RESET_SR_WDOG_RESET_MASK`. -/
  wdog : Uint32
  /-- `RESET_SR_FABRIC_RESET_MASK`. -/
  fabric : Uint32

/-- The decoding of the reset register in `OS_Application_Startup`. -/
def decodeReset (masks : ResetMasks) (resetRegister bspResetType : Uint32) : Start :=
  if resetRegister = 0x1ff then ⟨rstTypePoweron, RstSubtype.powerCycle⟩
  else if resetRegister &&& masks.softcb ≠ 0 then
    if bspResetType = rstTypePoweron then ⟨rstTypePoweron, RstSubtype.resetCommand⟩
    else ⟨rstTypeProcessor, RstSubtype.resetCommand⟩
  else if resetRegister &&& masks.debuger ≠ 0 then ⟨rstTypePoweron, RstSubtype.powerCycle⟩
  else if resetRegister &&& masks.wdog ≠ 0 then ⟨rstTypeProcessor, RstSubtype.hwWatchdog⟩
  else if resetRegister &&& masks.fabric ≠ 0 then ⟨rstTypeProcessor, RstSubtype.pushButton⟩
  else ⟨rstTypePoweron, RstSubtype.undefinedReset⟩

/-- `OS_Application_Startup` of mpfs-discovery: how cFE is started, and the memory. -/
def osApplicationStartup (b : Board w) (masks : ResetMasks) (resetRegister : Uint32)
    (mem : ℕ → UInt8) : Start × (ℕ → UInt8) :=
  let start := decodeReset masks resetRegister (b.bspResetType mem)
  (start, initProcessorReservedMemory b start.resetType mem)

/-- Boots and sessions of the board. A session may leave anything in the memory. -/
def machine (b : Board w) (masks : ResetMasks) :
    Sessions.Machine (ℕ → UInt8) Uint32 Start (ℕ → UInt8) Uint32 where
  boot := osApplicationStartup b masks
  act mem _ := mem
  restart := restart b

/-! ## A restart that is honoured -/

/-- The areas that cFE keeps its data in. -/
def cfeAreas : List AreaId := [.cds, .reset, .userReserved]

/-- The boot with the given register does what `CFE_PSP_Restart(resetType)` asked for: it starts cFE
with the requested type, and clears the areas of cFE for a power-on only. -/
structure Honoured (b : Board w) (masks : ResetMasks) (resetRegister resetType : Uint32)
    (mem : ℕ → UInt8) : Prop where
  type_eq : (osApplicationStartup b masks resetRegister mem).1.resetType =
    if resetType = rstTypePoweron then rstTypePoweron else rstTypeProcessor
  cleared : resetType = rstTypePoweron → ∀ i ∈ cfeAreas, ∀ a ∈ (b.map.area b.records i).bytes,
    (osApplicationStartup b masks resetRegister mem).2 a = 0
  kept : resetType ≠ rstTypePoweron → ∀ i ∈ cfeAreas, ∀ a ∈ (b.map.area b.records i).bytes,
    (osApplicationStartup b masks resetRegister mem).2 a = mem a

end Mpfs

/-! ## What the store and the initialisation do -/

section Memory

variable {b : Board w} {mem : ℕ → UInt8} {t : Uint32} {i : AreaId} {a : ℕ}

@[simp] lemma bspResetType_setBspResetType :
    b.bspResetType (b.setBspResetType t mem) = t :=
  Words.loadWord_storeWord

/-- The word lies in the boot record, so a store to it leaves the other areas alone. -/
lemma setBspResetType_of_mem (hi : i ≠ .bootRecord) (ha : a ∈ (b.map.area b.records i).bytes) :
    b.setBspResetType t mem a = mem a := by
  refine Words.storeWord_of_notMem fun hword => ?_
  refine Set.disjoint_left.1 (b.sound.disjoint i .bootRecord hi) ha ⟨hword.1, ?_⟩
  have hsize := b.bootRecord_size
  have hend := hword.2
  show a < b.bootWord + b.records.bootRecord.toNat
  omega

/-- A byte that was cleared once stays zero when other areas are cleared. -/
lemma zeroArea_eq_zero {x : Layout.Area} (h : mem a = 0) : zeroArea mem x a = 0 := by
  by_cases hx : a ∈ x.bytes
  · exact zeroArea_of_mem hx
  · rw [zeroArea_of_notMem hx, h]

/-- A power-on clears every area but the word it stores. -/
lemma initProcessorReservedMemory_poweron (hi : i ≠ .bootRecord) (hdisk : i ≠ .volatileDisk)
    (ha : a ∈ (b.map.area b.records i).bytes) :
    initProcessorReservedMemory b rstTypePoweron mem a = 0 := by
  rw [initProcessorReservedMemory, if_pos rfl, setBspResetType_of_mem hi ha]
  have hsize := b.sound.area_size i
  cases i with
  | bootRecord => exact absurd rfl hi
  | volatileDisk => exact absurd rfl hdisk
  | cds =>
    refine zeroArea_eq_zero (zeroArea_eq_zero (zeroArea_eq_zero (zeroArea_eq_zero ?_)))
    have hcds : b.map.cdsMemory.blockSize.toNat = b.cfg.cdsSize.toNat := hsize
    rw [← hcds]
    exact zeroArea_of_mem ha
  | reset =>
    refine zeroArea_eq_zero (zeroArea_eq_zero (zeroArea_eq_zero ?_))
    have hreset : b.map.resetMemory.blockSize.toNat = b.cfg.resetAreaSize.toNat := hsize
    rw [← hreset]
    exact zeroArea_of_mem ha
  | userReserved =>
    refine zeroArea_eq_zero (zeroArea_eq_zero ?_)
    have huser : b.map.userReservedMemory.blockSize.toNat = b.cfg.userReservedSize.toNat := hsize
    rw [← huser]
    exact zeroArea_of_mem ha
  | exceptionStorage => exact zeroArea_of_mem ha

/-- Any other type leaves every area but the boot record alone. -/
lemma initProcessorReservedMemory_other (ht : t ≠ rstTypePoweron) (hi : i ≠ .bootRecord)
    (ha : a ∈ (b.map.area b.records i).bytes) : initProcessorReservedMemory b t mem a = mem a := by
  rw [initProcessorReservedMemory, if_neg ht, setBspResetType_of_mem hi ha]

end Memory

namespace Mpfs

/-! ## The next boot -/

section NextBoot

variable {b : Board w} {masks : ResetMasks} {mem : ℕ → UInt8} {reg t : Uint32}

/-- A restart leaves the type of a power-on, whatever was asked for. -/
lemma bspResetType_restart : b.bspResetType (restart b t mem) = rstTypePoweron := by
  unfold restart
  split
  · exact bspResetType_setBspResetType
  · exact bspResetType_setBspResetType

/-- After a restart, a software reset starts cFE with a power-on. -/
lemma resetType_of_softcb (hreg : reg ≠ 0x1ff) (hsoftcb : reg &&& masks.softcb ≠ 0) :
    (osApplicationStartup b masks reg (restart b t mem)).1 =
      ⟨rstTypePoweron, RstSubtype.resetCommand⟩ := by
  show decodeReset masks reg (b.bspResetType (restart b t mem)) = _
  rw [bspResetType_restart, decodeReset, if_neg hreg, if_pos hsoftcb, if_pos rfl]

/-- The areas of cFE are cleared by the starts with a power-on and left alone by the others. -/
lemma startup_cfeAreas {i : AreaId} (hi : i ∈ cfeAreas) {a : ℕ}
    (ha : a ∈ (b.map.area b.records i).bytes) :
    (osApplicationStartup b masks reg mem).2 a =
      if (osApplicationStartup b masks reg mem).1.resetType = rstTypePoweron then 0 else mem a := by
  have hboot : i ≠ .bootRecord := by
    rintro rfl
    revert hi
    decide
  have hdisk : i ≠ .volatileDisk := by
    rintro rfl
    revert hi
    decide
  split
  next ht =>
    show initProcessorReservedMemory b (osApplicationStartup b masks reg mem).1.resetType mem a = 0
    rw [ht]
    exact initProcessorReservedMemory_poweron hboot hdisk ha
  next ht => exact initProcessorReservedMemory_other ht hboot ha

/-- A restart is honoured when the next start has the requested type; the memory follows. -/
lemma honoured_iff : Honoured b masks reg t mem ↔
    (osApplicationStartup b masks reg mem).1.resetType =
      if t = rstTypePoweron then rstTypePoweron else rstTypeProcessor := by
  constructor
  · exact Honoured.type_eq
  · intro htype
    refine ⟨htype, fun ht i hi a ha => ?_, fun ht i hi a ha => ?_⟩
    · rw [startup_cfeAreas hi ha, htype, if_pos ht, if_pos rfl]
    · rw [startup_cfeAreas hi ha, htype, if_neg ht, if_neg (by decide)]

/-- After a restart, exactly a power-on that was asked for is honoured. -/
lemma honoured_restart_iff (hreg : reg ≠ 0x1ff) (hsoftcb : reg &&& masks.softcb ≠ 0) :
    Honoured b masks reg t (restart b t mem) ↔ t = rstTypePoweron := by
  rw [honoured_iff, resetType_of_softcb hreg hsoftcb]
  constructor
  · intro htype
    by_contra ht
    rw [if_neg ht] at htype
    revert htype
    decide
  · intro ht
    rw [if_pos ht]

end NextBoot

/-! ## Main result -/

/-- **Restarts of mpfs-discovery.** In every run of boots and sessions, whatever the memory held, a
software reset after `CFE_PSP_Restart(resetType)` does what was asked for exactly when that was a
power-on. -/
theorem restart_honoured_iff {b : Board w} {masks : ResetMasks} {mem : ℕ → UInt8}
    {tr : List (Sessions.Event Uint32 (ℕ → UInt8) Uint32)}
    {s : Sessions.State (ℕ → UInt8) Start Uint32}
    (hrun : Transition.run (Sessions.step (machine b masks)) ⟨mem, .off⟩ tr = some s)
    {start : Start} {resetType : Uint32} (hdown : s.phase = .down start (.restarted resetType))
    {reg : Uint32} (hreg : reg ≠ 0x1ff) (hsoftcb : reg &&& masks.softcb ≠ 0) :
    Honoured b masks reg resetType s.mem ↔ resetType = rstTypePoweron := by
  have hknown := Sessions.run_known (P := fun _ _ => True) (fun _ _ => trivial)
    (fun _ _ _ _ => trivial) hrun
  unfold Sessions.Known at hknown
  rw [hdown] at hknown
  obtain ⟨mem', -, hmem⟩ := hknown
  rw [hmem]
  exact honoured_restart_iff hreg hsoftcb

/-- A board with the sample configuration. -/
def sampleBoard : Board 64 :=
  Board.ofFits 0x27000 0x80000000 sampleConfig sampleRecords .little (by decide) (by decide)
    (by unfold Fits; decide) (by decide) (by decide)

/-- Masks of the reset status register. -/
def sampleMasks : ResetMasks := ⟨0x20, 0x8, 0x80, 0x10⟩

/-- A power-up, and a restart with the type `resetType`. -/
def oneSession (resetType : Uint32) : List (Sessions.Event Uint32 (ℕ → UInt8) Uint32) :=
  [.boot 0x1ff, .restart resetType]

/-- A power-on is honoured. -/
theorem restart_honoured_of_poweron :
    ∃ s, Transition.run (Sessions.step (machine sampleBoard sampleMasks)) ⟨fun _ => 0, .off⟩
        (oneSession rstTypePoweron) = some s ∧
      Honoured sampleBoard sampleMasks 0x20 rstTypePoweron s.mem := by
  refine ⟨_, rfl, ?_⟩
  have hrun : Transition.run (Sessions.step (machine sampleBoard sampleMasks)) ⟨fun _ => 0, .off⟩
    (oneSession rstTypePoweron) = some _ := rfl
  exact (restart_honoured_iff hrun rfl (by decide) (by decide)).2 rfl

/-- A processor reset is not: the next boot is a power-on. -/
theorem restart_not_honoured_of_processor :
    ∃ s, Transition.run (Sessions.step (machine sampleBoard sampleMasks)) ⟨fun _ => 0, .off⟩
        (oneSession rstTypeProcessor) = some s ∧
      ¬Honoured sampleBoard sampleMasks 0x20 rstTypeProcessor s.mem := by
  refine ⟨_, rfl, fun h => ?_⟩
  have hpoweron : rstTypeProcessor = rstTypePoweron :=
    (honoured_restart_iff (by decide) (by decide)).1 h
  revert hpoweron
  decide

end Mpfs

end CfePsp.Freertos
