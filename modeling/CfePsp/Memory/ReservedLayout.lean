import CfePsp.Lib.Words
import CfePsp.Memory.ReservedMap
import CfePsp.PcLinux.Boot

set_option relaxedAutoImplicit false
set_option autoImplicit false

/-!
# The layout of the reserved memory on mcp750-vxworks and pc-rtems

Both ports take one block of memory and divide it into the areas of the map. On mcp750 the block
starts at the top of the system memory, and the address is rounded up after each area; on pc-rtems
the block is allocated, its size is the sum of the rounded sizes, and a C structure of the two
records comes first. All this is computed in words of the size of an address.

## Main definitions

* `CfePsp.Memory.Mcp750.setupReservedMemoryMap`, `CfePsp.Memory.PcRtems.setupReservedMemoryMap` —
  the two layouts, with `initProcessorReservedMemory` beside each.
* `CfePsp.Memory.LayoutContract` — the areas are disjoint parts of the block.

## Main results

* `CfePsp.Memory.reservedLayout` — a layout that does not run past the end of the address space
  meets the contract, a power-on clears all of it, and CDS writes stay in the CDS.
-/

namespace CfePsp.Memory

open PcLinux (rstTypeProcessor rstTypePoweron)

variable {w : ℕ}

/-- The "RAM" entry that the ports put into the first slot of the memory table. -/
def ramEntry (size : BitVec w) : RangeCall w := ⟨0, ⟨memRam, 0x04, 0, size, 0x03⟩⟩

/-- `CFE_PSP_MEM_TABLE_SIZE` of the two ports. -/
def memTableSize : ℕ := 10

/-! ## mcp750-vxworks -/

namespace Mcp750

/-- `CFE_PSP_SetupReservedMemoryMap` of mcp750-vxworks: the map and `MCP750_ReservedMemBlock`. -/
def setupReservedMemoryMap (sysMemTop : BitVec w) (cfg : CfeConfig) (rec : RecordSizes w) :
    ReservedMemoryMap w × MemoryBlock w :=
  let startAddr := sysMemTop
  let bootPtr := startAddr
  let endAddr := Layout.roundUp 0x1F (startAddr + rec.bootRecord)
  let exceptionStoragePtr := endAddr
  let endAddr := Layout.roundUp 0x1F (endAddr + rec.exceptionStorage)
  let resetMemory := ⟨endAddr, cfg.resetAreaSize.setWidth w⟩
  let endAddr := Layout.roundUp 0x1F (endAddr + cfg.resetAreaSize.setWidth w)
  let volatileDiskMemory := ⟨endAddr, cfg.ramDiskSize.setWidth w⟩
  let endAddr := Layout.roundUp 0x1F (endAddr + cfg.ramDiskSize.setWidth w)
  let cdsMemory := ⟨endAddr, cfg.cdsSize.setWidth w⟩
  let endAddr := Layout.roundUp 0x1F (endAddr + cfg.cdsSize.setWidth w)
  let userReservedMemory := ⟨endAddr, cfg.userReservedSize.setWidth w⟩
  let endAddr := Layout.roundUp 0x1F (endAddr + cfg.userReservedSize.setWidth w)
  ({ bootPtr, exceptionStoragePtr, resetMemory, volatileDiskMemory, cdsMemory, userReservedMemory
     sysMemoryTable := (memRangeSet (List.replicate memTableSize 0) (ramEntry 0x8000000)).2 },
    ⟨startAddr, endAddr - startAddr⟩)

/-- `CFE_PSP_InitProcessorReservedMemory` of mcp750-vxworks. The first word of the boot record is
`bsp_reset_type`. -/
def initProcessorReservedMemory (e : Words.Endian) (m : ReservedMemoryMap w)
    (block : MemoryBlock w) (restartType : Uint32) (mem : ℕ → UInt8) : ℕ → UInt8 :=
  if restartType ≠ rstTypeProcessor then
    Words.storeWord e (zeroArea mem block.area) m.bootPtr.toNat rstTypeProcessor
  else mem

/-- The cursor of the layout: past an area, rounded up to the next multiple of 32. -/
abbrev next : ℕ → ℕ → ℕ := Layout.afterAddress 5

end Mcp750

/-! ## pc-rtems -/

namespace PcRtems

/-- `CFE_PSP_RtemsReservedAreaFixedLayout_t`: the boot record is its first member and the exception
storage its second. -/
structure FixedLayout (rec : RecordSizes w) where
  size : BitVec w
  exceptionOffset : BitVec w
  bootRecord_le : rec.bootRecord.toNat ≤ exceptionOffset.toNat
  exceptionStorage_le : exceptionOffset.toNat + rec.exceptionStorage.toNat ≤ size.toNat

/-- `CFE_PSP_SetupReservedMemoryMap` of pc-rtems: the map and `PcRtems_ReservedMemBlock`, or an
abort when `malloc` returns a null pointer. -/
def setupReservedMemoryMap (malloc : BitVec w → BitVec w) (cfg : CfeConfig)
    {rec : RecordSizes w} (fixed : FixedLayout rec) (map : ReservedMemoryMap w) :
    Option (ReservedMemoryMap w × MemoryBlock w) :=
  let fixedSize := Layout.roundUp 0x7F fixed.size
  let resetSize := Layout.roundUp 0x7F (cfg.resetAreaSize.setWidth w)
  let cdsSize := Layout.roundUp 0x7F (cfg.cdsSize.setWidth w)
  let volatileDiskSize := Layout.roundUp 0x7F (cfg.ramDiskSize.setWidth w)
  let userReservedSize := Layout.roundUp 0x7F (cfg.userReservedSize.setWidth w)
  let requiredSize := fixedSize + resetSize + volatileDiskSize + cdsSize + userReservedSize
  let blockPtr := malloc requiredSize
  if blockPtr = 0 then none
  else
    let reservedMemoryAddr := blockPtr
    let bootPtr := reservedMemoryAddr
    let exceptionStoragePtr := reservedMemoryAddr + fixed.exceptionOffset
    let reservedMemoryAddr := reservedMemoryAddr + fixedSize
    let resetMemory := ⟨reservedMemoryAddr, cfg.resetAreaSize.setWidth w⟩
    let reservedMemoryAddr := reservedMemoryAddr + resetSize
    let volatileDiskMemory := ⟨reservedMemoryAddr, cfg.ramDiskSize.setWidth w⟩
    let reservedMemoryAddr := reservedMemoryAddr + volatileDiskSize
    let cdsMemory := ⟨reservedMemoryAddr, cfg.cdsSize.setWidth w⟩
    let reservedMemoryAddr := reservedMemoryAddr + cdsSize
    let userReservedMemory := ⟨reservedMemoryAddr, cfg.userReservedSize.setWidth w⟩
    some ({ bootPtr, exceptionStoragePtr, resetMemory, volatileDiskMemory, cdsMemory
            userReservedMemory
            sysMemoryTable := (memRangeSet map.sysMemoryTable (ramEntry (-1))).2 },
      ⟨blockPtr, requiredSize⟩)

/-- `CFE_PSP_InitProcessorReservedMemory` of pc-rtems clears the block whatever the type. -/
def initProcessorReservedMemory (block : MemoryBlock w) (_restartType : Uint32)
    (mem : ℕ → UInt8) : ℕ → UInt8 :=
  zeroArea mem block.area

/-- The cursor of the layout: past an area whose size is rounded up to a multiple of 128. -/
abbrev next : ℕ → ℕ → ℕ := Layout.afterSize 7

end PcRtems

/-! ## The contract -/

/-- **What a layout owes**: the block is the `total` bytes from `base` on, the areas have the
configured sizes and are disjoint parts of the block, and a write into the CDS leaves the other
areas alone. -/
structure LayoutContract (p : Port) (cfg : CfeConfig) (rec : RecordSizes w) (base total : ℕ)
    (m : ReservedMemoryMap w) (block : MemoryBlock w) : Prop where
  block_area : block.area = ⟨base, total⟩
  area_size : ∀ i, (m.area rec i).size = areaSize cfg rec i
  disjoint : ∀ i j, i ≠ j → Disjoint (m.area rec i).bytes (m.area rec j).bytes
  inside : ∀ i, (m.area rec i).bytes ⊆ block.area.bytes
  cds_frame : ∀ mem ptr (off n : Uint32), off.toNat + n.toNat ≤ areaSize cfg rec .cds →
    ∀ i, i ≠ .cds → ∀ a ∈ (m.area rec i).bytes, (writeToCDSAt p m mem ptr off n).2 a = mem a

section Contract

variable {cfg : CfeConfig} {rec : RecordSizes w} {m : ReservedMemoryMap w} {block : MemoryBlock w}
  {p : Port} {base total : ℕ} {l : List Layout.Area}

/-- Areas that were laid out one after another in the block meet the contract. -/
lemma layoutContract_of_ordered (hl : Layout.Ordered base l (base + total))
    (hend : base + total ≤ 2 ^ w) (hm : AreaId.all.map (m.area rec) = l.map (Layout.Area.wrap w))
    (hblock : block.area = ⟨base, total⟩)
    (hsize : ∀ i, (m.area rec i).size = areaSize cfg rec i) :
    LayoutContract p cfg rec base total m block := by
  have hwrap : ∀ x ∈ l, (x.wrap w).bytes = x.bytes := by
    intro x hx
    exact Layout.Area.bytes_wrap ((hl.bounds hx).2.trans hend)
  have hdisjoint : ∀ i j, i ≠ j → Disjoint (m.area rec i).bytes (m.area rec j).bytes :=
    fun i j => ReservedMemoryMap.disjoint_of_ordered hl hwrap hm
  have hinside : ∀ i, (m.area rec i).bytes ⊆ block.area.bytes := by
    intro i a ha
    obtain ⟨x, hx, hi⟩ := exists_of_areas hm i
    rw [hi, hwrap x hx] at ha
    have hbounds := hl.bounds hx
    rw [hblock]
    exact ⟨hbounds.1.trans ha.1, ha.2.trans_le hbounds.2⟩
  refine ⟨hblock, hsize, hdisjoint, hinside, ?_⟩
  intro mem ptr off n hrange i hi a ha
  by_contra hne
  have hcds : off.toNat + n.toNat ≤ m.cdsMemory.blockSize.toNat := by
    have hcdsSize : m.cdsMemory.blockSize.toNat = areaSize cfg rec .cds := hsize .cds
    omega
  exact Set.disjoint_left.1 (hdisjoint i .cds hi) ha (mem_cds_of_writeToCDSAt_ne hcds hne)

/-- Clearing the block clears the areas. -/
lemma LayoutContract.zeroArea_eq (h : LayoutContract p cfg rec base total m block)
    (mem : ℕ → UInt8) {i : AreaId} {a : ℕ} (ha : a ∈ (m.area rec i).bytes) :
    zeroArea mem block.area a = 0 :=
  zeroArea_of_mem (h.inside i ha)

end Contract

/-! ## The two layouts meet it -/

namespace Mcp750

variable {cfg : CfeConfig} {rec : RecordSizes w} {c : ℕ}

/-- The machine moves its cursor as the layout does. -/
lemma roundUp_next (hw : 32 ≤ w) (c : ℕ) (s : BitVec w) :
    Layout.roundUp 0x1F (BitVec.ofNat w c + s) = BitVec.ofNat w (next c s.toNat) :=
  Layout.roundUp_add (k := 5) (by omega) c s

/-- The areas of the map are those the cursor places, modulo the size of the address space. -/
lemma areas_eq (hw : 32 ≤ w) :
    AreaId.all.map ((setupReservedMemoryMap (BitVec.ofNat w c) cfg rec).1.area rec) =
      (Layout.place next c (areaSizes cfg rec)).map (Layout.Area.wrap w) := by
  simp only [setupReservedMemoryMap, roundUp_next hw, AreaId.all, areaSizes, areaSize, List.map,
    ReservedMemoryMap.area, MemoryBlock.area, Layout.place_cons, Layout.place_nil,
    Layout.Area.wrap, BitVec.toNat_ofNat, toNat_setWidth hw]

/-- The block of the map, in words. -/
lemma block_eq (hw : 32 ≤ w) :
    (setupReservedMemoryMap (BitVec.ofNat w c) cfg rec).2 =
      ⟨BitVec.ofNat w c, BitVec.ofNat w (Layout.finish next c (areaSizes cfg rec)) -
        BitVec.ofNat w c⟩ := by
  simp only [setupReservedMemoryMap, roundUp_next hw, AreaId.all, areaSizes, areaSize, List.map,
    Layout.finish_cons, Layout.finish_nil, toNat_setWidth hw]

/-- **The layout of mcp750** meets the contract wherever it ends in the address space. -/
theorem layoutContract (hw : 32 ≤ w) (cfg : CfeConfig) (rec : RecordSizes w)
    (sysMemTop : BitVec w)
    (hend : Layout.finish next sysMemTop.toNat (areaSizes cfg rec) ≤ 2 ^ w)
    (htotal : Layout.finish next sysMemTop.toNat (areaSizes cfg rec) - sysMemTop.toNat < 2 ^ w) :
    LayoutContract .mcp750Vxworks cfg rec sysMemTop.toNat
      (Layout.finish next sysMemTop.toNat (areaSizes cfg rec) - sysMemTop.toNat)
      (setupReservedMemoryMap sysMemTop cfg rec).1
      (setupReservedMemoryMap sysMemTop cfg rec).2 := by
  obtain ⟨c, hc, htop⟩ : ∃ c, c < 2 ^ w ∧ sysMemTop = BitVec.ofNat w c :=
    ⟨sysMemTop.toNat, sysMemTop.isLt, by simp⟩
  have htoNat : sysMemTop.toNat = c := by rw [htop, BitVec.toNat_ofNat, Nat.mod_eq_of_lt hc]
  rw [htoNat] at hend htotal ⊢
  rw [htop]
  have hordered : Layout.Ordered c (Layout.place next c (areaSizes cfg rec))
      (Layout.finish next c (areaSizes cfg rec)) := Layout.ordered_afterAddress 5 c _
  have hfinish := Nat.add_sub_cancel' hordered.le
  refine layoutContract_of_ordered (hfinish.symm ▸ hordered) (hfinish.symm ▸ hend) (areas_eq hw)
    ?_ ?_
  · rw [block_eq hw, MemoryBlock.area, Window.toNat_ofNat_sub_ofNat hordered.le (by omega),
      BitVec.toNat_ofNat, Nat.mod_eq_of_lt hc]
  · exact area_size_of_place (areas_eq hw)

end Mcp750

namespace PcRtems

variable {cfg : CfeConfig} {rec : RecordSizes w} {fixed : FixedLayout rec} {c : ℕ}

/-- The sizes of the blocks behind the fixed structure. -/
def blockSizes (cfg : CfeConfig) (rec : RecordSizes w) : List ℕ :=
  [AreaId.reset, .volatileDisk, .cds, .userReserved].map (areaSize cfg rec)

/-- The size of the whole layout, in exact arithmetic. -/
def totalSize (cfg : CfeConfig) {rec : RecordSizes w} (fixed : FixedLayout rec) : ℕ :=
  Layout.finish next (Layout.alignUp 7 fixed.size.toNat) (blockSizes cfg rec)

/-- The areas of a layout at `c`, in exact arithmetic. -/
def layout (cfg : CfeConfig) {rec : RecordSizes w} (fixed : FixedLayout rec) (c : ℕ) :
    List Layout.Area :=
  ⟨c, rec.bootRecord.toNat⟩ ::
    ⟨c + fixed.exceptionOffset.toNat, rec.exceptionStorage.toNat⟩ ::
      Layout.place next (c + Layout.alignUp 7 fixed.size.toNat) (blockSizes cfg rec)

/-- The areas lie one after another. -/
lemma layout_ordered (c : ℕ) : Layout.Ordered c (layout cfg fixed c) (c + totalSize cfg fixed) := by
  have hboot := fixed.bootRecord_le
  have hexc := fixed.exceptionStorage_le
  have hround := Layout.le_alignUp 7 fixed.size.toNat
  refine ⟨le_rfl, Nat.add_le_add_left hboot c, ?_⟩
  rw [totalSize, ← Layout.finish_add]
  refine (Layout.ordered_afterSize 7 _ _).mono ?_
  show c + fixed.exceptionOffset.toNat + rec.exceptionStorage.toNat ≤ _
  omega

/-- The machine moves its cursor as the layout does. -/
lemma add_roundUp_next (hw : 32 ≤ w) (c : ℕ) (s : BitVec w) :
    BitVec.ofNat w c + Layout.roundUp 0x7F s = BitVec.ofNat w (next c s.toNat) :=
  Layout.add_roundUp (k := 7) (by omega) c s

/-- **The layout of pc-rtems** meets the contract wherever it ends in the address space. -/
theorem layoutContract (hw : 32 ≤ w) {malloc : BitVec w → BitVec w} {map m : ReservedMemoryMap w}
    {block : MemoryBlock w} (hsetup : setupReservedMemoryMap malloc cfg fixed map = some (m, block))
    (hend : block.blockPtr.toNat + totalSize cfg fixed ≤ 2 ^ w) :
    LayoutContract .pcRtems cfg rec block.blockPtr.toNat (totalSize cfg fixed) m block := by
  -- the size that is asked for is the size of the layout
  have hfixed : Layout.roundUp 0x7F fixed.size =
      BitVec.ofNat w (Layout.alignUp 7 fixed.size.toNat) :=
    Layout.roundUp_eq (k := 7) (by omega) fixed.size
  have hrequired : Layout.roundUp 0x7F fixed.size +
      Layout.roundUp 0x7F (cfg.resetAreaSize.setWidth w) +
      Layout.roundUp 0x7F (cfg.ramDiskSize.setWidth w) +
      Layout.roundUp 0x7F (cfg.cdsSize.setWidth w) +
      Layout.roundUp 0x7F (cfg.userReservedSize.setWidth w) =
        BitVec.ofNat w (totalSize cfg fixed) := by
    rw [hfixed, add_roundUp_next hw, add_roundUp_next hw, add_roundUp_next hw,
      add_roundUp_next hw]
    simp only [totalSize, blockSizes, List.map, Layout.finish_cons, Layout.finish_nil, areaSize,
      toNat_setWidth hw]
  simp only [setupReservedMemoryMap, hrequired] at hsetup
  split at hsetup
  · cases hsetup
  next hnull =>
    obtain ⟨c, hc, hbase⟩ : ∃ c, c < 2 ^ w ∧
        malloc (BitVec.ofNat w (totalSize cfg fixed)) = BitVec.ofNat w c :=
      ⟨(malloc (BitVec.ofNat w (totalSize cfg fixed))).toNat, BitVec.isLt _, by simp⟩
    have htoNat : (BitVec.ofNat w c).toNat = c := by rw [BitVec.toNat_ofNat, Nat.mod_eq_of_lt hc]
    rw [hbase] at hsetup hnull
    cases hsetup
    dsimp only at hend ⊢
    rw [htoNat] at hend ⊢
    have hpos : 0 < c := Nat.pos_of_ne_zero fun h => hnull (by rw [h]; rfl)
    refine layoutContract_of_ordered (layout_ordered c) hend ?_ ?_ ?_
    · have hexc : BitVec.ofNat w c + fixed.exceptionOffset =
          BitVec.ofNat w (c + fixed.exceptionOffset.toNat) := by
        rw [BitVec.ofNat_add, BitVec.ofNat_toNat, BitVec.setWidth_eq]
      simp only [hfixed, hexc, BitVec.ofNat_add_ofNat, add_roundUp_next hw, AreaId.all, layout,
        blockSizes, areaSize, List.map, ReservedMemoryMap.area, MemoryBlock.area,
        Layout.place_cons, Layout.place_nil, Layout.Area.wrap, BitVec.toNat_ofNat,
        toNat_setWidth hw]
    · rw [MemoryBlock.area, BitVec.toNat_ofNat, BitVec.toNat_ofNat, Nat.mod_eq_of_lt hc,
        Nat.mod_eq_of_lt (by omega)]
    · intro i
      cases i <;> simp only [ReservedMemoryMap.area, MemoryBlock.area, areaSize,
        toNat_setWidth hw]

end PcRtems

/-! ## Main result -/

/-- **The reserved memory of mcp750-vxworks and pc-rtems.** On both ports, whenever the layout does
not run past the end of the address space, the areas are disjoint parts of the block, a power-on
clears every byte of them (mcp750 then stores the next reset type), and a write into the CDS leaves
the other areas alone. -/
theorem reservedLayout (hw : 32 ≤ w) (cfg : CfeConfig) (rec : RecordSizes w) :
    (∀ sysMemTop : BitVec w,
      let total := Layout.finish Mcp750.next sysMemTop.toNat (areaSizes cfg rec) - sysMemTop.toNat
      let (m, block) := Mcp750.setupReservedMemoryMap sysMemTop cfg rec
      sysMemTop.toNat + total ≤ 2 ^ w → total < 2 ^ w →
        LayoutContract .mcp750Vxworks cfg rec sysMemTop.toNat total m block ∧
        ∀ endian mem, ∃ cleared : ℕ → UInt8,
          (∀ i, ∀ a ∈ (m.area rec i).bytes, cleared a = 0) ∧
          Mcp750.initProcessorReservedMemory endian m block rstTypePoweron mem =
            Words.storeWord endian cleared m.bootPtr.toNat rstTypeProcessor) ∧
    ∀ (fixed : PcRtems.FixedLayout rec) (malloc : BitVec w → BitVec w) (map m : ReservedMemoryMap w)
      (block : MemoryBlock w),
      PcRtems.setupReservedMemoryMap malloc cfg fixed map = some (m, block) →
      block.blockPtr.toNat + PcRtems.totalSize cfg fixed ≤ 2 ^ w →
        LayoutContract .pcRtems cfg rec block.blockPtr.toNat (PcRtems.totalSize cfg fixed) m
          block ∧
        ∀ mem i, ∀ a ∈ (m.area rec i).bytes,
          PcRtems.initProcessorReservedMemory block rstTypePoweron mem a = 0 := by
  constructor
  · intro sysMemTop total hend htotal
    have hfinish : sysMemTop.toNat + total =
        Layout.finish Mcp750.next sysMemTop.toNat (areaSizes cfg rec) :=
      Nat.add_sub_cancel' (Layout.ordered_afterAddress 5 _ _).le
    have hcontract := Mcp750.layoutContract hw cfg rec sysMemTop
      (hfinish ▸ hend) htotal
    refine ⟨hcontract, fun endian mem => ⟨_, fun i a => hcontract.zeroArea_eq mem, ?_⟩⟩
    exact if_pos (by decide)
  · intro fixed malloc map m block hsetup hend
    have hcontract := PcRtems.layoutContract hw hsetup hend
    exact ⟨hcontract, fun mem i a => hcontract.zeroArea_eq mem⟩

/-- A configuration with an unaligned reset area. -/
def unalignedConfig : CfeConfig := ⟨0x20000, 0x28001, 0x100000, 512, 4096⟩

/-- Records of 16 and 1000 bytes. -/
def shortRecords : RecordSizes 32 := ⟨16, 1000⟩

/-- `CFE_PSP_RtemsReservedAreaFixedLayout_t` of such records. -/
def shortFixed : PcRtems.FixedLayout shortRecords := ⟨1016, 16, by decide, by decide⟩

/-- Both ports lay a sample configuration out, from an unaligned address and on the heap. -/
theorem reservedLayout_of_sample :
    (0x1F00004 : BitVec 32).toNat +
        (Layout.finish Mcp750.next 0x1F00004 (areaSizes unalignedConfig shortRecords) - 0x1F00004) ≤
      2 ^ 32 ∧
    LayoutContract .mcp750Vxworks unalignedConfig shortRecords 0x1F00004
      (Layout.finish Mcp750.next 0x1F00004 (areaSizes unalignedConfig shortRecords) - 0x1F00004)
      (Mcp750.setupReservedMemoryMap 0x1F00004 unalignedConfig shortRecords).1
      (Mcp750.setupReservedMemoryMap 0x1F00004 unalignedConfig shortRecords).2 ∧
    ∃ m block, PcRtems.setupReservedMemoryMap (fun _ => 0x200000) unalignedConfig shortFixed
        (ReservedMemoryMap.zero memTableSize) = some (m, block) ∧
      ∀ i, (m.area shortRecords i).bytes ⊆ block.area.bytes := by
  have hsound := reservedLayout (w := 32) (by omega) unalignedConfig shortRecords
  refine ⟨by decide, (hsound.1 0x1F00004 (by decide) (by decide)).1, _, _, rfl, ?_⟩
  exact (hsound.2 shortFixed (fun _ => 0x200000) (ReservedMemoryMap.zero memTableSize) _ _ rfl
    (by decide)).1.inside

end CfePsp.Memory
