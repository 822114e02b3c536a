import Mathlib.Data.List.Pairwise
import CfePsp.Lib.Layout
import CfePsp.Memory.Cds
import CfePsp.Memory.Range

set_option relaxedAutoImplicit false
set_option autoImplicit false

/-!
# The map of the reserved memory

`CFE_PSP_ReservedMemoryMap` points to the memory that outlives a reset: the boot record, the storage
of the exceptions, and four blocks whose sizes are configured. Each port computes the map in its own
way; here is what the maps have in common.

## Main definitions

* `CfePsp.Memory.ReservedMemoryMap`, `CfePsp.Memory.MemoryBlock` — the map and its blocks.
* `CfePsp.Memory.CfeConfig`, `CfePsp.Memory.RecordSizes` — the sizes a port is built with.
* `CfePsp.Memory.ReservedMemoryMap.area` — the addresses of an area of the map.

## Main results

* `CfePsp.Memory.ReservedMemoryMap.disjoint_of_ordered` — areas that were laid out one after
  another do not overlap.
-/

namespace CfePsp.Memory

variable {w : ℕ}

/-! ## The map (`cfe_psp_memory.h`) -/

/-- `CFE_PSP_MemoryBlock_t`. -/
@[ext]
structure MemoryBlock (w : ℕ) where
  blockPtr : BitVec w
  blockSize : BitVec w
  deriving DecidableEq

/-- `CFE_PSP_ReservedMemoryMap_t`. -/
@[ext]
structure ReservedMemoryMap (w : ℕ) where
  bootPtr : BitVec w
  exceptionStoragePtr : BitVec w
  resetMemory : MemoryBlock w
  volatileDiskMemory : MemoryBlock w
  cdsMemory : MemoryBlock w
  userReservedMemory : MemoryBlock w
  sysMemoryTable : List (MemTable w)
  deriving DecidableEq

/-- The zero-initialised map, with a table of `n` slots. -/
def ReservedMemoryMap.zero (n : ℕ) : ReservedMemoryMap w :=
  ⟨0, 0, ⟨0, 0⟩, ⟨0, 0⟩, ⟨0, 0⟩, ⟨0, 0⟩, List.replicate n 0⟩

/-- The sizes in `GLOBAL_CONFIGDATA.CfeConfig`. -/
structure CfeConfig where
  cdsSize : Uint32
  resetAreaSize : Uint32
  userReservedSize : Uint32
  ramDiskSectorSize : Uint32
  ramDiskTotalSectors : Uint32
  deriving DecidableEq

/-- The size of the volatile disk, a product of two 32-bit words. -/
def CfeConfig.ramDiskSize (cfg : CfeConfig) : Uint32 :=
  cfg.ramDiskSectorSize * cfg.ramDiskTotalSectors

/-- `sizeof(CFE_PSP_ReservedMemoryBootRecord_t)` and `sizeof(CFE_PSP_ExceptionStorage_t)`. -/
structure RecordSizes (w : ℕ) where
  bootRecord : BitVec w
  exceptionStorage : BitVec w
  deriving DecidableEq

/-! ## The areas -/

/-- The areas of the map, in the order of their addresses. -/
inductive AreaId
  | bootRecord
  | exceptionStorage
  | reset
  | volatileDisk
  | cds
  | userReserved
  deriving DecidableEq

/-- All areas, in the order of their addresses. -/
def AreaId.all : List AreaId :=
  [.bootRecord, .exceptionStorage, .reset, .volatileDisk, .cds, .userReserved]

lemma AreaId.mem_all (i : AreaId) : i ∈ AreaId.all := by
  cases i <;> decide

/-- The memory of a block. -/
def MemoryBlock.area (b : MemoryBlock w) : Layout.Area := ⟨b.blockPtr.toNat, b.blockSize.toNat⟩

/-- The memory of an area of the map: the records are as large as their types. -/
def ReservedMemoryMap.area (m : ReservedMemoryMap w) (rec : RecordSizes w) :
    AreaId → Layout.Area
  | .bootRecord => ⟨m.bootPtr.toNat, rec.bootRecord.toNat⟩
  | .exceptionStorage => ⟨m.exceptionStoragePtr.toNat, rec.exceptionStorage.toNat⟩
  | .reset => m.resetMemory.area
  | .volatileDisk => m.volatileDiskMemory.area
  | .cds => m.cdsMemory.area
  | .userReserved => m.userReservedMemory.area

/-- The size of an area as the port computes it. -/
def areaSize (cfg : CfeConfig) (rec : RecordSizes w) : AreaId → ℕ
  | .bootRecord => rec.bootRecord.toNat
  | .exceptionStorage => rec.exceptionStorage.toNat
  | .reset => cfg.resetAreaSize.toNat
  | .volatileDisk => cfg.ramDiskSize.toNat
  | .cds => cfg.cdsSize.toNat
  | .userReserved => cfg.userReservedSize.toNat

/-- The sizes of the areas, in the order of their addresses. -/
def areaSizes (cfg : CfeConfig) (rec : RecordSizes w) : List ℕ :=
  AreaId.all.map (areaSize cfg rec)

/-- A configured size is the same number as a `size_t`. -/
lemma toNat_setWidth (hw : 32 ≤ w) (x : Uint32) : (x.setWidth w).toNat = x.toNat :=
  BitVec.toNat_setWidth_of_le hw

section Areas

variable {m : ReservedMemoryMap w} {rec : RecordSizes w} {base e : ℕ} {l : List Layout.Area}

/-- What holds of any two areas at different places of the list holds of any two different
areas. -/
lemma forall_ne_of_pairwise {R : Layout.Area → Layout.Area → Prop} (hsymm : Std.Symm R)
    (h : (AreaId.all.map (m.area rec)).Pairwise R) {i j : AreaId} (hij : i ≠ j) :
    R (m.area rec i) (m.area rec j) := by
  rw [List.pairwise_map] at h
  have hareas : Std.Symm fun i j => R (m.area rec i) (m.area rec j) :=
    ⟨fun _ _ => hsymm.symm _ _⟩
  exact h.forall i.mem_all j.mem_all hij

/-- What holds of any two different areas holds along the list. -/
lemma pairwise_of_forall_ne {R : Layout.Area → Layout.Area → Prop}
    (h : ∀ i j, i ≠ j → R (m.area rec i) (m.area rec j)) :
    (AreaId.all.map (m.area rec)).Pairwise R := by
  have hnodup : AreaId.all.Pairwise (· ≠ ·) := by decide
  rw [List.pairwise_map]
  exact hnodup.imp (h _ _)

/-- Every area of the map is one of those that were laid out. -/
lemma exists_of_areas (hm : AreaId.all.map (m.area rec) = l.map (Layout.Area.wrap w))
    (i : AreaId) : ∃ x ∈ l, m.area rec i = x.wrap w := by
  have hi : m.area rec i ∈ l.map (Layout.Area.wrap w) := by
    rw [← hm]
    exact List.mem_map_of_mem i.mem_all
  obtain ⟨x, hx, hxi⟩ := List.mem_map.1 hi
  exact ⟨x, hx, hxi.symm⟩

/-- The areas of the map have the sizes they were laid out with. -/
lemma area_size_of_place {next : ℕ → ℕ → ℕ} {c : ℕ} {cfg : CfeConfig}
    (hm : AreaId.all.map (m.area rec) =
      (Layout.place next c (areaSizes cfg rec)).map (Layout.Area.wrap w)) (i : AreaId) :
    (m.area rec i).size = areaSize cfg rec i := by
  have hsizes : AreaId.all.map (fun i => (m.area rec i).size) = areaSizes cfg rec := by
    have hmap := congrArg (List.map Layout.Area.size) hm
    rw [List.map_map, List.map_map] at hmap
    exact hmap.trans (Layout.map_size_place c _)
  exact List.map_inj_left.1 hsizes i i.mem_all

/-- **Areas that were laid out one after another** do not overlap, if the machine has them where
they were laid out. -/
lemma ReservedMemoryMap.disjoint_of_ordered (hl : Layout.Ordered base l e)
    (hwrap : ∀ x ∈ l, (x.wrap w).bytes = x.bytes)
    (hm : AreaId.all.map (m.area rec) = l.map (Layout.Area.wrap w)) {i j : AreaId} (hij : i ≠ j) :
    Disjoint (m.area rec i).bytes (m.area rec j).bytes := by
  refine forall_ne_of_pairwise (R := fun x y => Disjoint x.bytes y.bytes)
    ⟨fun _ _ h => h.symm⟩ ?_ hij
  rw [hm, List.pairwise_map]
  refine hl.pairwise.imp_of_mem fun hx hy h => ?_
  rwa [hwrap _ hx, hwrap _ hy]

end Areas

/-! ## Access to the areas -/

/-- `memset` of an area to zero. -/
def zeroArea (mem : ℕ → UInt8) (x : Layout.Area) : ℕ → UInt8 :=
  Cells.overlay mem (fun _ => 0) x.start x.size

/-- `CFE_PSP_WriteToCDS` on the memory, by addresses: the CDS starts at `CDSMemory.BlockPtr`. -/
def writeToCDSAt (p : Port) (m : ReservedMemoryMap w) (mem : ℕ → UInt8)
    (ptrToDataToWrite : Option (ℕ → UInt8)) (cdsOffset numBytes : Uint32) : ℤ × (ℕ → UInt8) :=
  let start := m.cdsMemory.blockPtr.toNat
  let (ret, cds) := writeToCDS p m.cdsMemory.blockSize.toNat (fun i => mem (start + i))
    ptrToDataToWrite cdsOffset numBytes
  (ret, fun a => if start ≤ a then cds (a - start) else mem a)

section Access

variable {p : Port} {m : ReservedMemoryMap w} {rec : RecordSizes w} {mem : ℕ → UInt8}
  {ptr : Option (ℕ → UInt8)} {off n : Uint32} {x : Layout.Area} {a : ℕ}

lemma zeroArea_of_mem (h : a ∈ x.bytes) : zeroArea mem x a = 0 :=
  Cells.overlay_of_mem h

lemma zeroArea_of_notMem (h : a ∉ x.bytes) : zeroArea mem x a = mem a :=
  Cells.overlay_of_notMem h

/-- A write whose range lies inside the CDS changes bytes of the CDS only. -/
lemma mem_cds_of_writeToCDSAt_ne
    (hrange : off.toNat + n.toNat ≤ m.cdsMemory.blockSize.toNat)
    (hne : (writeToCDSAt p m mem ptr off n).2 a ≠ mem a) : a ∈ (m.area rec .cds).bytes := by
  unfold writeToCDSAt at hne
  by_cases hstart : m.cdsMemory.blockPtr.toNat ≤ a
  · simp only [hstart, if_true] at hne
    have hback : m.cdsMemory.blockPtr.toNat + (a - m.cdsMemory.blockPtr.toNat) = a := by omega
    cases ptr with
    | none => exact absurd (congrArg mem hback) hne
    | some data =>
      by_cases hok : RangeOk m.cdsMemory.blockSize.toNat off n
      · rw [writeToCDS_of_ok hok] at hne
        dsimp only at hne
        have hmem : off.toNat ≤ a - m.cdsMemory.blockPtr.toNat ∧
            a - m.cdsMemory.blockPtr.toNat < off.toNat + n.toNat := by
          by_contra hout
          rw [Cells.overlay_of_notMem hout, hback] at hne
          exact hne rfl
        show m.cdsMemory.blockPtr.toNat ≤ a ∧
          a < m.cdsMemory.blockPtr.toNat + m.cdsMemory.blockSize.toNat
        omega
      · rw [writeToCDS_of_not_ok hok] at hne
        exact absurd (congrArg mem hback) hne
  · simp only [hstart, if_false] at hne
    exact absurd rfl hne

end Access

end CfePsp.Memory
