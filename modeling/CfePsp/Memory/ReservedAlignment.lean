import CfePsp.Memory.ReservedRanges

set_option relaxedAutoImplicit false
set_option autoImplicit false

/-!
# The alignment of the reserved blocks

`CFE_PSP_MEMALIGN_MASK` is a mask to be applied to the base address of each reserved block. mcp750
applies it to the addresses, pc-rtems and the FreeRTOS ports to the sizes only, so that there the
blocks are as well aligned as the memory that is divided.

## Main definitions

* `CfePsp.Memory.ReservedMemoryMap.AlignedBy` — the blocks start at multiples of `mask + 1`.

## Main results

* `CfePsp.Memory.alignedBy_iff` — for which base addresses this is so on the three ports.
-/

namespace CfePsp.Memory

variable {w : ℕ}

/-- The reset area, the volatile disk, the CDS and the user-reserved area start at multiples of
`mask + 1`. -/
def ReservedMemoryMap.AlignedBy (mask : ℕ) (m : ReservedMemoryMap w) : Prop :=
  ∀ b ∈ m.blocks, mask + 1 ∣ b.blockPtr.toNat

instance (mask : ℕ) (m : ReservedMemoryMap w) : Decidable (m.AlignedBy mask) :=
  inferInstanceAs (Decidable (∀ b ∈ m.blocks, _ ∣ _))

lemma ReservedMemoryMap.alignedBy_iff_blocks {mask : ℕ} {m : ReservedMemoryMap w} :
    m.AlignedBy mask ↔
      mask + 1 ∣ m.resetMemory.blockPtr.toNat ∧ mask + 1 ∣ m.volatileDiskMemory.blockPtr.toNat ∧
      mask + 1 ∣ m.cdsMemory.blockPtr.toNat ∧ mask + 1 ∣ m.userReservedMemory.blockPtr.toNat := by
  simp [AlignedBy, blocks]

section Ports

variable {cfg : CfeConfig} {rec : RecordSizes w}

/-- On mcp750 every address of a block was rounded up. -/
lemma Mcp750.alignedBy (hw : 32 ≤ w) (sysMemTop : BitVec w) :
    (Mcp750.setupReservedMemoryMap sysMemTop cfg rec).1.AlignedBy 0x1F := by
  have hround : ∀ x : BitVec w, 0x1F + 1 ∣ (Layout.roundUp 0x1F x).toNat :=
    Layout.dvd_toNat_roundUp (k := 5) (by omega)
  exact ReservedMemoryMap.alignedBy_iff_blocks.2
    ⟨hround _, hround _, hround _, hround _⟩

/-- On pc-rtems the blocks are as well aligned as what `malloc` returns. -/
lemma PcRtems.alignedBy_malloc_iff (hw : 32 ≤ w) {fixed : FixedLayout rec} {base : BitVec w}
    {map m : ReservedMemoryMap w} {block : MemoryBlock w}
    (h : setupReservedMemoryMap (fun _ => base) cfg fixed map = some (m, block)) :
    m.AlignedBy 0x7F ↔ 0x7F + 1 ∣ base.toNat := by
  have hround : ∀ x s : BitVec w,
      0x7F + 1 ∣ (x + Layout.roundUp 0x7F s).toNat ↔ 0x7F + 1 ∣ x.toNat :=
    Layout.dvd_toNat_add_roundUp_iff (k := 7) (by omega)
  simp only [setupReservedMemoryMap] at h
  split_ifs at h
  obtain ⟨rfl, -⟩ := Prod.mk.inj (Option.some.inj h)
  simp only [ReservedMemoryMap.alignedBy_iff_blocks, hround, and_self]

/-- On the FreeRTOS ports they are as well aligned as the array. -/
lemma alignedBy_freertos_iff (hw : 32 ≤ w) {reservedMemorySize : Uint32} {alloc : BitVec w}
    {map : ReservedMemoryMap w}
    (h : (Freertos.setupReservedMemoryMap reservedMemorySize alloc cfg rec map).1 = none) :
    (Freertos.setupReservedMemoryMap reservedMemorySize alloc cfg rec map).2.AlignedBy 0x3F ↔
      0x3F + 1 ∣ alloc.toNat := by
  have hround : ∀ x s : BitVec w,
      0x3F + 1 ∣ (x + Layout.roundUp 63#w s).toNat ↔ 0x3F + 1 ∣ x.toNat :=
    Layout.dvd_toNat_add_roundUp_iff (k := 6) (by omega)
  have hbyte : ¬0#w + 1#w ≠ 1#w := by simp
  revert h
  simp only [Freertos.setupReservedMemoryMap, BitVec.ofNat_eq_ofNat, if_neg hbyte]
  split_ifs
  · intro h
    cases h
  · intro _
    simp only [ReservedMemoryMap.alignedBy_iff_blocks, hround, and_self]

end Ports

/-- **The alignment of the reserved blocks.** For all configured sizes, and also where addresses
come round, the blocks start at multiples of `CFE_PSP_MEMALIGN_MASK + 1` always on mcp750; on
pc-rtems exactly when the address that `malloc` returns is such a multiple; and on the FreeRTOS
ports, after a set-up that does not panic, exactly when the address of `pspReservedMemoryAlloc`
is. -/
theorem alignedBy_iff (hw : 32 ≤ w) (cfg : CfeConfig) (rec : RecordSizes w) :
    (∀ sysMemTop : BitVec w,
      (Mcp750.setupReservedMemoryMap sysMemTop cfg rec).1.AlignedBy 0x1F) ∧
    (∀ (fixed : PcRtems.FixedLayout rec) (base : BitVec w) (map m : ReservedMemoryMap w)
      (block : MemoryBlock w),
      PcRtems.setupReservedMemoryMap (fun _ => base) cfg fixed map = some (m, block) →
        (m.AlignedBy 0x7F ↔ 0x7F + 1 ∣ base.toNat)) ∧
    ∀ (reservedMemorySize : Uint32) (alloc : BitVec w) (map : ReservedMemoryMap w),
      let (panic, m) := Freertos.setupReservedMemoryMap reservedMemorySize alloc cfg rec map
      panic = none → (m.AlignedBy 0x3F ↔ 0x3F + 1 ∣ alloc.toNat) :=
  ⟨Mcp750.alignedBy hw, fun _ _ _ _ _ hsetup => PcRtems.alignedBy_malloc_iff hw hsetup,
    fun _ _ _ hnone => alignedBy_freertos_iff hw hnone⟩

/-- Blocks of memory that starts at a multiple of 128 or 64. -/
theorem alignedBy_of_sample :
    (∃ m block, PcRtems.setupReservedMemoryMap (fun _ => 0x200000) unalignedConfig shortFixed
      (ReservedMemoryMap.zero memTableSize) = some (m, block) ∧ m.AlignedBy 0x7F) ∧
    (Freertos.setupReservedMemoryMap 0x27000 0x80000000 Freertos.sampleConfig
      Freertos.sampleRecords (ReservedMemoryMap.zero Freertos.memTableSize)).2.AlignedBy 0x3F := by
  refine ⟨⟨_, _, rfl, ?_⟩, ?_⟩
  · exact ((alignedBy_iff (by decide) unalignedConfig shortRecords).2.1 shortFixed 0x200000
      (ReservedMemoryMap.zero memTableSize) _ _ rfl).2 (by decide)
  · exact ((alignedBy_iff (by decide) Freertos.sampleConfig Freertos.sampleRecords).2.2 0x27000
      0x80000000 (ReservedMemoryMap.zero Freertos.memTableSize) (by decide)).2 (by decide)

/-- Memory that starts at a multiple of 8 only: on neither port are the blocks aligned. -/
theorem not_alignedBy_eight :
    (8 ∣ (0x200008 : BitVec 32).toNat ∧
      ∃ m block, PcRtems.setupReservedMemoryMap (fun _ => 0x200008) unalignedConfig shortFixed
        (ReservedMemoryMap.zero memTableSize) = some (m, block) ∧ m.EndsBeforeLast ∧
          ¬m.AlignedBy 0x7F) ∧
    8 ∣ (0x80000008 : BitVec 64).toNat ∧
      (Freertos.setupReservedMemoryMap 0x27000 0x80000008 Freertos.sampleConfig
        Freertos.sampleRecords (ReservedMemoryMap.zero Freertos.memTableSize)).1 = none ∧
      (Freertos.setupReservedMemoryMap 0x27000 0x80000008 Freertos.sampleConfig
        Freertos.sampleRecords
        (ReservedMemoryMap.zero Freertos.memTableSize)).2.EndsBeforeLast ∧
      ¬(Freertos.setupReservedMemoryMap 0x27000 0x80000008 Freertos.sampleConfig
        Freertos.sampleRecords
        (ReservedMemoryMap.zero Freertos.memTableSize)).2.AlignedBy 0x3F :=
  ⟨⟨by decide, _, _, rfl, by decide, by decide⟩, by decide, by decide, by decide, by decide⟩

end CfePsp.Memory
