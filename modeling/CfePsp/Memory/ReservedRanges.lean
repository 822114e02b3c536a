import CfePsp.Freertos.ReservedMemory
import CfePsp.Memory.ReservedLayout

set_option relaxedAutoImplicit false
set_option autoImplicit false

/-!
# The reserved blocks as RAM

After `CFE_PSP_SetupReservedMemoryMap` the four blocks of the map are memory that may be read and
written. On pc-rtems the function ends by registering all addresses but the last one as RAM; the
function of the FreeRTOS ports registers nothing.

## Main definitions

* `CfePsp.Memory.ReservedMemoryMap.blocks` — the four blocks.
* `CfePsp.Memory.ReservedMemoryMap.ValidatedAsRam` — every part of them is accepted as RAM.

## Main results

* `CfePsp.Memory.validatedAsRam_iff` — after which set-ups this is so.
-/

namespace CfePsp.Memory

variable {w : ℕ}

namespace ReservedMemoryMap

/-- The reset area, the volatile disk, the CDS and the user-reserved area. -/
def blocks (m : ReservedMemoryMap w) : List (MemoryBlock w) :=
  [m.resetMemory, m.volatileDiskMemory, m.cdsMemory, m.userReservedMemory]

/-- The blocks end before the last address of the address space. -/
def EndsBeforeLast (m : ReservedMemoryMap w) : Prop :=
  ∀ b ∈ m.blocks, b.blockPtr.toNat + b.blockSize.toNat < 2 ^ w

instance (m : ReservedMemoryMap w) : Decidable m.EndsBeforeLast :=
  inferInstanceAs (Decidable (∀ b ∈ m.blocks, _ < _))

/-- `MemValidateRange` accepts as RAM every part of a block that is not empty. -/
def ValidatedAsRam (m : ReservedMemoryMap w) : Prop :=
  ∀ b ∈ m.blocks, ∀ address size : BitVec w, 0 < size.toNat →
    b.blockPtr.toNat ≤ address.toNat →
    address.toNat + size.toNat ≤ b.blockPtr.toNat + b.blockSize.toNat →
    memValidateRange m.sysMemoryTable address size memRam = Status.success

end ReservedMemoryMap

/-! ## pc-rtems -/

namespace PcRtems

variable {cfg : CfeConfig} {rec : RecordSizes w} {fixed : FixedLayout rec}
  {malloc : BitVec w → BitVec w} {map m : ReservedMemoryMap w} {block : MemoryBlock w}

lemma setup_sysMemoryTable (h : setupReservedMemoryMap malloc cfg fixed map = some (m, block)) :
    m.sysMemoryTable = (memRangeSet map.sysMemoryTable (ramEntry (-1))).2 := by
  simp only [setupReservedMemoryMap] at h
  split_ifs at h
  obtain ⟨rfl, -⟩ := Prod.mk.inj (Option.some.inj h)
  rfl

end PcRtems

/-- The "RAM" entry is accepted by every table that has a slot. -/
lemma accepted_ramEntry {n : ℕ} (size : BitVec w) : (ramEntry size).Accepted n ↔ 0 < n :=
  accepted_dword_readwrite (.inl rfl)

/-- With the "RAM" entry in its first slot, a table accepts every range before the last address. -/
lemma memValidateRange_ramEntry {n : ℕ} (hn : 0 < n) {address size : BitVec w}
    (hpos : 0 < size.toNat) (hend : address.toNat + size.toNat < 2 ^ w) :
    memValidateRange (memRangeSet (List.replicate n 0) (ramEntry (-1))).2 address size memRam =
      Status.success := by
  have hones : (-1 : BitVec w).toNat = 2 ^ w - 1 := by
    rw [show (-1 : BitVec w) = BitVec.allOnes w from BitVec.neg_one_eq_allOnes,
      BitVec.toNat_allOnes]
  have htest : ¬Interval.last address size < address := by
    rw [Interval.last_lt_iff, Interval.eq_zero_iff]
    omega
  have hwithin : Interval.Within address size 0 (-1) := by
    have hzero : (0 : BitVec w).toNat = 0 := by simp
    refine (Interval.within_iff htest ?_).2 (.inr ⟨hpos, ?_, ?_⟩)
    · rw [hzero, hones]
      omega
    · rw [hzero]
      exact Nat.zero_le _
    · rw [hzero, hones]
      omega
  have hmem : (ramEntry (-1 : BitVec w)).entry ∈ (List.replicate n 0).set 0 (ramEntry (-1)).entry :=
    List.mem_set (by simpa using hn) _
  have htype : memRam ≠ memInvalid := by decide
  rw [memRangeSet_of_accepted (by simpa [accepted_ramEntry] using hn)]
  exact (memValidateRange_success_iff (.inr (.inl rfl)) _).2
    ⟨htest, _, hmem, htype, hwithin, .inr rfl⟩

/-- pc-rtems registers its blocks as RAM. -/
lemma PcRtems.validatedAsRam {cfg : CfeConfig} {rec : RecordSizes w} {fixed : FixedLayout rec}
    {malloc : BitVec w → BitVec w} {m : ReservedMemoryMap w} {block : MemoryBlock w}
    (h : setupReservedMemoryMap malloc cfg fixed (ReservedMemoryMap.zero memTableSize) =
      some (m, block))
    (hend : m.EndsBeforeLast) : m.ValidatedAsRam := by
  intro b hb address size hpos hlow hhigh
  rw [setup_sysMemoryTable h]
  exact memValidateRange_ramEntry (by decide) hpos (hhigh.trans_lt (hend b hb))

/-! ## The FreeRTOS ports -/

section Freertos

variable {reservedMemorySize : Uint32} {alloc : BitVec w} {cfg : CfeConfig} {rec : RecordSizes w}
  {map : ReservedMemoryMap w}

/-- The function leaves the memory table alone. -/
lemma setup_sysMemoryTable_freertos :
    (Freertos.setupReservedMemoryMap reservedMemorySize alloc cfg rec map).2.sysMemoryTable =
      map.sysMemoryTable := by
  simp only [Freertos.setupReservedMemoryMap]
  split_ifs <;> rfl

/-- The sizes of the four blocks, in the order of their addresses. -/
def blockSizes (cfg : CfeConfig) : List Uint32 :=
  [cfg.resetAreaSize, cfg.ramDiskSize, cfg.cdsSize, cfg.userReservedSize]

/-- The blocks have the configured sizes unless the function panics. -/
lemma setup_blockSizes_freertos
    (h : (Freertos.setupReservedMemoryMap reservedMemorySize alloc cfg rec map).1 = none) :
    (Freertos.setupReservedMemoryMap reservedMemorySize alloc cfg rec map).2.blocks.map
        MemoryBlock.blockSize = (blockSizes cfg).map (BitVec.setWidth w) := by
  have hbyte : ¬0#w + 1#w ≠ 1#w := by simp
  revert h
  simp only [Freertos.setupReservedMemoryMap, BitVec.ofNat_eq_ofNat, if_neg hbyte]
  split_ifs
  · intro h
    cases h
  · intro _
    rfl

/-- A table without a slot that was filled in accepts nothing as RAM. -/
lemma memValidateRange_zero_ne {n : ℕ} {address size : BitVec w} :
    memValidateRange (List.replicate n 0) address size memRam ≠ Status.success := by
  intro h
  obtain ⟨-, e, he, -, -, hadmits⟩ := (memValidateRange_success_iff (.inr (.inl rfl)) _).1 h
  obtain rfl := List.eq_of_mem_replicate he
  have hnot : ¬Admits memRam (0 : MemTable w) := by
    show ¬(memRam = memAny ∨ memRam = (0 : Uint32))
    decide
  exact hnot hadmits

/-- The FreeRTOS ports register nothing: the blocks are accepted only if they are all empty. -/
lemma validatedAsRam_freertos_iff (hw : 32 ≤ w) {n : ℕ}
    (h : (Freertos.setupReservedMemoryMap reservedMemorySize alloc cfg rec
      (ReservedMemoryMap.zero n)).1 = none) :
    (Freertos.setupReservedMemoryMap reservedMemorySize alloc cfg rec
        (ReservedMemoryMap.zero n)).2.ValidatedAsRam ↔ ∀ s ∈ blockSizes cfg, s = 0 := by
  have hsizes := setup_blockSizes_freertos h
  constructor
  · intro hvalid s hs
    have hmem : s.setWidth w ∈ (Freertos.setupReservedMemoryMap reservedMemorySize alloc cfg rec
        (ReservedMemoryMap.zero n)).2.blocks.map MemoryBlock.blockSize :=
      hsizes ▸ List.mem_map_of_mem hs
    obtain ⟨b, hb, hsize⟩ := List.mem_map.1 hmem
    by_contra hne
    have hpos : 0 < b.blockSize.toNat := by
      rw [hsize, toNat_setWidth hw]
      exact Nat.pos_of_ne_zero fun hzero => hne ((Interval.eq_zero_iff s).2 hzero)
    have haccepted := hvalid b hb b.blockPtr b.blockSize hpos le_rfl le_rfl
    rw [setup_sysMemoryTable_freertos] at haccepted
    exact memValidateRange_zero_ne haccepted
  · intro hzero b hb address size hpos hlow hhigh
    have hmem := List.mem_map_of_mem (f := MemoryBlock.blockSize) hb
    rw [hsizes] at hmem
    obtain ⟨s, hs, hsize⟩ := List.mem_map.1 hmem
    rw [← hsize, toNat_setWidth hw, hzero s hs] at hhigh
    simp only [BitVec.ofNat_eq_ofNat, BitVec.toNat_ofNat, Nat.zero_mod] at hhigh
    omega

end Freertos

/-! ## Main result -/

/-- **The reserved blocks as RAM.** After a set-up that does not panic, from the zeroed map, and
whose blocks end before the last address, every part of the blocks is accepted as RAM: always on
pc-rtems, and on the FreeRTOS ports exactly when all four blocks were configured to be empty.

**Proof sketch.** The entry of pc-rtems contains every range before the last address; the table of
the FreeRTOS ports keeps its zeros, and the type of a zeroed slot is none that is asked for. -/
theorem validatedAsRam_iff (hw : 32 ≤ w) (cfg : CfeConfig) (rec : RecordSizes w) :
    (∀ (fixed : PcRtems.FixedLayout rec) (malloc : BitVec w → BitVec w) (m : ReservedMemoryMap w)
      (block : MemoryBlock w),
      PcRtems.setupReservedMemoryMap malloc cfg fixed (ReservedMemoryMap.zero memTableSize) =
        some (m, block) → m.EndsBeforeLast → m.ValidatedAsRam) ∧
    ∀ (reservedMemorySize : Uint32) (alloc : BitVec w),
      let (panic, m) := Freertos.setupReservedMemoryMap reservedMemorySize alloc cfg rec
        (ReservedMemoryMap.zero Freertos.memTableSize)
      panic = none → m.EndsBeforeLast → (m.ValidatedAsRam ↔ ∀ s ∈ blockSizes cfg, s = 0) :=
  ⟨fun _ _ _ _ hsetup hend => PcRtems.validatedAsRam hsetup hend,
    fun _ _ hnone _ => validatedAsRam_freertos_iff hw hnone⟩

/-- A sample configuration on pc-rtems, and empty blocks on a FreeRTOS port. -/
theorem validatedAsRam_of_sample :
    (∃ m block, PcRtems.setupReservedMemoryMap (fun _ => 0x200000) unalignedConfig shortFixed
      (ReservedMemoryMap.zero memTableSize) = some (m, block) ∧ m.ValidatedAsRam) ∧
    (Freertos.setupReservedMemoryMap 0x27000 0x80000000 ⟨0, 0, 0, 512, 0⟩ shortRecords
      (ReservedMemoryMap.zero Freertos.memTableSize)).2.ValidatedAsRam := by
  refine ⟨⟨_, _, rfl, ?_⟩, ?_⟩
  · exact (validatedAsRam_iff (by decide) unalignedConfig shortRecords).1 shortFixed
      (fun _ => 0x200000) _ _ rfl (by decide)
  · exact ((validatedAsRam_iff (by decide) ⟨0, 0, 0, 512, 0⟩ shortRecords).2 0x27000 0x80000000
      (by decide) (by decide)).2 (by simp [blockSizes, CfeConfig.ramDiskSize])

/-- A sample configuration on a FreeRTOS port: the whole reset area is refused. -/
theorem not_validatedAsRam_freertos :
    (Freertos.setupReservedMemoryMap 0x27000 0x80000000 Freertos.sampleConfig
        Freertos.sampleRecords (ReservedMemoryMap.zero Freertos.memTableSize)).1 = none ∧
      (Freertos.setupReservedMemoryMap 0x27000 0x80000000 Freertos.sampleConfig
        Freertos.sampleRecords (ReservedMemoryMap.zero Freertos.memTableSize)).2.EndsBeforeLast ∧
      ¬(Freertos.setupReservedMemoryMap 0x27000 0x80000000 Freertos.sampleConfig
        Freertos.sampleRecords
        (ReservedMemoryMap.zero Freertos.memTableSize)).2.ValidatedAsRam := by
  have hnone : (Freertos.setupReservedMemoryMap 0x27000 0x80000000 Freertos.sampleConfig
      Freertos.sampleRecords (ReservedMemoryMap.zero Freertos.memTableSize)).1 = none := by decide
  refine ⟨hnone, by decide, fun h => ?_⟩
  have hzero := (validatedAsRam_freertos_iff (by decide) hnone).1 h
  have hreset : (0x8000 : Uint32) = 0 := hzero 0x8000 (by decide)
  exact absurd hreset (by decide)

end CfePsp.Memory
