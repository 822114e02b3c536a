import CfePsp.Memory.ReservedMap

set_option relaxedAutoImplicit false
set_option autoImplicit false

/-!
# The reserved memory of the FreeRTOS ports

`CFE_PSP_SetupReservedMemoryMap` divides a static array into the areas of the map, after it compared
the required size with the size of the array. The required size is computed in words of the size of
an address, the size of the volatile disk in 32 bits, and the comparison takes the low 32 bits.

## Main definitions

* `CfePsp.Freertos.setupReservedMemoryMap` — the function.
* `CfePsp.Freertos.CheckSound` — it panics, or sets the areas up inside the array.
* `CfePsp.Freertos.Fits` — the configuration fits into the array, in exact arithmetic.

## Main results

* `CfePsp.Freertos.setupReservedMemoryMap_sound_iff` — the check is sound exactly for the
  configurations that fit or whose required size is refused in its low 32 bits.
-/

namespace CfePsp.Freertos

open Memory

variable {w : ℕ}

/-! ## The function -/

/-- `CFE_PSP_MEM_TABLE_SIZE`. -/
def memTableSize : ℕ := 2

/-- `CFE_PSP_PANIC_MEMORY_ALLOC`. -/
def panicMemoryAlloc : ℤ := 3

/-- `CFE_PSP_SetupReservedMemoryMap`: the code of a panic, if there is one, and the map. The array
`pspReservedMemoryAlloc` has `reservedMemorySize` bytes, `CFE_PSP_RESERVED_MEMORY_SIZE`. -/
def setupReservedMemoryMap (reservedMemorySize : Uint32) (pspReservedMemoryAlloc : BitVec w)
    (cfg : CfeConfig) (rec : RecordSizes w) (map : ReservedMemoryMap w) :
    Option ℤ × ReservedMemoryMap w :=
  -- a `cpuaddr` has to count bytes
  if (0 : BitVec w) + 1 ≠ 1 then (none, map)
  else
    let bootRecordSize := Layout.roundUp 0x3F rec.bootRecord
    let excRecordSize := Layout.roundUp 0x3F rec.exceptionStorage
    let resetSize := Layout.roundUp 0x3F (cfg.resetAreaSize.setWidth w)
    let cdsSize := Layout.roundUp 0x3F (cfg.cdsSize.setWidth w)
    let volatileDiskSize := Layout.roundUp 0x3F (cfg.ramDiskSize.setWidth w)
    let userReservedSize := Layout.roundUp 0x3F (cfg.userReservedSize.setWidth w)
    let requiredSize := 0 + bootRecordSize + excRecordSize + resetSize + volatileDiskSize +
      cdsSize + userReservedSize
    if reservedMemorySize < requiredSize.setWidth 32 then (some panicMemoryAlloc, map)
    else
      let reservedMemoryAddr := pspReservedMemoryAlloc
      let bootPtr := reservedMemoryAddr
      let reservedMemoryAddr := reservedMemoryAddr + bootRecordSize
      let exceptionStoragePtr := reservedMemoryAddr
      let reservedMemoryAddr := reservedMemoryAddr + excRecordSize
      let resetMemory := ⟨reservedMemoryAddr, cfg.resetAreaSize.setWidth w⟩
      let reservedMemoryAddr := reservedMemoryAddr + resetSize
      let volatileDiskMemory := ⟨reservedMemoryAddr, cfg.ramDiskSize.setWidth w⟩
      let reservedMemoryAddr := reservedMemoryAddr + volatileDiskSize
      let cdsMemory := ⟨reservedMemoryAddr, cfg.cdsSize.setWidth w⟩
      let reservedMemoryAddr := reservedMemoryAddr + cdsSize
      let userReservedMemory := ⟨reservedMemoryAddr, cfg.userReservedSize.setWidth w⟩
      (none, { map with
        bootPtr, exceptionStoragePtr, resetMemory, volatileDiskMemory, cdsMemory
        userReservedMemory })

/-! ## What the check is for -/

/-- The full size of an area: the volatile disk has all sectors that were configured. -/
def configuredSize (cfg : CfeConfig) (rec : RecordSizes w) : AreaId → ℕ
  | .volatileDisk => cfg.ramDiskSectorSize.toNat * cfg.ramDiskTotalSectors.toNat
  | i => areaSize cfg rec i

/-- The areas of the map lie in the array, apart from each other, with their full sizes. -/
structure MapSound (size : Uint32) (alloc : BitVec w) (cfg : CfeConfig) (rec : RecordSizes w)
    (m : ReservedMemoryMap w) : Prop where
  inside : ∀ i, (m.area rec i).bytes ⊆ (⟨alloc.toNat, size.toNat⟩ : Layout.Area).bytes
  disjoint : ∀ i j, i ≠ j → Disjoint (m.area rec i).bytes (m.area rec j).bytes
  area_size : ∀ i, (m.area rec i).size = configuredSize cfg rec i

/-- The function panics and leaves the map alone, or it sets up a sound map. -/
def CheckSound (size : Uint32) (alloc : BitVec w) (cfg : CfeConfig) (rec : RecordSizes w)
    (map : ReservedMemoryMap w) : Prop :=
  setupReservedMemoryMap size alloc cfg rec map = (some panicMemoryAlloc, map) ∨
    (setupReservedMemoryMap size alloc cfg rec map).1 = none ∧
      MapSound size alloc cfg rec (setupReservedMemoryMap size alloc cfg rec map).2

/-- The cursor of the layout: past an area whose size is rounded up to a multiple of 64. -/
abbrev next : ℕ → ℕ → ℕ := Layout.afterSize 6

/-- The required size, in exact arithmetic but for the size of the volatile disk. -/
def totalSize (cfg : CfeConfig) (rec : RecordSizes w) : ℕ :=
  Layout.finish next 0 (areaSizes cfg rec)

/-- The configuration fits into `size` bytes, in exact arithmetic: the size of the volatile disk is
a 32-bit number, and the areas that have any bytes end in the array. -/
def Fits (size : Uint32) (cfg : CfeConfig) (rec : RecordSizes w) : Prop :=
  cfg.ramDiskSectorSize.toNat * cfg.ramDiskTotalSectors.toNat < 2 ^ 32 ∧
    ∀ x ∈ Layout.place next 0 (areaSizes cfg rec), 0 < x.size → x.start + x.size ≤ size.toNat

/-! ## The function in exact numbers -/

section Exact

variable {size : Uint32}

/-- The machine moves its cursor as the layout does. -/
lemma add_roundUp_next (hw : 32 ≤ w) (c : ℕ) (s : BitVec w) :
    BitVec.ofNat w c + Layout.roundUp 63#w s = BitVec.ofNat w (next c s.toNat) :=
  Layout.add_roundUp (k := 6) (by omega) c s

/-- The low 32 bits of a word that was computed modulo the size of an address. -/
lemma setWidth_lt_iff (hw : 32 ≤ w) (n : ℕ) :
    size < (BitVec.ofNat w n).setWidth 32 ↔ size.toNat < n % 2 ^ 32 := by
  rw [BitVec.lt_def, BitVec.toNat_setWidth, BitVec.toNat_ofNat,
    Nat.mod_mod_of_dvd _ (Nat.pow_dvd_pow 2 hw)]

/-- **What the function does**: it refuses the configurations whose required size is too large in
its low 32 bits, and lays out the others. -/
lemma setup_cases (hw : 32 ≤ w) (size : Uint32) (cfg : CfeConfig) (rec : RecordSizes w)
    (map : ReservedMemoryMap w) (c : ℕ) :
    size.toNat < totalSize cfg rec % 2 ^ 32 ∧
        setupReservedMemoryMap size (BitVec.ofNat w c) cfg rec map =
          (some panicMemoryAlloc, map) ∨
      ¬size.toNat < totalSize cfg rec % 2 ^ 32 ∧
        (setupReservedMemoryMap size (BitVec.ofNat w c) cfg rec map).1 = none ∧
        AreaId.all.map ((setupReservedMemoryMap size (BitVec.ofNat w c) cfg rec map).2.area rec) =
          (Layout.place next c (areaSizes cfg rec)).map (Layout.Area.wrap w) := by
  have hbyte : ¬0#w + 1#w ≠ 1#w := by simp
  simp only [setupReservedMemoryMap, BitVec.ofNat_eq_ofNat, add_roundUp_next hw, if_neg hbyte,
    setWidth_lt_iff hw]
  by_cases hlt : size.toNat < totalSize cfg rec % 2 ^ 32
  · refine .inl ⟨hlt, ?_⟩
    simp only [totalSize, areaSizes, AreaId.all, List.map, areaSize, Layout.finish_cons,
      Layout.finish_nil] at hlt
    simp only [toNat_setWidth hw, if_pos hlt]
  · refine .inr ⟨hlt, ?_⟩
    simp only [totalSize, areaSizes, AreaId.all, List.map, areaSize, Layout.finish_cons,
      Layout.finish_nil] at hlt
    simp only [toNat_setWidth hw, if_neg hlt, areaSizes, AreaId.all, List.map, areaSize,
      ReservedMemoryMap.area, MemoryBlock.area, Layout.place_cons, Layout.place_nil,
      Layout.Area.wrap, BitVec.toNat_ofNat, and_self]

end Exact

/-! ## Soundness -/

section Sound

variable {size : Uint32} {alloc : BitVec w} {cfg : CfeConfig} {rec : RecordSizes w}
  {m : ReservedMemoryMap w}

/-- The areas of the map are those of the layout from zero on, moved to the array. -/
lemma place_shift (c : ℕ) : Layout.place next c (areaSizes cfg rec) =
    (Layout.place next 0 (areaSizes cfg rec)).map (Layout.Area.shift c) :=
  Layout.place_add c 0 _

/-- The full sizes are those the function computes, when the disk has a 32-bit size. -/
lemma areaSize_eq_configuredSize
    (hdisk : cfg.ramDiskSectorSize.toNat * cfg.ramDiskTotalSectors.toNat < 2 ^ 32) (i : AreaId) :
    areaSize cfg rec i = configuredSize cfg rec i := by
  cases i with
  | volatileDisk =>
    show (cfg.ramDiskSectorSize * cfg.ramDiskTotalSectors).toNat = _
    rw [BitVec.toNat_mul, Nat.mod_eq_of_lt hdisk]
    rfl
  | _ => rfl

/-- A configuration that fits is laid out soundly. -/
lemma mapSound_of_fits (hspace : alloc.toNat + size.toNat ≤ 2 ^ w) (hfits : Fits size cfg rec)
    (hm : AreaId.all.map (m.area rec) =
      (Layout.place next alloc.toNat (areaSizes cfg rec)).map (Layout.Area.wrap w)) :
    MapSound size alloc cfg rec m := by
  have hordered := Layout.ordered_afterSize 6 alloc.toNat (areaSizes cfg rec)
  -- what has bytes ends in the array, so the machine has it where it was laid out
  have hend : ∀ x ∈ Layout.place next alloc.toNat (areaSizes cfg rec), 0 < x.size →
      alloc.toNat ≤ x.start ∧ x.start + x.size ≤ alloc.toNat + size.toNat := by
    intro x hx hpos
    rw [place_shift] at hx
    obtain ⟨y, hy, rfl⟩ := List.mem_map.1 hx
    have hfit := hfits.2 y hy hpos
    simp only [Layout.Area.shift]
    omega
  have hwrap : ∀ x ∈ Layout.place next alloc.toNat (areaSizes cfg rec),
      (x.wrap w).bytes = x.bytes := by
    intro x hx
    rcases Nat.eq_zero_or_pos x.size with hzero | hpos
    · rw [Layout.Area.bytes_of_size_zero hzero]
      exact Layout.Area.bytes_of_size_zero hzero
    · exact Layout.Area.bytes_wrap ((hend x hx hpos).2.trans hspace)
  refine ⟨?_, fun i j => ReservedMemoryMap.disjoint_of_ordered hordered hwrap hm, ?_⟩
  · intro i a ha
    obtain ⟨x, hx, hi⟩ := exists_of_areas hm i
    rw [hi, hwrap x hx] at ha
    have hpos : 0 < x.size := by
      have hbytes := Layout.Area.mem_bytes.1 ha
      omega
    have hbounds := hend x hx hpos
    exact ⟨hbounds.1.trans ha.1, ha.2.trans_le hbounds.2⟩
  · intro i
    rw [area_size_of_place hm, areaSize_eq_configuredSize hfits.1]

/-- **A sound layout fits.** Two areas of the machine can only start at the beginning of the array
if they overlap, so the machine's cursor never came round. -/
lemma fits_of_mapSound (hw : 32 ≤ w)
    (hm : AreaId.all.map (m.area rec) =
      (Layout.place next alloc.toNat (areaSizes cfg rec)).map (Layout.Area.wrap w))
    (h : MapSound size alloc cfg rec m) : Fits size cfg rec := by
  have hdisk : configuredSize cfg rec .volatileDisk < 2 ^ 32 := by
    rw [← h.area_size, area_size_of_place hm]
    exact cfg.ramDiskSize.isLt
  refine ⟨hdisk, ?_⟩
  rw [place_shift, List.map_map] at hm
  have hinside : ∀ x ∈ Layout.place next 0 (areaSizes cfg rec),
      ((x.shift alloc.toNat).wrap w).bytes ⊆ (⟨alloc.toNat, size.toNat⟩ : Layout.Area).bytes := by
    intro x hx
    have hmem : (x.shift alloc.toNat).wrap w ∈ AreaId.all.map (m.area rec) := by
      rw [hm]
      exact List.mem_map_of_mem (f := Layout.Area.wrap w ∘ Layout.Area.shift alloc.toNat) hx
    obtain ⟨i, -, hi⟩ := List.mem_map.1 hmem
    rw [← hi]
    exact h.inside i
  have hround : Layout.alignUp 6 size.toNat ≤ 2 ^ w := by
    have hsize : Layout.alignUp 6 size.toNat ≤ 2 ^ 32 :=
      Layout.alignUp_le size.isLt.le (by decide)
    exact hsize.trans (Nat.pow_le_pow_right (by omega) hw)
  refine Layout.fits_of_wrap hround (Nat.zero_mod _) (Nat.zero_le _) fun x hx hpos => ?_
  obtain ⟨hstart, hend⟩ := Layout.wrap_shift_of_subset hpos (hinside x hx)
  refine ⟨hend, fun hzero => ?_⟩
  by_contra hne
  obtain ⟨y, hy, hfirst, hypos⟩ := Layout.exists_first hx hne
  have hystart := (Layout.wrap_shift_of_subset hypos (hinside y hy)).1
  have hpairwise := pairwise_of_forall_ne (R := fun x y => Disjoint x.bytes y.bytes) h.disjoint
  rw [hm, List.pairwise_map] at hpairwise
  have hsymm : Std.Symm fun x y : Layout.Area =>
      Disjoint ((x.shift alloc.toNat).wrap w).bytes ((y.shift alloc.toNat).wrap w).bytes :=
    ⟨fun _ _ hxy => hxy.symm⟩
  have hdisjoint : Disjoint ((x.shift alloc.toNat).wrap w).bytes
      ((y.shift alloc.toNat).wrap w).bytes :=
    hpairwise.forall hx hy fun heq => hne (heq ▸ hfirst)
  -- both start with the first byte of the array
  have hyzero : (y.wrap w).start = 0 := by
    show y.start % 2 ^ w = 0
    rw [hfirst, Nat.zero_mod]
  refine Layout.Area.not_disjoint (a := alloc.toNat) ?_ ?_ hdisjoint
  · rw [Layout.Area.mem_bytes, hstart, hzero]
    exact ⟨le_rfl, Nat.lt_add_of_pos_right hpos⟩
  · rw [Layout.Area.mem_bytes, hystart, hyzero]
    exact ⟨le_rfl, Nat.lt_add_of_pos_right hypos⟩

variable {map : ReservedMemoryMap w}

lemma eq_ofNat_toNat (x : BitVec w) : x = BitVec.ofNat w x.toNat := by simp

/-- A sound outcome is a refusal, or the configuration fits. -/
lemma refused_or_fits (hw : 32 ≤ w) (h : CheckSound size alloc cfg rec map) :
    size.toNat < totalSize cfg rec % 2 ^ 32 ∨ Fits size cfg rec := by
  unfold CheckSound at h
  rcases setup_cases hw size cfg rec map alloc.toNat with
    ⟨hlt, -⟩ | ⟨-, hnone, hm⟩
  · exact .inl hlt
  · rw [← eq_ofNat_toNat] at hnone hm
    rcases h with hpanic | ⟨-, hsound⟩
    · rw [hpanic] at hnone
      cases hnone
    · exact .inr (fits_of_mapSound hw hm hsound)

/-- A configuration that fits and is not refused is set up soundly. -/
lemma mapSound_setup (hw : 32 ≤ w) (hspace : alloc.toNat + size.toNat ≤ 2 ^ w)
    (hfits : Fits size cfg rec) (hle : ¬size.toNat < totalSize cfg rec % 2 ^ 32) :
    MapSound size alloc cfg rec (setupReservedMemoryMap size alloc cfg rec map).2 := by
  rcases setup_cases hw size cfg rec map alloc.toNat with
    ⟨hlt, -⟩ | ⟨-, -, hm⟩
  · exact absurd hlt hle
  · rw [← eq_ofNat_toNat] at hm
    exact mapSound_of_fits hspace hfits hm

/-- **The reserved-memory check of FreeRTOS.** The function panics with the map unchanged, or lays
the areas out disjointly, in the array and with their full sizes, exactly when the low 32 bits of
the required size are refused or the configuration fits in exact arithmetic. -/
theorem setupReservedMemoryMap_sound_iff (hw : 32 ≤ w)
    (hspace : alloc.toNat + size.toNat ≤ 2 ^ w) :
    CheckSound size alloc cfg rec map ↔
      size.toNat < totalSize cfg rec % 2 ^ 32 ∨ Fits size cfg rec := by
  constructor
  · exact refused_or_fits hw
  · intro h
    rcases setup_cases hw size cfg rec map alloc.toNat with
      ⟨-, hpanic⟩ | ⟨hle, hnone, -⟩
    · rw [← eq_ofNat_toNat] at hpanic
      exact .inl hpanic
    · rw [← eq_ofNat_toNat] at hnone
      exact .inr ⟨hnone, mapSound_setup hw hspace (h.resolve_left hle) hle⟩

/-- Records of 16 and 1000 bytes. -/
def sampleRecords : RecordSizes 64 := ⟨16, 1000⟩

/-- A configuration for an array of 156 KiB. -/
def sampleConfig : CfeConfig := ⟨0x2000, 0x8000, 0x4000, 512, 64⟩

/-- A sample configuration is laid out soundly. -/
theorem setupReservedMemoryMap_sound_of_sample :
    CheckSound 0x27000 0x80000000 sampleConfig sampleRecords
      (ReservedMemoryMap.zero memTableSize) :=
  (setupReservedMemoryMap_sound_iff (by decide) (by decide)).2 (.inr (by
    unfold Fits
    decide))

/-- A CDS of nearly 4 GiB passes the check of an array of 156 KiB on a machine with 64-bit
addresses: the required size is a little over `2 ^ 32`. -/
theorem setupReservedMemoryMap_unsound :
    ¬CheckSound 0x27000 0x80000000 ⟨0xFFFFFFC0, 0x8000, 0x4000, 512, 64⟩ sampleRecords
      (ReservedMemoryMap.zero memTableSize) := by
  intro h
  rcases refused_or_fits (by decide) h with hlt | hfits
  · revert hlt
    decide
  · have hcds := hfits.2 ⟨0x10440, 0xFFFFFFC0⟩ (by decide) (by decide)
    revert hcds
    decide

end Sound

end CfePsp.Freertos
