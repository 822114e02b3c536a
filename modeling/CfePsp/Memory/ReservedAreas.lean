import CfePsp.Lib.Regions
import CfePsp.Memory.ReservedLayout

set_option relaxedAutoImplicit false
set_option autoImplicit false

/-!
# The areas of the reserved memory as separate memories

The software that runs on mcp750-vxworks and pc-rtems has the reserved memory as areas: it writes to
the CDS by offsets, stores to three of the areas through the pointers that the PSP gives out, and
the PSP itself stores to its exception storage. All areas are parts of one memory. As long as each
access stays in its area they behave as memories of their own.

## Main definitions

* `CfePsp.Memory.getResetArea`, `CfePsp.Memory.getUserReservedArea`,
  `CfePsp.Memory.getVolatileDiskMem`, `CfePsp.Memory.getCDSSize` — what the PSP gives out.
* `CfePsp.Memory.Act` — the accesses, with `Act.apply` on the memory and `Act.applyParts` on
  separate memories.
* `CfePsp.Memory.HoldsParts` — a memory has separate memories in its areas.

## Main results

* `CfePsp.Memory.parts_of_acts` — any accesses leave of the areas what they make of separate
  memories, and reads of the CDS return it.
-/

namespace CfePsp.Memory

variable {w : ℕ}

/-! ## What the PSP gives out -/

/-- The address and the size of a block, if there are places to store them. -/
def getBlock (p : Port) (block : MemoryBlock w) (ptrToArea sizeOfArea : Bool) :
    ℤ × Option (BitVec w × Uint32) :=
  if ptrToArea = false ∨ sizeOfArea = false then (p.errorCode, none)
  else (p.successCode, some (block.blockPtr, block.blockSize.setWidth 32))

/-- `CFE_PSP_GetResetArea`. -/
def getResetArea (p : Port) (m : ReservedMemoryMap w) :
    Bool → Bool → ℤ × Option (BitVec w × Uint32) :=
  getBlock p m.resetMemory

/-- `CFE_PSP_GetUserReservedArea`. -/
def getUserReservedArea (p : Port) (m : ReservedMemoryMap w) :
    Bool → Bool → ℤ × Option (BitVec w × Uint32) :=
  getBlock p m.userReservedMemory

/-- `CFE_PSP_GetVolatileDiskMem`. -/
def getVolatileDiskMem (p : Port) (m : ReservedMemoryMap w) :
    Bool → Bool → ℤ × Option (BitVec w × Uint32) :=
  getBlock p m.volatileDiskMemory

/-- `CFE_PSP_GetCDSSize`. -/
def getCDSSize (p : Port) (m : ReservedMemoryMap w) (sizeOfCDS : Bool) : ℤ × Option Uint32 :=
  if sizeOfCDS = false then (p.errorCode, none)
  else (p.successCode, some (m.cdsMemory.blockSize.setWidth 32))

/-! ## Accesses -/

/-- The areas that hold data of the software, all but the boot record. -/
inductive DataArea
  | exceptionStorage
  | reset
  | volatileDisk
  | cds
  | userReserved
  deriving DecidableEq

/-- The area of the map. -/
def DataArea.id : DataArea → AreaId
  | .exceptionStorage => .exceptionStorage
  | .reset => .reset
  | .volatileDisk => .volatileDisk
  | .cds => .cds
  | .userReserved => .userReserved

/-- The areas that the software gets a pointer to. -/
inductive AppArea
  | reset
  | userReserved
  | volatileDisk
  deriving DecidableEq

/-- The area among those with data. -/
def AppArea.data : AppArea → DataArea
  | .reset => .reset
  | .userReserved => .userReserved
  | .volatileDisk => .volatileDisk

/-- The function that gives the pointer out, called with places for both of its results. -/
def AppArea.get (p : Port) (m : ReservedMemoryMap w) : AppArea → ℤ × Option (BitVec w × Uint32)
  | .reset => getResetArea p m true true
  | .userReserved => getUserReservedArea p m true true
  | .volatileDisk => getVolatileDiskMem p m true true

/-- The accesses that change the areas. -/
inductive Act
  /-- `CFE_PSP_WriteToCDS`. -/
  | writeToCDS (ptrToDataToWrite : Option (ℕ → UInt8)) (cdsOffset numBytes : Uint32)
  /-- A store through a pointer that was given out. -/
  | storeApp (a : AppArea) (offset : ℕ) (v : UInt8)
  /-- A store to the exception storage. -/
  | storeException (offset : ℕ) (v : UInt8)

/-- What an access does to the memory. -/
def Act.apply (p : Port) (m : ReservedMemoryMap w) (mem : ℕ → UInt8) : Act → ℕ → UInt8
  | .writeToCDS ptr off n => (writeToCDSAt p m mem ptr off n).2
  | .storeApp a offset v =>
      match (a.get p m).2 with
      | some (ptr, _) => Function.update mem (ptr.toNat + offset) v
      | none => mem
  | .storeException offset v =>
      Function.update mem (m.exceptionStoragePtr.toNat + offset) v

/-- The access stays in its area: the end of a request to the CDS is computed without wrapping, and
a store is at most as far from the pointer as the size allows that was given out with it. -/
def Act.Fits (p : Port) (m : ReservedMemoryMap w) (rec : RecordSizes w) : Act → Prop
  | .writeToCDS _ off n => off.toNat + n.toNat < 2 ^ 32
  | .storeApp a offset _ => ∃ x ∈ (a.get p m).2, offset < x.2.toNat
  | .storeException offset _ => offset < rec.exceptionStorage.toNat

/-- `CFE_PSP_ReadFromCDS` on the memory, by addresses. -/
def readFromCDSAt (p : Port) (m : ReservedMemoryMap w) (mem : ℕ → UInt8)
    (ptrToDataToRead : Option (ℕ → UInt8)) (cdsOffset numBytes : Uint32) :
    ℤ × Option (ℕ → UInt8) :=
  readFromCDS p m.cdsMemory.blockSize.toNat (fun i => mem (m.cdsMemory.blockPtr.toNat + i))
    ptrToDataToRead cdsOffset numBytes

/-- What an access does to separate memories, with a CDS of `cdsSize` bytes. -/
def Act.applyParts (p : Port) (cdsSize : ℕ) (parts : DataArea → ℕ → UInt8) :
    Act → DataArea → ℕ → UInt8
  | .writeToCDS ptr off n =>
      Function.update parts .cds (Memory.writeToCDS p cdsSize (parts .cds) ptr off n).2
  | .storeApp a offset v =>
      Function.update parts a.data (Function.update (parts a.data) offset v)
  | .storeException offset v =>
      Function.update parts .exceptionStorage (Function.update (parts .exceptionStorage) offset v)

/-! ## One access -/

/-- The areas of a map have their sizes and do not overlap. -/
structure Apart (cfg : CfeConfig) (rec : RecordSizes w) (m : ReservedMemoryMap w) : Prop where
  area_size : ∀ i, (m.area rec i).size = areaSize cfg rec i
  disjoint : ∀ i j, i ≠ j → Disjoint (m.area rec i).bytes (m.area rec j).bytes

lemma LayoutContract.apart {p : Port} {cfg : CfeConfig} {rec : RecordSizes w} {base total : ℕ}
    {m : ReservedMemoryMap w} {block : MemoryBlock w}
    (h : LayoutContract p cfg rec base total m block) : Apart cfg rec m :=
  ⟨h.area_size, h.disjoint⟩

/-- Where the areas with data are. -/
def dataArea (m : ReservedMemoryMap w) (rec : RecordSizes w) (i : DataArea) : Layout.Area :=
  m.area rec i.id

section OneAct

variable {p : Port} {cfg : CfeConfig} {rec : RecordSizes w} {m : ReservedMemoryMap w}
  {mem : ℕ → UInt8} {parts : DataArea → ℕ → UInt8}

/-- The areas with data do not overlap. -/
lemma Apart.pairwise (h : Apart cfg rec m) :
    Pairwise fun i j => Disjoint (dataArea m rec i).bytes (dataArea m rec j).bytes := by
  intro i j hij
  refine h.disjoint i.id j.id fun hid => hij ?_
  cases i <;> cases j <;> first | rfl | cases hid

/-- The boot record shares no byte with them. -/
lemma Apart.notMem_dataArea (h : Apart cfg rec m) {a : ℕ}
    (ha : a ∈ (m.area rec .bootRecord).bytes) (i : DataArea) : a ∉ (dataArea m rec i).bytes :=
  Set.disjoint_left.1 (h.disjoint .bootRecord i.id (by cases i <;> decide)) ha

/-- The pointer that is given out is that of the area, and the size is its size. -/
lemma Apart.get_eq (h : Apart cfg rec m) (p : Port) (a : AppArea) :
    ∃ ptr size, a.get p m = (p.successCode, some (ptr, size)) ∧
      ptr.toNat = (dataArea m rec a.data).start ∧ size.toNat = (dataArea m rec a.data).size := by
  -- a configured size is a 32-bit number
  have hsize : ∀ b : MemoryBlock w, ∀ x : Uint32, b.area.size = x.toNat →
      (b.blockSize.setWidth 32).toNat = b.area.size := by
    intro b x hx
    rw [BitVec.toNat_setWidth]
    exact Nat.mod_eq_of_lt (lt_of_eq_of_lt hx x.isLt)
  cases a with
  | reset => exact ⟨_, _, rfl, rfl, hsize m.resetMemory _ (h.area_size .reset)⟩
  | userReserved => exact ⟨_, _, rfl, rfl, hsize m.userReservedMemory _ (h.area_size .userReserved)⟩
  | volatileDisk => exact ⟨_, _, rfl, rfl, hsize m.volatileDiskMemory _ (h.area_size .volatileDisk)⟩

/-- What a write leaves of a byte depends on nothing but the byte. -/
lemma writeToCDS_congr {size : ℕ} {cds cds' : ℕ → UInt8} {ptr : Option (ℕ → UInt8)}
    {off n : Uint32} {k : ℕ} (hk : cds k = cds' k) :
    (writeToCDS p size cds ptr off n).2 k = (writeToCDS p size cds' ptr off n).2 k := by
  cases ptr with
  | none => exact hk
  | some data =>
    by_cases hok : RangeOk size off n
    · rw [writeToCDS_of_ok hok, writeToCDS_of_ok hok]
      by_cases hmem : off.toNat ≤ k ∧ k < off.toNat + n.toNat
      · exact (Cells.overlay_of_mem hmem).trans (Cells.overlay_of_mem hmem).symm
      · exact ((Cells.overlay_of_notMem hmem).trans hk).trans (Cells.overlay_of_notMem hmem).symm
    · rw [writeToCDS_of_not_ok hok, writeToCDS_of_not_ok hok]
      exact hk

/-- A write at an address of the CDS. -/
lemma writeToCDSAt_add {ptr : Option (ℕ → UInt8)} {off n : Uint32} (k : ℕ) :
    (writeToCDSAt p m mem ptr off n).2 (m.cdsMemory.blockPtr.toNat + k) =
      (writeToCDS p m.cdsMemory.blockSize.toNat (fun i => mem (m.cdsMemory.blockPtr.toNat + i))
        ptr off n).2 k := by
  unfold writeToCDSAt
  simp only [Nat.le_add_right, if_true, Nat.add_sub_cancel_left]

/-- A write whose end does not wrap leaves the memory outside the CDS alone. -/
lemma writeToCDSAt_frame {ptr : Option (ℕ → UInt8)} {off n : Uint32}
    (hfits : off.toNat + n.toNat < 2 ^ 32) {a : ℕ} (ha : a ∉ (m.area rec .cds).bytes) :
    (writeToCDSAt p m mem ptr off n).2 a = mem a := by
  by_contra hne
  by_cases hok : RangeOk m.cdsMemory.blockSize.toNat off n
  · have hsum : (off + n).toNat = off.toNat + n.toNat := by
      rw [BitVec.toNat_add, Nat.mod_eq_of_lt hfits]
    exact ha (mem_cds_of_writeToCDSAt_ne (hsum ▸ hok.2) hne)
  · refine hne ?_
    by_cases hstart : m.cdsMemory.blockPtr.toNat ≤ a
    · obtain ⟨k, rfl⟩ := Nat.exists_eq_add_of_le hstart
      rw [writeToCDSAt_add]
      cases ptr with
      | none => rfl
      | some data => rw [writeToCDS_of_not_ok hok]
    · unfold writeToCDSAt
      simp only [if_neg hstart]

/-- **An access does to the areas what it does to separate memories**, and leaves the boot record
alone. -/
lemma Act.apply_represents (h : Apart cfg rec m)
    (hparts : Regions.Represents (dataArea m rec) mem parts) {act : Act}
    (hfits : act.Fits p m rec) :
    Regions.Represents (dataArea m rec) (act.apply p m mem)
        (act.applyParts p cfg.cdsSize.toNat parts) ∧
      ∀ a ∈ (m.area rec .bootRecord).bytes, act.apply p m mem a = mem a := by
  -- a store to an area is none to the boot record
  have hboot : ∀ (i : DataArea) (k : ℕ) (v : UInt8), k < (dataArea m rec i).size →
      ∀ a ∈ (m.area rec .bootRecord).bytes,
        Function.update mem ((dataArea m rec i).start + k) v a = mem a := by
    intro i k v hk a ha
    refine Function.update_of_ne ?_ _ _
    rintro rfl
    exact h.notMem_dataArea ha i ⟨Nat.le_add_right _ k, Nat.add_lt_add_left hk _⟩
  cases act with
  | writeToCDS ptr off n =>
    have hframe : ∀ a ∉ (dataArea m rec .cds).bytes, (writeToCDSAt p m mem ptr off n).2 a = mem a :=
      fun a ha => writeToCDSAt_frame hfits ha
    refine ⟨hparts.replace h.pairwise hframe fun k hk => ?_,
      fun a ha => hframe a (h.notMem_dataArea ha .cds)⟩
    have hsize : m.cdsMemory.blockSize.toNat = cfg.cdsSize.toNat := h.area_size .cds
    rw [← hsize]
    exact (writeToCDSAt_add k).trans (writeToCDS_congr (hparts .cds k hk))
  | storeApp a offset v =>
    obtain ⟨ptr, size, hget, hptr, hsize⟩ := h.get_eq p a
    obtain ⟨x, hx, hlt⟩ := hfits
    rw [hget] at hx
    obtain rfl := Option.some.inj hx
    have hoffset : offset < (dataArea m rec a.data).size := hsize ▸ hlt
    have hact : Act.apply p m mem (.storeApp a offset v) =
        Function.update mem ((dataArea m rec a.data).start + offset) v := by
      rw [Act.apply, hget, ← hptr]
    rw [hact]
    exact ⟨hparts.store h.pairwise hoffset v, hboot _ _ v hoffset⟩
  | storeException offset v =>
    exact ⟨hparts.store (i := .exceptionStorage) h.pairwise hfits v,
      hboot .exceptionStorage _ v hfits⟩

/-- The access stores to the byte `k` of the area `i`. -/
def Act.Touches (cdsSize : ℕ) (i : DataArea) (k : ℕ) : Act → Prop
  | .writeToCDS ptr off n =>
      i = .cds ∧ ptr.isSome ∧ RangeOk cdsSize off n ∧ off.toNat ≤ k ∧ k < off.toNat + n.toNat
  | .storeApp a offset _ => i = a.data ∧ k = offset
  | .storeException offset _ => i = .exceptionStorage ∧ k = offset

/-- What an access does not store to it leaves alone. -/
lemma Act.applyParts_of_not_touches {cdsSize : ℕ} {i : DataArea} {k : ℕ} {a : Act}
    (h : ¬a.Touches cdsSize i k) (parts : DataArea → ℕ → UInt8) :
    a.applyParts p cdsSize parts i k = parts i k := by
  have hstore : ∀ (j : DataArea) (offset : ℕ) (v : UInt8), ¬(i = j ∧ k = offset) →
      Function.update parts j (Function.update (parts j) offset v) i k = parts i k := by
    intro j offset v hne
    by_cases hij : i = j
    · subst hij
      rw [Function.update_self, Function.update_of_ne fun hk => hne ⟨rfl, hk⟩]
    · rw [Function.update_of_ne hij]
  cases a with
  | writeToCDS ptr off n =>
    rw [Act.applyParts]
    by_cases hi : i = .cds
    · subst hi
      rw [Function.update_self]
      cases ptr with
      | none => rfl
      | some data =>
        by_cases hok : RangeOk cdsSize off n
        · rw [writeToCDS_of_ok hok]
          exact Cells.overlay_of_notMem fun hk => h ⟨rfl, rfl, hok, hk⟩
        · rw [writeToCDS_of_not_ok hok]
    · rw [Function.update_of_ne hi]
  | storeApp a offset v => exact hstore a.data offset v h
  | storeException offset v => exact hstore .exceptionStorage offset v h

/-- A read whose end does not wrap returns the CDS. -/
lemma readFromCDSAt_eq (h : Apart cfg rec m)
    (hparts : Regions.Represents (dataArea m rec) mem parts) {off n : Uint32}
    (hfits : off.toNat + n.toNat < 2 ^ 32) (data : Option (ℕ → UInt8)) :
    readFromCDSAt p m mem data off n =
      readFromCDS p cfg.cdsSize.toNat (parts .cds) data off n := by
  have hsize : m.cdsMemory.blockSize.toNat = cfg.cdsSize.toNat := h.area_size .cds
  rw [readFromCDSAt, hsize]
  cases data with
  | none => rfl
  | some buf =>
    refine ((cdsContract_iff p _ off n).2 (.inr (.inl hfits))).read_only _ _ buf ?_
    exact fun a ha _ _ => hparts .cds a (lt_of_lt_of_eq ha (h.area_size .cds).symm)

end OneAct

/-! ## The areas and the boot record -/

/-- Separate memories for the areas, and the reset type in the boot record. -/
structure Parts where
  bspResetType : Uint32
  area : DataArea → ℕ → UInt8

/-- The memory holds the separate memories in its areas and the reset type in the first word of its
boot record. -/
structure HoldsParts (m : ReservedMemoryMap w) (rec : RecordSizes w) (e : Words.Endian)
    (mem : ℕ → UInt8) (s : Parts) : Prop where
  areas : Regions.Represents (dataArea m rec) mem s.area
  bspResetType_eq : Words.loadWord e mem m.bootPtr.toNat = s.bspResetType

/-- The separate memories and the reset type in a memory. -/
def partsOf (m : ReservedMemoryMap w) (rec : RecordSizes w) (e : Words.Endian)
    (mem : ℕ → UInt8) : Parts :=
  ⟨Words.loadWord e mem m.bootPtr.toNat, fun i k => mem ((dataArea m rec i).start + k)⟩

section Record

variable {p : Port} {cfg : CfeConfig} {rec : RecordSizes w} {m : ReservedMemoryMap w}
  {e : Words.Endian} {mem : ℕ → UInt8} {s : Parts}

lemma holds_partsOf (m : ReservedMemoryMap w) (rec : RecordSizes w) (e : Words.Endian)
    (mem : ℕ → UInt8) : HoldsParts m rec e mem (partsOf m rec e mem) :=
  ⟨fun _ _ _ => rfl, rfl⟩

/-- The word is part of the boot record. -/
lemma mem_bootRecord (hrecord : 4 ≤ rec.bootRecord.toNat) {a : ℕ}
    (ha : m.bootPtr.toNat ≤ a ∧ a < m.bootPtr.toNat + 4) : a ∈ (m.area rec .bootRecord).bytes :=
  ⟨ha.1, ha.2.trans_le (Nat.add_le_add_left hrecord _)⟩

/-- An access that stays in its area. -/
lemma HoldsParts.act (hmap : Apart cfg rec m) (hrecord : 4 ≤ rec.bootRecord.toNat)
    (h : HoldsParts m rec e mem s) {a : Act} (ha : a.Fits p m rec) :
    HoldsParts m rec e (a.apply p m mem)
      { s with area := a.applyParts p cfg.cdsSize.toNat s.area } := by
  obtain ⟨hareas, hboot⟩ := Act.apply_represents hmap h.areas ha
  refine ⟨hareas, (Words.loadWord_congr fun x hlo hhi => ?_).trans h.bspResetType_eq⟩
  exact hboot x (mem_bootRecord hrecord ⟨hlo, hhi⟩)

/-- A store of the reset type. -/
lemma HoldsParts.setType (hmap : Apart cfg rec m) (hrecord : 4 ≤ rec.bootRecord.toNat)
    {parts : DataArea → ℕ → UInt8} (h : Regions.Represents (dataArea m rec) mem parts)
    (t : Uint32) : HoldsParts m rec e (Words.storeWord e mem m.bootPtr.toNat t) ⟨t, parts⟩ := by
  refine ⟨h.congr fun i a ha => Words.storeWord_of_notMem fun hword => ?_,
    Words.loadWord_storeWord⟩
  exact hmap.notMem_dataArea (mem_bootRecord hrecord hword) i ha

end Record

/-! ## Sessions of pc-rtems -/

/-- What any accesses leave of the areas and of the boot record. -/
lemma represents_foldl {p : Port} {cfg : CfeConfig} {rec : RecordSizes w}
    {m : ReservedMemoryMap w} (h : Apart cfg rec m) {acts : List Act}
    (hfits : ∀ act ∈ acts, act.Fits p m rec) {mem : ℕ → UInt8} {parts : DataArea → ℕ → UInt8}
    (hparts : Regions.Represents (dataArea m rec) mem parts) :
    Regions.Represents (dataArea m rec) (acts.foldl (Act.apply p m) mem)
      (acts.foldl (Act.applyParts p cfg.cdsSize.toNat) parts) := by
  induction acts generalizing mem parts with
  | nil => exact hparts
  | cons act acts ih =>
    have hact := Act.apply_represents h hparts (hfits act List.mem_cons_self)
    exact ih (fun act' hmem => hfits act' (List.mem_cons_of_mem act hmem)) hact.1

/-- **The areas of pc-rtems are memories of their own.** After the initialisation, whatever the
reset type was, and any accesses that stay in their areas, each area holds what the accesses make of
memories that were zero and had nothing in common; the CDS is read so too, at an offset and with a
size whose sum does not wrap. -/
theorem parts_of_acts (hw : 32 ≤ w) {malloc : BitVec w → BitVec w} {cfg : CfeConfig}
    {rec : RecordSizes w} {fixed : PcRtems.FixedLayout rec} {map m : ReservedMemoryMap w}
    {block : MemoryBlock w}
    (hsetup : PcRtems.setupReservedMemoryMap malloc cfg fixed map = some (m, block))
    (hend : block.blockPtr.toNat + PcRtems.totalSize cfg fixed ≤ 2 ^ w) (restartType : Uint32)
    (mem : ℕ → UInt8) {acts : List Act} (hfits : ∀ act ∈ acts, act.Fits .pcRtems m rec) :
    let after := acts.foldl (Act.apply .pcRtems m)
      (PcRtems.initProcessorReservedMemory block restartType mem)
    let parts := acts.foldl (Act.applyParts .pcRtems cfg.cdsSize.toNat) fun _ _ => 0
    (∀ i, ∀ k < areaSize cfg rec i.id, after ((m.area rec i.id).start + k) = parts i k) ∧
      ∀ data (off n : Uint32), off.toNat + n.toNat < 2 ^ 32 →
        readFromCDSAt .pcRtems m after data off n =
          readFromCDS .pcRtems cfg.cdsSize.toNat (parts .cds) data off n := by
  intro after parts
  have h := PcRtems.layoutContract hw hsetup hend
  have hzero : Regions.Represents (dataArea m rec)
      (PcRtems.initProcessorReservedMemory block restartType mem) fun _ _ => 0 :=
    Regions.represents_const fun i a ha => h.zeroArea_eq mem ha
  have hafter := represents_foldl h.apart hfits hzero
  exact ⟨fun i k hk => hafter i k (h.area_size i.id ▸ hk),
    fun data off n hrange => readFromCDSAt_eq h.apart hafter hrange data⟩

/-- A store to the last byte of the reset area, and a write at the start of the CDS. -/
def twoActs : List Act := [.storeApp .reset 0x28000 7, .writeToCDS (some fun _ => 5) 0 4]

/-- The two accesses of a session. -/
theorem parts_of_acts_of_two :
    ∃ m block, PcRtems.setupReservedMemoryMap (fun _ => 0x200000) unalignedConfig shortFixed
        (ReservedMemoryMap.zero memTableSize) = some (m, block) ∧
      ∀ k < 0x20000, twoActs.foldl (Act.apply .pcRtems m)
          (PcRtems.initProcessorReservedMemory block 1 fun _ => 9)
          ((m.area shortRecords .cds).start + k) =
        twoActs.foldl (Act.applyParts .pcRtems 0x20000) (fun _ _ => 0) .cds k := by
  refine ⟨_, _, rfl, fun k hk => ?_⟩
  have hsession := @parts_of_acts 32 (by decide) (fun _ => 0x200000) unalignedConfig shortRecords
    shortFixed (ReservedMemoryMap.zero memTableSize) _ _ rfl (by decide) 1 (fun _ => 9) twoActs (by
      intro act hact
      rcases List.mem_cons.1 hact with rfl | hact
      · exact ⟨_, rfl, by decide⟩
      · obtain rfl := List.mem_singleton.1 hact
        show (0 : Uint32).toNat + (4 : Uint32).toNat < 2 ^ 32
        decide)
  exact hsession.1 .cds k hk

end CfePsp.Memory
