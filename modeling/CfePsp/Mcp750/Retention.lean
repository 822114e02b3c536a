import CfePsp.Mcp750.Boot
import CfePsp.Memory.ReservedAreas

set_option relaxedAutoImplicit false
set_option autoImplicit false

/-!
# What the reserved memory of mcp750-vxworks retains

The reserved memory is outside the memory of vxWorks and keeps its contents across resets. A boot
that is no processor reset clears it as one block; every boot stores the type of the next one in the
boot record, which is part of the same memory. For the software each area is a memory of its own,
which processor resets keep.

## Main definitions

* `CfePsp.Mcp750.memoryMachine` — boots and sessions, with the accesses to the areas.
* `CfePsp.Mcp750.partsMachine` — the same for separate memories and a reset type.

## Main results

* `CfePsp.Mcp750.areas_of_run` — every run of the one is a run of the other.
* `CfePsp.Mcp750.kept_of_run` — a byte that nobody stores to is kept by processor resets, whatever
  is stored elsewhere.
-/

namespace CfePsp.Mcp750

open Memory (Act DataArea AppArea Parts HoldsParts dataArea areaSize areaSizes readFromCDS
  readFromCDSAt LayoutContract)
open PcLinux (rstTypeProcessor rstTypePoweron)

variable {w : ℕ}

/-! ## The two machines -/

/-- Boots and sessions with the accesses to the areas. -/
def memoryMachine (b : Board w) (masks : ResetMasks) :
    Sessions.Machine (ℕ → UInt8) (BitVec 8) Start Act Uint32 where
  boot := osApplicationStartup b masks
  act a mem := a.apply .mcp750Vxworks b.map mem
  restart := restart b

/-- Boots and sessions of separate memories: a processor reset keeps them, any other reset clears
them, and what is due after a session that fails is the other kind. -/
def partsMachine (b : Board w) (masks : ResetMasks) :
    Sessions.Machine Parts (BitVec 8) Start Act Uint32 where
  boot resetRegister s :=
    let start := decodeReset masks resetRegister s.bspResetType
    (start, if start.resetType = rstTypeProcessor then ⟨rstTypePoweron, s.area⟩
      else ⟨rstTypeProcessor, fun _ _ => 0⟩)
  act a s := { s with area := a.applyParts .mcp750Vxworks b.cfg.cdsSize.toNat s.area }
  restart resetType s :=
    { s with bspResetType :=
        if resetType = rstTypePoweron then rstTypePoweron else rstTypeProcessor }

/-- The board has room for the reserved memory, and the boot record for its first word. -/
structure Board.HasRoom (b : Board w) : Prop where
  width : 32 ≤ w
  finish_le : Layout.finish Memory.Mcp750.next b.sysMemTop.toNat (areaSizes b.cfg b.records) ≤ 2 ^ w
  size_lt : Layout.finish Memory.Mcp750.next b.sysMemTop.toNat (areaSizes b.cfg b.records) -
    b.sysMemTop.toNat < 2 ^ w
  bootRecord_ge : 4 ≤ b.records.bootRecord.toNat

/-- The separate memories in a memory of the board. -/
def Board.parts (b : Board w) (mem : ℕ → UInt8) : Parts :=
  Memory.partsOf b.map b.records b.endian mem

section Refinement

variable {b : Board w} {masks : ResetMasks} {mem : ℕ → UInt8} {s : Parts}

/-- The areas of the board are apart, and all of them are in its block. -/
lemma Board.HasRoom.contract (hb : b.HasRoom) :
    ∃ total, LayoutContract .mcp750Vxworks b.cfg b.records b.sysMemTop.toNat total b.map b.block :=
  ⟨_, Memory.Mcp750.layoutContract hb.width b.cfg b.records b.sysMemTop hb.finish_le hb.size_lt⟩

/-- A boot keeps the memories related, and starts the software in the same way. -/
lemma Board.HasRoom.boot (hb : b.HasRoom) (h : HoldsParts b.map b.records b.endian mem s)
    (reg : BitVec 8) :
    ((memoryMachine b masks).boot reg mem).1 = ((partsMachine b masks).boot reg s).1 ∧
      HoldsParts b.map b.records b.endian ((memoryMachine b masks).boot reg mem).2
        ((partsMachine b masks).boot reg s).2 := by
  obtain ⟨total, hcontract⟩ := hb.contract
  have htype : b.bspResetType mem = s.bspResetType := h.bspResetType_eq
  have hstart : (osApplicationStartup b masks reg mem).1 = decodeReset masks reg s.bspResetType :=
    congrArg (decodeReset masks reg) htype
  refine ⟨hstart, ?_⟩
  by_cases hproc : (decodeReset masks reg s.bspResetType).resetType = rstTypeProcessor
  · have hparts : ((partsMachine b masks).boot reg s).2 = ⟨rstTypePoweron, s.area⟩ := if_pos hproc
    have hmem : (osApplicationStartup b masks reg mem).2 =
        b.setBspResetType rstTypePoweron mem := by
      simp only [osApplicationStartup, htype, if_pos hproc,
        Memory.Mcp750.initProcessorReservedMemory, if_neg (not_not_intro hproc)]
    rw [hparts]
    exact hmem ▸ HoldsParts.setType hcontract.apart hb.bootRecord_ge h.areas _
  · have hparts : ((partsMachine b masks).boot reg s).2 = ⟨rstTypeProcessor, fun _ _ => 0⟩ :=
      if_neg hproc
    have hmem : (osApplicationStartup b masks reg mem).2 =
        b.setBspResetType rstTypeProcessor (Memory.zeroArea mem b.block.area) := by
      simp only [osApplicationStartup, htype, if_neg hproc,
        Memory.Mcp750.initProcessorReservedMemory, if_pos hproc]
      rfl
    have hzero : Regions.Represents (dataArea b.map b.records)
        (Memory.zeroArea mem b.block.area) fun _ _ => 0 :=
      Regions.represents_const fun i a ha => hcontract.zeroArea_eq mem ha
    rw [hparts]
    exact hmem ▸ HoldsParts.setType hcontract.apart hb.bootRecord_ge hzero _

/-- So does an access that stays in its area. -/
lemma Board.HasRoom.act (hb : b.HasRoom) (h : HoldsParts b.map b.records b.endian mem s) {a : Act}
    (ha : a.Fits .mcp750Vxworks b.map b.records) :
    HoldsParts b.map b.records b.endian ((memoryMachine b masks).act a mem)
      ((partsMachine b masks).act a s) := by
  obtain ⟨total, hcontract⟩ := hb.contract
  exact h.act hcontract.apart hb.bootRecord_ge ha

/-- And so does a restart. -/
lemma Board.HasRoom.restart (hb : b.HasRoom) (h : HoldsParts b.map b.records b.endian mem s)
    (t : Uint32) :
    HoldsParts b.map b.records b.endian ((memoryMachine b masks).restart t mem)
      ((partsMachine b masks).restart t s) := by
  obtain ⟨total, hcontract⟩ := hb.contract
  have hset := HoldsParts.setType (e := b.endian) hcontract.apart hb.bootRecord_ge h.areas
  show HoldsParts b.map b.records b.endian (Mcp750.restart b t mem) { s with bspResetType :=
    if t = rstTypePoweron then rstTypePoweron else rstTypeProcessor }
  rw [Mcp750.restart]
  split_ifs
  · exact hset rstTypePoweron
  · exact hset rstTypeProcessor

/-- A run of the board is a run of the separate memories. -/
lemma holds_of_run (hb : b.HasRoom) {tr : List (Sessions.Event (BitVec 8) Act Uint32)}
    (hfits : ∀ a, .act a ∈ tr → a.Fits .mcp750Vxworks b.map b.records)
    {t : Sessions.State (ℕ → UInt8) Start Uint32}
    (hrun : Transition.run (Sessions.step (memoryMachine b masks)) ⟨mem, .off⟩ tr = some t) :
    ∃ u, Transition.run (Sessions.step (partsMachine b masks)) ⟨b.parts mem, .off⟩ tr = some u ∧
      u.phase = t.phase ∧ HoldsParts b.map b.records b.endian t.mem u.mem :=
  Sessions.run_refines (fun reg _ _ h => hb.boot h reg) (fun _ _ _ ha h => hb.act h ha)
    (fun k _ _ h => hb.restart h k) (Memory.holds_partsOf ..) hfits hrun

/-- **The reserved memory in every run**: what the areas hold after any boots, sessions, restarts
and failures is what separate memories hold, which processor resets keep and other resets clear; the
starts of the software are the same, and the CDS is read so too, at an offset and with a size whose
sum does not wrap. -/
theorem areas_of_run (hb : b.HasRoom) {tr : List (Sessions.Event (BitVec 8) Act Uint32)}
    (hfits : ∀ a, .act a ∈ tr → a.Fits .mcp750Vxworks b.map b.records)
    {t : Sessions.State (ℕ → UInt8) Start Uint32}
    (hrun : Transition.run (Sessions.step (memoryMachine b masks)) ⟨mem, .off⟩ tr = some t) :
    ∃ u, Transition.run (Sessions.step (partsMachine b masks)) ⟨b.parts mem, .off⟩ tr = some u ∧
      u.phase = t.phase ∧ u.mem.bspResetType = b.bspResetType t.mem ∧
      (∀ i, ∀ k < areaSize b.cfg b.records i.id,
        t.mem ((b.map.area b.records i.id).start + k) = u.mem.area i k) ∧
      ∀ data (off n : Uint32), off.toNat + n.toNat < 2 ^ 32 →
        readFromCDSAt .mcp750Vxworks b.map t.mem data off n =
          readFromCDS .mcp750Vxworks b.cfg.cdsSize.toNat (u.mem.area .cds) data off n := by
  obtain ⟨total, hcontract⟩ := hb.contract
  obtain ⟨u, hu, hphase, hholds⟩ := holds_of_run hb hfits hrun
  refine ⟨u, hu, hphase, hholds.bspResetType_eq.symm, fun i k hk => ?_, fun data off n hrange => ?_⟩
  · exact hholds.areas i k (hcontract.area_size i.id ▸ hk)
  · exact Memory.readFromCDSAt_eq hcontract.apart hholds.areas hrange data

/-! ## What is kept -/

/-- An event that keeps the byte `k` of the area `i`: a boot that is a processor reset, an access
that stays in its area and does not store to the byte, and the end of a session. -/
def Keeps (b : Board w) (masks : ResetMasks) (i : DataArea) (k : ℕ)
    (s : Sessions.State (ℕ → UInt8) Start Uint32) : Sessions.Event (BitVec 8) Act Uint32 → Prop
  | .boot reg => (osApplicationStartup b masks reg s.mem).1.resetType = rstTypeProcessor
  | .act a => a.Fits .mcp750Vxworks b.map b.records ∧ ¬a.Touches b.cfg.cdsSize.toNat i k
  | .restart _ | .fail => True

/-- **Data that is left alone survives processor resets**, however many there are, and whatever is
stored to the bytes beside it and to the other areas. -/
theorem kept_of_run (hb : b.HasRoom) {i : DataArea} {k : ℕ}
    (hk : k < areaSize b.cfg b.records i.id) {tr : List (Sessions.Event (BitVec 8) Act Uint32)}
    {s t : Sessions.State (ℕ → UInt8) Start Uint32}
    (hkeeps : Transition.Always (Sessions.step (memoryMachine b masks)) (Keeps b masks i k) s tr)
    (hrun : Transition.run (Sessions.step (memoryMachine b masks)) s tr = some t) :
    t.mem ((b.map.area b.records i.id).start + k) =
      s.mem ((b.map.area b.records i.id).start + k) := by
  obtain ⟨total, hcontract⟩ := hb.contract
  have hsize : k < (dataArea b.map b.records i).size := hcontract.area_size i.id ▸ hk
  refine Transition.run_of_always (I := fun u => u.mem ((b.map.area b.records i.id).start + k) =
    s.mem ((b.map.area b.records i.id).start + k)) rfl (fun u e v hu he hstep => ?_) hkeeps hrun
  rw [← hu]
  have hparts : HoldsParts b.map b.records b.endian u.mem (b.parts u.mem) := Memory.holds_partsOf ..
  rcases Sessions.step_cases hstep with ⟨reg, rfl, rfl⟩ | ⟨x, a, rfl, -, rfl⟩ |
    ⟨x, r, rfl, -, rfl⟩ | ⟨x, rfl, -, rfl⟩
  · have hboot := (@Board.HasRoom.boot _ b masks _ _ hb hparts reg).2
    rw [show ((partsMachine b masks).boot reg (b.parts u.mem)).2 =
      ⟨rstTypePoweron, (b.parts u.mem).area⟩ from if_pos he] at hboot
    exact hboot.areas i k hsize
  · have hact := (@Board.HasRoom.act _ b masks _ _ hb hparts _ he.1).areas i k hsize
    exact hact.trans (Act.applyParts_of_not_touches he.2 _)
  · exact (@Board.HasRoom.restart _ b masks _ _ hb hparts r).areas i k hsize
  · rfl

end Refinement

/-! ## Two sessions -/

lemma hasRoom_sampleBoard : sampleBoard.HasRoom :=
  ⟨by decide, by decide, by decide, by decide⟩

/-- A power-on, a write to the CDS and a store to the reset area, a processor reset on command, and
a store beside the first. -/
def twoSessions : List (Sessions.Event (BitVec 8) Act Uint32) :=
  [.boot 0x01, .act (.writeToCDS (some fun _ => 5) 0 4), .act (.storeApp .reset 3 7), .restart 1,
    .boot 0x20, .act (.storeApp .reset 4 8)]

lemma fits_twoSessions (a : Act) (ha : .act a ∈ twoSessions) :
    a.Fits .mcp750Vxworks sampleBoard.map sampleBoard.records := by
  simp only [twoSessions, List.mem_cons, reduceCtorEq, Sessions.Event.act.injEq, false_or,
    List.not_mem_nil, or_false] at ha
  rcases ha with rfl | rfl | rfl
  · show (0 : Uint32).toNat + (4 : Uint32).toNat < 2 ^ 32
    decide
  · exact ⟨_, rfl, by decide⟩
  · exact ⟨_, rfl, by decide⟩

/-- The two sessions of the board are two sessions of separate memories. -/
theorem areas_of_run_of_two :
    ∃ t u, Transition.run (Sessions.step (memoryMachine sampleBoard sampleMasks))
        ⟨fun _ => 9, .off⟩ twoSessions = some t ∧
      Transition.run (Sessions.step (partsMachine sampleBoard sampleMasks))
        ⟨sampleBoard.parts fun _ => 9, .off⟩ twoSessions = some u ∧
      t.mem ((sampleBoard.map.area sampleBoard.records .reset).start + 3) =
        u.mem.area .reset 3 := by
  obtain ⟨t, ht⟩ : ∃ t, Transition.run (Sessions.step (memoryMachine sampleBoard sampleMasks))
      ⟨fun _ => 9, .off⟩ twoSessions = some t := ⟨_, rfl⟩
  obtain ⟨u, hu, -, -, hareas, -⟩ := areas_of_run hasRoom_sampleBoard fits_twoSessions ht
  exact ⟨t, u, ht, hu, hareas .reset 3 (by decide)⟩

/-- A boot after a software hard reset and a store to the reset area keep the byte in front of
it. -/
theorem kept_of_run_of_hardReset :
    ∃ t, Transition.run (Sessions.step (memoryMachine sampleBoard sampleMasks))
        ⟨fun _ => 9, .off⟩ [.boot 0x20, .act (.storeApp .reset 4 8)] = some t ∧
      t.mem ((sampleBoard.map.area sampleBoard.records .reset).start + 3) = 9 := by
  obtain ⟨t, ht⟩ : ∃ t, Transition.run (Sessions.step (memoryMachine sampleBoard sampleMasks))
      ⟨fun _ => 9, .off⟩ [.boot 0x20, .act (.storeApp .reset 4 8)] = some t := ⟨_, rfl⟩
  refine ⟨t, ht, kept_of_run (i := .reset) (k := 3) hasRoom_sampleBoard (by decide) ?_ ht⟩
  have hboot : (osApplicationStartup sampleBoard sampleMasks 0x20 fun _ => 9).1.resetType =
    rstTypeProcessor := by decide
  refine ⟨hboot, fun u _ => ⟨⟨⟨_, rfl, by decide⟩, ?_⟩, fun _ _ => trivial⟩⟩
  exact fun h => absurd h.2 (by decide)

end CfePsp.Mcp750
