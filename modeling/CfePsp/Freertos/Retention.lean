import CfePsp.Freertos.Startup
import CfePsp.Memory.ReservedAreas

set_option relaxedAutoImplicit false
set_option autoImplicit false

/-!
# What the reserved memory of the FreeRTOS ports retains

The reserved memory is an array that no start-up code of the compiler clears. The two FreeRTOS ports
share the initialisation: a power-on clears the areas one by one, but not the volatile disk, and any
other reset keeps them all. The ports differ in how they find out what kind of reset it was, and in
what a restart on command leaves in the boot record.

## Main definitions

* `CfePsp.Freertos.RamPort` — the two ports, with their start-ups `RamPort.startUp`.
* `CfePsp.Freertos.memoryMachine` — boots and sessions, with the accesses to the areas.
* `CfePsp.Freertos.partsMachine` — the same for separate memories and a reset type.

## Main results

* `CfePsp.Freertos.areas_of_boots` — every run of the one is a run of the other.
* `CfePsp.Freertos.kept_of_boots` — data that is left alone survives all resets but a power-on, and
  on the volatile disk those as well.
-/

namespace CfePsp.Freertos

open Memory (Act DataArea Apart Parts HoldsParts dataArea areaSize readFromCDS readFromCDSAt)
open PcLinux (rstTypeProcessor rstTypePoweron)

variable {w : ℕ}

/-! ## Boards and start-ups -/

/-- A board whose volatile disk has a 32-bit size. -/
structure DiskBoard (w : ℕ) extends Board w where
  disk_lt : cfg.ramDiskSectorSize.toNat * cfg.ramDiskTotalSectors.toNat < 2 ^ 32

lemma DiskBoard.apart (b : DiskBoard w) : Apart b.cfg b.records b.map where
  area_size i := by rw [b.sound.area_size i, areaSize_eq_configuredSize b.disk_lt]
  disjoint := b.sound.disjoint

lemma DiskBoard.bootRecord_ge (b : DiskBoard w) : 4 ≤ b.records.bootRecord.toNat := by
  have hsize := b.bootRecord_size
  omega

/-- The memory of a board has the separate memories in its areas. -/
abbrev DiskBoard.Holds (b : DiskBoard w) (mem : ℕ → UInt8) (s : Parts) : Prop :=
  Memory.HoldsParts b.map b.records b.endian mem s

/-- A start-up: the boots of a port, its restarts on command, and what they do to separate memories:
`decode` is the start by the cause of the reset and the type in the boot record, and `nextType` the
type that a restart leaves there. -/
structure StartUp (b : DiskBoard w) where
  boot : Uint32 → (ℕ → UInt8) → Start × (ℕ → UInt8)
  restart : Uint32 → (ℕ → UInt8) → ℕ → UInt8
  decode : Uint32 → Uint32 → Start
  nextType : Uint32 → Uint32
  boot_eq : ∀ reg mem, boot reg mem = (decode reg (b.bspResetType mem),
    initProcessorReservedMemory b.toBoard (decode reg (b.bspResetType mem)).resetType mem)
  restart_holds : ∀ t mem s, b.Holds mem s →
    b.Holds (restart t mem) { s with bspResetType := nextType s.bspResetType }

/-- The start-up of mpfs-discovery: a restart leaves the type of a power-on in any case. -/
def Mpfs.startUp (b : DiskBoard w) (masks : Mpfs.ResetMasks) : StartUp b where
  boot := Mpfs.osApplicationStartup b.toBoard masks
  restart := Mpfs.restart b.toBoard
  decode := Mpfs.decodeReset masks
  nextType _ := rstTypePoweron
  boot_eq _ _ := rfl
  restart_holds t mem s h := by
    rw [Mpfs.restart, ite_self]
    exact HoldsParts.setType b.apart b.bootRecord_ge h.areas rstTypePoweron

/-- The start-up of noelv, which is that of the shared sources: a restart leaves the memory
alone. -/
def Shared.startUp (b : DiskBoard w) (hlp : Shared.HlpResetTypes) : StartUp b where
  boot := Shared.osApplicationStartup b.toBoard hlp
  restart _ mem := mem
  decode cause _ := Shared.decodeReset hlp cause
  nextType t := t
  boot_eq _ _ := rfl
  restart_holds _ _ _ h := h

/-- The ports with such a memory, with what their hardware libraries define. -/
inductive RamPort
  | mpfsDiscovery (masks : Mpfs.ResetMasks)
  | noelv (hlp : Shared.HlpResetTypes)

/-- The start-up of a port. -/
def RamPort.startUp (b : DiskBoard w) : RamPort → StartUp b
  | .mpfsDiscovery masks => Mpfs.startUp b masks
  | .noelv hlp => Shared.startUp b hlp

/-! ## The two machines -/

/-- Boots and sessions with the accesses to the areas. -/
def memoryMachine (b : DiskBoard w) (port : RamPort) :
    Sessions.Machine (ℕ → UInt8) Uint32 Start Act Uint32 where
  boot := (port.startUp b).boot
  act a mem := a.apply .sharedFreertos b.map mem
  restart := (port.startUp b).restart

/-- What the initialisation does to separate memories: a power-on clears all but the disk. -/
def initParts (restartType : Uint32) (s : Parts) : Parts :=
  if restartType = rstTypePoweron then
    ⟨rstTypeProcessor, fun i => if i = .volatileDisk then s.area i else fun _ => 0⟩
  else ⟨rstTypePoweron, s.area⟩

/-- Boots and sessions of separate memories. -/
def partsMachine (b : DiskBoard w) (port : RamPort) :
    Sessions.Machine Parts Uint32 Start Act Uint32 where
  boot cause s :=
    let start := (port.startUp b).decode cause s.bspResetType
    (start, initParts start.resetType s)
  act a s := { s with area := a.applyParts .sharedFreertos b.cfg.cdsSize.toNat s.area }
  restart _ s := { s with bspResetType := (port.startUp b).nextType s.bspResetType }

section Refinement

variable {b : DiskBoard w} {port : RamPort} {mem : ℕ → UInt8} {s : Parts}

/-- A power-on leaves the volatile disk alone. -/
lemma initProcessorReservedMemory_disk {t : Uint32} {a : ℕ}
    (ha : a ∈ (b.map.area b.records .volatileDisk).bytes) :
    initProcessorReservedMemory b.toBoard t mem a = mem a := by
  by_cases ht : t = rstTypePoweron
  · have hclear : ∀ (mem : ℕ → UInt8) (i : Memory.AreaId), i ≠ .volatileDisk →
        Memory.zeroArea mem ⟨(b.map.area b.records i).start, areaSize b.cfg b.records i⟩ a =
          mem a := by
      intro mem i hi
      rw [← b.apart.area_size i]
      exact Memory.zeroArea_of_notMem (Set.disjoint_left.1 (b.apart.disjoint _ i hi.symm) ha)
    rw [initProcessorReservedMemory, if_pos ht, setBspResetType_of_mem (by decide) ha]
    refine (hclear _ .exceptionStorage (by decide)).trans ?_
    refine (hclear _ .bootRecord (by decide)).trans ?_
    refine (hclear _ .userReserved (by decide)).trans ?_
    refine (hclear _ .reset (by decide)).trans ?_
    exact hclear _ .cds (by decide)
  · exact initProcessorReservedMemory_other ht (by decide) ha

/-- The initialisation does to the areas what it does to separate memories. -/
lemma initProcessorReservedMemory_holds (h : b.Holds mem s) (t : Uint32) :
    b.Holds (initProcessorReservedMemory b.toBoard t mem) (initParts t s) := by
  have htype : b.bspResetType (initProcessorReservedMemory b.toBoard t mem) = _ :=
    Shared.bspResetType_initProcessorReservedMemory
  have hmem : ∀ i : DataArea, i.id ≠ .bootRecord := by
    intro i
    cases i <;> decide
  rw [initParts]
  by_cases ht : t = rstTypePoweron
  · rw [if_pos ht] at htype ⊢
    refine ⟨fun i k hk => ?_, htype⟩
    have ha : (dataArea b.map b.records i).start + k ∈ (b.map.area b.records i.id).bytes :=
      ⟨Nat.le_add_right _ k, Nat.add_lt_add_left hk _⟩
    by_cases hi : i = .volatileDisk
    · subst hi
      exact (initProcessorReservedMemory_disk ha).trans (h.areas .volatileDisk k hk)
    · have hid : i.id ≠ .volatileDisk := fun hid => hi (by cases i <;> first | rfl | cases hid)
      rw [ht, initProcessorReservedMemory_poweron (hmem i) hid ha]
      show 0 = (if i = .volatileDisk then s.area i else fun _ => 0) k
      rw [if_neg hi]
  · rw [if_neg ht] at htype ⊢
    refine ⟨fun i k hk => ?_, htype⟩
    have ha : (dataArea b.map b.records i).start + k ∈ (b.map.area b.records i.id).bytes :=
      ⟨Nat.le_add_right _ k, Nat.add_lt_add_left hk _⟩
    rw [initProcessorReservedMemory_other ht (hmem i) ha]
    exact h.areas i k hk

/-- A boot keeps the memories related, and starts the software in the same way. -/
lemma DiskBoard.Holds.boot (h : b.Holds mem s) (cause : Uint32) :
    ((memoryMachine b port).boot cause mem).1 = ((partsMachine b port).boot cause s).1 ∧
      b.Holds ((memoryMachine b port).boot cause mem).2 ((partsMachine b port).boot cause s).2 := by
  have htype : b.bspResetType mem = s.bspResetType := h.bspResetType_eq
  have hboot : (memoryMachine b port).boot cause mem = _ := (port.startUp b).boot_eq cause mem
  rw [hboot, htype]
  exact ⟨rfl, initProcessorReservedMemory_holds h _⟩

/-- A run of a board is a run of the separate memories. -/
lemma holds_of_run {tr : List (Sessions.Event Uint32 Act Uint32)}
    (hfits : ∀ a, .act a ∈ tr → a.Fits .sharedFreertos b.map b.records) (h : b.Holds mem s)
    {t : Sessions.State (ℕ → UInt8) Start Uint32}
    (hrun : Transition.run (Sessions.step (memoryMachine b port)) ⟨mem, .off⟩ tr = some t) :
    ∃ u, Transition.run (Sessions.step (partsMachine b port)) ⟨s, .off⟩ tr = some u ∧
      u.phase = t.phase ∧ b.Holds t.mem u.mem :=
  Sessions.run_refines (R := b.Holds) (fun cause _ _ h => DiskBoard.Holds.boot h cause)
    (fun _ _ _ ha h => Memory.HoldsParts.act b.apart b.bootRecord_ge h ha)
    (fun t m n h => (port.startUp b).restart_holds t m n h) h hfits hrun

/-- **The reserved memory in every run of the FreeRTOS ports**: what the areas hold after any boots,
sessions, restarts and failures is what separate memories hold, which a power-on clears but for the
disk and other resets keep; the starts of the software are the same, and the CDS is read so too, at
an offset and with a size whose sum does not wrap. The RAM is taken to keep its contents over a
power-up. -/
theorem areas_of_boots {tr : List (Sessions.Event Uint32 Act Uint32)}
    (hfits : ∀ a, .act a ∈ tr → a.Fits .sharedFreertos b.map b.records)
    {t : Sessions.State (ℕ → UInt8) Start Uint32}
    (hrun : Transition.run (Sessions.step (memoryMachine b port)) ⟨mem, .off⟩ tr = some t) :
    ∃ u, Transition.run (Sessions.step (partsMachine b port))
        ⟨Memory.partsOf b.map b.records b.endian mem, .off⟩ tr = some u ∧
      u.phase = t.phase ∧ u.mem.bspResetType = b.bspResetType t.mem ∧
      (∀ i, ∀ k < areaSize b.cfg b.records i.id,
        t.mem ((b.map.area b.records i.id).start + k) = u.mem.area i k) ∧
      ∀ data (off n : Uint32), off.toNat + n.toNat < 2 ^ 32 →
        readFromCDSAt .sharedFreertos b.map t.mem data off n =
          readFromCDS .sharedFreertos b.cfg.cdsSize.toNat (u.mem.area .cds) data off n := by
  obtain ⟨u, hu, hphase, hholds⟩ := holds_of_run hfits (Memory.holds_partsOf ..) hrun
  refine ⟨u, hu, hphase, hholds.bspResetType_eq.symm, fun i k hk => ?_, fun data off n hrange => ?_⟩
  · exact hholds.areas i k (b.apart.area_size i.id ▸ hk)
  · exact Memory.readFromCDSAt_eq b.apart hholds.areas hrange data

/-! ## What is kept -/

/-- An event that keeps the byte `k` of the area `i`: a boot that is no power-on, for the disk any
boot, an access that stays in its area and does not store to the byte, and the end of a session. -/
def Keeps (b : DiskBoard w) (port : RamPort) (i : DataArea) (k : ℕ)
    (s : Sessions.State (ℕ → UInt8) Start Uint32) : Sessions.Event Uint32 Act Uint32 → Prop
  | .boot cause =>
      i = .volatileDisk ∨ ((port.startUp b).boot cause s.mem).1.resetType ≠ rstTypePoweron
  | .act a => a.Fits .sharedFreertos b.map b.records ∧ ¬a.Touches b.cfg.cdsSize.toNat i k
  | .restart _ | .fail => True

/-- **Data that is left alone survives all resets but a power-on, and on the volatile disk every
reset**, whatever is stored to the bytes beside it and to the other areas. The RAM is taken to keep
its contents over a power-up. -/
theorem kept_of_boots {i : DataArea} {k : ℕ} (hk : k < areaSize b.cfg b.records i.id)
    {tr : List (Sessions.Event Uint32 Act Uint32)}
    {s t : Sessions.State (ℕ → UInt8) Start Uint32}
    (hkeeps : Transition.Always (Sessions.step (memoryMachine b port)) (Keeps b port i k) s tr)
    (hrun : Transition.run (Sessions.step (memoryMachine b port)) s tr = some t) :
    t.mem ((b.map.area b.records i.id).start + k) =
      s.mem ((b.map.area b.records i.id).start + k) := by
  have hsize : k < (dataArea b.map b.records i).size := b.apart.area_size i.id ▸ hk
  refine Transition.run_of_always (I := fun u => u.mem ((b.map.area b.records i.id).start + k) =
    s.mem ((b.map.area b.records i.id).start + k)) rfl (fun u e v hu he hstep => ?_) hkeeps hrun
  rw [← hu]
  have hparts : b.Holds u.mem (Memory.partsOf b.map b.records b.endian u.mem) :=
    Memory.holds_partsOf ..
  rcases Sessions.step_cases hstep with ⟨cause, rfl, rfl⟩ | ⟨x, a, rfl, -, rfl⟩ |
    ⟨x, r, rfl, -, rfl⟩ | ⟨x, rfl, -, rfl⟩
  · obtain ⟨hstart, hboot⟩ := @DiskBoard.Holds.boot _ b port _ _ hparts cause
    refine (hboot.areas i k hsize).trans ?_
    show (initParts _ _).area i k = _
    rw [initParts]
    split_ifs with hpoweron
    · -- a power-on is a boot that keeps the disk
      have hdisk : i = .volatileDisk := he.resolve_right fun h => h (hstart ▸ hpoweron)
      exact congrFun (if_pos hdisk) k
    · rfl
  · have hact := Memory.HoldsParts.act (p := .sharedFreertos) b.apart b.bootRecord_ge hparts he.1
    exact (hact.areas i k hsize).trans (Act.applyParts_of_not_touches he.2 _)
  · exact ((port.startUp b).restart_holds r _ _ hparts).areas i k hsize
  · rfl

end Refinement

/-- A board of mpfs-discovery with a small disk. -/
def diskBoard : DiskBoard 64 where
  toBoard := Mpfs.sampleBoard
  disk_lt := by decide

/-- A power-up, a store to the disk and a write to the CDS, and a power-up after a restart. -/
def diskSessions : List (Sessions.Event Uint32 Act Uint32) :=
  [.boot 0x20, .act (.storeApp .volatileDisk 3 7), .act (.writeToCDS (some fun _ => 5) 0 4),
    .restart rstTypeProcessor, .boot 0x20]

lemma fits_diskSessions (a : Act) (ha : .act a ∈ diskSessions) :
    a.Fits .sharedFreertos diskBoard.map diskBoard.records := by
  simp only [diskSessions, List.mem_cons, reduceCtorEq, Sessions.Event.act.injEq, false_or,
    List.not_mem_nil, or_false] at ha
  rcases ha with rfl | rfl
  · exact ⟨_, rfl, by decide⟩
  · show (0 : Uint32).toNat + (4 : Uint32).toNat < 2 ^ 32
    decide

/-- The two sessions of the board are two sessions of separate memories. -/
theorem areas_of_boots_of_two :
    ∃ t u, Transition.run
        (Sessions.step (memoryMachine diskBoard (.mpfsDiscovery Mpfs.sampleMasks)))
        ⟨fun _ => 9, .off⟩ diskSessions = some t ∧
      Transition.run (Sessions.step (partsMachine diskBoard (.mpfsDiscovery Mpfs.sampleMasks)))
        ⟨Memory.partsOf diskBoard.map diskBoard.records diskBoard.endian fun _ => 9, .off⟩
        diskSessions = some u ∧
      t.mem ((diskBoard.map.area diskBoard.records .cds).start + 3) = u.mem.area .cds 3 := by
  obtain ⟨t, ht⟩ : ∃ t, Transition.run
      (Sessions.step (memoryMachine diskBoard (.mpfsDiscovery Mpfs.sampleMasks)))
      ⟨fun _ => 9, .off⟩ diskSessions = some t := ⟨_, rfl⟩
  obtain ⟨u, hu, -, -, hareas, -⟩ := areas_of_boots fits_diskSessions ht
  exact ⟨t, u, ht, hu, hareas .cds 3 (by decide)⟩

/-- A byte of the disk of noelv outlives a power-on and a store beside it. -/
theorem kept_of_boots_of_poweron :
    ∃ t, Transition.run (Sessions.step (memoryMachine diskBoard (.noelv Shared.sampleHlp)))
        ⟨fun _ => 9, .off⟩ [.boot Shared.sampleHlp.poweron, .act (.storeApp .volatileDisk 4 8)] =
        some t ∧
      t.mem ((diskBoard.map.area diskBoard.records .volatileDisk).start + 3) = 9 := by
  obtain ⟨t, ht⟩ : ∃ t, Transition.run
      (Sessions.step (memoryMachine diskBoard (.noelv Shared.sampleHlp))) ⟨fun _ => 9, .off⟩
      [.boot Shared.sampleHlp.poweron, .act (.storeApp .volatileDisk 4 8)] = some t := ⟨_, rfl⟩
  refine ⟨t, ht, @kept_of_boots _ _ _ .volatileDisk 3 (by decide) _ _ _ ?_ ht⟩
  refine ⟨.inl rfl, fun u _ => ⟨⟨⟨_, rfl, by decide⟩, ?_⟩, fun _ _ => trivial⟩⟩
  exact fun h => absurd h.2 (by decide)

end CfePsp.Freertos
