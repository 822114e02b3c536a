import CfePsp.Eeprom.Direct
import CfePsp.Lib.Runs

set_option relaxedAutoImplicit false
set_option autoImplicit false

/-!
# Direct access to memory

The modules `ram_direct`, `port_direct` and `eeprom_direct` and the functions of
`cfe_psp_memutils.c` access one and the same address space, in words of several widths. A word that
is written with one of them is read with the others, and in other widths, as the byte order of the
machine has it.

## Main definitions

* `CfePsp.DirectAccess.step` — the accesses, with what they return.
* `CfePsp.DirectAccess.lastByte` — the byte that the last access to an address has left there.

## Main results

* `CfePsp.DirectAccess.mem_of_run` — that is what the memory holds.
* `CfePsp.DirectAccess.read_of_run` — a read returns these bytes, or refuses a misaligned address.

## Design

A `cpuaddr` has 32 bits. The writes of `eeprom_direct` and two of the reads are those of
`CfePsp.Eeprom.Direct`. A register behind a port is a cell of the memory. A copy whose blocks
overlap or leave the address space is undefined in C and not enabled here.
-/

namespace CfePsp.DirectAccess

open Transition Eeprom
open Words (Endian)

/-! ## The functions -/

section Functions

variable (e : Endian) (mem : Mem)

/-! ### ram_direct -/

/-- `CFE_PSP_MemRead8`: status, and the variable that is read into. -/
def memRead8 (memoryAddress : Uint32) : ℤ × BitVec 8 :=
  (Status.success, (mem memoryAddress.toNat).toBitVec)

/-- `CFE_PSP_MemWrite8`: status and memory. -/
def memWrite8 (memoryAddress : Uint32) (byteValue : BitVec 8) : ℤ × Mem :=
  (Status.success, Lanes.store e 1 mem memoryAddress.toNat byteValue)

/-- `CFE_PSP_MemWrite16`: status and memory. -/
def memWrite16 (memoryAddress : Uint32) (uint16Value : Uint16) : ℤ × Mem :=
  if memoryAddress &&& 0x00000001 ≠ 0 then (Status.errorAddressMisaligned, mem)
  else (Status.success, Lanes.store e 2 mem memoryAddress.toNat uint16Value)

/-- `CFE_PSP_MemWrite32`: status and memory. -/
def memWrite32 (memoryAddress : Uint32) (uint32Value : Uint32) : ℤ × Mem :=
  if memoryAddress &&& 0x00000003 ≠ 0 then (Status.errorAddressMisaligned, mem)
  else (Status.success, Lanes.store e 4 mem memoryAddress.toNat uint32Value)

/-! ### port_direct -/

/-- `CFE_PSP_PortRead8`. -/
def portRead8 (portAddress : Uint32) : ℤ × BitVec 8 := memRead8 mem portAddress

/-- `CFE_PSP_PortRead16`. -/
def portRead16 (portAddress : Uint32) (uint16Value : Uint16) : ℤ × Uint16 :=
  memRead16 e mem portAddress uint16Value

/-- `CFE_PSP_PortRead32`. -/
def portRead32 (portAddress : Uint32) (uint32Value : Uint32) : ℤ × Uint32 :=
  memRead32 e mem portAddress uint32Value

/-- `CFE_PSP_PortWrite8`. -/
def portWrite8 (portAddress : Uint32) (byteValue : BitVec 8) : ℤ × Mem :=
  memWrite8 e mem portAddress byteValue

/-- `CFE_PSP_PortWrite16`. -/
def portWrite16 (portAddress : Uint32) (uint16Value : Uint16) : ℤ × Mem :=
  memWrite16 e mem portAddress uint16Value

/-- `CFE_PSP_PortWrite32`. -/
def portWrite32 (portAddress : Uint32) (uint32Value : Uint32) : ℤ × Mem :=
  memWrite32 e mem portAddress uint32Value

/-! ### cfe_psp_memutils.c -/

/-- `CFE_PSP_MemCpy`: status and memory. -/
def memCpy (dest src n : Uint32) : ℤ × Mem :=
  (Status.success, Cells.overlay mem (fun i => mem (src.toNat + i)) dest.toNat n.toNat)

/-- `CFE_PSP_MemSet`: status and memory. -/
def memSet (dest : Uint32) (value : UInt8) (n : Uint32) : ℤ × Mem :=
  (Status.success, Cells.overlay mem (fun _ => value) dest.toNat n.toNat)

end Functions

/-! ## Accesses -/

/-- The width of a word. -/
inductive Width
  | w8
  | w16
  | w32
  deriving DecidableEq

/-- The number of bytes. -/
def Width.bytes : Width → ℕ
  | .w8 => 1
  | .w16 => 2
  | .w32 => 4

/-- The words of a width. -/
abbrev Width.Word (width : Width) : Type := BitVec (8 * width.bytes)

/-- The modules with functions that read. -/
inductive ReadModule
  | ram
  | port
  deriving DecidableEq

/-- The modules with functions that write; the local variables of those of `eeprom_direct` are not
initialised. -/
inductive WriteModule
  | ram
  | port
  | eeprom (write16 : Uint16) (write32 : Uint32)
  deriving DecidableEq

/-- The function that reads, with what the variable held before. -/
def read (e : Endian) (mem : Mem) (address : Uint32) :
    ReadModule → (width : Width) → width.Word → ℤ × width.Word
  | .ram, .w8, _ => memRead8 mem address
  | .ram, .w16, before => memRead16 e mem address before
  | .ram, .w32, before => memRead32 e mem address before
  | .port, .w8, _ => portRead8 mem address
  | .port, .w16, before => portRead16 e mem address before
  | .port, .w32, before => portRead32 e mem address before

/-- The function that writes. -/
def write (e : Endian) (mem : Mem) (address : Uint32) :
    WriteModule → (width : Width) → width.Word → ℤ × Mem
  | .ram, .w8, value => memWrite8 e mem address value
  | .ram, .w16, value => memWrite16 e mem address value
  | .ram, .w32, value => memWrite32 e mem address value
  | .port, .w8, value => portWrite8 e mem address value
  | .port, .w16, value => portWrite16 e mem address value
  | .port, .w32, value => portWrite32 e mem address value
  | .eeprom write16 write32, .w8, value => Direct.eepromWrite8 e mem address value write16 write32
  | .eeprom _ write32, .w16, value => Direct.eepromWrite16 e mem address value write32
  | .eeprom _ _, .w32, value => Direct.eepromWrite32 e mem address value

/-- The accesses, with the status and the value that are returned. -/
inductive Access
  | read (m : ReadModule) (width : Width) (address : Uint32) (before : width.Word) (status : ℤ)
      (value : width.Word)
  | write (m : WriteModule) (width : Width) (address : Uint32) (value : width.Word) (status : ℤ)
  | memCpy (dest src n : Uint32)
  | memSet (dest : Uint32) (value : UInt8) (n : Uint32)

/-- Two blocks in the address space have no byte in common. -/
def Separate (dest src n : ℕ) : Prop :=
  dest + n ≤ 2 ^ 32 ∧ src + n ≤ 2 ^ 32 ∧ (dest + n ≤ src ∨ src + n ≤ dest)

instance (dest src n : ℕ) : Decidable (Separate dest src n) :=
  inferInstanceAs (Decidable (_ ∧ _ ∧ (_ ∨ _)))

/-- An access. -/
def step (e : Endian) (mem : Mem) : Access → Option Mem
  | .read m width address before status value =>
      if DirectAccess.read e mem address m width before = (status, value) then some mem else none
  | .write m width address value status =>
      let result := DirectAccess.write e mem address m width value
      if result.1 = status then some result.2 else none
  | .memCpy dest src n =>
      if Separate dest.toNat src.toNat n.toNat then some (DirectAccess.memCpy mem dest src n).2
      else none
  | .memSet dest value n =>
      if dest.toNat + n.toNat ≤ 2 ^ 32 then some (DirectAccess.memSet mem dest value n).2 else none

/-! ## The last byte -/

/-- An access to `n` bytes at `p` concerns the byte at `a`. -/
def Covers (p n a : ℕ) : Prop := p ≤ a ∧ a < p + n

instance (p n a : ℕ) : Decidable (Covers p n a) := inferInstanceAs (Decidable (_ ∧ _))

/-- **What the last access to a byte has left there**, from the accesses so far, the last one first:
the part of the value that was written or set there, the byte that was last at the place it was
copied from, or what was there at the beginning. A misaligned write is no access. -/
def lastByte (e : Endian) (mem : Mem) : List Access → ℕ → UInt8
  | [], a => mem a
  | .read _ _ _ _ _ _ :: earlier, a => lastByte e mem earlier a
  | .write _ width address value _ :: earlier, a =>
      if width.bytes ∣ address.toNat ∧ Covers address.toNat width.bytes a then
        Lanes.byte value (Lanes.place e width.bytes (a - address.toNat))
      else lastByte e mem earlier a
  | .memCpy dest src n :: earlier, a =>
      if Covers dest.toNat n.toNat a then lastByte e mem earlier (src.toNat + (a - dest.toNat))
      else lastByte e mem earlier a
  | .memSet dest value n :: earlier, a =>
      if Covers dest.toNat n.toNat a then value else lastByte e mem earlier a

section Accesses

variable {e : Endian} {mem mem' : Mem} {address : Uint32} {width : Width} {value : width.Word}
  {tr pre post : List Access}

lemma memWrite16_eq (value : Uint16) : memWrite16 e mem address value =
    if 2 ∣ address.toNat then (Status.success, Lanes.store e 2 mem address.toNat value)
    else (Status.errorAddressMisaligned, mem) := by
  rw [memWrite16]
  split_ifs with hodd heven heven
  · exact absurd (and_one_eq_zero_iff.2 heven) hodd
  · rfl
  · rfl
  · exact absurd (and_one_eq_zero_iff.1 (not_not.1 hodd)) heven

lemma memWrite32_eq (value : Uint32) : memWrite32 e mem address value =
    if 4 ∣ address.toNat then (Status.success, Lanes.store e 4 mem address.toNat value)
    else (Status.errorAddressMisaligned, mem) := by
  rw [memWrite32]
  split_ifs with hodd heven heven
  · exact absurd (and_three_eq_zero_iff.2 heven) hodd
  · rfl
  · rfl
  · exact absurd (and_three_eq_zero_iff.1 (not_not.1 hodd)) heven

/-- The writes of `eeprom_direct` to memory are those of `ram_direct`. -/
lemma eepromWrite16_eq (value : Uint16) (write32 : Uint32) :
    Direct.eepromWrite16 e mem address value write32 = memWrite16 e mem address value := by
  rw [memWrite16_eq]
  split_ifs with haligned
  · exact eepromWrite16_aligned haligned value write32
  · rw [Direct.eepromWrite16, if_pos fun h => haligned (and_one_eq_zero_iff.1 h)]

/-- A write is the plain store, or is refused. -/
lemma write_eq (m : WriteModule) : write e mem address m width value =
    if width.bytes ∣ address.toNat then
      (Status.success, Lanes.store e width.bytes mem address.toNat value)
    else (Status.errorAddressMisaligned, mem) := by
  cases width with
  | w8 =>
    have hone : Width.w8.bytes ∣ address.toNat := one_dvd address.toNat
    rw [if_pos hone]
    cases m with
    | ram => rfl
    | port => rfl
    | eeprom write16 write32 => exact eepromWrite8_eq value write16 write32
  | w16 =>
    cases m with
    | ram => exact memWrite16_eq value
    | port => exact memWrite16_eq value
    | eeprom write16 write32 => exact (eepromWrite16_eq value write32).trans (memWrite16_eq value)
  | w32 =>
    cases m with
    | ram => exact memWrite32_eq value
    | port => exact memWrite32_eq value
    | eeprom write16 write32 => exact memWrite32_eq value

/-- A read returns the bytes in memory, or is refused. -/
def Reads (e : Endian) (mem : Mem) (address : Uint32) (n : ℕ) {W : ℕ} (before : BitVec W)
    (result : ℤ × BitVec W) : Prop :=
  (n ∣ address.toNat → result.1 = Status.success ∧
    ∀ i < n, Lanes.byte result.2 (Lanes.place e n i) = mem (address.toNat + i)) ∧
  (¬n ∣ address.toNat → result = (Status.errorAddressMisaligned, before))

lemma reads_memRead8 (before : BitVec 8) :
    Reads e mem address 1 before (memRead8 mem address) := by
  refine ⟨fun _ => ⟨rfl, fun i hi => ?_⟩, fun h => absurd (one_dvd _) h⟩
  obtain rfl : i = 0 := Nat.lt_one_iff.1 hi
  have hplace : Lanes.place e 1 0 = 0 := by cases e <;> rfl
  rw [hplace]
  exact Lanes.byte_toBitVec _

lemma reads_memRead16 (before : Uint16) :
    Reads e mem address 2 before (memRead16 e mem address before) := by
  refine ⟨fun h => ?_, fun h => ?_⟩
  · rw [memRead16, if_neg (not_not_intro (and_one_eq_zero_iff.2 h))]
    exact ⟨rfl, fun i hi => Lanes.byte_load16 hi⟩
  · rw [memRead16, if_pos fun h0 => h (and_one_eq_zero_iff.1 h0)]

lemma reads_memRead32 (before : Uint32) :
    Reads e mem address 4 before (memRead32 e mem address before) := by
  refine ⟨fun h => ?_, fun h => ?_⟩
  · rw [memRead32, if_neg (not_not_intro (and_three_eq_zero_iff.2 h))]
    exact ⟨rfl, fun i hi => Lanes.byte_loadWord hi⟩
  · rw [memRead32, if_pos fun h0 => h (and_three_eq_zero_iff.1 h0)]

lemma reads_read (m : ReadModule) (before : width.Word) :
    Reads e mem address width.bytes before (read e mem address m width before) := by
  cases width with
  | w8 => cases m <;> exact reads_memRead8 before
  | w16 => cases m <;> exact reads_memRead16 before
  | w32 => cases m <;> exact reads_memRead32 before

/-- An access leaves the last bytes in the memory. -/
lemma lastByte_step {mem₀ : Mem} {earlier : List Access} {x : Access}
    (h : ∀ a, mem a = lastByte e mem₀ earlier a) (hs : step e mem x = some mem') (a : ℕ) :
    mem' a = lastByte e mem₀ (x :: earlier) a := by
  cases x with
  | read m width address before status value =>
    simp only [step] at hs
    split_ifs at hs
    obtain rfl := Option.some.inj hs
    exact h a
  | write m width address value status =>
    simp only [step, write_eq] at hs
    split_ifs at hs with haligned
    · obtain rfl := Option.some.inj hs
      rw [lastByte]
      by_cases ha : Covers address.toNat width.bytes a
      · rw [if_pos ⟨haligned, ha⟩]
        show Lanes.store e width.bytes mem address.toNat value a = _
        rw [Lanes.store]
        exact Cells.overlay_of_mem ha
      · rw [if_neg fun hand => ha hand.2, ← h a]
        exact Lanes.store_of_notMem ha
    · obtain rfl := Option.some.inj hs
      rw [lastByte, if_neg fun hand => haligned hand.1]
      exact h a
  | memCpy dest src n =>
    simp only [step] at hs
    split_ifs at hs with hfits
    obtain rfl := Option.some.inj hs
    simp only [memCpy, lastByte]
    split_ifs with ha
    · exact (Cells.overlay_of_mem ha).trans (h _)
    · exact (Cells.overlay_of_notMem ha).trans (h a)
  | memSet dest value n =>
    simp only [step] at hs
    split_ifs at hs with hfits
    obtain rfl := Option.some.inj hs
    simp only [memSet, lastByte]
    split_ifs with ha
    · exact Cells.overlay_of_mem ha
    · exact (Cells.overlay_of_notMem ha).trans (h a)

/-- **After any accesses the memory holds the last bytes.** -/
theorem mem_of_run (hrun : run (step e) mem tr = some mem') (a : ℕ) :
    mem' a = lastByte e mem tr.reverse a := by
  revert a
  refine run_invariant (P := fun tr mem' => ∀ a, mem' a = lastByte e mem tr.reverse a)
    (fun _ => rfl) (fun tr u x t ih hs a => ?_) hrun
  rw [List.reverse_append, List.reverse_singleton]
  exact lastByte_step ih hs a

/-- **Reading back.** Whatever was accessed before, in which widths and through which modules, a
read of an aligned word succeeds with the last bytes at its address, in the order of the machine; a
misaligned one is refused and leaves the variable alone. A `cpuaddr` has 32 bits, as on all targets
that build these modules. -/
theorem read_of_run {m : ReadModule} {before : width.Word} {status : ℤ}
    (hrun : run (step e) mem (pre ++ .read m width address before status value :: post) =
      some mem') :
    (width.bytes ∣ address.toNat → status = Status.success ∧ ∀ i < width.bytes,
      Lanes.byte value (Lanes.place e width.bytes i) =
        lastByte e mem pre.reverse (address.toNat + i)) ∧
    (¬width.bytes ∣ address.toNat → status = Status.errorAddressMisaligned ∧ value = before) := by
  obtain ⟨u, hpre, hpost⟩ := run_append.1 hrun
  obtain ⟨t, hs, -⟩ := run_cons.1 hpost
  simp only [step] at hs
  split_ifs at hs with hread
  obtain ⟨haligned, hrefused⟩ := @reads_read e u address width m before
  rw [hread] at haligned hrefused
  refine ⟨fun h => ?_, fun h => Prod.mk.inj (hrefused h)⟩
  obtain ⟨hstatus, hbytes⟩ := haligned h
  exact ⟨hstatus, fun i hi => (hbytes i hi).trans (mem_of_run hpre _)⟩

/-- Half of a word is written to EEPROM, the word is copied, and the copy is read. -/
def copyThenRead : List Access :=
  [.write (.eeprom 0 0) .w16 6 (0xABCD : Uint16) Status.success, .memCpy 16 4 4]

theorem read_of_run_of_copy :
    ∃ mem', run (step .little) (fun a => UInt8.ofNat a) (copyThenRead ++
        .read .port .w32 16 (0 : Uint32) Status.success (0xABCD0504 : Uint32) :: []) = some mem' ∧
      ∀ i < 4, Lanes.byte (0xABCD0504 : Uint32) (Lanes.place .little 4 i) =
        lastByte .little (fun a => UInt8.ofNat a) copyThenRead.reverse (16 + i) := by
  obtain ⟨mem', hrun⟩ : ∃ mem', run (step .little) (fun a => UInt8.ofNat a) (copyThenRead ++
      .read .port .w32 16 (0 : Uint32) Status.success (0xABCD0504 : Uint32) :: []) = some mem' :=
    Option.isSome_iff_exists.1 (by decide)
  have hread := (read_of_run hrun).1 (by decide)
  exact ⟨mem', hrun, hread.2⟩

end Accesses

end CfePsp.DirectAccess
