import CfePsp.Basic
import CfePsp.Lib.Lanes

set_option relaxedAutoImplicit false
set_option autoImplicit false

/-!
# Writing to EEPROM, directly and through a mapped file

`eeprom_direct` writes to EEPROM in words of 32 bits only: a narrow write loads the next wider word,
replaces a half of it and writes the wider word, and there is one such computation for each byte
order. `eeprom_mmap_file` stores the value as it is.

## Main definitions

* `CfePsp.Eeprom.Direct.eepromWrite8`, `CfePsp.Eeprom.Direct.eepromWrite16`,
  `CfePsp.Eeprom.Direct.eepromWrite32` — the writes of `eeprom_direct`.
* `CfePsp.Eeprom.MmapFile.eepromWrite8`, `CfePsp.Eeprom.MmapFile.eepromWrite16`,
  `CfePsp.Eeprom.MmapFile.eepromWrite32` — the writes of `eeprom_mmap_file`.
* `CfePsp.Eeprom.Agrees` — a write refuses misaligned addresses and is a plain store at the others.

## Main results

* `CfePsp.Eeprom.eepromWrite_agrees` — the writes of `eeprom_direct` agree with those of
  `eeprom_mmap_file`, in both byte orders.

## Design

`SOFTWARE_LITTLE_BIT_ORDER` is defined on the machines whose byte order is little-endian. The local
variables that a read function fills in are not initialised; what they hold before is a parameter.
-/

namespace CfePsp.Eeprom

open Words (Endian)

/-- The memory, by addresses. -/
abbrev Mem := ℕ → UInt8

/-! ## ram_direct -/

/-- `CFE_PSP_MemRead16`: status, and the variable that is read into. -/
def memRead16 (e : Endian) (mem : Mem) (memoryAddress : Uint32) (uint16Value : Uint16) :
    ℤ × Uint16 :=
  if memoryAddress &&& 0x00000001 ≠ 0 then (Status.errorAddressMisaligned, uint16Value)
  else (Status.success, Lanes.load16 e mem memoryAddress.toNat)

/-- `CFE_PSP_MemRead32`: status, and the variable that is read into. -/
def memRead32 (e : Endian) (mem : Mem) (memoryAddress : Uint32) (uint32Value : Uint32) :
    ℤ × Uint32 :=
  if memoryAddress &&& 0x00000003 ≠ 0 then (Status.errorAddressMisaligned, uint32Value)
  else (Status.success, Words.loadWord e mem memoryAddress.toNat)

/-! ## eeprom_direct -/

namespace Direct

/-- `CFE_PSP_EepromWrite32`: status and memory. -/
def eepromWrite32 (e : Endian) (mem : Mem) (memoryAddress : Uint32) (uint32Value : Uint32) :
    ℤ × Mem :=
  if memoryAddress &&& 0x00000003 ≠ 0 then (Status.errorAddressMisaligned, mem)
  else (Status.success, Lanes.store e 4 mem memoryAddress.toNat uint32Value)

/-- `CFE_PSP_EepromWrite16`: status and memory. -/
def eepromWrite16 (e : Endian) (mem : Mem) (memoryAddress : Uint32) (uint16Value : Uint16)
    (write32 : Uint32) : ℤ × Mem :=
  if memoryAddress &&& 0x00000001 ≠ 0 then (Status.errorAddressMisaligned, mem)
  else
    let temp32 : Uint32 := uint16Value.setWidth 32
    match e with
    | .little =>
        if memoryAddress &&& 0x00000002 ≠ 0 then
          let alignedAddress := memoryAddress - 2
          let write32 := (memRead32 e mem alignedAddress write32).2
          eepromWrite32 e mem alignedAddress (write32 &&& 0x0000FFFF ||| temp32 <<< 16)
        else
          let alignedAddress := memoryAddress
          let write32 := (memRead32 e mem alignedAddress write32).2
          eepromWrite32 e mem alignedAddress (write32 &&& 0xFFFF0000 ||| temp32)
    | .big =>
        if memoryAddress &&& 0x00000002 ≠ 0 then
          let alignedAddress := memoryAddress - 2
          let write32 := (memRead32 e mem alignedAddress write32).2
          eepromWrite32 e mem alignedAddress (write32 &&& 0xFFFF0000 ||| temp32)
        else
          let alignedAddress := memoryAddress
          let write32 := (memRead32 e mem alignedAddress write32).2
          eepromWrite32 e mem alignedAddress (write32 &&& 0x0000FFFF ||| temp32 <<< 16)

/-- `CFE_PSP_EepromWrite8`: status and memory. -/
def eepromWrite8 (e : Endian) (mem : Mem) (memoryAddress : Uint32) (byteValue : BitVec 8)
    (write16 : Uint16) (write32 : Uint32) : ℤ × Mem :=
  let temp16 : Uint16 := byteValue.setWidth 16
  match e with
  | .little =>
      if memoryAddress &&& 0x00000001 ≠ 0 then
        let alignedAddress := memoryAddress - 1
        let write16 := (memRead16 e mem alignedAddress write16).2
        eepromWrite16 e mem alignedAddress (write16 &&& 0x00FF ||| temp16 <<< 8) write32
      else
        let alignedAddress := memoryAddress
        let write16 := (memRead16 e mem alignedAddress write16).2
        eepromWrite16 e mem alignedAddress (temp16 ||| write16 &&& 0xFF00) write32
  | .big =>
      if memoryAddress &&& 0x00000001 ≠ 0 then
        let alignedAddress := memoryAddress - 1
        let write16 := (memRead16 e mem alignedAddress write16).2
        eepromWrite16 e mem alignedAddress (write16 &&& 0xFF00 ||| temp16) write32
      else
        let alignedAddress := memoryAddress
        let write16 := (memRead16 e mem alignedAddress write16).2
        eepromWrite16 e mem alignedAddress (temp16 <<< 8 ||| write16 &&& 0x00FF) write32

end Direct

/-! ## eeprom_mmap_file -/

namespace MmapFile

/-- `CFE_PSP_EepromWrite32`: status and memory. -/
def eepromWrite32 (e : Endian) (mem : Mem) (memoryAddress : Uint32) (uint32Value : Uint32) :
    ℤ × Mem :=
  (Status.success, Lanes.store e 4 mem memoryAddress.toNat uint32Value)

/-- `CFE_PSP_EepromWrite16`: status and memory. -/
def eepromWrite16 (e : Endian) (mem : Mem) (memoryAddress : Uint32) (uint16Value : Uint16) :
    ℤ × Mem :=
  (Status.success, Lanes.store e 2 mem memoryAddress.toNat uint16Value)

/-- `CFE_PSP_EepromWrite8`: status and memory. -/
def eepromWrite8 (e : Endian) (mem : Mem) (memoryAddress : Uint32) (byteValue : BitVec 8) :
    ℤ × Mem :=
  (Status.success, Lanes.store e 1 mem memoryAddress.toNat byteValue)

end MmapFile

/-! ## What a write is to do -/

/-- **A write of `n` bytes agrees with the plain one**: exactly at the addresses that are no
multiple of `n` it is refused and leaves the memory alone; at the others it succeeds with the memory
of the plain write, in which the bytes of the value are at the address, in the order of the machine,
and all others are as they were. -/
structure Agrees (e : Endian) (n : ℕ) {V : ℕ} (value : BitVec V) (mem : Mem)
    (memoryAddress : Uint32) (direct plain : ℤ × Mem) : Prop where
  misaligned_iff : direct = (Status.errorAddressMisaligned, mem) ↔ ¬n ∣ memoryAddress.toNat
  same : n ∣ memoryAddress.toNat → direct = plain ∧ direct.1 = Status.success
  stored : n ∣ memoryAddress.toNat → ∀ i < n,
    direct.2 (memoryAddress.toNat + i) = Lanes.byte value (Lanes.place e n i)
  frame : n ∣ memoryAddress.toNat → ∀ a,
    ¬(memoryAddress.toNat ≤ a ∧ a < memoryAddress.toNat + n) → direct.2 a = mem a

/-! ## Aligned addresses -/

section Aligned

variable {e : Endian} {mem : Mem} {addr : Uint32}

/-- The address bits that the alignment checks look at. -/
lemma and_one_eq_zero_iff : addr &&& 0x00000001 = 0 ↔ 2 ∣ addr.toNat :=
  Window.and_mask_eq_zero_iff (w := 32) (k := 1) (by omega) addr

lemma and_three_eq_zero_iff : addr &&& 0x00000003 = 0 ↔ 4 ∣ addr.toNat :=
  Window.and_mask_eq_zero_iff (w := 32) (k := 2) (by omega) addr

/-- The second bit of an even address tells which half of a word it is in. -/
lemma and_two_eq_zero_iff (h : 2 ∣ addr.toNat) : addr &&& 0x00000002 = 0 ↔ 4 ∣ addr.toNat :=
  Window.and_bit_eq_zero_iff (w := 32) (k := 1) (by omega) h

lemma memRead32_aligned (h : 4 ∣ addr.toNat) (value : Uint32) :
    (memRead32 e mem addr value).2 = Words.loadWord e mem addr.toNat := by
  rw [memRead32, if_neg (not_not_intro (and_three_eq_zero_iff.2 h))]

lemma memRead16_aligned (h : 2 ∣ addr.toNat) (value : Uint16) :
    (memRead16 e mem addr value).2 = Lanes.load16 e mem addr.toNat := by
  rw [memRead16, if_neg (not_not_intro (and_one_eq_zero_iff.2 h))]

/-- An aligned write of a word is the plain one. -/
lemma eepromWrite32_aligned (h : 4 ∣ addr.toNat) (value : Uint32) :
    Direct.eepromWrite32 e mem addr value = MmapFile.eepromWrite32 e mem addr value := by
  rw [Direct.eepromWrite32, if_neg (not_not_intro (and_three_eq_zero_iff.2 h))]
  rfl

end Aligned

/-! ## The narrow writes -/

section Narrow

variable {e : Endian} {mem : Mem} {addr : Uint32}

/-- The masks that keep a half of a word. -/
lemma getLsbD_mask32 : ∀ i < 32, (0xFFFF0000 : Uint32).getLsbD i = decide (8 * 2 ≤ i) ∧
    (0x0000FFFF : Uint32).getLsbD i = decide (i < 8 * 2) := by
  decide

lemma getLsbD_mask16 : ∀ i < 16, (0xFF00 : Uint16).getLsbD i = decide (8 * 1 ≤ i) ∧
    (0x00FF : Uint16).getLsbD i = decide (i < 8 * 1) := by
  decide

/-- Replacing a half of the word at an aligned address and writing the word writes the half. -/
lemma eepromWrite32_low (h : 4 ∣ addr.toNat) (value : Uint16) (write32 : Uint32) :
    Direct.eepromWrite32 e mem addr
        ((memRead32 e mem addr write32).2 &&& 0xFFFF0000 ||| value.setWidth 32) =
      (Status.success, Lanes.store e 2 mem (addr.toNat + Lanes.lowHalf e 2) value) := by
  rw [eepromWrite32_aligned h, memRead32_aligned h, MmapFile.eepromWrite32]
  exact congrArg _ (Lanes.store_low_half (n := 2) rfl rfl (fun i hi => (getLsbD_mask32 i hi).1)
    fun i hi => Lanes.byte_loadWord hi)

lemma eepromWrite32_high (h : 4 ∣ addr.toNat) (value : Uint16) (write32 : Uint32) :
    Direct.eepromWrite32 e mem addr
        ((memRead32 e mem addr write32).2 &&& 0x0000FFFF ||| value.setWidth 32 <<< 16) =
      (Status.success, Lanes.store e 2 mem (addr.toNat + Lanes.highHalf e 2) value) := by
  rw [eepromWrite32_aligned h, memRead32_aligned h, MmapFile.eepromWrite32]
  exact congrArg _ (Lanes.store_high_half (n := 2) rfl (fun i hi => (getLsbD_mask32 i hi).2)
    fun i hi => Lanes.byte_loadWord hi)

/-- **An aligned write of 16 bits** is the plain one: it replaces the half of a word that the
address is in. -/
lemma eepromWrite16_aligned (h : 2 ∣ addr.toNat) (value : Uint16) (write32 : Uint32) :
    Direct.eepromWrite16 e mem addr value write32 = MmapFile.eepromWrite16 e mem addr value := by
  rw [Direct.eepromWrite16, if_neg (not_not_intro (and_one_eq_zero_iff.2 h))]
  by_cases hword : 4 ∣ addr.toNat
  · have hbit : ¬addr &&& 0x00000002 ≠ 0 := not_not_intro ((and_two_eq_zero_iff h).2 hword)
    cases e with
    | little =>
      simp only [if_neg hbit]
      exact eepromWrite32_low hword value write32
    | big =>
      simp only [if_neg hbit]
      exact eepromWrite32_high hword value write32
  · have hbit : addr &&& 0x00000002 ≠ 0 := fun h0 => hword ((and_two_eq_zero_iff h).1 h0)
    have haddr : (addr - 2).toNat = addr.toNat - 2 := Window.toNat_sub_ofNat (d := 2) (by omega)
    have hword' : 4 ∣ (addr - 2).toNat := by omega
    have hback : (addr - 2).toNat + 2 = addr.toNat := by omega
    cases e with
    | little =>
      simp only [if_pos hbit]
      refine (eepromWrite32_high hword' value write32).trans ?_
      rw [Lanes.highHalf, hback]
      rfl
    | big =>
      simp only [if_pos hbit]
      refine (eepromWrite32_low hword' value write32).trans ?_
      rw [Lanes.lowHalf, hback]
      rfl

/-- Replacing a half of the 16 bits at an aligned address and writing them writes the half. -/
lemma eepromWrite16_low (h : 2 ∣ addr.toNat) (value : BitVec 8) (write16 : Uint16)
    (write32 : Uint32) :
    Direct.eepromWrite16 e mem addr
        ((memRead16 e mem addr write16).2 &&& 0xFF00 ||| value.setWidth 16) write32 =
      (Status.success, Lanes.store e 1 mem (addr.toNat + Lanes.lowHalf e 1) value) := by
  rw [eepromWrite16_aligned h, memRead16_aligned h, MmapFile.eepromWrite16]
  exact congrArg _ (Lanes.store_low_half (n := 1) rfl rfl (fun i hi => (getLsbD_mask16 i hi).1)
    fun i hi => Lanes.byte_load16 hi)

lemma eepromWrite16_high (h : 2 ∣ addr.toNat) (value : BitVec 8) (write16 : Uint16)
    (write32 : Uint32) :
    Direct.eepromWrite16 e mem addr
        ((memRead16 e mem addr write16).2 &&& 0x00FF ||| value.setWidth 16 <<< 8) write32 =
      (Status.success, Lanes.store e 1 mem (addr.toNat + Lanes.highHalf e 1) value) := by
  rw [eepromWrite16_aligned h, memRead16_aligned h, MmapFile.eepromWrite16]
  exact congrArg _ (Lanes.store_high_half (n := 1) rfl (fun i hi => (getLsbD_mask16 i hi).2)
    fun i hi => Lanes.byte_load16 hi)

/-- **A write of a byte** is the plain one: it replaces the half of 16 bits that the address is
in. -/
lemma eepromWrite8_eq (value : BitVec 8) (write16 : Uint16) (write32 : Uint32) :
    Direct.eepromWrite8 e mem addr value write16 write32 =
      MmapFile.eepromWrite8 e mem addr value := by
  by_cases heven : 2 ∣ addr.toNat
  · have hbit : ¬addr &&& 0x00000001 ≠ 0 := not_not_intro (and_one_eq_zero_iff.2 heven)
    cases e with
    | little =>
      simp only [Direct.eepromWrite8, if_neg hbit, BitVec.or_comm (value.setWidth 16)]
      exact eepromWrite16_low heven value write16 write32
    | big =>
      simp only [Direct.eepromWrite8, if_neg hbit, BitVec.or_comm (value.setWidth 16 <<< 8)]
      exact eepromWrite16_high heven value write16 write32
  · have hbit : addr &&& 0x00000001 ≠ 0 := fun h0 => heven (and_one_eq_zero_iff.1 h0)
    have haddr : (addr - 1).toNat = addr.toNat - 1 := Window.toNat_sub_ofNat (d := 1) (by omega)
    have heven' : 2 ∣ (addr - 1).toNat := by omega
    have hback : (addr - 1).toNat + 1 = addr.toNat := by omega
    cases e with
    | little =>
      simp only [Direct.eepromWrite8, if_pos hbit]
      refine (eepromWrite16_high heven' value write16 write32).trans ?_
      rw [Lanes.highHalf, hback]
      rfl
    | big =>
      simp only [Direct.eepromWrite8, if_pos hbit]
      refine (eepromWrite16_low heven' value write16 write32).trans ?_
      rw [Lanes.lowHalf, hback]
      rfl

end Narrow

/-! ## Main result -/

section Main

variable {e : Endian} {mem : Mem} {addr : Uint32}

/-- A write that is refused at misaligned addresses and is the plain store elsewhere agrees with the
plain write. -/
lemma Agrees.of_store {n V : ℕ} {value : BitVec V} {direct : ℤ × Mem}
    (hplain : n ∣ addr.toNat →
      direct = (Status.success, Lanes.store e n mem addr.toNat value))
    (hrefused : ¬n ∣ addr.toNat → direct = (Status.errorAddressMisaligned, mem)) :
    Agrees e n value mem addr direct
      (Status.success, Lanes.store e n mem addr.toNat value) := by
  refine ⟨⟨fun h hdvd => ?_, hrefused⟩, fun h => ⟨hplain h, ?_⟩, fun h i hi => ?_, fun h a ha => ?_⟩
  · have hstatus := congrArg Prod.fst (h.symm.trans (hplain hdvd))
    have hne : Status.errorAddressMisaligned ≠ Status.success := by decide
    exact absurd hstatus hne
  · rw [hplain h]
  · rw [hplain h]
    exact Lanes.store_add e mem addr.toNat value hi
  · rw [hplain h]
    exact Lanes.store_of_notMem ha

/-- **The two EEPROM modules agree**, in both byte orders: at every address, for every value and
whatever the memory and the local variables hold, the writes of `eeprom_direct` are refused exactly
at addresses that are no multiple of the width, and otherwise do what those of `eeprom_mmap_file`
do.

**Proof sketch.** A narrow write replaces the half of the next wider word that its address is in;
in memory that half is where the plain store puts its bytes, and the other half is stored as it was
loaded. -/
theorem eepromWrite_agrees (e : Endian) (mem : Mem) (memoryAddress : Uint32) (write16 : Uint16)
    (write32 : Uint32) :
    (∀ value, Agrees e 1 value mem memoryAddress
      (Direct.eepromWrite8 e mem memoryAddress value write16 write32)
      (MmapFile.eepromWrite8 e mem memoryAddress value)) ∧
    (∀ value, Agrees e 2 value mem memoryAddress
      (Direct.eepromWrite16 e mem memoryAddress value write32)
      (MmapFile.eepromWrite16 e mem memoryAddress value)) ∧
    ∀ value, Agrees e 4 value mem memoryAddress
      (Direct.eepromWrite32 e mem memoryAddress value)
      (MmapFile.eepromWrite32 e mem memoryAddress value) := by
  refine ⟨fun value => ?_, fun value => ?_, fun value => ?_⟩
  · exact Agrees.of_store (fun _ => eepromWrite8_eq value write16 write32)
      fun h => absurd (one_dvd _) h
  · refine Agrees.of_store (fun h => eepromWrite16_aligned h value write32) fun h => ?_
    rw [Direct.eepromWrite16, if_pos fun h0 => h (and_one_eq_zero_iff.1 h0)]
  · refine Agrees.of_store (fun h => eepromWrite32_aligned h value) fun h => ?_
    rw [Direct.eepromWrite32, if_pos fun h0 => h (and_three_eq_zero_iff.1 h0)]

/-- A byte is written into the third byte of a word, in both byte orders. -/
example : ((Direct.eepromWrite8 .little (fun a => UInt8.ofNat a) 6 0xAB 0 0).2 6,
    (Direct.eepromWrite8 .big (fun a => UInt8.ofNat a) 6 0xAB 0 0).2 6,
    (Direct.eepromWrite8 .big (fun a => UInt8.ofNat a) 6 0xAB 0 0).2 7) = (0xAB, 0xAB, 7) := by
  decide

end Main

end CfePsp.Eeprom
