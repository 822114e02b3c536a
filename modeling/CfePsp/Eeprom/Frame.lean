import CfePsp.Eeprom.Direct

set_option relaxedAutoImplicit false
set_option autoImplicit false

/-!
# The word that a write to EEPROM stays in

A narrow write of `eeprom_direct` loads and stores the word around its address. It holds the address
of that word in a `uint32`, whatever the width of a `cpuaddr` is.

## Main definitions

* `CfePsp.Eeprom.Wide.eepromWrite8`, `CfePsp.Eeprom.Wide.eepromWrite16`,
  `CfePsp.Eeprom.Wide.eepromWrite32` — the writes for a `cpuaddr` of `w` bits.
* `CfePsp.Eeprom.Wide.StaysIn` — all accesses are in the word that contains an address.

## Main results

* `CfePsp.Eeprom.Wide.eepromWrite8_direct` — for 32 bits they are the writes of `eeprom_direct` as
  modelled before.
* `CfePsp.Eeprom.Wide.staysIn_iff` — a narrow write stays in the word if and only if its address is
  below `2^32`, or it is refused.
-/

namespace CfePsp.Eeprom.Wide

open Words (Endian)

/-- The memory, and the addresses of the bytes that were read or written. -/
structure Bus where
  mem : Mem
  touched : List ℕ

/-- The bus before the first access. -/
def Bus.ofMem (mem : Mem) : Bus := ⟨mem, []⟩

/-- The addresses that an access to `n` bytes touches. -/
def Bus.touch (bus : Bus) (address n : ℕ) : List ℕ := bus.touched ++ List.range' address n

/-! ## The functions -/

section Functions

variable {w : ℕ}

/-- `CFE_PSP_MemRead16`: status, the variable that is read into, and the bus. -/
def memRead16 (e : Endian) (bus : Bus) (memoryAddress : BitVec w) (uint16Value : Uint16) :
    ℤ × Uint16 × Bus :=
  if memoryAddress &&& 0x00000001 ≠ 0 then (Status.errorAddressMisaligned, uint16Value, bus)
  else (Status.success, Lanes.load16 e bus.mem memoryAddress.toNat,
    { bus with touched := bus.touch memoryAddress.toNat 2 })

/-- `CFE_PSP_MemRead32`: status, the variable that is read into, and the bus. -/
def memRead32 (e : Endian) (bus : Bus) (memoryAddress : BitVec w) (uint32Value : Uint32) :
    ℤ × Uint32 × Bus :=
  if memoryAddress &&& 0x00000003 ≠ 0 then (Status.errorAddressMisaligned, uint32Value, bus)
  else (Status.success, Words.loadWord e bus.mem memoryAddress.toNat,
    { bus with touched := bus.touch memoryAddress.toNat 4 })

/-- `CFE_PSP_EepromWrite32`: status and bus. -/
def eepromWrite32 (e : Endian) (bus : Bus) (memoryAddress : BitVec w) (uint32Value : Uint32) :
    ℤ × Bus :=
  if memoryAddress &&& 0x00000003 ≠ 0 then (Status.errorAddressMisaligned, bus)
  else (Status.success,
    { mem := Lanes.store e 4 bus.mem memoryAddress.toNat uint32Value
      touched := bus.touch memoryAddress.toNat 4 })

/-- `CFE_PSP_EepromWrite16`: status and bus. -/
def eepromWrite16 (e : Endian) (bus : Bus) (memoryAddress : BitVec w) (uint16Value : Uint16)
    (write32 : Uint32) : ℤ × Bus :=
  if memoryAddress &&& 0x00000001 ≠ 0 then (Status.errorAddressMisaligned, bus)
  else
    let temp32 : Uint32 := uint16Value.setWidth 32
    match e with
    | .little =>
        if memoryAddress &&& 0x00000002 ≠ 0 then
          let alignedAddress : Uint32 := (memoryAddress - 2).setWidth 32
          let read := memRead32 e bus (alignedAddress.setWidth w) write32
          eepromWrite32 e read.2.2 (alignedAddress.setWidth w)
            (read.2.1 &&& 0x0000FFFF ||| temp32 <<< 16)
        else
          let alignedAddress : Uint32 := memoryAddress.setWidth 32
          let read := memRead32 e bus (alignedAddress.setWidth w) write32
          eepromWrite32 e read.2.2 (alignedAddress.setWidth w) (read.2.1 &&& 0xFFFF0000 ||| temp32)
    | .big =>
        if memoryAddress &&& 0x00000002 ≠ 0 then
          let alignedAddress : Uint32 := (memoryAddress - 2).setWidth 32
          let read := memRead32 e bus (alignedAddress.setWidth w) write32
          eepromWrite32 e read.2.2 (alignedAddress.setWidth w) (read.2.1 &&& 0xFFFF0000 ||| temp32)
        else
          let alignedAddress : Uint32 := memoryAddress.setWidth 32
          let read := memRead32 e bus (alignedAddress.setWidth w) write32
          eepromWrite32 e read.2.2 (alignedAddress.setWidth w)
            (read.2.1 &&& 0x0000FFFF ||| temp32 <<< 16)

/-- `CFE_PSP_EepromWrite8`: status and bus. -/
def eepromWrite8 (e : Endian) (bus : Bus) (memoryAddress : BitVec w) (byteValue : BitVec 8)
    (write16 : Uint16) (write32 : Uint32) : ℤ × Bus :=
  let temp16 : Uint16 := byteValue.setWidth 16
  match e with
  | .little =>
      if memoryAddress &&& 0x00000001 ≠ 0 then
        let alignedAddress : Uint32 := (memoryAddress - 1).setWidth 32
        let read := memRead16 e bus (alignedAddress.setWidth w) write16
        eepromWrite16 e read.2.2 (alignedAddress.setWidth w) (read.2.1 &&& 0x00FF ||| temp16 <<< 8)
          write32
      else
        let alignedAddress : Uint32 := memoryAddress.setWidth 32
        let read := memRead16 e bus (alignedAddress.setWidth w) write16
        eepromWrite16 e read.2.2 (alignedAddress.setWidth w) (temp16 ||| read.2.1 &&& 0xFF00)
          write32
  | .big =>
      if memoryAddress &&& 0x00000001 ≠ 0 then
        let alignedAddress : Uint32 := (memoryAddress - 1).setWidth 32
        let read := memRead16 e bus (alignedAddress.setWidth w) write16
        eepromWrite16 e read.2.2 (alignedAddress.setWidth w) (read.2.1 &&& 0xFF00 ||| temp16)
          write32
      else
        let alignedAddress : Uint32 := memoryAddress.setWidth 32
        let read := memRead16 e bus (alignedAddress.setWidth w) write16
        eepromWrite16 e read.2.2 (alignedAddress.setWidth w) (temp16 <<< 8 ||| read.2.1 &&& 0x00FF)
          write32

/-- **What a write is to touch**: bytes of the word that contains the address, and no others. -/
def StaysIn (memoryAddress : BitVec w) (touched : List ℕ) : Prop :=
  ∀ a ∈ touched, a / 4 = memoryAddress.toNat / 4

end Functions

/-! ## Addresses of 32 bits -/

section Direct

variable {e : Endian} {bus : Bus} {addr : Uint32}

/-- The status and the memory that a write leaves. -/
def outcome (r : ℤ × Bus) : ℤ × Mem := (r.1, r.2.mem)

lemma memRead32_direct (value : Uint32) :
    (memRead32 e bus addr value).2.1 = (Eeprom.memRead32 e bus.mem addr value).2 ∧
      (memRead32 e bus addr value).2.2.mem = bus.mem := by
  unfold memRead32 Eeprom.memRead32
  split <;> exact ⟨rfl, rfl⟩

lemma memRead16_direct (value : Uint16) :
    (memRead16 e bus addr value).2.1 = (Eeprom.memRead16 e bus.mem addr value).2 ∧
      (memRead16 e bus addr value).2.2.mem = bus.mem := by
  unfold memRead16 Eeprom.memRead16
  split <;> exact ⟨rfl, rfl⟩

lemma eepromWrite32_direct (value : Uint32) :
    outcome (eepromWrite32 e bus addr value) = Direct.eepromWrite32 e bus.mem addr value := by
  unfold eepromWrite32 Direct.eepromWrite32
  split <;> rfl

lemma eepromWrite16_direct (value : Uint16) (write32 : Uint32) :
    outcome (eepromWrite16 e bus addr value write32) =
      Direct.eepromWrite16 e bus.mem addr value write32 := by
  unfold eepromWrite16 Direct.eepromWrite16
  split
  · rfl
  · simp only [BitVec.setWidth_eq]
    cases e <;> simp only <;> split <;>
      rw [eepromWrite32_direct, (memRead32_direct _).1, (memRead32_direct _).2]

/-- For addresses of 32 bits the writes are those of `eeprom_direct`: nothing is cut off. -/
lemma eepromWrite8_direct (value : BitVec 8) (write16 : Uint16) (write32 : Uint32) :
    outcome (eepromWrite8 e bus addr value write16 write32) =
      Direct.eepromWrite8 e bus.mem addr value write16 write32 := by
  unfold eepromWrite8 Direct.eepromWrite8
  simp only [BitVec.setWidth_eq]
  cases e <;> simp only <;> split <;>
    rw [eepromWrite16_direct, (memRead16_direct _).1, (memRead16_direct _).2]

end Direct

/-! ## What is touched -/

section Touched

variable {w : ℕ} {e : Endian} {bus : Bus} {addr : BitVec w}

lemma and_one_eq_zero_iff (hw : 32 ≤ w) : addr &&& 0x00000001 = 0 ↔ 2 ∣ addr.toNat :=
  Window.and_mask_eq_zero_iff (k := 1) (by omega) addr

lemma and_three_eq_zero_iff (hw : 32 ≤ w) : addr &&& 0x00000003 = 0 ↔ 4 ∣ addr.toNat :=
  Window.and_mask_eq_zero_iff (k := 2) (by omega) addr

/-- The second bit of an even address tells which half of a word it is in. -/
lemma and_two_eq_zero_iff (hw : 32 ≤ w) (h : 2 ∣ addr.toNat) :
    addr &&& 0x00000002 = 0 ↔ 4 ∣ addr.toNat :=
  Window.and_bit_eq_zero_iff (k := 1) (by omega) h

/-- The address of the 16 bits that a byte is in, as the driver holds it. -/
def halfAddress (addr : BitVec w) : BitVec w :=
  ((if addr &&& 0x00000001 ≠ 0 then addr - 1 else addr).setWidth 32).setWidth w

/-- The address of the word that 16 bits are in, as the driver holds it. -/
def wordAddress (addr : BitVec w) : BitVec w :=
  ((if addr &&& 0x00000002 ≠ 0 then addr - 2 else addr).setWidth 32).setWidth w

/-- A `uint32` keeps the residue of an address. -/
lemma toNat_setWidth_setWidth (hw : 32 ≤ w) (addr : BitVec w) :
    ((addr.setWidth 32).setWidth w).toNat = addr.toNat % 2 ^ 32 := by
  rw [BitVec.toNat_setWidth, BitVec.toNat_setWidth]
  refine Nat.mod_eq_of_lt (lt_of_lt_of_le (Nat.mod_lt _ (Nat.two_pow_pos 32)) ?_)
  exact Nat.pow_le_pow_right (by decide) hw

lemma toNat_halfAddress (hw : 32 ≤ w) (addr : BitVec w) :
    (halfAddress addr).toNat = addr.toNat % 2 ^ 32 / 2 * 2 := by
  rw [halfAddress, toNat_setWidth_setWidth hw]
  by_cases heven : 2 ∣ addr.toNat
  · rw [if_neg (not_not_intro ((and_one_eq_zero_iff hw).2 heven))]
    omega
  · have hsub : (addr - 1).toNat = addr.toNat - 1 := Window.toNat_sub_ofNat (d := 1) (by omega)
    rw [if_pos (mt (and_one_eq_zero_iff hw).1 heven), hsub]
    omega

lemma toNat_wordAddress (hw : 32 ≤ w) (h : 2 ∣ addr.toNat) :
    (wordAddress addr).toNat = addr.toNat % 2 ^ 32 / 4 * 4 := by
  rw [wordAddress, toNat_setWidth_setWidth hw]
  by_cases hword : 4 ∣ addr.toNat
  · rw [if_neg (not_not_intro ((and_two_eq_zero_iff hw h).2 hword))]
    omega
  · have hsub : (addr - 2).toNat = addr.toNat - 2 := Window.toNat_sub_ofNat (d := 2) (by omega)
    rw [if_pos (mt (and_two_eq_zero_iff hw h).1 hword), hsub]
    omega

lemma touched_memRead16 (hw : 32 ≤ w) (h : 2 ∣ addr.toNat) (value : Uint16) :
    (memRead16 e bus addr value).2.2.touched = bus.touch addr.toNat 2 := by
  rw [memRead16, if_neg (not_not_intro ((and_one_eq_zero_iff hw).2 h))]

lemma touched_memRead32 (hw : 32 ≤ w) (h : 4 ∣ addr.toNat) (value : Uint32) :
    (memRead32 e bus addr value).2.2.touched = bus.touch addr.toNat 4 := by
  rw [memRead32, if_neg (not_not_intro ((and_three_eq_zero_iff hw).2 h))]

lemma touched_eepromWrite32 (hw : 32 ≤ w) (h : 4 ∣ addr.toNat) (value : Uint32) :
    (eepromWrite32 e bus addr value).2.touched = bus.touch addr.toNat 4 := by
  rw [eepromWrite32, if_neg (not_not_intro ((and_three_eq_zero_iff hw).2 h))]

variable (e bus) in
/-- A write of 16 bits is a load and a store of the word at the address that the driver holds. -/
lemma exists_eepromWrite16 (hw : 32 ≤ w) (h : 2 ∣ addr.toNat) (value : Uint16) (write32 : Uint32) :
    ∃ value', eepromWrite16 e bus addr value write32 =
      eepromWrite32 e (memRead32 e bus (wordAddress addr) write32).2.2 (wordAddress addr)
        value' := by
  rw [eepromWrite16, if_neg (not_not_intro ((and_one_eq_zero_iff hw).2 h)), wordAddress]
  by_cases hbit : addr &&& 0x00000002 ≠ 0
  · simp only [if_pos hbit]
    cases e <;> exact ⟨_, rfl⟩
  · simp only [if_neg hbit]
    cases e <;> exact ⟨_, rfl⟩

variable (e bus addr) in
/-- A write of a byte is a load and a write of the 16 bits at the address that the driver holds. -/
lemma exists_eepromWrite8 (value : BitVec 8) (write16 : Uint16) (write32 : Uint32) :
    ∃ value', eepromWrite8 e bus addr value write16 write32 =
      eepromWrite16 e (memRead16 e bus (halfAddress addr) write16).2.2 (halfAddress addr) value'
        write32 := by
  unfold eepromWrite8 halfAddress
  by_cases hbit : addr &&& 0x00000001 ≠ 0
  · simp only [if_pos hbit]
    cases e <;> exact ⟨_, rfl⟩
  · simp only [if_neg hbit]
    cases e <;> exact ⟨_, rfl⟩

lemma touched_eepromWrite16 (hw : 32 ≤ w) (h : 2 ∣ addr.toNat) (value : Uint16)
    (write32 : Uint32) :
    (eepromWrite16 e bus addr value write32).2.touched =
      bus.touched ++ List.range' (addr.toNat % 2 ^ 32 / 4 * 4) 4 ++
        List.range' (addr.toNat % 2 ^ 32 / 4 * 4) 4 := by
  have hword := toNat_wordAddress hw h
  obtain ⟨value', hvalue⟩ := exists_eepromWrite16 e bus hw h value write32
  rw [hvalue, touched_eepromWrite32 hw (by omega), Bus.touch, touched_memRead32 hw (by omega),
    Bus.touch, hword]

lemma touched_eepromWrite8 (hw : 32 ≤ w) (value : BitVec 8) (write16 : Uint16)
    (write32 : Uint32) :
    (eepromWrite8 e bus addr value write16 write32).2.touched =
      bus.touched ++ List.range' (addr.toNat % 2 ^ 32 / 2 * 2) 2 ++
        List.range' (addr.toNat % 2 ^ 32 / 4 * 4) 4 ++
          List.range' (addr.toNat % 2 ^ 32 / 4 * 4) 4 := by
  have hhalf := toNat_halfAddress hw addr
  have hsame : (halfAddress addr).toNat % 2 ^ 32 / 4 * 4 = addr.toNat % 2 ^ 32 / 4 * 4 := by omega
  obtain ⟨value', hvalue⟩ := exists_eepromWrite8 e bus addr value write16 write32
  rw [hvalue, touched_eepromWrite16 hw (by omega), touched_memRead16 hw (by omega), Bus.touch,
    hhalf, ← hsame, hhalf]

/-- Accesses to the word at the residue of an address are in the word of the address if and only if
the residue is the address. -/
lemma staysIn_iff_of_residue {touched : List ℕ}
    (h : ∀ a ∈ touched, a / 4 = addr.toNat % 2 ^ 32 / 4) (hne : touched ≠ []) :
    StaysIn addr touched ↔ addr.toNat < 2 ^ 32 := by
  constructor
  · intro hstays
    obtain ⟨a, ha⟩ := List.exists_mem_of_ne_nil touched hne
    have hword := hstays a ha
    have hresidue := h a ha
    omega
  · intro hlt a ha
    rw [h a ha, Nat.mod_eq_of_lt hlt]

variable (e) in
/-- **The frame of the writes.** For a `cpuaddr` of 32 or more bits, at every address, for every
value and whatever the memory and the local variables hold: a write of 32 bits stays in the word
that contains the address; a write of 16 bits does if and only if it is refused, at an odd address,
or the address is below `2^32`; a write of a byte does if and only if the address is below `2^32`.

**Proof sketch.** Where it is not refused, a narrow write touches the word at the residue of the
address modulo `2^32`. -/
theorem staysIn_iff (hw : 32 ≤ w) (mem : Mem) (addr : BitVec w) (write16 : Uint16)
    (write32 : Uint32) :
    (∀ value, StaysIn addr
      (eepromWrite8 e (Bus.ofMem mem) addr value write16 write32).2.touched ↔
        addr.toNat < 2 ^ 32) ∧
    (∀ value, StaysIn addr (eepromWrite16 e (Bus.ofMem mem) addr value write32).2.touched ↔
      ¬2 ∣ addr.toNat ∨ addr.toNat < 2 ^ 32) ∧
    ∀ value, StaysIn addr (eepromWrite32 e (Bus.ofMem mem) addr value).2.touched := by
  refine ⟨fun value => ?_, fun value => ?_, fun value => ?_⟩
  · rw [touched_eepromWrite8 hw]
    refine staysIn_iff_of_residue (fun a ha => ?_) (List.append_ne_nil_of_right_ne_nil _ (by simp))
    simp only [Bus.ofMem, List.nil_append, List.mem_append, List.mem_range'_1] at ha
    omega
  · by_cases heven : 2 ∣ addr.toNat
    · rw [or_iff_right (not_not_intro heven), touched_eepromWrite16 hw heven]
      refine staysIn_iff_of_residue (fun a ha => ?_)
        (List.append_ne_nil_of_right_ne_nil _ (by simp))
      simp only [Bus.ofMem, List.nil_append, List.mem_append, List.mem_range'_1] at ha
      omega
    · rw [eepromWrite16, if_pos (mt (and_one_eq_zero_iff hw).1 heven)]
      exact iff_of_true (fun a ha => absurd ha List.not_mem_nil) (.inl heven)
  · by_cases hword : 4 ∣ addr.toNat
    · rw [touched_eepromWrite32 hw hword]
      intro a ha
      simp only [Bus.ofMem, Bus.touch, List.nil_append, List.mem_range'_1] at ha
      omega
    · rw [eepromWrite32, if_pos (mt (and_three_eq_zero_iff hw).1 hword)]
      exact fun a ha => absurd ha List.not_mem_nil

/-- With 64 bits, a byte for a low address is written in its word. -/
theorem staysIn_lowAddress : 32 ≤ 64 ∧ StaysIn (6 : BitVec 64)
    (eepromWrite8 .little (Bus.ofMem fun _ => 0) (6 : BitVec 64) 0xAB 0 0).2.touched := by
  have hwide : 32 ≤ 64 := by decide
  exact ⟨hwide, ((staysIn_iff .little hwide (fun _ => 0) 6 0 0).1 0xAB).2 (by decide)⟩

/-- With 64 bits, a byte for the address `2^32` is written to the address 0. -/
theorem not_staysIn_highAddress :
    ¬StaysIn (0x100000000 : BitVec 64)
      (eepromWrite8 .little (Bus.ofMem fun _ => 0) (0x100000000 : BitVec 64) 0xAB 0 0).2.touched ∧
    (eepromWrite8 .little (Bus.ofMem fun _ => 0) (0x100000000 : BitVec 64) 0xAB 0 0).2.mem 0 =
      0xAB := by
  constructor
  · intro h
    have hzero := h 0 (by decide +kernel)
    exact absurd hzero (by decide)
  · decide +kernel

end Touched

end CfePsp.Eeprom.Wide
