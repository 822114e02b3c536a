import CfePsp.Lib.Runs
import CfePsp.Memory.ReservedLayout

set_option relaxedAutoImplicit false
set_option autoImplicit false

/-!
# The file behind the simulated EEPROM

`eeprom_mmap_file_Init` maps the file `EEPROM.DAT` and registers the mapping as the EEPROM range.
The file keeps its length from boot to boot. A boot that does not find it creates it, and gives it
its length by writing one byte at the end; a boot that finds it maps it as it is. A creation that
fails half way leaves an empty file, which the next boot finds.

## Main definitions

* `CfePsp.Eeprom.MmapFile.setupEeprom`, `CfePsp.Eeprom.MmapFile.init` — the two functions.
* `CfePsp.Eeprom.MmapFile.Boot` — what the calls of the system answer on one boot.
* `CfePsp.Eeprom.MmapFile.Backed` — an EEPROM range that is registered lies in the file.

## Main results

* `CfePsp.Eeprom.MmapFile.always_backed_iff` — when the range is backed on every boot of a run.

## Design

The file is its length, `none` while there is none. Nothing but `eeprom_mmap_file` touches it, and
nothing else registers EEPROM. A byte of the mapping can be read and written if the file reaches
that far.
-/

namespace CfePsp.Eeprom.MmapFile

open Memory Transition

variable {w : ℕ}

/-! ## The source -/

/-- What `stat`, `open`, `lseek`, `write` and `mmap` answer on one boot, what the variable
`eeprom_address` held, and the memory table. A mapping lies in the address space. -/
structure Boot (w : ℕ) (eepromSize : Uint32) where
  returnStatus : ℤ
  fileDescriptor : ℤ
  lseek : ℤ
  write : ℤ
  dataBuffer : BitVec w
  eepromAddress : BitVec w
  sysMemoryTable : List (MemTable w)
  fits : dataBuffer ≠ -1 → dataBuffer.toNat + eepromSize.toNat ≤ 2 ^ w
  noEeprom : ∀ e ∈ sysMemoryTable, e.memoryType ≠ memEeprom

/-- What `CFE_PSP_SetupEEPROM` returns, the length of the file, and `*EEPROMAddress`. -/
structure Setup (w : ℕ) where
  status : ℤ
  file : Option ℕ
  eepromAddress : BitVec w

variable {eepromSize : Uint32}

/-- The end of `CFE_PSP_SetupEEPROM`, with the file open. -/
def mapFile (b : Boot w eepromSize) (file : Option ℕ) : Setup w :=
  if b.dataBuffer = -1 then ⟨-1, file, b.eepromAddress⟩ else ⟨0, file, b.dataBuffer⟩

/-- `CFE_PSP_SetupEEPROM`. -/
def setupEeprom (b : Boot w eepromSize) (file : Option ℕ) : Setup w :=
  if b.returnStatus = -1 then
    if b.fileDescriptor = -1 then ⟨-1, file, b.eepromAddress⟩
    else
      -- `O_CREAT`: a new file is empty
      let file := some (file.getD 0)
      if b.lseek = -1 then ⟨-1, file, b.eepromAddress⟩
      else if b.write ≠ 1 then ⟨-1, file, b.eepromAddress⟩
      else mapFile b (file.map (max ((eepromSize - 1).toNat + 1)))
  else if b.fileDescriptor = -1 then ⟨-1, file, b.eepromAddress⟩
  else mapFile b file

/-- The slot that `eeprom_mmap_file_Init` fills in. -/
def eepromEntry (eepromAddress : BitVec w) (eepromSize : Uint32) : RangeCall w :=
  ⟨1, ⟨memEeprom, 0x04, eepromAddress, eepromSize.setWidth w, 0x03⟩⟩

/-- `eeprom_mmap_file_Init` for an EEPROM of any size: the last `Status`, the length of the file
and the memory table. -/
def init (b : Boot w eepromSize) (file : Option ℕ) : ℤ × Option ℕ × List (MemTable w) :=
  let setup := setupEeprom b file
  if setup.status = 0 then
    let set := memRangeSet b.sysMemoryTable (eepromEntry setup.eepromAddress eepromSize)
    (set.1, setup.file, set.2)
  else (setup.status, setup.file, b.sysMemoryTable)

/-- `eeprom_size` in `eeprom_mmap_file_Init`. -/
def eepromSize₀ : Uint32 := 0x80000

/-! ## Boots -/

/-- One boot. `stat` finds no file where there is none. -/
def step (file : Option ℕ) (b : Boot w eepromSize) : Option (Option ℕ) :=
  if b.returnStatus ≠ -1 ∧ file = none then none else some (init b file).2.1

/-- The file has the length of the EEPROM. -/
def Full (eepromSize : Uint32) (file : Option ℕ) : Prop :=
  ∃ len, file = some len ∧ eepromSize.toNat ≤ len

/-- If the boot sets the EEPROM up and registers it, the file has its length, and all that is
accepted as EEPROM lies in the mapping, where the file reaches. -/
def Backed (file : Option ℕ) (b : Boot w eepromSize) : Prop :=
  (setupEeprom b file).status = 0 → (init b file).1 = Status.success →
    ∃ len, (init b file).2.1 = some len ∧ eepromSize.toNat ≤ len ∧
      ∀ address size, memValidateRange (init b file).2.2 address size memEeprom = Status.success →
        b.dataBuffer.toNat ≤ address.toNat ∧ address.toNat + size.toNat ≤ b.dataBuffer.toNat + len

/-- The boot creates the file and gives it its length. -/
def Creates (b : Boot w eepromSize) : Prop :=
  b.returnStatus = -1 ∧ b.fileDescriptor ≠ -1 ∧ b.lseek ≠ -1 ∧ b.write = 1

instance (b : Boot w eepromSize) : Decidable (Creates b) :=
  inferInstanceAs (Decidable (_ ∧ _ ∧ _ ∧ _))

/-- The boot finds the file, opens, maps and registers it. -/
def Reuses (b : Boot w eepromSize) : Prop :=
  b.returnStatus ≠ -1 ∧ b.fileDescriptor ≠ -1 ∧ b.dataBuffer ≠ -1 ∧ 1 < b.sysMemoryTable.length

/-! ## What a boot does -/

section Boots

variable {b : Boot w eepromSize} {file : Option ℕ}

/-- When the set-up succeeds. -/
lemma setupEeprom_status :
    (setupEeprom b file).status = 0 ↔
      (Creates b ∨ b.returnStatus ≠ -1 ∧ b.fileDescriptor ≠ -1) ∧ b.dataBuffer ≠ -1 := by
  simp only [setupEeprom, mapFile, Creates]
  split_ifs <;> simp_all

/-- The file after the set-up: there is one if it was opened for creation, and it has its length
if the byte at the end was written. -/
lemma setupEeprom_file :
    (setupEeprom b file).file =
      if b.returnStatus ≠ -1 ∨ b.fileDescriptor = -1 then file
      else if Creates b then some (max ((eepromSize - 1).toNat + 1) (file.getD 0))
      else some (file.getD 0) := by
  simp only [setupEeprom, mapFile, Creates]
  split_ifs <;> simp_all

lemma setupEeprom_eepromAddress (h : (setupEeprom b file).status = 0) :
    (setupEeprom b file).eepromAddress = b.dataBuffer := by
  have hmap := (setupEeprom_status.1 h).2
  revert h
  simp only [setupEeprom, mapFile]
  split_ifs <;> simp

lemma init_file : (init b file).2.1 = (setupEeprom b file).file := by
  simp only [init]
  split_ifs <;> rfl

/-- The EEPROM is accepted by every table with a second slot. -/
lemma accepted_eepromEntry {n : ℕ} {address : BitVec w} :
    (eepromEntry address eepromSize).Accepted n ↔ 1 < n :=
  accepted_dword_readwrite (.inr rfl)

/-- The EEPROM is registered by a boot that creates the file, or finds it. -/
lemma init_success :
    (init b file).1 = Status.success ↔
      (Creates b ∧ b.dataBuffer ≠ -1 ∧ 1 < b.sysMemoryTable.length) ∨ Reuses b := by
  have hstatus : (setupEeprom b file).status = 0 ↔ _ := setupEeprom_status
  simp only [init, Reuses]
  by_cases h : (setupEeprom b file).status = 0
  · rw [if_pos h]
    simp only [memRangeSet_success_iff, accepted_eepromEntry]
    rw [iff_true_left h] at hstatus
    tauto
  · rw [if_neg h]
    rw [iff_false_left h] at hstatus
    refine iff_of_false h ?_
    tauto

/-- A boot that registers the EEPROM fills in the second slot with the mapping. -/
lemma init_table (h : (init b file).1 = Status.success) :
    (init b file).2.2 = b.sysMemoryTable.set 1 (eepromEntry b.dataBuffer eepromSize).entry := by
  have hstatus : (setupEeprom b file).status = 0 := by
    by_contra hne
    rw [init, if_neg hne] at h
    exact hne h
  have hlen : 1 < b.sysMemoryTable.length := by
    rcases init_success.1 h with h | h
    · exact h.2.2
    · exact h.2.2.2
  rw [init, if_pos hstatus, setupEeprom_eepromAddress hstatus]
  exact memRangeSet_of_accepted (accepted_eepromEntry.2 hlen)

/-- A file has its length after a boot if it had it before, or the boot gave it. -/
lemma full_init (hsize : 1 ≤ eepromSize.toNat) :
    Full eepromSize (init b file).2.1 ↔ Full eepromSize file ∨ Creates b := by
  have hend : (eepromSize - 1).toNat + 1 = eepromSize.toNat := by bv_omega
  rw [init_file, setupEeprom_file, hend]
  split_ifs with hkept hcreates
  · exact (or_iff_left fun h => hkept.elim (· h.1) h.2.1).symm
  · exact iff_of_true ⟨_, rfl, le_max_left _ _⟩ (.inr hcreates)
  · rw [or_iff_left hcreates]
    cases file with
    | none => simpa [Full] using Nat.one_le_iff_ne_zero.1 hsize
    | some len => exact Iff.rfl

/-- What is accepted as EEPROM lies in the mapping. -/
lemma mapped_of_accepted (hw : 32 ≤ w) (hsize : 1 ≤ eepromSize.toNat)
    (h : (init b file).1 = Status.success) {address size : BitVec w}
    (haccepted : memValidateRange (init b file).2.2 address size memEeprom = Status.success) :
    b.dataBuffer.toNat ≤ address.toNat ∧
      address.toNat + size.toNat ≤ b.dataBuffer.toNat + eepromSize.toNat := by
  obtain ⟨htest, e, he, -, hwithin, hadmits⟩ :=
    (memValidateRange_success_iff (.inr (.inr rfl)) _).1 haccepted
  have htype : e.memoryType = memEeprom := by
    rcases hadmits with hany | htype
    · exact absurd hany (by decide)
    · exact htype.symm
  rw [init_table h] at he
  rcases List.mem_or_eq_of_mem_set he with hold | rfl
  · exact absurd htype (b.noEeprom e hold)
  · have hmap : b.dataBuffer ≠ -1 := by
      rcases init_success.1 h with h | h
      · exact h.2.1
      · exact h.2.2.1
    have hlen : (eepromSize.setWidth w).toNat = eepromSize.toNat := toNat_setWidth hw eepromSize
    have hfits := b.fits hmap
    rcases (Interval.within_iff htest (by rwa [← hlen] at hfits)).1 hwithin with hzero | hin
    · have hnil : (eepromSize.setWidth w).toNat = 0 := (Interval.eq_zero_iff _).1 hzero.2
      omega
    · exact ⟨hin.2.1, hin.2.2.trans_eq (congrArg _ hlen)⟩

/-- **One boot.** The range is backed if the boot does not reuse a file without its length. -/
lemma backed_iff (hw : 32 ≤ w) (hsize : 1 ≤ eepromSize.toNat) :
    Backed file b ↔ (Reuses b → Full eepromSize file) := by
  constructor
  · intro hbacked hreuses
    have hstatus : (setupEeprom b file).status = 0 :=
      setupEeprom_status.2 ⟨.inr ⟨hreuses.1, hreuses.2.1⟩, hreuses.2.2.1⟩
    obtain ⟨len, hfile, hlen, -⟩ := hbacked hstatus (init_success.2 (.inr hreuses))
    rcases (full_init hsize).1 ⟨len, hfile, hlen⟩ with hfull | hcreates
    · exact hfull
    · exact absurd hcreates.1 hreuses.1
  · intro hcond _ hsuccess
    have hfull : Full eepromSize (init b file).2.1 := by
      refine (full_init hsize).2 ?_
      rcases init_success.1 hsuccess with hcreates | hreuses
      · exact .inr hcreates.1
      · exact .inl (hcond hreuses)
    obtain ⟨len, hfile, hlen⟩ := hfull
    refine ⟨len, hfile, hlen, fun address size haccepted => ?_⟩
    have hmapped := mapped_of_accepted hw hsize hsuccess haccepted
    exact ⟨hmapped.1, hmapped.2.trans (Nat.add_le_add_left hlen _)⟩

end Boots

/-! ## Runs of boots -/

section Runs

variable {file file' : Option ℕ} {tr : List (Boot w eepromSize)}

/-- The file has its length after a run if it had it before, or some boot gave it. -/
lemma full_run (hsize : 1 ≤ eepromSize.toNat) (h : run step file tr = some file') :
    Full eepromSize file' ↔ Full eepromSize file ∨ ∃ b ∈ tr, Creates b := by
  refine run_invariant
    (P := fun tr file' => Full eepromSize file' ↔ Full eepromSize file ∨ ∃ b ∈ tr, Creates b)
    (by simp) ?_ h
  intro tr u b t ih hstep
  have ht : (init b u).2.1 = t := by
    rw [step] at hstep
    split_ifs at hstep
    exact Option.some.inj hstep
  rw [← ht, full_init hsize, ih]
  simp only [List.mem_append, List.mem_singleton, or_and_right, exists_or, exists_eq_left,
    or_assoc]

/-- **When the simulated EEPROM is backed by its file.** On a run of boots from any file, the range
is backed on every boot that registers it if and only if each boot that registers it from a file
it found was preceded by a boot that created the file and gave it its length, or the file had its
length from the start.

**Proof sketch.** A boot that creates the file and registers it has given it its length; a boot
that finds it leaves the length alone, and no boot takes it back. -/
theorem always_backed_iff (hw : 32 ≤ w) (hsize : 1 ≤ eepromSize.toNat)
    (h : run step file tr = some file') :
    Always step Backed file tr ↔
      ∀ tr₁ b tr₂, tr = tr₁ ++ b :: tr₂ → Reuses b →
        Full eepromSize file ∨ ∃ b' ∈ tr₁, Creates b' := by
  rw [always_iff_forall]
  constructor
  · intro hbacked tr₁ b tr₂ htr hreuses
    obtain ⟨u, hu, -⟩ := run_append.1 (htr ▸ h)
    exact (full_run hsize hu).1 ((backed_iff hw hsize).1 (hbacked tr₁ b tr₂ u htr hu) hreuses)
  · intro hcond tr₁ b tr₂ u htr hu
    refine (backed_iff hw hsize).2 fun hreuses => ?_
    exact (full_run hsize hu).2 (hcond tr₁ b tr₂ htr hreuses)

/-- A boot of pc-linux: the start-up has registered all memory as RAM. -/
def pcLinuxBoot (returnStatus fileDescriptor lseek write : ℤ) : Boot 64 eepromSize₀ :=
  ⟨returnStatus, fileDescriptor, lseek, write, 0x7F0000000000, 0,
    (memRangeSet (List.replicate memTableSize 0) (ramEntry (-1))).2, by decide, by decide⟩

/-- The first boot creates the file, the second finds it. -/
theorem always_backed_of_created :
    Always step Backed none [pcLinuxBoot (-1) 3 0x7FFFF 1, pcLinuxBoot 0 3 0 0] := by
  have hrun : run step none [pcLinuxBoot (-1) 3 0x7FFFF 1, pcLinuxBoot 0 3 0 0] =
      some (some 0x80000) := by decide
  have hcreates : Creates (pcLinuxBoot (-1) 3 0x7FFFF 1) := by decide
  refine (always_backed_iff (by decide) (by decide) hrun).2 fun tr₁ b tr₂ htr hreuses => ?_
  cases tr₁ with
  | nil =>
    obtain rfl := (List.cons.inj htr).1
    exact absurd hcreates.1 hreuses.1
  | cons b₁ tr₁ =>
    obtain rfl := (List.cons.inj htr).1
    exact .inr ⟨_, List.mem_cons_self, hcreates⟩

/-- The first boot creates the file and cannot write to it; the second finds it empty, and registers
an EEPROM of which no byte can be read. -/
theorem not_always_backed_failedWrite :
    run step none [pcLinuxBoot (-1) 3 0x7FFFF (-1), pcLinuxBoot 0 3 0 0] = some (some 0) ∧
      ¬Always step Backed none [pcLinuxBoot (-1) 3 0x7FFFF (-1), pcLinuxBoot 0 3 0 0] := by
  refine ⟨by decide, ?_⟩
  rintro ⟨-, hrest⟩
  have hbacked : Backed (some 0) (pcLinuxBoot 0 3 0 0) := (hrest (some 0) (by decide)).1
  obtain ⟨len, hfile, hlen, -⟩ := hbacked (by decide) (by decide)
  have hempty : (init (pcLinuxBoot 0 3 0 0) (some 0)).2.1 = some 0 := by decide
  obtain rfl := Option.some.inj (hempty.symm.trans hfile)
  exact absurd hlen (by decide)

end Runs

end CfePsp.Eeprom.MmapFile
