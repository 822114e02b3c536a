import CfePsp.Eeprom.MmapFile
import CfePsp.Lib.Layout
import CfePsp.Memory.DirectAccess
import CfePsp.Memory.RangeQuery

set_option relaxedAutoImplicit false
set_option autoImplicit false

/-!
# What the simulated EEPROM retains

The file behind the simulated EEPROM is mapped again by every process, wherever the system puts it.
An application asks for the start of the EEPROM range and writes there, if the range is valid; what
it has written is in the file, and the next process finds it at another address.

## Main definitions

* `CfePsp.Eeprom.MmapFile.setupFile` — what `CFE_PSP_SetupEEPROM` does to the file.
* `CfePsp.Eeprom.MmapFile.Sys`, `CfePsp.Eeprom.MmapFile.sysStep` — boots, writes and exits.
* `CfePsp.Eeprom.MmapFile.after` — the EEPROM as an array of bytes that no exit changes.

## Main results

* `CfePsp.Eeprom.MmapFile.contents_of_boots` — as long as nothing is written behind the end of the
  file, it holds that array, a process finds it at the range that is registered, and its writes
  inside of the EEPROM are accepted.

## Design

The mapping is shared: the bytes of the process at the mapping are those of the file, as far as it
reaches. `CFE_PSP_MemValidateRange` does not know how far that is: a creation that fails leaves an
empty file, which the next boot maps and registers as it is. What a process writes behind the end of
the file, it finds in the rest of the last page until it ends, but the file does not get it; behind
that page `SIGBUS` ends the process, and nothing is stored. `eeprom_mmap_file` installs no handler
for the signal.
-/

namespace CfePsp.Eeprom.MmapFile

open Memory Transition
open DirectAccess (Width)
open Words (Endian)

variable {w : ℕ} {eepromSize : Uint32}

/-! ## The file -/

/-- The file `EEPROM.DAT`. -/
structure File where
  length : ℕ
  bytes : ℕ → UInt8

/-- What a file holds, with zeros behind its end. -/
def contents : Option File → ℕ → UInt8
  | none, _ => 0
  | some file, k => if k < file.length then file.bytes k else 0

/-- `write` of one byte at an offset. A gap between the end and the offset reads as zeros. -/
def File.writeAt (file : File) (offset : ℕ) (v : UInt8) : File where
  length := max (offset + 1) file.length
  bytes := Function.update (contents (some file)) offset v

/-- What `CFE_PSP_SetupEEPROM` does to the file. The byte that it writes is the end of an empty
string. -/
def setupFile (b : Boot w eepromSize) (file : Option File) : Option File :=
  if b.returnStatus = -1 then
    if b.fileDescriptor = -1 then file
    else
      let file := file.getD ⟨0, fun _ => 0⟩
      if b.lseek = -1 then some file
      else if b.write ≠ 1 then some file
      else some (file.writeAt (eepromSize - 1).toNat 0)
  else file

/-! ## The writes -/

/-- `CFE_PSP_EepromWrite8`, `CFE_PSP_EepromWrite16` and `CFE_PSP_EepromWrite32` for a `cpuaddr` of
`w` bits: status and memory. -/
def eepromWrite (e : Endian) (mem : Mem) (memoryAddress : BitVec w) (width : Width)
    (value : width.Word) : ℤ × Mem :=
  (Status.success, Lanes.store e width.bytes mem memoryAddress.toNat value)

/-- How many bytes of the file are mapped. -/
def File.mappedLength (file : File) (eepromSize : Uint32) : ℕ := min file.length eepromSize.toNat

/-- The memory of a process that has mapped the file. -/
def File.mapped (file : File) (eepromSize : Uint32) (dataBuffer : BitVec w) (mem : Mem) : Mem :=
  Cells.overlay mem file.bytes dataBuffer.toNat (file.mappedLength eepromSize)

/-- The file of a mapping whose memory was changed. -/
def File.synced (file : File) (eepromSize : Uint32) (dataBuffer : BitVec w) (mem : Mem) : File :=
  { file with
    bytes := fun k =>
      if k < file.mappedLength eepromSize then mem (dataBuffer.toNat + k) else file.bytes k }

/-! ## Processes -/

/-- A process after `eeprom_mmap_file_Init`: where the file is mapped, the other memory, and the
table of the ranges. -/
structure Process (w : ℕ) where
  dataBuffer : BitVec w
  mem : Mem
  sysMemoryTable : List (MemTable w)

/-- The file, and the process if there is one. -/
structure Sys (w : ℕ) where
  file : Option File
  process : Option (Process w)

/-- The steps: a process starts, with some memory, it writes to the EEPROM, or it ends. -/
inductive Event (w : ℕ) (eepromSize : Uint32)
  | boot (b : Boot w eepromSize) (mem : Mem)
  | write (width : Width) (offset : BitVec w) (value : width.Word)
  | exit

/-- The call of `CFE_PSP_MemRangeGet` for the range that `eeprom_mmap_file_Init` sets. -/
def eepromRangeGet (table : List (MemTable w)) : ℤ × Option (MemTable w) :=
  memRangeGet table 1 ⟨false, false, false, false, false⟩

/-- A write as an application makes it: `CFE_PSP_MemRangeGet`, `CFE_PSP_MemValidateRange` with the
address that it computes, and the write, on a system with pages of `2 ^ pageBits` bytes. The result
is the file, and the process if it goes on. -/
def Process.write (e : Endian) (pageBits : ℕ) (eepromSize : Uint32) (p : Process w) (file : File)
    (width : Width) (offset : BitVec w) (value : width.Word) : Option (Sys w) :=
  (eepromRangeGet p.sysMemoryTable).2.bind fun entry =>
    let address := entry.startAddr + offset
    if memValidateRange p.sysMemoryTable address (BitVec.ofNat w width.bytes) memEeprom =
        Status.success then
      if address.toNat + width.bytes ≤
          p.dataBuffer.toNat + Layout.alignUp pageBits file.length then
        let mem :=
          (eepromWrite e (file.mapped eepromSize p.dataBuffer p.mem) address width value).2
        some ⟨some (file.synced eepromSize p.dataBuffer mem), some { p with mem }⟩
      -- `SIGBUS`
      else some ⟨some file, none⟩
    else none

/-- One step. `stat` finds no file where there is none. -/
def sysStep (e : Endian) (pageBits : ℕ) (s : Sys w) : Event w eepromSize → Option (Sys w)
  | .boot b mem =>
      if s.process.isNone ∧ ¬(b.returnStatus ≠ -1 ∧ s.file.isNone) then
        some ⟨setupFile b s.file,
          some ⟨b.dataBuffer, mem, (init b (s.file.map File.length)).2.2⟩⟩
      else none
  | .write width offset value =>
      s.process.bind fun p => s.file.bind fun file =>
        p.write e pageBits eepromSize file width offset value
  | .exit => if s.process.isSome then some { s with process := none } else none

/-- A write does not go behind the end of the file. -/
def Event.InFile (s : Sys w) : Event w eepromSize → Prop
  | .write width offset _ => ∀ file ∈ s.file, offset.toNat + width.bytes ≤ file.length
  | _ => True

instance (s : Sys w) : (x : Event w eepromSize) → Decidable (x.InFile s)
  | .write width offset _ =>
      inferInstanceAs (Decidable (∀ file ∈ s.file, offset.toNat + width.bytes ≤ file.length))
  | .boot _ _ => isTrue trivial
  | .exit => isTrue trivial

/-! ## The array -/

/-- **The EEPROM as an array of bytes**: a write stores its word at its offset, and a boot that
creates the file clears the last byte. Nothing else changes it. -/
def after (e : Endian) (eeprom : ℕ → UInt8) : Event w eepromSize → ℕ → UInt8
  | .boot b _ =>
      if Creates b then Function.update eeprom (eepromSize - 1).toNat 0 else eeprom
  | .write width offset value => Lanes.store e width.bytes eeprom offset.toNat value
  | .exit => eeprom

section Steps

variable {e : Endian} {file : File} {b : Boot w eepromSize} {dataBuffer : BitVec w} {mem : Mem}

/-- With a `cpuaddr` of 32 bits the writes are those of `CfePsp.Eeprom.Direct`. -/
lemma eepromWrite_eq (address : Uint32) (v8 : BitVec 8) (v16 : Uint16) (v32 : Uint32) :
    eepromWrite e mem address .w8 v8 = eepromWrite8 e mem address v8 ∧
      eepromWrite e mem address .w16 v16 = eepromWrite16 e mem address v16 ∧
      eepromWrite e mem address .w32 v32 = eepromWrite32 e mem address v32 :=
  ⟨rfl, rfl, rfl⟩

/-- The file after the set-up: an empty one is created where there is none, and the byte at the end
is written if nothing fails. -/
lemma setupFile_eq (file : Option File) :
    setupFile b file =
      if b.returnStatus ≠ -1 ∨ b.fileDescriptor = -1 then file
      else if Creates b then some ((file.getD ⟨0, fun _ => 0⟩).writeAt (eepromSize - 1).toNat 0)
      else some (file.getD ⟨0, fun _ => 0⟩) := by
  simp only [setupFile, Creates]
  split_ifs <;> simp_all

/-- It has the length that the set-up leaves. -/
lemma length_setupFile (file : Option File) :
    (setupFile b file).map File.length = (setupEeprom b (file.map File.length)).file := by
  rw [setupEeprom_file, setupFile_eq]
  split_ifs
  · rfl
  · cases file <;> rfl
  · cases file <;> rfl

lemma contents_writeAt (offset : ℕ) (v : UInt8) :
    contents (some (file.writeAt offset v)) =
      Function.update (contents (some file)) offset v := by
  funext k
  have hlen : (file.writeAt offset v).length = max (offset + 1) file.length := rfl
  show (if k < (file.writeAt offset v).length then
    Function.update (contents (some file)) offset v k else 0) = _
  by_cases hk : k < (file.writeAt offset v).length
  · rw [if_pos hk]
  · rw [hlen] at hk
    rw [hlen, if_neg hk, Function.update_of_ne (by omega)]
    exact (if_neg (by omega)).symm

/-- A boot clears the last byte if it creates the file, and leaves the others alone. -/
lemma contents_setupFile (file : Option File) :
    contents (setupFile b file) = after e (contents file) (.boot b mem) := by
  have hnew : contents (some (file.getD ⟨0, fun _ => 0⟩)) = contents file := by
    cases file with
    | none =>
      funext k
      show (if k < 0 then (0 : UInt8) else 0) = 0
      exact ite_self 0
    | some file => rfl
  rw [after, setupFile_eq]
  by_cases hcreates : Creates b
  · have hopened : ¬(b.returnStatus ≠ -1 ∨ b.fileDescriptor = -1) := fun h =>
      h.elim (· hcreates.1) hcreates.2.1
    rw [if_neg hopened, if_pos hcreates, if_pos hcreates, contents_writeAt, hnew]
  · rw [if_neg hcreates, if_neg hcreates]
    split_ifs
    · rfl
    · exact hnew

/-- A write to the mapping is a write to the array. -/
lemma contents_synced {address : BitVec w} {offset : ℕ} {width : Width} {value : width.Word}
    (haddress : address.toNat = dataBuffer.toNat + offset)
    (hend : offset + width.bytes ≤ file.mappedLength eepromSize) :
    contents (some (file.synced eepromSize dataBuffer
        (eepromWrite e (file.mapped eepromSize dataBuffer mem) address width value).2)) =
      Lanes.store e width.bytes (contents (some file)) offset value := by
  funext k
  have hlength : file.mappedLength eepromSize ≤ file.length := min_le_left _ _
  show (if k < file.length then if k < file.mappedLength eepromSize then
    Lanes.store e width.bytes (file.mapped eepromSize dataBuffer mem) address.toNat value
      (dataBuffer.toNat + k) else file.bytes k else 0) = _
  rw [haddress, Lanes.store, Lanes.store]
  by_cases hk : offset ≤ k ∧ k < offset + width.bytes
  · rw [if_pos (by omega), if_pos (by omega), Cells.overlay_of_mem hk,
      Cells.overlay_of_mem (by omega), Nat.add_sub_add_left]
  · rw [Cells.overlay_of_notMem hk, contents]
    by_cases hlt : k < file.mappedLength eepromSize
    · rw [if_pos hlt, Cells.overlay_of_notMem (by omega), File.mapped,
        Cells.overlay_of_mem (by omega), Nat.add_sub_cancel_left]
    · rw [if_neg hlt]

end Steps

/-! ## The range -/

section Range

variable {e : Endian} {b : Boot w eepromSize} {len : Option ℕ} {p : Process w} {file : File}
  {pageBits : ℕ} {width : Width} {offset : BitVec w} {value : width.Word} {entry : MemTable w}

/-- A boot that does not register the EEPROM leaves the table alone. -/
lemma init_table_of_failed (h : (init b len).1 ≠ Status.success) :
    (init b len).2.2 = b.sysMemoryTable := by
  rw [init] at h ⊢
  by_cases hsetup : (setupEeprom b len).status = 0
  · rw [if_pos hsetup] at h ⊢
    simp only [memRangeSet] at h ⊢
    split_ifs at h ⊢ with hcheck
    · exact absurd hcheck h
    · rfl
  · rw [if_neg hsetup]

/-- If there is an entry for EEPROM, the boot has registered it. -/
lemma init_success_of_mem {entry : MemTable w} (hmem : entry ∈ (init b len).2.2)
    (htype : entry.memoryType = memEeprom) : (init b len).1 = Status.success := by
  by_contra hfailed
  rw [init_table_of_failed hfailed] at hmem
  exact b.noEeprom entry hmem htype

/-- A boot that registers the EEPROM has mapped the file, and has a table with a second slot. -/
lemma mapped_of_success (h : (init b len).1 = Status.success) :
    b.dataBuffer ≠ -1 ∧ 1 < b.sysMemoryTable.length := by
  rcases init_success.1 h with hcreates | hreuses
  · exact hcreates.2
  · exact hreuses.2.2

/-- The range of a boot that has registered the EEPROM is the mapping. -/
lemma eepromRangeGet_init (h : (init b len).1 = Status.success) :
    eepromRangeGet (init b len).2.2 =
      (Status.success, some (eepromEntry b.dataBuffer eepromSize).entry) := by
  have hlength := (mapped_of_success h).2
  rw [init_table h]
  simp [eepromRangeGet, memRangeGet, NullPointers.any, hlength]

/-- The process has come out of a boot. -/
def Process.Started (eepromSize : Uint32) (p : Process w) : Prop :=
  ∃ (b : Boot w eepromSize) (len : Option ℕ),
    p.dataBuffer = b.dataBuffer ∧ p.sysMemoryTable = (init b len).2.2

/-- An EEPROM range that a process gets is the mapping. -/
lemma Process.Started.range (h : p.Started eepromSize)
    (hget : eepromRangeGet p.sysMemoryTable = (Status.success, some entry))
    (htype : entry.memoryType = memEeprom) :
    ∃ (b : Boot w eepromSize) (len : Option ℕ), p.dataBuffer = b.dataBuffer ∧
      p.sysMemoryTable = (init b len).2.2 ∧ (init b len).1 = Status.success ∧
      entry = (eepromEntry b.dataBuffer eepromSize).entry := by
  obtain ⟨b, len, hbuffer, htable⟩ := h
  have hmem : entry ∈ (init b len).2.2 := by
    rw [← htable]
    simp only [eepromRangeGet, memRangeGet, NullPointers.any, Bool.or_false, Bool.false_eq_true,
      if_false] at hget
    split at hget
    · simp at hget
    · next entry' hentry =>
      obtain rfl := Option.some.inj (Prod.mk.inj hget).2
      exact List.mem_of_getElem? hentry
  have hsuccess := init_success_of_mem hmem htype
  rw [htable, eepromRangeGet_init hsuccess] at hget
  exact ⟨b, len, hbuffer, htable, hsuccess, (Option.some.inj (Prod.mk.inj hget).2).symm⟩

lemma toNat_bytes (hw : 32 ≤ w) (width : Width) :
    (BitVec.ofNat w width.bytes).toNat = width.bytes := by
  rw [BitVec.toNat_ofNat]
  refine Nat.mod_eq_of_lt ?_
  calc width.bytes ≤ 4 := by cases width <;> decide
    _ < 2 ^ 32 := by decide
    _ ≤ 2 ^ w := Nat.pow_le_pow_right (by decide) hw

/-- A process that goes on after a write has the mapping and the table that it had. -/
lemma Process.Started.write (h : p.Started eepromSize) {t : Sys w}
    (hwrite : p.write e pageBits eepromSize file width offset value = some t) :
    ∀ p' ∈ t.process, p'.Started eepromSize := by
  obtain ⟨entry, -, hwrite⟩ := Option.bind_eq_some_iff.1 hwrite
  dsimp only at hwrite
  split_ifs at hwrite with haccepted hpage
  · obtain rfl := Option.some.inj hwrite
    intro p' hp'
    obtain rfl := Option.some.inj hp'
    exact h
  · obtain rfl := Option.some.inj hwrite
    exact fun p' hp' => absurd hp' (Option.not_mem_none p')

/-- **A write of a process is one to the array**, if it does not go behind the end of the file. -/
lemma Process.Started.contents_write (hw : 32 ≤ w) (hsize : 1 ≤ eepromSize.toNat)
    (h : p.Started eepromSize) (hin : offset.toNat + width.bytes ≤ file.length) {t : Sys w}
    (hwrite : p.write e pageBits eepromSize file width offset value = some t) :
    contents t.file = Lanes.store e width.bytes (contents (some file)) offset.toNat value := by
  obtain ⟨b, len, hbuffer, htable⟩ := h
  obtain ⟨entry, hentry, hwrite⟩ := Option.bind_eq_some_iff.1 hwrite
  have hpage := Layout.le_alignUp pageBits file.length
  dsimp only at hwrite
  rw [Option.ite_none_right_eq_some] at hwrite
  obtain ⟨haccepted, hwrite⟩ := hwrite
  -- a range that is accepted as EEPROM is one that the boot has registered
  rw [htable] at haccepted hentry
  obtain ⟨-, answer, hanswer, -, -, hadmits⟩ :=
    (memValidateRange_success_iff (.inr (.inr rfl)) _).1 haccepted
  have htype : answer.memoryType = memEeprom := by
    rcases hadmits with hany | htype
    · exact absurd hany (by decide)
    · exact htype.symm
  have hsuccess := init_success_of_mem hanswer htype
  rw [eepromRangeGet_init hsuccess] at hentry
  obtain rfl := Option.some.inj hentry
  obtain ⟨hlow, hhigh⟩ := mapped_of_accepted hw hsize hsuccess haccepted
  have hstart : (eepromEntry b.dataBuffer eepromSize).entry.startAddr = p.dataBuffer :=
    hbuffer.symm
  rw [hstart] at hlow hhigh hwrite
  rw [← hbuffer] at hlow hhigh
  rw [toNat_bytes hw] at hhigh
  -- the address is not below the mapping, so it was computed without wrapping
  have haddress : (p.dataBuffer + offset).toNat = p.dataBuffer.toNat + offset.toNat := by
    have hoffset := offset.isLt
    have hbase := p.dataBuffer.isLt
    rw [BitVec.toNat_add] at hlow ⊢
    rcases Nat.lt_or_ge (p.dataBuffer.toNat + offset.toNat) (2 ^ w) with hlt | hge
    · exact Nat.mod_eq_of_lt hlt
    · rw [Nat.mod_eq_sub_mod hge, Nat.mod_eq_of_lt (by omega)] at hlow
      omega
  rw [if_pos (by omega)] at hwrite
  obtain rfl := Option.some.inj hwrite
  exact contents_synced haddress (le_min (by omega) (by omega))

/-- A write inside of the EEPROM is accepted, when the file has its length, and the process goes
on. -/
lemma Process.Started.write_accepted (e : Endian) (hw : 32 ≤ w) (h : p.Started eepromSize)
    (hget : eepromRangeGet p.sysMemoryTable = (Status.success, some entry))
    (htype : entry.memoryType = memEeprom) (hfull : eepromSize.toNat ≤ file.length)
    (hinside : offset.toNat + width.bytes ≤ eepromSize.toNat) (value : width.Word) :
    ∃ t, p.write e pageBits eepromSize file width offset value = some t ∧
      t.process.isSome = true := by
  obtain ⟨b, len, hbuffer, htable, hsuccess, rfl⟩ := h.range hget htype
  obtain ⟨hmap, hlength⟩ := mapped_of_success hsuccess
  have hfits := b.fits hmap
  have hlen : (eepromSize.setWidth w).toNat = eepromSize.toNat := toNat_setWidth hw eepromSize
  have hbytes := toNat_bytes hw width
  have hpos : 0 < width.bytes := by cases width <;> decide
  have hword := (b.dataBuffer + offset).isLt
  have haddress : (b.dataBuffer + offset).toNat = b.dataBuffer.toNat + offset.toNat := by
    rw [BitVec.toNat_add]
    exact Nat.mod_eq_of_lt (by omega)
  have htest : ¬Interval.last (b.dataBuffer + offset) (BitVec.ofNat w width.bytes) <
      b.dataBuffer + offset := by
    rw [Interval.last_lt_iff, Interval.eq_zero_iff, hbytes, haddress]
    omega
  have hwithin : Interval.Within (b.dataBuffer + offset) (BitVec.ofNat w width.bytes)
      b.dataBuffer (eepromSize.setWidth w) := by
    rw [Interval.within_iff htest (by omega), hbytes, haddress, hlen]
    exact .inr ⟨hpos, by omega, by omega⟩
  have haccepted : memValidateRange p.sysMemoryTable (b.dataBuffer + offset)
      (BitVec.ofNat w width.bytes) memEeprom = Status.success := by
    refine (memValidateRange_success_iff (.inr (.inr rfl)) _).2
      ⟨htest, (eepromEntry b.dataBuffer eepromSize).entry, ?_, (by decide : memEeprom ≠ memInvalid),
        hwithin, .inr rfl⟩
    rw [htable, init_table hsuccess]
    exact List.mem_set hlength _
  have hpage := Layout.le_alignUp pageBits file.length
  have hend : (b.dataBuffer + offset).toNat + width.bytes ≤
      p.dataBuffer.toNat + Layout.alignUp pageBits file.length := by
    rw [haddress, hbuffer]
    omega
  rw [Process.write, hget, Option.bind_some]
  exact ⟨_, (if_pos haccepted).trans (if_pos hend), rfl⟩

end Range

/-! ## Runs -/

section Runs

variable {e : Endian} {pageBits : ℕ} {s t : Sys w} {tr : List (Event w eepromSize)}

/-- What a step is. -/
lemma sysStep_cases {x : Event w eepromSize} (h : sysStep e pageBits s x = some t) :
    (∃ b mem, x = .boot b mem ∧ t = ⟨setupFile b s.file,
      some ⟨b.dataBuffer, mem, (init b (s.file.map File.length)).2.2⟩⟩) ∨
    (∃ width offset value p file, x = .write width offset value ∧ s.process = some p ∧
      s.file = some file ∧ p.write e pageBits eepromSize file width offset value = some t) ∨
    (x = .exit ∧ t = ⟨s.file, none⟩) := by
  cases x with
  | boot b mem =>
    rw [sysStep] at h
    split_ifs at h
    exact .inl ⟨b, mem, rfl, (Option.some.inj h).symm⟩
  | write width offset value =>
    obtain ⟨p, hp, h⟩ := Option.bind_eq_some_iff.1 h
    obtain ⟨file, hfile, hwrite⟩ := Option.bind_eq_some_iff.1 h
    exact .inr (.inl ⟨width, offset, value, p, file, rfl, hp, hfile, hwrite⟩)
  | exit =>
    rw [sysStep] at h
    split_ifs at h
    exact .inr (.inr ⟨rfl, (Option.some.inj h).symm⟩)

/-- A step does to the file what it does to the array, if it writes nothing behind the end of the
file. -/
lemma contents_step (hw : 32 ≤ w) (hsize : 1 ≤ eepromSize.toNat)
    (hs : ∀ p ∈ s.process, p.Started eepromSize) {x : Event w eepromSize} (hin : x.InFile s)
    (h : sysStep e pageBits s x = some t) :
    contents t.file = after e (contents s.file) x ∧ ∀ p ∈ t.process, p.Started eepromSize := by
  rcases sysStep_cases h with ⟨b, mem, rfl, rfl⟩ |
    ⟨width, offset, value, p, file, rfl, hp, hfile, hwrite⟩ | ⟨rfl, rfl⟩
  · refine ⟨contents_setupFile s.file, fun p hp => ?_⟩
    obtain rfl := Option.some.inj hp
    exact ⟨b, s.file.map File.length, rfl, rfl⟩
  · have hstarted := hs p hp
    refine ⟨?_, hstarted.write hwrite⟩
    rw [hfile]
    exact hstarted.contents_write hw hsize (hin file hfile) hwrite
  · exact ⟨rfl, fun p hp => absurd hp (Option.not_mem_none p)⟩

/-- The file holds the array in every run that writes nothing behind its end. -/
lemma contents_run (hw : 32 ≤ w) (hsize : 1 ≤ eepromSize.toNat) {file : Option File}
    (hin : Always (sysStep e pageBits) (fun s x => x.InFile s) ⟨file, none⟩ tr)
    (h : run (sysStep e pageBits) ⟨file, none⟩ tr = some t) :
    contents t.file = tr.foldl (after e) (contents file) ∧
      ∀ p ∈ t.process, p.Started eepromSize := by
  refine run_invariant_of_always
    (P := fun tr t => contents t.file = tr.foldl (after e) (contents file) ∧
      ∀ p ∈ t.process, p.Started eepromSize)
    ⟨rfl, fun p hp => absurd hp (Option.not_mem_none p)⟩ ?_ hin h
  rintro tr s x t ⟨hfile, hstarted⟩ hin hs
  obtain ⟨hstep, hstarted'⟩ := contents_step hw hsize hstarted hin hs
  rw [List.foldl_append, ← hfile]
  exact ⟨hstep, hstarted'⟩

/-- **The EEPROM is an array that outlives its processes.** In every run of boots, of which some may
fail, of writes as an application makes them and of exits at any time, in which no write goes behind
the end of the file:

* the file holds what the writes of all processes made of the array that it held at the start;
* when a process gets an EEPROM range, wherever that is, the array is there, as far as the file
  reaches;
* a write inside of the EEPROM is accepted then, if the file has its length, and the process goes
  on.

**Proof sketch.** A range that is valid as EEPROM is the mapping of the boot, so the address of a
write is its offset in the file. -/
theorem contents_of_boots (hw : 32 ≤ w) (hsize : 1 ≤ eepromSize.toNat) {file : Option File}
    (hin : Always (sysStep e pageBits) (fun s x => x.InFile s) ⟨file, none⟩ tr)
    (h : run (sysStep e pageBits) ⟨file, none⟩ tr = some t) :
    contents t.file = tr.foldl (after e) (contents file) ∧
    ∀ p ∈ t.process, ∀ f ∈ t.file, ∀ entry,
      eepromRangeGet p.sysMemoryTable = (Status.success, some entry) →
      entry.memoryType = memEeprom →
      (∀ k < f.mappedLength eepromSize,
        f.mapped eepromSize p.dataBuffer p.mem (entry.startAddr.toNat + k) =
          tr.foldl (after e) (contents file) k) ∧
      (eepromSize.toNat ≤ f.length → ∀ (width : Width) (offset : BitVec w) (value : width.Word),
        offset.toNat + width.bytes ≤ eepromSize.toNat →
          ∃ t', sysStep e pageBits t (.write width offset value : Event w eepromSize) = some t' ∧
            t'.process.isSome = true) := by
  obtain ⟨hcontents, hstarted⟩ := contents_run hw hsize hin h
  refine ⟨hcontents, fun p hp f hf entry hget htype => ⟨fun k hk => ?_, fun hfull => ?_⟩⟩
  · obtain ⟨b, len, hbuffer, -, -, rfl⟩ := (hstarted p hp).range hget htype
    have hstart : (eepromEntry b.dataBuffer eepromSize).entry.startAddr = p.dataBuffer :=
      hbuffer.symm
    have hlength : f.mappedLength eepromSize ≤ f.length := min_le_left _ _
    have hfile : t.file = some f := hf
    rw [← hcontents, hfile, contents, if_pos (by omega), hstart, File.mapped,
      Cells.overlay_of_mem (by omega), Nat.add_sub_cancel_left]
  · intro width offset value hinside
    obtain ⟨t', hwrite, hgoes⟩ :=
      (hstarted p hp).write_accepted e hw hget htype hfull hinside value
    have hprocess : t.process = some p := hp
    have hfile : t.file = some f := hf
    refine ⟨t', ?_, hgoes⟩
    rw [sysStep, hprocess, Option.bind_some, hfile, Option.bind_some, hwrite]

/-- A process creates the file and writes a word; the next one finds the file somewhere else. -/
def twoProcesses : List (Event 64 eepromSize₀) :=
  [.boot (pcLinuxBoot (-1) 3 0x7FFFF 1) fun _ => 9, .write .w16 6 (0xABCD : Uint16), .exit,
    .boot { pcLinuxBoot 0 3 0 0 with
      dataBuffer := 0x7F0000400000, fits := by decide, noEeprom := by decide } fun _ => 9]

/-- It finds the second byte of the word there. -/
theorem contents_of_boots_of_two : ∃ t p f,
    run (sysStep .little 12) ⟨none, none⟩ twoProcesses = some t ∧ t.process = some p ∧
      t.file = some f ∧ f.mapped eepromSize₀ p.dataBuffer p.mem (0x7F0000400000 + 7) = 0xAB := by
  refine ⟨_, _, _, rfl, rfl, rfl, ?_⟩
  have hrun : run (sysStep .little 12) ⟨none, none⟩ twoProcesses = some _ := rfl
  have hin : Always (sysStep .little 12) (fun s x => x.InFile s) ⟨none, none⟩ twoProcesses := by
    decide
  have hfound := (contents_of_boots (by decide) (by decide) hin hrun).2 _ rfl _ rfl
    ⟨memEeprom, 0x04, 0x7F0000400000, 0x80000, 0x03⟩ (by decide) rfl
  exact (hfound.1 7 (by decide)).trans (by decide)

/-- The creation of the file fails at its last byte; the next boot maps the empty file, and a
process writes to it. -/
def shortFile : List (Event 64 eepromSize₀) :=
  [.boot (pcLinuxBoot (-1) 3 0x7FFFF 0) fun _ => 9, .exit, .boot (pcLinuxBoot 0 3 0 0) fun _ => 9,
    .write .w16 6 (0xABCD : Uint16)]

/-- The write is let through, it ends the process, and the file does not get it. -/
theorem contents_lost_of_shortFile : ∃ t,
    run (sysStep .little 12) ⟨none, none⟩ shortFile = some t ∧ t.process = none ∧
      contents t.file 7 ≠ shortFile.foldl (after .little) (contents none) 7 :=
  ⟨_, rfl, rfl, by decide⟩

end Runs

end CfePsp.Eeprom.MmapFile
