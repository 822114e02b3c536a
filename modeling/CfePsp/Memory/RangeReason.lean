import CfePsp.Lib.Scans
import CfePsp.Memory.Range

set_option relaxedAutoImplicit false
set_option autoImplicit false

/-!
# The reasons of `CFE_PSP_MemValidateRange`

`cfe_psp.h` says what each return code of `CFE_PSP_MemValidateRange` means. The loop keeps one
return code, and every slot that does not end the search stores its own, also over that of a slot
that came closer to the range: a range is refused with the reason of the last slot.

## Main definitions

* `CfePsp.Memory.Contains`, `CfePsp.Memory.Holds` — a slot contains a range, or an address.
* `CfePsp.Memory.documentedReason` — the return code by the description in `cfe_psp.h`.

## Main results

* `CfePsp.Memory.memValidateRange_reason_iff` — when the return code is the documented one, and
  when it does not depend on the order of the slots.
-/

namespace CfePsp.Memory

variable {w : ℕ}

/-! ## The description in `cfe_psp.h` -/

/-- The slot contains the range. -/
def Contains (address size : BitVec w) (e : MemTable w) : Prop :=
  e.startAddr.toNat ≤ address.toNat ∧
    address.toNat + size.toNat ≤ e.startAddr.toNat + e.size.toNat

instance (address size : BitVec w) : DecidablePred (Contains address size) := fun _ =>
  inferInstanceAs (Decidable (_ ∧ _))

/-- The slot contains the address. -/
def Holds (address : BitVec w) (e : MemTable w) : Prop :=
  e.startAddr.toNat ≤ address.toNat ∧ address.toNat < e.startAddr.toNat + e.size.toNat

instance (address : BitVec w) : DecidablePred (Holds address) := fun _ =>
  inferInstanceAs (Decidable (_ ∧ _))

/-- The slot contains the range, and is of the type asked for. -/
def Matches (address size : BitVec w) (memoryType : Uint32) (e : MemTable w) : Prop :=
  Contains address size e ∧ Admits memoryType e

instance (address size : BitVec w) (memoryType : Uint32) :
    DecidablePred (Matches address size memoryType) := fun _ => inferInstanceAs (Decidable (_ ∧ _))

/-- The return code for a range: success if some slot matches, else the type is wrong if some slot
contains the range, else the range is too long if some slot contains its address. -/
def documentedReason (table : List (MemTable w)) (address size : BitVec w) (memoryType : Uint32) :
    ℤ :=
  if ∃ e ∈ table, Matches address size memoryType e then Status.success
  else if ∃ e ∈ table, Contains address size e then Status.invalidMemType
  else if ∃ e ∈ table, Holds address e then Status.invalidMemRange
  else Status.invalidMemAddr

/-- Every slot was set, to a range that is not empty and ends in the address space. -/
def AllSet (n : ℕ) (calls : List (RangeCall w)) : Prop :=
  ∀ i < n, ∃ e ∈ configured n calls i,
    0 < e.size.toNat ∧ e.startAddr.toNat + e.size.toNat ≤ 2 ^ w

instance (n : ℕ) (calls : List (RangeCall w)) : Decidable (AllSet n calls) :=
  inferInstanceAs (Decidable (∀ i < n, ∃ e ∈ configured n calls i, _ ∧ _))

/-! ## What one slot answers -/

/-- The reason of a slot for refusing a range. -/
def slotReason (address size : BitVec w) (e : MemTable w) : ℤ :=
  if Contains address size e then Status.invalidMemType
  else if Holds address e then Status.invalidMemRange
  else Status.invalidMemAddr

/-- The slot has a type, is not empty and ends in the address space. -/
structure Proper (e : MemTable w) : Prop where
  valid : e.memoryType ≠ memInvalid
  nonempty : 0 < e.size.toNat
  fits : e.startAddr.toNat + e.size.toNat ≤ 2 ^ w

/-- The slots of a table whose slots were all set. -/
lemma AllSet.proper {n : ℕ} {calls : List (RangeCall w)} (h : AllSet n calls) {e : MemTable w}
    (he : e ∈ memRangeSets n calls) : Proper e := by
  obtain ⟨i, hlt, rfl⟩ := exists_slot_of_mem he
  obtain ⟨e', he', hpos, hfits⟩ := h i hlt
  obtain ⟨call, -, hacc, -, rfl⟩ := exists_call_of_configured he'
  rw [Option.mem_def] at he'
  rw [he', Option.getD_some]
  exact ⟨hacc.memoryType_ne, hpos, hfits⟩

section Slots

variable {address size : BitVec w} {memoryType : Uint32} {e e' : MemTable w}
  {table : List (MemTable w)}

/-- A slot that contains a range contains its address. -/
lemma Contains.holds (hpos : 0 < size.toNat) (h : Contains address size e) : Holds address e :=
  ⟨h.1, by have := h.2; omega⟩

/-- The comparisons of the loop, in exact numbers. -/
lemma Proper.holds_iff (he : Proper e) :
    e.startAddr ≤ address ∧ address ≤ e.startAddr + e.size - 1 ↔ Holds address e := by
  have hlast := Interval.toNat_last he.fits (by have := he.nonempty; omega)
  have hpos := he.nonempty
  rw [Interval.last] at hlast
  rw [BitVec.le_def, BitVec.le_def, hlast, Holds]
  omega

lemma Proper.contains_iff (he : Proper e) (hpos : 0 < size.toNat)
    (hfits : address.toNat + size.toNat ≤ 2 ^ w) (hholds : Holds address e) :
    address + size - 1 ≤ e.startAddr + e.size - 1 ↔ Contains address size e := by
  have hlast := Interval.toNat_last he.fits (by have := he.nonempty; omega)
  have hasked := Interval.toNat_last hfits (by omega)
  have hsize := he.nonempty
  rw [Interval.last] at hlast hasked
  rw [BitVec.le_def, hlast, hasked, Contains]
  have hstart := hholds.1
  omega

/-- **The loop is a scan** for a slot that matches. -/
lemma searchTable_eq_scan (hknown : KnownType memoryType) (hpos : 0 < size.toNat)
    (hfits : address.toNat + size.toNat ≤ 2 ^ w) (hproper : ∀ e ∈ table, Proper e)
    (returnCode : ℤ) :
    searchTable address size memoryType table returnCode =
      Scan.scan (Matches address size memoryType) Status.success (slotReason address size) table
        returnCode := by
  induction table generalizing returnCode with
  | nil => rfl
  | cons e rest ih =>
    have he : Proper e := hproper e List.mem_cons_self
    have hrest := ih fun e' he' => hproper e' (List.mem_cons_of_mem e he')
    have hadmits := admits_iff hknown e
    rw [Scan.scan]
    simp only [searchTable, if_pos he.valid, he.holds_iff]
    by_cases hholds : Holds address e
    · simp only [if_pos hholds, he.contains_iff hpos hfits hholds]
      by_cases hcontains : Contains address size e
      · rw [if_pos hcontains]
        by_cases hadm : Admits memoryType e
        · rw [if_pos (show Matches address size memoryType e from ⟨hcontains, hadm⟩)]
          have hcascade := hadmits.1 hadm
          split_ifs with hany hram heeprom
          · rfl
          · rfl
          · rfl
          · tauto
        · have hnot : ¬Matches address size memoryType e := fun h => hadm h.2
          rw [if_neg hnot]
          rw [hadmits, not_or, not_or] at hadm
          rw [if_neg hadm.1, if_neg hadm.2.1, if_neg hadm.2.2, hrest, slotReason, if_pos hcontains]
      · have hnot : ¬Matches address size memoryType e := fun h => hcontains h.1
        rw [if_neg hcontains, if_neg hnot, hrest, slotReason, if_neg hcontains, if_pos hholds]
    · have hcontains : ¬Contains address size e := fun h => hholds (h.holds hpos)
      have hnot : ¬Matches address size memoryType e := fun h => hcontains h.1
      rw [if_neg hholds, if_neg hnot, hrest, slotReason, if_neg hcontains, if_neg hholds]

/-- `MemValidateRange` is the scan. -/
lemma memValidateRange_eq_scan (hknown : KnownType memoryType) (hpos : 0 < size.toNat)
    (hfits : address.toNat + size.toNat ≤ 2 ^ w) (hproper : ∀ e ∈ table, Proper e) :
    memValidateRange table address size memoryType =
      Scan.scan (Matches address size memoryType) Status.success (slotReason address size) table
        Status.invalidMemAddr := by
  have hwrap : ¬address + size - 1 < address := by
    rw [← Interval.last, Interval.last_lt_iff, Interval.eq_zero_iff]
    omega
  rw [memValidateRange, if_neg hknown.not_refused, if_neg hwrap,
    searchTable_eq_scan hknown hpos hfits hproper]

/-- Two slots that give the same reason contain the same of the range. -/
lemma slotReason_eq_iff (hpos : 0 < size.toNat) :
    slotReason address size e = slotReason address size e' ↔
      (Contains address size e ↔ Contains address size e') ∧
        (Holds address e ↔ Holds address e') := by
  have hcodes : Status.invalidMemType ≠ Status.invalidMemRange ∧
      Status.invalidMemType ≠ Status.invalidMemAddr ∧
      Status.invalidMemRange ≠ Status.invalidMemAddr := by decide
  have he : Contains address size e → Holds address e := Contains.holds hpos
  have he' : Contains address size e' → Holds address e' := Contains.holds hpos
  obtain ⟨htr, hta, hra⟩ := hcodes
  simp only [slotReason]
  split_ifs <;> simp_all [Ne.symm]

end Slots

/-! ## Main result -/

section Main

variable {n : ℕ} {calls : List (RangeCall w)} {address size : BitVec w} {memoryType : Uint32}
  {table : List (MemTable w)}

/-- The last slot contains as much of the range as any other. -/
def LastClosest (address size : BitVec w) (table : List (MemTable w)) : Prop :=
  ((∃ e ∈ table, Contains address size e) → ∃ e ∈ table.getLast?, Contains address size e) ∧
    ((∃ e ∈ table, Holds address e) → ∃ e ∈ table.getLast?, Holds address e)

instance (address size : BitVec w) (table : List (MemTable w)) :
    Decidable (LastClosest address size table) :=
  inferInstanceAs (Decidable ((_ → _) ∧ (_ → _)))

/-- Every slot contains as much of the range as any other. -/
def AllAlike (address size : BitVec w) (table : List (MemTable w)) : Prop :=
  ∀ e ∈ table, ∀ e' ∈ table,
    (Contains address size e ↔ Contains address size e') ∧ (Holds address e ↔ Holds address e')

/-- A range that no slot matches is refused for the documented reason exactly when the last slot is
the closest. -/
lemma lastReason_iff (hpos : 0 < size.toNat)
    (hnone : ¬∃ e ∈ table, Matches address size memoryType e) :
    (table.getLast?.map (slotReason address size)).getD Status.invalidMemAddr =
      documentedReason table address size memoryType ↔ LastClosest address size table := by
  rw [documentedReason, if_neg hnone, LastClosest]
  cases hlast : table.getLast? with
  | none =>
    obtain rfl := List.getLast?_eq_none_iff.1 hlast
    simp
  | some e =>
    have he : e ∈ table := List.mem_of_getLast? hlast
    have hlocal : (∃ e' ∈ some e, Contains address size e') ↔ Contains address size e := by simp
    have hlocal' : (∃ e' ∈ some e, Holds address e') ↔ Holds address e := by simp
    rw [hlocal, hlocal', Option.map_some, Option.getD_some, slotReason]
    by_cases hcontains : Contains address size e
    · have hholds : Holds address e := hcontains.holds hpos
      rw [if_pos hcontains, if_pos ⟨e, he, hcontains⟩]
      exact iff_of_true rfl ⟨fun _ => hcontains, fun _ => hholds⟩
    · rw [if_neg hcontains]
      by_cases hholds : Holds address e
      · rw [if_pos hholds]
        split_ifs with hex hex'
        · exact iff_of_false (by decide) fun h => hcontains (h.1 hex)
        · exact iff_of_true rfl ⟨fun h => absurd h hex, fun _ => hholds⟩
        · exact absurd ⟨e, he, hholds⟩ hex'
      · rw [if_neg hholds]
        split_ifs with hex hex'
        · exact iff_of_false (by decide) fun h => hcontains (h.1 hex)
        · exact iff_of_false (by decide) fun h => hholds (h.2 hex')
        · exact iff_of_true rfl ⟨fun h => absurd h hex, fun h => absurd h hex'⟩

/-- **The reason for refusing a range.** For a table whose slots were all set and a range in the
address space, the return code is the documented one if and only if some slot matches or the last
slot is the closest; and it is the same in every order of the slots if and only if some slot matches
or all slots are equally close.

**Proof sketch.** The loop is a scan for a slot that matches, which keeps the reason of the last
slot, and which slot that is depends on the order. -/
theorem memValidateRange_reason_iff (hset : AllSet n calls) (hknown : KnownType memoryType)
    (hpos : 0 < size.toNat) (hfits : address.toNat + size.toNat ≤ 2 ^ w) :
    (memValidateRange (memRangeSets n calls) address size memoryType =
        documentedReason (memRangeSets n calls) address size memoryType ↔
      (∃ e ∈ memRangeSets n calls, Matches address size memoryType e) ∨
        LastClosest address size (memRangeSets n calls)) ∧
    ((∀ table, table.Perm (memRangeSets n calls) →
        memValidateRange table address size memoryType =
          memValidateRange (memRangeSets n calls) address size memoryType) ↔
      (∃ e ∈ memRangeSets n calls, Matches address size memoryType e) ∨
        AllAlike address size (memRangeSets n calls)) := by
  have hproper : ∀ table : List (MemTable w), table.Perm (memRangeSets n calls) →
      ∀ e ∈ table, Proper e := fun table hperm e he => hset.proper (hperm.subset he)
  have hscan := fun table hperm =>
    memValidateRange_eq_scan hknown hpos hfits (hproper table hperm)
  constructor
  · rw [hscan _ (List.Perm.refl _)]
    by_cases hex : ∃ e ∈ memRangeSets n calls, Matches address size memoryType e
    · rw [Scan.scan_of_exists hex, documentedReason, if_pos hex]
      exact iff_of_true rfl (.inl hex)
    · rw [or_iff_right hex, ← lastReason_iff hpos hex, Scan.scan_of_forall]
      push Not at hex
      exact hex
  · rw [hscan _ (List.Perm.refl _)]
    have hperms : (∀ table, table.Perm (memRangeSets n calls) →
        memValidateRange table address size memoryType =
          Scan.scan (Matches address size memoryType) Status.success (slotReason address size)
            (memRangeSets n calls) Status.invalidMemAddr) ↔ _ :=
      (forall₂_congr fun table hperm => by rw [hscan table hperm]).trans Scan.scan_perm_iff
    rw [hperms]
    simp only [slotReason_eq_iff hpos, AllAlike]

/-- A range in the second of two slots, which is not of the type asked for. -/
theorem memValidateRange_reason_of_last :
    memValidateRange (memRangeSets 2 [⟨0, ⟨memRam, 1, 0x1000, 0x100, 3⟩⟩,
        ⟨1, ⟨memEeprom, 1, 0x8000#32, 0x100, 3⟩⟩]) 0x8010 4 memRam =
      documentedReason (memRangeSets 2 [⟨0, ⟨memRam, 1, 0x1000, 0x100, 3⟩⟩,
        ⟨1, ⟨memEeprom, 1, 0x8000#32, 0x100, 3⟩⟩]) 0x8010 4 memRam :=
  (memValidateRange_reason_iff (by decide) (.inr (.inl rfl)) (by decide) (by decide)).1.2
    (.inr (by decide))

/-- A range in the first of two slots, which is not of the type asked for: the second slot reports
that the address is not valid. With the slots exchanged the type is wrong, as documented. -/
theorem memValidateRange_wrongReason :
    AllSet 2 [⟨0, ⟨memRam, 1, 0x1000, 0x100, 3⟩⟩, ⟨1, ⟨memEeprom, 1, 0x8000#32, 0x100, 3⟩⟩] ∧
    memValidateRange (memRangeSets 2 [⟨0, ⟨memRam, 1, 0x1000, 0x100, 3⟩⟩,
        ⟨1, ⟨memEeprom, 1, 0x8000#32, 0x100, 3⟩⟩]) 0x1010 4 memEeprom =
      Status.invalidMemAddr ∧
    documentedReason (memRangeSets 2 [⟨0, ⟨memRam, 1, 0x1000, 0x100, 3⟩⟩,
        ⟨1, ⟨memEeprom, 1, 0x8000#32, 0x100, 3⟩⟩]) 0x1010 4 memEeprom =
      Status.invalidMemType ∧
    memValidateRange (memRangeSets 2 [⟨0, ⟨memRam, 1, 0x1000, 0x100, 3⟩⟩,
        ⟨1, ⟨memEeprom, 1, 0x8000#32, 0x100, 3⟩⟩]).reverse 0x1010 4 memEeprom =
      Status.invalidMemType := by
  decide

end Main

end CfePsp.Memory
