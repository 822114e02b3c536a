import Mathlib.Logic.Function.Basic
import CfePsp.Lib.Crashes
import CfePsp.Lib.Runs
import CfePsp.Memory.Cds

set_option relaxedAutoImplicit false
set_option autoImplicit false

/-!
# The boot cycle of the Linux port

The reserved memory of the Linux port is shared memory that outlives the process. A boot picks its
reset type from the boot record there, as `OS_Application_Startup` does, and then initialises the
reserved memory store by store (`CFE_PSP_InitProcessorReservedMemory`); a session ends with
`CFE_PSP_Restart` or with a crash, which may also come between two of these stores.

## Main definitions

* `CfePsp.PcLinux.Segments` — the contents of the shared memory segments.
* `CfePsp.PcLinux.startupResetType` — the choice of the reset type.
* `CfePsp.PcLinux.initStores` — the stores of `CFE_PSP_InitProcessorReservedMemory`.
* `CfePsp.PcLinux.step` — the boot cycle, with the accesses to the CDS and the application's stores
  to the other areas.
* `CfePsp.PcLinux.Step` — the same as a relation, to be taken apart by cases.
* `CfePsp.PcLinux.Ending.nextResetType` — what the end of a session makes of the next boot.

## Main results

* `CfePsp.PcLinux.step_iff` — the relation is the function.
* `CfePsp.PcLinux.phaseInv_of_run` — the boot record agrees with the phase of the cycle.
* `CfePsp.PcLinux.resetEscalation` — the reset type of a boot follows from how the session before it
  ended.

## Design

A `memset` stores byte by byte in ascending order; the stores to `NextResetType` and
`ValidityFlag` are single stores of a word. Which byte of a word comes first in memory is a
parameter. The phase between two sessions records how the last one ended.
-/

namespace CfePsp.PcLinux

open Transition

/-! ## Constants -/

/-- `CFE_PSP_RST_TYPE_PROCESSOR`. -/
def rstTypeProcessor : Uint32 := 1
/-- `CFE_PSP_RST_TYPE_POWERON`. -/
def rstTypePoweron : Uint32 := 2
/-- `CFE_PSP_BOOTRECORD_VALID`. -/
def bootRecordValid : Uint32 := 0x2aebe984
/-- `CFE_PSP_BOOTRECORD_INVALID`. -/
def bootRecordInvalid : Uint32 := ~~~bootRecordValid

/-! ## The reserved memory -/

/-- The sizes of the blocks, and which end of a word comes first. -/
structure Layout where
  cdsSize : ℕ
  resetAreaSize : ℕ
  userReservedSize : ℕ
  /-- `sizeof(CFE_PSP_ExceptionStorage_t)`. -/
  exceptionSize : ℕ
  bigEndian : Bool

/-- The blocks of reserved memory that the application stores to directly. -/
inductive Area
  | reset
  | userReserved
  | exception
  deriving DecidableEq

/-- The contents of the shared memory segments. -/
structure Segments where
  /-- `BootPtr->ValidityFlag`. -/
  validityFlag : Uint32
  /-- `BootPtr->NextResetType`. -/
  nextResetType : Uint32
  cds : ℕ → UInt8
  area : Area → ℕ → UInt8

/-- Fresh segments are zeroed. -/
instance : Zero Segments := ⟨⟨0, 0, fun _ => 0, fun _ _ => 0⟩⟩

/-- One store of the initialisation. -/
inductive Store
  /-- Clear a byte of the CDS. -/
  | clearCds (i : ℕ)
  /-- Clear a byte of another block. -/
  | clearArea (a : Area) (i : ℕ)
  /-- Clear a byte of `ValidityFlag`. -/
  | clearFlag (i : Fin 4)
  /-- Clear a byte of `NextResetType`. -/
  | clearType (i : Fin 4)
  /-- Set `NextResetType`. -/
  | setType (t : Uint32)
  /-- Set `ValidityFlag`. -/
  | setFlag (v : Uint32)
  deriving DecidableEq

/-- Store a byte in a block. -/
def Segments.setArea (m : Segments) (a : Area) (i : ℕ) (v : UInt8) : Segments :=
  { m with area := Function.update m.area a (Function.update (m.area a) i v) }

/-- Clear the byte `i` of a word. -/
def clearByte (i : Fin 4) (x : Uint32) : Uint32 := x &&& ~~~((0xFF : Uint32) <<< (8 * i.val))

/-- The segments after a store. -/
def Store.apply (m : Segments) : Store → Segments
  | .clearCds i => { m with cds := Function.update m.cds i 0 }
  | .clearArea a i => m.setArea a i 0
  | .clearFlag i => { m with validityFlag := clearByte i m.validityFlag }
  | .clearType i => { m with nextResetType := clearByte i m.nextResetType }
  | .setType t => { m with nextResetType := t }
  | .setFlag v => { m with validityFlag := v }

/-- The store is one to the boot record. -/
def Store.ToBootRecord : Store → Prop
  | .clearFlag _ | .clearType _ | .setType _ | .setFlag _ => True
  | .clearCds _ | .clearArea _ _ => False

/-- The bytes of a word in the order of their addresses. -/
def Layout.byteOrder (l : Layout) : List (Fin 4) :=
  if l.bigEndian then [3, 2, 1, 0] else [0, 1, 2, 3]

/-- The stores of a `memset` to zero of a block of `size` bytes. -/
def clearStores (clear : ℕ → Store) (size : ℕ) : List Store :=
  (List.range size).map clear

/-- The stores of `CFE_PSP_InitProcessorReservedMemory`. -/
def initStores (l : Layout) (restartType : Uint32) : List Store :=
  (if restartType = rstTypePoweron then
    clearStores .clearCds l.cdsSize ++
      clearStores (.clearArea .reset) l.resetAreaSize ++
      clearStores (.clearArea .userReserved) l.userReservedSize ++
      (l.byteOrder.map .clearFlag ++ l.byteOrder.map .clearType) ++
      clearStores (.clearArea .exception) l.exceptionSize ++
      [.setType rstTypeProcessor]
  else [.setType rstTypePoweron]) ++ [.setFlag bootRecordInvalid]

/-- The reset types that the command line option `-R` can ask for. -/
inductive ResetOption
  /-- `PO`. -/
  | powerOn
  /-- `PR`. -/
  | processor
  deriving DecidableEq

/-- The choice of the reset type in `OS_Application_Startup`, by the option if there is one and by
the boot record otherwise. -/
def startupResetType (option : Option ResetOption) (m : Segments) : Uint32 :=
  let resetType :=
    match option with
    | none =>
        if m.validityFlag = bootRecordValid ∨ m.validityFlag = bootRecordInvalid then
          m.nextResetType
        else 0
    | some .processor => rstTypeProcessor
    | some .powerOn => 0
  if resetType = rstTypeProcessor then rstTypeProcessor else rstTypePoweron

/-- `CFE_PSP_Restart`: what the next boot finds. For a power-on reset the segments are removed, and
the next boot creates new ones. -/
def restart (resetType : Uint32) (m : Segments) : Segments :=
  let recorded := { m with nextResetType := resetType, validityFlag := bootRecordValid }
  if resetType = rstTypePoweron then 0 else recorded

/-! ## The boot cycle -/

/-- How a session ended. -/
inductive Ending
  /-- There was none, the segments are new. -/
  | fresh
  /-- With `CFE_PSP_Restart`. -/
  | restarted (resetType : Uint32)
  /-- With a crash of a boot of type `resetType`, whose initialisation had made the stores `done`
  and had `rest` still to make. -/
  | crashed (resetType : Uint32) (done rest : List Store)

/-- The phases of the cycle. -/
inductive Phase
  /-- No process is running. -/
  | off (last : Ending)
  /-- A boot of type `resetType` is in `CFE_PSP_InitProcessorReservedMemory`. -/
  | initialising (resetType : Uint32) (done rest : List Store)
  /-- A boot of type `resetType` has entered the cFE. -/
  | running (resetType : Uint32)

/-- The segments and the phase. -/
structure Sys where
  mem : Segments
  phase : Phase

/-- The steps of the boot cycle. -/
inductive Event
  /-- A boot, with its command line option, chooses a reset type. -/
  | boot (option : Option ResetOption) (resetType : Uint32)
  /-- The initialisation makes its next store. -/
  | store
  /-- The initialisation is complete and the cFE is entered. -/
  | enter
  /-- The application stores to a block. -/
  | storeArea (a : Area) (i : ℕ) (v : UInt8)
  /-- `CFE_PSP_WriteToCDS` and its return code. -/
  | writeToCDS (ptrToDataToWrite : Option (ℕ → UInt8)) (cdsOffset numBytes : Uint32) (ret : ℤ)
  /-- `CFE_PSP_ReadFromCDS` and its return code. -/
  | readFromCDS (ptrToDataToRead : Option (ℕ → UInt8)) (cdsOffset numBytes : Uint32) (ret : ℤ)
  /-- `CFE_PSP_Restart`. -/
  | restart (resetType : Uint32)
  /-- The process terminates abnormally. -/
  | crash

/-- One step of the boot cycle. -/
def step (l : Layout) (s : Sys) : Event → Option Sys
  | .boot option resetType =>
      match s.phase with
      | .off _ =>
          if startupResetType option s.mem = resetType then
            some ⟨s.mem, .initialising resetType [] (initStores l resetType)⟩
          else none
      | _ => none
  | .store =>
      match s.phase with
      | .initialising resetType done (st :: rest) =>
          some ⟨st.apply s.mem, .initialising resetType (done ++ [st]) rest⟩
      | _ => none
  | .enter =>
      match s.phase with
      | .initialising resetType _ [] => some ⟨s.mem, .running resetType⟩
      | _ => none
  | .storeArea a i v =>
      match s.phase with
      | .running resetType =>
          some ⟨s.mem.setArea a i v, .running resetType⟩
      | _ => none
  | .writeToCDS ptr off n ret =>
      match s.phase with
      | .running resetType =>
          let result := Memory.writeToCDS .pcLinux l.cdsSize s.mem.cds ptr off n
          if result.1 = ret then some ⟨{ s.mem with cds := result.2 }, .running resetType⟩
          else none
      | _ => none
  | .readFromCDS ptr off n ret =>
      match s.phase with
      | .running _ =>
          if (Memory.readFromCDS .pcLinux l.cdsSize s.mem.cds ptr off n).1 = ret then
            some s
          else none
      | _ => none
  | .restart resetType =>
      match s.phase with
      | .running _ => some ⟨restart resetType s.mem, .off (.restarted resetType)⟩
      | _ => none
  | .crash =>
      match s.phase with
      | .initialising resetType done rest => some ⟨s.mem, .off (.crashed resetType done rest)⟩
      | .running resetType =>
          some ⟨s.mem, .off (.crashed resetType (initStores l resetType) [])⟩
      | .off _ => none

/-- The steps as a relation, a rule for each thing that can happen. -/
inductive Step (l : Layout) : Sys → Event → Sys → Prop
  | boot {m last option t} (choice : startupResetType option m = t) :
      Step l ⟨m, .off last⟩ (.boot option t) ⟨m, .initialising t [] (initStores l t)⟩
  | store {m t done st rest} :
      Step l ⟨m, .initialising t done (st :: rest)⟩ .store
        ⟨st.apply m, .initialising t (done ++ [st]) rest⟩
  | enter {m t done} : Step l ⟨m, .initialising t done []⟩ .enter ⟨m, .running t⟩
  | storeArea {m t a i v} :
      Step l ⟨m, .running t⟩ (.storeArea a i v) ⟨m.setArea a i v, .running t⟩
  | writeToCDS {m t ptr off n ret}
      (hret : (Memory.writeToCDS .pcLinux l.cdsSize m.cds ptr off n).1 = ret) :
      Step l ⟨m, .running t⟩ (.writeToCDS ptr off n ret)
        ⟨{ m with cds := (Memory.writeToCDS .pcLinux l.cdsSize m.cds ptr off n).2 }, .running t⟩
  | readFromCDS {m t ptr off n ret}
      (hret : (Memory.readFromCDS .pcLinux l.cdsSize m.cds ptr off n).1 = ret) :
      Step l ⟨m, .running t⟩ (.readFromCDS ptr off n ret) ⟨m, .running t⟩
  | restart {m t next} :
      Step l ⟨m, .running t⟩ (.restart next) ⟨restart next m, .off (.restarted next)⟩
  | crashInit {m t done rest} :
      Step l ⟨m, .initialising t done rest⟩ .crash ⟨m, .off (.crashed t done rest)⟩
  | crashRunning {m t} :
      Step l ⟨m, .running t⟩ .crash ⟨m, .off (.crashed t (initStores l t) [])⟩

/-- The rules are the steps. -/
lemma step_iff {l : Layout} {s u : Sys} {e : Event} : step l s e = some u ↔ Step l s e u := by
  obtain ⟨m, phase⟩ := s
  constructor
  · intro h
    cases e with
    | boot option t =>
      cases phase <;> simp only [step, reduceCtorEq] at h
      split_ifs at h with hchoice
      obtain rfl := Option.some.inj h
      exact .boot hchoice
    | store =>
      rcases phase with last | ⟨t, done, _ | ⟨st, rest⟩⟩ | t <;> simp only [step, reduceCtorEq] at h
      obtain rfl := Option.some.inj h
      exact .store
    | enter =>
      rcases phase with last | ⟨t, done, _ | ⟨st, rest⟩⟩ | t <;> simp only [step, reduceCtorEq] at h
      obtain rfl := Option.some.inj h
      exact .enter
    | storeArea a i v =>
      cases phase <;> simp only [step, reduceCtorEq] at h
      obtain rfl := Option.some.inj h
      exact .storeArea
    | writeToCDS ptr off n ret =>
      cases phase <;> simp only [step, reduceCtorEq] at h
      split_ifs at h with hret
      obtain rfl := Option.some.inj h
      exact .writeToCDS hret
    | readFromCDS ptr off n ret =>
      cases phase <;> simp only [step, reduceCtorEq] at h
      split_ifs at h with hret
      obtain rfl := Option.some.inj h
      exact .readFromCDS hret
    | restart next =>
      cases phase <;> simp only [step, reduceCtorEq] at h
      obtain rfl := Option.some.inj h
      exact .restart
    | crash =>
      cases phase <;> simp only [step, reduceCtorEq] at h
      · obtain rfl := Option.some.inj h
        exact .crashInit
      · obtain rfl := Option.some.inj h
        exact .crashRunning
  · rintro (hchoice | _ | _ | _ | hret | hret | _ | _ | _)
    case boot | writeToCDS | readFromCDS => exact if_pos ‹_›
    all_goals rfl

/-- The event is not a boot with a command line option. -/
def Event.NoOption : Event → Prop
  | .boot option _ => option = none
  | _ => True

/-- What the end of a session makes of the next boot: the reset type that it chooses. -/
def Ending.nextResetType : Ending → Uint32
  | .fresh => rstTypePoweron
  | .restarted t => if t = rstTypeProcessor then rstTypeProcessor else rstTypePoweron
  | .crashed t done rest =>
      if t = rstTypeProcessor then
        if done = [] then rstTypeProcessor else rstTypePoweron
      else if rest = [] then rstTypeProcessor else rstTypePoweron

/-! ## The choice of the reset type -/

section Choice

variable {m : Segments}

/-- There are two reset types to choose from. -/
lemma startupResetType_cases (option : Option ResetOption) (m : Segments) :
    startupResetType option m = rstTypeProcessor ∨ startupResetType option m = rstTypePoweron := by
  simp only [startupResetType]
  split_ifs <;> simp

/-- A boot record that is not marked makes for a power-on reset. -/
lemma startup_of_flag (hvalid : m.validityFlag ≠ bootRecordValid)
    (hinvalid : m.validityFlag ≠ bootRecordInvalid) :
    startupResetType none m = rstTypePoweron := by
  have hflag : ¬(m.validityFlag = bootRecordValid ∨ m.validityFlag = bootRecordInvalid) :=
    not_or.2 ⟨hvalid, hinvalid⟩
  simp only [startupResetType, if_neg hflag]
  decide

/-- A boot record that does not ask for a processor reset makes for a power-on reset. -/
lemma startup_of_type (htype : m.nextResetType ≠ rstTypeProcessor) :
    startupResetType none m = rstTypePoweron := by
  simp only [startupResetType]
  refine if_neg ?_
  split_ifs
  · exact htype
  · decide

/-- A marked boot record that asks for a processor reset makes for one. -/
lemma startup_processor
    (hflag : m.validityFlag = bootRecordValid ∨ m.validityFlag = bootRecordInvalid)
    (htype : m.nextResetType = rstTypeProcessor) :
    startupResetType none m = rstTypeProcessor := by
  simp only [startupResetType, if_pos hflag, if_pos htype]

/-- The choice depends on the boot record only. -/
lemma startup_congr {m' : Segments} (hflag : m.validityFlag = m'.validityFlag)
    (htype : m.nextResetType = m'.nextResetType) (option : Option ResetOption) :
    startupResetType option m = startupResetType option m' := by
  simp only [startupResetType, hflag, htype]

end Choice

/-! ## Words with a byte cleared -/

/-- The byte `i` of the word is zero. -/
def ZeroByte (i : Fin 4) (x : Uint32) : Prop := x &&& (0xFF : Uint32) <<< (8 * i.val) = 0

instance (i : Fin 4) (x : Uint32) : Decidable (ZeroByte i x) := inferInstanceAs (Decidable (_ = _))

lemma zeroByte_clearByte (i : Fin 4) (x : Uint32) : ZeroByte i (clearByte i x) := by
  rw [ZeroByte, clearByte, BitVec.and_assoc, BitVec.not_and_self]
  exact BitVec.and_zero

/-- Clearing a byte keeps the bytes that are zero. -/
lemma ZeroByte.clearByte {i : Fin 4} {x : Uint32} (h : ZeroByte i x) (j : Fin 4) :
    ZeroByte i (clearByte j x) := by
  rw [ZeroByte] at h
  rw [ZeroByte, PcLinux.clearByte, BitVec.and_assoc, BitVec.and_comm (~~~_), ← BitVec.and_assoc, h]
  exact BitVec.zero_and

/-- No byte of the two marks is zero. -/
lemma not_zeroByte_mark : ∀ i, ¬ZeroByte i bootRecordValid ∧ ¬ZeroByte i bootRecordInvalid := by
  decide

/-- A validity flag with a byte cleared makes for a power-on reset. -/
lemma startup_of_zeroByte {m : Segments} {i : Fin 4} (h : ZeroByte i m.validityFlag) :
    startupResetType none m = rstTypePoweron := by
  refine startup_of_flag (fun heq => ?_) fun heq => ?_
  · exact (not_zeroByte_mark i).1 (heq ▸ h)
  · exact (not_zeroByte_mark i).2 (heq ▸ h)

/-! ## The initialisation, cut anywhere -/

section Init

variable {l : Layout} {m : Segments} {done rest : List Store}

/-- The store does not mark the boot record, and does not set the reset type. -/
def Store.Clears : Store → Prop
  | .setType _ | .setFlag _ => False
  | _ => True

/-- A store to another place leaves the boot record alone. -/
lemma Store.apply_of_not_toBootRecord {st : Store} (h : ¬st.ToBootRecord) (m : Segments) :
    (st.apply m).validityFlag = m.validityFlag ∧ (st.apply m).nextResetType = m.nextResetType := by
  cases st with
  | clearCds i | clearArea a i => exact ⟨rfl, rfl⟩
  | clearFlag i | clearType i | setType t | setFlag v => exact absurd trivial h

lemma mem_clearStores {clear : ℕ → Store} {size : ℕ} {st : Store} :
    st ∈ clearStores clear size ↔ ∃ i < size, clear i = st := by
  simp [clearStores]

/-- A processor reset has two stores. -/
lemma initStores_processor :
    initStores l rstTypeProcessor = [.setType rstTypePoweron, .setFlag bootRecordInvalid] := rfl

/-- A power-on reset clears the blocks, then takes the mark away, clears the rest, and only then
sets the reset type and marks the boot record again. -/
lemma initStores_poweron (l : Layout) : ∃ b before between,
    initStores l rstTypePoweron =
      before ++ .clearFlag b :: (between ++ [.setType rstTypeProcessor]) ++
        [.setFlag bootRecordInvalid] ∧
    (∀ st ∈ before, ¬st.ToBootRecord) ∧ ∀ st ∈ between, st.Clears := by
  obtain ⟨b, bs, hbytes⟩ : ∃ b bs, l.byteOrder = b :: bs := by
    cases hend : l.bigEndian with
    | false => exact ⟨0, [1, 2, 3], by simp [Layout.byteOrder, hend]⟩
    | true => exact ⟨3, [2, 1, 0], by simp [Layout.byteOrder, hend]⟩
  refine ⟨b, clearStores .clearCds l.cdsSize ++ clearStores (.clearArea .reset) l.resetAreaSize ++
      clearStores (.clearArea .userReserved) l.userReservedSize,
    bs.map .clearFlag ++ l.byteOrder.map .clearType ++
      clearStores (.clearArea .exception) l.exceptionSize, ?_, ?_, ?_⟩
  · simp only [initStores, if_pos, hbytes, List.map_cons, List.append_assoc, List.cons_append]
  · intro st hst
    simp only [List.mem_append, mem_clearStores] at hst
    rcases hst with (⟨i, -, rfl⟩ | ⟨i, -, rfl⟩) | ⟨i, -, rfl⟩
    all_goals exact id
  · intro st hst
    simp only [List.mem_append, List.mem_map, mem_clearStores] at hst
    rcases hst with (⟨i, -, rfl⟩ | ⟨i, -, rfl⟩) | ⟨i, -, rfl⟩
    all_goals trivial

/-- The boot record after a complete initialisation. -/
lemma foldl_initStores (l : Layout) (t : Uint32) (m : Segments) :
    ((initStores l t).foldl Store.apply m).validityFlag = bootRecordInvalid ∧
      ((initStores l t).foldl Store.apply m).nextResetType =
        if t = rstTypePoweron then rstTypeProcessor else rstTypePoweron := by
  rw [initStores, List.foldl_append]
  refine ⟨rfl, ?_⟩
  split_ifs with ht
  · rw [List.foldl_append]
    rfl
  · rfl

/-- **A power-on reset that is cut short** leaves a boot record that asks for another, and one that
asks for a processor reset only when it is complete. -/
lemma startup_of_cut_poweron (hm : startupResetType none m = rstTypePoweron)
    (hcut : done ++ rest = initStores l rstTypePoweron) :
    startupResetType none (done.foldl Store.apply m) =
      if rest = [] then rstTypeProcessor else rstTypePoweron := by
  split_ifs with hrest
  · subst hrest
    rw [List.append_nil] at hcut
    subst hcut
    obtain ⟨hflag, htype⟩ := foldl_initStores l rstTypePoweron m
    exact startup_processor (.inr hflag) htype
  · obtain ⟨b, before, between, hstores, hbefore, hbetween⟩ := initStores_poweron l
    -- the last store is still to come
    have hcut' : done ++ rest.dropLast =
        before ++ .clearFlag b :: (between ++ [.setType rstTypeProcessor]) := by
      have hdrop := congrArg List.dropLast (hcut.trans hstores)
      rwa [List.dropLast_append_of_ne_nil hrest, List.dropLast_concat] at hdrop
    have hturn := Crash.turningPoint Store.apply (s := m)
      (P := fun m' => m'.validityFlag = m.validityFlag ∧ m'.nextResetType = m.nextResetType)
      (Q := fun m' => ZeroByte b m'.validityFlag) ⟨rfl, rfl⟩ ?_ ?_ ?_ hcut'
    · rcases hturn with ⟨-, hflag, htype⟩ | ⟨-, hzero⟩
      · rw [startup_congr hflag htype, hm]
      · exact startup_of_zeroByte hzero
    · rintro st hst m' ⟨hflag, htype⟩
      have hsame := Store.apply_of_not_toBootRecord (hbefore st hst) m'
      exact ⟨hsame.1.trans hflag, hsame.2.trans htype⟩
    · intro m' _
      exact zeroByte_clearByte b _
    · intro st hst m' hzero
      rcases List.mem_append.1 hst with hmem | hmem
      · have hclears := hbetween st hmem
        cases st with
        | clearFlag i => exact hzero.clearByte i
        | clearCds i | clearArea a i | clearType i => exact hzero
        | setType t | setFlag v => exact absurd hclears id
      · obtain rfl := List.mem_singleton.1 hmem
        exact hzero

/-- **A processor reset that is cut short** leaves a boot record that asks for a power-on reset as
soon as it has made a store. -/
lemma startup_of_cut_processor (hm : startupResetType none m = rstTypeProcessor)
    (hcut : done ++ rest = initStores l rstTypeProcessor) :
    startupResetType none (done.foldl Store.apply m) =
      if done = [] then rstTypeProcessor else rstTypePoweron := by
  rw [initStores_processor] at hcut
  cases done with
  | nil => exact hm
  | cons st done =>
    obtain ⟨rfl, hlast⟩ := List.cons.inj hcut
    rw [if_neg (List.cons_ne_nil _ _), List.foldl_cons]
    have htype := Crash.foldl_keeps Store.apply
      (P := fun m' => m'.nextResetType = rstTypePoweron) (fun st hst m' hm' => ?_) hlast
      (s := Store.apply m (.setType rstTypePoweron)) rfl
    · exact startup_of_type (by rw [htype]; decide)
    · obtain rfl := List.mem_singleton.1 hst
      exact hm'

end Init

/-! ## The boot record and the phase -/

/-- **The phase invariant**: while no process runs, the boot record asks for what the last session
is to be followed by; during initialisation the segments are those found at the boot, which chose
the reset type, after the stores made so far; a running session has its record marked. -/
def PhaseInv (l : Layout) (s : Sys) : Prop :=
  match s.phase with
  | .off last => startupResetType none s.mem = last.nextResetType
  | .initialising t done rest => done ++ rest = initStores l t ∧
      ∃ m, startupResetType none m = t ∧ s.mem = done.foldl Store.apply m
  | .running t => (t = rstTypeProcessor ∨ t = rstTypePoweron) ∧
      s.mem.validityFlag = bootRecordInvalid ∧
      s.mem.nextResetType = if t = rstTypePoweron then rstTypeProcessor else rstTypePoweron

section Phases

variable {l : Layout} {s u : Sys} {e : Event}

/-- The choice after a crash during initialisation. -/
lemma startup_of_cut {t : Uint32} {m : Segments} {done rest : List Store}
    (hm : startupResetType none m = t) (hcut : done ++ rest = initStores l t) :
    startupResetType none (done.foldl Store.apply m) =
      (Ending.crashed t done rest).nextResetType := by
  rw [Ending.nextResetType]
  rcases startupResetType_cases none m with hproc | hpower
  · obtain rfl : rstTypeProcessor = t := hproc.symm.trans hm
    rw [if_pos rfl]
    exact startup_of_cut_processor hproc hcut
  · obtain rfl : rstTypePoweron = t := hpower.symm.trans hm
    rw [if_neg (by decide)]
    exact startup_of_cut_poweron hpower hcut

/-- The choice after a crash of a running session. -/
lemma startup_of_running {t : Uint32} {m : Segments}
    (ht : t = rstTypeProcessor ∨ t = rstTypePoweron) (hflag : m.validityFlag = bootRecordInvalid)
    (htype : m.nextResetType = if t = rstTypePoweron then rstTypeProcessor else rstTypePoweron) :
    startupResetType none m = (Ending.crashed t (initStores l t) []).nextResetType := by
  rw [Ending.nextResetType]
  rcases ht with rfl | rfl
  · rw [if_neg (by decide)] at htype
    rw [if_pos rfl, initStores_processor, if_neg (List.cons_ne_nil _ _)]
    exact startup_of_type (by rw [htype]; decide)
  · rw [if_pos rfl] at htype
    rw [if_neg (by decide), if_pos rfl]
    exact startup_processor (.inr hflag) htype

/-- The choice after `CFE_PSP_Restart`. -/
lemma startup_of_restart (t : Uint32) (m : Segments) :
    startupResetType none (restart t m) = (Ending.restarted t).nextResetType := by
  rw [Ending.nextResetType, restart]
  by_cases hpower : t = rstTypePoweron
  · subst hpower
    rfl
  · rw [if_neg hpower]
    split_ifs with hproc
    · exact startup_processor (.inl rfl) hproc
    · exact startup_of_type hproc

/-- **Every step keeps the phase invariant**, as long as no boot is given a reset type. -/
lemma PhaseInv.step (h : PhaseInv l s) (he : e.NoOption) (hs : step l s e = some u) :
    PhaseInv l u := by
  cases step_iff.1 hs with
  | boot hchoice =>
    obtain rfl : _ = none := he
    exact ⟨rfl, _, hchoice, rfl⟩
  | store =>
    obtain ⟨hcut, m, hm, hmem⟩ := h
    refine ⟨by simpa using hcut, m, hm, ?_⟩
    rw [List.foldl_append, ← hmem]
    rfl
  | enter =>
    obtain ⟨hcut, m, hm, hmem⟩ := h
    rw [List.append_nil] at hcut
    subst hcut
    refine ⟨hm ▸ startupResetType_cases none m, ?_⟩
    rw [hmem]
    exact foldl_initStores l _ m
  | storeArea | writeToCDS | readFromCDS => exact h
  | restart => exact startup_of_restart _ _
  | crashInit =>
    obtain ⟨hcut, m, hm, hmem⟩ := h
    show startupResetType none _ = _
    rw [hmem]
    exact startup_of_cut hm hcut
  | crashRunning =>
    obtain ⟨ht, hflag, htype⟩ := h
    exact startup_of_running ht hflag htype

/-- **The boot record agrees with the phase** in every run of boots without a command line
option. -/
theorem phaseInv_of_run {tr : List Event} (hboots : ∀ e ∈ tr, e.NoOption)
    (h : run (step l) ⟨0, .off .fresh⟩ tr = some s) : PhaseInv l s := by
  refine run_invariant (P := fun tr s => (∀ e ∈ tr, e.NoOption) → PhaseInv l s) ?_ ?_ h hboots
  · intro _
    show startupResetType none (0 : Segments) = Ending.fresh.nextResetType
    decide
  intro tr s e u hinv hs hall
  refine (hinv fun e he => hall e (List.mem_append_left _ he)).step (hall e ?_) hs
  exact List.mem_append_right _ (List.mem_singleton_self e)

/-- **Reset escalation.** In every run from fresh segments of boots without a command line option,
cut short anywhere, the next boot

* is a power-on reset after the crash of a processor reset whose initialisation had made a store to
  the boot record;
* is, after the crash of a power-on reset, a processor reset if its initialisation was complete and
  a power-on reset if not;
* is a processor reset after `CFE_PSP_Restart(t)` if `t` is `CFE_PSP_RST_TYPE_PROCESSOR`, and a
  power-on reset for any other `t`.

**Proof sketch.** The phase invariant: a power-on reset takes the mark of the boot record away
before it changes the reset type and sets it last; a processor reset changes the type first. -/
theorem resetEscalation {tr : List Event} (hboots : ∀ e ∈ tr, e.NoOption)
    (h : run (step l) ⟨0, .off .fresh⟩ tr = some s) {last : Ending} (hoff : s.phase = .off last)
    {next : Uint32} (hnext : step l s (.boot none next) = some u) :
    (∀ done rest, last = .crashed rstTypeProcessor done rest → (∃ st ∈ done, st.ToBootRecord) →
      next = rstTypePoweron) ∧
    (∀ done rest, last = .crashed rstTypePoweron done rest →
      next = if rest = [] then rstTypeProcessor else rstTypePoweron) ∧
    ∀ t, last = .restarted t →
      next = if t = rstTypeProcessor then rstTypeProcessor else rstTypePoweron := by
  have hinv := phaseInv_of_run hboots h
  simp only [PhaseInv, hoff] at hinv
  have hchoice : last.nextResetType = next := by
    rw [← hinv]
    simp only [PcLinux.step, hoff] at hnext
    split_ifs at hnext with heq
    exact heq
  refine ⟨?_, ?_, ?_⟩
  · rintro done rest rfl ⟨st, hst, -⟩
    rw [← hchoice, Ending.nextResetType, if_pos rfl, if_neg (List.ne_nil_of_mem hst)]
  · rintro done rest rfl
    rw [← hchoice, Ending.nextResetType, if_neg (by decide)]
  · rintro t rfl
    rw [← hchoice, Ending.nextResetType]

/-- A power-on reset, a requested processor reset, and a crash of that after its first store. -/
def escalation : List Event :=
  .boot none rstTypePoweron :: List.replicate 11 .store ++
    [.enter, .restart rstTypeProcessor, .boot none rstTypeProcessor, .store, .crash]

/-- The boot after that is a power-on reset. -/
theorem resetEscalation_of_crash :
    ∃ s u next, run (step ⟨1, 0, 0, 0, false⟩) ⟨0, .off .fresh⟩ escalation = some s ∧
      step ⟨1, 0, 0, 0, false⟩ s (.boot none next) = some u ∧ next = rstTypePoweron := by
  have hboots : ∀ e ∈ escalation, e.NoOption := by
    simp [escalation, Event.NoOption]
  refine ⟨_, _, rstTypePoweron, rfl, rfl, ?_⟩
  exact (resetEscalation (l := ⟨1, 0, 0, 0, false⟩) hboots rfl rfl rfl).1
    [.setType rstTypePoweron] [.setFlag bootRecordInvalid] rfl
    ⟨_, List.mem_singleton_self _, trivial⟩

end Phases

end CfePsp.PcLinux
