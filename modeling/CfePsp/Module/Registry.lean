import Mathlib.Data.List.Nodup
import CfePsp.Basic
import CfePsp.Lib.Fields

set_option relaxedAutoImplicit false
set_option autoImplicit false

/-!
# The module registry of `cfe_psp_module.c`

Two lists of modules, one that comes with the PSP and one that is configured, share one space of
ids: the configured modules are numbered from its beginning, the base modules in its last 256
places. `CFE_PSP_ModuleInit` hands the ids out, `CFE_PSP_Module_FindByName` computes them again and
`CFE_PSP_Module_GetAPIEntry` takes them apart.

## Main definitions

* `CfePsp.Module.moduleInit`, `CfePsp.Module.getAPIEntry`, `CfePsp.Module.findByName` — the
  functions, over the memory of the two lists.
* `CfePsp.Module.Registry.Holds` — what the two lists hold.
* `CfePsp.Module.assigned` — the modules with the ids that are assigned to them.
* `CfePsp.Module.Registry.select` — the entry that `CFE_PSP_Module_GetAPIEntry` selects, for lists
  of any kind.

## Main results

* `CfePsp.Module.registry_roundTrip` — the three functions agree on the ids.

## Design

A list is an array in memory, ended by an entry whose name is `NULL`; what lies behind that entry
is not known, and behind the end of the array nothing may be read. The functions return `none` when
they read there, or compare a name that is `NULL`.
-/

namespace CfePsp.Module

variable {φ : Type}

/-! ## The data -/

/-- `CFE_PSP_MODULE_TYPE_INVALID`. -/
def moduleTypeInvalid : Uint32 := 0

/-- `CFE_PSP_ModuleApi_t`, as far as the registry looks at it; `φ` is the type of the functions
that `Init` can point to. -/
structure ModuleApi (φ : Type) where
  moduleType : Uint32
  init : Option φ

/-- `CFE_StaticModuleLoadEntry_t`. -/
structure ModuleLoadEntry (φ : Type) where
  name : Option String
  api : ModuleApi φ

/-- What the registry is built with: the OSAL's first user type and the two lists. -/
structure Registry (φ : Type) where
  /-- `OS_OBJECT_TYPE_USER`. -/
  osObjectTypeUser : Uint32
  /-- `GLOBAL_CONFIGDATA.PspModuleList`, possibly `NULL`. -/
  pspModuleList : Option (List (ModuleLoadEntry φ))
  /-- `CFE_PSP_BASE_MODULE_LIST`. -/
  baseModuleList : List (ModuleLoadEntry φ)

/-- The lengths that `CFE_PSP_ModuleInit` stores. -/
structure Lengths where
  /-- `CFE_PSP_ConfigPspModuleListLength`. -/
  config : Uint32
  /-- `CFE_PSP_StandardPspModuleListLength`. -/
  standard : Uint32

/-- `CFE_PSP_MODULE_INDEX_MASK`. -/
abbrev moduleIndexMask : Uint32 := osObjectIndexMask

/-- `CFE_PSP_MODULE_BASE`. -/
def Registry.moduleBase (r : Registry φ) : Uint32 :=
  (r.osObjectTypeUser + 0x100) <<< osObjectTypeShift

/-- `CFE_PSP_INTERNAL_MODULE_BASE`. -/
def Registry.internalModuleBase (r : Registry φ) : Uint32 :=
  (r.moduleBase ||| moduleIndexMask) &&& ~~~0xFF

/-! ## The functions -/

/-- The call of `Init` that an entry with the id `moduleId` gives rise to, if any. -/
def initCall (api : ModuleApi φ) (moduleId : Uint32) : Option (φ × Uint32) :=
  if api.moduleType ≠ moduleTypeInvalid then api.init.map fun f => (f, moduleId) else none

/-- The loop of `CFE_PSP_ModuleInitList` from an entry on: the final count and the calls made. -/
def initLoop (baseId : Uint32) :
    List (ModuleLoadEntry φ) → Uint32 → Option (Uint32 × List (φ × Uint32))
  | [], _ => none
  | e :: rest, moduleCount =>
      match e.name with
      | none => some (moduleCount, [])
      | some _ => (initLoop baseId rest (moduleCount + 1)).map fun x =>
          (x.1, (initCall e.api (baseId + moduleCount)).toList ++ x.2)

/-- `CFE_PSP_ModuleInitList`. -/
def moduleInitList (baseId : Uint32) (listPtr : Option (List (ModuleLoadEntry φ))) :
    Option (Uint32 × List (φ × Uint32)) :=
  match listPtr with
  | none => some (0, [])
  | some entries => initLoop baseId entries 0

/-- `CFE_PSP_ModuleInit`: the lengths stored and the calls of `Init` functions made. -/
def moduleInit (r : Registry φ) : Option (Lengths × List (φ × Uint32)) :=
  (moduleInitList r.internalModuleBase (some r.baseModuleList)).bind fun standard =>
    (moduleInitList r.moduleBase r.pspModuleList).map fun config =>
      (⟨config.1, standard.1⟩, standard.2 ++ config.2)

/-- `CFE_PSP_Module_GetAPIEntry`: return code and what is stored through `API`. -/
def getAPIEntry (r : Registry φ) (len : Lengths) (pspModuleId : Uint32) :
    Option (ℤ × Option (ModuleApi φ)) :=
  if pspModuleId &&& ~~~moduleIndexMask = r.moduleBase then
    if 0xFF00 ≤ pspModuleId &&& moduleIndexMask then
      let localId := pspModuleId &&& 0xFF
      if localId < len.standard then
        r.baseModuleList[localId.toNat]?.map fun e => (Status.success, some e.api)
      else some (Status.invalidModuleId, none)
    else
      let localId := pspModuleId &&& moduleIndexMask
      if localId < len.config then
        (r.pspModuleList.bind fun entries => entries[localId.toNat]?).map fun e =>
          (Status.success, some e.api)
      else some (Status.invalidModuleId, none)
  else some (Status.invalidModuleId, none)

/-- A loop of `CFE_PSP_Module_FindByName` from an entry on, `n` entries before the end: the index
at which it breaks off, if it does. -/
def findLoop (moduleName : String) :
    ℕ → Uint32 → List (ModuleLoadEntry φ) → Option (Option Uint32)
  | 0, _, _ => some none
  | _ + 1, _, [] => none
  | n + 1, i, e :: rest =>
      match e.name with
      | none => none
      | some name =>
          if name = moduleName then some (some i) else findLoop moduleName n (i + 1) rest

/-- `CFE_PSP_Module_FindByName`: return code and what is stored through `PspModuleId`. -/
def findByName (r : Registry φ) (len : Lengths) (moduleName : String) :
    Option (ℤ × Option Uint32) :=
  (findLoop moduleName len.config.toNat 0 (r.pspModuleList.getD [])).bind fun
    | some i => some (Status.success, some (r.moduleBase ||| (i &&& moduleIndexMask)))
    | none =>
        (findLoop moduleName len.standard.toNat 0 r.baseModuleList).map fun
          | some i => (Status.success, some (r.internalModuleBase ||| (i &&& moduleIndexMask)))
          | none => (Status.invalidModuleName, none)

/-! ## What the lists hold -/

/-- A named module. -/
structure NamedApi (φ : Type) where
  name : String
  api : ModuleApi φ

/-- A module and the id assigned to it. -/
structure Assigned (φ : Type) extends NamedApi φ where
  id : Uint32

/-- The entry of a named module. -/
def NamedApi.entry (m : NamedApi φ) : ModuleLoadEntry φ := ⟨some m.name, m.api⟩

/-- The array holds the modules `mods`, ended by an entry without a name. -/
def Terminated (entries : List (ModuleLoadEntry φ)) (mods : List (NamedApi φ)) : Prop :=
  ∃ last rest, last.name = none ∧ entries = mods.map NamedApi.entry ++ last :: rest

/-- The registry holds the configured modules `config` and the base modules `base`, and there are
ids enough for both. -/
structure Registry.Holds (r : Registry φ) (config base : List (NamedApi φ)) : Prop where
  config_terminated : ∀ entries, r.pspModuleList = some entries → Terminated entries config
  config_null : r.pspModuleList = none → config = []
  base_terminated : Terminated r.baseModuleList base
  config_le : config.length ≤ 0xFF00
  base_le : base.length ≤ 256

/-- The modules of a list, numbered from the index `k` on. -/
def assignFrom (baseId : Uint32) (k : ℕ) (mods : List (NamedApi φ)) : List (Assigned φ) :=
  (mods.zipIdx k).map fun x => ⟨x.1, baseId + BitVec.ofNat 32 x.2⟩

/-- All modules with the ids assigned to them, the configured ones first. -/
def assigned (r : Registry φ) (config base : List (NamedApi φ)) : List (Assigned φ) :=
  assignFrom r.moduleBase 0 config ++ assignFrom r.internalModuleBase 0 base

/-! ## The arithmetic of the ids -/

/-- The id with index `x`. -/
def Registry.idOf (r : Registry φ) (x : ℕ) : Uint32 := r.moduleBase + BitVec.ofNat 32 x

section Ids

variable {r : Registry φ}

/-- The base of the ids has an index of zero. -/
lemma moduleBase_mod : r.moduleBase.toNat % 2 ^ 16 = 0 :=
  toNat_shiftLeft_typeShift _

/-- An index of sixteen bits, as a word. -/
lemma toNat_index {x : ℕ} (hx : x < 2 ^ 16) : (BitVec.ofNat 32 x).toNat = x := by
  rw [BitVec.toNat_ofNat, Nat.mod_eq_of_lt (by omega)]

lemma toNat_idOf {x : ℕ} (hx : x < 2 ^ 16) : (r.idOf x).toNat = r.moduleBase.toNat + x := by
  have hindex := toNat_index hx
  rw [Registry.idOf, Field.toNat_add moduleBase_mod (by rw [hindex]; exact hx), hindex]

/-- Different indices make different ids. -/
lemma idOf_inj {x y : ℕ} (hx : x < 2 ^ 16) (hy : y < 2 ^ 16) (h : r.idOf x = r.idOf y) :
    x = y := by
  have hnat := congrArg BitVec.toNat h
  rw [toNat_idOf hx, toNat_idOf hy] at hnat
  omega

/-- The base modules are numbered from the index `0xFF00` on. -/
lemma internalModuleBase_add (j : ℕ) :
    r.internalModuleBase + BitVec.ofNat 32 j = r.idOf (0xFF00 + j) := by
  have hbase := moduleBase_mod (r := r)
  have hor : (r.moduleBase ||| moduleIndexMask).toNat = r.moduleBase.toNat + 0xFFFF :=
    Field.toNat_or_mask (w := 32) (k := 16) (by omega) hbase
  have hmask : r.internalModuleBase.toNat =
      (r.moduleBase ||| moduleIndexMask).toNat -
        (r.moduleBase ||| moduleIndexMask).toNat % 2 ^ 8 :=
    Field.toNat_and_not_mask (w := 32) (k := 8) (by omega) _
  have hinternal : r.internalModuleBase = r.idOf 0xFF00 := by
    apply BitVec.eq_of_toNat_eq
    rw [hmask, hor, toNat_idOf (by omega)]
    omega
  rw [hinternal, Registry.idOf, Registry.idOf, BitVec.ofNat_add, BitVec.add_assoc]

/-- `FindByName` ors the index to the base; that is the id. -/
lemma or_index {base : Uint32} {k x : ℕ} (hbase : base.toNat % 2 ^ k = 0) (hk : k ≤ 16)
    (hx : x < 2 ^ k) : base ||| (BitVec.ofNat 32 x &&& moduleIndexMask) =
      base + BitVec.ofNat 32 x := by
  have hx16 : x < 2 ^ 16 := hx.trans_le (Nat.pow_le_pow_right (by omega) hk)
  have hkeep : BitVec.ofNat 32 x &&& moduleIndexMask = BitVec.ofNat 32 x := by
    apply BitVec.eq_of_toNat_eq
    rw [toNat_and_indexMask, toNat_index hx16, Nat.mod_eq_of_lt hx16]
  rw [hkeep, Field.or_eq_add hbase (by rw [toNat_index hx16]; exact hx)]

/-- The index of an id. -/
lemma idOf_and_mask {x : ℕ} (hx : x < 2 ^ 16) :
    r.idOf x &&& moduleIndexMask = BitVec.ofNat 32 x := by
  have hbase := moduleBase_mod (r := r)
  apply BitVec.eq_of_toNat_eq
  rw [toNat_and_indexMask, toNat_idOf hx, toNat_index hx]
  omega

/-- The low byte of the id of a base module. -/
lemma idOf_and_byte {j : ℕ} (hj : j < 256) : r.idOf (0xFF00 + j) &&& 0xFF = BitVec.ofNat 32 j := by
  have hbase := moduleBase_mod (r := r)
  apply BitVec.eq_of_toNat_eq
  have hand : (r.idOf (0xFF00 + j) &&& 0xFF).toNat = (r.idOf (0xFF00 + j)).toNat % 2 ^ 8 :=
    Window.toNat_and_mask (w := 32) (k := 8) (by omega) _
  rw [hand, toNat_idOf (by omega), toNat_index (by omega)]
  omega

/-- The check of the type of an id finds the ids with an index of sixteen bits. -/
lemma and_not_mask_eq_iff (id : Uint32) :
    id &&& ~~~moduleIndexMask = r.moduleBase ↔ ∃ x < 2 ^ 16, id = r.idOf x := by
  have hbase := moduleBase_mod (r := r)
  rw [← BitVec.toNat_inj, toNat_and_not_indexMask]
  constructor
  · intro h
    refine ⟨id.toNat % 2 ^ 16, by omega, ?_⟩
    apply BitVec.eq_of_toNat_eq
    rw [toNat_idOf (by omega)]
    omega
  · rintro ⟨x, hx, rfl⟩
    rw [toNat_idOf hx]
    omega

end Ids

/-! ## The lists and the loops -/

section Lists

variable {r : Registry φ} {mods : List (NamedApi φ)} {entries : List (ModuleLoadEntry φ)}

@[simp] lemma assignFrom_nil (baseId : Uint32) (k : ℕ) :
    assignFrom baseId k ([] : List (NamedApi φ)) = [] := rfl

@[simp] lemma assignFrom_cons (baseId : Uint32) (k : ℕ) (m : NamedApi φ)
    (mods : List (NamedApi φ)) :
    assignFrom baseId k (m :: mods) =
      ⟨m, baseId + BitVec.ofNat 32 k⟩ :: assignFrom baseId (k + 1) mods := rfl

/-- The ids assigned to a list. -/
lemma map_id_assignFrom (baseId : Uint32) (k : ℕ) :
    (assignFrom baseId k mods).map Assigned.id =
      (List.range' k mods.length).map fun i => baseId + BitVec.ofNat 32 i := by
  induction mods generalizing k with
  | nil => rfl
  | cons m mods ih => rw [assignFrom_cons, List.map_cons, ih, List.length_cons, List.range'_succ,
      List.map_cons]

/-- An array that holds `mods` begins with their entries. -/
lemma Terminated.isPrefix (h : Terminated entries mods) :
    mods.map NamedApi.entry <+: entries := by
  obtain ⟨last, rest, -, rfl⟩ := h
  exact List.prefix_append _ _

/-- The loop of `ModuleInitList` counts the modules and calls the `Init` functions that there
are, each with the id assigned to its module. -/
lemma initLoop_eq (baseId : Uint32) (h : Terminated entries mods) (k : ℕ) :
    initLoop baseId entries (BitVec.ofNat 32 k) =
      some (BitVec.ofNat 32 (k + mods.length),
        (assignFrom baseId k mods).filterMap fun a => initCall a.api a.id) := by
  obtain ⟨last, rest, hlast, rfl⟩ := h
  induction mods generalizing k with
  | nil => simp [initLoop, hlast]
  | cons m mods ih =>
    have hnext : BitVec.ofNat 32 k + 1 = BitVec.ofNat 32 (k + 1) := (BitVec.ofNat_add k 1).symm
    simp only [List.map_cons, List.cons_append, initLoop, NamedApi.entry, hnext, ih,
      Option.map_some, assignFrom_cons, List.filterMap_cons, List.length_cons]
    rw [show k + 1 + mods.length = k + (mods.length + 1) by omega]
    cases initCall m.api (baseId + BitVec.ofNat 32 k) <;> rfl

/-- A loop of `FindByName` over a list finds the first module of that name. -/
lemma findLoop_eq (moduleName : String) (h : Terminated entries mods) (k : ℕ) :
    findLoop moduleName mods.length (BitVec.ofNat 32 k) entries =
      some (((mods.zipIdx k).find? fun x => decide (x.1.name = moduleName)).map fun x =>
        BitVec.ofNat 32 x.2) := by
  obtain ⟨last, rest, -, rfl⟩ := h
  induction mods generalizing k with
  | nil => rfl
  | cons m mods ih =>
    have hnext : BitVec.ofNat 32 k + 1 = BitVec.ofNat 32 (k + 1) := (BitVec.ofNat_add k 1).symm
    simp only [List.map_cons, List.cons_append, List.length_cons, findLoop, NamedApi.entry,
      List.zipIdx_cons, List.find?_cons]
    by_cases hname : m.name = moduleName
    · simp [hname]
    · simp only [hname, if_false, decide_false, hnext, ih]

end Lists

/-! ## Lists of any kind

What becomes of an id does not depend on what the entries of the two lists hold. -/

section AnyKind

variable {α β : Type} {r : Registry φ} {config base : List β} {configList : Option (List α)}
  {baseList : List α} {f : β → α}

/-- The branches of `CFE_PSP_Module_GetAPIEntry`, with the entry that they select from two lists. -/
def Registry.select (r : Registry φ) (len : Lengths) (configList : Option (List α))
    (baseList : List α) (pspModuleId : Uint32) : Option (ℤ × Option α) :=
  if pspModuleId &&& ~~~moduleIndexMask = r.moduleBase then
    if 0xFF00 ≤ pspModuleId &&& moduleIndexMask then
      let localId := pspModuleId &&& 0xFF
      if localId < len.standard then
        baseList[localId.toNat]?.map fun e => (Status.success, some e)
      else some (Status.invalidModuleId, none)
    else
      let localId := pspModuleId &&& moduleIndexMask
      if localId < len.config then
        (configList.bind fun entries => entries[localId.toNat]?).map fun e =>
          (Status.success, some e)
      else some (Status.invalidModuleId, none)
  else some (Status.invalidModuleId, none)

/-- `GetAPIEntry` stores the `Api` of the entry that it selects. -/
lemma getAPIEntry_eq_select (len : Lengths) (id : Uint32) :
    getAPIEntry r len id =
      (r.select len r.pspModuleList r.baseModuleList id).map fun x => (x.1, x.2.map (·.api)) := by
  unfold getAPIEntry Registry.select
  dsimp only
  split_ifs
  · rw [Option.map_map]
    rfl
  · rfl
  · rw [Option.map_map]
    rfl
  · rfl
  · rfl

/-- Selecting from lists of which less is looked at selects as much of the entry. -/
lemma select_map {γ : Type} (g : α → γ) (len : Lengths) (id : Uint32) :
    r.select len (configList.map (List.map g)) (baseList.map g) id =
      (r.select len configList baseList id).map fun x => (x.1, x.2.map g) := by
  have hconfig : ∀ i : ℕ, ((configList.map (List.map g)).bind fun entries => entries[i]?) =
      (configList.bind fun entries => entries[i]?).map g := by
    intro i
    cases configList with
    | none => rfl
    | some entries => exact List.getElem?_map
  unfold Registry.select
  simp only [hconfig, List.getElem?_map]
  split_ifs
  · rw [Option.map_map, Option.map_map]
    rfl
  · rfl
  · rw [Option.map_map, Option.map_map]
    rfl
  · rfl
  · rfl

/-- The two lists begin with the entries of `config` and `base`, and there are ids enough for
both. -/
structure Selects (configList : Option (List α)) (baseList : List α) (config base : List β)
    (f : β → α) : Prop where
  config_eq : ∀ i < config.length,
    (configList.bind fun entries => entries[i]?) = config[i]?.map f
  base_eq : ∀ j < base.length, baseList[j]? = base[j]?.map f
  config_le : config.length ≤ 0xFF00
  base_le : base.length ≤ 256

/-- Lists that begin with the entries, the first one possibly `NULL`. -/
lemma Selects.of_begins (hnull : configList = none → config = [])
    (hconfig : ∀ entries, configList = some entries → config.map f <+: entries)
    (hbase : base.map f <+: baseList) (hconfigLe : config.length ≤ 0xFF00)
    (hbaseLe : base.length ≤ 256) : Selects configList baseList config base f := by
  have hget : ∀ {mods : List β} {entries : List α}, mods.map f <+: entries →
      ∀ i < mods.length, entries[i]? = mods[i]?.map f := by
    rintro mods entries ⟨rest, rfl⟩ i hi
    rw [List.getElem?_append_left (by rwa [List.length_map]), List.getElem?_map]
  refine ⟨fun i hi => ?_, hget hbase, hconfigLe, hbaseLe⟩
  cases configList with
  | none =>
    rw [hnull rfl] at hi
    exact absurd hi (Nat.not_lt_zero i)
  | some entries => exact hget (hconfig entries rfl) i hi

/-- The entry that is selected by an id of the right type, by the index of the id. -/
lemma Selects.select_idOf (h : Selects configList baseList config base f) {x : ℕ}
    (hx : x < 2 ^ 16) :
    r.select ⟨BitVec.ofNat 32 config.length, BitVec.ofNat 32 base.length⟩ configList baseList
        (r.idOf x) =
      some (match (if 0xFF00 ≤ x then base[x - 0xFF00]? else config[x]?) with
        | some m => (Status.success, some (f m))
        | none => (Status.invalidModuleId, none)) := by
  have hconfigLe := h.config_le
  have hbaseLe := h.base_le
  have htype : r.idOf x &&& ~~~moduleIndexMask = r.moduleBase :=
    (and_not_mask_eq_iff _).2 ⟨x, hx, rfl⟩
  have hsplit : (0xFF00 : Uint32) ≤ BitVec.ofNat 32 x ↔ 0xFF00 ≤ x := by
    rw [BitVec.le_def, toNat_index hx]
    rfl
  have hlt : ∀ {i n : ℕ}, i < 2 ^ 16 → n < 2 ^ 16 →
      (BitVec.ofNat 32 i < BitVec.ofNat 32 n ↔ i < n) := by
    intro i n hi hn
    rw [BitVec.lt_def, toNat_index hi, toNat_index hn]
  rw [Registry.select, if_pos htype, idOf_and_mask hx]
  by_cases hhigh : 0xFF00 ≤ x
  · obtain ⟨j, rfl⟩ := Nat.exists_eq_add_of_le hhigh
    rw [if_pos (hsplit.2 hhigh), if_pos hhigh, idOf_and_byte (by omega), Nat.add_sub_cancel_left]
    simp only [hlt (show j < 2 ^ 16 by omega) (show base.length < 2 ^ 16 by omega)]
    by_cases hj : j < base.length
    · rw [if_pos hj, toNat_index (by omega), h.base_eq j hj, List.getElem?_eq_getElem hj]
      rfl
    · rw [if_neg hj, List.getElem?_eq_none (not_lt.1 hj)]
  · rw [if_neg (mt hsplit.1 hhigh), if_neg hhigh]
    simp only [hlt hx (show config.length < 2 ^ 16 by omega)]
    by_cases hlist : x < config.length
    · rw [if_pos hlist, toNat_index hx, h.config_eq x hlist, List.getElem?_eq_getElem hlist]
      rfl
    · rw [if_neg hlist, List.getElem?_eq_none (not_lt.1 hlist)]

/-- The members of the two lists with their ids, the configured ones first. -/
def Registry.numbered (r : Registry φ) (config base : List β) : List (β × Uint32) :=
  (config.zipIdx.map fun x => (x.1, r.moduleBase + BitVec.ofNat 32 x.2)) ++
    base.zipIdx.map fun x => (x.1, r.internalModuleBase + BitVec.ofNat 32 x.2)

lemma mem_of_numbered {p : β × Uint32} (hp : p ∈ r.numbered config base) :
    p.1 ∈ config ++ base := by
  simp only [Registry.numbered, List.mem_append, List.mem_map] at hp
  rw [List.mem_append]
  rcases hp with ⟨x, hx, rfl⟩ | ⟨x, hx, rfl⟩
  · exact .inl (List.fst_mem_of_mem_zipIdx hx)
  · exact .inr (List.fst_mem_of_mem_zipIdx hx)

lemma numbered_map {γ : Type} (g : β → γ) :
    r.numbered (config.map g) (base.map g) =
      (r.numbered config base).map fun x => (g x.1, x.2) := by
  simp only [Registry.numbered, List.zipIdx_map, List.map_append, List.map_map]
  rfl

lemma assigned_eq_numbered (config base : List (NamedApi φ)) :
    assigned r config base = (r.numbered config base).map fun x => ⟨x.1, x.2⟩ := by
  rw [Registry.numbered, List.map_append, List.map_map, List.map_map]
  rfl

/-- The member that an id belongs to, by the index of the id. -/
lemma Selects.mem_numbered (h : Selects configList baseList config base f) (p : β × Uint32) :
    p ∈ r.numbered config base ↔
      ∃ x < 2 ^ 16, (if 0xFF00 ≤ x then base[x - 0xFF00]? else config[x]?) = some p.1 ∧
        p.2 = r.idOf x := by
  have hconfig := h.config_le
  have hbase := h.base_le
  obtain ⟨m, id⟩ := p
  simp only [Registry.numbered, List.mem_append, List.mem_map, Prod.exists,
    List.mem_zipIdx_iff_getElem?, Prod.mk.injEq]
  constructor
  · rintro (⟨m, i, hi, rfl, hid⟩ | ⟨m, j, hj, rfl, hid⟩)
    · have hlt := (List.getElem?_eq_some_iff.1 hi).1
      exact ⟨i, by omega, by rw [if_neg (by omega), hi], hid.symm⟩
    · have hlt := (List.getElem?_eq_some_iff.1 hj).1
      refine ⟨0xFF00 + j, by omega, ?_, hid.symm.trans (internalModuleBase_add j)⟩
      rw [if_pos (by omega), Nat.add_sub_cancel_left, hj]
  · rintro ⟨x, hx, hslot, hid⟩
    by_cases hhigh : 0xFF00 ≤ x
    · rw [if_pos hhigh] at hslot
      refine .inr ⟨m, x - 0xFF00, hslot, rfl, ?_⟩
      rw [internalModuleBase_add, hid, Nat.add_sub_cancel' hhigh]
    · rw [if_neg hhigh] at hslot
      exact .inl ⟨m, x, hslot, rfl, hid.symm⟩

/-- The id of a member selects its entry. -/
lemma Selects.select_of_mem (h : Selects configList baseList config base f) {p : β × Uint32}
    (hp : p ∈ r.numbered config base) :
    r.select ⟨BitVec.ofNat 32 config.length, BitVec.ofNat 32 base.length⟩ configList baseList p.2 =
      some (Status.success, some (f p.1)) := by
  obtain ⟨x, hx, hslot, hid⟩ := (h.mem_numbered p).1 hp
  rw [hid, h.select_idOf hx, hslot]

/-- Any other id selects none. -/
lemma Selects.select_of_notMem (h : Selects configList baseList config base f) {id : Uint32}
    (hid : ∀ p ∈ r.numbered config base, p.2 ≠ id) :
    r.select ⟨BitVec.ofNat 32 config.length, BitVec.ofNat 32 base.length⟩ configList baseList id =
      some (Status.invalidModuleId, none) := by
  by_cases htype : id &&& ~~~moduleIndexMask = r.moduleBase
  · obtain ⟨x, hx, rfl⟩ := (and_not_mask_eq_iff id).1 htype
    rw [h.select_idOf hx]
    cases hslot : (if 0xFF00 ≤ x then base[x - 0xFF00]? else config[x]?) with
    | none => rfl
    | some m => exact absurd rfl (hid (m, r.idOf x) ((h.mem_numbered _).2 ⟨x, hx, hslot, rfl⟩))
  · rw [Registry.select, if_neg htype]

end AnyKind

/-! ## The three functions -/

section RoundTrip

variable {r : Registry φ} {config base : List (NamedApi φ)}

/-- The lengths that `ModuleInit` stores. -/
def lengths (config base : List (NamedApi φ)) : Lengths :=
  ⟨BitVec.ofNat 32 config.length, BitVec.ofNat 32 base.length⟩

/-- The calls of `Init` functions that `ModuleInit` makes: base modules first. -/
def initCalls (r : Registry φ) (config base : List (NamedApi φ)) : List (φ × Uint32) :=
  (assignFrom r.internalModuleBase 0 base ++ assignFrom r.moduleBase 0 config).filterMap
    fun a => initCall a.api a.id

/-- `ModuleInit` counts both lists and calls every `Init` function that there is with the id
assigned to its module. -/
lemma moduleInit_eq (h : r.Holds config base) :
    moduleInit r = some (lengths config base, initCalls r config base) := by
  have hbase := initLoop_eq r.internalModuleBase h.base_terminated 0
  rw [Nat.zero_add] at hbase
  have hconfig : moduleInitList r.moduleBase r.pspModuleList = some (BitVec.ofNat 32 config.length,
      (assignFrom r.moduleBase 0 config).filterMap fun a => initCall a.api a.id) := by
    cases hlist : r.pspModuleList with
    | none =>
      rw [h.config_null hlist]
      rfl
    | some entries =>
      have hloop := initLoop_eq r.moduleBase (h.config_terminated entries hlist) 0
      rw [Nat.zero_add] at hloop
      exact hloop
  have hstandard : moduleInitList r.internalModuleBase (some r.baseModuleList) =
      some (BitVec.ofNat 32 base.length,
        (assignFrom r.internalModuleBase 0 base).filterMap fun a => initCall a.api a.id) := hbase
  rw [moduleInit, hstandard, hconfig, initCalls, List.filterMap_append]
  rfl

/-- The ids of all modules, by their indices. -/
lemma map_id_assigned :
    (assigned r config base).map Assigned.id =
      (List.range' 0 config.length ++ List.range' 0xFF00 base.length).map r.idOf := by
  rw [assigned, List.map_append, List.map_append, map_id_assignFrom, map_id_assignFrom]
  refine congrArg₂ (· ++ ·) rfl ?_
  have hshift : List.range' 0xFF00 base.length =
      (List.range' 0 base.length).map fun j => 0xFF00 + j := by
    rw [List.map_add_range', Nat.add_zero]
  rw [hshift, List.map_map]
  exact List.map_congr_left fun j _ => internalModuleBase_add j

/-- Every id is assigned once. -/
lemma nodup_map_id_assigned (h : r.Holds config base) :
    ((assigned r config base).map Assigned.id).Nodup := by
  have hconfig := h.config_le
  have hbase := h.base_le
  rw [map_id_assigned]
  refine List.Nodup.map_on ?_ ?_
  · intro x hx y hy hxy
    rw [List.mem_append, List.mem_range'_1, List.mem_range'_1] at hx hy
    exact idOf_inj (by omega) (by omega) hxy
  · refine List.Nodup.append List.nodup_range' List.nodup_range' ?_
    intro x hx hx'
    rw [List.mem_range'_1] at hx hx'
    omega

/-- The two lists of a registry, for `GetAPIEntry`. -/
lemma Registry.Holds.selects (h : r.Holds config base) :
    Selects r.pspModuleList r.baseModuleList config base NamedApi.entry :=
  .of_begins h.config_null (fun entries hlist => (h.config_terminated entries hlist).isPrefix)
    h.base_terminated.isPrefix h.config_le h.base_le

/-- `GetAPIEntry` gives for the id of a module its entry. -/
lemma getAPIEntry_of_mem (h : r.Holds config base) {a : Assigned φ}
    (ha : a ∈ assigned r config base) :
    getAPIEntry r (lengths config base) a.id = some (Status.success, some a.api) := by
  rw [assigned_eq_numbered, List.mem_map] at ha
  obtain ⟨p, hp, rfl⟩ := ha
  rw [getAPIEntry_eq_select, lengths, h.selects.select_of_mem hp]
  rfl

/-- It fails for all other ids. -/
lemma getAPIEntry_of_notMem (h : r.Holds config base) {id : Uint32}
    (hid : ∀ a ∈ assigned r config base, a.id ≠ id) :
    getAPIEntry r (lengths config base) id = some (Status.invalidModuleId, none) := by
  rw [assigned_eq_numbered, List.forall_mem_map] at hid
  rw [getAPIEntry_eq_select, lengths, h.selects.select_of_notMem hid]
  rfl

/-- The ids that `Init` functions are called with are ids of modules, each at most once. -/
lemma map_snd_initCall_sublist (l : List (Assigned φ)) :
    ((l.filterMap fun a => initCall a.api a.id).map Prod.snd).Sublist (l.map Assigned.id) := by
  induction l with
  | nil => exact List.Sublist.refl _
  | cons a l ih =>
    rw [List.filterMap_cons, List.map_cons]
    cases hcall : initCall a.api a.id with
    | none => exact ih.cons _
    | some x =>
      have hid : x.2 = a.id := by
        simp only [initCall] at hcall
        split_ifs at hcall
        obtain ⟨f, -, rfl⟩ := Option.map_eq_some_iff.1 hcall
        rfl
      rw [List.map_cons, hid]
      exact ih.cons_cons _

/-- The search of a loop of `FindByName`, in terms of the assigned ids. -/
lemma find?_assignFrom (baseId : Uint32) (mods : List (NamedApi φ)) (name : String) :
    (assignFrom baseId 0 mods).find? (fun a => decide (a.name = name)) =
      (mods.zipIdx.find? fun x => decide (x.1.name = name)).map fun x =>
        ⟨x.1, baseId + BitVec.ofNat 32 x.2⟩ := by
  rw [assignFrom, List.find?_map]
  rfl

/-- An index found in a list is one of the list. -/
lemma lt_of_find?_zipIdx {mods : List (NamedApi φ)} {p : NamedApi φ × ℕ → Bool}
    {x : NamedApi φ × ℕ} (h : mods.zipIdx.find? p = some x) : x.2 < mods.length := by
  have hmem := List.mem_of_find?_eq_some h
  obtain ⟨m, i⟩ := x
  exact (List.getElem?_eq_some_iff.1 (List.mem_zipIdx_iff_getElem?.1 hmem)).1

/-- `FindByName` finds the id assigned to the first module of that name, the configured ones
first. -/
lemma findByName_eq (h : r.Holds config base) (name : String) :
    findByName r (lengths config base) name =
      some (match (assigned r config base).find? fun a => decide (a.name = name) with
        | some a => (Status.success, some a.id)
        | none => (Status.invalidModuleName, none)) := by
  have hconfigLe := h.config_le
  have hbaseLe := h.base_le
  have hinternal : r.internalModuleBase.toNat % 2 ^ 8 = 0 := by
    have hzero := internalModuleBase_add (r := r) 0
    rw [BitVec.add_zero] at hzero
    have hmod := moduleBase_mod (r := r)
    rw [hzero, toNat_idOf (by omega)]
    omega
  have hconfig : findLoop name config.length 0 (r.pspModuleList.getD []) =
      some ((config.zipIdx.find? fun x => decide (x.1.name = name)).map fun x =>
        BitVec.ofNat 32 x.2) := by
    cases hlist : r.pspModuleList with
    | none =>
      rw [h.config_null hlist]
      rfl
    | some entries => exact findLoop_eq name (h.config_terminated entries hlist) 0
  have hbase : findLoop name base.length 0 r.baseModuleList =
      some ((base.zipIdx.find? fun x => decide (x.1.name = name)).map fun x =>
        BitVec.ofNat 32 x.2) := findLoop_eq name h.base_terminated 0
  rw [findByName, lengths, toNat_index (by omega), toNat_index (by omega), hconfig, hbase,
    assigned, List.find?_append, find?_assignFrom, find?_assignFrom]
  cases hfound : config.zipIdx.find? fun x => decide (x.1.name = name) with
  | some x =>
    have hx := lt_of_find?_zipIdx hfound
    simp only [Option.map_some, Option.bind_some, Option.some_or,
      or_index (moduleBase_mod (r := r)) (le_refl 16) (show x.2 < 2 ^ 16 by omega)]
  | none =>
    cases hfound' : base.zipIdx.find? fun x => decide (x.1.name = name) with
    | some x =>
      have hx := lt_of_find?_zipIdx hfound'
      simp only [Option.map_some, Option.map_none, Option.bind_some, Option.none_or,
        or_index hinternal (show 8 ≤ 16 by omega) (show x.2 < 2 ^ 8 by omega)]
    | none => rfl

/-- **Round trip of the module registry.** With at most `0xFF00` configured modules, or none and
no list, and at most 256 base modules, the names repeated or not, `ModuleInit` returns; all ids it
hands to `Init` functions are distinct, `FindByName` gives for every name the id assigned to the
first module of that name, and fails if there is none; `GetAPIEntry` gives for the id of a module
its entry, and fails for all other ids. Nothing is read behind the end of a list.

**Proof sketch.** All ids are `idOf x` for an index `x` of sixteen bits: the index in the list for
a configured module, `0xFF00` more for a base module. The three functions compute or invert
`idOf`. -/
theorem registry_roundTrip (h : r.Holds config base) :
    ∃ len calls, moduleInit r = some (len, calls) ∧
      calls = initCalls r config base ∧ (calls.map Prod.snd).Nodup ∧
      ((assigned r config base).map Assigned.id).Nodup ∧
      (∀ name, findByName r len name =
        some (match (assigned r config base).find? fun a => decide (a.name = name) with
          | some a => (Status.success, some a.id)
          | none => (Status.invalidModuleName, none))) ∧
      (∀ a ∈ assigned r config base,
        getAPIEntry r len a.id = some (Status.success, some a.api)) ∧
      ∀ id, (∀ a ∈ assigned r config base, a.id ≠ id) →
        getAPIEntry r len id = some (Status.invalidModuleId, none) := by
  have hnodup := nodup_map_id_assigned h
  refine ⟨lengths config base, _, moduleInit_eq h, rfl, ?_, hnodup, findByName_eq h,
    fun a ha => getAPIEntry_of_mem h ha, fun id hid => getAPIEntry_of_notMem h hid⟩
  refine (map_snd_initCall_sublist _).nodup ?_
  rw [List.map_append, List.nodup_append_comm, ← List.map_append]
  exact hnodup

/-- Two configured modules of one name. -/
def eepromModules : List (NamedApi ℕ) := [⟨"eeprom", ⟨1, some 10⟩⟩, ⟨"eeprom", ⟨2, some 20⟩⟩]

/-- A base module without an `Init` function. -/
def iodriverModule : NamedApi ℕ := ⟨"iodriver", ⟨1, none⟩⟩

/-- A registry of these three modules. -/
def eepromRegistry : Registry ℕ where
  osObjectTypeUser := 0x10
  pspModuleList := some (eepromModules.map NamedApi.entry ++ [⟨none, ⟨0, none⟩⟩])
  baseModuleList := [iodriverModule.entry, ⟨none, ⟨0, none⟩⟩]

/-- The first module of a name is found, and a base module by its id. -/
theorem registry_roundTrip_of_three :
    ∃ len, moduleInit eepromRegistry = some (len, [(10, 0x1100000), (20, 0x1100001)]) ∧
      findByName eepromRegistry len "eeprom" = some (Status.success, some 0x1100000) ∧
      getAPIEntry eepromRegistry len 0x110FF00 =
        some (Status.success, some iodriverModule.api) := by
  have holds : eepromRegistry.Holds eepromModules [iodriverModule] :=
    ⟨fun entries hentries => ⟨_, [], rfl, (Option.some.inj hentries).symm⟩, nofun,
      ⟨_, [], rfl, rfl⟩, by decide, by decide⟩
  obtain ⟨len, calls, hinit, rfl, -, -, hname, hentry, -⟩ := registry_roundTrip holds
  have hcalls : initCalls eepromRegistry eepromModules [iodriverModule] =
      [(10, 0x1100000), (20, 0x1100001)] := by decide
  have hfirst : ((assigned eepromRegistry eepromModules [iodriverModule]).find? fun a =>
      decide (a.name = "eeprom")).map Assigned.id = some 0x1100000 := by decide
  have hbase : (assigned eepromRegistry eepromModules [iodriverModule])[2]? =
      some ⟨iodriverModule, 0x110FF00⟩ := rfl
  refine ⟨len, by rw [hinit, hcalls], ?_, hentry ⟨iodriverModule, _⟩ (List.mem_of_getElem? hbase)⟩
  obtain ⟨a, ha, hid⟩ := Option.map_eq_some_iff.1 hfirst
  rw [hname, ha, ← hid]

end RoundTrip

end CfePsp.Module
