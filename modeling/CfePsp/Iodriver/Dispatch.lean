import CfePsp.Iodriver.Command
import CfePsp.Module.Registry

set_option relaxedAutoImplicit false
set_option autoImplicit false

/-!
# Finding a driver and calling it

`CFE_PSP_IODriver_FindByName` looks a name up in the registry of the modules and refuses modules
that are no device drivers. `CFE_PSP_IODriver_Command` looks the id up and passes the command on to
the functions that `ExtendedApi` of the module points to, if it is a device driver.

## Main definitions

* `CfePsp.Iodriver.findByName`, `CfePsp.Iodriver.command` — the functions.
* `CfePsp.Iodriver.Modules` — the two lists of the registry, with the driver APIs.
* `CfePsp.Iodriver.Served` — what a command is to do with the API of a driver.

## Main results

* `CfePsp.Iodriver.dispatch_agrees` — a name that is found leads to the functions of the driver that
  has it, and an id of no driver to no function.
* `CfePsp.Iodriver.run_command` — left alone, the actions of a client add up to the function
  `CfePsp.Iodriver.Modules.command`.

## Design

What the functions of the drivers return is not known; it is a parameter, as is the type of the
argument. A command leaves the list of the calls that it made. It has no result when it reads behind
the end of a list, or through an `ExtendedApi` that is `NULL`.
-/

namespace CfePsp.Iodriver

variable {φ ψ α : Type}

/-! ## The data -/

/-- `CFE_PSP_ModuleApi_t`, with the driver API that `ExtendedApi` points to, if it is not `NULL`. -/
structure FullApi (φ ψ : Type) extends Module.ModuleApi φ where
  extendedApi : Option (DriverApi ψ)

/-- `CFE_StaticModuleLoadEntry_t`. -/
structure LoadEntry (φ ψ : Type) where
  name : Option String
  api : FullApi φ ψ

/-- The entry, as far as the registry looks at it. -/
def LoadEntry.plain (e : LoadEntry φ ψ) : Module.ModuleLoadEntry φ := ⟨e.name, e.api.toModuleApi⟩

/-- What the registry is built with. -/
structure Modules (φ ψ : Type) where
  /-- `OS_OBJECT_TYPE_USER`. -/
  osObjectTypeUser : Uint32
  /-- `GLOBAL_CONFIGDATA.PspModuleList`, possibly `NULL`. -/
  pspModuleList : Option (List (LoadEntry φ ψ))
  /-- `CFE_PSP_BASE_MODULE_LIST`. -/
  baseModuleList : List (LoadEntry φ ψ)

/-- The registry of the modules. -/
def Modules.registry (m : Modules φ ψ) : Module.Registry φ where
  osObjectTypeUser := m.osObjectTypeUser
  pspModuleList := m.pspModuleList.map fun entries => entries.map LoadEntry.plain
  baseModuleList := m.baseModuleList.map LoadEntry.plain

/-- `CFE_PSP_IODriver_Location_t`, the command code and the argument, as the functions of a driver
get them. -/
structure DeviceArgs (α : Type) where
  commandCode : Uint32
  subsystemId : Uint16
  subchannelId : Uint16
  arg : α
  deriving DecidableEq

/-- The arguments of a command for the functions of a driver. -/
def argsOf (call : Call) (arg : α) : DeviceArgs α :=
  ⟨call.commandCode, call.subsystemId, call.subchannelId, arg⟩

/-- What the functions of the drivers return. -/
structure Outcomes (ψ α : Type) where
  deviceCommand : ψ → DeviceArgs α → ℤ
  deviceMutex : ψ → DeviceArgs α → Uint32

/-- The calls that a command makes. -/
inductive Event (ψ α : Type)
  | deviceMutex (f : ψ) (args : DeviceArgs α)
  | osMutSemTake (mutexId : Uint32)
  | deviceCommand (f : ψ) (args : DeviceArgs α)
  | osMutSemGive (mutexId : Uint32)
  deriving DecidableEq

/-! ## The functions -/

/-- `CFE_PSP_Module_GetAPIEntry`: return code and all that `API` points to. -/
def Modules.getAPIEntry (m : Modules φ ψ) (len : Module.Lengths) (pspModuleId : Uint32) :
    Option (ℤ × Option (FullApi φ ψ)) :=
  (m.registry.select len m.pspModuleList m.baseModuleList pspModuleId).map fun x =>
    (x.1, x.2.map (·.api))

/-- `CFE_PSP_IODriver_GetAPI`: what the pointer that it returns points to. -/
def Modules.getAPI (m : Modules φ ψ) (len : Module.Lengths) (pspModuleId : Uint32) :
    Option (DriverApi ψ) :=
  (m.getAPIEntry len pspModuleId).bind fun (result, api) =>
    if result = Status.success then
      api.bind fun api =>
        if api.moduleType = moduleTypeDevicedriver then api.extendedApi else some defaultApi
    else some defaultApi

/-- `CFE_PSP_IODriver_GetMutex`, with any mutex table. -/
def getMutexOf (table : Fin lockTableSize → Uint32) (pspModuleId deviceHash : Uint32) : Uint32 :=
  if deviceHash.toInt < 0 then osObjectIdUndefined
  else table ⟨(lookupIndex pspModuleId deviceHash).toNat, lookupIndex_lt _ _⟩

/-- The mutex that a command needs, and the call of `DeviceMutex` if there is one. -/
def mutexOf (table : Fin lockTableSize → Uint32) (outcomes : Outcomes ψ α) (pspModuleId : Uint32)
    (args : DeviceArgs α) (deviceMutex : Option ψ) : Uint32 × List (Event ψ α) :=
  match deviceMutex with
  | some f => (getMutexOf table pspModuleId (outcomes.deviceMutex f args), [.deviceMutex f args])
  | none => (osObjectIdUndefined, [])

/-- `if (OS_ObjectIdDefined(MutexId))`. -/
def ifDefined (mutexId : Uint32) (e : Event ψ α) : List (Event ψ α) :=
  if mutexId ≠ osObjectIdUndefined then [e] else []

/-- `CFE_PSP_IODriver_Command`: return code and the calls made. -/
def Modules.command (m : Modules φ ψ) (len : Module.Lengths) (table : Fin lockTableSize → Uint32)
    (outcomes : Outcomes ψ α) (call : Call) (arg : α) : Option (ℤ × List (Event ψ α)) :=
  (m.getAPI len call.pspModuleId).map fun api =>
    match api.deviceCommand with
    | some f =>
        let args := argsOf call arg
        let (mutexId, asked) := mutexOf table outcomes call.pspModuleId args api.deviceMutex
        (outcomes.deviceCommand f args,
          asked ++ ifDefined mutexId (.osMutSemTake mutexId) ++ [.deviceCommand f args] ++
            ifDefined mutexId (.osMutSemGive mutexId))
    | none => (Status.errorNotImplemented, [])

/-- `CFE_PSP_IODriver_FindByName`: return code and what is stored through `PspModuleId`. -/
def findByName (r : Module.Registry φ) (len : Module.Lengths) (driverName : String) :
    Option (ℤ × Option Uint32) :=
  (Module.findByName r len driverName).bind fun (result, stored) =>
    if result = Status.success then
      stored.bind fun pspModuleId =>
        (Module.getAPIEntry r len pspModuleId).bind fun (result, api) =>
          if result = Status.success then
            api.map fun api =>
              if api.moduleType ≠ moduleTypeDevicedriver then (Status.invalidModuleName, stored)
              else (result, stored)
          else some (result, stored)
    else some (result, stored)

/-! ## What they are to do -/

/-- A module and its name. -/
structure NamedModule (φ ψ : Type) where
  name : String
  api : FullApi φ ψ

/-- The entry of a named module. -/
def NamedModule.entry (x : NamedModule φ ψ) : LoadEntry φ ψ := ⟨some x.name, x.api⟩

/-- The module, as far as the registry looks at it. -/
def NamedModule.plain (x : NamedModule φ ψ) : Module.NamedApi φ := ⟨x.name, x.api.toModuleApi⟩

/-- A device driver. -/
def NamedModule.IsDriver (x : NamedModule φ ψ) : Prop := x.api.moduleType = moduleTypeDevicedriver

instance (x : NamedModule φ ψ) : Decidable x.IsDriver :=
  inferInstanceAs (Decidable (x.api.moduleType = moduleTypeDevicedriver))

/-- The array holds the modules `mods`, ended by an entry without a name. -/
def Terminated (entries : List (LoadEntry φ ψ)) (mods : List (NamedModule φ ψ)) : Prop :=
  ∃ last rest, last.name = none ∧ entries = mods.map NamedModule.entry ++ last :: rest

/-- The two lists hold the configured modules `config` and the base modules `base`, there are ids
enough for both, and every device driver has a driver API. -/
structure Modules.Holds (m : Modules φ ψ) (config base : List (NamedModule φ ψ)) : Prop where
  config_terminated : ∀ entries, m.pspModuleList = some entries → Terminated entries config
  config_null : m.pspModuleList = none → config = []
  base_terminated : Terminated m.baseModuleList base
  config_le : config.length ≤ 0xFF00
  base_le : base.length ≤ 256
  extended : ∀ x ∈ config ++ base, x.IsDriver → x.api.extendedApi ≠ none

/-- The first module of a name with its id, the configured ones first. -/
def Modules.first (m : Modules φ ψ) (config base : List (NamedModule φ ψ)) (name : String) :
    Option (NamedModule φ ψ × Uint32) :=
  (m.registry.numbered config base).find? fun x => decide (x.1.name = name)

/-- The call goes to a function of a driver. -/
def Event.IsInvocation : Event ψ α → Bool
  | .deviceMutex _ _ | .deviceCommand _ _ => true
  | .osMutSemTake _ | .osMutSemGive _ => false

/-- **What a command is to do with the API of a driver**: call its `DeviceCommand` once, after its
`DeviceMutex` if there is one, and return what that returned; or call nothing. -/
def Served (outcomes : Outcomes ψ α) (api : DriverApi ψ) (args : DeviceArgs α)
    (out : ℤ × List (Event ψ α)) : Prop :=
  match api.deviceCommand with
  | some f => out.1 = outcomes.deviceCommand f args ∧
      out.2.filter Event.IsInvocation =
        api.deviceMutex.toList.map (Event.deviceMutex · args) ++ [.deviceCommand f args]
  | none => out = (Status.errorNotImplemented, [])

/-! ## The lists -/

section Lists

variable {m : Modules φ ψ} {config base : List (NamedModule φ ψ)}
  {entries : List (LoadEntry φ ψ)} {mods : List (NamedModule φ ψ)}

/-- The lengths that `ModuleInit` stores. -/
def lengths (config base : List (NamedModule φ ψ)) : Module.Lengths :=
  ⟨BitVec.ofNat 32 config.length, BitVec.ofNat 32 base.length⟩

lemma lengths_plain : Module.lengths (config.map NamedModule.plain) (base.map NamedModule.plain) =
    lengths config base := by
  rw [Module.lengths, List.length_map, List.length_map, lengths]

lemma Terminated.plain (h : Terminated entries mods) :
    Module.Terminated (entries.map LoadEntry.plain) (mods.map NamedModule.plain) := by
  obtain ⟨last, rest, hlast, rfl⟩ := h
  refine ⟨last.plain, rest.map LoadEntry.plain, hlast, ?_⟩
  rw [List.map_append, List.map_cons, List.map_map, List.map_map]
  rfl

/-- An array that holds `mods` begins with their entries. -/
lemma Terminated.isPrefix (h : Terminated entries mods) :
    mods.map NamedModule.entry <+: entries := by
  obtain ⟨last, rest, -, rfl⟩ := h
  exact List.prefix_append _ _

/-- What the registry of the modules holds. -/
lemma Modules.Holds.registry (h : m.Holds config base) :
    m.registry.Holds (config.map NamedModule.plain) (base.map NamedModule.plain) where
  config_terminated plains hplains := by
    obtain ⟨entries, hentries, rfl⟩ := Option.map_eq_some_iff.1 hplains
    exact (h.config_terminated entries hentries).plain
  config_null hnull := by
    rw [h.config_null (Option.map_eq_none_iff.1 hnull)]
    rfl
  base_terminated := h.base_terminated.plain
  config_le := by
    rw [List.length_map]
    exact h.config_le
  base_le := by
    rw [List.length_map]
    exact h.base_le

/-- The two lists of the modules, for `GetAPIEntry`. -/
lemma Modules.Holds.selects (h : m.Holds config base) :
    Module.Selects m.pspModuleList m.baseModuleList config base NamedModule.entry :=
  .of_begins h.config_null (fun entries hlist => (h.config_terminated entries hlist).isPrefix)
    h.base_terminated.isPrefix h.config_le h.base_le

/-- `GetAPIEntry` of the registry returns as much of the module as the registry looks at. -/
lemma getAPIEntry_registry (m : Modules φ ψ) (len : Module.Lengths) (id : Uint32) :
    Module.getAPIEntry m.registry len id =
      (m.getAPIEntry len id).map fun x => (x.1, x.2.map (·.toModuleApi)) := by
  have hselect : m.registry.select len m.registry.pspModuleList m.registry.baseModuleList id =
      (m.registry.select len m.pspModuleList m.baseModuleList id).map fun x =>
        (x.1, x.2.map LoadEntry.plain) := Module.select_map LoadEntry.plain len id
  rw [Module.getAPIEntry_eq_select, hselect, Modules.getAPIEntry, Option.map_map, Option.map_map]
  congr 1
  funext x
  simp only [Function.comp_apply, Option.map_map]
  rfl

/-- The modules with their ids, as far as the registry looks at them. -/
lemma assigned_registry :
    Module.assigned m.registry (config.map NamedModule.plain) (base.map NamedModule.plain) =
      (m.registry.numbered config base).map fun x => ⟨x.1.plain, x.2⟩ := by
  rw [Module.assigned_eq_numbered, Module.numbered_map, List.map_map]
  rfl

/-- A device driver of the lists has a driver API. -/
lemma Modules.Holds.extended_of_mem (h : m.Holds config base) {x : NamedModule φ ψ × Uint32}
    (hx : x ∈ m.registry.numbered config base) (hdriver : x.1.IsDriver) :
    x.1.api.extendedApi ≠ none :=
  h.extended x.1 (Module.mem_of_numbered hx) hdriver

lemma mem_of_first {name : String} {x : NamedModule φ ψ × Uint32}
    (h : m.first config base name = some x) : x ∈ m.registry.numbered config base :=
  List.mem_of_find?_eq_some h

end Lists

/-! ## The functions on what the lists hold -/

section Dispatch

variable {m : Modules φ ψ} {config base : List (NamedModule φ ψ)} {x : NamedModule φ ψ × Uint32}
  {id : Uint32} {call : Call}

/-- `FindByName` gives the id of the first module of a name, and success if that is a device
driver. -/
lemma findByName_eq (h : m.Holds config base) (name : String) :
    findByName m.registry (lengths config base) name =
      some (match m.first config base name with
        | some x =>
            (if x.1.IsDriver then Status.success else Status.invalidModuleName, some x.2)
        | none => (Status.invalidModuleName, none)) := by
  have hfind := Module.findByName_eq h.registry name
  rw [lengths_plain, assigned_registry, List.find?_map] at hfind
  have hfirst : (m.registry.numbered config base).find?
      ((fun a : Module.Assigned φ => decide (a.name = name)) ∘ fun x => ⟨x.1.plain, x.2⟩) =
        m.first config base name := rfl
  rw [hfirst] at hfind
  rw [findByName, hfind]
  cases hx : m.first config base name with
  | none => rfl
  | some x =>
    have hmem : (⟨x.1.plain, x.2⟩ : Module.Assigned φ) ∈ Module.assigned m.registry
        (config.map NamedModule.plain) (base.map NamedModule.plain) := by
      rw [assigned_registry]
      exact List.mem_map_of_mem (mem_of_first hx)
    have hentry := Module.getAPIEntry_of_mem h.registry hmem
    rw [lengths_plain] at hentry
    simp only [Option.map_some, Option.bind_some, if_pos, hentry]
    by_cases hdriver : x.1.IsDriver
    · have htype : ¬x.1.plain.api.moduleType ≠ moduleTypeDevicedriver := not_not.2 hdriver
      rw [if_neg htype, if_pos hdriver]
    · have htype : x.1.plain.api.moduleType ≠ moduleTypeDevicedriver := hdriver
      rw [if_pos htype, if_neg hdriver]

/-- The API of a device driver, by its id. -/
lemma getAPI_of_driver (h : m.Holds config base) (hx : x ∈ m.registry.numbered config base)
    (hdriver : x.1.IsDriver) : m.getAPI (lengths config base) x.2 = x.1.api.extendedApi := by
  have htype : x.1.entry.api.moduleType = moduleTypeDevicedriver := hdriver
  rw [Modules.getAPI, Modules.getAPIEntry, lengths, h.selects.select_of_mem hx]
  simp only [Option.map_some, Option.bind_some, if_pos, htype]
  rfl

/-- Any other id leads to the API without functions. -/
lemma getAPI_of_noDriver (h : m.Holds config base)
    (hid : ∀ x ∈ m.registry.numbered config base, x.1.IsDriver → x.2 ≠ id) :
    m.getAPI (lengths config base) id = some defaultApi := by
  rw [Modules.getAPI, Modules.getAPIEntry, lengths]
  by_cases hmem : ∃ x ∈ m.registry.numbered config base, x.2 = id
  · obtain ⟨x, hx, rfl⟩ := hmem
    have htype : ¬x.1.entry.api.moduleType = moduleTypeDevicedriver :=
      fun hdriver => hid x hx hdriver rfl
    rw [h.selects.select_of_mem hx]
    simp only [Option.map_some, Option.bind_some, if_pos, if_neg htype]
  · have hnone : ∀ x ∈ m.registry.numbered config base, x.2 ≠ id :=
      fun x hx heq => hmem ⟨x, hx, heq⟩
    rw [h.selects.select_of_notMem hnone]
    rfl

lemma filter_ifDefined (mutexId : Uint32) {e : Event ψ α} (he : e.IsInvocation = false) :
    (ifDefined mutexId e).filter Event.IsInvocation = [] := by
  unfold ifDefined
  split_ifs
  · rw [List.filter_singleton, he]
    rfl
  · rfl

/-- A command does what it is to do with the API that it finds. -/
lemma served_of_getAPI {len : Module.Lengths} {api : DriverApi ψ}
    (hapi : m.getAPI len call.pspModuleId = some api) (table : Fin lockTableSize → Uint32)
    (outcomes : Outcomes ψ α) (arg : α) :
    ∃ out, m.command len table outcomes call arg = some out ∧
      Served outcomes api (argsOf call arg) out := by
  rw [Modules.command, hapi, Option.map_some]
  refine ⟨_, rfl, ?_⟩
  unfold Served
  cases hcommand : api.deviceCommand with
  | none => rfl
  | some f =>
    refine ⟨rfl, ?_⟩
    have htake : ∀ k, (ifDefined k (.osMutSemTake k : Event ψ α)).filter Event.IsInvocation = [] :=
      fun k => filter_ifDefined k rfl
    have hgive : ∀ k, (ifDefined k (.osMutSemGive k : Event ψ α)).filter Event.IsInvocation = [] :=
      fun k => filter_ifDefined k rfl
    simp only [List.filter_append, htake, hgive, List.append_nil]
    cases api.deviceMutex with
    | none => rfl
    | some g => rfl

/-- **Lookup and dispatch agree.** For all lists of modules in which every device driver has a
driver API, after `ModuleInit`: the name of a driver is found, with its id, if and only if the first
module of that name is a device driver, and any other name is refused; a command to the id that was
found calls the functions of that driver, as it is to; a command to an id of no driver calls nothing
and returns `CFE_PSP_ERROR_NOT_IMPLEMENTED`.

**Proof sketch.** `FindByName` returns the id of the first module of the name, and `GetAPIEntry`
takes that id back to the same module; all other ids lead to the API without functions. -/
theorem dispatch_agrees (h : m.Holds config base) :
    ∃ len calls, Module.moduleInit m.registry = some (len, calls) ∧
      (∀ name id, findByName m.registry len name = some (Status.success, some id) ↔
        ∃ x, m.first config base name = some x ∧ x.1.IsDriver ∧ x.2 = id) ∧
      (∀ name, (¬∃ x, m.first config base name = some x ∧ x.1.IsDriver) →
        ∃ stored, findByName m.registry len name = some (Status.invalidModuleName, stored)) ∧
      (∀ name id, findByName m.registry len name = some (Status.success, some id) →
        ∃ x api, m.first config base name = some x ∧ x.1.api.extendedApi = some api ∧
          ∀ table (outcomes : Outcomes ψ α) call arg, call.pspModuleId = id →
            ∃ out, m.command len table outcomes call arg = some out ∧
              Served outcomes api (argsOf call arg) out) ∧
      ∀ id, (∀ x ∈ m.registry.numbered config base, x.1.IsDriver → x.2 ≠ id) →
        ∀ table (outcomes : Outcomes ψ α) call arg, call.pspModuleId = id →
          m.command len table outcomes call arg = some (Status.errorNotImplemented, []) := by
  have hinit := Module.moduleInit_eq h.registry
  rw [lengths_plain] at hinit
  have hfound : ∀ name id,
      findByName m.registry (lengths config base) name = some (Status.success, some id) ↔
        ∃ x, m.first config base name = some x ∧ x.1.IsDriver ∧ x.2 = id := by
    intro name id
    rw [findByName_eq h]
    cases hx : m.first config base name with
    | none => simp [Status.success, Status.invalidModuleName]
    | some x =>
      by_cases hdriver : x.1.IsDriver
      · simp [hdriver]
      · simp [hdriver, Status.success, Status.invalidModuleName]
  refine ⟨lengths config base, _, hinit, hfound, ?_, ?_, ?_⟩
  · intro name hnone
    rw [findByName_eq h]
    cases hx : m.first config base name with
    | none => exact ⟨none, rfl⟩
    | some x =>
      have hdriver : ¬x.1.IsDriver := fun hdriver => hnone ⟨x, hx, hdriver⟩
      exact ⟨some x.2, by simp only [if_neg hdriver]⟩
  · intro name id hname
    obtain ⟨x, hx, hdriver, rfl⟩ := (hfound name id).1 hname
    have hmem := mem_of_first hx
    obtain ⟨api, hextended⟩ := Option.ne_none_iff_exists'.1 (h.extended_of_mem hmem hdriver)
    refine ⟨x, api, hx, hextended, fun table outcomes call arg hid => ?_⟩
    refine served_of_getAPI ?_ table outcomes arg
    rw [hid, getAPI_of_driver h hmem hdriver, hextended]
  · rintro id hid table outcomes call arg rfl
    obtain ⟨out, hout, hserved⟩ :=
      served_of_getAPI (getAPI_of_noDriver h hid) table outcomes arg
    rw [hout, show out = _ from hserved]

end Dispatch

/-- A configured driver. -/
def adcDriver : NamedModule ℕ ℕ :=
  ⟨"adc", { moduleType := 2, init := some 10, extendedApi := some ⟨some 1, some 2⟩ }⟩

/-- A base module of the same name, which is no driver. -/
def adcModule : NamedModule ℕ ℕ := ⟨"adc", { moduleType := 1, init := none, extendedApi := none }⟩

/-- The registry of the two. -/
def adcModules : Modules ℕ ℕ where
  osObjectTypeUser := 0x10
  pspModuleList := some [adcDriver.entry, ⟨none, adcDriver.api⟩]
  baseModuleList := [adcModule.entry, ⟨none, adcModule.api⟩]

/-- Functions that return the number of their command. -/
def echoing : Outcomes ℕ ℕ := ⟨fun _ args => args.commandCode.toNat, fun _ _ => 5⟩

/-- The name leads to the driver, and the id of the other module to no function. -/
theorem dispatch_agrees_of_two :
    ∃ len, findByName adcModules.registry len "adc" = some (Status.success, some 0x1100000) ∧
      (∃ out, adcModules.command len (fun _ => 7) echoing ⟨0x1100000, 3, 4, 9⟩ 6 = some out ∧
        out.1 = 9 ∧ out.2.filter Event.IsInvocation =
          [.deviceMutex 2 ⟨9, 3, 4, 6⟩, .deviceCommand 1 ⟨9, 3, 4, 6⟩]) ∧
      adcModules.command len (fun _ => 7) echoing ⟨0x110FF00, 3, 4, 9⟩ 6 =
        some (Status.errorNotImplemented, []) := by
  have holds : adcModules.Holds [adcDriver] [adcModule] :=
    { config_terminated := fun entries h => ⟨_, [], rfl, (Option.some.inj h).symm⟩
      config_null := nofun
      base_terminated := ⟨_, [], rfl, rfl⟩
      config_le := by decide
      base_le := by decide
      extended := by decide }
  obtain ⟨len, calls, -, hfound, -, hdriver, hnone⟩ := dispatch_agrees (α := ℕ) holds
  have hname := (hfound "adc" 0x1100000).2 ⟨(adcDriver, 0x1100000), rfl, rfl, rfl⟩
  obtain ⟨x, api, hx, hapi, hcall⟩ := hdriver _ _ hname
  obtain rfl : (adcDriver, 0x1100000) = x := Option.some.inj hx
  obtain rfl : (⟨some 1, some 2⟩ : DriverApi ℕ) = api := Option.some.inj hapi
  obtain ⟨out, hout, hresult, hcalls⟩ := hcall (fun _ => 7) echoing ⟨0x1100000, 3, 4, 9⟩ 6 rfl
  exact ⟨len, hname, ⟨out, hout, hresult, hcalls⟩,
    hnone 0x110FF00 (by decide) (fun _ => 7) echoing ⟨0x110FF00, 3, 4, 9⟩ 6 rfl⟩

/-! ## The steps of a command add up to the function -/

section Steps

variable {ι : Type} {m : Modules φ ψ} {len : Module.Lengths} {table : MutexTable}
  {outcomes : Outcomes ψ α} {call : Call} {arg : α} {api : DriverApi ψ} {i : ι}
  {owner : Uint32 → Option ι}

/-- The driver of the clients, for the modules and a mutex table. -/
def Modules.driver (m : Modules φ ψ) (len : Module.Lengths) (table : MutexTable) : Driver ψ where
  getAPIEntry id :=
    match m.getAPIEntry len id with
    | some (result, api) =>
        (result, api.map fun api => ⟨api.moduleType, api.extendedApi.getD defaultApi⟩)
    | none => (Status.invalidModuleId, none)
  table := table

/-- It finds the same API. -/
lemma getAPI_driver {id : Uint32} (h : m.getAPI len id = some api) :
    getAPI (m.driver len table).getAPIEntry id = api := by
  obtain ⟨⟨result, found⟩, hfound, hresult⟩ := Option.bind_eq_some_iff.1 h
  unfold getAPI Modules.driver
  simp only [hfound]
  cases found with
  | none =>
    by_cases hsuccess : result = Status.success
    · simp only [if_pos hsuccess, Option.bind_none, reduceCtorEq] at hresult
    · simp only [if_neg hsuccess, Option.some.injEq] at hresult
      exact hresult
  | some full =>
    by_cases hdriver : result = Status.success ∧ full.moduleType = moduleTypeDevicedriver
    · simp only [if_pos hdriver.1, Option.bind_some, if_pos hdriver.2] at hresult
      simp only [Option.map_some, if_pos hdriver, hresult, Option.getD_some]
    · have hdefault : defaultApi = api := by
        by_cases hsuccess : result = Status.success
        · have htype : ¬full.moduleType = moduleTypeDevicedriver :=
            fun htype => hdriver ⟨hsuccess, htype⟩
          simpa only [if_pos hsuccess, Option.bind_some, if_neg htype, Option.some.injEq]
            using hresult
        · simpa only [if_neg hsuccess, Option.some.injEq] using hresult
      simp only [Option.map_some, if_neg hdriver, hdefault]

/-- The actions of a command with the API that it finds, up to its return. -/
def commandActions (table : Fin lockTableSize → Uint32) (outcomes : Outcomes ψ α) (call : Call)
    (arg : α) (api : DriverApi ψ) : List Action :=
  match api.deviceCommand with
  | some f =>
      let args := argsOf call arg
      let mutexId := (mutexOf table outcomes call.pspModuleId args api.deviceMutex).1
      [.call call, .getApi,
        match api.deviceMutex with
        | some g => .deviceMutex (outcomes.deviceMutex g args)
        | none => .noMutex,
        if mutexId ≠ osObjectIdUndefined then .take mutexId else .skipTake, .enter,
        .leave (outcomes.deviceCommand f args),
        if mutexId ≠ osObjectIdUndefined then .give mutexId else .skipGive]
  | none => [.call call, .getApi, .notImplemented]

/-- The mutex operation that a call is. -/
def Event.lockOp : Event ψ α → Option LockOp
  | .osMutSemTake k => some (.take k)
  | .osMutSemGive k => some (.give k)
  | .deviceMutex _ _ | .deviceCommand _ _ => none

/-- What a client does by itself. -/
def alone (d : Driver ψ) (i : ι) (x : Pc ψ × (Uint32 → Option ι)) (a : Action) :
    Option (Pc ψ × (Uint32 → Option ι)) := clientStep d x.2 i x.1 a

/-- A client that acts by itself is a run of the system. -/
lemma run_of_alone [DecidableEq ι] {d : Driver ψ} {s : State ψ ι} {acts : List Action}
    {x : Pc ψ × (Uint32 → Option ι)}
    (h : Transition.run (alone d i) (s.pc i, s.owner) acts = some x) :
    Transition.run (step d) s (acts.map (i, ·)) = some ⟨Function.update s.pc i x.1, x.2⟩ := by
  induction acts generalizing s with
  | nil =>
    obtain rfl : (s.pc i, s.owner) = x := by simpa using h
    rw [List.map_nil, Transition.run_nil, Function.update_eq_self]
  | cons a acts ih =>
    obtain ⟨⟨pc, owner⟩, hstep, hrest⟩ := Transition.run_cons.1 h
    have hnext : Transition.run (step d) ⟨Function.update s.pc i pc, owner⟩ (acts.map (i, ·)) =
        some ⟨Function.update (Function.update s.pc i pc) i x.1, x.2⟩ := by
      refine ih ?_
      simp only [Function.update_self]
      exact hrest
    rw [Function.update_idem] at hnext
    exact Transition.run_cons.2 ⟨_, step_of_clientStep hstep, hnext⟩

/-- The client takes the mutex of a request, calls `DeviceCommand` and gives the mutex back. -/
lemma run_locked {d : Driver ψ} (r : Request) (result : ℤ) (hfree : owner r.mutexId = none) :
    Transition.run (alone d i) (.chosen r, owner)
      [if r.mutexId ≠ osObjectIdUndefined then .take r.mutexId else .skipTake, .enter,
        .leave result, if r.mutexId ≠ osObjectIdUndefined then .give r.mutexId else .skipGive] =
      some (.leaving (some r) result, owner) := by
  by_cases hid : r.mutexId ≠ osObjectIdUndefined
  · have htake : Locks.take owner r.mutexId i =
        some (Function.update owner r.mutexId (some i)) := Locks.take_eq_some.2 ⟨hfree, rfl⟩
    have hgive : Locks.give (Function.update owner r.mutexId (some i)) r.mutexId = owner := by
      rw [Locks.give, Function.update_idem, ← hfree, Function.update_eq_self]
    rw [if_pos hid, if_pos hid]
    refine Transition.run_cons.2 ⟨(.ready r, Function.update owner r.mutexId (some i)), ?_,
      Transition.run_cons.2 ⟨_, rfl, Transition.run_cons.2 ⟨_, rfl, Transition.run_cons.2
        ⟨(.leaving (some r) result, owner), ?_, rfl⟩⟩⟩⟩
    · simp only [alone, clientStep, and_true, if_pos hid, htake, Option.map_some]
    · simp only [alone, clientStep, and_true, if_pos hid, hgive]
  · have hnone := not_not.1 hid
    rw [if_neg hid, if_neg hid]
    exact Transition.run_cons.2 ⟨(.ready r, owner), if_pos hnone, Transition.run_cons.2 ⟨_, rfl,
      Transition.run_cons.2 ⟨_, rfl, Transition.run_cons.2 ⟨_, if_pos hnone, rfl⟩⟩⟩⟩

/-- The client goes through a command by itself and is between commands again. -/
lemma run_commandActions (hapi : m.getAPI len call.pspModuleId = some api)
    (hfree : ∀ k, owner k = none) {result : ℤ}
    (hresult : result = match api.deviceCommand with
      | some f => outcomes.deviceCommand f (argsOf call arg)
      | none => Status.errorNotImplemented) :
    Transition.run (alone (m.driver len table) i) (.idle, owner)
      (commandActions table.ids outcomes call arg api ++ [.ret result]) = some (.idle, owner) := by
  have hget : alone (m.driver len table) i (.called call, owner) .getApi =
      some (.gotApi call api, owner) := by
    simp only [alone, clientStep, getAPI_driver hapi]
  unfold commandActions
  cases hcommand : api.deviceCommand with
  | none =>
    rw [hcommand] at hresult
    have hstep : alone (m.driver len table) i (.gotApi call api, owner) .notImplemented =
        some (.leaving none result, owner) := by
      simp only [alone, clientStep, hcommand, hresult]
    exact Transition.run_cons.2 ⟨_, rfl, Transition.run_cons.2 ⟨_, hget, Transition.run_cons.2
      ⟨_, hstep, Transition.run_cons.2 ⟨_, if_pos rfl, rfl⟩⟩⟩⟩
  | some f =>
    rw [hcommand] at hresult
    simp only at hresult
    subst hresult
    refine Transition.run_cons.2 ⟨_, rfl, Transition.run_cons.2 ⟨_, hget, ?_⟩⟩
    cases hmutex : api.deviceMutex with
    | none =>
      have hask : alone (m.driver len table) i (.gotApi call api, owner) .noMutex =
          some (.chosen ⟨call, none, osObjectIdUndefined⟩, owner) := by
        simp only [alone, clientStep, hcommand, hmutex]
      exact Transition.run_cons.2 ⟨_, hask, Transition.run_concat.2
        ⟨_, run_locked _ _ (hfree _), if_pos rfl⟩⟩
    | some g =>
      have hask : alone (m.driver len table) i (.gotApi call api, owner)
          (.deviceMutex (outcomes.deviceMutex g (argsOf call arg))) =
          some (.chosen ⟨call, some (outcomes.deviceMutex g (argsOf call arg)),
            getMutexOf table.ids call.pspModuleId (outcomes.deviceMutex g (argsOf call arg))⟩,
            owner) := by
        simp only [alone, clientStep, hcommand, hmutex]
        rfl
      exact Transition.run_cons.2 ⟨_, hask, Transition.run_concat.2
        ⟨_, run_locked _ _ (hfree _), if_pos rfl⟩⟩

/-- **Left alone, the actions of a command add up to the function**: they take and give back what
it takes and gives back, return what it returns, and leave the system as it was.

**Proof sketch.** The two agree on the API and on the mutex; what is taken is given back. -/
theorem run_command [DecidableEq ι] {s : State ψ ι}
    (hapi : m.getAPI len call.pspModuleId = some api) (hidle : s.pc i = .idle)
    (hfree : ∀ k, s.owner k = none) :
    ∃ out acts, m.command len table.ids outcomes call arg = some out ∧
      acts = (commandActions table.ids outcomes call arg api ++ [Action.ret out.1]).map (i, ·) ∧
      Transition.run (step (m.driver len table)) s acts = some s ∧
      opsOf i acts = out.2.filterMap Event.lockOp := by
  have hstate : (⟨Function.update s.pc i .idle, s.owner⟩ : State ψ ι) = s := by
    rw [← hidle, Function.update_eq_self]
  rw [Modules.command, hapi, Option.map_some]
  refine ⟨_, _, rfl, rfl, ?_, ?_⟩
  · refine (run_of_alone (x := (.idle, s.owner)) ?_).trans (congrArg some hstate)
    rw [hidle]
    refine run_commandActions hapi hfree ?_
    cases api.deviceCommand with
    | none => rfl
    | some f => rfl
  · unfold commandActions
    cases api.deviceCommand with
    | none => simp [opsOf, recordOp]
    | some f =>
      cases api.deviceMutex with
      | none => simp [opsOf, recordOp, mutexOf, ifDefined, Event.lockOp]
      | some g =>
        obtain ⟨k, hk⟩ : ∃ k, getMutexOf table.ids call.pspModuleId
          (outcomes.deviceMutex g (argsOf call arg)) = k := ⟨_, rfl⟩
        by_cases hid : k = osObjectIdUndefined
        · simp [opsOf, recordOp, mutexOf, ifDefined, Event.lockOp, hk, hid]
        · simp [opsOf, recordOp, mutexOf, ifDefined, Event.lockOp, hk, hid, List.filterMap_cons]

end Steps

end CfePsp.Iodriver
