import CfePsp.Basic
import CfePsp.Lib.Locks
import CfePsp.Lib.Runs

set_option relaxedAutoImplicit false
set_option autoImplicit false

/-!
# Commands to I/O drivers

`CFE_PSP_IODriver_Command` passes a command on to the driver of a device, under a mutex that is
chosen by the module id and a hash that the driver computes. The mutex table has seven entries, so
commands to different devices may share a mutex; commands to one device with one hash have to.

## Main definitions

* `CfePsp.Iodriver.getAPI`, `CfePsp.Iodriver.getMutex`, `CfePsp.Iodriver.hashMutex` — the functions
  that a command calls.
* `CfePsp.Iodriver.step` — the steps of the commands of any number of clients.
* `CfePsp.Iodriver.opsOf` — the mutex operations of a client's latest command, read off a run.

## Main results

* `CfePsp.Iodriver.commands_serialised` — in every run, bodies with one module id and one hash
  exclude each other, and every command gives back exactly what it took.

## Design

What a driver does is not known: the result of `DeviceMutex` is data of the step that calls it, and
the body of `DeviceCommand` lies between two steps. The argument of a command is only handed on to
the driver and left out.
-/

namespace CfePsp.Iodriver

/-! ## The functions -/

section Functions

variable {φ : Type}

/-- `CFE_PSP_MODULE_TYPE_DEVICEDRIVER`. -/
def moduleTypeDevicedriver : Uint32 := 2

/-- `CFE_PSP_IODriver_API_t`; `φ` is the type of the functions it points to. -/
structure DriverApi (φ : Type) where
  deviceCommand : Option φ
  deviceMutex : Option φ

/-- `CFE_PSP_IODriver_DEFAULT_API`. -/
def defaultApi : DriverApi φ := ⟨none, none⟩

/-- `CFE_PSP_ModuleApi_t`, as far as the I/O driver looks at it. -/
structure DriverModule (φ : Type) where
  moduleType : Uint32
  extendedApi : DriverApi φ

/-- `CFE_PSP_IODriver_GetAPI`, with the return code and the module that
`CFE_PSP_Module_GetAPIEntry` has for an id. -/
def getAPI (getAPIEntry : Uint32 → ℤ × Option (DriverModule φ)) (pspModuleId : Uint32) :
    DriverApi φ :=
  match getAPIEntry pspModuleId with
  | (result, some api) =>
      if result = Status.success ∧ api.moduleType = moduleTypeDevicedriver then api.extendedApi
      else defaultApi
  | (_, none) => defaultApi

/-- `CFE_PSP_IODRIVER_LOCK_TABLE_SIZE`. -/
def lockTableSize : ℕ := 7

/-- The index into the mutex table that `CFE_PSP_IODriver_GetMutex` computes. -/
def lookupIndex (pspModuleId deviceHash : Uint32) : Uint32 :=
  let lookupId := if pspModuleId ≠ 0 then deviceHash ^^^ pspModuleId else deviceHash
  lookupId % 7

lemma lookupIndex_lt (pspModuleId deviceHash : Uint32) :
    (lookupIndex pspModuleId deviceHash).toNat < lockTableSize := by
  unfold lookupIndex lockTableSize
  rw [BitVec.toNat_umod]
  exact Nat.mod_lt _ (by decide)

/-- The name of a mutex, `DriverMutex-%02u`. -/
def mutexName (i : Fin lockTableSize) : String := "DriverMutex-0" ++ toString (i.val + 1)

/-- `iodriver_Init`: the ids that `OS_MutSemCreate` stores in the table. -/
def iodriverInit (osMutSemCreate : String → Uint32) (i : Fin lockTableSize) : Uint32 :=
  osMutSemCreate (mutexName i)

/-- The mutex table, all of whose mutexes were created. -/
structure MutexTable where
  /-- `CFE_PSP_IODriver_Mutex_Table`. -/
  ids : Fin lockTableSize → Uint32
  ids_ne : ∀ i, ids i ≠ osObjectIdUndefined

/-- The table after `iodriver_Init`, when no creation failed. -/
def MutexTable.ofInit (osMutSemCreate : String → Uint32)
    (h : ∀ i, iodriverInit osMutSemCreate i ≠ osObjectIdUndefined) : MutexTable :=
  ⟨iodriverInit osMutSemCreate, h⟩

/-- `CFE_PSP_IODriver_GetMutex`: a negative hash needs no mutex. -/
def getMutex (table : MutexTable) (pspModuleId deviceHash : Uint32) : Uint32 :=
  if deviceHash.toInt < 0 then osObjectIdUndefined
  else table.ids ⟨(lookupIndex pspModuleId deviceHash).toNat, lookupIndex_lt _ _⟩

/-- `CFE_PSP_IODriver_HashMutex`. -/
def hashMutex (startHash datum : Uint32) : Uint32 := (startHash + datum * 0x10AB) &&& 0x7FFFFFFF

end Functions

/-! ## Commands step by step -/

section Steps

variable {φ ι : Type}

/-- `CFE_PSP_IODriver_Location_t`, and the command code. -/
structure Call where
  pspModuleId : Uint32
  subsystemId : Uint16
  subchannelId : Uint16
  commandCode : Uint32
  deriving DecidableEq

/-- A command whose mutex was chosen: the result of `DeviceMutex`, if any, and `MutexId`. -/
structure Request where
  call : Call
  deviceHash : Option Uint32
  mutexId : Uint32
  deriving DecidableEq

/-- Where a client is in `CFE_PSP_IODriver_Command`. -/
inductive Pc (φ : Type)
  /-- Between commands. -/
  | idle
  /-- Before `CFE_PSP_IODriver_GetAPI`. -/
  | called (call : Call)
  /-- Before the test of `DeviceCommand`. -/
  | gotApi (call : Call) (api : DriverApi φ)
  /-- Before the take. -/
  | chosen (r : Request)
  /-- Before the call of `DeviceCommand`. -/
  | ready (r : Request)
  /-- In the body of `DeviceCommand`. -/
  | running (r : Request)
  /-- Before the give. -/
  | finished (r : Request) (result : ℤ)
  /-- Before the return; there is no request if there is no `DeviceCommand`. -/
  | leaving (r : Option Request) (result : ℤ)

/-- The actions of a client. -/
inductive Action
  | call (c : Call)
  | getApi
  | notImplemented
  | noMutex
  | deviceMutex (hash : Uint32)
  | take (m : Uint32)
  | skipTake
  | enter
  | leave (result : ℤ)
  | give (m : Uint32)
  | skipGive
  | ret (result : ℤ)

/-- The clients and the owners of the mutexes. -/
structure State (φ ι : Type) where
  pc : ι → Pc φ
  owner : Uint32 → Option ι

/-- What all clients have in common: the registry of the modules and the mutex table. -/
structure Driver (φ : Type) where
  /-- `CFE_PSP_Module_GetAPIEntry`. -/
  getAPIEntry : Uint32 → ℤ × Option (DriverModule φ)
  table : MutexTable

/-- One action of the client `i` at `pc`: where it is then, and the owners. -/
def clientStep (d : Driver φ) (owner : Uint32 → Option ι) (i : ι) :
    Pc φ → Action → Option (Pc φ × (Uint32 → Option ι))
  | .idle, .call c => some (.called c, owner)
  | .called c, .getApi => some (.gotApi c (getAPI d.getAPIEntry c.pspModuleId), owner)
  | .gotApi _ api, .notImplemented =>
      match api.deviceCommand with
      | none => some (.leaving none Status.errorNotImplemented, owner)
      | some _ => none
  | .gotApi c api, .noMutex =>
      match api.deviceCommand, api.deviceMutex with
      | some _, none => some (.chosen ⟨c, none, osObjectIdUndefined⟩, owner)
      | _, _ => none
  | .gotApi c api, .deviceMutex hash =>
      match api.deviceCommand, api.deviceMutex with
      | some _, some _ =>
          some (.chosen ⟨c, some hash, getMutex d.table c.pspModuleId hash⟩, owner)
      | _, _ => none
  | .chosen r, .take m =>
      if r.mutexId ≠ osObjectIdUndefined ∧ m = r.mutexId then
        (Locks.take owner m i).map fun owner' => (.ready r, owner')
      else none
  | .chosen r, .skipTake =>
      if r.mutexId = osObjectIdUndefined then some (.ready r, owner) else none
  | .ready r, .enter => some (.running r, owner)
  | .running r, .leave result => some (.finished r result, owner)
  | .finished r result, .give m =>
      if r.mutexId ≠ osObjectIdUndefined ∧ m = r.mutexId then
        some (.leaving (some r) result, Locks.give owner m)
      else none
  | .finished r result, .skipGive =>
      if r.mutexId = osObjectIdUndefined then some (.leaving (some r) result, owner) else none
  | .leaving _ result, .ret result' => if result' = result then some (.idle, owner) else none
  | _, _ => none

/-- A step: an action of one of the clients. -/
def step [DecidableEq ι] (d : Driver φ) (s : State φ ι) (e : ι × Action) :
    Option (State φ ι) :=
  (clientStep d s.owner e.1 (s.pc e.1) e.2).map fun (pc, owner) =>
    ⟨Function.update s.pc e.1 pc, owner⟩

/-- No client has called yet and all mutexes are free. -/
def init : State φ ι := ⟨fun _ => .idle, fun _ => none⟩

/-- The mutex operations of a command. -/
inductive LockOp
  | take (m : Uint32)
  | give (m : Uint32)
  deriving DecidableEq

/-- The mutex operations of the client's latest command, after one more event. -/
def recordOp [DecidableEq ι] (i : ι) (ops : List LockOp) (e : ι × Action) : List LockOp :=
  if e.1 = i then
    match e.2 with
    | .call _ => []
    | .take m => ops ++ [.take m]
    | .give m => ops ++ [.give m]
    | _ => ops
  else ops

/-- The mutex operations of the client's latest command in a run. -/
def opsOf [DecidableEq ι] (i : ι) (tr : List (ι × Action)) : List LockOp :=
  tr.foldl (recordOp i) []

end Steps

/-! ## What one action does -/

section OneAction

variable {φ ι : Type} {d : Driver φ} {owner owner' : Uint32 → Option ι} {i : ι} {pc pc' : Pc φ}
  {a : Action} {ops : List LockOp} {m : Uint32} {r : Request}

/-- The mutex of a request was chosen as `CFE_PSP_IODriver_Command` does. -/
def Request.Chosen (d : Driver φ) (r : Request) : Prop :=
  r.mutexId = match r.deviceHash with
    | none => osObjectIdUndefined
    | some hash => getMutex d.table r.call.pspModuleId hash

/-- The operations of a request that was taken. -/
def Request.takeOps (r : Request) : List LockOp :=
  if r.mutexId = osObjectIdUndefined then [] else [.take r.mutexId]

/-- The operations of a request that was given back. -/
def Request.lockOps (r : Request) : List LockOp :=
  if r.mutexId = osObjectIdUndefined then [] else [.take r.mutexId, .give r.mutexId]

/-- What is known at each point of a command: how the mutex was chosen and what was done to it. -/
def Pc.Knows (d : Driver φ) : Pc φ → List LockOp → Prop
  | .idle, _ => True
  | .called _, ops | .gotApi _ _, ops | .leaving none _, ops => ops = []
  | .chosen r, ops => r.Chosen d ∧ ops = []
  | .ready r, ops | .running r, ops | .finished r _, ops => r.Chosen d ∧ ops = r.takeOps
  | .leaving (some r) _, ops => r.Chosen d ∧ ops = r.lockOps

/-- The client holds the mutex: it is between its take and its give. -/
def Pc.Holds : Pc φ → Uint32 → Prop
  | .ready r, m | .running r, m | .finished r _, m => m ≠ osObjectIdUndefined ∧ r.mutexId = m
  | _, _ => False

/-- The actions that a client can do. -/
inductive ClientStep (d : Driver φ) (owner : Uint32 → Option ι) (i : ι) :
    Pc φ → Action → Pc φ → (Uint32 → Option ι) → Prop
  | call (c : Call) : ClientStep d owner i .idle (.call c) (.called c) owner
  | getApi (c : Call) : ClientStep d owner i (.called c) .getApi
      (.gotApi c (getAPI d.getAPIEntry c.pspModuleId)) owner
  | notImplemented (c : Call) (api : DriverApi φ) (h : api.deviceCommand = none) :
      ClientStep d owner i (.gotApi c api) .notImplemented
        (.leaving none Status.errorNotImplemented) owner
  | noMutex (c : Call) (api : DriverApi φ) (h : api.deviceMutex = none) :
      ClientStep d owner i (.gotApi c api) .noMutex (.chosen ⟨c, none, osObjectIdUndefined⟩) owner
  | deviceMutex (c : Call) (api : DriverApi φ) (hash : Uint32) :
      ClientStep d owner i (.gotApi c api) (.deviceMutex hash)
        (.chosen ⟨c, some hash, getMutex d.table c.pspModuleId hash⟩) owner
  | take (r : Request) (owner' : Uint32 → Option ι) (hid : r.mutexId ≠ osObjectIdUndefined)
      (htake : Locks.take owner r.mutexId i = some owner') :
      ClientStep d owner i (.chosen r) (.take r.mutexId) (.ready r) owner'
  | skipTake (r : Request) (hid : r.mutexId = osObjectIdUndefined) :
      ClientStep d owner i (.chosen r) .skipTake (.ready r) owner
  | enter (r : Request) : ClientStep d owner i (.ready r) .enter (.running r) owner
  | leave (r : Request) (result : ℤ) :
      ClientStep d owner i (.running r) (.leave result) (.finished r result) owner
  | give (r : Request) (result : ℤ) (hid : r.mutexId ≠ osObjectIdUndefined) :
      ClientStep d owner i (.finished r result) (.give r.mutexId) (.leaving (some r) result)
        (Locks.give owner r.mutexId)
  | skipGive (r : Request) (result : ℤ) (hid : r.mutexId = osObjectIdUndefined) :
      ClientStep d owner i (.finished r result) .skipGive (.leaving (some r) result) owner
  | ret (r : Option Request) (result : ℤ) :
      ClientStep d owner i (.leaving r result) (.ret result) .idle owner

/-- Every action is one of these. -/
lemma clientStep_cases (h : clientStep d owner i pc a = some (pc', owner')) :
    ClientStep d owner i pc a pc' owner' := by
  unfold clientStep at h
  split at h
  next c =>
    cases h
    exact .call c
  next c =>
    cases h
    exact .getApi c
  next c api =>
    split at h
    next hcommand =>
      cases h
      exact .notImplemented c api hcommand
    · cases h
  next c api =>
    split at h
    next hmutex =>
      cases h
      exact .noMutex c api hmutex
    · cases h
  next c api hash =>
    split at h
    next =>
      cases h
      exact .deviceMutex c api hash
    · cases h
  next r m =>
    split at h
    next hid =>
      obtain ⟨hid, rfl⟩ := hid
      obtain ⟨owner'', htake, heq⟩ := Option.map_eq_some_iff.1 h
      cases heq
      exact .take r _ hid htake
    · cases h
  next r =>
    split at h
    next hid =>
      cases h
      exact .skipTake r hid
    · cases h
  next r =>
    cases h
    exact .enter r
  next r result =>
    cases h
    exact .leave r result
  next r result m =>
    split at h
    next hid =>
      obtain ⟨hid, rfl⟩ := hid
      cases h
      exact .give r result hid
    · cases h
  next r result =>
    split at h
    next hid =>
      cases h
      exact .skipGive r result hid
    · cases h
  next r result result' =>
    split at h
    next hresult =>
      cases h
      subst hresult
      exact .ret r _
    · cases h
  · cases h

/-- An action keeps what is known of the client that does it. -/
lemma Pc.Knows.step [DecidableEq ι] (h : pc.Knows d ops)
    (hs : ClientStep d owner i pc a pc' owner') :
    pc'.Knows d (recordOp i ops (i, a)) := by
  unfold recordOp
  rw [if_pos rfl]
  cases hs with
  | call c => rfl
  | getApi c => exact h
  | notImplemented c api hcommand => exact h
  | noMutex c api hmutex => exact ⟨rfl, h⟩
  | deviceMutex c api hash => exact ⟨rfl, h⟩
  | take r owner' hid htake =>
    obtain ⟨hchosen, rfl⟩ := h
    exact ⟨hchosen, (if_neg hid).symm⟩
  | skipTake r hid =>
    obtain ⟨hchosen, rfl⟩ := h
    exact ⟨hchosen, (if_pos hid).symm⟩
  | enter r => exact h
  | leave r result => exact h
  | give r result hid =>
    obtain ⟨hchosen, rfl⟩ := h
    refine ⟨hchosen, ?_⟩
    rw [Request.takeOps, Request.lockOps, if_neg hid, if_neg hid]
    rfl
  | skipGive r result hid =>
    obtain ⟨hchosen, rfl⟩ := h
    refine ⟨hchosen, ?_⟩
    rw [Request.takeOps, Request.lockOps, if_pos hid, if_pos hid]
  | ret r result => trivial

/-- What an action does to the mutexes: nothing, or it takes the one mutex that the client then
holds, or gives back one that the client held. -/
lemma ClientStep.owners (hs : ClientStep d owner i pc a pc' owner') :
    (owner' = owner ∧ ∀ k, pc'.Holds k → pc.Holds k) ∨
    (∃ m, Locks.take owner m i = some owner' ∧ ∀ k, pc'.Holds k → k = m) ∨
    ∃ m, pc.Holds m ∧ owner' = Locks.give owner m ∧ ∀ k, ¬pc'.Holds k := by
  cases hs with
  | take r owner' hid htake =>
    exact .inr (.inl ⟨r.mutexId, htake, fun k hk => hk.2.symm⟩)
  | give r result hid =>
    exact .inr (.inr ⟨r.mutexId, ⟨hid, rfl⟩, rfl, fun k hk => hk⟩)
  | skipTake r hid =>
    -- without a mutex there is nothing to hold
    exact .inl ⟨rfl, fun k hk => absurd (hk.2.symm.trans hid) hk.1⟩
  | enter r => exact .inl ⟨rfl, fun k hk => hk⟩
  | leave r result => exact .inl ⟨rfl, fun k hk => hk⟩
  | _ => exact .inl ⟨rfl, fun k hk => hk.elim⟩

end OneAction

/-! ## The invariant of all runs -/

section Runs

variable {φ ι : Type} [DecidableEq ι] {d : Driver φ} {s u : State φ ι} {e : ι × Action}
  {tr : List (ι × Action)} {i j : ι} {r : Request}

/-- In every reachable state every client knows how its mutex was chosen and what it did with it,
and owns what it holds. -/
structure CommandInv (d : Driver φ) (tr : List (ι × Action)) (s : State φ ι) : Prop where
  knows : ∀ i, (s.pc i).Knows d (opsOf i tr)
  owned : Locks.Owned s.owner fun i m => (s.pc i).Holds m

lemma opsOf_concat (i : ι) (tr : List (ι × Action)) (e : ι × Action) :
    opsOf i (tr ++ [e]) = recordOp i (opsOf i tr) e := by
  rw [opsOf, List.foldl_append]
  rfl

lemma recordOp_of_ne {ops : List LockOp} (h : e.1 ≠ i) : recordOp i ops e = ops :=
  if_neg h

/-- A step is an action of one client, and leaves the others where they are. -/
lemma step_cases (h : step d s e = some u) :
    ∃ pc owner, ClientStep d s.owner e.1 (s.pc e.1) e.2 pc owner ∧
      u = ⟨Function.update s.pc e.1 pc, owner⟩ := by
  obtain ⟨⟨pc, owner⟩, hclient, rfl⟩ := Option.map_eq_some_iff.1 h
  exact ⟨pc, owner, clientStep_cases hclient, rfl⟩

/-- A step keeps the invariant. -/
lemma CommandInv.step (h : CommandInv d tr s) (hs : step d s e = some u) :
    CommandInv d (tr ++ [e]) u := by
  obtain ⟨pc, owner, hclient, rfl⟩ := step_cases hs
  constructor
  · intro j
    rw [opsOf_concat]
    by_cases hj : j = e.1
    · subst hj
      simp only [Function.update_self]
      exact (h.knows e.1).step hclient
    · simp only [Function.update_of_ne hj]
      rw [recordOp_of_ne (Ne.symm hj)]
      exact h.knows j
  · -- the holders other than the client that acts are the same as before
    have hother : ∀ j k, (Function.update s.pc e.1 pc j).Holds k →
        (j ≠ e.1 ∧ (s.pc j).Holds k) ∨ (j = e.1 ∧ pc.Holds k) := by
      intro j k hk
      by_cases hj : j = e.1
      · subst hj
        rw [Function.update_self] at hk
        exact .inr ⟨rfl, hk⟩
      · rw [Function.update_of_ne hj] at hk
        exact .inl ⟨hj, hk⟩
    rcases hclient.owners with ⟨rfl, hkeep⟩ | ⟨m, htake, honly⟩ | ⟨m, hheld, rfl, hnone⟩
    · refine h.owned.mono fun j k hk => ?_
      rcases hother j k hk with ⟨-, hold⟩ | ⟨rfl, hnew⟩
      · exact hold
      · exact hkeep k hnew
    · refine h.owned.take htake fun j k hk => ?_
      rcases hother j k hk with ⟨-, hold⟩ | ⟨rfl, hnew⟩
      · exact .inl hold
      · exact .inr ⟨rfl, honly k hnew⟩
    · refine h.owned.give hheld fun j k hk => ?_
      rcases hother j k hk with ⟨hne, hold⟩ | ⟨rfl, hnew⟩
      · exact ⟨hold, fun heq => hne heq.1⟩
      · exact absurd hnew (hnone k)

/-- **The invariant holds in every run** of any number of clients. -/
theorem commandInv_of_run (h : Transition.run (Iodriver.step d) init tr = some s) :
    CommandInv d tr s := by
  have hinit : CommandInv d [] (init : State φ ι) :=
    { knows := fun i => trivial
      owned := fun i m hm => hm.elim }
  exact Transition.run_invariant (P := fun tr s => CommandInv d tr s) hinit
    (fun _ _ _ _ h hs => h.step hs) h

end Runs

/-! ## Main result -/

section Serialised

variable {φ ι : Type} [DecidableEq ι] {d : Driver φ} {s : State φ ι} {tr : List (ι × Action)}
  {i j : ι} {r r' : Request} {hash m : Uint32}

/-- The request of a command, once its mutex is chosen. -/
def Pc.request : Pc φ → Option Request
  | .chosen r | .ready r | .running r | .finished r _ => some r
  | .leaving r _ => r
  | _ => none

/-- A command needs no mutex when its driver has no `DeviceMutex` or returned a negative hash. -/
def Request.Unlocked (r : Request) : Prop :=
  match r.deviceHash with
  | none => True
  | some hash => hash.toInt < 0

/-- A non-negative hash leads to the mutex of the table. -/
lemma getMutex_ne (d : Driver φ) (id : Uint32) (hhash : 0 ≤ hash.toInt) :
    getMutex d.table id hash ≠ osObjectIdUndefined := by
  rw [getMutex, if_neg (not_lt.2 hhash)]
  exact d.table.ids_ne _

lemma Request.Chosen.mutexId_of_unlocked (h : r.Chosen d) (hunlocked : r.Unlocked) :
    r.mutexId = osObjectIdUndefined := by
  unfold Request.Chosen at h
  unfold Request.Unlocked at hunlocked
  cases hhash : r.deviceHash with
  | none => rwa [hhash] at h
  | some hash =>
    rw [hhash] at h hunlocked
    exact h.trans (if_pos hunlocked)

lemma Request.Chosen.mutexId_of_some (h : r.Chosen d) (hhash : r.deviceHash = some hash) :
    r.mutexId = getMutex d.table r.call.pspModuleId hash := by
  unfold Request.Chosen at h
  rwa [hhash] at h

/-- What is known of a request whose command is under way. -/
lemma chosen_of_request {pc : Pc φ} {ops : List LockOp} (h : pc.Knows d ops)
    (hr : pc.request = some r) : r.Chosen d ∧ (r.mutexId = osObjectIdUndefined → ops = []) := by
  cases pc with
  | idle => cases hr
  | called c => cases hr
  | gotApi c api => cases hr
  | chosen r => cases hr; exact ⟨h.1, fun _ => h.2⟩
  | ready r => cases hr; exact ⟨h.1, fun hid => h.2.trans (if_pos hid)⟩
  | running r => cases hr; exact ⟨h.1, fun hid => h.2.trans (if_pos hid)⟩
  | finished r result => cases hr; exact ⟨h.1, fun hid => h.2.trans (if_pos hid)⟩
  | leaving r result => cases hr; exact ⟨h.1, fun hid => h.2.trans (if_pos hid)⟩

/-- A client in the body of a command with a hash holds the mutex of its device. -/
lemma holds_of_running (h : CommandInv d tr s) (hpc : s.pc i = .running r)
    (hhash : r.deviceHash = some hash) (hpos : 0 ≤ hash.toInt) :
    (s.pc i).Holds (getMutex d.table r.call.pspModuleId hash) := by
  have hknows := h.knows i
  rw [hpc] at hknows ⊢
  exact ⟨getMutex_ne d _ hpos, hknows.1.mutexId_of_some hhash⟩

/-- An action that the client can do is a step of the system. -/
lemma step_of_clientStep {a : Action} {pc : Pc φ} {owner : Uint32 → Option ι}
    (h : clientStep d s.owner i (s.pc i) a = some (pc, owner)) :
    step d s (i, a) = some ⟨Function.update s.pc i pc, owner⟩ := by
  rw [step, h]
  rfl

/-- A client in front of its give can do it. -/
lemma gives_of_finished {result : ℤ} (hpc : s.pc i = .finished r result)
    (hid : r.mutexId ≠ osObjectIdUndefined) :
    ∃ u, Transition.run (step d) s [(i, .give r.mutexId)] = some u ∧
      u.pc i = .leaving (some r) result := by
  have hstep : step d s (i, .give r.mutexId) =
      some ⟨Function.update s.pc i (.leaving (some r) result), Locks.give s.owner r.mutexId⟩ := by
    refine step_of_clientStep ?_
    rw [hpc]
    exact if_pos ⟨hid, rfl⟩
  exact ⟨_, Transition.run_cons.2 ⟨_, hstep, rfl⟩, Function.update_self _ _ _⟩

/-- A client in the body of its command comes to its give without waiting. -/
lemma gives_of_running (hpc : s.pc i = .running r) (hid : r.mutexId ≠ osObjectIdUndefined) :
    ∃ u, Transition.run (step d) s [(i, .leave 0), (i, .give r.mutexId)] = some u ∧
      u.pc i = .leaving (some r) 0 := by
  have hstep : step d s (i, .leave 0) =
      some ⟨Function.update s.pc i (.finished r 0), s.owner⟩ := by
    refine step_of_clientStep ?_
    rw [hpc]
    rfl
  obtain ⟨u, hu, hleaving⟩ := gives_of_finished (d := d)
    (s := ⟨Function.update s.pc i (.finished r 0), s.owner⟩) (Function.update_self _ _ _) hid
  exact ⟨u, Transition.run_cons.2 ⟨_, hstep, hu⟩, hleaving⟩

/-- A client that holds a mutex can do the rest of its command up to the give, whatever the others
do. -/
lemma gives_of_holds (hholds : (s.pc i).Holds m) :
    ∃ es u r result, (∀ e ∈ es, e.1 = i) ∧ Transition.run (step d) s es = some u ∧
      u.pc i = .leaving (some r) result ∧ r.mutexId = m ∧ m ≠ osObjectIdUndefined := by
  cases hpc : s.pc i with
  | ready r =>
    rw [hpc] at hholds
    obtain ⟨hid, rfl⟩ := hholds
    have hstep : step d s (i, .enter) = some ⟨Function.update s.pc i (.running r), s.owner⟩ := by
      refine step_of_clientStep ?_
      rw [hpc]
      rfl
    obtain ⟨u, hu, hleaving⟩ := gives_of_running (d := d)
      (s := ⟨Function.update s.pc i (.running r), s.owner⟩) (Function.update_self _ _ _) hid
    exact ⟨_, u, r, 0, by simp, Transition.run_cons.2 ⟨_, hstep, hu⟩, hleaving, rfl, hid⟩
  | running r =>
    rw [hpc] at hholds
    obtain ⟨hid, rfl⟩ := hholds
    obtain ⟨u, hu, hleaving⟩ := gives_of_running (d := d) hpc hid
    exact ⟨_, u, r, 0, by simp, hu, hleaving, rfl, hid⟩
  | finished r result =>
    rw [hpc] at hholds
    obtain ⟨hid, rfl⟩ := hholds
    obtain ⟨u, hu, hleaving⟩ := gives_of_finished (d := d) hpc hid
    exact ⟨_, u, r, result, by simp, hu, hleaving, rfl, hid⟩
  | _ =>
    rw [hpc] at hholds
    exact hholds.elim

/-- The operations of a command that is about to return. -/
lemma opsOf_of_leaving (h : CommandInv d tr s) {result : ℤ}
    (hpc : s.pc i = .leaving (some r) result) : opsOf i tr = r.lockOps := by
  have hknows := h.knows i
  rw [hpc] at hknows
  exact hknows.2

/-- **Commands to one device are serialised.** In every run of the commands of any number of
clients: two bodies with the same module id and the same non-negative hash are those of one client;
a command that returns has taken and given back one mutex, or touched none; a client that holds a
mutex gives it back by steps of its own; a command without `DeviceMutex` or with a negative hash
touches no mutex; and the index into the mutex table is in range. -/
theorem commands_serialised (hrun : Transition.run (step d) init tr = some s) :
    (∀ i j r r' hash, s.pc i = .running r → s.pc j = .running r' →
      r.call.pspModuleId = r'.call.pspModuleId → r.deviceHash = some hash →
      r'.deviceHash = some hash → 0 ≤ hash.toInt → i = j) ∧
    (∀ i r result, s.pc i = .leaving (some r) result →
      opsOf i tr = [] ∨ ∃ m, opsOf i tr = [.take m, .give m]) ∧
    (∀ i m, (s.pc i).Holds m → opsOf i tr = [.take m] ∧
      ∃ es u, (∀ e ∈ es, e.1 = i) ∧ Transition.run (step d) s es = some u ∧
        opsOf i (tr ++ es) = [.take m, .give m]) ∧
    (∀ i r, (s.pc i).request = some r → r.Unlocked → opsOf i tr = []) ∧
    ∀ id hash, (lookupIndex id hash).toNat < lockTableSize := by
  have hinv := commandInv_of_run hrun
  refine ⟨?_, ?_, ?_, ?_, lookupIndex_lt⟩
  · intro i j r r' hash hi hj hid hr hr' hpos
    have hiholds := holds_of_running hinv hi hr hpos
    have hjholds := holds_of_running hinv hj hr' hpos
    rw [← hid] at hjholds
    exact hinv.owned.exclusive hiholds hjholds
  · intro i r result hpc
    rw [opsOf_of_leaving hinv hpc, Request.lockOps]
    by_cases hid : r.mutexId = osObjectIdUndefined
    · exact .inl (if_pos hid)
    · exact .inr ⟨r.mutexId, if_neg hid⟩
  · intro i m hholds
    obtain ⟨es, u, r, result, hown, hes, hleaving, rfl, hid⟩ := gives_of_holds (d := d) hholds
    have hends := opsOf_of_leaving (commandInv_of_run (Transition.run_append.2 ⟨s, hrun, hes⟩))
      hleaving
    rw [Request.lockOps, if_neg hid] at hends
    refine ⟨?_, es, u, hown, hes, hends⟩
    have hknows := hinv.knows i
    cases hpc : s.pc i with
    | ready r' =>
      rw [hpc] at hknows hholds
      rw [hknows.2, Request.takeOps, hholds.2, if_neg hid]
    | running r' =>
      rw [hpc] at hknows hholds
      rw [hknows.2, Request.takeOps, hholds.2, if_neg hid]
    | finished r' result =>
      rw [hpc] at hknows hholds
      rw [hknows.2, Request.takeOps, hholds.2, if_neg hid]
    | _ =>
      rw [hpc] at hholds
      exact hholds.elim
  · intro i r hr hunlocked
    obtain ⟨hchosen, hnone⟩ := chosen_of_request (hinv.knows i) hr
    exact hnone (hchosen.mutexId_of_unlocked hunlocked)

end Serialised

/-- The hash function that drivers may use never asks for no mutex. -/
lemma hashMutex_nonneg (startHash datum : Uint32) : 0 ≤ (hashMutex startHash datum).toInt := by
  have hlt : (hashMutex startHash datum).toNat < 2 ^ 31 := by
    have hmask := Window.toNat_and_mask (w := 32) (k := 31) (by omega)
      (startHash + datum * 0x10AB)
    have hmod := Nat.mod_lt (startHash + datum * 0x10AB).toNat (Nat.two_pow_pos 31)
    rw [hashMutex]
    exact hmask.trans_lt hmod
  rw [BitVec.toInt_eq_toNat_of_lt (by omega)]
  exact Int.natCast_nonneg _

/-- A driver with one device, whose commands need a mutex. -/
def sampleDriver : Driver ℕ where
  getAPIEntry _ := (Status.success, some ⟨moduleTypeDevicedriver, ⟨some 1, some 2⟩⟩)
  -- the OSAL numbers its mutexes from the last digit of their names
  table := .ofInit (fun name => 0x10000 + BitVec.ofNat 32 ((name.toList.getD 13 '0').toNat - 49))
    (by decide)

/-- Two clients: the first is in the body of its command, the second before its take. -/
def twoCommands : List (Bool × Action) :=
  [(false, .call ⟨0x1100000, 0, 0, 1⟩), (false, .getApi), (false, .deviceMutex 5),
    (true, .call ⟨0x1100000, 0, 1, 2⟩), (true, .getApi), (true, .deviceMutex 5),
    (false, .take 0x10003), (false, .enter)]

/-- The first client goes on to the end of its command, and the second one enters its body. -/
def secondEnters : List (Bool × Action) :=
  [(false, .leave 0), (false, .give 0x10003), (true, .take 0x10003), (true, .enter)]

/-- While the first client is in its body the second one cannot take the mutex; when the second one
is in its body, the first one has given the mutex back. -/
theorem commands_serialised_of_two :
    ∃ s u, Transition.run (step sampleDriver) init twoCommands = some s ∧
      step sampleDriver s (true, .take 0x10003) = none ∧
      (¬∃ r, s.pc true = .running r ∧ r.call.pspModuleId = 0x1100000 ∧ r.deviceHash = some 5) ∧
      Transition.run (step sampleDriver) init (twoCommands ++ secondEnters) = some u ∧
      (∃ r, u.pc true = .running r ∧ r.call.pspModuleId = 0x1100000 ∧ r.deviceHash = some 5) ∧
      (¬∃ r, u.pc false = .running r ∧ r.call.pspModuleId = 0x1100000 ∧ r.deviceHash = some 5) ∧
      opsOf true (twoCommands ++ secondEnters) = [.take 0x10003] ∧
      (opsOf false (twoCommands ++ secondEnters) = [] ∨
        ∃ m, opsOf false (twoCommands ++ secondEnters) = [.take m, .give m]) := by
  have hrun : Transition.run (step sampleDriver) init twoCommands = some _ := rfl
  have hlater : Transition.run (step sampleDriver) init (twoCommands ++ secondEnters) = some _ :=
    rfl
  refine ⟨_, _, rfl, rfl, ?_, rfl, ⟨_, rfl, rfl, rfl⟩, ?_, ?_, ?_⟩
  · rintro ⟨r, hpc, hid, hhash⟩
    have hsame := (commands_serialised hrun).1 false true _ r 5 rfl hpc hid.symm rfl hhash
      (by decide)
    cases hsame
  · rintro ⟨r, hpc, hid, hhash⟩
    have hsame := (commands_serialised hlater).1 true false _ r 5 rfl hpc hid.symm rfl hhash
      (by decide)
    cases hsame
  · exact ((commands_serialised hlater).2.2.1 true 0x10003 ⟨by decide, rfl⟩).1
  · exact (commands_serialised hlater).2.1 false _ 0 rfl

end CfePsp.Iodriver
