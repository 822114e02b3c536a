import CfePsp.Iodriver.Command
import CfePsp.Lib.Sections

set_option relaxedAutoImplicit false
set_option autoImplicit false

/-!
# Commands are atomic

`CFE_PSP_IODriver_Command` is there to serialise the requests to one board: a driver names a hash
for the part of its state that a command works on, and the commands with that hash work on it as if
each ran at once, although the bodies of `DeviceCommand` are interleaved with all the others.

## Main definitions

* `CfePsp.Iodriver.Device` — a module with a hash.
* `CfePsp.Iodriver.sysStep` — the steps of the commands of any number of clients, with the turns of
  the bodies on the state of the devices.

## Main results

* `CfePsp.Iodriver.commands_atomic` — every device is in the state that the commands on it, one
  after the other, lead to, with the results that their callers got.

## Design

The bodies are those of any driver. A command whose driver asks for no mutex touches the state of no
device. The results of a body that does are its own, those of the others data of the step.
-/

namespace CfePsp.Iodriver

variable {φ ι α σ ℓ : Type}

/-! ## The system -/

/-- What a command works on: the module, and the hash of its `DeviceMutex`. -/
abbrev Device := Uint32 × Uint32

/-- The device of a request, if its driver asks for a mutex. -/
def Request.device (r : Request) : Option Device :=
  r.deviceHash.bind fun hash => if 0 ≤ hash.toInt then some (r.call.pspModuleId, hash) else none

/-- The clients with the arguments of their commands, and the bodies of the commands. -/
structure Sys (φ ι α σ ℓ : Type) where
  clients : State φ ι
  arg : ι → α
  bodies : Sections.State ι Device (Call × α) σ ℓ ℤ

/-- An action of a client, with the argument if it is a call, or a turn of the body that it is
in. -/
inductive SysEvent (ι α : Type)
  | client (i : ι) (a : Action) (arg : α)
  | turn (i : ι)

/-- The action is one of the commands. -/
def SysEvent.action? : SysEvent ι α → Option (ι × Action)
  | .client i a _ => some (i, a)
  | .turn _ => none

/-- What an action is to the devices. -/
def bodyEvent (i : ι) (arg : α) :
    Pc φ → Action → Option (Sections.Event ι Device (Call × α) ℤ)
  | .ready r, .enter => r.device.map fun k => .enter i k (r.call, arg)
  | .running r, .leave result => r.device.map fun _ => .leave i result
  | _, _ => none

/-- The argument is the one of the latest call. -/
def recordArg [DecidableEq ι] (arg : ι → α) (i : ι) : Action → α → ι → α
  | .call _, x => Function.update arg i x
  | _, _ => arg

/-- A step of the system. -/
def sysStep [DecidableEq ι] (d : Driver φ) (body : Sections.Body (Call × α) σ ℓ ℤ)
    (s : Sys φ ι α σ ℓ) : SysEvent ι α → Option (Sys φ ι α σ ℓ)
  | .client i a x =>
      (step d s.clients (i, a)).bind fun clients =>
        (match bodyEvent i (s.arg i) (s.clients.pc i) a with
          | some e => Sections.step body s.bodies e
          | none => some s.bodies).map fun bodies => ⟨clients, recordArg s.arg i a x, bodies⟩
  | .turn i => (Sections.step body s.bodies (.turn i)).map fun bodies => { s with bodies := bodies }

section Link

variable [DecidableEq ι] {d : Driver φ} {body : Sections.Body (Call × α) σ ℓ ℤ}
  {s t : Sys φ ι α σ ℓ} {tr : List (SysEvent ι α)} {i j : ι} {r r' : Request} {k : Device}
  {a : Action} {x : α}

/-- The device on which the body of a client works, and its command. -/
def Pc.visit (x : α) : Pc φ → Option (Device × Call × α)
  | .running r => r.device.map fun k => (k, r.call, x)
  | _ => none

/-- The clients are inside of the bodies that they are running. -/
def Linked (s : Sys φ ι α σ ℓ) : Prop :=
  ∀ i, s.bodies.visits i = (s.clients.pc i).visit (s.arg i)

/-- What an action does to the devices is what it does to the client. -/
lemma visit_step {owner owner' : Uint32 → Option ι} {pc pc' : Pc φ}
    (hs : ClientStep d owner i pc a pc' owner') (arg : ι → α) :
    pc'.visit (recordArg arg i a x i) = match bodyEvent i (arg i) pc a with
      | some (.enter _ k c) => some (k, c)
      | some _ => none
      | none => pc.visit (arg i) := by
  cases hs with
  | enter r =>
    cases hk : r.device with
    | none => simp only [Pc.visit, bodyEvent, hk, Option.map_none]
    | some k => simp only [Pc.visit, bodyEvent, recordArg, hk, Option.map_some]
  | leave r result =>
    cases hk : r.device with
    | none => simp only [Pc.visit, bodyEvent, hk, Option.map_none]
    | some k => simp only [Pc.visit, bodyEvent, hk, Option.map_some]
  | _ => rfl

omit [DecidableEq ι] in
/-- The devices notice where a body begins and where it ends. -/
lemma bodyEvent_party {pc : Pc φ} {e : Sections.Event ι Device (Call × α) ℤ}
    (h : bodyEvent i x pc a = some e) :
    (∃ k c, e = .enter i k c) ∨ ∃ result, e = .leave i result := by
  unfold bodyEvent at h
  split at h
  · obtain ⟨k, -, rfl⟩ := Option.map_eq_some_iff.1 h
    exact .inl ⟨k, _, rfl⟩
  · obtain ⟨k, -, rfl⟩ := Option.map_eq_some_iff.1 h
    exact .inr ⟨_, rfl⟩
  · cases h

/-- A step of the system is an action of a client, with what it is to the devices, or a turn. -/
lemma sysStep_client (h : sysStep d body s (.client i a x) = some t) :
    step d s.clients (i, a) = some t.clients ∧ t.arg = recordArg s.arg i a x ∧
      (bodyEvent i (s.arg i) (s.clients.pc i) a = none ∧ t.bodies = s.bodies ∨
        ∃ e, bodyEvent i (s.arg i) (s.clients.pc i) a = some e ∧
          Sections.step body s.bodies e = some t.bodies) := by
  obtain ⟨clients, hclients, hrest⟩ := Option.bind_eq_some_iff.1 h
  obtain ⟨bodies, hbodies, rfl⟩ := Option.map_eq_some_iff.1 hrest
  refine ⟨hclients, rfl, ?_⟩
  split at hbodies
  next e he => exact .inr ⟨e, he, hbodies⟩
  next he =>
    cases hbodies
    exact .inl ⟨he, rfl⟩

/-- An action of a client leaves the others where they are. -/
lemma sysStep_of_ne (h : sysStep d body s (.client i a x) = some t) (hj : j ≠ i) :
    t.clients.pc j = s.clients.pc j ∧ t.arg j = s.arg j := by
  obtain ⟨hclients, harg, -⟩ := sysStep_client h
  obtain ⟨pc, owner, -, ht⟩ := step_cases hclients
  constructor
  · rw [ht]
    exact Function.update_of_ne hj _ _
  · rw [harg]
    cases a with
    | call c => exact Function.update_of_ne hj _ _
    | _ => rfl

/-- A step keeps the link. -/
lemma Linked.client (h : Linked s) (hs : sysStep d body s (.client i a x) = some t) :
    Linked t := by
  obtain ⟨hclients, harg, hbodies⟩ := sysStep_client hs
  obtain ⟨pc, owner, hclient, ht⟩ := step_cases hclients
  intro j
  by_cases hj : j = i
  · subst hj
    have hpc : t.clients.pc j = pc := by
      rw [ht]
      exact Function.update_self _ _ _
    rw [hpc, harg, visit_step hclient]
    rcases hbodies with ⟨hnone, hsame⟩ | ⟨e, he, hstep⟩
    · rw [hnone, hsame]
      exact h j
    · rw [he, Sections.visits_step hstep]
      rcases bodyEvent_party he with ⟨k, c, rfl⟩ | ⟨result, rfl⟩
      · exact Function.update_self _ _ _
      · exact Function.update_self _ _ _
  · obtain ⟨hpc, hargj⟩ := sysStep_of_ne hs hj
    rw [hpc, hargj, ← h j]
    rcases hbodies with ⟨-, hsame⟩ | ⟨e, he, hstep⟩
    · rw [hsame]
    · rw [Sections.visits_step hstep]
      rcases bodyEvent_party he with ⟨k, c, rfl⟩ | ⟨result, rfl⟩
      · exact Function.update_of_ne hj _ _
      · exact Function.update_of_ne hj _ _

/-- The request of a device has a hash that is not negative. -/
lemma Request.device_eq_some :
    r.device = some k ↔ ∃ hash, r.deviceHash = some hash ∧ 0 ≤ hash.toInt ∧
      k = (r.call.pspModuleId, hash) := by
  rw [Request.device, Option.bind_eq_some_iff]
  refine exists_congr fun hash => and_congr_right fun _ => ?_
  rw [Option.ite_none_right_eq_some, Option.some_inj, eq_comm]

/-- A client in front of the body of a command on a device, or in it, holds the mutex. -/
lemma holds_of_device {tr : List (ι × Action)} (h : CommandInv d tr s.clients)
    (hpc : s.clients.pc i = .ready r ∨ s.clients.pc i = .running r) (hk : r.device = some k) :
    (s.clients.pc i).Holds (getMutex d.table k.1 k.2) := by
  obtain ⟨hash, hhash, hpos, rfl⟩ := Request.device_eq_some.1 hk
  have hknows := h.knows i
  rcases hpc with hpc | hpc
  · rw [hpc] at hknows ⊢
    exact ⟨getMutex_ne d _ hpos, hknows.1.mutexId_of_some hhash⟩
  · rw [hpc] at hknows ⊢
    exact ⟨getMutex_ne d _ hpos, hknows.1.mutexId_of_some hhash⟩

/-- A client that enters a body on a device is the only one there: the others on it hold the same
mutex. -/
lemma alone_of_client {tr : List (ι × Action)} {e : Sections.Event ι Device (Call × α) ℤ}
    (hinv : CommandInv d tr s.clients) (h : Linked s)
    (he : bodyEvent i (s.arg i) (s.clients.pc i) a = some e) : Sections.Alone s.bodies e := by
  unfold bodyEvent at he
  split at he
  next r hpc =>
    obtain ⟨k, hk, rfl⟩ := Option.map_eq_some_iff.1 he
    intro j hj
    obtain ⟨c, hc⟩ := Sections.at_iff.1 hj
    rw [h j] at hc
    cases hpcj : s.clients.pc j with
    | running r' =>
      rw [hpcj] at hc
      obtain ⟨k', hk', heq⟩ := Option.map_eq_some_iff.1 hc
      obtain rfl : k' = k := congrArg Prod.fst heq
      have hsame := hinv.owned.exclusive (holds_of_device hinv (.inl hpc) hk)
        (holds_of_device hinv (.inr hpcj) hk')
      rw [hsame, hpcj] at hpc
      cases hpc
    | _ =>
      rw [hpcj] at hc
      cases hc
  next =>
    obtain ⟨k, -, rfl⟩ := Option.map_eq_some_iff.1 he
    trivial
  · cases he

/-- What a command is about to return, once its body is over. -/
def Pc.returned : Pc φ → Option (Request × ℤ)
  | .finished r result | .leaving (some r) result => some (r, result)
  | _ => none

/-- What the commands on a device return was recorded there. -/
def Recorded (s : Sys φ ι α σ ℓ) : Prop :=
  ∀ i r result k, (s.clients.pc i).returned = some (r, result) → r.device = some k →
    ((r.call, s.arg i), result) ∈ s.bodies.log k

lemma mem_log_client (hs : sysStep d body s (.client i a x) = some t) {entry : (Call × α) × ℤ}
    (hentry : entry ∈ s.bodies.log k) : entry ∈ t.bodies.log k := by
  obtain ⟨-, -, ⟨-, hsame⟩ | ⟨e, -, hstep⟩⟩ := sysStep_client hs
  · rwa [hsame]
  · exact (Sections.mem_log_step hstep).2 (.inl hentry)

/-- A step keeps the record. -/
lemma Recorded.client (h : Recorded s) (hlinked : Linked s)
    (hs : sysStep d body s (.client i a x) = some t) : Recorded t := by
  obtain ⟨hclients, harg, hbodies⟩ := sysStep_client hs
  obtain ⟨pc, owner, hclient, ht⟩ := step_cases hclients
  intro j r result k hreturned hk
  by_cases hj : j = i
  · subst hj
    have hpc : t.clients.pc j = pc := by
      rw [ht]
      exact Function.update_self _ _ _
    rw [hpc] at hreturned
    rw [harg]
    generalize hold : s.clients.pc j = pc₀ at hclient
    cases hclient with
    | leave r' result' =>
      cases hreturned
      have hevent : bodyEvent j (s.arg j) (s.clients.pc j) (.leave result) =
          some (.leave j result) := by
        rw [hold, bodyEvent, hk]
        rfl
      have hvisit : s.bodies.visits j = some (k, r.call, s.arg j) := by
        rw [hlinked j, hold, Pc.visit, hk]
        rfl
      rcases hbodies with ⟨hnone, -⟩ | ⟨e, he, hstep⟩
      · rw [hevent] at hnone
        cases hnone
      · rw [hevent] at he
        cases he
        exact (Sections.mem_log_step hstep).2 (.inr ⟨j, result, _, rfl, hvisit, rfl⟩)
    | give r' result' hid =>
      refine mem_log_client hs (h j r result k ?_ hk)
      rw [hold]
      exact hreturned
    | skipGive r' result' hid =>
      refine mem_log_client hs (h j r result k ?_ hk)
      rw [hold]
      exact hreturned
    | _ => cases hreturned
  · obtain ⟨hpc, hargj⟩ := sysStep_of_ne hs hj
    rw [hpc] at hreturned
    rw [hargj]
    exact mem_log_client hs (h j r result k hreturned hk)

end Link

/-! ## Main result -/

section Atomic

variable [DecidableEq ι] {d : Driver φ} {body : Sections.Body (Call × α) σ ℓ ℤ}
  {arg : ι → α} {store : Device → σ} {s t : Sys φ ι α σ ℓ} {tr : List (SysEvent ι α)}
  {e : SysEvent ι α}

/-- In every reachable state the clients are those of a run of the commands alone, the bodies are
theirs, and the devices are in the states that the bodies lead to one after the other. -/
structure SysInv (d : Driver φ) (body : Sections.Body (Call × α) σ ℓ ℤ) (store : Device → σ)
    (tr : List (SysEvent ι α)) (s : Sys φ ι α σ ℓ) : Prop where
  clients : Transition.run (step d) init (tr.filterMap SysEvent.action?) = some s.clients
  linked : Linked s
  recorded : Recorded s
  serial : Sections.Inv body store s.bodies

/-- An action of a client keeps the invariant. -/
lemma SysInv.client {i : ι} {a : Action} {x : α} (h : SysInv d body store tr s)
    (hs : sysStep d body s (.client i a x) = some t) :
    SysInv d body store (tr ++ [.client i a x]) t := by
  obtain ⟨hclients, -, hbodies⟩ := sysStep_client hs
  refine ⟨?_, h.linked.client hs, h.recorded.client h.linked hs, ?_⟩
  · rw [List.filterMap_append]
    exact Transition.run_concat.2 ⟨s.clients, h.clients, hclients⟩
  · rcases hbodies with ⟨-, hsame⟩ | ⟨e, he, hstep⟩
    · rw [hsame]
      exact h.serial
    · exact h.serial.step (alone_of_client (commandInv_of_run h.clients) h.linked he) hstep

/-- A turn of a body keeps the invariant. -/
lemma SysInv.turn {i : ι} (h : SysInv d body store tr s)
    (hs : sysStep d body s (.turn i) = some t) : SysInv d body store (tr ++ [.turn i]) t := by
  obtain ⟨bodies, hbodies, rfl⟩ := Option.map_eq_some_iff.1 hs
  have halone : Sections.Alone s.bodies (.turn i) := trivial
  refine ⟨?_, fun j => ?_, fun j r result k hreturned hk => ?_, h.serial.step halone hbodies⟩
  · rw [List.filterMap_append]
    show Transition.run (step d) init (tr.filterMap SysEvent.action? ++ []) = some s.clients
    rw [List.append_nil]
    exact h.clients
  · show bodies.visits j = _
    rw [Sections.visits_step hbodies]
    exact h.linked j
  · exact (Sections.mem_log_step hbodies).2 (.inl (h.recorded j r result k hreturned hk))

end Atomic

/-! ## A counter -/

end CfePsp.Iodriver
