import CfePsp.Lib.Layout
import CfePsp.Lib.SharedObjects
import CfePsp.PcLinux.Boot

set_option relaxedAutoImplicit false
set_option autoImplicit false

/-!
# The shared memory segments of the Linux port

The reserved memory lies in three System V segments. A boot gets each of them by its key, so that it
finds the one the session before it used, or creates a new one. `CFE_PSP_Restart` removes them for a
power-on reset, and only then records the reset type, through the memory that it is still attached
to; meanwhile the other tasks go on, and may themselves restart the processor.

## Main definitions

* `CfePsp.PcLinux.SharedMemory.setupReservedMemoryMap` — `CFE_PSP_SetupReservedMemoryMap`.
* `CfePsp.PcLinux.SharedMemory.restartActions` — what `CFE_PSP_Restart` does, one thing after the
  other.
* `CfePsp.PcLinux.SharedMemory.step` — the steps of boots and of the tasks of a session.
* `CfePsp.PcLinux.SharedMemory.Inv` — what is attached, and what of it has been removed.

## Main results

* `CfePsp.PcLinux.SharedMemory.segments_found` — a boot finds each segment as the last session left
  it, or new if the session removed it.
* `CfePsp.PcLinux.SharedMemory.nextReset_of_session` — the reset type of the next boot without a
  reset option.
* `CfePsp.PcLinux.SharedMemory.restart_refined` — a restart that nothing comes between, and whose
  removals succeed, is the one of `CfePsp.PcLinux.restart`.
* `CfePsp.PcLinux.SharedMemory.resetArea_layout` — the blocks in the segment of the reset area.

## Design

The contents of a segment are those of the whole reserved memory, of which only the blocks of its
own key are used. The key files are there and are left alone. `shmget` and `shmat` may fail for
reasons of the system; `shmget` also fails on a segment that is too small, and does not create one
of size zero. The removal of a segment may fail. The system runs one process of the cFE at a time,
which may end anywhere. All boots place the blocks of the reset area in the same way, as they are of
one build of the PSP and find one page size; the sizes of the other blocks may change.
-/

namespace CfePsp.PcLinux.SharedMemory

open SharedObjects Transition

/-! ## Segments -/

/-- The keys of the segments. -/
inductive Key
  | cds
  | resetArea
  | userReserved
  deriving DecidableEq

/-- The segment that a block is in. -/
def areaKey : Area → Key
  | .reset | .exception => .resetArea
  | .userReserved => .userReserved

/-- The segment that a store of the initialisation goes to. -/
def storeKey : Store → Key
  | .clearCds _ => .cds
  | .clearArea a _ => areaKey a
  | .clearFlag _ | .clearType _ | .setType _ | .setFlag _ => .resetArea

/-- The reserved memory whose blocks are taken from the segments of their keys. -/
def merge (f : Key → Segments) : Segments where
  validityFlag := (f .resetArea).validityFlag
  nextResetType := (f .resetArea).nextResetType
  cds := (f .cds).cds
  area := fun a => (f (areaKey a)).area a

/-- The blocks of one key. -/
def only (k : Key) (m : Segments) : Segments := merge fun k' => if k' = k then m else 0

/-- The sizes of the segments, with those that the compiler and the system decide. -/
structure ShmLayout extends Layout where
  /-- `sizeof(CFE_PSP_LinuxReservedAreaFixedLayout_t)`. -/
  fixedSize : ℕ
  /-- The binary logarithm of `sysconf(_SC_PAGESIZE)`. -/
  pageBits : ℕ

/-- The two layouts place the blocks of the reset area in the same way. -/
def ShmLayout.SameBuild (l l' : ShmLayout) : Prop :=
  l.fixedSize = l'.fixedSize ∧ l.pageBits = l'.pageBits

instance (l l' : ShmLayout) : Decidable (l.SameBuild l') := inferInstanceAs (Decidable (_ ∧ _))

/-- A segment. -/
structure Segment where
  size : ℕ
  mem : Segments

/-- What the system refuses a boot. -/
structure Refused where
  shmget : Key → Bool
  shmat : Key → Bool

/-- The system refuses nothing. -/
def Refused.nothing : Refused := ⟨fun _ => false, fun _ => false⟩

/-- `shmget` with `IPC_CREAT`, and `shmat`: the segment that is attached, if there is one. -/
def initSegment (r : Refused) (size : ℕ) (k : Key) (t : Table Key Segment) :
    Table Key Segment × Option ℕ :=
  if r.shmget k then (t, none)
  else
    match t.get (fun g => size ≤ g.size) (if size = 0 then none else some ⟨size, 0⟩) k with
    | some (id, t') => (t', if r.shmat k then none else some id)
    | none => (t, none)

/-- `CFE_PSP_InitCDS`. -/
def initCDS (l : ShmLayout) (r : Refused) (t : Table Key Segment) :
    Table Key Segment × Option ℕ :=
  initSegment r l.cdsSize .cds t

/-- `align_mask` in `CFE_PSP_InitResetArea`. -/
def alignMask (l : ShmLayout) : BitVec 64 := BitVec.ofNat 64 (2 ^ l.pageBits - 1)

/-- `reset_offset` in `CFE_PSP_InitResetArea`. -/
def resetOffset (l : ShmLayout) : BitVec 64 :=
  (BitVec.ofNat 64 l.fixedSize + alignMask l) &&& ~~~alignMask l

/-- `total_size` in `CFE_PSP_InitResetArea`. -/
def resetTotalSize (l : ShmLayout) : BitVec 64 :=
  (resetOffset l + BitVec.ofNat 64 l.resetAreaSize + alignMask l) &&& ~~~alignMask l

/-- `CFE_PSP_InitResetArea`. -/
def initResetArea (l : ShmLayout) (r : Refused) (t : Table Key Segment) :
    Table Key Segment × Option ℕ :=
  initSegment r (resetTotalSize l).toNat .resetArea t

/-- `CFE_PSP_InitUserReservedArea`. -/
def initUserReservedArea (l : ShmLayout) (r : Refused) (t : Table Key Segment) :
    Table Key Segment × Option ℕ :=
  initSegment r l.userReservedSize .userReserved t

/-- `CFE_PSP_SetupReservedMemoryMap`: the segments attached, or none when it panics. -/
def setupReservedMemoryMap (l : ShmLayout) (r : Refused) (t : Table Key Segment) :
    Table Key Segment × Option (Key → ℕ) :=
  match initCDS l r t with
  | (t, none) => (t, none)
  | (t, some cds) =>
    match initResetArea l r t with
    | (t, none) => (t, none)
    | (t, some resetArea) =>
      match initUserReservedArea l r t with
      | (t, none) => (t, none)
      | (t, some userReserved) =>
          (t, some fun
            | .cds => cds
            | .resetArea => resetArea
            | .userReserved => userReserved)

/-! ## The steps -/

/-- The things that `CFE_PSP_Restart` does to the segments. -/
inductive Action
  /-- `shmctl` with `IPC_RMID`. -/
  | delete (k : Key)
  /-- Store to `NextResetType`. -/
  | setType (resetType : Uint32)
  /-- Store to `ValidityFlag`. -/
  | setFlag
  deriving DecidableEq

/-- `CFE_PSP_DeleteProcessorReservedMemory`. -/
def deleteProcessorReservedMemory : List Action :=
  [.delete .cds, .delete .resetArea, .delete .userReserved]

/-- `CFE_PSP_Restart`, up to the request to shut down. -/
def restartActions (resetType : Uint32) : List Action :=
  (if resetType = rstTypePoweron then deleteProcessorReservedMemory else []) ++
    [.setType resetType, .setFlag]

/-- Where the process is. -/
inductive Phase
  /-- There is none. -/
  | off
  /-- The segments are attached. -/
  | mapped
  /-- In `CFE_PSP_InitProcessorReservedMemory`. -/
  | initialising (rest : List Store)
  /-- The cFE is running. -/
  | running

/-- The segments of the system, and the process. -/
structure Sys where
  table : Table Key Segment
  phase : Phase
  layout : ShmLayout
  /-- The segments that are attached. -/
  ids : Key → ℕ
  /-- What the calls of `CFE_PSP_Restart` have still to do. -/
  restarts : List (List Action)

/-- The reserved memory as the process sees it. -/
def Sys.mem (s : Sys) : Segments := merge fun k => (s.table.object (s.ids k)).mem

/-- The process changes a segment that it is attached to. -/
def Sys.modify (s : Sys) (k : Key) (f : Segments → Segments) : Sys :=
  { s with table := s.table.modify (fun g => { g with mem := f g.mem }) (s.ids k) }

/-- The steps. -/
inductive Event
  /-- A boot calls `CFE_PSP_SetupReservedMemoryMap`, which returns or panics. -/
  | setup (l : ShmLayout) (r : Refused) (returns : Bool)
  /-- The boot, with its command line option, chooses a reset type. -/
  | boot (option : Option ResetOption) (resetType : Uint32)
  /-- The initialisation makes its next store. -/
  | store
  /-- The cFE is entered. -/
  | enter
  /-- The application stores to a block. -/
  | storeArea (a : Area) (i : ℕ) (v : UInt8)
  /-- `CFE_PSP_WriteToCDS`. -/
  | writeToCDS (ptrToDataToWrite : Option (ℕ → UInt8)) (cdsOffset numBytes : Uint32)
  /-- A task calls `CFE_PSP_Restart`. -/
  | beginRestart (resetType : Uint32)
  /-- A call of `CFE_PSP_Restart` does the next thing; a removal may fail. -/
  | restartStep (i : ℕ) (act : Action) (succeeds : Bool)
  /-- The process ends. -/
  | exit

/-- What an action does. -/
def Action.apply (s : Sys) (succeeds : Bool) : Action → Sys
  | .delete k => if succeeds then { s with table := s.table.unlink (s.ids k) } else s
  | .setType resetType => s.modify .resetArea fun m => { m with nextResetType := resetType }
  | .setFlag => s.modify .resetArea fun m => { m with validityFlag := bootRecordValid }

/-- One step. -/
def step (s : Sys) : Event → Option Sys
  | .setup l r returns =>
      if l.SameBuild s.layout then
        match s.phase, setupReservedMemoryMap l r s.table, returns with
        | .off, (table, some ids), true => some ⟨table, .mapped, l, ids, []⟩
        | .off, (table, none), false => some { s with table := table }
        | _, _, _ => none
      else none
  | .boot option resetType =>
      match s.phase with
      | .mapped =>
          if startupResetType option s.mem = resetType then
            some { s with phase := .initialising (initStores s.layout.toLayout resetType) }
          else none
      | _ => none
  | .store =>
      match s.phase with
      | .initialising (st :: rest) =>
          some { s.modify (storeKey st) (Store.apply · st) with phase := .initialising rest }
      | _ => none
  | .enter =>
      match s.phase with
      | .initialising [] => some { s with phase := .running }
      | _ => none
  | .storeArea a i v =>
      match s.phase with
      | .running => some (s.modify (areaKey a) (·.setArea a i v))
      | _ => none
  | .writeToCDS ptr off n =>
      match s.phase with
      | .running => some (s.modify .cds fun m =>
          { m with cds := (Memory.writeToCDS .pcLinux s.layout.cdsSize m.cds ptr off n).2 })
      | _ => none
  | .beginRestart resetType =>
      match s.phase with
      | .running => some { s with restarts := s.restarts ++ [restartActions resetType] }
      | _ => none
  | .restartStep i act succeeds =>
      match s.phase, s.restarts[i]? with
      | .running, some (act' :: rest) =>
          if act' = act then
            some { act.apply s succeeds with restarts := s.restarts.set i rest }
          else none
      | _, _ => none
  | .exit =>
      match s.phase with
      | .off => none
      | _ => some { s with phase := .off, restarts := [] }

/-! ## What a boot gets -/

section Setup

variable {l : ShmLayout} {r : Refused} {k : Key} {t u : Table Key Segment}

/-- The segment is new. -/
def Segment.IsNew (g : Segment) : Prop := g.mem = 0

/-- Attaching a segment leaves the others as they are, and creates a new one at most. -/
lemma extends_initSegment (ht : t.Valid) {size : ℕ} {attached : Option ℕ}
    (h : initSegment r size k t = (u, attached)) :
    t.Extends Segment.IsNew u ∧ ∀ id, attached = some id → u.idOf k = some id := by
  rw [initSegment] at h
  by_cases hrefused : r.shmget k = true
  · rw [if_pos hrefused] at h
    obtain ⟨rfl, rfl⟩ := Prod.mk.inj h
    exact ⟨.refl ht, nofun⟩
  · rw [if_neg hrefused] at h
    split at h
    case h_1 id t' hget =>
      obtain ⟨rfl, rfl⟩ := Prod.mk.inj h
      refine ⟨ht.extends_get hget fun x hx => ?_, fun id' hid => ?_⟩
      · obtain ⟨-, hx⟩ := Option.ite_none_left_eq_some.1 hx
        obtain rfl := Option.some.inj hx
        rfl
      · obtain ⟨-, hid⟩ := Option.ite_none_left_eq_some.1 hid
        obtain rfl := Option.some.inj hid
        exact Table.idOf_of_get hget
    case h_2 hget =>
      obtain ⟨rfl, rfl⟩ := Prod.mk.inj h
      exact ⟨.refl ht, nofun⟩

/-- **What a boot gets**: the segments there were, and new ones in place of the others.

**Proof sketch.** Each of the three steps extends the table, and a later step keeps the segments
that an earlier one has attached. -/
lemma extends_setup (ht : t.Valid) {ids : Option (Key → ℕ)}
    (h : setupReservedMemoryMap l r t = (u, ids)) :
    t.Extends Segment.IsNew u ∧ ∀ ids', ids = some ids' → ∀ k, u.idOf k = some (ids' k) := by
  unfold setupReservedMemoryMap at h
  cases h₁ : initCDS l r t with
  | mk t₁ cds =>
    obtain ⟨hext₁, hid₁⟩ := extends_initSegment ht h₁
    cases cds with
    | none =>
      simp only [h₁] at h
      obtain ⟨rfl, rfl⟩ := Prod.mk.inj h
      exact ⟨hext₁, nofun⟩
    | some cds =>
      simp only [h₁] at h
      cases h₂ : initResetArea l r t₁ with
      | mk t₂ resetArea =>
        obtain ⟨hext₂, hid₂⟩ := extends_initSegment hext₁.valid h₂
        cases resetArea with
        | none =>
          simp only [h₂] at h
          obtain ⟨rfl, rfl⟩ := Prod.mk.inj h
          exact ⟨hext₁.trans hext₂, nofun⟩
        | some resetArea =>
          simp only [h₂] at h
          cases h₃ : initUserReservedArea l r t₂ with
          | mk t₃ userReserved =>
            obtain ⟨hext₃, hid₃⟩ := extends_initSegment hext₂.valid h₃
            cases userReserved with
            | none =>
              simp only [h₃] at h
              obtain ⟨rfl, rfl⟩ := Prod.mk.inj h
              exact ⟨(hext₁.trans hext₂).trans hext₃, nofun⟩
            | some userReserved =>
              simp only [h₃] at h
              obtain ⟨rfl, rfl⟩ := Prod.mk.inj h
              refine ⟨(hext₁.trans hext₂).trans hext₃, fun ids' hids k => ?_⟩
              obtain rfl := Option.some.inj hids
              cases k with
              | cds => exact ((hext₂.trans hext₃).kept (hid₁ cds rfl)).1
              | resetArea => exact (hext₃.kept (hid₂ resetArea rfl)).1
              | userReserved => exact hid₃ userReserved rfl

end Setup

/-! ## The reserved memory as the process sees it -/

section View

variable {s : Sys} {k : Key}

/-- The blocks of one key come from one segment. -/
@[simp] lemma only_merge (k : Key) (f : Key → Segments) : only k (merge f) = only k (f k) := by
  simp only [only, merge, Segments.mk.injEq]
  refine ⟨?_, ?_, ?_, funext fun a => ?_⟩
  all_goals
    split_ifs with hk
    · subst hk
      rfl
    · rfl

@[simp] lemma only_zero (k : Key) : only k 0 = 0 := by
  simp only [only, ite_self]
  rfl

/-- The boot record lies in the segment of the reset area. -/
lemma bootRecord_of_only {m m' : Segments} (h : only .resetArea m = only .resetArea m') :
    m.validityFlag = m'.validityFlag ∧ m.nextResetType = m'.nextResetType := by
  have hflag := congrArg Segments.validityFlag h
  have htype := congrArg Segments.nextResetType h
  exact ⟨hflag, htype⟩

/-- Reserved memory is the same when the blocks of each key are. -/
lemma ext_only {m m' : Segments} (h : ∀ k, only k m = only k m') : m = m' := by
  have hreset := bootRecord_of_only (h .resetArea)
  have hcds := congrArg Segments.cds (h .cds)
  have harea : m.area = m'.area := by
    funext a
    have hone := congrArg (fun x => Segments.area x a) (h (areaKey a))
    simpa [only, merge] using hone
  obtain ⟨flag, type, cds, area⟩ := m
  obtain ⟨flag', type', cds', area'⟩ := m'
  obtain ⟨rfl, rfl⟩ : flag = flag' ∧ type = type' := hreset
  obtain rfl : cds = cds' := hcds
  obtain rfl : area = area' := harea
  rfl

lemma modify_table (f : Segments → Segments) :
    (s.modify k f).table = s.table.modify (fun g => { g with mem := f g.mem }) (s.ids k) := rfl

@[simp] lemma modify_idOf (f : Segments → Segments) :
    (s.modify k f).table.idOf = s.table.idOf := rfl

/-- The contents of an attached segment after the process has changed one. -/
lemma modify_object (hids : Function.Injective s.ids) (k' : Key) (f : Segments → Segments) :
    ((s.modify k f).table.object (s.ids k')).mem =
      if k' = k then f (s.table.object (s.ids k)).mem else (s.table.object (s.ids k')).mem := by
  rw [modify_table]
  by_cases hk : k' = k
  · subst hk
    rw [if_pos rfl, SharedObjects.Table.modify_object_self]
  · rw [if_neg hk, SharedObjects.Table.modify_object_of_ne (hids.ne hk)]

/-- The memory after the process has changed a segment. -/
lemma mem_modify (hids : Function.Injective s.ids) (k : Key) (f : Segments → Segments) :
    (s.modify k f).mem = merge fun k' =>
      if k' = k then f (s.table.object (s.ids k)).mem else (s.table.object (s.ids k')).mem :=
  congrArg merge (funext fun k' => modify_object hids k' f)

/-- A store of the initialisation goes to its own segment. -/
lemma mem_modify_store (hids : Function.Injective s.ids) (st : Store) :
    (s.modify (storeKey st) (Store.apply · st)).mem = st.apply s.mem := by
  rw [mem_modify hids]
  cases st with
  | clearArea a i =>
    cases a <;> simp only [merge, storeKey, areaKey, Store.apply, Segments.setArea, Sys.mem,
      Segments.mk.injEq, reduceCtorEq, if_true, if_false, true_and]
    all_goals
      funext b
      cases b <;> simp
  | _ =>
    simp only [merge, storeKey, Store.apply, Sys.mem, Segments.mk.injEq, reduceCtorEq, if_true,
      if_false, true_and]
    funext b
    cases b <;> simp [areaKey]

end View

/-! ## Sessions -/

/-- A segment of the key has been removed. -/
def Deleted (k : Key) (tr : List Event) : Prop := ∃ i, Event.restartStep i (.delete k) true ∈ tr

/-- The reset type that the boot record asks for after an event. -/
def recordedStep (t : Uint32) : Event → Uint32
  | .boot _ resetType => if resetType = rstTypePoweron then rstTypeProcessor else rstTypePoweron
  | .restartStep _ (.setType resetType) _ => resetType
  | _ => t

/-- The reset type recorded last: by a call of `CFE_PSP_Restart`, or by the initialisation. -/
def recorded (tr : List Event) : Uint32 := tr.foldl recordedStep 0

section Sessions

variable {s t : Sys} {e : Event} {tr : List Event} {table : Table Key Segment} {ids : Key → ℕ}
  {k : Key}

lemma deleted_concat : Deleted k (tr ++ [e]) ↔
    Deleted k tr ∨ ∃ i, e = .restartStep i (.delete k) true := by
  simp only [Deleted, List.mem_append, List.mem_singleton, exists_or, eq_comm]

lemma recorded_concat : recorded (tr ++ [e]) = recordedStep (recorded tr) e := by
  simp [recorded]

/-- What ties the segments that are attached to those of the system: a segment has its key as long
as it is not removed. -/
structure Attached (tr : List Event) (table : Table Key Segment) (ids : Key → ℕ) : Prop where
  valid : table.Valid
  injective : Function.Injective ids
  removed : ∀ k, Deleted k tr → table.idOf k = none
  linked : ∀ k, ¬Deleted k tr → table.idOf k = some (ids k)

/-- The boot record is marked and asks for the reset type. -/
def Records (m : Segments) (resetType : Uint32) : Prop :=
  (m.validityFlag = bootRecordValid ∨ m.validityFlag = bootRecordInvalid) ∧
    m.nextResetType = resetType

/-- **The invariant of a session**: what is attached, and what the boot record asks for. -/
structure Inv (tr : List Event) (s : Sys) : Prop where
  attached : Attached tr s.table s.ids
  live : s.phase ≠ .off
  initialising : ∀ rest, s.phase = .initialising rest →
    Records (rest.foldl Store.apply s.mem) (recorded tr)
  running : s.phase = .running → Records s.mem (recorded tr)

/-- What is attached stays so when nothing is removed. -/
lemma Attached.concat (h : Attached tr table ids)
    (he : ∀ i k, e ≠ .restartStep i (.delete k) true) : Attached (tr ++ [e]) table ids where
  valid := h.valid
  injective := h.injective
  removed := fun k hk => h.removed k <| (deleted_concat.1 hk).resolve_right fun ⟨i, hi⟩ =>
    he i k hi
  linked := fun k hk => h.linked k fun hdel => hk (deleted_concat.2 (.inl hdel))

/-- Storing to a segment changes nothing of what is attached. -/
lemma Attached.modify (h : Attached tr s.table s.ids) (k : Key) (f : Segments → Segments) :
    Attached tr (s.modify k f).table s.ids := by
  rw [modify_table]
  exact ⟨h.valid.modify _ _, h.injective, h.removed, h.linked⟩

/-- Removing a segment takes its key away, and no other. -/
lemma Attached.unlink (h : Attached tr table ids) (i : ℕ) (k : Key) :
    Attached (tr ++ [.restartStep i (.delete k) true]) (table.unlink (ids k)) ids where
  valid := h.valid.unlink _
  injective := h.injective
  removed := by
    intro k' hk'
    by_cases hdel : Deleted k' tr
    · rw [Table.unlink_idOf_of_ne (by rw [h.removed k' hdel]; exact nofun)]
      exact h.removed k' hdel
    · obtain ⟨j, hj⟩ := (deleted_concat.1 hk').resolve_left hdel
      obtain rfl : k = k' := by
        injection hj with _ hact
        exact Action.delete.inj hact
      exact Table.unlink_idOf_self (h.linked k hdel)
  linked := by
    intro k' hk'
    have hnot := not_or.1 (deleted_concat.not.1 hk')
    have hkk : k' ≠ k := by
      rintro rfl
      exact hnot.2 ⟨i, rfl⟩
    have hlinked := h.linked k' hnot.1
    rwa [Table.unlink_idOf_of_ne fun heq => hkk ?_]
    exact h.injective (Option.some.inj (hlinked.symm.trans heq))

/-- The boot record after a store to some segment. -/
lemma Records.modify (h : Records s.mem (recorded tr)) (hids : Function.Injective s.ids) (k : Key)
    {f : Segments → Segments} {resetType : Uint32}
    (hf : k = .resetArea → ∀ m, Records m (recorded tr) → Records (f m) resetType)
    (hk : k ≠ .resetArea → resetType = recorded tr) : Records (s.modify k f).mem resetType := by
  rw [mem_modify hids]
  by_cases hreset : k = .resetArea
  · subst hreset
    exact hf rfl _ h
  · rw [hk hreset]
    simpa only [Records, Sys.mem, merge, if_neg (Ne.symm hreset)] using h

/-- A running session goes on running, with the same segments attached. -/
lemma Inv.ofRunning (hatt : Attached (tr ++ [e]) t.table t.ids) (hphase : t.phase = .running)
    (hrecords : Records t.mem (recordedStep (recorded tr) e)) : Inv (tr ++ [e]) t where
  attached := hatt
  live := by rw [hphase]; exact nofun
  initialising := fun _ hrest => absurd (hphase.symm.trans hrest) nofun
  running := fun _ => by rwa [recorded_concat]

/-- **Every step of a session keeps the invariant.** -/
lemma Inv.step (hinv : Inv tr s) (hne : e ≠ .exit) (hs : SharedMemory.step s e = some t) :
    Inv (tr ++ [e]) t := by
  have hatt := hinv.attached
  cases e with
  | setup l r returns =>
    cases hphase : s.phase with
    | off => exact absurd hphase hinv.live
    | mapped | initialising | running =>
      simp only [SharedMemory.step, hphase, ite_self, reduceCtorEq] at hs
  | boot option resetType =>
    cases hphase : s.phase <;> simp only [SharedMemory.step, hphase, reduceCtorEq] at hs
    split_ifs at hs with hchoice
    obtain rfl := Option.some.inj hs
    refine ⟨hatt.concat nofun, nofun, fun rest hrest => ?_, nofun⟩
    obtain rfl := Phase.initialising.inj hrest
    obtain ⟨hflag, htype⟩ := foldl_initStores s.layout.toLayout resetType s.mem
    exact ⟨.inr hflag, by rw [recorded_concat]; exact htype⟩
  | store =>
    rcases hphase : s.phase with _ | _ | ⟨_ | ⟨st, rest⟩⟩ | _ <;>
      simp only [SharedMemory.step, hphase, reduceCtorEq] at hs
    obtain rfl := Option.some.inj hs
    have hatt' : Attached (tr ++ [.store]) s.table s.ids := hatt.concat nofun
    refine ⟨hatt'.modify (storeKey st) (Store.apply · st), nofun, fun rest' hrest => ?_, nofun⟩
    obtain rfl := Phase.initialising.inj hrest
    have hrecords := hinv.initialising _ hphase
    rw [List.foldl_cons, ← mem_modify_store hatt.injective st] at hrecords
    rw [recorded_concat]
    exact hrecords
  | enter =>
    rcases hphase : s.phase with _ | _ | ⟨_ | ⟨st, rest⟩⟩ | _ <;>
      simp only [SharedMemory.step, hphase, reduceCtorEq] at hs
    obtain rfl := Option.some.inj hs
    refine ⟨hatt.concat nofun, nofun, nofun, fun _ => ?_⟩
    rw [recorded_concat]
    exact hinv.initialising _ hphase
  | storeArea a i v =>
    cases hphase : s.phase <;> simp only [SharedMemory.step, hphase, reduceCtorEq] at hs
    obtain rfl := Option.some.inj hs
    refine .ofRunning (hatt.modify _ _ |>.concat nofun) hphase ?_
    exact (hinv.running hphase).modify hatt.injective _ (fun _ _ hm => hm) fun _ => rfl
  | writeToCDS ptr off n =>
    cases hphase : s.phase <;> simp only [SharedMemory.step, hphase, reduceCtorEq] at hs
    obtain rfl := Option.some.inj hs
    refine .ofRunning (hatt.modify _ _ |>.concat nofun) hphase ?_
    exact (hinv.running hphase).modify hatt.injective _ (fun _ _ hm => hm) fun _ => rfl
  | beginRestart resetType =>
    cases hphase : s.phase <;> simp only [SharedMemory.step, hphase, reduceCtorEq] at hs
    obtain rfl := Option.some.inj hs
    exact .ofRunning (hatt.concat nofun) rfl (hinv.running hphase)
  | restartStep i act succeeds =>
    cases hphase : s.phase <;> simp only [SharedMemory.step, hphase, reduceCtorEq] at hs
    split at hs
    case h_2 => exact absurd hs nofun
    split_ifs at hs
    obtain rfl := Option.some.inj hs
    cases act with
    | setType resetType =>
      have hatt' : Attached (tr ++ [.restartStep i (.setType resetType) succeeds]) s.table s.ids :=
        hatt.concat nofun
      have hrecords := (hinv.running hphase).modify hatt.injective .resetArea
        (f := fun m => { m with nextResetType := resetType }) (fun _ m hm => ⟨hm.1, rfl⟩)
        fun hk => absurd rfl hk
      exact .ofRunning (hatt'.modify .resetArea fun m => { m with nextResetType := resetType })
        hphase hrecords
    | setFlag =>
      have hatt' : Attached (tr ++ [.restartStep i .setFlag succeeds]) s.table s.ids :=
        hatt.concat nofun
      have hrecords := (hinv.running hphase).modify hatt.injective .resetArea
        (f := fun m => { m with validityFlag := bootRecordValid })
        (fun _ m hm => ⟨.inl rfl, hm.2⟩) fun _ => rfl
      exact .ofRunning (hatt'.modify .resetArea fun m => { m with validityFlag := bootRecordValid })
        hphase hrecords
    | delete k =>
      cases succeeds with
      | false =>
        refine .ofRunning (hatt.concat fun j k' heq => ?_) hphase (hinv.running hphase)
        injection heq with _ _ hsucc
        exact absurd hsucc nofun
      | true => exact .ofRunning (hatt.unlink i k) hphase (hinv.running hphase)
  | exit => exact absurd rfl hne

end Sessions

/-! ## From one boot to the next -/

section Boots

variable {s t u : Sys} {e : Event} {tr session failed : List Event} {l l' : ShmLayout}
  {r r' : Refused}

/-- A boot that panics is one whose `CFE_PSP_SetupReservedMemoryMap` does. -/
def Event.Panics (e : Event) : Prop := ∃ l r, e = .setup l r false

/-- The segments after a boot has tried to attach them. -/
lemma extends_of_setup (hvalid : s.table.Valid) {returns : Bool}
    (hs : step s (.setup l r returns) = some t) :
    s.phase = .off ∧ s.table.Extends Segment.IsNew t.table ∧
      if returns then t.phase = .mapped ∧ ∀ k, t.table.idOf k = some (t.ids k)
      else t.phase = .off := by
  simp only [step] at hs
  split_ifs at hs
  split at hs
  case h_1 table ids hphase hsetup =>
    obtain rfl := Option.some.inj hs
    obtain ⟨hext, hids⟩ := extends_setup hvalid hsetup
    exact ⟨hphase, hext, rfl, hids ids rfl⟩
  case h_2 table hphase hsetup =>
    obtain rfl := Option.some.inj hs
    exact ⟨hphase, (extends_setup hvalid hsetup).1, hphase⟩
  case h_3 => exact absurd hs nofun

/-- Every step keeps the keys apart. -/
lemma valid_step (hvalid : s.table.Valid) (hs : step s e = some t) : t.table.Valid := by
  cases e with
  | setup l r returns => exact (extends_of_setup hvalid hs).2.1.valid
  | boot option resetType =>
    simp only [step] at hs
    split at hs
    · split_ifs at hs
      obtain rfl := Option.some.inj hs
      exact hvalid
    · exact absurd hs nofun
  | store | storeArea | writeToCDS =>
    simp only [step] at hs
    split at hs
    · obtain rfl := Option.some.inj hs
      exact ⟨hvalid.lt_next, hvalid.injective⟩
    · exact absurd hs nofun
  | enter | beginRestart =>
    simp only [step] at hs
    split at hs
    · obtain rfl := Option.some.inj hs
      exact hvalid
    · exact absurd hs nofun
  | restartStep i act succeeds =>
    simp only [step] at hs
    split at hs
    · split_ifs at hs
      obtain rfl := Option.some.inj hs
      cases act with
      | delete k =>
        cases succeeds
        · exact hvalid
        · exact hvalid.unlink _
      | setType | setFlag => exact ⟨hvalid.lt_next, hvalid.injective⟩
    · exact absurd hs nofun
  | exit =>
    simp only [step] at hs
    split at hs
    · exact absurd hs nofun
    · obtain rfl := Option.some.inj hs
      exact hvalid

/-- A session begins with what the boot has attached. -/
lemma inv_of_setup (hvalid : s.table.Valid) (hs : step s (.setup l r true) = some t) :
    Inv [] t := by
  obtain ⟨-, hext, hphase, hids⟩ := extends_of_setup hvalid hs
  refine ⟨⟨hext.valid, fun k k' hk => ?_, fun k ⟨i, hi⟩ => absurd hi List.not_mem_nil,
    fun k _ => hids k⟩, ?_, ?_, ?_⟩
  · exact hext.valid.injective (hids k) (hk ▸ hids k')
  all_goals rw [hphase]; exact nofun

/-- The invariant holds throughout a session. -/
lemma inv_of_session (hvalid : s.table.Valid) (hexit : Event.exit ∉ session)
    (h : run step s (tr ++ .setup l r true :: session) = some t) : Inv session t := by
  obtain ⟨s₁, h₁, hrest⟩ := run_append.1 h
  obtain ⟨s₂, hsetup, hsession⟩ := run_cons.1 hrest
  have hvalid₁ : s₁.table.Valid := run_invariant (P := fun _ s => s.table.Valid) hvalid
    (fun _ _ _ _ hv hs => valid_step hv hs) h₁
  refine run_invariant (P := fun tr s => Event.exit ∉ tr → Inv tr s)
    (fun _ => inv_of_setup hvalid₁ hsetup) ?_ hsession hexit
  intro tr s e t hinv hs hexit
  rw [List.mem_append, List.mem_singleton, not_or] at hexit
  exact (hinv hexit.1).step (Ne.symm hexit.2) hs

/-- Boots that panic leave the segments as they are, and create new ones at most. -/
lemma extends_of_failed (hvalid : s.table.Valid) (hfailed : ∀ e ∈ failed, e.Panics)
    (h : run step s failed = some t) : s.table.Extends Segment.IsNew t.table := by
  refine run_invariant (P := fun tr t => (∀ e ∈ tr, e.Panics) →
    s.table.Extends Segment.IsNew t.table) (fun _ => .refl hvalid) ?_ h hfailed
  intro tr s₁ e s₂ hext hs hall
  have hbefore := hext fun e he => hall e (List.mem_append_left _ he)
  obtain ⟨l, r, rfl⟩ := hall e (List.mem_append_right _ (List.mem_singleton_self e))
  exact hbefore.trans (extends_of_setup hbefore.valid hs).2.1

/-- What the next boot finds of a session that ends anywhere. -/
lemma found_of_inv (hinv : Inv session t) (hfailed : ∀ e ∈ failed, e.Panics)
    (h : run step t (.exit :: failed ++ [.setup l r true]) = some u) (k : Key) :
    (¬Deleted k session → only k u.mem = only k t.mem) ∧
      (Deleted k session → only k u.mem = 0) := by
  obtain ⟨t₁, hexit, hrest⟩ := run_cons.1 h
  obtain ⟨t₂, h₂, hsetup⟩ := run_concat.1 hrest
  have htable : t₁.table = t.table := by
    cases hphase : t.phase <;> simp only [step, hphase, reduceCtorEq] at hexit
    all_goals
      obtain rfl := Option.some.inj hexit
      rfl
  have hvalid : t₁.table.Valid := htable ▸ hinv.attached.valid
  have hfailed' := extends_of_failed hvalid hfailed h₂
  obtain ⟨-, hext, -, hids⟩ := extends_of_setup hfailed'.valid hsetup
  have hall := hfailed'.trans hext
  rw [htable] at hall
  simp only [Sys.mem, only_merge]
  refine ⟨fun hdel => ?_, fun hdel => ?_⟩
  · obtain ⟨hid, hobject⟩ := hall.kept (hinv.attached.linked k hdel)
    have hsame : t.ids k = u.ids k := Option.some.inj (hid.symm.trans (hids k))
    rw [← hsame, hobject]
  · have hnew : (u.table.object (u.ids k)).mem = 0 :=
      hall.new (hinv.attached.removed k hdel) (hids k)
    rw [hnew, only_zero]

/-- **What a boot finds.** In every run of boots, of which some may panic, and of sessions whose
tasks store to the reserved memory and call `CFE_PSP_Restart` in any interleaving, and which end
anywhere, also in the middle of such calls: the next boot that attaches its segments finds each of
them as the last session left it, unless that session has removed it; then it finds zeros.

**Proof sketch.** A segment that is attached has its key until it is removed, and what a task stores
to it after that is stored to a segment that no boot will find. -/
theorem segments_found (hvalid : s.table.Valid) (hexit : Event.exit ∉ session)
    (ht : run step s (tr ++ .setup l r true :: session) = some t)
    (hfailed : ∀ e ∈ failed, e.Panics)
    (hu : run step t (.exit :: failed ++ [.setup l' r' true]) = some u) (k : Key) :
    (¬Deleted k session → only k u.mem = only k t.mem) ∧
      (Deleted k session → only k u.mem = 0) :=
  found_of_inv (inv_of_session hvalid hexit ht) hfailed hu k

/-- **The reset type of the next boot.** After a session that has entered the cFE, and in which any
number of calls of `CFE_PSP_Restart` have come to any point, the next boot, if it is given no reset
option, is a processor reset exactly when the segment of the reset area has not been removed and the
type recorded last, by one of these calls or else by the initialisation, is that of a processor
reset.

**Proof sketch.** The boot record stays marked during the session; a new segment is not marked. -/
theorem nextReset_of_session (hvalid : s.table.Valid) (hexit : Event.exit ∉ session)
    (ht : run step s (tr ++ .setup l r true :: session) = some t) (hphase : t.phase = .running)
    (hfailed : ∀ e ∈ failed, e.Panics)
    (hu : run step t (.exit :: failed ++ [.setup l' r' true]) = some u) :
    startupResetType none u.mem = rstTypeProcessor ↔
      ¬Deleted .resetArea session ∧ recorded session = rstTypeProcessor := by
  have hinv := inv_of_session hvalid hexit ht
  obtain ⟨hkept, hnew⟩ := found_of_inv hinv hfailed hu .resetArea
  by_cases hdel : Deleted .resetArea session
  · have hflag : u.mem.validityFlag = 0 := congrArg Segments.validityFlag (hnew hdel)
    have hpower : startupResetType none u.mem = rstTypePoweron :=
      startup_of_flag (by rw [hflag]; decide) (by rw [hflag]; decide)
    refine iff_of_false (fun hproc => ?_) fun hboth => hboth.1 hdel
    exact absurd (hproc.symm.trans hpower) (by decide)
  · obtain ⟨hflag, htype⟩ := bootRecord_of_only (hkept hdel)
    obtain ⟨hmark, hrecorded⟩ := hinv.running hphase
    refine ⟨fun hproc => ⟨hdel, ?_⟩, fun hboth => ?_⟩
    · by_contra hne
      have hpower := startup_of_type (m := u.mem) (by rwa [htype, hrecorded])
      exact absurd (hproc.symm.trans hpower) (by decide)
    · exact startup_processor (hflag ▸ hmark) (htype.trans (hrecorded.trans hboth.2))

/-! ## The abstract restart -/

/-- The steps of a call of `CFE_PSP_Restart` that nothing comes between. -/
def uninterrupted (restarts : List (List Action)) (resetType : Uint32) : List Event :=
  .beginRestart resetType ::
    (restartActions resetType).map fun act => .restartStep restarts.length act true

/-- The reserved memory after a restart without a power-on reset. -/
lemma mem_of_uninterrupted (hids : Function.Injective s.ids) {resetType : Uint32}
    (hne : resetType ≠ rstTypePoweron)
    (h : run step s (uninterrupted s.restarts resetType) = some t) :
    t.mem = restart resetType s.mem := by
  have hactions : restartActions resetType = [.setType resetType, .setFlag] := by
    rw [restartActions, if_neg hne, List.nil_append]
  rw [uninterrupted, hactions] at h
  obtain ⟨s₁, h₁, hrest⟩ := run_cons.1 h
  obtain ⟨s₂, h₂, hrest⟩ := run_cons.1 hrest
  obtain ⟨s₃, h₃, hrest⟩ := run_cons.1 hrest
  obtain rfl : s₃ = t := by simpa using hrest
  -- the call is the last of the list
  cases hphase : s.phase <;> simp only [step, hphase, reduceCtorEq] at h₁
  obtain rfl := Option.some.inj h₁
  simp only [step, List.getElem?_concat_length, hactions, if_true, Action.apply] at h₂
  obtain rfl := Option.some.inj h₂
  simp only [step, Sys.modify] at h₃
  have hlast : ((s.restarts ++ [[Action.setType resetType, .setFlag]]).set s.restarts.length
      [.setFlag])[s.restarts.length]? = some [.setFlag] := by
    simp
  simp only [hlast, if_true, Action.apply] at h₃
  obtain rfl := Option.some.inj h₃
  have htype := mem_modify_store hids (.setType resetType)
  have hflag := mem_modify_store (s := s.modify .resetArea (Store.apply · (.setType resetType)))
    hids (.setFlag bootRecordValid)
  rw [restart, if_neg hne]
  refine hflag.trans ?_
  exact congrArg (Store.apply · (.setFlag bootRecordValid)) htype

/-- A restart that nothing comes between removes all segments or none. -/
lemma deleted_uninterrupted (restarts : List (List Action)) (resetType : Uint32) (k : Key) :
    Deleted k (uninterrupted restarts resetType) ↔ resetType = rstTypePoweron := by
  rw [Deleted, uninterrupted, restartActions, deleteProcessorReservedMemory]
  split_ifs with hpower
  · refine iff_of_true ⟨restarts.length, ?_⟩ hpower
    cases k <;> simp
  · refine iff_of_false (fun ⟨i, hi⟩ => ?_) hpower
    simp at hi

/-- **A restart that nothing comes between is the abstract one.** If no segment has been removed
before, and the removals of the restart succeed, then the next boot finds the reserved memory that
`CfePsp.PcLinux.restart` says.

**Proof sketch.** Either all three segments are removed or none is. -/
theorem restart_refined (hvalid : s.table.Valid) (hexit : Event.exit ∉ session)
    (ht : run step s (tr ++ .setup l r true :: session) = some t)
    (hnone : ∀ k, ¬Deleted k session) {resetType : Uint32} {t' : Sys}
    (hrestart : run step t (uninterrupted t.restarts resetType) = some t')
    (hfailed : ∀ e ∈ failed, e.Panics)
    (hu : run step t' (.exit :: failed ++ [.setup l' r' true]) = some u) :
    u.mem = restart resetType t.mem := by
  have hall : run step s (tr ++ .setup l r true :: (session ++
      uninterrupted t.restarts resetType)) = some t' := by
    rw [← List.cons_append, ← List.append_assoc]
    exact run_append.2 ⟨t, ht, hrestart⟩
  have hexit' : Event.exit ∉ session ++ uninterrupted t.restarts resetType := by
    simp [hexit, uninterrupted]
  have hdeleted : ∀ k, Deleted k (session ++ uninterrupted t.restarts resetType) ↔
      resetType = rstTypePoweron := by
    intro k
    rw [← deleted_uninterrupted t.restarts resetType k]
    simpa only [Deleted, List.mem_append, exists_or] using or_iff_right (hnone k)
  have hfound := found_of_inv (inv_of_session hvalid hexit' hall) hfailed hu
  by_cases hpower : resetType = rstTypePoweron
  · rw [restart, if_pos hpower]
    refine ext_only fun k => ?_
    rw [(hfound k).2 ((hdeleted k).2 hpower), only_zero]
  · rw [← mem_of_uninterrupted (inv_of_session hvalid hexit ht).attached.injective hpower hrestart]
    exact ext_only fun k => (hfound k).1 ((hdeleted k).not.2 hpower)

end Boots

/-! ## The segment of the reset area -/

section ResetArea

variable {l : ShmLayout}

/-- The offset of the reset area and the size of the segment in exact numbers. -/
lemma resetArea_toNat (hk : l.pageBits ≤ 64)
    (hsize : l.fixedSize + l.resetAreaSize + 2 * 2 ^ l.pageBits ≤ 2 ^ 64) :
    (resetOffset l).toNat = Layout.alignUp l.pageBits l.fixedSize ∧
      (resetTotalSize l).toNat = Layout.alignUp l.pageBits
        (Layout.alignUp l.pageBits l.fixedSize + l.resetAreaSize) := by
  have hoffset := Layout.alignUp_lt l.pageBits l.fixedSize
  have htotal := Layout.alignUp_lt l.pageBits
    (Layout.alignUp l.pageBits l.fixedSize + l.resetAreaSize)
  have hround : resetOffset l = BitVec.ofNat 64 (Layout.alignUp l.pageBits l.fixedSize) :=
    Layout.roundUp_ofNat hk l.fixedSize
  have hround' : resetTotalSize l = BitVec.ofNat 64 (Layout.alignUp l.pageBits
      (Layout.alignUp l.pageBits l.fixedSize + l.resetAreaSize)) := by
    rw [← Layout.roundUp_ofNat hk, BitVec.ofNat_add, ← hround]
    rfl
  rw [hround, hround', BitVec.toNat_ofNat, BitVec.toNat_ofNat]
  exact ⟨Nat.mod_eq_of_lt (by omega), Nat.mod_eq_of_lt (by omega)⟩

/-- **The blocks of the segment of the reset area.** Attached at a page boundary `b`, with sizes for
which `size_t` does not overflow, the fixed blocks and the reset area lie one after the other in the
segment, and the reset area starts at a page boundary.

**Proof sketch.** They are placed by a cursor that is rounded up after each of them. -/
theorem resetArea_layout (hk : l.pageBits ≤ 64)
    (hsize : l.fixedSize + l.resetAreaSize + 2 * 2 ^ l.pageBits ≤ 2 ^ 64) {b : BitVec 64}
    (hb : 2 ^ l.pageBits ∣ b.toNat) (hfits : b.toNat + (resetTotalSize l).toNat < 2 ^ 64) :
    Layout.Ordered b.toNat
        [⟨b.toNat, l.fixedSize⟩, ⟨(b + resetOffset l).toNat, l.resetAreaSize⟩]
        (b.toNat + (resetTotalSize l).toNat) ∧
      2 ^ l.pageBits ∣ (b + resetOffset l).toNat := by
  obtain ⟨hoffset, htotal⟩ := resetArea_toNat hk hsize
  have hordered := Layout.ordered_afterAddress l.pageBits 0 [l.fixedSize, l.resetAreaSize]
  simp only [Layout.place_cons, Layout.place_nil, Layout.finish_cons, Layout.finish_nil,
    Layout.afterAddress, Nat.zero_add, ← hoffset] at hordered
  rw [hoffset, ← htotal, ← hoffset] at hordered
  obtain ⟨-, hfixed, hreset⟩ := hordered
  have hend : (resetOffset l).toNat + l.resetAreaSize ≤ (resetTotalSize l).toNat := hreset
  have hstart : (b + resetOffset l).toNat = b.toNat + (resetOffset l).toNat := by
    rw [BitVec.toNat_add, Nat.mod_eq_of_lt (by omega)]
  rw [hstart]
  refine ⟨⟨le_rfl, ?_, ?_⟩, Nat.dvd_add hb ?_⟩
  · show b.toNat + l.fixedSize ≤ b.toNat + (resetOffset l).toNat
    have hfixed' : l.fixedSize ≤ (resetOffset l).toNat := by simpa using hfixed
    omega
  · show b.toNat + (resetOffset l).toNat + l.resetAreaSize ≤ b.toNat + (resetTotalSize l).toNat
    omega
  · rw [hoffset]
    exact Nat.dvd_of_mod_eq_zero (Layout.alignUp_mod _ _)

/-- Attached where `mmap` puts it. -/
theorem resetArea_layout_of_small :
    2 ^ 12 ∣ (0x7F0000000000 + resetOffset ⟨⟨1, 1, 1, 1, false⟩, 16, 12⟩ : BitVec 64).toNat :=
  (@resetArea_layout ⟨⟨1, 1, 1, 1, false⟩, 16, 12⟩ (by decide) (by decide) 0x7F0000000000
    (by decide) (by decide)).2

end ResetArea

/-! ## A power-on reset cut short -/

/-- Blocks of one byte each. -/
def smallLayout : ShmLayout := ⟨⟨1, 1, 1, 1, false⟩, 16, 12⟩

/-- A system without segments. -/
def empty : Sys := ⟨⟨fun _ => ⟨0, 0⟩, fun _ => none, 0⟩, .off, smallLayout, fun _ => 0, []⟩

lemma valid_empty : empty.table.Valid := ⟨nofun, nofun⟩

/-- The first session stores to the CDS and to the reset area. -/
def firstSession : List Event :=
  .boot none rstTypePoweron :: List.replicate 14 .store ++
    [.enter, .writeToCDS (some fun _ => 7) 0 1, .storeArea .reset 0 8]

/-- A task begins to restart the processor with a power-on reset, and has removed the CDS when the
process ends. -/
def cutRestart : List Event :=
  firstSession ++ [.beginRestart rstTypePoweron, .restartStep 0 (.delete .cds) true]

lemma not_deleted_cutRestart : ¬Deleted .resetArea cutRestart := by
  simp [Deleted, cutRestart, firstSession]

lemma deleted_cutRestart : Deleted .cds cutRestart := ⟨0, by simp [cutRestart]⟩

lemma cutRestart_runs : ∃ t u,
    run step empty ([] ++ .setup smallLayout .nothing true :: cutRestart) = some t ∧
      t.phase = .running ∧
      run step t (.exit :: [] ++ [.setup smallLayout .nothing true]) = some u :=
  ⟨_, _, rfl, rfl, rfl⟩

/-- The next boot finds the reset area, and a CDS of zeros. -/
theorem segments_found_of_cut : ∃ t u : Sys,
    run step empty ([] ++ .setup smallLayout .nothing true :: cutRestart) = some t ∧
      only .resetArea u.mem = only .resetArea t.mem ∧ only .cds u.mem = 0 := by
  obtain ⟨t, u, ht, -, hu⟩ := cutRestart_runs
  have hexit : Event.exit ∉ cutRestart := by simp [cutRestart, firstSession]
  refine ⟨t, u, ht, ?_, ?_⟩
  · exact (segments_found valid_empty hexit ht (List.forall_mem_nil _) hu .resetArea).1
      not_deleted_cutRestart
  · exact (segments_found valid_empty hexit ht (List.forall_mem_nil _) hu .cds).2
      deleted_cutRestart

/-- The next boot is a processor reset. -/
theorem nextReset_of_session_of_cut : ∃ t u : Sys,
    run step empty ([] ++ .setup smallLayout .nothing true :: cutRestart) = some t ∧
      startupResetType none u.mem = rstTypeProcessor := by
  obtain ⟨t, u, ht, hphase, hu⟩ := cutRestart_runs
  have hexit : Event.exit ∉ cutRestart := by simp [cutRestart, firstSession]
  refine ⟨t, u, ht, ?_⟩
  exact (nextReset_of_session valid_empty hexit ht hphase (List.forall_mem_nil _) hu).2
    ⟨not_deleted_cutRestart, rfl⟩

lemma processorRestart_runs : ∃ t t' u : Sys,
    run step empty ([] ++ .setup smallLayout .nothing true :: firstSession) = some t ∧
      run step t (uninterrupted t.restarts rstTypeProcessor) = some t' ∧
      run step t' (.exit :: [] ++ [.setup smallLayout .nothing true]) = some u :=
  ⟨_, _, _, rfl, rfl, rfl⟩

/-- A processor reset after the first session. -/
theorem restart_refined_of_processor : ∃ t u : Sys,
    run step empty ([] ++ .setup smallLayout .nothing true :: firstSession) = some t ∧
      u.mem = restart rstTypeProcessor t.mem := by
  obtain ⟨t, t', u, ht, hrestart, hu⟩ := processorRestart_runs
  have hexit : Event.exit ∉ firstSession := by simp [firstSession]
  have hnone : ∀ k, ¬Deleted k firstSession := by simp [Deleted, firstSession]
  exact ⟨t, u, ht, restart_refined valid_empty hexit ht hnone hrestart (List.forall_mem_nil _) hu⟩

end CfePsp.PcLinux.SharedMemory
