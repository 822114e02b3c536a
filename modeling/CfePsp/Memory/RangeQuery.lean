import CfePsp.Lib.Runs
import CfePsp.Memory.Range

set_option relaxedAutoImplicit false
set_option autoImplicit false

/-!
# Asking for the memory ranges

The table of the memory ranges is filled with `CFE_PSP_MemRangeSet` and asked with
`CFE_PSP_MemRanges`, `CFE_PSP_MemRangeGet` and `CFE_PSP_MemValidateRange`, in any order. To its
callers it is a registry: a partial map from the numbers of the ranges, in which the later call for
a number wins.

## Main definitions

* `CfePsp.Memory.tableStep` — the functions on the table, with what they return.
* `CfePsp.Memory.registryStep` — what they are to do with the registry.
* `CfePsp.Memory.RangeEvent.Exact` — the calls that the table answers exactly.

## Main results

* `CfePsp.Memory.table_simulates` — every run of such calls on the table is one on the registry.

## Design

A range that was never set is reported as one of zeros. The registry accepts what lies in a range
that was set; the table also accepts what only lies in the range of a slot of zeros, by its computed
end, so that a request for any type of memory is answered exactly when all ranges are set.
-/

namespace CfePsp.Memory

open Transition

variable {w n : ℕ}

/-! ## The functions -/

/-- `CFE_PSP_INVALID_POINTER`. -/
def invalidPointer : ℤ := -2

/-- Which pointers to results are `NULL`. -/
structure NullPointers where
  memoryType : Bool
  startAddr : Bool
  size : Bool
  wordSize : Bool
  attributes : Bool
  deriving DecidableEq

/-- `MemoryType == NULL || StartAddr == NULL || ...`. -/
def NullPointers.any (null : NullPointers) : Bool :=
  null.memoryType || null.startAddr || null.size || null.wordSize || null.attributes

/-- `CFE_PSP_MemRanges`. -/
def memRanges (table : List (MemTable w)) : Uint32 := BitVec.ofNat 32 table.length

/-- `CFE_PSP_MemRangeGet`: status, and the results if they are stored. -/
def memRangeGet (table : List (MemTable w)) (rangeNum : Uint32) (null : NullPointers) :
    ℤ × Option (MemTable w) :=
  if null.any then (invalidPointer, none)
  else
    match table[rangeNum.toNat]? with
    | none => (Status.invalidMemRange, none)
    | some entry => (Status.success, some entry)

/-- The calls, with what they return. -/
inductive RangeEvent (w : ℕ)
  | set (call : RangeCall w) (status : ℤ)
  | ranges (count : Uint32)
  | get (rangeNum : Uint32) (null : NullPointers) (status : ℤ) (entry : Option (MemTable w))
  | validate (address size : BitVec w) (memoryType : Uint32) (accepted : Bool)

/-- A call on the table. -/
def tableStep (table : List (MemTable w)) : RangeEvent w → Option (List (MemTable w))
  | .set call status =>
      if (memRangeSet table call).1 = status then some (memRangeSet table call).2 else none
  | .ranges count => if memRanges table = count then some table else none
  | .get rangeNum null status entry =>
      if memRangeGet table rangeNum null = (status, entry) then some table else none
  | .validate address size memoryType accepted =>
      if decide (memValidateRange table address size memoryType = Status.success) = accepted then
        some table
      else none

/-! ## The registry -/

/-- The ranges that were set, by their numbers. -/
abbrev Registry (w : ℕ) : Type := ℕ → Option (MemTable w)

/-- What is reported of a range. -/
def Registry.reported (registry : Registry w) (i : ℕ) : MemTable w := (registry i).getD 0

/-- A range is to be accepted: it is not empty, does not pass the end of the address space, and
lies in a range that was set and that has a type which is admitted. -/
def Registry.Accepts (registry : Registry w) (address size : BitVec w) (memoryType : Uint32) :
    Prop :=
  KnownType memoryType ∧ 0 < size.toNat ∧ address.toNat + size.toNat ≤ 2 ^ w ∧
    ∃ i e, registry i = some e ∧ Admits memoryType e ∧ e.startAddr.toNat ≤ address.toNat ∧
      address.toNat + size.toNat ≤ e.startAddr.toNat + e.size.toNat

open Classical in
/-- A call on a registry of `n` ranges. -/
noncomputable def registryStep (n : ℕ) (registry : Registry w) :
    RangeEvent w → Option (Registry w)
  | .set call status =>
      if rangeCheck n call = status then
        some (if status = Status.success then
          Function.update registry call.rangeNum.toNat (some call.entry) else registry)
      else none
  | .ranges count => if count = BitVec.ofNat 32 n then some registry else none
  | .get rangeNum null status entry =>
      if (status, entry) =
          if null.any then (invalidPointer, none)
          else if rangeNum.toNat < n then
            (Status.success, some (registry.reported rangeNum.toNat))
          else (Status.invalidMemRange, none) then
        some registry
      else none
  | .validate address size memoryType accepted =>
      if accepted = true ↔ registry.Accepts address size memoryType then some registry else none

/-- A call that the table answers exactly: a range that is set does not pass the end of the address
space, and when a range is validated, there is no slot with start and size zero that has a type
which is admitted. -/
def RangeEvent.Exact (table : List (MemTable w)) : RangeEvent w → Prop
  | .set call _ => call.Accepted table.length →
      call.entry.startAddr.toNat + call.entry.size.toNat ≤ 2 ^ w
  | .validate _ _ memoryType _ => ∀ e ∈ table, ¬Phantom memoryType e
  | .ranges _ | .get .. => True

instance (table : List (MemTable w)) : (e : RangeEvent w) → Decidable (e.Exact table)
  | .set call _ => inferInstanceAs (Decidable (call.Accepted table.length → _ ≤ _))
  | .validate _ _ memoryType _ => inferInstanceAs (Decidable (∀ e ∈ table, ¬Phantom memoryType e))
  | .ranges _ | .get .. => isTrue trivial

/-! ## The simulation -/

section Simulation

variable {table table' : List (MemTable w)} {registry : Registry w} {address size : BitVec w}
  {memoryType : Uint32} {calls : List (RangeCall w)} {tr : List (RangeEvent w)}

/-- The table and the registry are what the calls of `CFE_PSP_MemRangeSet` have made of them. -/
structure Represents (n : ℕ) (calls : List (RangeCall w)) (table : List (MemTable w))
    (registry : Registry w) : Prop where
  table : table = memRangeSets n calls
  registry : registry = configured n calls
  space : InSpace n calls

/-- The table holds what the registry reports. -/
lemma Represents.getElem? (h : Represents n calls table registry) {i : ℕ} (hi : i < n) :
    table[i]? = some (registry.reported i) := by
  rw [h.table, h.registry, getElem?_memRangeSets i hi, Registry.reported]

lemma Represents.length_eq (h : Represents n calls table registry) : table.length = n := by
  rw [h.table, length_memRangeSets]

/-- `MemValidateRange` succeeds exactly for what the registry is to accept. -/
lemma Represents.validate_iff (h : Represents n calls table registry)
    (hexact : ∀ e ∈ table, ¬Phantom memoryType e) :
    memValidateRange table address size memoryType = Status.success ↔
      registry.Accepts address size memoryType := by
  obtain ⟨rfl, rfl, hspace⟩ := h
  by_cases hknown : KnownType memoryType
  · rw [memValidateRange_accepts_iff hspace hknown, Registry.Accepts, and_iff_right hknown]
    refine or_iff_left ?_
    rintro ⟨-, e, he, hphantom⟩
    exact hexact e he hphantom
  · have hrefused : memoryType ≠ memAny ∧ memoryType ≠ memRam ∧ memoryType ≠ memEeprom := by
      simpa [KnownType] using hknown
    rw [memValidateRange, if_pos hrefused]
    exact iff_of_false (by decide) fun haccepts => hknown haccepts.1

/-- `CFE_PSP_MemRangeSet` returns what its checks do. -/
lemma memRangeSet_fst (table : List (MemTable w)) (call : RangeCall w) :
    (memRangeSet table call).1 = rangeCheck table.length call := by
  simp only [memRangeSet]
  split_ifs
  · rfl
  · rfl

/-- A call of `CFE_PSP_MemRangeSet`. -/
lemma Represents.set (h : Represents n calls table registry) {call : RangeCall w}
    (hexact : call.Accepted n → call.entry.startAddr.toNat + call.entry.size.toNat ≤ 2 ^ w) :
    Represents n (calls ++ [call]) (memRangeSet table call).2
      (if call.Accepted n then
        Function.update registry call.rangeNum.toNat (some call.entry) else registry) where
  table := by rw [memRangeSets_concat, h.table]
  registry := by
    funext i
    rw [configured_concat, h.registry]
    by_cases haccepted : call.Accepted n
    · rw [if_pos haccepted, Function.update_apply]
      simp only [haccepted, true_and, eq_comm]
    · rw [if_neg haccepted, if_neg fun hboth => haccepted hboth.1]
  space := by
    intro call' hcall'
    rcases List.mem_append.1 hcall' with hmem | hmem
    · exact h.space call' hmem
    · rw [List.mem_singleton.1 hmem]
      exact hexact

/-- A call on the table is one on the registry. -/
lemma Represents.step (h : Represents n calls table registry) {e : RangeEvent w}
    (hexact : e.Exact table) (hs : tableStep table e = some table') :
    ∃ registry' calls', registryStep n registry e = some registry' ∧
      Represents n calls' table' registry' := by
  have hlength := h.length_eq
  cases e with
  | set call status =>
    rw [RangeEvent.Exact, hlength] at hexact
    simp only [tableStep, memRangeSet_fst, hlength] at hs
    split_ifs at hs with hstatus
    obtain rfl := Option.some.inj hs
    subst hstatus
    exact ⟨_, calls ++ [call], if_pos rfl, h.set hexact⟩
  | ranges count =>
    simp only [tableStep, memRanges, hlength] at hs
    split_ifs at hs with hcount
    obtain rfl := Option.some.inj hs
    exact ⟨_, _, if_pos hcount.symm, h⟩
  | get rangeNum null status entry =>
    simp only [tableStep, memRangeGet] at hs
    split_ifs at hs with hnull hresult hresult
    · obtain rfl := Option.some.inj hs
      exact ⟨_, _, by rw [registryStep, if_pos hnull, if_pos hresult.symm], h⟩
    · obtain rfl := Option.some.inj hs
      refine ⟨registry, _, ?_, h⟩
      rw [registryStep, if_neg hnull]
      by_cases hlt : rangeNum.toNat < n
      · rw [if_pos hlt]
        rw [h.getElem? hlt] at hresult
        exact if_pos hresult.symm
      · rw [if_neg hlt]
        rw [List.getElem?_eq_none (hlength ▸ not_lt.1 hlt)] at hresult
        exact if_pos hresult.symm
  | validate address size memoryType accepted =>
    simp only [tableStep] at hs
    split_ifs at hs with haccepted
    obtain rfl := Option.some.inj hs
    refine ⟨registry, _, if_pos ?_, h⟩
    rw [← haccepted, decide_eq_true_iff]
    exact h.validate_iff hexact

/-- **The table is a registry.** Every run of calls on a table of `n` zeros, as long as they are
calls that it answers exactly, is, call for call and result for result, a run on a registry of `n`
ranges in which nothing is set: the later of two accepted calls for a number wins, refused calls
change nothing, a range is reported as it was set, and exactly those ranges are valid that lie in a
range that was set.

**Proof sketch.** The table and the registry are what the calls of `MemRangeSet` so far have made of
them. -/
theorem table_simulates
    (hexact : Always tableStep (fun table e => e.Exact table) (List.replicate n 0) tr)
    (hrun : run tableStep (List.replicate n 0) tr = some table) :
    ∃ registry, run (registryStep n) (fun _ => none) tr = some registry ∧
      ∀ i < n, table[i]? = some (registry.reported i) := by
  have hstart : Represents n [] (List.replicate n (0 : MemTable w)) fun _ => none :=
    ⟨rfl, rfl, List.forall_mem_nil _⟩
  suffices hsim : ∃ registry calls, run (registryStep n) (fun _ => none) tr = some registry ∧
      Represents n calls table registry by
    obtain ⟨registry, calls, hregistry, h⟩ := hsim
    exact ⟨registry, hregistry, fun i hi => h.getElem? hi⟩
  refine run_invariant_of_always (P := fun tr table => ∃ registry calls,
    run (registryStep n) (fun _ => none) tr = some registry ∧ Represents n calls table registry)
    ⟨_, _, run_nil _, hstart⟩ ?_ hexact hrun
  rintro tr table e table' ⟨registry, calls, hregistry, h⟩ hexact hs
  obtain ⟨registry', calls', hstep, h'⟩ := h.step hexact hs
  exact ⟨registry', calls', run_concat.2 ⟨registry, hregistry, hstep⟩, h'⟩

/-- A range in RAM. -/
def ramRange : MemTable 32 := ⟨memRam, 1, 0x1000, 0x100, 3⟩

/-- A range in EEPROM. -/
def eepromRange : MemTable 32 := ⟨memEeprom, 4, 0x8000, 0x100, 3⟩

/-- Calls on a table of two ranges. Before the first one is set, only requests for a type are
answered exactly. -/
def someCalls : List (RangeEvent 32) :=
  [.set ⟨1, eepromRange⟩ Status.success, .set ⟨2, eepromRange⟩ Status.invalidMemRange,
    .get 1 ⟨false, false, false, false, false⟩ Status.success (some eepromRange),
    .validate 0x8010 16 memEeprom true, .validate 0x8010 16 memRam false,
    .set ⟨0, ramRange⟩ Status.success, .validate 0x1010 16 memAny true,
    .validate 0x3000 16 memAny false]

theorem table_simulates_of_some : ∃ registry,
    run (registryStep 2) (fun _ => none) someCalls = some registry ∧
      ∀ i < 2, [ramRange, eepromRange][i]? = some (registry.reported i) :=
  @table_simulates 32 2 [ramRange, eepromRange] someCalls (by decide) (by decide)

end Simulation

end CfePsp.Memory
