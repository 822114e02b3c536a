import CfePsp.Basic
import CfePsp.Lib.Cells

set_option relaxedAutoImplicit false
set_option autoImplicit false

/-!
# Multi-channel reads of the system monitor drivers

The four system monitor drivers answer `CFE_PSP_IODriver_ANALOG_IO_READ_CHANNELS` on their per-cpu
subsystem with the same loop, copied by hand. They differ in where the number of cores comes from
and in what becomes of the status; the driver for FreeRTOS has a single core.

## Main definitions

* `CfePsp.Sysmon.cpuLoadDispatch` — the function the four have in common, with the stores it
  makes into `Samples`.
* `CfePsp.Sysmon.linuxSysmonCpuLoadDispatch`, `CfePsp.Sysmon.rtemsSysmonCpuLoadDispatch`,
  `CfePsp.Sysmon.vxworksSysmonCpuLoadDispatch`, `CfePsp.Sysmon.freertosSysmonCpuLoadDispatch`.
* `CfePsp.Sysmon.ReadContract` — what a multi-channel read has to do.

## Main results

* `CfePsp.Sysmon.readContract_iff` — for each driver, the requests that it answers so.

## Design

A call returns its status and the list of its stores, each an index into `Samples` and a value:
what it stores is visible even where it stores what was there before, and so are the places
outside the array.
-/

namespace CfePsp.Sysmon

/-- `CFE_PSP_IODriver_AdcCode_t`. -/
abbrev AdcCode := BitVec 32

/-! ## Command codes (`iodriver_base.h`, `iodriver_analog_io.h`) -/

/-- `CFE_PSP_IODriver_NOOP`. -/
def noop : Uint32 := 0
/-- `CFE_PSP_IODriver_ANALOG_IO_NOOP`. -/
def analogIoNoop : Uint32 := 0x00010000
/-- `CFE_PSP_IODriver_ANALOG_IO_READ_CHANNELS`. -/
def analogIoReadChannels : Uint32 := 0x00010001

/-! ## The drivers -/

/-- The body of the four `…_sysmon_cpu_load_dispatch` functions: status and stores into
`Samples`. The driver has `cores` cores with the loads `load`; a read sets the status to `onRead`,
a request out of range sets it to `onRefusal`. -/
def cpuLoadDispatch (cores : ℕ) (load : ℕ → AdcCode) (onRead onRefusal : ℤ)
    (commandCode : Uint32) (subchannel numChannels : Uint16) : ℤ × List (ℕ × AdcCode) :=
  if commandCode = noop ∨ commandCode = analogIoNoop then (Status.success, [])
  else if commandCode = analogIoReadChannels then
    if subchannel.toNat < cores ∧ subchannel.toNat + numChannels.toNat ≤ cores then
      (onRead, (List.range' subchannel.toNat numChannels.toNat).map fun ch => (ch, load ch))
    else (onRefusal, [])
  else (Status.errorNotImplemented, [])

/-- The state of `linux_sysmon` and its like, as far as a read looks at it. -/
structure CpuLoadState where
  /-- The number of cores seen. -/
  numCpus : BitVec 8
  /-- `per_core[…].avg_load`. -/
  perCore : ℕ → AdcCode

/-- `linux_sysmon_cpu_load_dispatch`. The status is not set by a read. -/
def linuxSysmonCpuLoadDispatch (state : CpuLoadState) :
    Uint32 → Uint16 → Uint16 → ℤ × List (ℕ × AdcCode) :=
  cpuLoadDispatch state.numCpus.toNat state.perCore Status.errorNotImplemented
    Status.errorNotImplemented

/-- `rtems_sysmon_cpu_load_dispatch`, for `RTEMS_SYSMON_MAX_CPUS` cores. The status is not set
by a read. -/
def rtemsSysmonCpuLoadDispatch (maxCpus : ℕ) (state : CpuLoadState) :
    Uint32 → Uint16 → Uint16 → ℤ × List (ℕ × AdcCode) :=
  cpuLoadDispatch maxCpus state.perCore Status.errorNotImplemented Status.errorNotImplemented

/-- `vxworks_sysmon_cpu_load_dispatch`, for `VXWORKS_SYSMON_MAX_CPUS` cores. -/
def vxworksSysmonCpuLoadDispatch (maxCpus : ℕ) (state : CpuLoadState) :
    Uint32 → Uint16 → Uint16 → ℤ × List (ℕ × AdcCode) :=
  cpuLoadDispatch maxCpus state.perCore Status.success Status.error

/-- `freertos_sysmon_cpu_load_dispatch`: `FREERTOS_SYSMON_MAX_CPUS` is one, and its load is
`core.avg_load`. -/
def freertosSysmonCpuLoadDispatch (avgLoad : AdcCode) :
    Uint32 → Uint16 → Uint16 → ℤ × List (ℕ × AdcCode) :=
  cpuLoadDispatch 1 (fun _ => avgLoad) Status.success Status.error

/-! ## The contract -/

/-- The channels asked for are cores of the driver. -/
def InRange (cores : ℕ) (s n : Uint16) : Prop := s.toNat < cores ∧ s.toNat + n.toNat ≤ cores

/-- **The contract of a multi-channel read** of `n` channels from `s` on: in range, the load of
the core `s + i` goes into `Samples[i]`, nothing else is touched and the status is not negative;
out of range nothing is stored and the status is negative. -/
def ReadContract (cores : ℕ) (load : ℕ → AdcCode) (s n : Uint16)
    (result : ℤ × List (ℕ × AdcCode)) : Prop :=
  (InRange cores s n → 0 ≤ result.1 ∧ (∀ x ∈ result.2, x.1 < n.toNat) ∧
    ∀ samples, ∀ i < n.toNat, Cells.storeAll samples result.2 i = load (s.toNat + i)) ∧
  (¬InRange cores s n → result.1 < 0 ∧ result.2 = [])

section Read

variable {cores : ℕ} {load : ℕ → AdcCode} {onRead onRefusal : ℤ} {s n : Uint16}

/-- A read in range stores the loads of the cores, each at the index of the core. -/
lemma cpuLoadDispatch_of_inRange (h : InRange cores s n) :
    cpuLoadDispatch cores load onRead onRefusal analogIoReadChannels s n =
      (onRead, (List.range' s.toNat n.toNat).map fun ch => (ch, load ch)) := by
  have hnoop : ¬(analogIoReadChannels = noop ∨ analogIoReadChannels = analogIoNoop) := by decide
  rw [cpuLoadDispatch, if_neg hnoop, if_pos rfl]
  exact if_pos h

/-- A read out of range stores nothing. -/
lemma cpuLoadDispatch_of_not_inRange (h : ¬InRange cores s n) :
    cpuLoadDispatch cores load onRead onRefusal analogIoReadChannels s n = (onRefusal, []) := by
  have hnoop : ¬(analogIoReadChannels = noop ∨ analogIoReadChannels = analogIoNoop) := by decide
  rw [cpuLoadDispatch, if_neg hnoop, if_pos rfl]
  exact if_neg h

/-- The common body meets the contract, for a status that is negative exactly out of range, when
the request starts with the first core or is empty. -/
lemma readContract_of_start (hread : 0 ≤ onRead) (hrefusal : onRefusal < 0)
    (h : s.toNat = 0 ∨ n.toNat = 0) :
    ReadContract cores load s n
      (cpuLoadDispatch cores load onRead onRefusal analogIoReadChannels s n) := by
  refine ⟨fun hin => ?_, fun hout => ?_⟩
  · rw [cpuLoadDispatch_of_inRange hin]
    refine ⟨hread, fun x hx => ?_, fun samples i hi => ?_⟩
    · obtain ⟨ch, hch, rfl⟩ := List.mem_map.1 hx
      have hmem := List.mem_range'_1.1 hch
      show ch < n.toNat
      omega
    · show Cells.storeAll samples ((List.range' s.toNat n.toNat).map fun ch => (ch, load ch)) i = _
      rw [Cells.storeAll_range', Cells.overlay_of_mem (by omega)]
      congr 1
      omega
  · rw [cpuLoadDispatch_of_not_inRange hout]
    exact ⟨hrefusal, rfl⟩

/-- In range, a request that is not empty and starts past the first core stores behind the end
of `Samples`. -/
lemma start_of_readContract (h : ReadContract cores load s n
    (cpuLoadDispatch cores load onRead onRefusal analogIoReadChannels s n)) :
    ¬InRange cores s n ∨ s.toNat = 0 ∨ n.toNat = 0 := by
  by_contra hcond
  obtain ⟨hin, hs, hn⟩ := by simpa only [not_or, not_not] using hcond
  have hlast := (h.1 hin).2.1
  rw [cpuLoadDispatch_of_inRange hin] at hlast
  have hmem : (s.toNat + n.toNat - 1, load (s.toNat + n.toNat - 1)) ∈
      (List.range' s.toNat n.toNat).map fun ch => (ch, load ch) :=
    List.mem_map.2 ⟨_, List.mem_range'_1.2 (by omega), rfl⟩
  have hlt : s.toNat + n.toNat - 1 < n.toNat := hlast _ hmem
  omega

/-- With a status that is never set, the contract is met out of range only. -/
lemma readContract_iff_of_unset {status : ℤ} (hstatus : status < 0) :
    ReadContract cores load s n
        (cpuLoadDispatch cores load status status analogIoReadChannels s n) ↔
      ¬InRange cores s n := by
  refine ⟨fun h hin => ?_, fun hout => ⟨fun hin => absurd hin hout, fun _ => ?_⟩⟩
  · have hnonneg := (h.1 hin).1
    rw [cpuLoadDispatch_of_inRange hin] at hnonneg
    exact absurd hnonneg (Int.not_le.2 hstatus)
  · rw [cpuLoadDispatch_of_not_inRange hout]
    exact ⟨hstatus, rfl⟩

/-- **Which multi-channel reads meet the contract.** `linux_sysmon` and `rtems_sysmon` meet it for
requests out of range only, since a read leaves the status at `CFE_PSP_ERROR_NOT_IMPLEMENTED`;
`vxworks_sysmon` meets it for these, for requests from the first core on and for empty ones, since
it stores the load of a core at the index of the core; `freertos_sysmon` meets it always. -/
theorem readContract_iff (state : CpuLoadState) (maxCpus : ℕ) (avgLoad : AdcCode)
    (s n : Uint16) :
    (ReadContract state.numCpus.toNat state.perCore s n
        (linuxSysmonCpuLoadDispatch state analogIoReadChannels s n) ↔
      ¬InRange state.numCpus.toNat s n) ∧
    (ReadContract maxCpus state.perCore s n
        (rtemsSysmonCpuLoadDispatch maxCpus state analogIoReadChannels s n) ↔
      ¬InRange maxCpus s n) ∧
    (ReadContract maxCpus state.perCore s n
        (vxworksSysmonCpuLoadDispatch maxCpus state analogIoReadChannels s n) ↔
      ¬InRange maxCpus s n ∨ s.toNat = 0 ∨ n.toNat = 0) ∧
    ReadContract 1 (fun _ => avgLoad) s n
      (freertosSysmonCpuLoadDispatch avgLoad analogIoReadChannels s n) := by
  refine ⟨readContract_iff_of_unset (by decide), readContract_iff_of_unset (by decide),
    ⟨start_of_readContract, ?_⟩, ?_⟩
  · rintro (hout | hstart)
    · refine ⟨fun hin => absurd hin hout, fun _ => ?_⟩
      rw [vxworksSysmonCpuLoadDispatch, cpuLoadDispatch_of_not_inRange hout]
      exact ⟨by decide, rfl⟩
    · exact readContract_of_start (by decide) (by decide) hstart
  · by_cases hs : s.toNat = 0
    · exact readContract_of_start (by decide) (by decide) (.inl hs)
    · have hout : ¬InRange 1 s n := fun hin => by
        have := hin.1
        omega
      refine ⟨fun hin => absurd hin hout, fun _ => ?_⟩
      rw [freertosSysmonCpuLoadDispatch, cpuLoadDispatch_of_not_inRange hout]
      exact ⟨by decide, rfl⟩

/-- Four cores: the drivers for Linux and RTEMS report a read of core `0` as not implemented; the
driver for VxWorks stores the load of core `2` behind an array of one sample. -/
theorem readContract_fails :
    ¬ReadContract 4 (fun _ => 7) 0 1
        (linuxSysmonCpuLoadDispatch ⟨4, fun _ => 7⟩ analogIoReadChannels 0 1) ∧
      ¬ReadContract 4 (fun _ => 7) 0 1
        (rtemsSysmonCpuLoadDispatch 4 ⟨4, fun _ => 7⟩ analogIoReadChannels 0 1) ∧
      ¬ReadContract 4 (fun _ => 7) 2 1
        (vxworksSysmonCpuLoadDispatch 4 ⟨4, fun _ => 7⟩ analogIoReadChannels 2 1) := by
  refine ⟨fun h => ?_, fun h => ?_, fun h => ?_⟩
  · exact absurd (h.1 ⟨by decide, by decide⟩).1 (by decide)
  · exact absurd (h.1 ⟨by decide, by decide⟩).1 (by decide)
  · exact absurd ((h.1 ⟨by decide, by decide⟩).2.1 (2, 7) (by decide)) (by decide)

end Read

end CfePsp.Sysmon
