import CfePsp.Freertos.MpfsRestart

set_option relaxedAutoImplicit false
set_option autoImplicit false

/-!
# The start-up that the FreeRTOS ports share

`CFE_PSP_InitProcessorReservedMemory` leaves the type of the next reset in the boot record, for the
case that the session ends without a restart. The `OS_Application_Startup` of the shared sources
looks at the cause of the reset only, and never reads the record.

## Main definitions

* `CfePsp.Freertos.Shared.osApplicationStartup` — the start-up.
* `CfePsp.Freertos.Shared.machine` — boots and sessions.

## Main results

* `CfePsp.Freertos.Shared.not_poweron_of_watchdog` — after a PROCESSOR session that ended by the
  watchdog, the record prescribes a power-on, and the next boot is a PROCESSOR boot again.
-/

namespace CfePsp.Freertos.Shared

open PcLinux (rstTypeProcessor rstTypePoweron)

variable {w : ℕ}

/-! ## The start-up -/

/-- The causes of a reset, which the hardware library defines. They are labels of one `switch`. -/
structure HlpResetTypes where
  /-- `HLP_RESET_TYPE_POWERON`. -/
  poweron : Uint32
  /-- `HLP_RESET_TYPE_WATCHDOG`. -/
  watchdog : Uint32
  /-- `HLP_RESET_TYPE_SOFTWARE`. -/
  software : Uint32
  /-- `HLP_RESET_TYPE_EXTERNAL`. -/
  external : Uint32
  /-- `HLP_RESET_TYPE_DEBUG`. -/
  debug : Uint32
  distinct : [poweron, watchdog, software, external, debug].Nodup

/-- The `switch` of `OS_Application_Startup`. -/
def decodeReset (hlp : HlpResetTypes) (bspResetType : Uint32) : Start :=
  if bspResetType = hlp.poweron then ⟨rstTypePoweron, RstSubtype.powerCycle⟩
  else if bspResetType = hlp.watchdog then ⟨rstTypeProcessor, RstSubtype.hwWatchdog⟩
  else if bspResetType = hlp.software then ⟨rstTypeProcessor, RstSubtype.resetCommand⟩
  else if bspResetType = hlp.external then ⟨rstTypePoweron, RstSubtype.pushButton⟩
  else if bspResetType = hlp.debug then ⟨rstTypePoweron, RstSubtype.powerCycle⟩
  else ⟨rstTypePoweron, RstSubtype.undefinedReset⟩

/-- `OS_Application_Startup`: how cFE is started, and the memory. -/
def osApplicationStartup (b : Board w) (hlp : HlpResetTypes) (bspResetType : Uint32)
    (mem : ℕ → UInt8) : Start × (ℕ → UInt8) :=
  let start := decodeReset hlp bspResetType
  (start, initProcessorReservedMemory b start.resetType mem)

/-- Boots and sessions. A session may leave anything in the memory but for `bsp_reset_type`, to
which nothing else stores; `CFE_PSP_Restart` only calls the hardware library. -/
def machine (b : Board w) (hlp : HlpResetTypes) :
    Sessions.Machine (ℕ → UInt8) Uint32 Start (ℕ → UInt8) Uint32 where
  boot := osApplicationStartup b hlp
  act left mem := b.setBspResetType (b.bspResetType mem) left
  restart _ mem := mem

/-! ## The record and the next boot -/

section Record

variable {b : Board w} {hlp : HlpResetTypes} {mem : ℕ → UInt8} {t : Uint32}

/-- What `CFE_PSP_InitProcessorReservedMemory` prescribes for an unclean end. -/
lemma bspResetType_initProcessorReservedMemory :
    b.bspResetType (initProcessorReservedMemory b t mem) =
      if t = rstTypePoweron then rstTypeProcessor else rstTypePoweron := by
  rw [initProcessorReservedMemory]
  split_ifs
  · exact bspResetType_setBspResetType
  · exact bspResetType_setBspResetType

/-- A reset by the watchdog is a PROCESSOR reset, whatever the record says. -/
lemma osApplicationStartup_watchdog :
    (osApplicationStartup b hlp hlp.watchdog mem).1 =
      ⟨rstTypeProcessor, RstSubtype.hwWatchdog⟩ := by
  have hne : hlp.watchdog ≠ hlp.poweron := by
    have hdistinct := hlp.distinct
    simp only [List.nodup_cons, List.mem_cons, not_or] at hdistinct
    exact fun h => hdistinct.1.1 h.symm
  show decodeReset hlp hlp.watchdog = _
  rw [decodeReset, if_neg hne, if_pos rfl]

/-- **The record is written and not read.** In every run of boots and sessions, whatever the memory
held: when a PROCESSOR boot ended without a restart, the boot record prescribes a power-on, and the
boot that the watchdog causes is not one.

**Proof sketch.** Each boot establishes what the record says and each session keeps it; the start-up
does not depend on it. -/
theorem not_poweron_of_watchdog {tr : List (Sessions.Event Uint32 (ℕ → UInt8) Uint32)}
    {s : Sessions.State (ℕ → UInt8) Start Uint32}
    (hrun : Transition.run (Sessions.step (machine b hlp)) ⟨mem, .off⟩ tr = some s)
    {start : Start} (hdown : s.phase = .down start .failed)
    (hprocessor : start.resetType = rstTypeProcessor) :
    b.bspResetType s.mem = rstTypePoweron ∧
      (osApplicationStartup b hlp hlp.watchdog s.mem).1.resetType ≠ rstTypePoweron := by
  have hknown := Sessions.run_known (P := fun start mem => b.bspResetType mem =
      if start.resetType = rstTypePoweron then rstTypeProcessor else rstTypePoweron)
    (fun _ _ => bspResetType_initProcessorReservedMemory)
    (fun _ _ _ h => bspResetType_setBspResetType.trans h) hrun
  unfold Sessions.Known at hknown
  rw [hdown] at hknown
  have hrecord : b.bspResetType s.mem = rstTypePoweron := by
    rw [hknown, hprocessor, if_neg (by decide)]
  refine ⟨hrecord, ?_⟩
  rw [osApplicationStartup_watchdog]
  decide

/-- Causes of a reset, numbered. -/
def sampleHlp : HlpResetTypes := ⟨0, 1, 2, 3, 4, by decide⟩

/-- A boot by the watchdog and an unclean end: the record prescribes a power-on, which the next
watchdog reset is not. -/
theorem not_poweron_of_watchdogFirst :
    ∃ s, Transition.run (Sessions.step (machine Mpfs.sampleBoard sampleHlp)) ⟨fun _ => 0, .off⟩
        [.boot sampleHlp.watchdog, .fail] = some s ∧
      Mpfs.sampleBoard.bspResetType s.mem = rstTypePoweron ∧
      (osApplicationStartup Mpfs.sampleBoard sampleHlp sampleHlp.watchdog s.mem).1.resetType ≠
        rstTypePoweron := by
  refine ⟨_, rfl, ?_⟩
  have hrun : Transition.run (Sessions.step (machine Mpfs.sampleBoard sampleHlp)) ⟨fun _ => 0, .off⟩
    [.boot sampleHlp.watchdog, .fail] = some _ := rfl
  exact not_poweron_of_watchdog hrun rfl rfl

/-- After a power-up and a watchdog reset, the PROCESSOR boot ends by the watchdog as well, and the
next boot is a PROCESSOR boot again. -/
theorem processor_again_after_watchdogs :
    ∃ s, Transition.run (Sessions.step (machine Mpfs.sampleBoard sampleHlp)) ⟨fun _ => 0, .off⟩
        [.boot sampleHlp.poweron, .fail, .boot sampleHlp.watchdog, .fail] = some s ∧
      s.phase = .down ⟨rstTypeProcessor, RstSubtype.hwWatchdog⟩ .failed ∧
      (osApplicationStartup Mpfs.sampleBoard sampleHlp sampleHlp.watchdog s.mem).1.resetType =
        rstTypeProcessor :=
  ⟨_, rfl, rfl, rfl⟩

end Record

end CfePsp.Freertos.Shared
