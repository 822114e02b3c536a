import CfePsp.Basic
import CfePsp.Lib.Runs

set_option relaxedAutoImplicit false
set_option autoImplicit false

/-!
# The watchdogs of the FreeRTOS ports

Both ports keep the timeout and a flag in variables of their own, next to the hardware. On
mpfs-discovery the watchdog cannot be stopped once it was started, and only an Enable programs it;
on noelv it can, and a new value is programmed when it is set.

## Main definitions

* `CfePsp.Freertos.Mpfs.Watchdog`, `CfePsp.Freertos.Noelv.Watchdog` — the variables, and what the
  hardware was told.
* `CfePsp.Freertos.Mpfs.Mirrors` — the flag of mpfs-discovery follows the hardware.
* `CfePsp.Freertos.Mpfs.TakesEffect`, `CfePsp.Freertos.Noelv.TakesEffect` — at a Service the
  timeout of the hardware was computed from the value that `CFE_PSP_WatchdogGet` returns.

## Main results

* `CfePsp.Freertos.Mpfs.mirrors_iff` — the flag follows the hardware exactly in the runs that make
  no Service between an Init and the next Enable, once Enable was called.
* `CfePsp.Freertos.takesEffect_iff` — on noelv the value that was set always takes effect, on
  mpfs-discovery it does when it is the one that the last successful Enable found.

## Design

The hardware is the list of the operations on it, in order, each with what the hardware library
returned; what it returns is part of the call that the operation is made in. A configuration also
records the watchdog value that its timeout was computed from: different values may have the same
ticks (see `CfePsp.Freertos.Mpfs.programsRequested_iff`).
-/

namespace CfePsp.Freertos

open Transition

/-- `CFE_PSP_WATCHDOG_MAX`, in milliseconds. -/
def watchdogMax : Uint32 := 0xFFFFF0

/-! ## mpfs-discovery -/

namespace Mpfs

/-- The fields of `mss_watchdog_config_t` that are set. -/
structure WatchdogConfig where
  timeVal : Uint32
  timeoutVal : Uint32
  /-- `MSS_WDOG_ENABLE` or `MSS_WDOG_DISABLE`. -/
  forbiddenEn : Bool
  mvrpVal : Uint32
  deriving DecidableEq

/-- The operations on the hardware. -/
inductive HwOp
  /-- `__disable_local_irq(WDOG0_TOUT_E51_INT)`. -/
  | disableIrq
  /-- `__enable_local_irq(WDOG0_TOUT_E51_INT)`. -/
  | enableIrq
  /-- `MSS_WD_get_config`. -/
  | getConfig
  /-- `MSS_WD_configure`, with the watchdog value that the timeout was computed from and the error
  that it returns. -/
  | configure (config : WatchdogConfig) (watchdogValue : Uint32) (error : UInt8)
  /-- `MSS_WD_reload`. -/
  | reload
  deriving DecidableEq

/-- The variables of the port and the operations on the hardware so far. -/
structure Watchdog where
  /-- `CFE_PSP_WatchdogValue`. -/
  value : Uint32
  /-- `CFE_PSP_WatchdogIsEnabled`. -/
  isEnabled : UInt8
  hw : List HwOp

/-- The watchdog after a reset. -/
def reset : Watchdog := ⟨watchdogMax, 0, []⟩

/-- The calls of the port; `error` is what `MSS_WD_configure` returns. -/
inductive Call
  | init
  | enable (error : UInt8)
  | disable
  | service
  | set (watchdogValue : Uint32)
  | get
  deriving DecidableEq

variable {w : ℕ}

/-- `WatchdogValueTicks`, computed in the wider one of the types of the value and of
`LIBERO_SETTING_MSS_APB_AHB_CLK`. -/
def watchdogValueTicks (apbAhbClk : BitVec w) (watchdogValue : Uint32) : Uint32 :=
  let wide := max 32 w
  ((watchdogValue.setWidth wide * (apbAhbClk.setWidth wide / 256)) / 1000).setWidth 32

/-- `CFE_PSP_WatchdogInit`. -/
def watchdogInit (s : Watchdog) : Watchdog :=
  { s with hw := s.hw ++ [.disableIrq], value := watchdogMax, isEnabled := 0 }

/-- `CFE_PSP_WatchdogEnable`; the error of `MSS_WD_configure` is printed only. -/
def watchdogEnable (apbAhbClk : BitVec w) (error : UInt8) (s : Watchdog) : Watchdog :=
  { s with
    hw := s.hw ++ [.getConfig, .enableIrq,
      .configure ⟨watchdogValueTicks apbAhbClk s.value, 0x3e0, false, 0⟩ s.value error, .reload]
    isEnabled := 1 }

/-- `CFE_PSP_WatchdogDisable`. -/
def watchdogDisable (s : Watchdog) : Watchdog := { s with hw := s.hw ++ [.disableIrq] }

/-- `CFE_PSP_WatchdogService`. -/
def watchdogService (s : Watchdog) : Watchdog :=
  if s.isEnabled ≠ 0 then { s with hw := s.hw ++ [.reload] } else s

/-- `CFE_PSP_WatchdogGet`. -/
def watchdogGet (s : Watchdog) : Uint32 := s.value

/-- `CFE_PSP_WatchdogSet`. -/
def watchdogSet (watchdogValue : Uint32) (s : Watchdog) : Watchdog :=
  { s with value := watchdogValue }

/-- The watchdog after a call. -/
def exec (apbAhbClk : BitVec w) (s : Watchdog) : Call → Watchdog
  | .init => watchdogInit s
  | .enable error => watchdogEnable apbAhbClk error s
  | .disable => watchdogDisable s
  | .service => watchdogService s
  | .set watchdogValue => watchdogSet watchdogValue s
  | .get => s

/-- The watchdog after the calls, from a reset on. -/
def calls (apbAhbClk : BitVec w) (tr : List Call) : Watchdog := tr.foldl (exec apbAhbClk) reset

/-- The call is one of `CFE_PSP_WatchdogEnable`. -/
def Call.IsEnable : Call → Prop
  | .enable _ => True
  | _ => False

instance : DecidablePred Call.IsEnable
  | .enable _ => isTrue trivial
  | .init | .disable | .service | .set _ | .get => isFalse id

/-- The call is an Enable whose `MSS_WD_configure` succeeds. -/
def Call.Configures : Call → Prop
  | .enable error => error = 0
  | _ => False

instance : DecidablePred Call.Configures
  | .enable error => inferInstanceAs (Decidable (error = 0))
  | .init | .disable | .service | .set _ | .get => isFalse id

/-- The operation starts the watchdog, if it was not running, and reloads it. -/
def HwOp.Starts : HwOp → Prop
  | .configure .. | .reload => True
  | .disableIrq | .enableIrq | .getConfig => False

instance : DecidablePred HwOp.Starts
  | .configure .. | .reload => isTrue trivial
  | .disableIrq | .enableIrq | .getConfig => isFalse id

/-- The watchdog is running: nothing stops it once it was started. -/
def Watchdog.Running (s : Watchdog) : Prop := ∃ op ∈ s.hw, op.Starts

instance (s : Watchdog) : Decidable s.Running :=
  inferInstanceAs (Decidable (∃ op ∈ s.hw, op.Starts))

/-- The value whose timeout was programmed last: `MSS_WD_configure` returned no error. -/
def Watchdog.programmed (s : Watchdog) : Option Uint32 :=
  s.hw.foldl (fun last op =>
    match op with
    | .configure _ watchdogValue error => if error = 0 then some watchdogValue else last
    | _ => last) none

/-- **The flag follows the hardware** through the calls: the watchdog is running exactly if Enable
was called; a Service before that does nothing to it, and a Service after that reloads it. -/
structure Mirrors (apbAhbClk : BitVec w) (tr : List Call) : Prop where
  running : ∀ before after, tr = before ++ after →
    ((calls apbAhbClk before).Running ↔ ∃ call ∈ before, call.IsEnable)
  untouched : ∀ before after, tr = before ++ .service :: after →
    (∀ call ∈ before, ¬call.IsEnable) →
    (calls apbAhbClk (before ++ [.service])).hw = (calls apbAhbClk before).hw
  reloaded : ∀ before after, tr = before ++ .service :: after →
    (∃ call ∈ before, call.IsEnable) →
    (calls apbAhbClk (before ++ [.service])).hw = (calls apbAhbClk before).hw ++ [.reload]

/-- **The value takes effect**: after every Service that is made while the flag is set, the timeout
programmed last was computed from the value that `CFE_PSP_WatchdogGet` returns. -/
def TakesEffect (apbAhbClk : BitVec w) (tr : List Call) : Prop :=
  ∀ before after, tr = before ++ .service :: after → (calls apbAhbClk before).isEnabled ≠ 0 →
    (calls apbAhbClk (before ++ [.service])).programmed =
      some (watchdogGet (calls apbAhbClk (before ++ [.service])))

/-- The value that the calls leave: that of the last Set or Init. -/
def lastSet (tr : List Call) : Uint32 :=
  tr.foldl (fun last call =>
    match call with
    | .init => watchdogMax
    | .set watchdogValue => watchdogValue
    | _ => last) watchdogMax

end Mpfs

/-! ## noelv -/

namespace Noelv

/-- The operations of the hardware library. -/
inductive HwOp
  /-- `HLP_vWatchdogDisable`. -/
  | disable
  /-- `HLP_vWatchdogEnable`, with its argument and what it returns: zero if it leaves the watchdog
  disabled. -/
  | enable (watchdogValue effectiveWatchdogValue : Uint32)
  /-- `HLP_vWatchdogFeed`. -/
  | feed
  deriving DecidableEq

/-- The variables of the port and the operations on the hardware so far. -/
structure Watchdog where
  /-- `CFE_PSP_WatchdogValue`. -/
  value : Uint32
  /-- `CFE_PSP_WatchdogIsEnabled`. -/
  isEnabled : UInt8
  hw : List HwOp

/-- The watchdog after a reset. -/
def reset : Watchdog := ⟨watchdogMax, 0, []⟩

/-- The calls of the port; `effective` is what `HLP_vWatchdogEnable` returns, if it is called. -/
inductive Call
  | init
  | enable (effective : Uint32)
  | disable
  | service
  | set (watchdogValue effective : Uint32)
  | get
  deriving DecidableEq

/-- `CFE_PSP_WatchdogInit`. -/
def watchdogInit (s : Watchdog) : Watchdog :=
  { s with hw := s.hw ++ [.disable], value := watchdogMax, isEnabled := 0 }

/-- `CFE_PSP_WatchdogEnable`. -/
def watchdogEnable (effective : Uint32) (s : Watchdog) : Watchdog :=
  { s with
    hw := s.hw ++ [.enable s.value effective]
    isEnabled := if effective = 0 then 0 else 1 }

/-- `CFE_PSP_WatchdogDisable`. -/
def watchdogDisable (s : Watchdog) : Watchdog :=
  { s with hw := s.hw ++ [.disable], isEnabled := 0 }

/-- `CFE_PSP_WatchdogService`. -/
def watchdogService (s : Watchdog) : Watchdog :=
  if s.isEnabled ≠ 0 then { s with hw := s.hw ++ [.feed] } else s

/-- `CFE_PSP_WatchdogGet`. -/
def watchdogGet (s : Watchdog) : Uint32 := s.value

/-- `CFE_PSP_WatchdogSet`. -/
def watchdogSet (watchdogValue effective : Uint32) (s : Watchdog) : Watchdog :=
  let s := { s with value := watchdogValue }
  if s.isEnabled ≠ 0 then watchdogEnable effective s else s

/-- The watchdog after a call. -/
def exec (s : Watchdog) : Call → Watchdog
  | .init => watchdogInit s
  | .enable effective => watchdogEnable effective s
  | .disable => watchdogDisable s
  | .service => watchdogService s
  | .set watchdogValue effective => watchdogSet watchdogValue effective s
  | .get => s

/-- The watchdog after the calls, from a reset on. -/
def calls (tr : List Call) : Watchdog := tr.foldl exec reset

/-- The value whose timeout was programmed last: `HLP_vWatchdogEnable` left the watchdog enabled. -/
def Watchdog.programmed (s : Watchdog) : Option Uint32 :=
  s.hw.foldl (fun last op =>
    match op with
    | .enable watchdogValue effective => if effective = 0 then last else some watchdogValue
    | .disable | .feed => last) none

/-- **The value takes effect**: after every Service that is made while the flag is set, the timeout
programmed last was computed from the value that `CFE_PSP_WatchdogGet` returns. -/
def TakesEffect (tr : List Call) : Prop :=
  ∀ before after, tr = before ++ .service :: after → (calls before).isEnabled ≠ 0 →
    (calls (before ++ [.service])).programmed = some (watchdogGet (calls (before ++ [.service])))

end Noelv

/-! ## The flag of mpfs-discovery -/

namespace Mpfs

section Flag

variable {w : ℕ} {clk : BitVec w} {s : Watchdog} {call : Call} {tr before after : List Call}

lemma calls_concat : calls clk (tr ++ [call]) = exec clk (calls clk tr) call := by
  simp [calls]

/-- The flag is set exactly if there was an Enable and no Init since. -/
lemma isEnabled_iff (tr : List Call) :
    (calls clk tr).isEnabled ≠ 0 ↔ Since Call.IsEnable (· = .init) tr := by
  induction tr using List.reverseRecOn with
  | nil => exact iff_of_false (not_not_intro rfl) not_since_nil
  | append_singleton tr call ih =>
    rw [calls_concat, since_concat, ← ih]
    cases call with
    | init => simp [exec, watchdogInit, Call.IsEnable]
    | enable error => simp [exec, watchdogEnable, Call.IsEnable]
    | disable => simp [exec, watchdogDisable, Call.IsEnable]
    | service =>
      have hflag : (watchdogService (calls clk tr)).isEnabled = (calls clk tr).isEnabled := by
        unfold watchdogService
        split <;> rfl
      simp [exec, hflag, Call.IsEnable]
    | set watchdogValue => simp [exec, watchdogSet, Call.IsEnable]
    | get => simp [exec, Call.IsEnable]

/-- A watchdog is running after operations that one of them started it, or if it was before. -/
lemma running_of_hw {u : Watchdog} {ops : List HwOp} (h : u.hw = s.hw ++ ops) :
    u.Running ↔ s.Running ∨ ∃ op ∈ ops, op.Starts := by
  simp only [Watchdog.Running, h, List.mem_append, or_and_right, exists_or]

/-- What starts the watchdog: an Enable, and a Service with the flag set. -/
lemma running_exec : (exec clk s call).Running ↔
    s.Running ∨ call.IsEnable ∨ call = .service ∧ s.isEnabled ≠ 0 := by
  cases call with
  | init => simp [exec, running_of_hw (u := watchdogInit s) rfl, HwOp.Starts, Call.IsEnable]
  | enable error =>
    simp [exec, running_of_hw (u := watchdogEnable clk error s) rfl, HwOp.Starts, Call.IsEnable]
  | disable => simp [exec, running_of_hw (u := watchdogDisable s) rfl, HwOp.Starts, Call.IsEnable]
  | service =>
    by_cases hflag : s.isEnabled = 0
    · simp [exec, watchdogService, hflag, Call.IsEnable]
    · have hhw : (watchdogService s).hw = s.hw ++ [.reload] := by
        rw [watchdogService, if_pos hflag]
      simp [exec, running_of_hw hhw, hflag, HwOp.Starts, Call.IsEnable]
  | set watchdogValue => simp [exec, watchdogSet, Watchdog.Running, Call.IsEnable]
  | get => simp [exec, Call.IsEnable]

/-- **The watchdog is running exactly if Enable was called**: the flag keeps a Service from starting
it before. -/
lemma running_iff (tr : List Call) :
    (calls clk tr).Running ↔ ∃ call ∈ tr, call.IsEnable := by
  induction tr using List.reverseRecOn with
  | nil => simp [calls, reset, Watchdog.Running]
  | append_singleton tr call ih =>
    rw [calls_concat, running_exec, ih]
    have hflag : (calls clk tr).isEnabled ≠ 0 → ∃ call ∈ tr, call.IsEnable := by
      intro hset
      obtain ⟨tr₁, call, tr₂, rfl, henable, -⟩ := (isEnabled_iff tr).1 hset
      exact ⟨call, by simp, henable⟩
    constructor
    · rintro (⟨c, hc, henable⟩ | henable | ⟨-, hset⟩)
      · exact ⟨c, List.mem_append_left _ hc, henable⟩
      · exact ⟨call, by simp, henable⟩
      · obtain ⟨c, hc, henable⟩ := hflag hset
        exact ⟨c, List.mem_append_left _ hc, henable⟩
    · rintro ⟨c, hc, henable⟩
      rcases List.mem_append.1 hc with hmem | hmem
      · exact .inl ⟨c, hmem, henable⟩
      · obtain rfl := List.mem_singleton.1 hmem
        exact .inr (.inl henable)

/-- What a Service does to the hardware. -/
lemma hw_service : (calls clk (before ++ [.service])).hw = (calls clk before).hw ++
    if (calls clk before).isEnabled ≠ 0 then [.reload] else [] := by
  rw [calls_concat]
  simp only [exec, watchdogService]
  split_ifs
  · rfl
  · exact (List.append_nil _).symm

/-- **The flag of mpfs-discovery.** In every run of calls from a reset on, the watchdog is running
exactly if Enable was called, no Service before that touches it and every Service after it reloads
it, if and only if every Service that comes after an Enable comes after one that no Init followed.

**Proof sketch.** Init clears the flag but does not stop the watchdog; otherwise the flag is set
exactly by Enable. -/
theorem mirrors_iff (apbAhbClk : BitVec w) (tr : List Call) :
    Mirrors apbAhbClk tr ↔
      ∀ before after, tr = before ++ .service :: after → (∃ call ∈ before, call.IsEnable) →
        Since Call.IsEnable (· = .init) before := by
  constructor
  · intro h before after htr henable
    have hreload := h.reloaded before after htr henable
    rw [hw_service] at hreload
    by_contra hsince
    have hflag : ¬(calls apbAhbClk before).isEnabled ≠ 0 := fun hset =>
      hsince ((isEnabled_iff before).1 hset)
    rw [if_neg hflag] at hreload
    simp at hreload
  · intro h
    refine ⟨fun before after _ => running_iff before, fun before after htr hnone => ?_,
      fun before after htr henable => ?_⟩
    · have hflag : ¬(calls apbAhbClk before).isEnabled ≠ 0 := by
        rw [isEnabled_iff]
        rintro ⟨tr₁, call, tr₂, rfl, henable, -⟩
        exact hnone call (by simp) henable
      rw [hw_service, if_neg hflag, List.append_nil]
    · rw [hw_service, if_pos ((isEnabled_iff before).2 (h before after htr henable))]

/-- An Enable, an Init and a Service. -/
def initAfterEnable : List Call := [.enable 0, .init, .service]

/-- The watchdog is running then, and the Service does not reload it. -/
theorem not_mirrors_initAfterEnable : ¬Mirrors 150000000#64 initAfterEnable := by
  intro h
  have hreload := h.reloaded [.enable 0, .init] [] rfl ⟨.enable 0, by decide, trivial⟩
  revert hreload
  decide

end Flag

end Mpfs

/-! ## The value of mpfs-discovery -/

namespace Mpfs

section Value

variable {w : ℕ} {clk : BitVec w} {s : Watchdog} {call : Call} {tr before between after : List Call}

/-- The variable holds what was set last. -/
lemma value_eq_lastSet (tr : List Call) : (calls clk tr).value = lastSet tr := by
  induction tr using List.reverseRecOn with
  | nil => rfl
  | append_singleton tr call ih =>
    rw [calls_concat, lastSet, List.foldl_append]
    cases call with
    | service =>
      simp only [exec, watchdogService]
      split_ifs
      · exact ih
      · exact ih
    | init => rfl
    | set watchdogValue => rfl
    | enable error | disable | get => exact ih

/-- Only an Enable whose configuration succeeds programs a timeout. -/
lemma programmed_exec (hcall : ¬call.Configures) : (exec clk s call).programmed = s.programmed := by
  cases call with
  | enable error =>
    have herror : ¬error = 0 := hcall
    simp [exec, watchdogEnable, Watchdog.programmed, herror]
  | init | disable => simp [exec, watchdogInit, watchdogDisable, Watchdog.programmed]
  | service =>
    simp only [exec, watchdogService]
    split_ifs
    · simp [Watchdog.programmed]
    · rfl
  | set watchdogValue => rfl
  | get => rfl

/-- A successful Enable programs the timeout of the value that was set last. -/
lemma programmed_enable :
    (calls clk (before ++ [.enable 0])).programmed = some (lastSet before) := by
  have hvalue : (calls clk before).value = lastSet before := value_eq_lastSet before
  rw [calls_concat, ← hvalue]
  simp [exec, watchdogEnable, Watchdog.programmed]

/-- After the last successful Enable the timeout is that of the value it found. -/
lemma programmed_of_split (hnone : ∀ call ∈ between, ¬call.Configures) :
    (calls clk (before ++ .enable 0 :: between)).programmed = some (lastSet before) := by
  induction between using List.reverseRecOn with
  | nil => exact programmed_enable
  | append_singleton between call ih =>
    rw [← List.cons_append, ← List.append_assoc, calls_concat, programmed_exec, ih]
    · exact fun c hc => hnone c (List.mem_append_left _ hc)
    · exact hnone call (List.mem_append_right _ (List.mem_singleton_self call))

/-- What is programmed is the value that the last successful Enable found. -/
lemma programmed_eq_some_iff (tr : List Call) (value : Uint32) :
    (calls clk tr).programmed = some value ↔ ∃ before between, tr = before ++ .enable 0 :: between ∧
      (∀ call ∈ between, ¬call.Configures) ∧ lastSet before = value := by
  constructor
  · induction tr using List.reverseRecOn with
    | nil => simp [calls, reset, Watchdog.programmed]
    | append_singleton tr call ih =>
      intro h
      by_cases hcall : call.Configures
      · cases call with
        | enable error =>
          obtain rfl : error = 0 := hcall
          rw [programmed_enable] at h
          exact ⟨tr, [], rfl, List.forall_mem_nil _, Option.some.inj h⟩
        | init | disable | service | set watchdogValue | get => exact hcall.elim
      · rw [calls_concat, programmed_exec hcall] at h
        obtain ⟨before, between, rfl, hnone, hvalue⟩ := ih h
        refine ⟨before, between ++ [call], by simp, fun c hc => ?_, hvalue⟩
        rcases List.mem_append.1 hc with hmem | hmem
        · exact hnone c hmem
        · exact List.mem_singleton.1 hmem ▸ hcall
  · rintro ⟨before, between, rfl, hnone, rfl⟩
    exact programmed_of_split hnone

/-- A Service changes neither the timeout nor the value. -/
lemma programmed_service (before : List Call) :
    (calls clk (before ++ [.service])).programmed = (calls clk before).programmed := by
  rw [calls_concat, programmed_exec id]

lemma lastSet_service (before : List Call) : lastSet (before ++ [.service]) = lastSet before := by
  simp [lastSet]

/-- **The value of mpfs-discovery** takes effect at every Service exactly if, whenever no Init
follows the last Enable before it, the value set last is the one that the last successful Enable
found. -/
lemma takesEffect_at_splits_iff (tr : List Call) :
    TakesEffect clk tr ↔
      ∀ served after, tr = served ++ .service :: after → Since Call.IsEnable (· = .init) served →
        ∃ before between, served = before ++ .enable 0 :: between ∧
          (∀ call ∈ between, ¬call.Configures) ∧ lastSet before = lastSet served := by
  refine forall_congr' fun served => forall_congr' fun after => imp_congr_right fun _ => ?_
  rw [isEnabled_iff, watchdogGet, value_eq_lastSet, programmed_service, lastSet_service,
    programmed_eq_some_iff]

end Value

end Mpfs

/-! ## The value of noelv -/

namespace Noelv

section Value

variable {s : Watchdog} {call : Call} {tr : List Call}

/-- While the flag is set, the timeout programmed last is that of the value. -/
def Agrees (s : Watchdog) : Prop := s.isEnabled ≠ 0 → s.programmed = some s.value

/-- After an Enable the two agree: it clears the flag when the watchdog stays disabled. -/
lemma agrees_watchdogEnable (effective : Uint32) (s : Watchdog) :
    Agrees (watchdogEnable effective s) := by
  intro hset
  by_cases heff : effective = 0
  · simp [watchdogEnable, heff] at hset
  · simp only [watchdogEnable, Watchdog.programmed, List.foldl_append, List.foldl_cons,
      List.foldl_nil, if_neg heff]

/-- Every call keeps the agreement. -/
lemma Agrees.exec (h : Agrees s) (call : Call) : Agrees (exec s call) := by
  cases call with
  | init => exact fun hset => absurd rfl hset
  | disable => exact fun hset => absurd rfl hset
  | enable effective => exact agrees_watchdogEnable effective s
  | service =>
    intro hset
    simp only [Noelv.exec, watchdogService] at hset ⊢
    split_ifs with hflag
    · simpa [Watchdog.programmed] using h hflag
    · rw [if_neg hflag] at hset
      exact h hset
  | set watchdogValue effective =>
    simp only [Noelv.exec, watchdogSet]
    split_ifs with hflag
    · exact agrees_watchdogEnable effective _
    · exact fun hset => absurd hset hflag
  | get => exact h

/-- The two agree in every run. -/
lemma agrees_calls (tr : List Call) : Agrees (calls tr) := by
  induction tr using List.reverseRecOn with
  | nil => exact fun hset => absurd rfl hset
  | append_singleton tr call ih =>
    rw [calls, List.foldl_append]
    exact ih.exec call

/-- **The value of noelv** takes effect at every Service. -/
lemma takesEffect (tr : List Call) : TakesEffect tr := by
  intro before after _ hset
  refine agrees_calls (before ++ [.service]) ?_
  rw [calls, List.foldl_append]
  show (watchdogService (calls before)).isEnabled ≠ 0
  rwa [watchdogService, if_pos hset]

end Value

end Noelv

/-! ## Main result -/

/-- **A value that was set takes effect at the next Service**: on noelv always; on mpfs-discovery
exactly in the runs in which every Service that is made with the flag set comes after an Enable
whose configuration succeeded, and finds the value that the last of these Enables found.

**Proof sketch.** On noelv a Set programs the value itself while the flag is set. On mpfs-discovery
only a successful Enable does, and the flag is set exactly if no Init came after the last Enable. -/
theorem takesEffect_iff {w : ℕ} (apbAhbClk : BitVec w) :
    (∀ tr, Noelv.TakesEffect tr) ∧
    ∀ tr, Mpfs.TakesEffect apbAhbClk tr ↔
      ∀ served after, tr = served ++ .service :: after →
        Since Mpfs.Call.IsEnable (· = .init) served →
        ∃ before between, served = before ++ .enable 0 :: between ∧
          (∀ call ∈ between, ¬call.Configures) ∧ Mpfs.lastSet before = Mpfs.lastSet served :=
  ⟨Noelv.takesEffect, Mpfs.takesEffect_at_splits_iff⟩

/-- An Enable, a Set of one second, and a Service. -/
def setAfterEnable : List Mpfs.Call := [.enable 0, .set 1000, .service]

/-- On mpfs-discovery the watchdog still has the timeout of the Enable then. -/
theorem not_takesEffect_setAfterEnable : ¬Mpfs.TakesEffect 150000000#64 setAfterEnable := by
  intro h
  have heffect := h [.enable 0, .set 1000] [] rfl (by decide)
  revert heffect
  decide

end CfePsp.Freertos
