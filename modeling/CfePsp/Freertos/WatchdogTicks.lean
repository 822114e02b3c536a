import CfePsp.Freertos.Watchdog
import CfePsp.Lib.Scaling

set_option relaxedAutoImplicit false
set_option autoImplicit false

/-!
# The timeout of the PolarFire watchdog

`CFE_PSP_WatchdogEnable` of mpfs-discovery turns the milliseconds of the watchdog value into ticks
of the bus clock over 256. `LIBERO_SETTING_MSS_APB_AHB_CLK` is an `int` here, so that the product is
a `uint32`.

## Main definitions

* `CfePsp.Freertos.Mpfs.requestedTicks` — the ticks of a time, in exact arithmetic.
* `CfePsp.Freertos.Mpfs.ProgramsRequested` — an Enable programs these.

## Main results

* `CfePsp.Freertos.Mpfs.programsRequested_iff` — it does exactly when the product does not wrap, and
  for the whole range of watchdog values exactly when the clock is below 65792 Hz.
-/

namespace CfePsp.Freertos.Mpfs

/-! ## The ticks -/

/-- The ticks of `ms` milliseconds. -/
def requestedTicks (clk ms : ℕ) : ℕ := ms * (clk / 256) / 1000

/-- The `time_val` that `MSS_WD_configure` was passed last, whatever it returned. -/
def Watchdog.passed (s : Watchdog) : Option Uint32 :=
  s.hw.foldl (fun last op =>
    match op with
    | .configure config _ _ => some config.timeVal
    | _ => last) none

/-- `CFE_PSP_WatchdogEnable` passes `MSS_WD_configure` the ticks of the time in
`CFE_PSP_WatchdogValue`. -/
def ProgramsRequested (clk : BitVec 32) (s : Watchdog) : Prop :=
  ∀ error, ∃ timeVal, (watchdogEnable clk error s).passed = some timeVal ∧
    timeVal.toNat = requestedTicks clk.toNat s.value.toNat

/-- An Enable with a larger watchdog value does not pass a smaller timeout. -/
def InOrder (clk : BitVec 32) (s s' : Watchdog) : Prop :=
  ∀ error error' timeVal timeVal', (watchdogEnable clk error s).passed = some timeVal →
    (watchdogEnable clk error' s').passed = some timeVal' → timeVal.toNat ≤ timeVal'.toNat

/-- The watchdog value is from `CFE_PSP_WATCHDOG_MIN` to `CFE_PSP_WATCHDOG_MAX`; the minimum is
zero. -/
def Configurable (s : Watchdog) : Prop := s.value ≤ watchdogMax

section Ticks

variable {clk : BitVec 32} {s s' : Watchdog}

lemma passed_watchdogEnable (clk : BitVec 32) (error : UInt8) (s : Watchdog) :
    (watchdogEnable clk error s).passed = some (watchdogValueTicks clk s.value) := by
  simp [watchdogEnable, Watchdog.passed]

/-- The ticks that are computed: the product wraps. -/
lemma toNat_watchdogValueTicks (clk : BitVec 32) (value : Uint32) :
    (watchdogValueTicks clk value).toNat =
      value.toNat * (clk.toNat / 256) % 2 ^ 32 / 1000 := by
  have hrate : (256 : BitVec 32).toNat = 256 := rfl
  have hthousand : (1000 : BitVec 32).toNat = 1000 := rfl
  show (((value.setWidth 32 * (clk.setWidth 32 / 256)) / 1000).setWidth 32).toNat = _
  simp only [BitVec.setWidth_eq]
  rw [BitVec.toNat_udiv, BitVec.toNat_mul, BitVec.toNat_udiv, hrate, hthousand]

/-- A single Enable is right exactly when its product does not wrap. -/
lemma programs_iff :
    ProgramsRequested clk s ↔ s.value.toNat * (clk.toNat / 256) < 2 ^ 32 := by
  simp only [ProgramsRequested, passed_watchdogEnable, Option.some.injEq, exists_eq_left',
    toNat_watchdogValueTicks, requestedTicks, forall_const]
  exact Scaling.mod_div_eq_iff (by omega) (by omega)

lemma inOrder_iff : InOrder clk s s' ↔
    (watchdogValueTicks clk s.value).toNat ≤ (watchdogValueTicks clk s'.value).toNat := by
  simp [InOrder, passed_watchdogEnable]

/-- The largest configurable product has 32 bits for the slow clocks only. -/
lemma watchdogMax_mul_lt_iff : watchdogMax.toNat * (clk.toNat / 256) < 2 ^ 32 ↔
    clk.toNat < 65792 := by
  have hmax : watchdogMax.toNat = 16777200 := rfl
  rw [hmax]
  omega

/-- For a slow clock every configurable product has 32 bits. -/
lemma mul_lt_of_slow (hclk : clk.toNat < 65792) (hs : Configurable s) :
    s.value.toNat * (clk.toNat / 256) < 2 ^ 32 :=
  (Nat.mul_le_mul_right _ (BitVec.le_def.1 hs)).trans_lt (watchdogMax_mul_lt_iff.2 hclk)

/-- For a faster clock some configurable value is given less than the one before it. -/
lemma exists_not_inOrder (hclk : ¬clk.toNat < 65792) :
    ∃ s s' : Watchdog, s.value ≤ s'.value ∧ Configurable s' ∧ ¬InOrder clk s s' := by
  have hlt := clk.isLt
  obtain ⟨n, hn, hlow, hdrop⟩ := Scaling.exists_drop (m := 2 ^ 32) (q := clk.toNat / 256)
    (c := 1000) (k := watchdogMax.toNat) (by omega) (by omega)
    (not_lt.1 (mt watchdogMax_mul_lt_iff.1 hclk))
  have hmax : watchdogMax.toNat = 16777200 := rfl
  have hval : (BitVec.ofNat 32 n).toNat = n := by
    rw [BitVec.toNat_ofNat]
    omega
  have hval' : (BitVec.ofNat 32 (n + 1)).toNat = n + 1 := by
    rw [BitVec.toNat_ofNat]
    omega
  refine ⟨{ reset with value := BitVec.ofNat 32 n },
    { reset with value := BitVec.ofNat 32 (n + 1) }, ?_, ?_, ?_⟩
  · rw [BitVec.le_def, hval, hval']
    exact Nat.le_succ n
  · rw [Configurable, BitVec.le_def, hval']
    exact hn
  · rw [inOrder_iff, toNat_watchdogValueTicks, toNat_watchdogValueTicks, hval, hval',
      Nat.mod_eq_of_lt hlow]
    exact not_le.2 hdrop

/-- **The timeout of the PolarFire watchdog.** An Enable programs the requested time if and only if
the product of the watchdog value and the clock over 256 is less than `2 ^ 32`. The Enables with
configurable values all do so if and only if the clock is below 65792 Hz, and only then are their
timeouts in the order of the values. -/
theorem programsRequested_iff (clk : BitVec 32) :
    (∀ s, ProgramsRequested clk s ↔ s.value.toNat * (clk.toNat / 256) < 2 ^ 32) ∧
    ((∀ s, Configurable s → ProgramsRequested clk s) ↔ clk.toNat < 65792) ∧
    ((∀ s s', s.value ≤ s'.value → Configurable s' → InOrder clk s s') ↔ clk.toNat < 65792) := by
  refine ⟨fun s => programs_iff, ⟨fun h => ?_, fun h s hs => ?_⟩, ⟨fun h => ?_, ?_⟩⟩
  · have hmax : Configurable reset := BitVec.le_refl watchdogMax
    exact watchdogMax_mul_lt_iff.1 (programs_iff.1 (h reset hmax))
  · exact programs_iff.2 (mul_lt_of_slow h hs)
  · by_contra hfast
    obtain ⟨s, s', hle, hs', hnot⟩ := exists_not_inOrder hfast
    exact hnot (h s s' hle hs')
  · intro h s s' hle hs'
    have hle' : s.value.toNat ≤ s'.value.toNat := hle
    have hs : Configurable s := BitVec.le_trans hle hs'
    rw [inOrder_iff, toNat_watchdogValueTicks, toNat_watchdogValueTicks,
      Nat.mod_eq_of_lt (mul_lt_of_slow h hs), Nat.mod_eq_of_lt (mul_lt_of_slow h hs')]
    exact Nat.div_le_div_right (Nat.mul_le_mul_right _ hle')

/-- At 150 MHz the power-on default of some four and a half hours becomes six seconds. -/
theorem not_programsRequested_default : ¬ProgramsRequested 150000000 (watchdogInit reset) := by
  intro h
  have hlt := programs_iff.1 h
  revert hlt
  decide

end Ticks

end CfePsp.Freertos.Mpfs
